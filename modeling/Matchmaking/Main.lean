import Matchmaking.CommandLine.Run
import Matchmaking.Json.Printer
import Matchmaking.Metrics.Exposition
import Matchmaking.Text.Identifier
import Std.Time.DateTime.Timestamp

/-!
# The program

Reads the files and variables that a command line asks for, runs the command and
prints what it gives. Records go to standard output; faults, metrics and the
usage of the program that goes with a wrong command line go to standard error.
-/

namespace Matchmaking

namespace Program

/-- The name and the version of the program. -/
def version : String := "matchmaker 0.1.0"

/-- How the program is used. -/
def usage : String := "\n".intercalate
  ["Usage: matchmaker [OPTIONS] COMMAND",
    "",
    "Commands:",
    "  match     Form new sessions (--rules FILE --tickets FILE [--channel NAME])",
    "  backfill  Fill open sessions (--rules FILE --sessions FILE --tickets FILE [--channel NAME])",
    "  validate  Check rules and tickets (--rules FILE [--tickets FILE])",
    "  simulate  Match made-up tickets ([--rules FILE] [--count N] [--attribute NAME])",
    "  help      Show this text",
    "",
    "Options:",
    "  -c, --config FILE      Settings in TOML",
    "  -l, --log-level LEVEL  How much is logged",
    "      --print-metrics    Print metrics to standard error",
    "  -h, --help             Show this text",
    "  -V, --version          Show the version"]

/-- The present time. -/
def present : IO Instant := do
  return .ofNanos (← Std.Time.Timestamp.now).toNanosecondsSinceUnixEpoch.toInt

/-- A supply of fresh identifiers. -/
def freshIds : IO (Nat → String) := do
  let seed := (← IO.getRandomBytes 16).foldl (fun n b => 256 * n + b.toNat) 0
  return fun i => Identifier.text (seed + i)

/-- The text of a file, if it can be read. -/
def readFile? (path : String) : IO (Option String) := do
  try return some (← IO.FS.readFile path) catch _ => return none

/-- The values that some names have, as far as they have one. -/
def lookUp (names : List String) (get? : String → IO (Option String)) :
    IO (String → Option String) := do
  let found ← names.filterMapM fun name => do return (← get? name).map fun v => (name, v)
  return fun name => found.lookup name

/-- What a command finds where it runs. A run that may take time is granted as much as
    it takes. -/
def surroundings (c : CommandLine) : IO Surroundings := do
  let start ← present
  return {
    files := ← lookUp c.paths readFile?
    environment := ← lookUp Config.variableNames fun name => IO.getEnv name
    start := start
    now := (← present).later 1
    granted := fun _ => .unlimited
    ids := ← freshIds }

/-- Prints what a command gives, or why it fails. -/
def finish (c : CommandLine) (result : Except CommandFault Report) (nanos : Nat) : IO UInt32 := do
  if c.printMetrics then
    let metrics := match result with
      | .ok r => Metrics.ofRuns r.channel (nanos / max r.runs.length 1) r.runs
      | .error _ => .empty
    IO.eprintln ("\n".intercalate metrics.lines)
  match result with
  | .ok _ => return 0
  | .error f =>
    IO.eprintln ("Error: " ++ f.message)
    return f.status.toUInt32

/-- Runs a command. -/
def run (c : CommandLine) : IO UInt32 := do
  let s ← surroundings c
  match s.configure c with
  | .error f =>
    IO.eprintln ("Configuration error: " ++ f.message)
    return 1
  | .ok config =>
    let start ← IO.monoNanosNow
    let result := s.run config.settings c.task
    if let .ok ⟨some j, _, _⟩ := result then IO.println (j.render Double.recordText)
    finish c result ((← IO.monoNanosNow) - start)

end Program

end Matchmaking

/-- Runs the command of a command line. -/
def main (args : List String) : IO UInt32 := do
  match Matchmaking.CommandLine.read args with
  | .ok c => Matchmaking.Program.run c
  | .error .help =>
    IO.println Matchmaking.Program.usage
    return 0
  | .error .version =>
    IO.println Matchmaking.Program.version
    return 0
  | .error .misuse =>
    IO.eprintln Matchmaking.Program.usage
    return 2
