import Matchmaking.Dict
import Matchmaking.Number.Decimal
import Matchmaking.Number.Word

/-!
# Command lines

A command line names a command, with options before the name and after it. An
option is given by its name after two dashes, or by its letter after one dash.
The value of an option is the next argument, or follows the name after an equals
sign, or follows the letter with or without one. Two dashes alone end the
options.

Some options stand before and after the name of a command; of two values the one
that stands after it is taken. No option is given twice on one side.

Arguments are read in turn, and reading stops at the first one that asks for help
or is wrong. The value of an option that is an argument of its own is looked at with
the option after it: if it is the last one on its side of the name of a command,
then after all the arguments of the command.
-/

namespace Matchmaking

/-- Why no command is run. -/
inductive Halt where
  /-- Help is asked for. -/
  | help
  /-- The version is asked for. -/
  | version
  /-- The command line is wrong. -/
  | misuse
  deriving DecidableEq

/-- What the value of an option is. -/
inductive ValueKind where
  /-- Any text. -/
  | text
  /-- The path of a file. -/
  | path
  /-- A count. -/
  | count
  deriving DecidableEq

/-- Whether a text is a value. -/
def ValueKind.accepts (s : String) : ValueKind → Bool
  | text => true
  | path => !s.isEmpty
  | count => (readCount? Word.size s.toList).isSome

/-- What an option does. -/
inductive OptionEffect where
  /-- No command is run. -/
  | halt (why : Halt)
  /-- The option is noted. -/
  | mark
  /-- The option has a value. -/
  | take (kind : ValueKind)
  deriving DecidableEq

/-- An option. -/
structure OptionForm where
  /-- Its name. -/
  name : String
  /-- Its letter, if it has one. -/
  letter : Option Char
  /-- What it does. -/
  effect : OptionEffect
  deriving DecidableEq

/-- Whether an option has a value. -/
def OptionForm.takesValue (o : OptionForm) : Bool := o.effect matches .take _

/-- The options that are given, with their values. -/
abbrev Given := Dict String

/-- What is to be done. -/
inductive Task where
  /-- Form sessions from tickets. -/
  | form (rules tickets channel : String)
  /-- Fill sessions from tickets. -/
  | backfill (rules sessions tickets channel : String)
  /-- Check rules, and tickets if there are any. -/
  | validate (rules : String) (tickets : Option String)
  /-- Form sessions from made-up tickets. -/
  | simulate (rules : Option String) (count : Nat) (key : String)
  deriving DecidableEq

/-- The files that a task reads. -/
def Task.paths : Task → List String
  | form rules tickets _ => [rules, tickets]
  | backfill rules sessions tickets _ => [rules, tickets, sessions]
  | validate rules tickets => rules :: tickets.toList
  | simulate rules _ _ => rules.toList

/-- A command: its name, its options, and its task if no option is missing. -/
structure CommandForm where
  /-- The name. -/
  name : String
  /-- The options. -/
  options : List OptionForm
  /-- The task. -/
  task? : Given → Option Task

/-- A command line. -/
structure CommandLine where
  /-- The settings file. -/
  config : Option String
  /-- How much is logged. -/
  logLevel : Option String
  /-- Whether metrics are printed. -/
  printMetrics : Bool
  /-- What is to be done. -/
  task : Task
  deriving DecidableEq

/-- The files that a command reads. -/
def CommandLine.paths (c : CommandLine) : List String := c.config.toList ++ c.task.paths

/-! ### Arguments -/

/-- An argument by its form. -/
inductive Argument where
  /-- A name or a value. -/
  | plain (s : String)
  /-- The name of an option, and what follows an equals sign. -/
  | named (name : String) (value : Option String)
  /-- The letter of an option, and what follows it. -/
  | lettered (letter : Char) (rest : List Char)
  /-- The end of options. -/
  | divider
  deriving DecidableEq

namespace Argument

/-- The form of an argument. A dash alone is plain. -/
def ofString (s : String) : Argument :=
  match s.toList with
  | ['-', '-'] => .divider
  | '-' :: '-' :: cs =>
    match cs.span (· != '=') with
    | (name, []) => .named (String.ofList name) none
    | (name, _ :: value) => .named (String.ofList name) (some (String.ofList value))
  | '-' :: c :: cs => .lettered c cs
  | _ => .plain s

/-- Whether an argument is plain. -/
def isPlain (a : Argument) : Bool := a matches .plain _

/-- Whether no option is read from an argument on. -/
def endsOptions (a : Argument) : Bool := a.isPlain || a = .divider

/-- What follows a letter, without an equals sign before it, if anything does. -/
def attached? : List Char → Option String
  | [] => none
  | '=' :: cs => some (String.ofList cs)
  | cs => some (String.ofList cs)

/-- The option that an argument gives, and the value that comes with it. -/
def option? (forms : List OptionForm) : Argument → Option (OptionForm × Option String)
  | named name value => (forms.find? fun o => o.name == name).map fun o => (o, value)
  | lettered c rest => (forms.find? fun o => o.letter == some c).map fun o =>
    (o, if o.takesValue then attached? rest else none)
  | _ => none

end Argument

/-! ### Options -/

namespace Given

/-- One more option, with its value. -/
def give (g : Given) (o : OptionForm) (value : String) : Except Halt Given :=
  if g.contains o.name then .error .misuse else .ok (g.insert o.name value)

/-- One more option, with a value of its kind. -/
def giveValue (g : Given) (o : OptionForm) (kind : ValueKind) (value : String) :
    Except Halt Given :=
  if kind.accepts value then g.give o value else .error .misuse

/-- The options up to the first argument that is none, unless the value of the last
    one is wrong, and the arguments from there on. -/
def read (forms : List OptionForm) :
    Given → List String → Except Halt (Except Halt Given × List String)
  | g, [] => .ok (.ok g, [])
  | g, a :: args =>
    if (Argument.ofString a).endsOptions then .ok (.ok g, a :: args)
    else
      match (Argument.ofString a).option? forms with
      | none => .error .misuse
      | some (o, value) =>
        match o.effect, value with
        | .halt why, none => .error why
        | .mark, none => do read forms (← g.give o "") args
        | .take kind, some v => do read forms (← g.giveValue o kind v) args
        | .take kind, none =>
          match args with
          | [] => .error .misuse
          | v :: args =>
            let given := g.giveValue o kind v
            if !(Argument.ofString v).isPlain then .error .misuse
            else if args.head?.all fun a => (Argument.ofString a).endsOptions then .ok (given, args)
            else do read forms (← given) args
        | _, some _ => .error .misuse

end Given

/-! ### Commands -/

namespace CommandLine

/-- The options that stand on both sides of the name of a command. -/
def commonOptions : List OptionForm :=
  [⟨"config", some 'c', .take .path⟩, ⟨"log-level", some 'l', .take .text⟩,
    ⟨"print-metrics", none, .mark⟩, ⟨"help", some 'h', .halt .help⟩]

/-- The options that stand before the name of a command. -/
def leadingOptions : List OptionForm :=
  commonOptions ++ [⟨"version", some 'V', .halt .version⟩]

/-- The rules of a command. -/
def rulesOption : OptionForm := ⟨"rules", some 'r', .take .path⟩

/-- The tickets of a command. -/
def ticketsOption : OptionForm := ⟨"tickets", some 't', .take .path⟩

/-- The open sessions of a command. -/
def sessionsOption : OptionForm := ⟨"sessions", some 's', .take .path⟩

/-- The queue of a command. -/
def channelOption : OptionForm := ⟨"channel", none, .take .text⟩

/-- The queue that is served if none is given. -/
def defaultChannel : String := "default"

/-- How many tickets are made up if no count is given. -/
def defaultCount : Nat := 100

/-- The attribute of made-up tickets if none is given. -/
def defaultAttribute : String := "mmr"

/-- The commands. -/
def commands : List CommandForm :=
  [⟨"match", [rulesOption, ticketsOption, channelOption], fun g =>
      return .form (← g.get? "rules") (← g.get? "tickets") (g.getD "channel" defaultChannel)⟩,
    ⟨"backfill", [rulesOption, sessionsOption, ticketsOption, channelOption], fun g =>
      return .backfill (← g.get? "rules") (← g.get? "sessions") (← g.get? "tickets")
        (g.getD "channel" defaultChannel)⟩,
    ⟨"validate", [rulesOption, ticketsOption], fun g =>
      return .validate (← g.get? "rules") (g.get? "tickets")⟩,
    ⟨"simulate", [rulesOption, ⟨"count", some 'n', .take .count⟩,
      ⟨"attribute", none, .take .text⟩], fun g =>
      let count := (g.get? "count").bind fun s => readCount? Word.size s.toList
      some (.simulate (g.get? "rules") (count.getD defaultCount)
        (g.getD "attribute" defaultAttribute))⟩]

/-- The command that shows the help on a command. -/
def helpCommand : String := "help"

/-- The names that help can be asked on. -/
def helpTopics : List String := helpCommand :: commands.map (·.name)

/-- The command line of a command: the options before its name, unless they are
    wrong, and its arguments. -/
def ofCommand (before : Except Halt Given) (command : CommandForm) (args : List String) :
    Except Halt CommandLine := do
  let (after, rest) ← Given.read (commonOptions ++ command.options) ∅ args
  let after ← after
  let before ← before
  let common (name : String) : Option String := after.get? name <|> before.get? name
  match command.task? after, rest with
  | some task, [] | some task, ["--"] =>
    return {
      config := common "config"
      logLevel := common "log-level"
      printMetrics := (common "print-metrics").isSome
      task }
  | _, _ => .error .misuse

/-- Why nothing is run when help is asked on some names. -/
def helpOn : List String → Halt
  | [] => .help
  | [name] => if helpTopics.contains name then .help else .misuse
  | _ => .misuse

/-- The command line of some arguments. -/
def read (args : List String) : Except Halt CommandLine := do
  let (before, rest) ← Given.read leadingOptions ∅ args
  match rest with
  | [] => .error .misuse
  | name :: args =>
    if name = helpCommand then .error (helpOn args)
    else
      match commands.find? fun c => c.name == name with
      | some command => ofCommand before command args
      | none => .error .misuse

end CommandLine

end Matchmaking
