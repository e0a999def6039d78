import Matchmaking.Engine.Run
import Matchmaking.Json.Record
import Matchmaking.Toml

/-!
# Configuration

The configuration of the program: from defaults or a settings file, then from
the variables of the environment, which come last. A configuration is checked
before it is used.
-/

namespace Matchmaking

/-- The configuration of the program. -/
structure Config where
  /-- The name of the service. -/
  name : String
  /-- How much is logged. -/
  logLevel : String
  /-- The tickets of a batch. -/
  batchSize : Nat
  /-- The greatest number of orders to be packed for a match. -/
  cap : Nat
  /-- The seconds for which a queue is held by a run. -/
  lockSeconds : Nat
  /-- The share of that time that a run may take. -/
  budgetShare : Float
  /-- How many results may wait to be fetched. -/
  buffer : Nat

/-- What is wrong with a configuration. -/
inductive ConfigFault where
  /-- The settings file cannot be read. -/
  | unreadable (path : String)
  /-- The settings file holds no settings. -/
  | undecodable (path : String)
  /-- A variable has no proper value. -/
  | improper (name value : String)
  /-- There is no such log level. -/
  | logLevel (level : String)
  /-- The service has no name. -/
  | noName
  /-- A batch has no tickets. -/
  | noBatch
  /-- No order is packed. -/
  | noOrders
  /-- A queue is held for no time. -/
  | noLock
  /-- The share of time is none. -/
  | share (value : Float)
  /-- No result may wait. -/
  | noBuffer

/-- The wording of a fault. -/
def ConfigFault.message : ConfigFault → String
  | unreadable path => "Failed to read config file " ++ path
  | undecodable path => "Failed to parse config file " ++ path
  | improper name value => "Invalid " ++ name ++ " value: " ++ value
  | logLevel level => "Invalid log level: " ++ level
  | noName => "Service name cannot be empty"
  | noBatch => "Batch size must be greater than 0"
  | noOrders => "Max iterations must be greater than 0"
  | noLock => "Pool lock must be greater than 0"
  | share value => "Time budget fraction must be in (0, 1], got " ++ Double.text value
  | noBuffer => "Result buffer must be greater than 0"

/-- The variables of the environment. -/
abbrev Environment := String → Option String

/-- The texts of the files that can be read. -/
abbrev Files := String → Option String

namespace Config

/-- The configuration where nothing else is said. -/
def standard : Config where
  name := "alliance-matchmaker"
  logLevel := "info"
  batchSize := 500
  cap := 100
  lockSeconds := 60
  budgetShare := 0.5
  buffer := 256

/-! ### Reading -/

/-- The names of the parts of a configuration, and of their parts. -/
def partNames : List (String × List String) :=
  [("service", ["name", "log_level"]),
    ("matchmaking", ["batch_size", "max_iterations", "pool_lock_seconds", "time_budget_fraction",
      "result_buffer"])]

/-- The names of the parts of a part. -/
def namesIn (k : String) : List String := (partNames.lookup k).getD []

/-- A part of a configuration, all of whose own parts may be missing. -/
def section? (p : Json.Parts Float) (k : String) : Option (Json.Parts Float) :=
  p.default k (fun _ => none) fun j => j.parts? (namesIn k)

/-- A configuration as a record of two parts. -/
def ofJson? (j : Json Float) : Option Config := do
  let p ← j.parts? (partNames.map (·.1))
  let s ← section? p "service"
  let m ← section? p "matchmaking"
  return {
    name := ← s.default "name" standard.name Json.text?
    logLevel := ← s.default "log_level" standard.logLevel Json.text?
    batchSize := ← m.default "batch_size" standard.batchSize Json.count?
    cap := ← m.default "max_iterations" standard.cap Json.count?
    lockSeconds := ← m.default "pool_lock_seconds" standard.lockSeconds Json.count?
    budgetShare := ← m.default "time_budget_fraction" standard.budgetShare Json.scalar?
    buffer := ← m.default "result_buffer" standard.buffer Json.count? }

/-- The record of a configuration. -/
def toJson (c : Config) : Json Float :=
  .obj [
    ("service", .obj [("name", .str c.name), ("log_level", .str c.logLevel)]),
    ("matchmaking", .obj [("batch_size", Json.ofNat c.batchSize),
      ("max_iterations", Json.ofNat c.cap), ("pool_lock_seconds", Json.ofNat c.lockSeconds),
      ("time_budget_fraction", .real c.budgetShare), ("result_buffer", Json.ofNat c.buffer)])]

/-- A part of a settings file. Of a list, the items beyond the parts are ignored. -/
def settingsPart (k : String) : Json Float → Json Float
  | .arr items => .arr (items.take (namesIn k).length)
  | j => j

/-- The configuration of a settings file. -/
def ofToml? (s : String) : Option Config := do
  let fields ← Toml.read? s
  ofJson? (.obj (fields.map fun (k, j) => (k, settingsPart k j)))

/-- The variables that are looked up. -/
def variableNames : List String :=
  ["SERVICE_NAME", "LOG_LEVEL", "MATCHMAKING_BATCH_SIZE", "MATCHMAKING_MAX_ITERATIONS",
    "MATCHMAKING_POOL_LOCK_SECONDS", "MATCHMAKING_TIME_BUDGET_FRACTION",
    "MATCHMAKING_RESULT_BUFFER"]

/-- The value of a variable, or `v` if it is not set. -/
def fromVariable {β : Type} (env : Environment) (name : String) (v : β)
    (read? : List Char → Option β) : Except ConfigFault β :=
  match env name with
  | none => .ok v
  | some s =>
    match read? s.toList with
    | some w => .ok w
    | none => .error (.improper name s)

/-- The configuration with the values of the variables that are set. -/
def withEnvironment (c : Config) (env : Environment) : Except ConfigFault Config := do
  let count := readCount? Word.size
  return {
    name := (env "SERVICE_NAME").getD c.name
    logLevel := (env "LOG_LEVEL").getD c.logLevel
    batchSize := ← fromVariable env "MATCHMAKING_BATCH_SIZE" c.batchSize count
    cap := ← fromVariable env "MATCHMAKING_MAX_ITERATIONS" c.cap count
    lockSeconds := ← fromVariable env "MATCHMAKING_POOL_LOCK_SECONDS" c.lockSeconds count
    budgetShare := ← fromVariable env "MATCHMAKING_TIME_BUDGET_FRACTION" c.budgetShare Double.read?
    buffer := ← fromVariable env "MATCHMAKING_RESULT_BUFFER" c.buffer count }

/-! ### Checking -/

/-- The log levels. -/
def logLevels : List String := ["trace", "debug", "info", "warn", "error"]

/-- Whether a text names a log level, in any letter case. No character beyond
    ASCII has a letter of these names as its small letter. -/
def isLogLevel (s : String) : Bool := logLevels.contains (String.ofList (s.toList.map Char.toLower))

/-- The first fault of a configuration. -/
def fault? (c : Config) : Option ConfigFault :=
  if !isLogLevel c.logLevel then some (.logLevel c.logLevel)
  else if c.name.isEmpty then some .noName
  else if c.batchSize = 0 then some .noBatch
  else if c.cap = 0 then some .noOrders
  else if c.lockSeconds = 0 then some .noLock
  else if !(0.0 < c.budgetShare && c.budgetShare ≤ 1.0) then some (.share c.budgetShare)
  else if c.buffer = 0 then some .noBuffer
  else none

/-- The configuration with the variables of the environment, unless that is
    faulty. -/
def resolve (c : Config) (env : Environment) : Except ConfigFault Config := do
  let c ← c.withEnvironment env
  match c.fault? with
  | some f => .error f
  | none => .ok c

/-- The configuration of a settings file, or the standard one if there is none,
    with the variables of the environment, unless it is faulty. -/
def load (files : Files) (env : Environment) : Option String → Except ConfigFault Config
  | none => standard.resolve env
  | some path =>
    match files path with
    | none => .error (.unreadable path)
    | some s =>
      match ofToml? s with
      | none => .error (.undecodable path)
      | some c => c.resolve env

/-! ### Use -/

/-- The share of time, between none and all. -/
def clampedShare (c : Config) : Float :=
  if c.budgetShare < 0.0 then 0.0 else if 1.0 < c.budgetShare then 1.0 else c.budgetShare

/-- The nanoseconds that a run may take. -/
def timeBudget (c : Config) : Nat :=
  Double.nearest Instant.second (c.clampedShare * Scalar.ofNat c.lockSeconds)

/-- The settings of the engine; what must not be zero is one at least. -/
def settings (c : Config) : Settings :=
  ⟨max c.batchSize 1, max c.cap 1, c.timeBudget, max c.buffer 1⟩

end Config

end Matchmaking
