import Matchmaking.CommandLine
import Matchmaking.Config
import Matchmaking.Json.Reader
import Matchmaking.Rules.Admission
import Matchmaking.Rules.Record
import Matchmaking.Session.Record
import Matchmaking.Simulation

/-!
# Running a command

A command reads its files in a fixed order, serves one queue and gives a record
to print. What it serves need not name its queue: tickets and sessions without
one join the queue that is served.

Whoever forms a session or makes a proposal gives it an identifier, here from a
supply of fresh ones.
-/

namespace Matchmaking

/-- What a command finds where it runs. -/
structure Surroundings where
  /-- The texts of files. -/
  files : Files
  /-- The variables of the environment. -/
  environment : Environment
  /-- When the command began. -/
  start : Instant
  /-- When its queue is served, which is later. -/
  now : Instant
  /-- How long each of its runs finds time, as far as it may take time. -/
  granted : Nat → Budget
  /-- Fresh identifiers. -/
  ids : Nat → String

/-- What a command gives. -/
structure Report where
  /-- The record to print, if there is one. -/
  printed : Option (Json Float)
  /-- The queue that was served. -/
  channel : String
  /-- The records of all runs. -/
  runs : List RunRecord

/-- Why a command fails. -/
inductive CommandFault where
  /-- A file cannot be read. -/
  | unreadable (path : String)
  /-- A file does not hold what it should. -/
  | undecodable (path : String)
  /-- There are no rules to run under. -/
  | rules (error : RuleError Float)
  /-- Some tickets are not taken. -/
  | refused (count : Nat)
  /-- Room cannot be made for what is asked. -/
  | overload

/-- The wording of a fault. -/
def CommandFault.message : CommandFault → String
  | unreadable path => "Failed to read " ++ path
  | undecodable path => "Failed to parse " ++ path
  | rules error => error.message
  | refused count => toString count ++ " tickets failed admission"
  | overload => "Too much is asked for"

/-- The exit status after a fault. -/
def CommandFault.status : CommandFault → Nat
  | overload => 101
  | _ => 1

namespace Surroundings

variable (s : Surroundings)

/-! ### Files -/

/-- What a file holds. -/
def load {β : Type} (path : String) (read? : String → Option β) : Except CommandFault β :=
  match s.files path with
  | none => .error (.unreadable path)
  | some text =>
    match read? text with
    | none => .error (.undecodable path)
    | some x => .ok x

/-- The list of records that a file holds. -/
def loadList {β : Type} (path : String) (read? : Json Float → Option β) :
    Except CommandFault (List β) :=
  s.load path fun text => (Json.readAsWritten? text).bind (Json.list? read?)

/-- The record of rules that a file holds. -/
def loadRules (path : String) : Except CommandFault (Json Float) := s.load path Json.read?

/-- The tickets that a file holds. -/
def loadTickets (path : String) : Except CommandFault (List (Ticket Float)) :=
  s.loadList path Ticket.ofJson?

/-- The open sessions that a file holds. -/
def loadSessions (path : String) : Except CommandFault (List (OpenSession Float)) :=
  s.loadList path OpenSession.ofJson?

/-! ### Queues -/

/-- A ticket in the queue, if it names none. -/
def enterTicket (channel : String) (t : Ticket Float) : Ticket Float :=
  if t.channel.isEmpty then { t with channel } else t

/-- An open session in the queue, if it names none. -/
def enterSession (channel : String) (o : OpenSession Float) : OpenSession Float :=
  if o.session.channel.isEmpty then { o with session := { o.session with channel } } else o

/-! ### Records to print -/

/-- The records of new sessions. -/
def printSessions (sessions : List (Session Float)) : Json Float :=
  .arr (sessions.mapIdx fun i x => { x with id := s.ids i }.toJson)

/-- The record of a proposal under an identifier. -/
def proposalJson (id : String) (p : Proposal Float) : Json Float :=
  match p.toJson with
  | .obj fields => .obj (("proposal_id", .str id) :: fields)
  | j => j

/-- The records of proposals. -/
def printProposals (proposals : List (Proposal Float)) : Json Float :=
  .arr (proposals.mapIdx fun i p => proposalJson (s.ids i) p)

/-! ### Commands -/

/-- The sessions formed from tickets. Faulty rules form none. -/
def form (settings : Settings) (rules : Json Float) (tickets : List (Ticket Float))
    (channel : String) : Report :=
  match RuleSet.load rules with
  | .error _ => ⟨some (.arr []), channel, []⟩
  | .ok r =>
    let e : Engine Float := ⟨settings, r, channel, s.now⟩
    let entered := tickets.map (enterTicket channel)
    let (sessions, runs) := e.formStream s.granted (Engine.ticketsFor channel entered)
    ⟨some (s.printSessions sessions), channel, runs⟩

/-- The proposals for open sessions. All tickets come before all sessions, and
    faulty rules give no proposals. -/
def backfill (settings : Settings) (rules : Json Float) (tickets : List (Ticket Float))
    (sessions : List (OpenSession Float)) (channel : String) : Report :=
  match RuleSet.load rules with
  | .error _ => ⟨some (.arr []), channel, []⟩
  | .ok r =>
    let e : Engine Float := ⟨settings, r, channel, s.now⟩
    let ts := Engine.ticketsFor channel (tickets.map (enterTicket channel))
    let os := Engine.sessionsFor channel (sessions.map (enterSession channel))
    let (proposals, runs) := e.backfillStream s.granted (ts.map .ticket ++ os.map .session)
    ⟨some (s.printProposals proposals), channel, runs⟩

/-- The rules to run under, which there must be. -/
def resolve (rules : Except (RuleError Float) (RuleSet Float)) :
    Except CommandFault (RuleSet Float) :=
  rules.mapError .rules

/-- The check of the tickets that rules should take. -/
def validate (rules : RuleSet Float) (tickets : List (Ticket Float)) :
    Except CommandFault Report :=
  match tickets.countP fun t => (rules.admissionFault? t).isSome with
  | 0 => .ok ⟨none, "", []⟩
  | n => .error (.refused n)

/-- Whatever is asked for, if room can be made for it. -/
def within (room : Bool) (report : Unit → Report) : Except CommandFault Report :=
  if room then .ok (report ()) else .error .overload

/-- The sessions formed from made-up tickets, in one run, which nothing comes of if
    it breaks off. -/
def simulate (settings : Settings) (rules : RuleSet Float) (count : Nat) (key : String) :
    Except CommandFault Report :=
  let e : Engine Float := ⟨settings, rules, Simulation.channel, s.now⟩
  let f := e.form (s.granted 0) (Simulation.tickets s.start count key)
  match RunRecord.ofFormed? count f with
  | none => .error .overload
  | some record => .ok ⟨some (s.printSessions f.sessions), Simulation.channel, [record]⟩

/-- Whether a run can be given its time, which is a word of seconds. -/
def holdsTime (settings : Settings) : Bool :=
  decide (settings.timeBudget < Word.size * Instant.second)

/-- Whether results can wait to be fetched. -/
def holdsBuffer (settings : Settings) : Bool := decide (settings.buffer ≤ Settings.greatestBuffer)

/-- What a task gives, if its runs can be given their time. -/
def perform (settings : Settings) : Task → Except CommandFault Report
  | .form rules tickets channel => do
    let rules ← s.loadRules rules
    let tickets ← s.loadTickets tickets
    within (holdsBuffer settings) fun _ => s.form settings rules tickets channel
  | .backfill rules sessions tickets channel => do
    let rules ← s.loadRules rules
    let tickets ← s.loadTickets tickets
    let sessions ← s.loadSessions sessions
    within (holdsBuffer settings) fun _ => s.backfill settings rules tickets sessions channel
  | .validate rules tickets => do
    let rules ← resolve (RuleSet.load (← s.loadRules rules))
    match tickets with
    | none => validate rules []
    | some path => do validate rules (← s.loadTickets path)
  | .simulate none count key => do
    let rules ← resolve (Simulation.rules key).resolve
    if count ≤ Settings.greatestBatch then s.simulate settings rules count key
    else .error .overload
  | .simulate (some path) count key => do
    let rules ← resolve (RuleSet.load (← s.loadRules path))
    if count ≤ Settings.greatestBatch then s.simulate settings rules count key
    else .error .overload

/-- What a task gives. -/
def run (settings : Settings) (task : Task) : Except CommandFault Report :=
  if holdsTime settings then s.perform settings task else .error .overload

/-- The configuration that a command line asks for. -/
def configure (c : CommandLine) : Except ConfigFault Config := do
  let config ← Config.load s.files s.environment c.config
  return { config with logLevel := c.logLevel.getD config.logLevel }

end Surroundings

end Matchmaking
