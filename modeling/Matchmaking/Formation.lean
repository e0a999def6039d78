import Matchmaking.Assembly
import Matchmaking.Merge
import Matchmaking.Rules.RoleFlexing
import Matchmaking.Search

/-!
# Forming sessions

New sessions are formed from the tickets of a queue. In each round the first
ticket in the order of service is the pivot: a match is searched for it in each
of its modes and regions in turn. If there is one, its tickets leave the queue;
if there is none, the pivot is dropped and the rest of the queue goes on without
it. Forming ends when the queue is empty, or has too few players for any match.

A run looks at the clock before each pivot, and ends once time is spent. It breaks
off where bounds of the rules are too large to be computed with: then whatever it
formed is lost.

Where a match is a single player there is nothing to search for.
-/

namespace Matchmaking

variable {α : Type}

/-- The time that a run finds when it looks at the clock. A run that finds none is cut,
and does not look again: all that matters is which reading is the first to find none. -/
inductive Budget where
  /-- There is always time. -/
  | unlimited
  /-- There is time at the first readings, so many of them, and none any more after
      that. -/
  | reads (n : Nat)
  deriving DecidableEq

namespace Budget

/-- There is no time at all. -/
@[match_pattern] abbrev spent : Budget := .reads 0

/-- The time after a reading, if that finds time. -/
def read? : Budget → Option Budget
  | .unlimited => some .unlimited
  | .spent => none
  | .reads (n + 1) => some (.reads n)

theorem read?_unlimited : unlimited.read? = some unlimited := rfl

end Budget

/-- How sessions are formed. -/
structure Formation (α : Type) where
  /-- The rules. -/
  rules : RuleSet α
  /-- The queue. -/
  channel : String
  /-- The time. -/
  now : Instant
  /-- The greatest number of orders to be packed for a match. -/
  cap : Nat
  deriving DecidableEq

/-- What became of the tickets of a queue. -/
structure Formed (α : Type) where
  /-- The new sessions, in order. -/
  sessions : List (Session α)
  /-- The tickets that are left. -/
  unmatched : List (Ticket α)
  /-- How many pivots were dropped. -/
  dropped : Nat
  /-- How many members gave up their roles. -/
  flexed : Nat
  /-- Whether time ran out. -/
  outOfBudget : Bool
  /-- Why the run broke off, if it did. Then the sessions are those that it had
      formed, and nobody gets them. -/
  failure : Option Failure
  deriving DecidableEq

/-- A mode and a region in which a match is searched for. -/
structure Attempt where
  /-- The mode. -/
  mode : Option String
  /-- The region. -/
  region : Option String
  deriving DecidableEq

namespace Formed

/-- Nothing was formed. -/
def leave (ts : List (Ticket α)) : Formed α := ⟨[], ts, 0, 0, false, none⟩

/-- Nothing was formed, as there was no time. -/
def late (ts : List (Ticket α)) : Formed α := { leave ts with outOfBudget := true }

/-- Nothing was formed, as the run broke off. -/
def broken (e : Failure) (ts : List (Ticket α)) : Formed α := { leave ts with failure := some e }

/-- A pivot was dropped before. -/
def drop (pivot : Ticket α) (f : Formed α) : Formed α :=
  { f with unmatched := pivot :: f.unmatched, dropped := f.dropped + 1 }

/-- A session was formed before. -/
def emit (s : Session α) (f : Formed α) : Formed α := { f with sessions := s :: f.sessions }

/-- A ticket was left before. -/
def pass (t : Ticket α) (f : Formed α) : Formed α := { f with unmatched := t :: f.unmatched }

/-- The sessions that a run hands out. -/
def handedOut (f : Formed α) : List (Session α) :=
  match f.failure with
  | none => f.sessions
  | some _ => []

end Formed

namespace Formation

variable [Scalar α] (f : Formation α)

/-- The modes in which a match is searched for a ticket: those that it asks for
    and the rules know, or no mode in particular. -/
def modes (pivot : Ticket α) : List (Option String) :=
  match (pivot.modes.filter f.rules.modes.contains).toList with
  | [] => [none]
  | ms => ms.map some

/-- In which modes and regions a match is searched for a ticket, in order. -/
def attempts (pivot : Ticket α) : List Attempt :=
  (f.modes pivot).flatMap fun mode =>
    (f.rules.regions pivot f.now).map fun region => ⟨mode, region⟩

/-- The shape of a match around a pivot. -/
def allianceAt (pivot : Ticket α) (mode : Option String) : AllianceRule :=
  (f.rules.allianceAt pivot.createdAt f.now mode).1

/-- The rules in force for a pivot. -/
def activeRules (pivot : Ticket α) (mode : Option String) : RuleSet α :=
  { f.rules.flexedAt pivot.createdAt f.now with alliance := f.allianceAt pivot mode }

/-- The search for those who fit a pivot. -/
def search (pivot : Ticket α) (a : Attempt) : Search α where
  source := f.rules
  active := f.activeRules pivot a.mode
  pivot := .ticket pivot
  region := a.region
  mode := a.mode
  now := f.now

/-- The tickets of a queue that fit a pivot, the best one first. -/
def candidates (pivot : Ticket α) (a : Attempt) (pool : List (Ticket α)) : List (Ticket α) :=
  ((f.search pivot a).run (Ticket.without [pivot.id] pool)).map (·.ticket)

/-- The teams of a match around a pivot, if there is one. -/
def assembly? (pivot : Ticket α) (a : Attempt) (pool : List (Ticket α)) : Option Assembly :=
  let rule := f.allianceAt pivot a.mode
  ((Assembler.of rule f.rules.blockPolicy f.cap).assemble? pivot (f.candidates pivot a pool)).filter
    fun m => decide (rule.bounds.minTeams ≤ m.teams.length)

/-- The tickets of a team, looked up in the queue. -/
def ticketsOf (pool : List (Ticket α)) (ids : List String) : List (Ticket α) :=
  ids.filterMap fun id => pool.find? fun t => t.id == id

/-- A team of a match. -/
def alliance (pool : List (Ticket α)) (i : Nat) (p : TeamPlan) : Alliance α where
  teamId := Alliance.teamName i
  parties := (ticketsOf pool p.tickets).map fun t => (Party.ofTicket t).assignRoles p.roles

/-- The highest priority of some tickets. -/
def priorityOf (ts : List (Ticket α)) : Int := (ts.map (·.priority)).max?.getD 0

/-- When the first of some tickets entered the queue, in case there are none when
    the pivot did. -/
def createdAtOf (pivot : Ticket α) (ts : List (Ticket α)) : Instant :=
  match ts.map (·.createdAt) with
  | [] => pivot.createdAt
  | a :: as => Instant.earliest a as

/-- The session of a match. Its id is given by whoever takes it. -/
def session (pivot : Ticket α) (a : Attempt) (pool : List (Ticket α)) (m : Assembly) : Session α :=
  let rules := f.activeRules pivot a.mode
  let matched := ticketsOf pool m.tickets
  let full := m.isFull rules.alliance.bounds
  { id := ""
    channel := f.channel
    mode := a.mode
    region := a.region
    alliances := m.teams.mapIdx (alliance pool)
    attributes := rules.sessionAttributes pivot (Ticket.without [pivot.id] matched)
    means := rules.means matched
    criteria := ∅
    priority := priorityOf matched
    createdAt := createdAtOf pivot matched
    status := if full then .satisfied else .forming
    joinable := !full && rules.autoBackfill }

/-- The session of a pivot in a mode and a region, if there is one. -/
def attempt? (pivot : Ticket α) (pool : List (Ticket α)) (a : Attempt) : Option (Session α) :=
  (f.assembly? pivot a pool).map (f.session pivot a pool)

/-- What becomes of an attempt: the session that it leads to, if there is one. It breaks off
    where the players of a match cannot be counted or its teams have no room. -/
def attempt (pivot : Ticket α) (pool : List (Ticket α)) (a : Attempt) :
    Except Failure (Option (Session α)) :=
  match (f.allianceAt pivot a.mode).bounds.searchFailure? with
  | some e => .error e
  | none => .ok (f.attempt? pivot pool a)

/-- The session of a pivot that the first of some attempts leads to, if one does. -/
def searchIn (pivot : Ticket α) (pool : List (Ticket α)) :
    List Attempt → Except Failure (Option (Session α))
  | [] => .ok none
  | a :: as =>
    match f.attempt pivot pool a with
    | .error e => .error e
    | .ok none => searchIn pivot pool as
    | .ok (some s) => .ok (some s)

/-- The session of a pivot, if there is one. -/
def sessionFor (pivot : Ticket α) (pool : List (Ticket α)) :
    Except Failure (Option (Session α)) :=
  f.searchIn pivot pool (f.attempts pivot)

/-- The least number of players with which a match of a pivot can begin. -/
def minPlayersFor (pivot : Ticket α) : Nat :=
  ((f.attempts pivot).map fun a => (f.allianceAt pivot a.mode).bounds.minPlayers).min?.getD 0

/-- What becomes of the tickets of a queue, in the order of service. -/
def rounds : Budget → List (Ticket α) → Formed α
  | _, [] => .leave []
  | time, pivot :: rest =>
    let pool := pivot :: rest
    match time.read? with
    | none => .late pool
    | some time =>
      let players := Ticket.totalPlayers pool
      if !f.rules.countsLeast then .broken .overflow pool
      else if players < f.rules.minPlayers then .leave pool
      else if players < f.minPlayersFor pivot then (rounds time rest).drop pivot
      else
        match f.sessionFor pivot pool with
        | .error e => .broken e pool
        | .ok none => (rounds time (Ticket.without [pivot.id] rest)).drop pivot
        | .ok (some s) => (rounds time (Ticket.without s.ticketIds rest)).emit s
termination_by _ pool => pool.length
decreasing_by
  · exact Nat.lt_succ_self _
  · exact Nat.lt_succ_of_le (Ticket.length_without_le _ _)
  · exact Nat.lt_succ_of_le (Ticket.length_without_le _ _)

/-! ### Matches of a single player -/

/-- Whether every match is a single player. -/
def isSinglePlayer : Bool :=
  f.rules.alliance.bounds.isSinglePlayer && f.rules.allianceFlexing.isEmpty &&
    f.rules.modes.isEmpty

/-- The session of a ticket alone. -/
def soloSession (t : Ticket α) : Session α where
  id := ""
  channel := f.channel
  mode := none
  region := none
  alliances := [(Alliance.new (Alliance.teamName 0)).addParty (.ofTicket t)]
  attributes := f.rules.sessionAttributes t []
  means := f.rules.means [t]
  criteria := ∅
  priority := t.priority
  createdAt := t.createdAt
  status := .satisfied
  joinable := false

/-- What becomes of tickets that are matches of their own. -/
def solos : List (Ticket α) → Formed α
  | [] => .leave []
  | t :: ts => if t.players = 1 then (solos ts).emit (f.soloSession t) else (solos ts).pass t

/-! ### The whole run -/

/-- What becomes of the tickets of a queue where matches are searched for. They are
    put in order only if there is time. -/
def serve (budget : Budget) (ts : List (Ticket α)) : Formed α :=
  match budget with
  | .spent => { Formed.leave ts with outOfBudget := !ts.isEmpty }
  | budget => f.rounds budget (Ticket.sortQueue ts)

/-- What becomes of the tickets of a queue once roles are given up. -/
def form (budget : Budget) (ts : List (Ticket α)) : Formed α :=
  if f.isSinglePlayer then f.solos (Ticket.sortQueue ts) else f.serve budget ts

/-- What becomes of the tickets of a queue. -/
def run (budget : Budget) (ts : List (Ticket α)) : Formed α :=
  { f.form budget (f.rules.flexRoles f.now ts) with flexed := f.rules.flexedNow f.now ts }

end Formation

end Matchmaking
