import Matchmaking.Formation
import Matchmaking.Session.Progress

/-!
# Filling open sessions

Open sessions are filled from the tickets of a queue, the oldest session first.
The tickets that fit a session are taken in turn, the best one first. Each joins
the smallest team that has room for it, or a new team while there may be more;
what has no place stays in the queue. A session that is full takes no more.

A run looks at the clock before each session and before each ticket that was found
for one. Once time is spent nobody is served any more, also in the middle of a
filling.
-/

namespace Matchmaking

variable {α : Type}

/-- How open sessions are filled. -/
structure Backfill (α : Type) where
  /-- The rules. -/
  rules : RuleSet α
  /-- The time. -/
  now : Instant
  deriving DecidableEq

/-- What became of open sessions and the tickets of a queue. -/
structure Backfilled (α : Type) where
  /-- The proposals, one for each session that gained players. -/
  proposals : List (Proposal α)
  /-- All sessions. -/
  sessions : List (OpenSession α)
  /-- The tickets that are left. -/
  unmatched : List (Ticket α)
  /-- How many sessions are full now that gained players. -/
  satisfied : Nat
  /-- Whether time ran out. -/
  outOfBudget : Bool
  deriving DecidableEq

/-- What becomes of a session and a queue in a turn. -/
structure TurnResult (α : Type) where
  /-- The session. -/
  session : Session α
  /-- The tickets that joined it. -/
  added : List String
  /-- The queue without them. -/
  left : List (Ticket α)
  /-- The time after the turn. -/
  time : Budget
  /-- Whether time ran out in the turn. -/
  late : Bool
  deriving DecidableEq

/-- Where a ticket joins a session. -/
structure Placement where
  /-- The place of the team, or none for a new one. -/
  team : Option Nat
  /-- The roles that its members take. -/
  roles : Dict String
  deriving DecidableEq

/-! ### Roles -/

namespace RoleTally

/-- The tally with a member of the team. One who has no role takes one if there
    is one. -/
def withMember (t : RoleTally) (m : Member α) : RoleTally :=
  match m.assignedRole with
  | some role => t.force role
  | none => ((t.assign? m).map (·.2)).getD t

/-- The roles that members take who take these slots, when the roles of those who
    are left open are these. -/
def rolesOf (resolved : List String) : List (Member α × Slot) → Dict String → Dict String
  | [], roles => roles
  | (m, .role name) :: rest, roles => rolesOf resolved rest (roles.insert m.id name)
  | (m, .any) :: rest, roles =>
    match resolved with
    | [] => rolesOf [] rest roles
    | name :: resolved => rolesOf resolved rest (roles.insert m.id name)

/-- The roles of newcomers in a team, if it has roles for all of them. -/
def join? (t : RoleTally) (newcomers : List (Member α)) : Option (Dict String) :=
  (t.assignAll? newcomers).map fun (slots, t') =>
    rolesOf (t'.resolve.drop t.pending) (newcomers.zip slots) ∅

end RoleTally

/-- The roles of newcomers in the team at a place, if it has roles for all of
    them. -/
def AllianceRule.rolesFor? (a : AllianceRule) (team : Nat) (members newcomers : List (Member α)) :
    Option (Dict String) :=
  match a.tally? a.roleMode team with
  | none => some ∅
  | some t => (members.foldl RoleTally.withMember t).join? newcomers

namespace Backfill

variable [Scalar α] (b : Backfill α)

/-! ### One ticket -/

/-- The placement of a ticket in the team at a place, if that has room for it. -/
def placeIn? (rules : RuleSet α) (t : Ticket α) (i : Nat) (a : Alliance α) : Option Placement :=
  if rules.alliance.bounds.maxSize < a.players + t.players then none
  else if rules.blockPolicy = .otherTeam ∧
      !(a.blocked.disjoint t.userIds && t.blocked.disjoint a.userIds) then none
  else (rules.alliance.rolesFor? i a.members t.members).map fun roles => ⟨some i, roles⟩

/-- The placement of a ticket in a new team, if there may be one. -/
def placeNew? (rules : RuleSet α) (t : Ticket α) (s : Session α) : Option Placement :=
  if s.alliances.length < rules.alliance.bounds.maxTeams ∧
      t.players ≤ rules.alliance.bounds.maxSize then
    (rules.alliance.rolesFor? s.alliances.length [] t.members).map fun roles => ⟨none, roles⟩
  else none

/-- The placements of a ticket in the teams that have room for it, each with the
    size of the team. -/
def placements (rules : RuleSet α) (t : Ticket α) (s : Session α) : List (Nat × Placement) :=
  (s.alliances.mapIdx fun i a => (placeIn? rules t i a).map fun p => (a.players, p)).reduceOption

/-- The placement of a ticket: in the smallest team that has room for it, the
    first one of them, or else in a new team. -/
def place? (rules : RuleSet α) (t : Ticket α) (s : Session α) : Option Placement :=
  match firstGreatest? (fun p q => compare q.1 p.1) (placements rules t s) with
  | some (_, p) => some p
  | none => placeNew? rules t s

/-- The session with a party where it is placed. -/
def joined (s : Session α) (t : Ticket α) (p : Placement) : Session α :=
  let party := (Party.ofTicket t).assignRoles p.roles
  match p.team with
  | some i => s.addParty i party
  | none => s.addAlliance ((Alliance.new (Alliance.teamName s.alliances.length)).addParty party)

/-- The means of a session with a ticket. What the session is matched by counts
    as the mean over its players where no mean is recorded. -/
def meansWith (rules : RuleSet α) (s : Session α) (t : Ticket α) : Dict (RunningMean α) :=
  rules.distances.foldl
    (fun means d => means.update d.key fun m =>
      (m.getD ⟨s.average d.key, s.players⟩).absorb (t.average d.key) t.players)
    s.means

/-- The session with a ticket where it is placed. -/
def add (rules : RuleSet α) (s : Session α) (t : Ticket α) (p : Placement) : Session α :=
  { joined s t p with
    means := meansWith rules s t
    attributes := s.attributes.merge rules [rules.ticketAttributes t] }

/-! ### One session -/

/-- The rules in force for a session. -/
def activeRules (s : Session α) : RuleSet α :=
  { b.rules.flexedAt s.createdAt b.now with
    alliance := (b.rules.allianceAt s.createdAt b.now s.mode).1 }

/-- The search for those who fit a session. -/
def search (s : Session α) : Search α where
  source := b.rules
  active := b.activeRules s
  pivot := .session s
  region := s.region
  mode := s.mode
  now := b.now

/-- The first ticket of an id, and the tickets without it. -/
def takeTicket? (id : String) : List (Ticket α) → Option (Ticket α × List (Ticket α))
  | [] => none
  | t :: ts =>
    if t.id = id then some (t, ts)
    else (takeTicket? id ts).map fun (found, rest) => (found, t :: rest)

/-- A session filled with tickets in turn until it is full or time is spent. -/
def fill (rules : RuleSet α) :
    Budget → List String → Session α → List (Ticket α) → TurnResult α
  | time, [], s, pool => ⟨s, [], pool, time, false⟩
  | time, id :: ids, s, pool =>
    match time.read? with
    | none => ⟨s, [], pool, time, true⟩
    | some time =>
      match takeTicket? id pool with
      | none => fill rules time ids s pool
      | some (t, rest) =>
        match place? rules t s with
        | none => fill rules time ids s pool
        | some p =>
          let s := (add rules s t p).refresh rules.alliance.bounds true
          if s.status = .satisfied then ⟨s, [t.id], rest, time, false⟩
          else
            let r := fill rules time ids s rest
            { r with added := t.id :: r.added }

/-- A session filled from a queue. -/
def session (time : Budget) (s : Session α) (pool : List (Ticket α)) : TurnResult α :=
  let rules := b.activeRules s
  if s.isSatisfied rules.alliance.bounds then
    ⟨s.refresh rules.alliance.bounds false, [], pool, time, false⟩
  else fill rules time (((b.search s).run pool).map (·.ticket.id)) s pool

/-- The proposal for an open session that gained tickets. -/
def proposal (o : OpenSession α) (added : List String) : Proposal α where
  openTicketId := o.ticketId
  sessionId := o.session.id
  added := added
  alliances := o.session.alliances
  status := o.session.status
  createdAt := b.now

/-! ### All sessions -/

/-- What becomes of open sessions, in the order of service, and of the tickets of
    a queue. -/
def sessions : Budget → List (OpenSession α) → List (Ticket α) → Backfilled α
  | _, [], pool => ⟨[], [], pool, 0, false⟩
  | time, o :: os, pool =>
    match time.read? with
    | none => ⟨[], o :: os, pool, 0, true⟩
    | some time =>
      let turn := b.session time o.session pool
      let o := { o with session := turn.session }
      let rest := sessions turn.time os turn.left
      let outOfBudget := turn.late || rest.outOfBudget
      if turn.added.isEmpty then { rest with sessions := o :: rest.sessions, outOfBudget }
      else
        { rest with
          sessions := o :: rest.sessions
          proposals := b.proposal o turn.added :: rest.proposals
          satisfied := rest.satisfied + if turn.session.status = .satisfied then 1 else 0
          outOfBudget }

/-- What becomes of open sessions and the tickets of a queue. -/
def run (budget : Budget) (os : List (OpenSession α)) (pool : List (Ticket α)) : Backfilled α :=
  b.sessions budget (sortBy OpenSession.rank os) pool

end Backfill

end Matchmaking
