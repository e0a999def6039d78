import Matchmaking.RoleTally
import Matchmaking.Rules.Alliance

/-!
# Packing parties into teams

Parties come in an order and are put into teams greedily. First every team that
there must be is filled up to the least size, then every team up to the
greatest, and then further teams are opened while there may be more and they
reach the least size. A party goes into a team if it fits in size, nobody blocks
another, and the team has roles for all its members.

Packing succeeds if the first entrant, the pivot, has a place and the teams fit
the shape of the match. Before the first team of an order is filled, room is made for
as many teams as there may be. That is the same for every order, so it is asked for
once, before a match is searched for (`Bounds.searchFailure?`).
-/

namespace Matchmaking

variable {α : Type}

/-- How roles are dealt with. -/
inductive RoleMode where
  /-- There are no roles. -/
  | normal
  /-- Teams are made of roles. -/
  | combo
  /-- Teams are made of roles, each taken once at most. -/
  | unique
  deriving DecidableEq

/-- A ticket to be packed. -/
structure Entrant (α : Type) where
  /-- Its number among the entrants; the pivot has the number zero. -/
  index : Nat
  /-- The ticket. -/
  ticket : Ticket α
  /-- Its players. -/
  users : NameSet
  /-- The players whom it blocks. -/
  blocked : NameSet
  deriving DecidableEq

/-- A team that parties are put into. -/
structure TeamDraft where
  /-- The tickets of the team, in order. -/
  tickets : List String
  /-- The number of players. -/
  players : Nat
  /-- The players. -/
  users : NameSet
  /-- The players whom someone on the team blocks. -/
  blocked : NameSet
  /-- The roles of the team, if it has some. -/
  tally : Option RoleTally
  /-- The roles that players have taken. -/
  roles : Dict String
  /-- The players who are left open, in order. -/
  pending : List String
  deriving DecidableEq

/-- A finished team. -/
structure TeamPlan where
  /-- The tickets of the team, in order. -/
  tickets : List String
  /-- The number of players. -/
  players : Nat
  /-- The roles of the players, if the team has roles. -/
  roles : Dict String
  deriving DecidableEq

/-- How parties are packed. -/
structure Packing where
  /-- The shape of the match. -/
  rule : AllianceRule
  /-- What becomes of players who block one another. -/
  policy : BlockPolicy
  /-- How roles are dealt with. -/
  mode : RoleMode
  deriving DecidableEq

/-- A ticket as an entrant. -/
def Entrant.of [Scalar α] (index : Nat) (t : Ticket α) : Entrant α :=
  ⟨index, t, t.userIds, t.blocked⟩

/-- Tickets as entrants, in order. -/
def Entrant.ofList [Scalar α] (ts : List (Ticket α)) : List (Entrant α) := ts.mapIdx Entrant.of

/-- How a shape deals with roles. -/
def AllianceRule.roleMode (a : AllianceRule) : RoleMode :=
  match a.combination with
  | some c => if c.active then (if c.unique then .unique else .combo) else .normal
  | none => .normal

/-- The empty tally of the team at a place, if it has roles. -/
def AllianceRule.tally? (a : AllianceRule) (mode : RoleMode) (team : Nat) : Option RoleTally :=
  match mode with
  | .normal => none
  | .combo => if (a.rolesFor team).isEmpty then none else some (.new (a.rolesFor team) false)
  | .unique => if (a.rolesFor team).isEmpty then none else some (.new (a.rolesFor team) true)

namespace TeamDraft

/-- An empty team. -/
def new (tally : Option RoleTally) : TeamDraft := ⟨[], 0, ∅, ∅, tally, ∅, []⟩

/-- Whether every role has the members that it must have. -/
def isSatisfied (d : TeamDraft) : Bool := d.tally.all (·.isSatisfied)

/-- Whether the team has reached a size and has the members that its roles must
    have. -/
def reaches (d : TeamDraft) (size : Nat) : Bool := decide (size ≤ d.players) && d.isSatisfied

/-- What the check of a shape sees of the team. -/
def summary (d : TeamDraft) : TeamSummary := ⟨d.players, d.users, d.blocked⟩

/-- The team with what some of its members take noted down. -/
def note (d : TeamDraft) : List (Member α × Slot) → TeamDraft
  | [] => d
  | (m, .role name) :: rest => note { d with roles := d.roles.insert m.id name } rest
  | (m, .any) :: rest => note { d with pending := d.pending ++ [m.id] } rest

/-- The team with an entrant, of whom nothing else is checked. -/
def push (d : TeamDraft) (e : Entrant α) : TeamDraft :=
  { d with
    tickets := d.tickets ++ [e.ticket.id]
    players := d.players + e.ticket.players
    users := d.users.union e.users
    blocked := d.blocked.union e.blocked }

/-- The roles of the players, once those left open have roles too. -/
def finalRoles (d : TeamDraft) : Dict String :=
  match d.tally with
  | none => d.roles
  | some t => (d.pending.zip t.resolve).foldl (fun roles (user, role) => roles.insert user role) d.roles

/-- The finished team. -/
def finish (d : TeamDraft) : TeamPlan := ⟨d.tickets, d.players, d.finalRoles⟩

end TeamDraft

namespace Packing

variable (p : Packing)

/-- Whether a team and an entrant block one another, if that matters. -/
def clashes (d : TeamDraft) (e : Entrant α) : Bool :=
  p.policy ≠ .canMatch && !(d.blocked.disjoint e.users && e.blocked.disjoint d.users)

/-- The team with an entrant, if it fits. -/
def add? (d : TeamDraft) (e : Entrant α) : Option TeamDraft :=
  if p.rule.bounds.maxSize < d.players + e.ticket.players then none
  else if p.clashes d e then none
  else
    match d.tally with
    | none => some (d.push e)
    | some t =>
      (t.assignAll? e.ticket.members).map fun (slots, t) =>
        ({ d with tally := some t }.note (e.ticket.members.zip slots)).push e

/-- A team filled with the entrants that have no place yet, in their order, until
    it reaches a size. The numbers of those who have a place are kept along. -/
def fill (size : Nat) : List (Entrant α) → TeamDraft → List Nat → TeamDraft × List Nat
  | [], d, placed => (d, placed)
  | e :: es, d, placed =>
    if d.reaches size then (d, placed)
    else if placed.contains e.index then fill size es d placed
    else
      match p.add? d e with
      | none => fill size es d placed
      | some d => fill size es d (e.index :: placed)

/-- A new team at a place, filled up to a size. -/
def newTeam (size : Nat) (order : List (Entrant α)) (team : Nat) (placed : List Nat) :
    TeamDraft × List Nat :=
  p.fill size order (.new (p.rule.tally? p.mode team)) placed

/-- So many teams from a place on, all of which reach the least size. -/
def firstTeams? (order : List (Entrant α)) :
    Nat → Nat → List Nat → Option (List TeamDraft × List Nat)
  | 0, _, placed => some ([], placed)
  | n + 1, team, placed =>
    let (d, placed) := p.newTeam p.rule.bounds.minSize order team placed
    if d.reaches p.rule.bounds.minSize then
      (firstTeams? order n (team + 1) placed).map fun (ds, placed) => (d :: ds, placed)
    else none

/-- Teams filled up to the greatest size, one after the other. -/
def topUp (order : List (Entrant α)) : List TeamDraft → List Nat → List TeamDraft × List Nat
  | [], placed => ([], placed)
  | d :: ds, placed =>
    let (d, placed) := p.fill p.rule.bounds.maxSize order d placed
    let (ds, placed) := topUp order ds placed
    (d :: ds, placed)

/-- At most so many teams from a place on, up to the first one that does not
    reach the least size; its entrants have no place. -/
def furtherTeams (order : List (Entrant α)) :
    Nat → Nat → List Nat → List TeamDraft × List Nat
  | 0, _, placed => ([], placed)
  | n + 1, team, placed =>
    let (d, placed') := p.newTeam p.rule.bounds.maxSize order team placed
    if d.reaches p.rule.bounds.minSize then
      let (ds, placed) := furtherTeams order n (team + 1) placed'
      (d :: ds, placed)
    else ([], placed)

/-- The teams that entrants in an order are put into, and who has a place. -/
def drafts? (order : List (Entrant α)) : Option (List TeamDraft × List Nat) :=
  (p.firstTeams? order p.rule.bounds.minTeams 0 []).map fun (first, placed) =>
    let (first, placed) := p.topUp order first placed
    let (further, placed) :=
      p.furtherTeams order (p.rule.bounds.maxTeams - first.length) first.length placed
    (first ++ further, placed)

/-- The teams of entrants in an order, if they make a match with the pivot. There is room
    for as many teams as there may be, else the search has broken off before
    (`Bounds.searchFailure?`). -/
def pack? (order : List (Entrant α)) : Option (List TeamPlan) :=
  match p.drafts? order with
  | none => none
  | some (ds, placed) =>
    if placed.contains 0 ∧ p.rule.teamsFault? p.policy (ds.map (·.summary)) = none then
      some (ds.map (·.finish))
    else none

end Packing

end Matchmaking
