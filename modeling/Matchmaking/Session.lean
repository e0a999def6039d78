import Matchmaking.Ticket

/-!
# Sessions

A session is a match in the making: alliances, each of them parties, with what
is known of all parties together. Sessions are formed from the queue or handed
in from outside, and extended while they are open. What bounds their alliances
is not part of a session.
-/

namespace Matchmaking

/-- A party in an alliance. -/
structure Party (α : Type) where
  /-- The party. -/
  id : String
  /-- The ticket that the party came with. Members that came with no known
      ticket form a party of their own, the external one. -/
  ticketId : Option String
  /-- The players of the party. -/
  members : List (Member α)
  /-- What is known of the party as a whole. -/
  attributes : Attributes α
  deriving DecidableEq

/-- A team of a match. -/
structure Alliance (α : Type) where
  /-- The team. -/
  teamId : String
  /-- The parties of the team. -/
  parties : List (Party α)
  deriving DecidableEq

/-- A mean over players that can take in more players. -/
structure RunningMean (α : Type) where
  /-- The mean. -/
  value : α
  /-- The number of players that it is over. -/
  players : Nat
  deriving DecidableEq

/-- The stages of a session. -/
inductive Status where
  /-- Formed from the queue, not every alliance is full. -/
  | forming
  /-- Has gained players and still has room. -/
  | updated
  /-- Every alliance is full. -/
  | satisfied
  deriving DecidableEq

/-- A match in the making. -/
structure Session (α : Type) where
  /-- The match. -/
  id : String
  /-- The queue that it was formed from. -/
  channel : String
  /-- The mode that it is played in, if not the main one. -/
  mode : Option String
  /-- The region that it is played in, if that matters. -/
  region : Option String
  /-- The teams. -/
  alliances : List (Alliance α)
  /-- What is known of all parties together. -/
  attributes : Attributes α
  /-- The means of what the parties are matched by. -/
  means : Dict (RunningMean α)
  /-- The attributes that a party must have to join. -/
  criteria : Attributes α
  /-- The highest priority of its tickets. -/
  priority : Int
  /-- When the first of its tickets entered the queue. -/
  createdAt : Instant
  /-- Its stage. -/
  status : Status
  /-- Whether it is still open. -/
  joinable : Bool
  deriving DecidableEq

/-- An open session waiting for more players. -/
structure OpenSession (α : Type) where
  /-- The ticket that the session waits under. -/
  ticketId : String
  /-- The session. -/
  session : Session α
  deriving DecidableEq

/-- Tickets proposed for an open session, and what it looks like with them. -/
structure Proposal (α : Type) where
  /-- The ticket that the session waited under. -/
  openTicketId : String
  /-- The match. -/
  sessionId : String
  /-- The tickets that were added, in order. -/
  added : List String
  /-- The teams with the added tickets. -/
  alliances : List (Alliance α)
  /-- The stage of the session with the added tickets. -/
  status : Status
  /-- When the proposal was made. -/
  createdAt : Instant
  deriving DecidableEq

variable {α : Type}

namespace Party

/-- The party id of the members that came with no known ticket. -/
def externalId : String := "external"

/-- The party of a ticket. -/
def ofTicket (t : Ticket α) : Party α := ⟨t.partyId, some t.id, t.members, t.attributes⟩

/-- The party of members that came with no known ticket. -/
def external (ms : List (Member α)) : Party α := ⟨externalId, none, ms, ∅⟩

/-- Whether the party came with no known ticket. -/
def isExternal (p : Party α) : Bool := p.ticketId.isNone

/-- The number of players. -/
def players (p : Party α) : Nat := p.members.length

/-- The players. -/
def userIds (p : Party α) : NameSet := .ofList (p.members.map (·.id))

/-- The players that the party or one of its members blocks. -/
def blocked [Scalar α] (p : Party α) : NameSet :=
  blockedBy (p.attributes.names Key.blockedPlayers) p.members

/-- The party with the roles given to its members; a member without a given role
    keeps what it has. -/
def assignRoles (roles : Dict String) (p : Party α) : Party α :=
  { p with members := p.members.map fun m =>
      match roles.get? m.id with
      | some r => { m with assignedRole := some r }
      | none => m }

end Party

namespace Alliance

/-- A team without parties. -/
def new (teamId : String) : Alliance α := ⟨teamId, []⟩

/-- The name of the team at a place. -/
def teamName (i : Nat) : String := "team-" ++ toString i

/-- The players of a team, in order. -/
def members (a : Alliance α) : List (Member α) := a.parties.flatMap (·.members)

/-- The number of players. -/
def players (a : Alliance α) : Nat := total Party.players a.parties

/-- The players. -/
def userIds (a : Alliance α) : NameSet := .ofList (a.members.map (·.id))

/-- Whether a player is on the team. -/
def hasUser (a : Alliance α) (id : String) : Bool := a.members.any fun m => m.id == id

/-- The players that anyone on the team blocks. -/
def blocked [Scalar α] (a : Alliance α) : NameSet :=
  a.parties.foldl (fun s p => s.union p.blocked) ∅

/-- The team with a further party. -/
def addParty (a : Alliance α) (p : Party α) : Alliance α := { a with parties := a.parties ++ [p] }

/-! ### Teams from lists of players -/

/-- The first ticket that has a player, and the player in it. -/
def owner? (id : String) : List (Ticket α) → Option (Ticket α × Member α)
  | [] => none
  | t :: ts =>
    match t.members.find? fun m => m.id == id with
    | some m => some (t, m)
    | none => owner? id ts

/-- The parties with a member of a ticket: in the party of that ticket if it is
    there, in a new one at the end if it is not. -/
def place (t : Ticket α) (m : Member α) : List (Party α) → List (Party α)
  | [] => [{ Party.ofTicket t with members := [m] }]
  | p :: ps =>
    if p.ticketId = some t.id then { p with members := p.members ++ [m] } :: ps
    else p :: place t m ps

/-- One player: a player who is already placed changes nothing, one of a known
    ticket joins the party of that ticket, and any other is external. -/
def placeUser (tickets : List (Ticket α)) (acc : Alliance α × List (Member α)) (id : String) :
    Alliance α × List (Member α) :=
  let (a, external) := acc
  if a.hasUser id || external.any fun m => m.id == id then acc
  else
    match owner? id tickets with
    | some (t, m) => ({ a with parties := place t m a.parties }, external)
    | none => (a, external ++ [.ofId id])

/-- The team of a list of players, each in the party of the first ticket that has
    it; the players of no ticket form an external party at the end. -/
def ofUsers (teamId : String) (users : List String) (tickets : List (Ticket α)) : Alliance α :=
  let (a, external) := users.foldl (placeUser tickets) (new teamId, [])
  if external.isEmpty then a else a.addParty (.external external)

end Alliance

namespace RunningMean

variable [Scalar α]

/-- The mean with `players` more players whose own mean is `value`. -/
def absorb (m : RunningMean α) (value : α) (players : Nat) : RunningMean α :=
  let total := m.players + players
  if total = 0 then m
  else
    ⟨(m.value * Scalar.ofNat m.players + value * Scalar.ofNat players) / Scalar.ofNat total, total⟩

end RunningMean

namespace Status

/-- The stages and their names. -/
def names : List (String × Status) :=
  [("Forming", .forming), ("Updated", .updated), ("Satisfied", .satisfied)]

/-- The name of a stage. -/
def name : Status → String
  | forming => "Forming"
  | updated => "Updated"
  | satisfied => "Satisfied"

end Status

namespace Session

/-- The parties of a session, team by team. -/
def parties (s : Session α) : List (Party α) := s.alliances.flatMap (·.parties)

/-- The players of a session, team by team. -/
def members (s : Session α) : List (Member α) := s.alliances.flatMap (·.members)

/-- The number of players. -/
def players (s : Session α) : Nat := total Alliance.players s.alliances

/-- The numbers of players of the teams. -/
def teamSizes (s : Session α) : List Nat := s.alliances.map Alliance.players

/-- The players. -/
def userIds (s : Session α) : NameSet := .ofList (s.members.map (·.id))

/-- The tickets of a session, team by team. -/
def ticketIds (s : Session α) : List String := s.parties.filterMap (·.ticketId)

/-- The parties of a session that came with a ticket. -/
def partyIds (s : Session α) : NameSet :=
  .ofList ((s.parties.filter fun p => !p.isExternal).map (·.id))

/-- The session with the mean of an attribute set, over all its players. -/
def setMean (s : Session α) (k : String) (value : α) : Session α :=
  { s with means := s.means.insert k ⟨value, s.players⟩ }

/-- The session with a further party in the team at a place, if there is one. -/
def addParty (s : Session α) (i : Nat) (p : Party α) : Session α :=
  { s with alliances := s.alliances.modify i fun a => a.addParty p }

/-- The session with a further team. -/
def addAlliance (s : Session α) (a : Alliance α) : Session α :=
  { s with alliances := s.alliances ++ [a] }

variable [Scalar α]

/-- The players that anyone in the session, or the session itself, blocks. -/
def blocked (s : Session α) : NameSet :=
  s.alliances.foldl (fun b a => b.union a.blocked) (s.attributes.names Key.blockedPlayers)

/-- The number that a session is matched by: the recorded mean, without one the
    mean over the members that have the number, then the number of the session,
    and then zero. -/
def average (s : Session α) (k : String) : α :=
  match s.means.get? k with
  | some m => m.value
  | none =>
    (Scalar.mean? (s.members.filterMap fun m => m.attributes.scalar? k)).getD
      ((s.attributes.scalar? k).getD (Scalar.ofNat 0))

end Session

namespace OpenSession

/-- The order in which open sessions are served: the oldest first, then by
    ticket. -/
def rank : OpenSession α → OpenSession α → Ordering :=
  compareLex (fun a b => Instant.rank a.session.createdAt b.session.createdAt)
    (compareOn (·.ticketId))

end OpenSession

end Matchmaking
