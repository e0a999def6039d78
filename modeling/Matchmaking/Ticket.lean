import Matchmaking.Attribute
import Matchmaking.Number.Total

/-!
# Tickets

A ticket is the entry of one party into the queue: its members with their
attributes, the attributes of the party, what it measured of the regions, and
since when it waits. A queued ticket changes only in the roles of its members.
-/

namespace Matchmaking

/-- A player of a party. -/
structure Member (α : Type) where
  /-- The player. -/
  id : String
  /-- What is known of the player. -/
  attributes : Attributes α
  /-- The role that the member was given in a team. -/
  assignedRole : Option String
  /-- Whether the member gave up its own roles and takes any. -/
  roleFlexed : Bool
  deriving DecidableEq

/-- A party in the queue. -/
structure Ticket (α : Type) where
  /-- The ticket. -/
  id : String
  /-- The queue. -/
  channel : String
  /-- The party. -/
  partyId : String
  /-- The players of the party. -/
  members : List (Member α)
  /-- What is known of the party as a whole. -/
  attributes : Attributes α
  /-- Higher ones are served first. -/
  priority : Int
  /-- When the ticket entered the queue. -/
  createdAt : Instant
  /-- The measured latency of each region. -/
  latencies : Dict Latency
  /-- The sessions that the party must not join. -/
  excluded : List String
  deriving DecidableEq

variable {α : Type}

namespace Member

/-- A member of which nothing but the player is known. -/
def ofId (id : String) : Member α := ⟨id, ∅, none, false⟩

/-- The roles that a member is willing to take, in order of preference: any role
    once it gave up its own, else the texts under its role that are not blank. -/
def roles (m : Member α) : List String :=
  if m.roleFlexed then [Key.anyRole]
  else
    match m.attributes.get? Key.role with
    | some (.list items) => items.filter fun s => !isBlank s
    | some (.text s) => [s].filter fun s => !isBlank s
    | _ => []

/-- The first role of a member that is a role of its own. -/
def primaryRole? (m : Member α) : Option String := m.roles.find? fun r => r != Key.anyRole

/-- The players that a member blocks. -/
def blocked [Scalar α] (m : Member α) : NameSet := m.attributes.names Key.blockedPlayers

end Member

/-- The players that any of the members blocks, with those of a set. -/
def blockedBy [Scalar α] (s : NameSet) (ms : List (Member α)) : NameSet :=
  ms.foldl (fun s m => s.union m.blocked) s

/-- What is wrong with a ticket. -/
inductive TicketFault where
  /-- There is nobody in the party. -/
  | noMembers
  /-- A player is in the party twice. -/
  | duplicateMember (id : String)
  deriving DecidableEq

/-- The wording of a fault. -/
def TicketFault.message : TicketFault → String
  | noMembers => "party has no members"
  | duplicateMember id => "duplicate party member " ++ id

/-- The first name of a list that occurred before it, or is one of `seen`. -/
def firstRepeated? (seen : List String) : List String → Option String
  | [] => none
  | x :: xs => if seen.contains x then some x else firstRepeated? (x :: seen) xs

namespace Ticket

/-- The number of players. -/
def players (t : Ticket α) : Nat := t.members.length

/-- The players. -/
def userIds (t : Ticket α) : NameSet := .ofList (t.members.map (·.id))

/-- The order of measured regions: by latency, then by name. -/
def regionRank : String × Latency → String × Latency → Ordering :=
  compareLex (compareOn (·.2)) (compareOn (·.1))

/-- The measured regions, the best first. -/
def sortedLatencies (t : Ticket α) : List (String × Latency) :=
  t.latencies.toList.mergeSort fun a b => (regionRank a b).isLE

/-- The least measured latency. -/
def bestLatency? (t : Ticket α) : Option Latency := t.sortedLatencies.head?.map (·.2)

/-- The fault of a ticket, if it has one: a party has members, and no player is
    in it twice. -/
def fault? (t : Ticket α) : Option TicketFault :=
  if t.members.isEmpty then some .noMembers
  else (firstRepeated? [] (t.members.map (·.id))).map .duplicateMember

/-- The order in which a queue is served: by priority, then the longest wait
    first, then by ticket. -/
def rank : Ticket α → Ticket α → Ordering :=
  compareLex (fun a b => compare b.priority a.priority)
    (compareLex (fun a b => Instant.rank a.createdAt b.createdAt) (compareOn (·.id)))

/-- The tickets in the order in which they are served. -/
def sortQueue (ts : List (Ticket α)) : List (Ticket α) :=
  ts.mergeSort fun a b => (rank a b).isLE

/-- The tickets of a list whose ids are not among some. -/
def without (ids : List String) (ts : List (Ticket α)) : List (Ticket α) :=
  ts.filter fun t => !ids.contains t.id

theorem length_without_le (ids : List String) (ts : List (Ticket α)) :
    (without ids ts).length ≤ ts.length :=
  List.length_filter_le _ _

/-- The number of players of a list of tickets. -/
def totalPlayers (ts : List (Ticket α)) : Nat := total players ts

/-- How long the ticket has waited, in whole seconds. -/
def ageSeconds (t : Ticket α) (now : Instant) : Int := now.secondsSince t.createdAt

/-- How long the ticket has waited, in whole milliseconds. -/
def ageMillis (t : Ticket α) (now : Instant) : Int := now.millisSince t.createdAt

variable [Scalar α]

/-- The mean of a number over the members that have it; without such a member
    the number of the party, and without that zero. -/
def average (t : Ticket α) (k : String) : α :=
  (Scalar.mean? (t.members.filterMap fun m => m.attributes.scalar? k)).getD
    ((t.attributes.scalar? k).getD (Scalar.ofNat 0))

/-- The players that the party or one of its members blocks. -/
def blocked (t : Ticket α) : NameSet :=
  blockedBy (t.attributes.names Key.blockedPlayers) t.members

/-- The names that a party offers under `k`: those of the party if it has a
    value there, and else those of all its members. -/
def optionNames (t : Ticket α) (k : String) : NameSet :=
  match t.attributes.get? k with
  | some v => v.names
  | none => t.members.foldl (fun s m => s.union (m.attributes.names k)) ∅

/-- The modes that the party accepts. -/
def modes (t : Ticket α) : NameSet := t.attributes.names Key.mode

/-- Whether the party stays out of sessions that have begun. -/
def newSessionOnly (t : Ticket α) : Bool :=
  ((t.attributes.get? Key.newSessionOnly).bind Value.flag?).getD false

end Ticket

end Matchmaking
