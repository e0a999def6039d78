import Matchmaking.Session

/-!
# Pivots

A search looks for tickets that fit a pivot: the first ticket of a new session,
or a session that is open. The search sees the same of both.
-/

namespace Matchmaking

/-- What a search is for. -/
inductive Pivot (α : Type) where
  /-- A new session around a ticket. -/
  | ticket (t : Ticket α)
  /-- More players for a session. -/
  | session (s : Session α)
  deriving DecidableEq

namespace Pivot

variable {α : Type}

/-- Whether the search is for an open session. -/
def isSession : Pivot α → Bool
  | ticket _ => false
  | session _ => true

/-- Since when the pivot waits. -/
def createdAt : Pivot α → Instant
  | ticket t => t.createdAt
  | session s => s.createdAt

/-- The tickets of the pivot. -/
def ticketIds : Pivot α → NameSet
  | ticket t => .ofList [t.id]
  | session s => .ofList s.ticketIds

/-- The parties of the pivot. -/
def partyIds : Pivot α → NameSet
  | ticket t => .ofList [t.partyId]
  | session s => s.partyIds

/-- The players of the pivot. -/
def userIds : Pivot α → NameSet
  | ticket t => t.userIds
  | session s => s.userIds

/-- What is known of the pivot as a whole. -/
def attributes : Pivot α → Attributes α
  | ticket t => t.attributes
  | session s => s.attributes

/-- What the pivot asks of those who join it. -/
def criteria : Pivot α → Attributes α
  | ticket _ => ∅
  | session s => s.criteria

variable [Scalar α]

/-- The players whom the pivot blocks. -/
def blocked : Pivot α → NameSet
  | ticket t => t.blocked
  | session s => s.blocked

/-- The number that the pivot is matched by. -/
def average : Pivot α → String → α
  | ticket t => t.average
  | session s => s.average

/-- The names that the pivot offers under `k`. -/
def optionNames : Pivot α → String → NameSet
  | ticket t => t.optionNames
  | session s => s.attributes.names

end Pivot

end Matchmaking
