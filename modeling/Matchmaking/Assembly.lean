import Matchmaking.Orderings
import Matchmaking.Packing

/-!
# Assembling a match

The teams of a match are assembled from a pivot and the tickets that fit it, the
best ones first. Several orders are packed, in which the pivot and the tickets
with a priority stay in front. The first packing that fills the match is taken;
if the tickets have too few players for that, the first packing at all. Otherwise
the largest one is taken, of several the first.

The players that fill a match are counted first, and room is made for its teams as the
first order is packed, of which there is one at least. Whether either breaks off depends
on the shape of the match only (`Bounds.searchFailure?`), so it is asked for before a match
is assembled.
-/

namespace Matchmaking

variable {α : Type}

/-- The teams of a match. -/
structure Assembly where
  /-- The teams, in order. -/
  teams : List TeamPlan
  deriving DecidableEq

namespace Assembly

/-- The number of players. -/
def players (a : Assembly) : Nat := total (·.players) a.teams

/-- The tickets, team by team. -/
def tickets (a : Assembly) : List String := a.teams.flatMap (·.tickets)

/-- Whether there are as many teams as there may be, all of the greatest size. -/
def isFull (a : Assembly) (b : Bounds) : Bool :=
  decide (a.teams.length = b.maxTeams) && a.teams.all fun t => t.players = b.maxSize

/-- The larger of two assemblies, the first if they are equal. -/
def larger (a : Assembly) (best : Option Assembly) : Assembly :=
  match best with
  | none => a
  | some b => if b.players < a.players then a else b

end Assembly

/-- How a match is assembled. -/
structure Assembler where
  /-- How parties are packed. -/
  packing : Packing
  /-- The greatest number of orders to be packed; one is packed at least. -/
  cap : Nat
  deriving DecidableEq

namespace Assembler

variable (m : Assembler)

/-- How a match of a shape is assembled. -/
def of (rule : AllianceRule) (policy : BlockPolicy) (cap : Nat) : Assembler :=
  ⟨⟨rule, policy, rule.roleMode⟩, cap⟩

/-- The packing of entrants in an order of their numbers. -/
def packed? (entrants : Array (Entrant α)) (order : List Nat) : Option Assembly :=
  (m.packing.pack? (order.filterMap (entrants[·]?))).map Assembly.mk

/-- The assembly from at most so many orders, with the best one before them. -/
def searchOrders (entrants : Array (Entrant α)) (canFill : Bool) :
    Nat → Orderings → Option Assembly → Option Assembly
  | 0, _, best => best
  | n + 1, o, best =>
    match o.next? with
    | none => best
    | some (order, rest) =>
      match m.packed? entrants order with
      | none => searchOrders entrants canFill n rest best
      | some a =>
        if a.isFull m.packing.rule.bounds || !canFill then some a
        else searchOrders entrants canFill n rest (some (a.larger best))

/-- The number of tickets at the front that stay there. -/
def pinned (ts : List (Ticket α)) : Nat := 1 + (ts.takeWhile fun t => decide (0 < t.priority)).length

/-- Whether the players of some tickets are enough to fill a match. -/
def canFill (ts : List (Ticket α)) : Bool :=
  decide (m.packing.rule.bounds.maxPlayers ≤ Ticket.totalPlayers ts)

/-- The match of a pivot and the tickets that fit it, if there is one. -/
def assemble? [Scalar α] (pivot : Ticket α) (ts : List (Ticket α)) : Option Assembly :=
  m.searchOrders (Entrant.ofList (pivot :: ts)).toArray (m.canFill (pivot :: ts)) (max m.cap 1)
    (.new (ts.length + 1) (pinned ts)) none

end Assembler

end Matchmaking
