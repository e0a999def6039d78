import Matchmaking.Rules.RuleSet
import Matchmaking.Ticket

/-!
# Made-up queues

A queue of made-up tickets shows what rules do. Its tickets hold one player each,
and entered the queue a second apart, the last one a second ago. Their attribute
takes the values from 1000 to 1999 in a fixed, scattered order.
-/

namespace Matchmaking

namespace Simulation

variable {α : Type} [Scalar α]

/-- The queue. -/
def channel : String := "simulation"

/-- The rules that are used if none are given: two teams of five, whose players
    are near one another in the attribute. -/
def rules (key : String) : RuleSet α :=
  { RuleSet.ofAlliance ⟨⟨2, 2, 5, 5⟩, none⟩ with
    distances := [⟨key, Scalar.ofNat 200, none, none⟩] }

/-- The attribute of the player at a place. -/
def value (i : Nat) : Nat := 1000 + i * 7919 % 1000

/-- The player at a place. -/
def member (key : String) (i : Nat) : Member α :=
  ⟨"sim-user-" ++ toString i, (∅ : Attributes α).insert key (.number (Scalar.ofNat (value i))),
    none, false⟩

/-- The ticket at a place of a queue of `count` tickets. -/
def ticket (now : Instant) (count : Nat) (key : String) (i : Nat) : Ticket α where
  id := "sim-" ++ toString i
  channel := channel
  partyId := "sim-" ++ toString i
  members := [member key i]
  attributes := ∅
  priority := 0
  createdAt := now.later (-(((count - i) * Instant.second : Nat) : Int))
  latencies := ∅
  excluded := []

/-- The tickets of a queue, the oldest first. -/
def tickets (now : Instant) (count : Nat) (key : String) : List (Ticket α) :=
  (List.range count).map (ticket now count key)

end Simulation

end Matchmaking
