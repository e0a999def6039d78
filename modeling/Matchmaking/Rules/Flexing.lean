import Matchmaking.Instant
import Matchmaking.Order
import Matchmaking.Rules.RuleSet

/-!
# Rules in time

Tolerances and bounds give way while a pivot, a ticket or a session, waits. What
replaces them becomes active once the pivot has waited for longer than its
duration. Of what is active at once the one with the longest duration is in
force, of equal durations the later one; it replaces what the rule set says
outright. The rule set itself stays as it is.
-/

namespace Matchmaking

/-- Whether more than so many seconds have passed from `anchor` to `now`. -/
def isOverdue (anchor now : Instant) (seconds : Nat) : Bool :=
  anchor.later (seconds * Instant.second) < now

/-- What is in force of a list of what may replace a rule: the last one of those
    with the longest duration that has passed. -/
def inForce? {β : Type} (duration : β → Nat) (anchor now : Instant) (fs : List β) : Option β :=
  lastGreatest? (compareOn duration) (fs.filter fun f => isOverdue anchor now (duration f))

namespace AllianceRule

/-- The shape at a time, and whether it is not the first one. -/
def flexedAt (a : AllianceRule) (fs : List AllianceFlexing) (anchor now : Instant) :
    AllianceRule × Bool :=
  match inForce? AllianceFlexing.duration anchor now fs with
  | some f => (a.flexed f, true)
  | none => (a, false)

end AllianceRule

namespace RuleSet

variable {α : Type} (r : RuleSet α) (anchor now : Instant)

/-- What replaces the tolerance of an attribute, if anything does. -/
def flexing? (key : String) : Option (FlexingRule α) :=
  inForce? FlexingRule.duration anchor now (r.flexing.filter fun f => f.key == key)

/-- The tolerance of an attribute, if it has one. -/
def tolerance? (key : String) : Option α :=
  (r.distance? key).map fun d => ((r.flexing? anchor now key).map (·.tolerance)).getD d.tolerance

/-- The shape of a mode, and whether it is not the first one. -/
def allianceAt (mode : Option String) : AllianceRule × Bool :=
  (r.allianceFor mode).flexedAt (r.allianceFlexingFor mode) anchor now

/-- The distance rules at a time. -/
def distancesAt : List (DistanceRule α) :=
  r.distances.map fun d =>
    match r.flexing? anchor now d.key with
    | some f => { d with tolerance := f.tolerance }
    | none => d

/-- The rules at a time: its tolerances and its main shape. -/
def flexedAt : RuleSet α :=
  { r with
    distances := r.distancesAt anchor now
    alliance := (r.alliance.flexedAt r.allianceFlexing anchor now).1 }

/-- Whether any tolerance or the main shape is not the first one. -/
def isFlexedAt : Bool :=
  (r.distances.any fun d => (r.flexing? anchor now d.key).isSome) ||
    (r.alliance.flexedAt r.allianceFlexing anchor now).2

end RuleSet

end Matchmaking
