import Matchmaking.Rules.RuleSet
import Matchmaking.Ticket

/-!
# Regions

A ticket accepts the regions whose latency exceeds that of its best one by no
more than a window. The window widens while the ticket waits, up to the greatest
latency of the rules if there is one.

A ticket tries its regions, the best one first (`RuleSet.regions`). Another
ticket joins it in a region which it accepts itself (`RuleSet.regionFit?`).
-/

namespace Matchmaking

variable {α : Type}

namespace RegionRule

/-- How much the window has widened after a time of waiting. -/
def expansion (r : RegionRule) (millis : Int) : Latency :=
  if r.stepMillis > 0 then Latency.mul (millis.toNat / r.stepMillis.toNat) r.stepRange else 0

/-- The greatest accepted latency, given the best one and the time of waiting. -/
def limit (r : RegionRule) (best : Latency) (millis : Int) : Latency :=
  let limit := ((best.add r.initialRange).add (r.expansion millis))
  if r.greatest > 0 then min limit r.greatest else limit

end RegionRule

/-- How well a ticket fits a region. -/
structure RegionFit (α : Type) where
  /-- What the region costs it. -/
  score : α
  /-- Its latency there, if the region matters and it is known. -/
  latency : Option Latency
  deriving DecidableEq

namespace RuleSet

variable (r : RuleSet α) (t : Ticket α) (now : Instant)

/-- The greatest latency that a ticket accepts, if regions matter and it has
    measured any. -/
def latencyLimit? : Option Latency :=
  if r.region.isUsed then t.bestLatency?.map fun best => r.region.limit best (t.ageMillis now)
  else none

/-- The regions in which a ticket may be played, the best one first. A ticket
    that is not limited tries no region in particular. -/
def regions : List (Option String) :=
  match r.latencyLimit? t now with
  | none => [none]
  | some limit => (t.sortedLatencies.filter fun e => e.2 ≤ limit).map fun e => some e.1

/-- How well a ticket fits a region, or no region in particular, if it accepts
    it. It costs by how much it is slower than its best region. -/
def regionFit? [Scalar α] : Option String → Option (RegionFit α)
  | none => some ⟨Scalar.ofNat 0, none⟩
  | some region =>
    if r.region.isUsed then do
      let latency ← t.latencies.get? region
      let limit ← r.latencyLimit? t now
      if latency ≤ limit then
        return ⟨Scalar.ofNat (latency - t.bestLatency?.getD latency).toNat, some latency⟩
      else none
    else some ⟨Scalar.ofNat 0, t.latencies.get? region⟩

end RuleSet

end Matchmaking
