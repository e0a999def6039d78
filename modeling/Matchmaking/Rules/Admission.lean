import Matchmaking.Rules.RuleSet
import Matchmaking.Ticket

/-!
# Admission

Which tickets a queue takes: those without fault that have a region which the
rules allow.
-/

namespace Matchmaking

/-- Why a ticket is not taken. -/
inductive AdmissionFault where
  /-- The ticket is faulty. -/
  | invalid (ticket : String) (fault : TicketFault)
  /-- All its regions are too slow. -/
  | noRegion (ticket : String) (greatest : Latency)
  deriving DecidableEq

/-- The wording of a fault. -/
def AdmissionFault.message : AdmissionFault → String
  | invalid ticket fault => "Invalid ticket " ++ ticket ++ ": " ++ fault.message
  | noRegion ticket greatest =>
    "Ticket " ++ ticket ++ " has no region at or under " ++ toString greatest.toNat ++ "ms"

/-- Why a ticket is not taken, if it is not. -/
def RuleSet.admissionFault? {α : Type} (r : RuleSet α) (t : Ticket α) : Option AdmissionFault :=
  match t.fault? with
  | some f => some (.invalid t.id f)
  | none =>
    if r.region.greatest > 0 && !t.bestLatency?.any fun best => best ≤ r.region.greatest then
      some (.noRegion t.id r.region.greatest)
    else none

end Matchmaking
