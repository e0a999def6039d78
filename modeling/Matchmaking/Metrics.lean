import Matchmaking.Backfill
import Matchmaking.Number.Double

/-!
# Metrics

Every run of the engine leaves a record, and the records of all runs are summed
up in metrics: counters and the latest size of the queue for each channel, and
how long the runs of each kind took.

A counter is a word, which wraps around. That a run gave nothing to count is
still counted, as nothing.
-/

namespace Matchmaking

/-- The kinds of runs. -/
inductive RunKind where
  /-- New sessions are formed. -/
  | forming
  /-- Open sessions are filled. -/
  | backfill
  deriving DecidableEq

/-- The name of a kind. -/
def RunKind.name : RunKind → String
  | forming => "match"
  | backfill => "backfill"

/-- The record of a run. -/
inductive RunRecord where
  /-- New sessions were formed: how many tickets there were, how many sessions
      were formed of how many tickets, how many tickets were left, how many
      pivots were dropped and how many members gave up their roles. -/
  | forming (pool sessions matched unmatched dropped flexed : Nat) (outOfBudget : Bool)
  /-- Open sessions were filled: how many gained how many tickets, and how many
      are full now. -/
  | backfill (proposals added satisfied : Nat) (outOfBudget : Bool)
  deriving DecidableEq

namespace RunRecord

/-- The kind of the run. -/
def kind : RunRecord → RunKind
  | forming .. => .forming
  | backfill .. => .backfill

/-- Whether the run was out of time. -/
def isOutOfBudget : RunRecord → Bool
  | forming _ _ _ _ _ _ b => b
  | backfill _ _ _ b => b

/-- The record of a run that formed sessions of so many tickets, unless it broke
    off. -/
def ofFormed? {α : Type} (pool : Nat) (f : Formed α) : Option RunRecord :=
  match f.failure with
  | none =>
    some <| .forming pool f.sessions.length (total (fun s => s.ticketIds.length) f.sessions)
      f.unmatched.length f.dropped f.flexed f.outOfBudget
  | some _ => none

/-- The record of a run that filled sessions. -/
def ofBackfilled {α : Type} (b : Backfilled α) : RunRecord :=
  .backfill b.proposals.length (total (fun p => p.added.length) b.proposals) b.satisfied
    b.outOfBudget

end RunRecord

/-- How many of some durations are within bounds. -/
structure Histogram where
  /-- How many durations there are in each bound, but in none of those before. -/
  within : List Nat
  /-- All durations together, in seconds. -/
  sum : Float
  /-- How many durations there are. -/
  count : Nat

namespace Histogram

/-- The bounds of durations, in seconds. -/
def bounds : List Float := [0.0005, 0.001, 0.005, 0.01, 0.05, 0.1, 0.5, 1.0, 5.0, 30.0]

/-- No durations. -/
def empty : Histogram := ⟨bounds.map fun _ => 0, 0.0, 0⟩

/-- The counts with one more in the first bound that a duration is within. -/
def place (x : Float) : List Float → List Nat → List Nat
  | b :: bs, n :: ns => if x ≤ b then (n + 1) :: ns else n :: place x bs ns
  | _, ns => ns

/-- One more duration. -/
def observe (h : Histogram) (x : Float) : Histogram :=
  ⟨place x bounds h.within, h.sum + x, h.count + 1⟩

/-- How many durations are within each bound. -/
def cumulative (h : Histogram) : List Nat := go 0 h.within
where
  /-- The sums of a list from `n` on. -/
  go (n : Nat) : List Nat → List Nat
    | [] => []
    | m :: ms => (n + m) :: go (n + m) ms

end Histogram

/-- Values for each channel. -/
abbrev ByChannel (β : Type) := Dict β

/-- Values for each channel and each kind of run. -/
abbrev ByRun (β : Type) := Dict (Dict β)

/-- What all runs come to. -/
structure Metrics where
  /-- New sessions. -/
  sessionsFormed : ByChannel Nat
  /-- Tickets in new sessions. -/
  ticketsMatched : ByChannel Nat
  /-- Tickets left after forming. -/
  ticketsUnmatched : ByChannel Nat
  /-- Pivots that found no match. -/
  pivotsDropped : ByChannel Nat
  /-- Members who gave up their roles. -/
  membersFlexed : ByChannel Nat
  /-- Tickets at the start of the latest run that formed sessions. -/
  poolSize : ByChannel Int
  /-- Sessions that gained tickets. -/
  proposals : ByChannel Nat
  /-- Sessions that were filled up. -/
  sessionsSatisfied : ByChannel Nat
  /-- Tickets that open sessions gained. -/
  ticketsBackfilled : ByChannel Nat
  /-- How long runs took. -/
  durations : ByRun Histogram
  /-- Runs that were out of time. -/
  outOfBudget : ByRun Nat

namespace Metrics

/-- Nothing has run. -/
def empty : Metrics := ⟨∅, ∅, ∅, ∅, ∅, ∅, ∅, ∅, ∅, ∅, ∅⟩

/-- A duration in seconds. -/
def seconds (nanos : Nat) : Float :=
  Scalar.ofNat (nanos / Instant.second) +
    Scalar.ofNat (nanos % Instant.second) / Scalar.ofNat Instant.second

/-- A counter with `n` more. -/
def count (n : Nat) (channel : String) (d : ByChannel Nat) : ByChannel Nat :=
  d.update channel fun m => Word.wrap (m.getD 0 + n)

/-- The metrics with one more run of a duration on a channel. -/
def timed (m : Metrics) (channel : String) (kind : RunKind) (nanos : Nat) (out : Bool) : Metrics :=
  { m with
    durations := m.durations.update channel fun d =>
      (d.getD ∅).update kind.name fun h => (h.getD .empty).observe (seconds nanos)
    outOfBudget :=
      if out then m.outOfBudget.update channel fun d => count 1 kind.name (d.getD ∅)
      else m.outOfBudget }

/-- The metrics with the counts of one more run. -/
def counted (m : Metrics) (channel : String) : RunRecord → Metrics
  | .forming pool sessions matched unmatched dropped flexed _ =>
    { m with
      poolSize := m.poolSize.insert channel (Word.signed pool)
      sessionsFormed := count sessions channel m.sessionsFormed
      ticketsMatched := count matched channel m.ticketsMatched
      ticketsUnmatched := count unmatched channel m.ticketsUnmatched
      pivotsDropped := count dropped channel m.pivotsDropped
      membersFlexed := count flexed channel m.membersFlexed }
  | .backfill proposals added satisfied _ =>
    { m with
      proposals := count proposals channel m.proposals
      sessionsSatisfied := count satisfied channel m.sessionsSatisfied
      ticketsBackfilled := count added channel m.ticketsBackfilled }

/-- The metrics with one more run, which took so many nanoseconds. -/
def record (m : Metrics) (channel : String) (r : RunRecord) (nanos : Nat) : Metrics :=
  (m.counted channel r).timed channel r.kind nanos r.isOutOfBudget

/-- The metrics of some runs on a channel, each of which took so many
    nanoseconds. -/
def ofRuns (channel : String) (nanos : Nat) (rs : List RunRecord) : Metrics :=
  rs.foldl (fun m r => m.record channel r nanos) empty

end Metrics

end Matchmaking
