import Matchmaking.Metrics

/-!
# The text of metrics

Metrics are written line by line, family by family, in the order of the names of
the families. A family opens with its help text and its type; then its samples
follow, each with its labels and its value. A family without samples is left
out.
-/

namespace Matchmaking

/-- A named value. -/
structure Sample where
  /-- What follows the name of the family. -/
  ending : String
  /-- Labels and their values, by name. -/
  labels : List (String × String)
  /-- The text of the value. -/
  value : String
  deriving DecidableEq

/-- Samples of one name. -/
structure Family where
  /-- The name. -/
  name : String
  /-- What is measured. -/
  help : String
  /-- The type of the samples. -/
  type : String
  /-- The samples, by their labels. -/
  samples : List Sample
  deriving DecidableEq

namespace Sample

/-- A character of the value of a label. -/
def escapeChar : Char → List Char
  | '\\' => ['\\', '\\']
  | '"' => ['\\', '"']
  | '\n' => ['\\', 'n']
  | c => [c]

/-- The value of a label. -/
def escape (s : String) : String := String.ofList (s.toList.flatMap escapeChar)

/-- The line of a sample of a family. -/
def line (family : String) (s : Sample) : String :=
  let labels := s.labels.map fun (k, v) => k ++ "=\"" ++ escape v ++ "\""
  family ++ s.ending ++ "\x7b" ++ ",".intercalate labels ++ "\x7d " ++ s.value

end Sample

namespace Family

/-- The lines of a family. -/
def lines (f : Family) : List String :=
  if f.samples.isEmpty then []
  else
    ("# HELP " ++ f.name ++ " " ++ f.help) :: ("# TYPE " ++ f.name ++ " " ++ f.type) ::
      f.samples.map (Sample.line f.name)

end Family

namespace Metrics

/-- The text of a whole number, as that of a scalar. -/
def number (n : Int) : String :=
  let magnitude : Float := Scalar.ofNat n.natAbs
  Double.text (if n < 0 then -magnitude else magnitude)

/-- The labels of a channel. -/
def channelLabels (channel : String) : List (String × String) := [("channel", channel)]

/-- The labels of a kind of run on a channel. -/
def runLabels (channel kind : String) : List (String × String) :=
  [("channel", channel), ("kind", kind)]

/-- The family of a counter. -/
def counter (name help : String) (d : ByChannel Nat) : Family :=
  ⟨name, help, "counter", d.toList.map fun (c, n) => ⟨"", channelLabels c, number n⟩⟩

/-- The family of a gauge. -/
def gauge (name help : String) (d : ByChannel Int) : Family :=
  ⟨name, help, "gauge", d.toList.map fun (c, n) => ⟨"", channelLabels c, number n⟩⟩

/-- The family of a counter of runs. -/
def runCounter (name help : String) (d : ByRun Nat) : Family :=
  ⟨name, help, "counter", d.toList.flatMap fun (c, e) =>
    e.toList.map fun (k, n) => ⟨"", runLabels c k, number n⟩⟩

/-- The samples of a histogram: how many durations are within each bound, their
    sum and their count. -/
def histogramSamples (labels : List (String × String)) (h : Histogram) : List Sample :=
  let bucket (bound : String) (n : Nat) : Sample :=
    ⟨"_bucket", labels ++ [("le", bound)], number n⟩
  (Histogram.bounds.zip h.cumulative).map (fun (b, n) => bucket (Double.text b) n) ++
    [bucket "+Inf" h.count, ⟨"_sum", labels, Double.text h.sum⟩, ⟨"_count", labels, number h.count⟩]

/-- The family of histograms of runs. -/
def histogram (name help : String) (d : ByRun Histogram) : Family :=
  ⟨name, help, "histogram", d.toList.flatMap fun (c, e) =>
    e.toList.flatMap fun (k, h) => histogramSamples (runLabels c k) h⟩

/-- All families, by name. -/
def families (m : Metrics) : List Family :=
  [counter "matchmaker_backfill_proposals_total" "Total backfill proposals" m.proposals,
    runCounter "matchmaker_budget_exhausted_total" "Total runs stopped by the time budget"
      m.outOfBudget,
    counter "matchmaker_matches_created_total" "Total sessions created" m.sessionsFormed,
    counter "matchmaker_pivots_dropped_total" "Total pivots that found no match" m.pivotsDropped,
    gauge "matchmaker_pool_size" "Tickets in the latest matching run" m.poolSize,
    counter "matchmaker_role_flexed_total" "Total members converted to any role" m.membersFlexed,
    histogram "matchmaker_run_duration_seconds" "Duration of one matching or backfill run"
      m.durations,
    counter "matchmaker_sessions_satisfied_total" "Total sessions filled by backfill"
      m.sessionsSatisfied,
    counter "matchmaker_tickets_backfilled_total" "Total tickets added to existing sessions"
      m.ticketsBackfilled,
    counter "matchmaker_tickets_matched_total" "Total tickets placed into new sessions"
      m.ticketsMatched,
    counter "matchmaker_tickets_unmatched_total" "Total tickets left unmatched after a run"
      m.ticketsUnmatched]

/-- The lines of all families. -/
def lines (m : Metrics) : List String := m.families.flatMap (·.lines)

end Metrics

end Matchmaking
