import Matchmaking.Proofs.Waiting
import Matchmaking.Rules.Admission

/-!
# Windows of regions

A ticket tries the regions that lie in its window, and whoever looks for it in a region asks
whether the region does (`RuleSet.mem_regions_iff`, `RuleSet.isSome_regionFit?_iff`). The regions
are tried in the order of their latencies, so a narrower window leaves out the last ones
(`isPrefix_filter_le`): as a ticket waits it tries more regions after those that it tries already
(`RuleSet.isPrefix_regions`).

There is the exception of all waiting times. If the time that is counted as waited falls, which
takes a leap second, a region is given up again (`Formation.night_narrows`).

The best region of a ticket lies in its window unless it is slower than the rules allow
(`RegionRule.best_le_limit`), and such a ticket is not admitted. So a ticket that is admitted
always has somewhere to go.
-/

namespace Matchmaking

variable {α : Type}

/-! ## The order of regions -/

/-- Of entries in the order of their latencies, those within a limit come first. -/
theorem isPrefix_filter_le {es : List (String × Latency)} {a b : Latency}
    (h : es.Pairwise fun e f => e.2 ≤ f.2) (hab : a ≤ b) :
    es.filter (fun e => e.2 ≤ a) <+: es.filter fun e => e.2 ≤ b := by
  induction es with
  | nil => exact List.prefix_refl _
  | cons e es ih =>
    obtain ⟨he, hes⟩ := List.pairwise_cons.1 h
    by_cases ha : e.2 ≤ a
    · have hb : e.2 ≤ b := UInt64.le_trans ha hab
      rw [List.filter_cons_of_pos (by simpa using ha), List.filter_cons_of_pos (by simpa using hb)]
      exact (List.prefix_cons_inj e).2 (ih hes)
    · -- What comes behind an entry beyond the limit lies beyond it too.
      have hnone : (e :: es).filter (fun e => e.2 ≤ a) = [] := by
        refine List.filter_eq_nil_iff.2 fun f hf => ?_
        rcases List.mem_cons.1 hf with rfl | hf
        · simpa using ha
        · simpa using fun hfa => ha (UInt64.le_trans (he f hf) hfa)
      rw [hnone]
      exact List.nil_prefix

namespace Ticket

/-- One region is better than another one: it is faster, or as fast and named before it. -/
def IsBetter (e f : String × Latency) : Prop := e.2 < f.2 ∨ e.2 = f.2 ∧ e.1 < f.1

instance : Std.TransCmp regionRank :=
  inferInstanceAs (Std.TransCmp (compareLex (compareOn fun e : String × Latency => e.2)
    (compareOn fun e => e.1)))

theorem isBetter_of_regionRank {e f : String × Latency} (h : (regionRank e f).isLE = true)
    (hname : e.1 ≠ f.1) : IsBetter e f := by
  simp only [regionRank, compareLex, compareOn, Ordering.isLE_then_iff_or] at h
  rcases h with hlt | ⟨heq, hle⟩
  · exact .inl (Std.compare_eq_lt.1 hlt)
  · refine .inr ⟨Std.LawfulEqOrd.eq_of_compare heq, ?_⟩
    simp only [compare, String.compare, compareOfLessAndEq] at hle
    split_ifs at hle with hlt
    · exact hlt
    · cases hle

theorem IsBetter.le {e f : String × Latency} (h : IsBetter e f) : e.2 ≤ f.2 :=
  h.elim UInt64.le_of_lt fun h => h.1 ▸ UInt64.le_refl _

variable (t : Ticket α)

theorem mem_sortedLatencies {e : String × Latency} :
    e ∈ t.sortedLatencies ↔ t.latencies.get? e.1 = some e.2 :=
  (List.mergeSort_perm _ _).mem_iff.trans Dict.get?_eq_some_iff.symm

theorem nodup_sortedLatencies : (t.sortedLatencies.map (·.1)).Nodup := by
  refine ((List.mergeSort_perm _ _).map _).nodup_iff.2 (List.pairwise_map.2 ?_)
  exact t.latencies.sorted.imp fun {e f} hlt (heq : e.1 = f.1) =>
    String.lt_irrefl f.1 (by rwa [heq] at hlt)

theorem pairwise_sortedLatencies : t.sortedLatencies.Pairwise IsBetter :=
  (pairwise_sortBy regionRank t.latencies.toList).imp₂ (fun _ _ => isBetter_of_regionRank)
    (List.pairwise_map.1 t.nodup_sortedLatencies)

/-- A ticket that measured regions has a best one. -/
theorem exists_bestLatency? (h : t.latencies ≠ ∅) : ∃ best, t.bestLatency? = some best := by
  rcases hsorted : t.sortedLatencies with _ | ⟨e, es⟩
  · refine absurd (Dict.ext fun name => ?_) h
    rw [Dict.get?_empty, Option.eq_none_iff_forall_ne_some]
    intro latency hlatency
    have hmem : (name, latency) ∈ t.sortedLatencies := (t.mem_sortedLatencies).2 hlatency
    rw [hsorted] at hmem
    cases hmem
  · exact ⟨e.2, by rw [bestLatency?, hsorted]; rfl⟩

end Ticket

namespace RegionRule

/-- The best latency lies in the window, unless it is beyond the greatest one. -/
theorem best_le_limit {r : RegionRule} {best : Latency} (h : 0 < r.greatest → best ≤ r.greatest)
    (millis : Int) : best ≤ r.limit best millis := by
  have hadd (a b : Latency) : a ≤ a.add b := by
    have ha : a.toNat < Word.size := a.toNat_lt
    rw [UInt64.le_iff_toNat_le, Latency.toNat_add]
    omega
  have hsum := UInt64.le_trans (hadd best r.initialRange) (hadd _ (r.expansion millis))
  simp only [limit]
  split_ifs with hgreatest
  · exact Std.le_min_iff.2 ⟨hsum, h hgreatest⟩
  · exact hsum

end RegionRule

/-! ## Windows -/

namespace RuleSet

variable {r : RuleSet α} {t : Ticket α} {now now₀ now₁ : Instant} {region : String}

theorem exists_latencyLimit? (hused : r.region.isUsed = true) (h : t.latencies ≠ ∅)
    (now : Instant) : ∃ limit, r.latencyLimit? t now = some limit := by
  obtain ⟨best, hbest⟩ := t.exists_bestLatency? h
  exact ⟨_, by rw [latencyLimit?, if_pos hused, hbest, Option.map_some]⟩

theorem regions_eq {limit : Latency} (h : r.latencyLimit? t now = some limit) :
    r.regions t now = (t.sortedLatencies.filter fun e => e.2 ≤ limit).map fun e => some e.1 := by
  rw [regions, h]

/-- A ticket tries the regions that it reaches. -/
theorem mem_regions_iff : some region ∈ r.regions t now ↔ r.Reaches now region t := by
  refine ⟨fun h => (reaches_of_mem_regions h).2, ?_⟩
  rintro ⟨latency, limit, hlatency, hlimit, hle, _⟩
  rw [regions_eq hlimit]
  have hmem : (region, latency) ∈ t.sortedLatencies := (t.mem_sortedLatencies).2 hlatency
  exact List.mem_map.2 ⟨_, List.mem_filter.2 ⟨hmem, decide_eq_true hle⟩, rfl⟩

/-- If regions matter, a ticket is found in the regions that it reaches. -/
theorem isSome_regionFit?_iff [Scalar α] (hused : r.region.isUsed = true) :
    (r.regionFit? t now (some region)).isSome = true ↔ r.Reaches now region t := by
  refine ⟨reaches_of_regionFit? hused, ?_⟩
  rintro ⟨latency, limit, hlatency, hlimit, hle, _⟩
  simp [regionFit?, hused, hlatency, hlimit, hle]

/-- A ticket tries further regions once it has waited for longer. -/
theorem isPrefix_regions (hage : t.ageMillis now₀ ≤ t.ageMillis now₁) :
    r.regions t now₀ <+: r.regions t now₁ := by
  rcases hlimit : r.latencyLimit? t now₀ with _ | limit
  · have hlater : r.latencyLimit? t now₁ = none := by
      simp only [latencyLimit?] at hlimit ⊢
      split_ifs at hlimit ⊢ with hused
      · rw [Option.map_eq_none_iff] at hlimit ⊢
        exact hlimit
      · rfl
    have hsame : r.regions t now₁ = r.regions t now₀ := by rw [regions, regions, hlimit, hlater]
    exact hsame ▸ List.prefix_refl _
  · obtain ⟨limit', hlimit', hle⟩ := latencyLimit?_later hage hlimit
    rw [regions_eq hlimit, regions_eq hlimit']
    exact (isPrefix_filter_le (t.pairwise_sortedLatencies.imp Ticket.IsBetter.le) hle).map _

/-- What the regions are that a ticket tries, now and later. -/
structure Window [Scalar α] (r : RuleSet α) (t : Ticket α) (now : Instant) : Prop where
  /-- They are those in which it is found. -/
  fits : ∀ region, some region ∈ r.regions t now ↔ r.regionFit? t now (some region) ≠ none
  /-- None of them is tried twice. -/
  distinct : (r.regions t now).Nodup
  /-- They are measured regions, the better ones first. -/
  ordered : ∃ es : List (String × Latency), r.regions t now = es.map (fun e => some e.1) ∧
    (∀ e ∈ es, t.latencies.get? e.1 = some e.2) ∧ es.Pairwise Ticket.IsBetter
  /-- None of them is slower than the rules allow. -/
  capped : ∀ region latency, some region ∈ r.regions t now →
    t.latencies.get? region = some latency → 0 < r.region.greatest → latency ≤ r.region.greatest
  /-- Later further ones are tried after them, unless the time that is counted as waited has
      fallen, which takes a leap second. Then some of the last ones may be given up. -/
  grows : ∀ later, now ≤ later → r.regions t now <+: r.regions t later ∨
    r.regions t later <+: r.regions t now ∧ t.ageMillis later < t.ageMillis now ∧
      (t.createdAt.isLeap = true ∨ now.isLeap = true ∨ later.isLeap = true)

variable [Scalar α]

theorem window_of_latencies (hused : r.region.isUsed = true) (h : t.latencies ≠ ∅)
    (now : Instant) : r.Window t now := by
  obtain ⟨limit, hlimit⟩ := exists_latencyLimit? hused h now
  have hsub : (t.sortedLatencies.filter fun e => e.2 ≤ limit).Sublist t.sortedLatencies :=
    List.filter_sublist
  refine ⟨fun region => ?_, ?_, ?_, ?_, fun later hnow => ?_⟩
  · rw [mem_regions_iff, ← isSome_regionFit?_iff hused, ← Option.isSome_iff_ne_none]
  · have hnames := t.nodup_sortedLatencies.sublist (hsub.map (·.1))
    have hregions : r.regions t now =
        ((t.sortedLatencies.filter fun e => e.2 ≤ limit).map (·.1)).map some := by
      rw [regions_eq hlimit, List.map_map]
      rfl
    rw [hregions]
    exact hnames.map (Option.some_injective _)
  · exact ⟨_, regions_eq hlimit, fun e he => (t.mem_sortedLatencies).1 (hsub.subset he),
      t.pairwise_sortedLatencies.sublist hsub⟩
  · intro region latency hmem hlatency
    obtain ⟨latency', _, hlatency', _, _, hgreatest⟩ := mem_regions_iff.1 hmem
    obtain rfl : latency' = latency := Option.some_inj.1 (hlatency'.symm.trans hlatency)
    exact hgreatest
  · rcases Int.lt_or_le (t.ageMillis later) (t.ageMillis now) with hage | hage
    · refine .inr ⟨isPrefix_regions (Int.le_of_lt hage), hage, ?_⟩
      by_contra hleap
      simp only [not_or, Bool.not_eq_true] at hleap
      exact absurd (Instant.millisSince_le hnow hleap.1 hleap.2.1 hleap.2.2) (Int.not_le.2 hage)
    · exact .inl (isPrefix_regions hage)

omit [Scalar α] in
/-- A ticket that is admitted always tries something. -/
theorem regions_ne_nil (h : r.admissionFault? t = none) (now : Instant) :
    r.regions t now ≠ [] := by
  rcases hlimit : r.latencyLimit? t now with _ | limit
  · rw [regions, hlimit]
    exact List.cons_ne_nil _ _
  · simp only [latencyLimit?] at hlimit
    split_ifs at hlimit with hused
    obtain ⟨best, hbest, rfl⟩ := Option.map_eq_some_iff.1 hlimit
    obtain ⟨e, he, rfl⟩ := Option.map_eq_some_iff.1 hbest
    have hmem : e ∈ t.sortedLatencies := List.mem_of_mem_head? he
    have hgreatest : 0 < r.region.greatest → e.2 ≤ r.region.greatest := by
      intro hpos
      simp only [admissionFault?] at h
      split at h
      · cases h
      · split_ifs at h with hslow
        simpa [show r.region.greatest > 0 from hpos, hbest] using hslow
    have hle := RegionRule.best_le_limit hgreatest (t.ageMillis now)
    have hwindow : r.latencyLimit? t now = some (r.region.limit e.2 (t.ageMillis now)) := by
      rw [latencyLimit?, if_pos hused, hbest, Option.map_some]
    rw [regions_eq hwindow]
    exact List.ne_nil_of_mem (List.mem_map.2
      ⟨e, List.mem_filter.2 ⟨hmem, decide_eq_true hle⟩, rfl⟩)

/-- A ticket that measured regions which matter tries those in which it is found, the better ones
    first and none too slow, and further ones as it waits. And whoever is admitted always tries
    something. -/
theorem regions_window (r : RuleSet α) (t : Ticket α) :
    (r.region.isUsed = true → t.latencies ≠ ∅ → ∀ now, r.Window t now) ∧
      (r.admissionFault? t = none → ∀ now, r.regions t now ≠ []) :=
  ⟨window_of_latencies, regions_ne_nil⟩

end RuleSet

namespace Formation

/-! ### A harbour -/

/-- Matches of one against one, in regions that are taken less strictly every ten seconds. -/
def harbour : RuleSet Rat :=
  { RuleSet.ofAlliance (.ofBounds ⟨2, 2, 1, 1⟩) with region := ⟨10000, 30, 20, 150⟩ }

/-- The ticket of a player with a region in the first window, one in a later window and one that
    is too slow. -/
def sailor : Ticket Rat := latecomer "s" [("ap", 40), ("eu", 70), ("us", 200)]

theorem sailor_sortedLatencies : sailor.sortedLatencies = [("ap", 40), ("eu", 70), ("us", 200)] :=
  List.mergeSort_of_pairwise (by decide)

/-- After twenty seconds the sailor tries a second region after the first one. -/
theorem harbour_window : harbour.region.isUsed = true ∧ sailor.latencies ≠ ∅ ∧
    harbour.admissionFault? sailor = none ∧
    harbour.regions sailor (.ofNanos 1483228740500000000) = [some "ap"] ∧
    harbour.regions sailor (.ofNanos 1483228760500000000) = [some "ap", some "eu"] ∧
    harbour.Window sailor (.ofNanos 1483228740500000000) ∧
    harbour.regions sailor (.ofNanos 1483228740500000000) ≠ [] := by
  have hused : harbour.region.isUsed = true := by decide
  have hlatencies : sailor.latencies ≠ ∅ := by decide
  have hadmitted : harbour.admissionFault? sailor = none := by
    simp only [RuleSet.admissionFault?, Ticket.bestLatency?, sailor_sortedLatencies]
    decide +kernel
  refine ⟨hused, hlatencies, hadmitted, ?_, ?_, (harbour.regions_window sailor).1 hused hlatencies _,
    (harbour.regions_window sailor).2 hadmitted _⟩
  all_goals
    simp only [RuleSet.regions, RuleSet.latencyLimit?, Ticket.bestLatency?, sailor_sortedLatencies]
    decide +kernel

/-! ### The night with a leap second -/

/-- The traveller tries two regions at the end of the leap second, and at the start of the year
    the first one only. -/
theorem night_narrows : night.region.isUsed = true ∧ traveller.latencies ≠ ∅ ∧
    leapEnd ≤ newYear ∧ ¬night.regions traveller leapEnd <+: night.regions traveller newYear := by
  have hleap : night.regions traveller leapEnd = [some "as", some "eu"] := by
    simp only [RuleSet.regions, RuleSet.latencyLimit?, Ticket.bestLatency?,
      traveller_sortedLatencies]
    decide +kernel
  have hyear : night.regions traveller newYear = [some "as"] := by
    simp only [RuleSet.regions, RuleSet.latencyLimit?, Ticket.bestLatency?,
      traveller_sortedLatencies]
    decide +kernel
  rw [hleap, hyear]
  decide

end Formation

end Matchmaking
