import Mathlib.Algebra.Order.Ring.Rat
import Matchmaking.Proofs.Flexing
import Matchmaking.Proofs.Formation.Agreement

/-!
# Waiting

Whoever fits a pivot still fits it later, at the same cost and with the same latency:
the tolerances of the pivot and of the ticket do not shrink, and the window of
latencies that a ticket accepts widens while it waits (`Search.fits_later`). Nothing
else that decides who fits, and nothing of the cost, depends on the time.

There is one exception. A leap second is part of a waiting time as long as one of its
ends lies in it and no longer, so the time that is counted as waited can fall by up to
a second, and the window with it. Then the region may be refused, and nothing else
(`evaluate_searchAt_later`). Tolerances do not depend on counted times: they give way
once a point in time has passed.

Scalars are rational numbers here. Where arithmetic rounds, an interval need not grow
with the tolerance.
-/

namespace Matchmaking

variable {α : Type}

/-! ## Waiting times -/

namespace Instant

variable {a now₀ now₁ : Instant}

theorem total_le_of_le (hnow : now₀ ≤ now₁) (h₀ : now₀.isLeap = false) :
    now₀.total ≤ now₁.total := by
  have hplace : now₀.place ≤ now₁.place := hnow
  have hnanos := now₁.nanos_lt
  simp only [isLeap, decide_eq_false_iff_not, not_le] at h₀
  simp only [place, total, second] at *
  omega

theorem since_of_not_leap (ha : a.isLeap = false) (h : now₀.isLeap = false) :
    now₀.since a = now₀.total - a.total := by
  simp [since, leapSeconds, ha, h]

/-- Waiting times grow where no leap second is involved. -/
theorem since_le (hnow : now₀ ≤ now₁) (ha : a.isLeap = false) (h₀ : now₀.isLeap = false)
    (h₁ : now₁.isLeap = false) : now₀.since a ≤ now₁.since a := by
  rw [since_of_not_leap ha h₀, since_of_not_leap ha h₁]
  exact Int.sub_le_sub_right (total_le_of_le hnow h₀) _

theorem millisSince_le (hnow : now₀ ≤ now₁) (ha : a.isLeap = false) (h₀ : now₀.isLeap = false)
    (h₁ : now₁.isLeap = false) : now₀.millisSince a ≤ now₁.millisSince a :=
  Int.tdiv_le_tdiv (by decide) (since_le hnow ha h₀ h₁)

theorem secondsSince_le (hnow : now₀ ≤ now₁) (ha : a.isLeap = false) (h₀ : now₀.isLeap = false)
    (h₁ : now₁.isLeap = false) : now₀.secondsSince a ≤ now₁.secondsSince a :=
  Int.tdiv_le_tdiv (by decide) (since_le hnow ha h₀ h₁)

end Instant

/-! ## Regions -/

namespace Latency

variable {a b c : Latency}

theorem add_le_add (h : b ≤ c) : a.add b ≤ a.add c := by
  rw [UInt64.le_iff_toNat_le] at h ⊢
  rw [toNat_add, toNat_add]
  exact min_le_min_right _ (Nat.add_le_add_left h _)

theorem mul_le_mul {m n : Nat} (h : m ≤ n) : mul m a ≤ mul n a := by
  rw [UInt64.le_iff_toNat_le, toNat_mul, toNat_mul]
  exact min_le_min_right _ (Nat.mul_le_mul_right _ h)

end Latency

namespace RegionRule

variable {r : RegionRule} {m₀ m₁ : Int}

theorem expansion_le (h : m₀ ≤ m₁) : r.expansion m₀ ≤ r.expansion m₁ := by
  simp only [expansion]
  split_ifs
  · exact Latency.mul_le_mul (Nat.div_le_div_right (Int.toNat_le_toNat h))
  · exact UInt64.le_refl _

/-- The window widens while a ticket waits. -/
theorem limit_le_limit (h : m₀ ≤ m₁) (best : Latency) : r.limit best m₀ ≤ r.limit best m₁ := by
  have hsum : (best.add r.initialRange).add (r.expansion m₀) ≤
      (best.add r.initialRange).add (r.expansion m₁) := Latency.add_le_add (expansion_le h)
  simp only [limit]
  split_ifs
  · exact Std.le_min_iff.2 ⟨UInt64.le_trans Std.min_le_left hsum, Std.min_le_right⟩
  · exact hsum

end RegionRule

namespace RuleSet

variable {r : RuleSet α} {t : Ticket α} {now₀ now₁ : Instant}

theorem latencyLimit?_later (hage : t.ageMillis now₀ ≤ t.ageMillis now₁) {limit : Latency}
    (h : r.latencyLimit? t now₀ = some limit) :
    ∃ limit', r.latencyLimit? t now₁ = some limit' ∧ limit ≤ limit' := by
  simp only [latencyLimit?] at h ⊢
  split_ifs at h ⊢
  obtain ⟨best, hbest, rfl⟩ := Option.map_eq_some_iff.1 h
  exact ⟨_, Option.map_eq_some_iff.2 ⟨best, hbest, rfl⟩, RegionRule.limit_le_limit hage best⟩

/-- A ticket that fits a region still fits it when it has waited for longer. -/
theorem regionFit?_later [Scalar α] (hage : t.ageMillis now₀ ≤ t.ageMillis now₁)
    {region : Option String} {fit : RegionFit α} (h : r.regionFit? t now₀ region = some fit) :
    r.regionFit? t now₁ region = some fit := by
  cases region with
  | none => exact h
  | some region =>
    simp only [regionFit?] at h ⊢
    split_ifs at h ⊢
    · cases hlatency : t.latencies.get? region with
      | none => simp [hlatency] at h
      | some latency =>
        cases hlimit : r.latencyLimit? t now₀ with
        | none => simp [hlatency, hlimit] at h
        | some limit =>
          obtain ⟨limit', hlimit', hle⟩ := latencyLimit?_later hage hlimit
          simp only [hlatency, hlimit, hlimit', Option.bind_eq_bind, Option.bind_some] at h ⊢
          split_ifs at h with hfits
          rw [if_pos (UInt64.le_trans hfits hle)]
          exact h
    · exact h

/-- What a region costs a ticket that fits it, and its latency there, do not depend on
    the time. -/
theorem regionFit?_eq [Scalar α] {region : Option String} {fit₀ fit₁ : RegionFit α}
    (h₀ : r.regionFit? t now₀ region = some fit₀) (h₁ : r.regionFit? t now₁ region = some fit₁) :
    fit₀ = fit₁ := by
  rcases Int.le_total (t.ageMillis now₀) (t.ageMillis now₁) with hage | hage
  · exact Option.some_inj.1 ((regionFit?_later hage h₀).symm.trans h₁)
  · exact Option.some_inj.1 (h₀.symm.trans (regionFit?_later hage h₁))

/-! ## Tolerances -/

variable [Scalar α]

/-- A distance rule at a time has a tolerance that was in force before, for the same
    attribute, or one that is no narrower. -/
theorem exists_distanceAt_before (hr : r.fault? = none) (hnow : now₀ ≤ now₁) {anchor : Instant}
    {d : DistanceRule α} (hd : d ∈ r.distancesAt anchor now₁) :
    ∃ d₀ ∈ r.distancesAt anchor now₀,
      d₀.key = d.key ∧ (d.tolerance = d₀.tolerance ∨ ¬d.tolerance < d₀.tolerance) := by
  obtain ⟨e, he, rfl⟩ := List.mem_map.1 hd
  cases hg : r.flexing? anchor now₁ e.key with
  | none =>
    -- What was in force before would be replaced, but nothing is in force now.
    have hnone : r.flexing? anchor now₀ e.key = none := by
      by_contra hsome
      obtain ⟨f, hf⟩ := Option.ne_none_iff_exists'.1 hsome
      obtain ⟨g, hg', _⟩ := flexing?_later hr hnow hf
      rw [hg] at hg'
      cases hg'
    exact ⟨e, List.mem_map.2 ⟨e, he, by rw [hnone]⟩, rfl, .inl rfl⟩
  | some g =>
    obtain ⟨d₀, hd₀, hkey, htolerance⟩ := exists_distanceAt anchor now₀ he
    obtain ⟨b, hb, hwider⟩ := tolerance?_later hr hnow htolerance
    obtain ⟨first, _, rfl⟩ := Option.map_eq_some_iff.1 hb
    simp only [hg, Option.map_some, Option.getD_some] at hwider
    exact ⟨d₀, hd₀, hkey, hwider⟩

/-! ## Searches in time -/

/-- The search around a pivot at a time, under the rules that are in force for it then. -/
def searchAt (r : RuleSet α) (pivot : Pivot α) (region mode : Option String) (now : Instant) :
    Search α where
  source := r
  active := r.flexedAt pivot.createdAt now
  pivot := pivot
  region := region
  mode := mode
  now := now

/-- What a distance costs does not depend on the time. -/
theorem distanceScore_searchAt (r : RuleSet α) (pivot : Pivot α) (region mode : Option String)
    (now : Instant) (t : Ticket α) :
    (r.searchAt pivot region mode now).distanceScore t =
      r.distances.foldl (fun score d =>
        score + d.score (Scalar.distance (pivot.average d.key) (t.average d.key)))
        (Scalar.ofNat 0) := by
  show (r.distancesAt pivot.createdAt now).foldl _ _ = _
  rw [distancesAt, List.foldl_map]
  congr 1
  funext score d
  cases r.flexing? pivot.createdAt now d.key with
  | none => rfl
  | some f => rfl

omit [Scalar α] in
/-- Which attributes are custom does not depend on the time. -/
theorem isCustom_searchAt (r : RuleSet α) (pivot : Pivot α) (region mode : Option String)
    (now now' : Instant) :
    (r.searchAt pivot region mode now).isCustom = (r.searchAt pivot region mode now').isCustom := by
  funext key
  simp only [Search.isCustom, searchAt, isSome_distance?_flexedAt]
  rfl

end RuleSet

theorem Scalar.within_of_not_lt {center value a b : Rat} (h : Scalar.within center value a = true)
    (hab : b = a ∨ ¬b < a) : Scalar.within center value b = true := by
  simp only [within, Bool.and_eq_true, decide_eq_true_eq] at h ⊢
  have hle : a ≤ b := hab.elim Eq.ge not_lt.1
  exact ⟨(sub_le_sub_left hle center).trans h.1, h.2.trans (add_le_add_right hle center)⟩

namespace Search

/-- What fits but for the region is refused for the region. -/
theorem evaluate_eq_error_region [Scalar α] {s : Search α} {c : Collection} {t : Ticket α}
    (h : { s with region := none : Search α }.Fits c t) (hregion : s.fit? t = none) :
    s.evaluate c t = .error .region := by
  have hsession : s.sessionRefusal? t = none := h.session
  have hmode : s.acceptsMode t = true := h.mode
  have hnear : (s.active.distances.find? fun d => !s.isNear t d) = none :=
    List.find?_eq_none.2 fun d hd => by
      have hd : s.isNear t d = true := h.near d hd
      simp [hd]
  have hplatforms : s.acceptsPlatforms c t = true := h.platforms
  have hoptions : (s.options.find? fun o => !agrees c t o) = none :=
    List.find?_eq_none.2 fun o ho => by simp [h.options o ho]
  have hattributes : s.attributeRefusal? t = none := h.attributes
  have husers : s.acceptsUsers c t = true := h.users
  have hrefusal : s.refusal? c t = some .region := by
    simp [refusal?, h.fresh, hsession, hmode, hnear, hplatforms, hoptions, hattributes, husers,
      hregion]
  rw [evaluate, hrefusal]

variable {r : RuleSet Rat} {pivot : Pivot Rat} {region mode : Option String} {now₀ now₁ : Instant}
  {t : Ticket Rat} {c : Collection}

/-- Who is near stays near. -/
theorem isNear_later (hr : r.fault? = none) (hnow : now₀ ≤ now₁)
    (h : ∀ d ∈ r.distancesAt pivot.createdAt now₀,
      (r.searchAt pivot region mode now₀).isNear t d = true) :
    ∀ d ∈ r.distancesAt pivot.createdAt now₁,
      (r.searchAt pivot region mode now₁).isNear t d = true := by
  intro d hd
  obtain ⟨d₀, hd₀, hkey, hours⟩ := RuleSet.exists_distanceAt_before hr hnow hd
  obtain ⟨e, he, hekey⟩ := RuleSet.exists_of_mem_distancesAt hd
  -- The ticket has a tolerance of its own, as the attribute is one of the rules.
  obtain ⟨d', _, _, hbefore⟩ := RuleSet.exists_distanceAt t.createdAt now₀ he
  rw [hekey] at hbefore
  obtain ⟨tolerance, hlater, htheirs⟩ := RuleSet.tolerance?_later hr hnow hbefore
  have hnear := h d₀ hd₀
  simp only [isNear, toleranceOf, RuleSet.searchAt, Bool.and_eq_true, hkey, hbefore, hlater,
    Option.getD_some] at hnear ⊢
  exact ⟨Scalar.within_of_not_lt hnear.1 hours, Scalar.within_of_not_lt hnear.2 htheirs⟩

/-- Whoever fits a pivot still fits it later, in any region that they then fit. -/
theorem fits_later (hr : r.fault? = none) (hnow : now₀ ≤ now₁)
    (h : (r.searchAt pivot region mode now₀).Fits c t) {region' : Option String}
    (hregion : ((r.searchAt pivot region' mode now₁).fit? t).isSome = true) :
    (r.searchAt pivot region' mode now₁).Fits c t where
  fresh := h.fresh
  session := h.session
  mode := h.mode
  near := isNear_later hr hnow h.near
  platforms := h.platforms
  options := h.options
  attributes := by
    have hattributes := h.attributes
    simp only [attributeRefusal?, r.isCustom_searchAt pivot region mode now₀ now₁] at hattributes
    exact hattributes
  users := h.users
  region := hregion
  criteria := h.criteria

/-- What is found is found again later, as long as the region is fit. -/
theorem found?_later {found : Found Rat}
    (hregion : ((r.searchAt pivot region mode now₁).fit? t).isSome = true)
    (h : (r.searchAt pivot region mode now₀).found? t = some found) :
    (r.searchAt pivot region mode now₁).found? t = some found := by
  obtain ⟨fit₀, hfit₀, rfl⟩ := Option.map_eq_some_iff.1 h
  obtain ⟨fit₁, hfit₁⟩ := Option.isSome_iff_exists.1 hregion
  obtain rfl : fit₀ = fit₁ := RuleSet.regionFit?_eq (r := r) hfit₀ hfit₁
  rw [found?, hfit₁, RuleSet.distanceScore_searchAt, RuleSet.distanceScore_searchAt]
  rfl

end Search

/-- Waiting does not make a ticket and a pivot incompatible: under rules without a
    fault, a ticket that fits a pivot still fits it later, at the same cost and with the
    same latency. Only if the time that the ticket is counted to have waited has
    fallen, which takes a leap second, may it be refused, and for the region only. -/
theorem RuleSet.evaluate_searchAt_later {r : RuleSet Rat} (hr : r.fault? = none)
    {now₀ now₁ : Instant} (hnow : now₀ ≤ now₁) {pivot : Pivot Rat} {region mode : Option String}
    {t : Ticket Rat} {found : Found Rat}
    (h : (r.searchAt pivot region mode now₀).evaluate (r.searchAt pivot region mode now₀).start t =
      .ok found) :
    (r.searchAt pivot region mode now₁).evaluate (r.searchAt pivot region mode now₁).start t =
        .ok found ∨
      ((r.searchAt pivot region mode now₁).evaluate (r.searchAt pivot region mode now₁).start t =
          .error .region ∧
        t.ageMillis now₁ < t.ageMillis now₀ ∧
        (t.createdAt.isLeap = true ∨ now₀.isLeap = true ∨ now₁.isLeap = true)) := by
  obtain ⟨hfits, hfound⟩ := Search.evaluate_eq_ok_iff.1 h
  cases hregion : (r.searchAt pivot region mode now₁).fit? t with
  | some fit =>
    have hsome : ((r.searchAt pivot region mode now₁).fit? t).isSome = true := by rw [hregion]; rfl
    exact .inl (Search.evaluate_eq_ok_iff.2
      ⟨Search.fits_later hr hnow hfits hsome, Search.found?_later hsome hfound⟩)
  | none =>
    refine .inr ⟨Search.evaluate_eq_error_region (Search.fits_later hr hnow hfits rfl) hregion, ?_⟩
    have hage : t.ageMillis now₁ < t.ageMillis now₀ := by
      by_contra hage
      obtain ⟨fit, hfit⟩ := Option.isSome_iff_exists.1 hfits.region
      have hlater : (r.searchAt pivot region mode now₁).fit? t = some fit :=
        regionFit?_later (r := r) (Int.not_lt.1 hage) hfit
      rw [hregion] at hlater
      cases hlater
    refine ⟨hage, ?_⟩
    by_contra hleap
    simp only [not_or, Bool.not_eq_true] at hleap
    exact absurd (Instant.millisSince_le hnow hleap.1 hleap.2.1 hleap.2.2) (Int.not_le.2 hage)

namespace Formation

/-! ### A climber waits -/

/-- Players of a like level, in regions that they reach, both of which are taken less
    strictly in time. -/
def patient : RuleSet Rat :=
  { ladder.rules with flexing := [⟨10, "level", 20⟩], region := ⟨1000, 1, 50, 200⟩ }

/-- The search of the first climber, at so many seconds. -/
def patientSearch (seconds : Nat) : Search Rat :=
  patient.searchAt (.ticket (climber "a" 10 30)) (some "eu") (some "ranked")
    (.ofNanos (seconds * Instant.second))

/-- Who fits at once fits after a while. -/
theorem patient_later :
    (patientSearch 0).evaluate (patientSearch 0).start (climber "c" 13 60) =
        .ok ⟨climber "c" 13 60, 3, some 60⟩ ∧
      (patientSearch 20).evaluate (patientSearch 20).start (climber "c" 13 60) =
        .ok ⟨climber "c" 13 60, 3, some 60⟩ := by
  have hfault : patient.fault? = none := by decide +kernel
  have hnow : (patientSearch 0).now ≤ (patientSearch 20).now := by decide
  have hfound : (patientSearch 0).evaluate (patientSearch 0).start (climber "c" 13 60) =
      .ok ⟨climber "c" 13 60, 3, some 60⟩ := by decide +kernel
  rcases RuleSet.evaluate_searchAt_later hfault hnow hfound with hlater | ⟨_, _, hleap⟩
  · exact ⟨hfound, hlater⟩
  · exact absurd hleap (by decide)

/-! ### A night with a leap second -/

/-- Matches of one against one, for which regions are taken less strictly by the
    second. -/
def night : RuleSet Rat :=
  { RuleSet.ofAlliance (.ofBounds ⟨2, 2, 1, 1⟩) with region := ⟨1000, 1, 0, 0⟩ }

/-- The ticket of a player who comes in the last minute of 2016. -/
def latecomer (id : String) (latencies : List (String × Latency)) : Ticket Rat where
  id := id
  channel := "night"
  partyId := id
  members := [.ofId id]
  attributes := ∅
  priority := 0
  createdAt := .ofNanos 1483228740500000000
  latencies := .ofList latencies
  excluded := []

/-- Near the end of the leap second of that minute. -/
def leapEnd : Instant := ⟨1483228799, 1900000000, by decide, by decide⟩

/-- The start of the year after it. -/
def newYear : Instant := .ofNanos 1483228800000000000

/-- The search for somebody around a latecomer. -/
def nightSearch (region : Option String) (now : Instant) : Search Rat :=
  night.searchAt (.ticket (latecomer "a" [("eu", 10)])) region none now

/-- The ticket of a player for whom the region of the other one is not the best. -/
def traveller : Ticket Rat := latecomer "b" [("as", 10), ("eu", 70)]

theorem traveller_sortedLatencies : traveller.sortedLatencies = [("as", 10), ("eu", 70)] :=
  List.mergeSort_of_pairwise (by decide)

theorem traveller_bestLatency : traveller.bestLatency? = some 10 := by
  rw [Ticket.bestLatency?, traveller_sortedLatencies]
  rfl

/-- The traveller accepts the region or not as the window is. -/
theorem traveller_fit (now : Instant) : (nightSearch (some "eu") now).fit? traveller =
    if 70 ≤ night.region.limit 10 (traveller.ageMillis now) then some ⟨60, some 70⟩ else none := by
  have hlatency : traveller.latencies.get? "eu" = some 70 := by decide
  have hlimit : night.latencyLimit? traveller now =
      some (night.region.limit 10 (traveller.ageMillis now)) := by
    rw [RuleSet.latencyLimit?, traveller_bestLatency]
    rfl
  show night.regionFit? traveller now (some "eu") = _
  rw [RuleSet.regionFit?, if_pos (by decide), hlatency, hlimit, traveller_bestLatency]
  rfl

/-- The traveller has waited for sixty seconds at the end of the leap second, and for
    fifty-nine at the start of the year. So the region is no longer accepted. -/
theorem night_refuses : night.fault? = none ∧ leapEnd ≤ newYear ∧
    (nightSearch (some "eu") leapEnd).evaluate (nightSearch (some "eu") leapEnd).start traveller =
      .ok ⟨traveller, 60, some 70⟩ ∧
    (nightSearch (some "eu") newYear).evaluate (nightSearch (some "eu") newYear).start traveller =
      .error .region := by
  have hfault : night.fault? = none := by decide +kernel
  have hnow : leapEnd ≤ newYear := by decide
  have hfits : (nightSearch none leapEnd).Fits (nightSearch none leapEnd).start traveller :=
    Search.refusal?_eq_none_iff.1 (by decide +kernel)
  have hopen : (nightSearch (some "eu") leapEnd).fit? traveller = some ⟨60, some 70⟩ := by
    rw [traveller_fit]
    decide +kernel
  have hclosed : (nightSearch (some "eu") newYear).fit? traveller = none := by
    rw [traveller_fit]
    decide +kernel
  refine ⟨hfault, hnow, Search.evaluate_eq_ok_iff.2 ⟨?_, ?_⟩, ?_⟩
  · exact Search.fits_later hfault (Int.le_refl _) hfits (by rw [← nightSearch, hopen]; rfl)
  · rw [Search.found?, hopen]
    decide +kernel
  · exact Search.evaluate_eq_error_region (Search.fits_later hfault hnow hfits rfl) hclosed

end Formation

end Matchmaking
