import Matchmaking.Proofs.Casting
import Matchmaking.Proofs.Formation.EarlyStop
import Matchmaking.Proofs.Rules.Load

/-!
# How many players a match takes

The least and the greatest number of players of a match are products of bounds, and whoever
computes one that is no word breaks off. Bounds without a fault have a least number of players
that is at most the greatest one (`Bounds.minPlayers_le`), so both are words just if the
greater one is (`Bounds.counts_iff`).

Bounds are compared with the players of a queue at three places: a run ends, a pivot is dropped,
and a packing is taken for want of players. All of them come to compare with the products, and
no run breaks off there, just if the greatest numbers of players of all shapes are words
(`RuleSet.countsPlayers_iff`), which nothing makes sure of (`Formation.legion_overflows`).
-/

namespace Matchmaking

variable {α : Type}

/-! ## The products of bounds -/

namespace Bounds

variable {b : Bounds}

theorem minPlayers_le (h : b.fault? = none) : b.minPlayers ≤ b.maxPlayers := by
  rw [fault?] at h
  split_ifs at h with _ hteams hsize
  exact Nat.mul_le_mul (Nat.le_of_not_lt hteams) (Nat.le_of_not_lt hsize)

theorem counts_iff (h : b.fault? = none) : b.Counts ↔ b.maxPlayers < Word.size :=
  ⟨fun hcounts => hcounts.most, fun hmost => ⟨Nat.lt_of_le_of_lt (minPlayers_le h) hmost, hmost⟩⟩

end Bounds

/-! ## The bounds of rules -/

namespace RuleSet

variable [Scalar α] {r : RuleSet α} {mode : Option String} {b : Bounds}

omit [Scalar α] in
theorem fault?_eq_none_of_alliance {a : AllianceRule} (h : a.fault? = none) :
    a.bounds.fault? = none := by
  rw [AllianceRule.fault?, Option.or_eq_none_iff] at h
  exact h.1

/-- No bounds that a match can have in time have a fault. -/
theorem fault?_of_mem_boundsFor (h : r.fault? = none) (hb : b ∈ r.boundsFor mode) :
    b.fault? = none := by
  rcases List.mem_cons.1 hb with rfl | hb
  · exact fault?_eq_none_of_alliance (fault?_allianceFor h mode)
  · obtain ⟨f, hf, rfl⟩ := List.mem_map.1 hb
    simp only [fault?, Option.or_eq_none_iff, List.findSome?_eq_none_iff] at h
    have hfault : f.fault? (α := α) = none := by
      rw [allianceFlexingFor] at hf
      cases hmode : r.mode? mode with
      | none =>
        rw [hmode] at hf
        exact h.2.2.2.2.1 f hf
      | some m =>
        rw [hmode] at hf
        obtain ⟨name, -, hm⟩ := Option.bind_eq_some_iff.1 hmode
        have hmodefault := h.2.2.2.2.2.1 (name, m) (Dict.get?_eq_some_iff.1 hm)
        rw [Mode.fault?, Option.or_eq_none_iff, List.findSome?_eq_none_iff] at hmodefault
        exact hmodefault.2 f hf
    exact Option.map_eq_none_iff.1 hfault

/-- No bounds that a match can have have a fault. -/
theorem fault?_of_mem_allBounds (h : r.fault? = none) (hb : b ∈ r.allBounds) : b.fault? = none := by
  obtain ⟨mode, -, hb⟩ := List.mem_flatMap.1 hb
  exact fault?_of_mem_boundsFor h hb

/-! ## What is compared with them -/

omit [Scalar α] in
theorem countsLeast_iff : r.countsLeast = true ↔ ∀ b ∈ r.allBounds, b.minPlayers < Word.size := by
  rw [countsLeast, List.all_eq_true]
  exact forall₂_congr fun _ _ => decide_eq_true_iff

/-- What is below the least entry of a list is below all of them. -/
theorem lt_min?_getD_iff {xs : List Nat} (hne : xs ≠ []) {n : Nat} :
    n < xs.min?.getD 0 ↔ ∀ x ∈ xs, n < x := by
  cases hmin : xs.min? with
  | none => exact absurd (List.min?_eq_none_iff.1 hmin) hne
  | some least => exact List.le_min?_iff hmin

/-- The players of a queue are compared with the numbers of players of matches, none of which
    is too large for it. -/
structure CountsPlayers (r : RuleSet α) : Prop where
  /-- The shape of a match at any time. -/
  inTime : ∀ mode anchor now, (r.allianceAt anchor now mode).1.bounds.Counts
  /-- Every shape that a match can have in time. -/
  shapes : ∀ b ∈ r.allBounds, b.Counts
  /-- A run ends if there are too few for any shape. -/
  ends : r.countsLeast = true ∧ ∀ players,
    players < r.minPlayers ↔ ∀ b ∈ r.allBounds, players < b.minTeams * b.minSize
  /-- A pivot is dropped if there are too few for any shape around it. -/
  drops : ∀ f : Formation α, f.rules = r → ∀ pivot, f.attempts pivot ≠ [] → ∀ players,
    players < f.minPlayersFor pivot ↔ ∀ a ∈ f.attempts pivot,
      players < (f.allianceAt pivot a.mode).bounds.minTeams *
        (f.allianceAt pivot a.mode).bounds.minSize
  /-- A match is searched for among several packings if there are enough to fill it. -/
  fills : ∀ mode anchor now policy cap (ts : List (Ticket α)),
    (r.allianceAt anchor now mode).1.bounds.searchFailure? ≠ some .overflow ∧
    ((Assembler.of (r.allianceAt anchor now mode).1 policy cap).canFill ts = true ↔
      (r.allianceAt anchor now mode).1.bounds.maxTeams *
        (r.allianceAt anchor now mode).1.bounds.maxSize ≤ Ticket.totalPlayers ts)
  /-- No run breaks off at a number of players. -/
  runs : ∀ f : Formation α, f.rules = r → ∀ budget ts, (ts.map (·.id)).Nodup →
    (f.run budget ts).failure ≠ some .overflow

end RuleSet

namespace Formation

variable [Scalar α] {f : Formation α}

/-- A round counts the players of a match if they can be counted. -/
theorem not_breaksOff_of_counts (hcounts : ∀ b ∈ f.rules.allBounds, b.Counts) {pivot : Ticket α}
    {pool : List (Ticket α)} : ¬f.BreaksOff pivot pool .overflow := by
  intro hbreaks
  cases hbreaks with
  | uncounted hleast =>
    have hall := RuleSet.countsLeast_iff.2 fun b hb => (hcounts b hb).least
    cases hleast.symm.trans hall
  | unsearched _ _ hs =>
    rw [sessionFor] at hs
    rcases f.searchIn_cases pivot pool (f.attempts pivot) with ⟨s, hs', -⟩ | ⟨hnone, -⟩ |
      ⟨e, he, a, -, hshape⟩
    · cases hs'.symm.trans hs
    · cases hnone.symm.trans hs
    · obtain rfl : e = .overflow := Except.error.inj (he.symm.trans hs)
      have hmem := f.rules.allianceAt_bounds_mem pivot.createdAt f.now a.mode
      exact (hcounts _ hmem).searchFailure?_ne hshape

theorem run_failure_ne_overflow (hcounts : ∀ b ∈ f.rules.allBounds, b.Counts) (budget : Budget)
    {ts : List (Ticket α)} (hid : (ts.map (·.id)).Nodup) :
    (f.run budget ts).failure ≠ some .overflow := by
  intro h
  obtain ⟨pivot, pool, hbreaks⟩ := run_breaksOff hid h
  exact not_breaksOff_of_counts hcounts hbreaks

end Formation

/-- Under loaded rules the players of a queue are compared with the numbers of players of
    matches just if the greatest ones are words. -/
theorem RuleSet.countsPlayers_iff [Scalar α] {r : RuleSet α} {j : Json α} (h : load j = .ok r) :
    r.CountsPlayers ↔ ∀ b ∈ r.allBounds, b.maxPlayers < Word.size := by
  obtain ⟨_, -, -, hfault⟩ := exists_of_load h
  refine ⟨fun hcounts b hb => (hcounts.shapes b hb).most, fun hmost => ?_⟩
  have hcounts : ∀ b ∈ r.allBounds, b.Counts := fun b hb =>
    (Bounds.counts_iff (fault?_of_mem_allBounds hfault hb)).2 (hmost b hb)
  have htime : ∀ mode anchor now, (r.allianceAt anchor now mode).1.bounds.Counts :=
    fun mode anchor now => hcounts _ (r.allianceAt_bounds_mem anchor now mode)
  refine ⟨htime, hcounts, ⟨?counts, fun players => ?ends⟩, fun f hf pivot hne players => ?drops,
    fun mode anchor now policy cap ts => ⟨?searched, ?fills⟩, fun f hf budget ts hid => ?runs⟩
  case counts => exact countsLeast_iff.2 fun b hb => (hcounts b hb).least
  case ends =>
    have hne : r.allBounds.map Bounds.minPlayers ≠ [] := List.cons_ne_nil _ _
    rw [minPlayers, lt_min?_getD_iff hne, List.forall_mem_map]
    rfl
  case drops =>
    rw [Formation.minPlayersFor, lt_min?_getD_iff (by simpa using hne), List.forall_mem_map]
    rfl
  case searched => exact (htime mode anchor now).searchFailure?_ne
  case fills =>
    rw [Assembler.canFill, decide_eq_true_iff]
    rfl
  case runs => exact Formation.run_failure_ne_overflow (hf ▸ hcounts) budget hid

namespace Formation

/-! ### Legions -/

/-- The rules of legions as they are written. -/
def legionRecord (n : Int) : Json Float :=
  .obj [
    ("alliance", .obj [("min_number", .int 2), ("max_number", .int 2),
      ("player_min_number", .int 1), ("player_max_number", .int 1)]),
    ("alliance_flexing_rule", .arr [.obj [("duration", .int 3600), ("min_number", .int n),
      ("max_number", .int n), ("player_min_number", .int n), ("player_max_number", .int n)]])]

/-- The players of a hundred legions are counted. -/
theorem legion_countsPlayers : RuleSet.load (legionRecord 100) = .ok (legion 100).rules ∧
    (legion 100).rules.CountsPlayers :=
  have hload : RuleSet.load (legionRecord 100) = .ok (legion 100).rules := rfl
  ⟨hload, (RuleSet.countsPlayers_iff hload).2 (by decide)⟩

/-- Legions of as many players as there are words are too many to be counted, so that the run of a
    single player, who is too few for any match, breaks off. -/
theorem legion_overflows : RuleSet.load (legionRecord 4294967296) = .ok (legion 4294967296).rules ∧
    ¬(legion 4294967296).rules.CountsPlayers ∧
    (∀ b ∈ (legion 4294967296).rules.allBounds, 2 ≤ b.minTeams * b.minSize) ∧
    ((legion 4294967296).run .unlimited [duelist "a" []]).failure = some .overflow := by
  have hload : RuleSet.load (legionRecord 4294967296) = .ok (legion 4294967296).rules := rfl
  refine ⟨hload, fun hcounts => ?_, by decide, by decide +kernel⟩
  exact absurd ((RuleSet.countsPlayers_iff hload).1 hcounts) (by decide)

end Formation

end Matchmaking
