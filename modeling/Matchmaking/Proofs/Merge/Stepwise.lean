import Mathlib.Data.List.Induction
import Matchmaking.Proofs.Merge

/-!
# Merging step by step

The attributes of a session are merged at once when it is formed, and one ticket after
another when it is filled. Where all that is narrowed has a name in common
(`Attributes.Share`), this is the same: merging one more into what was merged is merging
them all (`Attributes.merge_concat`), and so is merging several more
(`Attributes.merge_append`).

Without a common name the first values stay when all are merged at once, but whatever
was narrowed before stays when they are merged step by step.
-/

namespace Matchmaking

variable {α : Type} [Scalar α]

/-! ## Values -/

namespace Value

/-- Values may be merged into merged ones, if those that are narrowed share a name. -/
theorem merge_merge [Scalar.Visible α] {mode : MergeMode} {v : Value α} {vs ws : List (Value α)}
    (h : mode = .intersect → ∃ x, ∀ w ∈ v :: (vs ++ ws), x ∈ w.names) :
    merge mode (merge mode v vs) ws = merge mode v (vs ++ ws) := by
  cases mode with
  | keepFirst => rfl
  | union =>
    refine congrArg ofNames (NameSet.ext fun x => ?_)
    rw [mem_together, mem_together]
    simp [mem_names_merge_union, or_assoc, or_and_right, exists_or]
  | intersect =>
    obtain ⟨x, hx⟩ := h rfl
    rw [← List.cons_append, List.forall_mem_append] at hx
    obtain ⟨hfirst, hrest⟩ := hx
    have hmerged : ∃ x, ∀ w ∈ merge .intersect v vs :: ws, x ∈ w.names :=
      ⟨x, List.forall_mem_cons.2 ⟨(mem_names_merge_intersect ⟨x, hfirst⟩).2 hfirst, hrest⟩⟩
    rw [merge_intersect hmerged, merge_intersect (h rfl)]
    refine congrArg ofNames (NameSet.ext fun y => ?_)
    rw [mem_common, mem_common, List.forall_mem_cons, mem_names_merge_intersect ⟨x, hfirst⟩,
      ← List.cons_append, List.forall_mem_append]

end Value

/-! ## Attributes -/

namespace Attributes

/-- Whatever is narrowed has a name in common: under each name of some of the attributes
    of a list, they and the first ones share one, as far as they have a value there. -/
def Share (r : RuleSet α) (base : Attributes α) (as : List (Attributes α)) : Prop :=
  ∀ k, r.mergeMode k = .intersect → (∃ a ∈ as, k ∈ a.keys) →
    ∃ x, ∀ a ∈ base :: as, k ∈ a.keys → x ∈ a.names k

variable {r : RuleSet α} {base a : Attributes α} {as xs ys : List (Attributes α)} {k x : String}

omit [Scalar α] in
theorem valuesAt_append : valuesAt k (xs ++ ys) = valuesAt k xs ++ valuesAt k ys :=
  List.filterMap_append

/-- A name that attributes share is one of all of their values. -/
theorem forall_mem_keys_iff : (∀ a ∈ base :: as, k ∈ a.keys → x ∈ a.names k) ↔
    ∀ v ∈ (base.get? k).toList ++ valuesAt k as, x ∈ v.names := by
  have hone (a : Attributes α) :
      (k ∈ a.keys → x ∈ a.names k) ↔ ∀ v, a.get? k = some v → x ∈ v.names := by
    rw [Dict.mem_keys_iff, names]
    cases a.get? k <;> simp
  simp only [hone, List.forall_mem_cons, List.forall_mem_append, Option.mem_toList, mem_valuesAt]
  grind

omit [Scalar α] in
theorem valuesAt_ne_nil_iff : valuesAt k as ≠ [] ↔ ∃ a ∈ as, k ∈ a.keys := by
  simp only [ne_eq, List.eq_nil_iff_forall_not_mem, not_forall_not, mem_valuesAt,
    Dict.mem_keys_iff, Option.isSome_iff_exists]
  exact ⟨fun ⟨v, a, ha, hv⟩ => ⟨a, ha, v, hv⟩, fun ⟨a, ha, v, hv⟩ => ⟨v, a, ha, hv⟩⟩

/-- Whether attributes share can be computed. -/
instance (r : RuleSet α) (base : Attributes α) (as : List (Attributes α)) :
    Decidable (Share r base as) :=
  decidable_of_iff
    (∀ k ∈ (allKeys as).toList, r.mergeMode k = .intersect →
      (Value.common ((base.get? k).toList ++ valuesAt k as)).isEmpty = false)
    (by
      have hcommon {k : String} (hk : valuesAt k as ≠ []) :
          (Value.common ((base.get? k).toList ++ valuesAt k as)).isEmpty = false ↔
            ∃ x, ∀ a ∈ base :: as, k ∈ a.keys → x ∈ a.names k := by
        obtain ⟨v, vs, hvs⟩ := List.exists_cons_of_ne_nil
          (List.append_ne_nil_of_right_ne_nil (base.get? k).toList hk)
        simp only [forall_mem_keys_iff, hvs, ← Value.mem_common, ← NameSet.ne_empty_iff, ne_eq,
          ← NameSet.isEmpty_iff, Bool.not_eq_true]
      simp only [Share, mem_allKeys_iff, ← valuesAt_ne_nil_iff]
      exact ⟨fun h k hmode hk => (hcommon hk).1 (h k hk hmode),
        fun h k hk hmode => (hcommon hk).2 (h k hmode hk)⟩)

theorem Share.of_append (h : Share r base (xs ++ ys)) : Share r base xs := by
  rintro k hmode ⟨a, ha, hk⟩
  obtain ⟨x, hx⟩ := h k hmode ⟨a, List.mem_append_left ys ha, hk⟩
  rw [← List.cons_append, List.forall_mem_append] at hx
  exact ⟨x, hx.1⟩

variable [Scalar.Visible α]

/-- What is shared is still shared once some of it is merged. -/
theorem Share.merge (h : Share r base (xs ++ ys)) : Share r (base.merge r xs) ys := by
  rintro k hmode ⟨a, ha, hk⟩
  obtain ⟨x, hx⟩ := h k hmode ⟨a, List.mem_append_right xs ha, hk⟩
  rw [← List.cons_append, List.forall_mem_append] at hx
  obtain ⟨hfirst, hrest⟩ := hx
  refine ⟨x, List.forall_mem_cons.2 ⟨fun hmerged => ?_, hrest⟩⟩
  rcases get?_merge_cases r base xs k with ⟨_, hget⟩ | ⟨v, vs, hvalues, hget⟩
  · rw [Dict.mem_keys_iff, hget, ← Dict.mem_keys_iff] at hmerged
    rw [names, hget]
    exact hfirst base List.mem_cons_self hmerged
  · have hall : ∀ w ∈ v :: vs, x ∈ w.names := hvalues ▸ forall_mem_keys_iff.1 hfirst
    rw [names, hget, hmode]
    exact (Value.mem_names_merge_intersect ⟨x, hall⟩).2 hall

/-- Merging one more into merged attributes is merging them all, if whatever is narrowed
    has a name in common. -/
theorem merge_concat (h : Share r base (as ++ [a])) :
    base.merge r (as ++ [a]) = (base.merge r as).merge r [a] := by
  refine Dict.ext fun k => ?_
  rw [get?_merge, get?_merge, valuesAt_append]
  cases hlast : a.get? k with
  | none =>
    -- Nothing is added to what was merged.
    have hnil : valuesAt k [a] = [] := by simp [valuesAt, hlast]
    rw [hnil, List.append_nil, if_pos rfl, get?_merge, merged?, merged?, valuesAt_append, hnil,
      List.append_nil]
  | some u =>
    have hone : valuesAt k [a] = [u] := by simp [valuesAt, hlast]
    rw [hone, if_neg (List.append_ne_nil_of_right_ne_nil _ (List.cons_ne_nil u [])),
      if_neg (List.cons_ne_nil u []), merged?, merged?, valuesAt_append, hone]
    rcases get?_merge_cases r base as k with ⟨hnil, hget⟩ | ⟨v, vs, hvalues, hget⟩
    · rw [hget, hnil, List.nil_append]
    · rw [← List.append_assoc, hvalues, hget]
      refine congrArg some (Value.merge_merge fun hmode => ?_).symm
      obtain ⟨x, hx⟩ := h k hmode ⟨a, by simp, by simp [Dict.mem_keys_iff, hlast]⟩
      refine ⟨x, ?_⟩
      rwa [forall_mem_keys_iff, valuesAt_append, hone, ← List.append_assoc, hvalues] at hx

/-- Merging several more into merged attributes is merging them all, if whatever is
    narrowed has a name in common. -/
theorem merge_append (h : Share r base (xs ++ ys)) :
    base.merge r (xs ++ ys) = (base.merge r xs).merge r ys := by
  -- The induction is from the end of the list, as one more is merged into all before it.
  induction ys using List.reverseRecOn with
  | nil =>
    rw [List.append_nil]
    rfl
  | append_singleton ys a ih =>
    rw [← List.append_assoc] at h ⊢
    calc base.merge r (xs ++ ys ++ [a]) = (base.merge r (xs ++ ys)).merge r [a] := merge_concat h
      _ = ((base.merge r xs).merge r ys).merge r [a] := by rw [ih h.of_append]
      _ = (base.merge r xs).merge r (ys ++ [a]) :=
        (merge_concat (Share.merge (List.append_assoc .. ▸ h))).symm

/-! ### A vote on maps -/

/-- The rules of players who vote for maps, and have heroes of their own. -/
def vote : RuleSet Float :=
  { RuleSet.ofAlliance (.ofBounds ⟨1, 3, 1, 1⟩) with
    options := [⟨"map", .any⟩, ⟨"hero", .unique⟩] }

/-- The attributes of a player who votes for maps. -/
def ballot (hero : String) (maps : List String) : Attributes Float :=
  .ofList [("hero", .text hero), ("map", .list maps), ("server", .text hero)]

/-- Three players vote for a map in common, and one of them is asked later than the
    others. -/
theorem vote_merges :
    Share vote (ballot "mage" ["dust", "nuke", "lake"])
        ([ballot "rogue" ["nuke", "lake"]] ++ [ballot "bard" ["nuke", "dust"]]) ∧
      (ballot "mage" ["dust", "nuke", "lake"]).merge vote
          ([ballot "rogue" ["nuke", "lake"]] ++ [ballot "bard" ["nuke", "dust"]]) =
        ((ballot "mage" ["dust", "nuke", "lake"]).merge vote
          [ballot "rogue" ["nuke", "lake"]]).merge vote [ballot "bard" ["nuke", "dust"]] := by
  have hshare : Share vote (ballot "mage" ["dust", "nuke", "lake"])
      ([ballot "rogue" ["nuke", "lake"]] ++ [ballot "bard" ["nuke", "dust"]]) := by
    decide +kernel
  exact ⟨hshare, merge_append hshare⟩

/-- Where no map is voted for by all, those of the first player stay if all are asked at
    once, and those that were left before stay if one is asked later. -/
example :
    ((ballot "mage" ["dust", "nuke"]).merge vote
        [ballot "rogue" ["nuke"], ballot "bard" ["dust"]]).names "map" =
          .ofList ["dust", "nuke"] ∧
      (((ballot "mage" ["dust", "nuke"]).merge vote [ballot "rogue" ["nuke"]]).merge vote
        [ballot "bard" ["dust"]]).names "map" = .ofList ["nuke"] := by
  decide +kernel

end Attributes

end Matchmaking
