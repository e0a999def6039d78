import Mathlib.Data.List.Induction
import Matchmaking.Merge
import Matchmaking.Rules.Fault
import Matchmaking.Rules.Flexing

/-!
# What gives way in time

What replaces a rule at a time is one of those whose duration has passed, and
among these the last one of the longest duration (`inForce?_eq_some_iff`). Later
more durations have passed, so that it is still in force or a longer one is
(`inForce?_later`).

* `RuleSet.minPlayers_le`: no shape that is ever in force, in any mode, can begin
  with fewer players than the rules say;
* `RuleSet.flexing?_later`, `RuleSet.tolerance?_later`: under rules without a fault,
  a tolerance does not shrink in time.
-/

namespace Matchmaking

/-! ## The last greatest entry -/

section LastGreatest

variable {β : Type} {rank : β → β → Ordering}

theorem lastGreatest?_concat (xs : List β) (z : β) :
    lastGreatest? rank (xs ++ [z]) =
      some (((lastGreatest? rank xs).map (laterGreater rank · z)).getD z) := by
  cases xs with
  | nil => rfl
  | cons x xs => simp [lastGreatest?, List.foldl_append]

variable [Std.TransCmp rank]

/-- Nothing before the last greatest entry is greater, and all after it is less. -/
theorem split_of_lastGreatest? {xs : List β} {x : β} (h : lastGreatest? rank xs = some x) :
    ∃ before after, xs = before ++ x :: after ∧ (∀ y ∈ before, (rank y x).isLE = true) ∧
      ∀ y ∈ after, rank y x = .lt := by
  -- The induction is from the end of the list, as a later entry wins over its equals.
  induction xs using List.reverseRecOn generalizing x with
  | nil => cases h
  | append_singleton xs z ih =>
    rw [lastGreatest?_concat] at h
    cases hxs : lastGreatest? rank xs with
    | none =>
      obtain rfl : xs = [] := by cases xs with
        | nil => rfl
        | cons => cases hxs
      obtain rfl : z = x := Option.some_inj.1 h
      exact ⟨[], [], rfl, List.forall_mem_nil _, List.forall_mem_nil _⟩
    | some y =>
      obtain ⟨before, after, rfl, hbefore, hafter⟩ := ih hxs
      simp only [hxs, Option.map_some, Option.getD_some, laterGreater, Option.some_inj] at h
      split_ifs at h with hyz
      · subst h
        refine ⟨before, after ++ [z], by simp, hbefore, fun w hw => ?_⟩
        rcases List.mem_append.1 hw with hw | hw
        · exact hafter w hw
        · rw [List.mem_singleton.1 hw]
          exact Std.OrientedCmp.lt_of_gt hyz
      · subst h
        have hy : (rank y z).isLE = true := by
          cases hr : rank y z with
          | gt => exact absurd hr hyz
          | lt => rfl
          | eq => rfl
        refine ⟨before ++ y :: after, [], rfl, fun w hw => ?_, List.forall_mem_nil _⟩
        rcases List.mem_append.1 hw with hw | hw
        · exact Std.TransCmp.isLE_trans (hbefore w hw) hy
        · rcases List.mem_cons.1 hw with rfl | hw
          · exact hy
          · exact Std.TransCmp.isLE_trans (by rw [hafter w hw]; rfl) hy

theorem lastGreatest?_append_cons {before after : List β} {x : β}
    (hbefore : ∀ y ∈ before, (rank y x).isLE = true) (hafter : ∀ y ∈ after, rank y x = .lt) :
    lastGreatest? rank (before ++ x :: after) = some x := by
  induction after using List.reverseRecOn with
  | nil =>
    rw [lastGreatest?_concat]
    cases hb : lastGreatest? rank before with
    | none => rfl
    | some y =>
      obtain ⟨xs, ys, rfl, _⟩ := split_of_lastGreatest? hb
      have hy := hbefore y (by simp)
      have hne : rank y x ≠ .gt := fun hgt => by simp [hgt] at hy
      simp [laterGreater, hne]
  | append_singleton after z ih =>
    rw [← List.cons_append, ← List.append_assoc, lastGreatest?_concat,
      ih fun y hy => hafter y (List.mem_append_left _ hy)]
    have hgt : rank x z = .gt := Std.OrientedCmp.gt_of_lt (hafter z (by simp))
    simp [laterGreater, hgt]

end LastGreatest

/-! ## What is in force -/

theorem isOverdue_later {anchor now₀ now₁ : Instant} (hnow : now₀ ≤ now₁) {seconds : Nat}
    (h : isOverdue anchor now₀ seconds = true) : isOverdue anchor now₁ seconds = true := by
  simp only [isOverdue, decide_eq_true_eq] at h ⊢
  exact Int.lt_of_lt_of_le h hnow

section InForce

variable {β : Type} {duration : β → Nat} {anchor now now₀ now₁ : Instant} {fs : List β} {f : β}

theorem mem_of_inForce? (h : inForce? duration anchor now fs = some f) :
    f ∈ fs ∧ isOverdue anchor now (duration f) = true := by
  obtain ⟨before, after, hfs, _⟩ := split_of_lastGreatest? h
  exact List.mem_filter.1 (hfs ▸ List.mem_append_right before List.mem_cons_self)

theorem exists_inForce? (hf : f ∈ fs) (h : isOverdue anchor now (duration f) = true) :
    ∃ g, inForce? duration anchor now fs = some g ∧ duration f ≤ duration g := by
  have hmem : f ∈ fs.filter fun f => isOverdue anchor now (duration f) :=
    List.mem_filter.2 ⟨hf, h⟩
  cases hg : inForce? duration anchor now fs with
  | none =>
    cases hfs : fs.filter fun f => isOverdue anchor now (duration f) with
    | nil => rw [hfs] at hmem; cases hmem
    | cons => rw [inForce?, hfs] at hg; cases hg
  | some g =>
    obtain ⟨before, after, hfs, hbefore, hafter⟩ := split_of_lastGreatest? hg
    refine ⟨g, rfl, ?_⟩
    rw [hfs] at hmem
    rcases List.mem_append.1 hmem with hf | hf
    · exact Nat.isLE_compare.1 (hbefore f hf)
    · rcases List.mem_cons.1 hf with rfl | hf
      · exact Nat.le_refl _
      · exact Nat.le_of_lt (Nat.compare_eq_lt.1 (hafter f hf))

/-- What is in force stays so until something of a longer duration is. -/
theorem inForce?_later (hnow : now₀ ≤ now₁) (h : inForce? duration anchor now₀ fs = some f) :
    ∃ g, inForce? duration anchor now₁ fs = some g ∧ (g = f ∨ duration f < duration g) := by
  obtain ⟨hf, hover⟩ := mem_of_inForce? h
  obtain ⟨g, hg, hle⟩ := exists_inForce? hf (isOverdue_later hnow hover)
  refine ⟨g, hg, ?_⟩
  rcases Nat.eq_or_lt_of_le hle with heq | hlt
  · -- `g` was in time before, and the last one of its duration, as it is now.
    left
    obtain ⟨before, after, hfs, hbefore, hafter⟩ := split_of_lastGreatest? hg
    have hfilter : fs.filter (fun f => isOverdue anchor now₀ (duration f)) =
        (fs.filter fun f => isOverdue anchor now₁ (duration f)).filter
          fun f => isOverdue anchor now₀ (duration f) := by
      rw [List.filter_filter]
      refine List.filter_congr fun x _ => ?_
      cases hx : isOverdue anchor now₀ (duration x) with
      | false => rfl
      | true => rw [isOverdue_later hnow hx, Bool.and_self]
    rw [inForce?, hfilter, hfs, List.filter_append, List.filter_cons_of_pos (heq ▸ hover),
      lastGreatest?_append_cons (fun y hy => hbefore y (List.mem_filter.1 hy).1)
        (fun y hy => hafter y (List.mem_filter.1 hy).1)] at h
    exact Option.some_inj.1 h
  · exact .inr hlt

end InForce

/-! ## Shapes in time -/

/-- A shape has its own bounds or some that may replace them. -/
theorem AllianceRule.flexedAt_bounds_mem (a : AllianceRule) (fs : List AllianceFlexing)
    (anchor now : Instant) :
    (a.flexedAt fs anchor now).1.bounds ∈ a.bounds :: fs.map (·.bounds) := by
  rw [flexedAt]
  split
  · rename_i f hf
    exact List.mem_cons_of_mem _ (List.mem_map_of_mem (mem_of_inForce? hf).1)
  · exact List.mem_cons_self

namespace RuleSet

variable {α : Type} {r : RuleSet α} {mode : Option String} {anchor now now₀ now₁ : Instant}

/-- A mode that the rules do not know is no mode. -/
theorem exists_boundsFor_eq (r : RuleSet α) (mode : Option String) :
    ∃ known ∈ r.modeNames, r.boundsFor known = r.boundsFor mode := by
  cases hmode : r.mode? mode with
  | none =>
    refine ⟨none, List.mem_cons_self, ?_⟩
    rw [boundsFor, boundsFor, allianceFor, allianceFor, allianceFlexingFor, allianceFlexingFor,
      hmode]
    rfl
  | some m =>
    obtain ⟨name, rfl, hm⟩ := Option.bind_eq_some_iff.1 hmode
    refine ⟨some name, List.mem_cons_of_mem _ (List.mem_map_of_mem ?_), rfl⟩
    exact List.mem_map_of_mem (Dict.get?_eq_some_iff.1 hm)

/-- Without modes, and where nothing replaces them, there are only the main bounds. -/
theorem allBounds_eq (hflexing : r.allianceFlexing = []) (hmodes : r.modes = ∅) :
    r.allBounds = [r.alliance.bounds] := by
  have hnames : r.modeNames = [none] := by rw [modeNames, hmodes]; rfl
  have hbounds : r.boundsFor none = [r.alliance.bounds] := by
    show r.alliance.bounds :: r.allianceFlexing.map (·.bounds) = _
    rw [hflexing]
    rfl
  rw [allBounds, hnames, List.flatMap_singleton, hbounds]

/-- All bounds that are ever in force are known. -/
theorem allianceAt_bounds_mem (r : RuleSet α) (anchor now : Instant) (mode : Option String) :
    (r.allianceAt anchor now mode).1.bounds ∈ r.allBounds := by
  obtain ⟨known, hknown, hbounds⟩ := r.exists_boundsFor_eq mode
  refine List.mem_flatMap.2 ⟨known, hknown, hbounds ▸ ?_⟩
  exact AllianceRule.flexedAt_bounds_mem _ _ anchor now

/-- No match can ever begin with fewer players than the rules say. -/
theorem minPlayers_le (r : RuleSet α) (anchor now : Instant) (mode : Option String) :
    r.minPlayers ≤ (r.allianceAt anchor now mode).1.bounds.minPlayers :=
  List.min?_getD_le_of_mem (List.mem_map_of_mem (r.allianceAt_bounds_mem anchor now mode))

/-! ## Tolerances in time -/

/-- The attributes that the distance rules are about, rule by rule. -/
def keys (r : RuleSet α) : List String := r.distances.map (·.key)

/-- Only tolerances give way. -/
theorem keys_flexedAt (r : RuleSet α) (anchor now : Instant) :
    (r.flexedAt anchor now).keys = r.keys := by
  rw [keys, flexedAt, distancesAt, List.map_map]
  refine List.map_congr_left fun d _ => ?_
  simp only [Function.comp_apply]
  split <;> rfl

variable [Scalar α]

theorem means_eq_ofList_keys (r : RuleSet α) (ts : List (Ticket α)) :
    r.means ts = .ofList (r.keys.map fun k => (k, meanOver k ts)) := by
  rw [means, keys, List.map_map]
  rfl

/-- So means do not give way. -/
theorem means_flexedAt (r : RuleSet α) (anchor now : Instant) (ts : List (Ticket α)) :
    (r.flexedAt anchor now).means ts = r.means ts := by
  rw [means_eq_ofList_keys, means_eq_ofList_keys, keys_flexedAt]

/-- Rules without a fault widen a tolerance, if anything replaces it. -/
theorem widens_of_fault?_eq_none (hr : r.fault? = none) {f : FlexingRule α} (hf : f ∈ r.flexing)
    {d : DistanceRule α} (hd : r.distance? f.key = some d) : ¬f.tolerance < d.tolerance := by
  simp only [fault?, Option.or_eq_none_iff, List.findSome?_eq_none_iff] at hr
  have := hr.2.2.1 f hf
  rw [flexingFault?, hd] at this
  simpa using this

/-- Rules without a fault widen a tolerance further after a longer duration. -/
theorem grows_of_fault?_eq_none (hr : r.fault? = none) {f g : FlexingRule α} (hf : f ∈ r.flexing)
    (hg : g ∈ r.flexing) (hkey : g.key = f.key) (hfg : f.duration < g.duration) :
    ¬g.tolerance < f.tolerance := by
  simp only [fault?, Option.or_eq_none_iff, List.findSome?_eq_none_iff] at hr
  have := hr.2.2.2.1 f hf
  simp only [shrinkingFault?, ite_eq_right_iff, reduceCtorEq, imp_false, Bool.not_eq_true,
    List.any_eq_false, Bool.and_eq_true, beq_iff_eq, decide_eq_true_eq, not_and] at this
  exact this g hg ⟨hkey, hfg⟩

omit [Scalar α] in
theorem mem_of_flexing? {key : String} {f : FlexingRule α}
    (h : r.flexing? anchor now key = some f) : f ∈ r.flexing ∧ f.key = key := by
  simpa using List.mem_filter.1 (mem_of_inForce? h).1

/-- What replaces a tolerance is replaced by what is no narrower. -/
theorem flexing?_later (hr : r.fault? = none) (hnow : now₀ ≤ now₁) {key : String}
    {f : FlexingRule α} (h : r.flexing? anchor now₀ key = some f) :
    ∃ g, r.flexing? anchor now₁ key = some g ∧
      (g.tolerance = f.tolerance ∨ ¬g.tolerance < f.tolerance) := by
  obtain ⟨g, hg, hlater⟩ := inForce?_later hnow h
  refine ⟨g, hg, hlater.imp (congrArg _) fun hlt => ?_⟩
  obtain ⟨hf, hfkey⟩ := mem_of_flexing? h
  obtain ⟨hgmem, hgkey⟩ := mem_of_flexing? (r := r) hg
  exact grows_of_fault?_eq_none hr hf hgmem (hgkey.trans hfkey.symm) hlt

/-- The tolerance of an attribute does not shrink in time. -/
theorem tolerance?_later (hr : r.fault? = none) (hnow : now₀ ≤ now₁) {key : String} {a : α}
    (h : r.tolerance? anchor now₀ key = some a) :
    ∃ b, r.tolerance? anchor now₁ key = some b ∧ (b = a ∨ ¬b < a) := by
  obtain ⟨d, hd, rfl⟩ := Option.map_eq_some_iff.1 h
  simp only [tolerance?, hd, Option.map_some, Option.some_inj, exists_eq_left']
  cases h₀ : r.flexing? anchor now₀ key with
  | some f =>
    obtain ⟨g, hg, hwider⟩ := flexing?_later hr hnow h₀
    rw [hg]
    exact hwider
  | none =>
    cases h₁ : r.flexing? anchor now₁ key with
    | none => exact .inl rfl
    | some g =>
      obtain ⟨hg, hkey⟩ := mem_of_flexing? h₁
      exact .inr (widens_of_fault?_eq_none hr hg (hkey ▸ hd))

end RuleSet

end Matchmaking
