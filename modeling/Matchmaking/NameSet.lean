/-!
# Sets of names

A set of names is kept as the list of its members in strictly ascending order
of code points, so that two sets with the same members are equal (`ext`) and
the list of a set is the order in which it is written.

The operations are known by their members: `mem_insert`, `mem_union`,
`mem_inter`, `mem_ofList`, and the tests by what they decide: `contains_iff`,
`subset_iff`, `disjoint_iff`, `isEmpty_iff`.
-/

namespace Matchmaking

/-- A finite set of names. -/
structure NameSet where
  /-- The members, in ascending order. -/
  toList : List String
  /-- No name is listed twice, and every name comes after those below it. -/
  sorted : toList.Pairwise (· < ·)
  deriving DecidableEq

namespace NameSet

instance : Membership String NameSet := ⟨fun s x => x ∈ s.toList⟩

instance (x : String) (s : NameSet) : Decidable (x ∈ s) := inferInstanceAs (Decidable (x ∈ s.toList))

theorem mem_def {s : NameSet} {x : String} : x ∈ s ↔ x ∈ s.toList := Iff.rfl

/-- The set without members. -/
def empty : NameSet := ⟨[], .nil⟩

instance : EmptyCollection NameSet := ⟨empty⟩
instance : Inhabited NameSet := ⟨empty⟩

/-- The number of members. -/
def size (s : NameSet) : Nat := s.toList.length

/-- Insertion into an ascending list of names. -/
def insertList (x : String) : List String → List String
  | [] => [x]
  | y :: ys => if x < y then x :: y :: ys else if y < x then y :: insertList x ys else y :: ys

theorem mem_insertList {x z : String} {ys : List String} :
    z ∈ insertList x ys ↔ z = x ∨ z ∈ ys := by
  induction ys with
  | nil => simp [insertList]
  | cons y ys ih =>
    simp only [insertList]
    split
    · simp
    · split
      · simp [ih, or_left_comm]
      · rename_i h₁ h₂
        have : x = y := String.le_antisymm (String.not_lt.1 h₂) (String.not_lt.1 h₁)
        simp [this]

theorem sorted_insertList {x : String} {ys : List String} (h : ys.Pairwise (· < ·)) :
    (insertList x ys).Pairwise (· < ·) := by
  induction ys with
  | nil => simp [insertList]
  | cons y ys ih =>
    obtain ⟨hy, hys⟩ := List.pairwise_cons.1 h
    simp only [insertList]
    split
    · rename_i hxy
      refine List.pairwise_cons.2 ⟨fun z hz => ?_, h⟩
      rcases List.mem_cons.1 hz with rfl | hz
      · exact hxy
      · exact String.lt_trans hxy (hy z hz)
    · split
      · rename_i hyx
        refine List.pairwise_cons.2 ⟨fun z hz => ?_, ih hys⟩
        rcases mem_insertList.1 hz with rfl | hz
        · exact hyx
        · exact hy z hz
      · exact h

/-- The set with `x` added. -/
def insert (s : NameSet) (x : String) : NameSet :=
  ⟨insertList x s.toList, sorted_insertList s.sorted⟩

/-- The set of the names of a list, in any order and with any repetitions. -/
def ofList (xs : List String) : NameSet := xs.foldl insert empty

/-- The members of `s` and of `t`; each member of `t` is inserted into `s`. -/
def union (s t : NameSet) : NameSet := t.toList.foldl insert s

/-- Whether `x` is a member. -/
def contains (s : NameSet) (x : String) : Bool := s.toList.contains x

/-- The members of `s` that pass the test `p`. -/
def filter (p : String → Bool) (s : NameSet) : NameSet :=
  ⟨s.toList.filter p, s.sorted.filter p⟩

/-- The members that `s` and `t` share. -/
def inter (s t : NameSet) : NameSet := s.filter t.contains

/-- Whether every member of `s` is one of `t`. -/
def subset (s t : NameSet) : Bool := s.toList.all t.contains

/-- Whether `s` and `t` share no member. -/
def disjoint (s t : NameSet) : Bool := s.toList.all fun x => !t.contains x

/-- Whether there is no member. -/
def isEmpty (s : NameSet) : Bool := s.toList.isEmpty

/-! ### Members -/

theorem ext {s t : NameSet} (h : ∀ x, x ∈ s ↔ x ∈ t) : s = t := by
  obtain ⟨xs, hx⟩ := s
  obtain ⟨ys, hy⟩ := t
  have hmem : ∀ x, x ∈ xs ↔ x ∈ ys := h
  congr
  induction xs generalizing ys with
  | nil => exact (List.eq_nil_iff_forall_not_mem.2 fun x hm => by simpa using (hmem x).2 hm).symm
  | cons x xs ih =>
    cases ys with
    | nil => simpa using (hmem x).1 (by simp)
    | cons y ys =>
      obtain ⟨hx₁, hx₂⟩ := List.pairwise_cons.1 hx
      obtain ⟨hy₁, hy₂⟩ := List.pairwise_cons.1 hy
      have hxy : x = y := by
        rcases List.mem_cons.1 ((hmem x).1 (by simp)) with rfl | h₁
        · rfl
        · rcases List.mem_cons.1 ((hmem y).2 (by simp)) with h₂ | h₂
          · exact h₂.symm
          · exact absurd (String.lt_trans (hy₁ x h₁) (hx₁ y h₂)) (String.lt_irrefl y)
      subst hxy
      have hne : ∀ {zs : List String}, (∀ z ∈ zs, x < z) → x ∉ zs :=
        fun hz hm => String.lt_irrefl x (hz x hm)
      rw [ih hx₂ ys hy₂ (fun z => ?_) fun z => ?_]
      all_goals
        have hz := hmem z
        simp only [List.mem_cons] at hz
        change z ∈ xs ↔ z ∈ ys
        by_cases hzx : z = x
        · subst hzx
          exact iff_of_false (hne hx₁) (hne hy₁)
        · simpa [hzx] using hz

@[simp] theorem not_mem_empty (x : String) : x ∉ (∅ : NameSet) := List.not_mem_nil

@[simp] theorem mem_insert {s : NameSet} {x y : String} : y ∈ s.insert x ↔ y = x ∨ y ∈ s :=
  mem_insertList

theorem mem_foldl_insert {s : NameSet} {xs : List String} {y : String} :
    y ∈ xs.foldl insert s ↔ y ∈ s ∨ y ∈ xs := by
  induction xs generalizing s with
  | nil => simp
  | cons x xs ih =>
    simp only [List.foldl_cons, ih, mem_insert, List.mem_cons]
    grind

@[simp] theorem mem_ofList {xs : List String} {y : String} : y ∈ ofList xs ↔ y ∈ xs := by
  rw [ofList, mem_foldl_insert]
  exact or_iff_right List.not_mem_nil

@[simp] theorem mem_union {s t : NameSet} {y : String} : y ∈ s.union t ↔ y ∈ s ∨ y ∈ t :=
  mem_foldl_insert

theorem mem_foldl_union {β : Type} {f : β → NameSet} {s : NameSet} {xs : List β} {y : String} :
    y ∈ xs.foldl (fun s x => s.union (f x)) s ↔ y ∈ s ∨ ∃ x ∈ xs, y ∈ f x := by
  induction xs generalizing s with
  | nil => simp
  | cons x xs ih => simp [ih, or_assoc]

@[simp] theorem contains_iff {s : NameSet} {x : String} : s.contains x = true ↔ x ∈ s := by
  simp [contains, mem_def]

@[simp] theorem mem_filter {s : NameSet} {p : String → Bool} {x : String} :
    x ∈ s.filter p ↔ x ∈ s ∧ p x = true := by
  simp [filter, mem_def]

@[simp] theorem mem_inter {s t : NameSet} {x : String} : x ∈ s.inter t ↔ x ∈ s ∧ x ∈ t := by
  simp [inter]

@[simp] theorem subset_iff {s t : NameSet} : s.subset t = true ↔ ∀ x ∈ s, x ∈ t := by
  simp [subset, mem_def, contains]

@[simp] theorem disjoint_iff {s t : NameSet} : s.disjoint t = true ↔ ∀ x ∈ s, x ∉ t := by
  simp [disjoint, mem_def, contains]

theorem nodup_toList (s : NameSet) : s.toList.Nodup :=
  s.sorted.imp fun {x y} h (he : x = y) => String.lt_irrefl x (by rwa [← he] at h)

/-- The size of a set of names that were listed once each. -/
theorem size_ofList {xs : List String} (h : xs.Nodup) : (ofList xs).size = xs.length :=
  ((List.perm_ext_iff_of_nodup (nodup_toList _) h).2 fun _ => mem_ofList).length_eq

@[simp] theorem isEmpty_iff {s : NameSet} : s.isEmpty = true ↔ s = ∅ := by
  obtain ⟨xs, hx⟩ := s
  cases xs with
  | nil => simp [isEmpty, EmptyCollection.emptyCollection, empty]
  | cons x xs => simp [isEmpty, EmptyCollection.emptyCollection, empty]

theorem ne_empty_iff {s : NameSet} : s ≠ ∅ ↔ ∃ x, x ∈ s := by
  refine ⟨fun h => Classical.byContradiction fun hnone => h (ext fun x => ?_), ?_⟩
  · exact iff_of_false (fun hx => hnone ⟨x, hx⟩) (not_mem_empty x)
  · rintro ⟨x, hx⟩ rfl
    exact not_mem_empty x hx

theorem isEmpty_eq_false {s : NameSet} {x : String} (h : x ∈ s) : s.isEmpty = false :=
  Bool.eq_false_iff.2 fun hempty => not_mem_empty x (isEmpty_iff.1 hempty ▸ h)

end NameSet

end Matchmaking
