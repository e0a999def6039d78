/-!
# Dictionaries

A dictionary gives values to finitely many names. It is kept as the list of its
entries in strictly ascending order of names, so that two dictionaries with the
same look-ups are equal (`ext`) and the list of a dictionary is the order in
which it is written.

The operations are known by their look-ups: `get?_insert`, `get?_map`.
-/

namespace Matchmaking

/-- A finite map from names to values. -/
structure Dict (β : Type) where
  /-- The entries, in ascending order of names. -/
  toList : List (String × β)
  /-- No name has two entries, and every name comes after those below it. -/
  sorted : toList.Pairwise (·.1 < ·.1)
  deriving DecidableEq

namespace Dict

variable {β γ : Type}

/-- The dictionary without entries. -/
def empty : Dict β := ⟨[], .nil⟩

instance : EmptyCollection (Dict β) := ⟨empty⟩
instance : Inhabited (Dict β) := ⟨empty⟩

/-- The names with a value, in ascending order. -/
def keys (d : Dict β) : List String := d.toList.map (·.1)

/-- The values, in ascending order of their names. -/
def values (d : Dict β) : List β := d.toList.map (·.2)

/-- The number of entries. -/
def size (d : Dict β) : Nat := d.toList.length

/-- Whether there is no entry. -/
def isEmpty (d : Dict β) : Bool := d.toList.isEmpty

/-- Look-up in a list of entries. -/
def lookupList (k : String) : List (String × β) → Option β
  | [] => none
  | (y, v) :: ys => if k = y then some v else lookupList k ys

/-- The value of `k`, if it has one. -/
def get? (d : Dict β) (k : String) : Option β := lookupList k d.toList

/-- Whether `k` has a value. -/
def contains (d : Dict β) (k : String) : Bool := (d.get? k).isSome

/-- The value of `k`, or `v` if it has none. -/
def getD (d : Dict β) (k : String) (v : β) : β := (d.get? k).getD v

/-- Insertion into an ascending list of entries; the entry of the same name, if
    any, is replaced. -/
def insertList (k : String) (v : β) : List (String × β) → List (String × β)
  | [] => [(k, v)]
  | (y, w) :: ys =>
    if k < y then (k, v) :: (y, w) :: ys
    else if y < k then (y, w) :: insertList k v ys
    else (k, v) :: ys

theorem fst_mem_insertList {k : String} {v : β} {ys : List (String × β)} {e : String × β}
    (h : e ∈ insertList k v ys) : e.1 = k ∨ e ∈ ys := by
  induction ys with
  | nil => simp_all [insertList]
  | cons y ys ih =>
    simp only [insertList] at h
    split at h
    · rcases List.mem_cons.1 h with rfl | h
      · exact .inl rfl
      · exact .inr h
    · split at h
      · rcases List.mem_cons.1 h with rfl | h
        · exact .inr (by simp)
        · exact (ih h).imp_right (List.mem_cons_of_mem _)
      · rcases List.mem_cons.1 h with rfl | h
        · exact .inl rfl
        · exact .inr (List.mem_cons_of_mem _ h)

theorem sorted_insertList {k : String} {v : β} {ys : List (String × β)}
    (h : ys.Pairwise (·.1 < ·.1)) : (insertList k v ys).Pairwise (·.1 < ·.1) := by
  induction ys with
  | nil => simp [insertList]
  | cons y ys ih =>
    obtain ⟨hy, hys⟩ := List.pairwise_cons.1 h
    simp only [insertList]
    split
    · rename_i hky
      refine List.pairwise_cons.2 ⟨fun z hz => ?_, h⟩
      rcases List.mem_cons.1 hz with rfl | hz
      · exact hky
      · exact String.lt_trans hky (hy z hz)
    · split
      · rename_i hyk
        refine List.pairwise_cons.2 ⟨fun z hz => ?_, ih hys⟩
        rcases fst_mem_insertList hz with hz | hz
        · exact hz ▸ hyk
        · exact hy z hz
      · rename_i h₁ h₂
        have hk : k = y.1 := String.le_antisymm (String.not_lt.1 h₂) (String.not_lt.1 h₁)
        exact List.pairwise_cons.2 ⟨fun z hz => hk ▸ hy z hz, hys⟩

/-- The dictionary in which `k` has the value `v`. -/
def insert (d : Dict β) (k : String) (v : β) : Dict β :=
  ⟨insertList k v d.toList, sorted_insertList d.sorted⟩

/-- The dictionary of a list of entries; the last entry of a name counts. -/
def ofList (es : List (String × β)) : Dict β :=
  es.foldl (fun d e => d.insert e.1 e.2) empty

/-- The dictionary with every value replaced by its image. -/
def map (f : β → γ) (d : Dict β) : Dict γ :=
  ⟨d.toList.map fun e => (e.1, f e.2), List.pairwise_map.2 d.sorted⟩

/-- The dictionary in which the value of `k` is `f` of what it was. -/
def update (d : Dict β) (k : String) (f : Option β → β) : Dict β :=
  d.insert k (f (d.get? k))

/-! ### Look-ups -/

@[simp] theorem get?_empty (k : String) : (∅ : Dict β).get? k = none := rfl

theorem lookupList_insertList {k x : String} {v : β} {ys : List (String × β)} :
    lookupList x (insertList k v ys) = if x = k then some v else lookupList x ys := by
  induction ys with
  | nil => rfl
  | cons y ys ih =>
    simp only [insertList]
    split
    · rfl
    · split
      · rename_i hyk
        have hne : y.1 ≠ k := fun h => String.lt_irrefl k (h ▸ hyk)
        simp only [lookupList, ih]
        split
        · rename_i hx
          subst hx
          simp [hne]
        · rfl
      · rename_i h₁ h₂
        have hk : k = y.1 := String.le_antisymm (String.not_lt.1 h₂) (String.not_lt.1 h₁)
        subst hk
        simp only [lookupList]
        split <;> rfl

@[simp] theorem get?_insert (d : Dict β) (k x : String) (v : β) :
    (d.insert k v).get? x = if x = k then some v else d.get? x :=
  lookupList_insertList

theorem lookupList_map {f : β → γ} {x : String} {ys : List (String × β)} :
    lookupList x (ys.map fun e => (e.1, f e.2)) = (lookupList x ys).map f := by
  induction ys with
  | nil => rfl
  | cons y ys ih =>
    simp only [List.map_cons, lookupList, ih]
    split <;> rfl

@[simp] theorem get?_map (d : Dict β) (f : β → γ) (x : String) :
    (d.map f).get? x = (d.get? x).map f :=
  lookupList_map

theorem mem_of_lookupList {k : String} {v : β} {ys : List (String × β)}
    (h : lookupList k ys = some v) : (k, v) ∈ ys := by
  induction ys with
  | nil => cases h
  | cons y ys ih =>
    simp only [lookupList] at h
    split at h
    · rename_i hk
      cases h
      simp [hk]
    · exact List.mem_cons_of_mem _ (ih h)

theorem lookupList_of_mem {k : String} {v : β} {ys : List (String × β)}
    (hs : ys.Pairwise (·.1 < ·.1)) (h : (k, v) ∈ ys) : lookupList k ys = some v := by
  induction ys with
  | nil => cases h
  | cons y ys ih =>
    obtain ⟨hy, hys⟩ := List.pairwise_cons.1 hs
    rcases List.mem_cons.1 h with rfl | h
    · simp [lookupList]
    · have hne : k ≠ y.1 := fun hk => String.lt_irrefl k (by simpa [hk] using hy _ h)
      simpa [lookupList, hne] using ih hys h

theorem get?_eq_some_iff {d : Dict β} {k : String} {v : β} :
    d.get? k = some v ↔ (k, v) ∈ d.toList :=
  ⟨mem_of_lookupList, lookupList_of_mem d.sorted⟩

theorem ext {d e : Dict β} (h : ∀ k, d.get? k = e.get? k) : d = e := by
  obtain ⟨xs, hx⟩ := d
  obtain ⟨ys, hy⟩ := e
  have hmem : ∀ a, a ∈ xs ↔ a ∈ ys := fun a => by
    have := h a.1
    constructor
    · intro ha
      exact get?_eq_some_iff.1 (this ▸ get?_eq_some_iff.2 ha : Dict.get? ⟨ys, hy⟩ a.1 = some a.2)
    · intro ha
      exact get?_eq_some_iff.1 (this ▸ get?_eq_some_iff.2 ha : Dict.get? ⟨xs, hx⟩ a.1 = some a.2)
  have hnodup {zs : List (String × β)} (hz : zs.Pairwise (·.1 < ·.1)) : zs.Nodup :=
    List.Pairwise.imp (fun {a b} hab (he : a = b) => String.lt_irrefl a.1 (by simp [he] at hab)) hz
  have hperm : xs.Perm ys := (List.perm_ext_iff_of_nodup (hnodup hx) (hnodup hy)).2 hmem
  congr
  exact hperm.eq_of_pairwise
    (fun a b _ _ h₁ h₂ => absurd (String.lt_trans h₁ h₂) (String.lt_irrefl a.1)) hx hy

end Dict

end Matchmaking
