/-!
# Rankings

A ranking is a comparison function. Lists are sorted by a ranking, equal entries
staying in order. Of several greatest entries of a list, either the first or the
last one is taken.
-/

namespace Matchmaking

variable {β : Type}

/-- The list sorted by a ranking, the least entry first. -/
def sortBy (rank : β → β → Ordering) (xs : List β) : List β :=
  xs.mergeSort fun a b => (rank a b).isLE

theorem sortBy_perm (rank : β → β → Ordering) (xs : List β) : (sortBy rank xs).Perm xs :=
  List.mergeSort_perm _ _

theorem mem_sortBy {rank : β → β → Ordering} {xs : List β} {x : β} :
    x ∈ sortBy rank xs ↔ x ∈ xs :=
  (sortBy_perm rank xs).mem_iff

/-- A list that is in order stays as it is. -/
theorem sortBy_eq_self {rank : β → β → Ordering} {xs : List β}
    (h : xs.Pairwise fun a b => (rank a b).isLE = true) : sortBy rank xs = xs :=
  List.mergeSort_of_pairwise h

/-- Every entry of the sorted list is ranked no higher than those after it. -/
theorem pairwise_sortBy (rank : β → β → Ordering) [Std.TransCmp rank] (xs : List β) :
    (sortBy rank xs).Pairwise fun a b => (rank a b).isLE = true := by
  refine List.pairwise_mergeSort (fun _ _ _ => Std.TransCmp.isLE_trans) (fun a b => ?_) xs
  have hswap : rank b a = (rank a b).swap := Std.OrientedCmp.eq_swap
  rw [hswap]
  cases rank a b <;> rfl

/-- Where equally ranked entries are the same, the order in which a list comes is no
    matter. -/
theorem sortBy_eq_of_perm {rank : β → β → Ordering} [Std.TransCmp rank] {xs ys : List β}
    (h : xs.Perm ys) (hxs : ∀ a ∈ xs, ∀ b ∈ xs, rank a b = .eq → a = b) :
    sortBy rank xs = sortBy rank ys := by
  have hperm : (sortBy rank xs).Perm (sortBy rank ys) :=
    (sortBy_perm rank xs).trans (h.trans (sortBy_perm rank ys).symm)
  refine hperm.eq_of_pairwise (fun a b ha hb hab hba => ?_) (pairwise_sortBy rank xs)
    (pairwise_sortBy rank ys)
  exact hxs a (mem_sortBy.1 ha) b (h.mem_iff.2 (mem_sortBy.1 hb))
    (Std.OrientedCmp.isLE_antisymm hab hba)

/-- A ranking of what entries have is one of the entries. -/
theorem transCmp_on {γ : Type} (rank : γ → γ → Ordering) [Std.TransCmp rank] (f : β → γ) :
    Std.TransCmp fun a b => rank (f a) (f b) where
  eq_swap := Std.OrientedCmp.eq_swap
  isLE_trans := Std.TransCmp.isLE_trans

/-- A ranking may have the greatest entry first. -/
theorem transCmp_swap (rank : β → β → Ordering) [Std.TransCmp rank] :
    Std.TransCmp fun a b => rank b a := Std.TransCmp.opposite

/-- The greater of two entries, the second if they are equal. -/
def laterGreater (rank : β → β → Ordering) (a b : β) : β := if rank a b = .gt then a else b

/-- The greater of two entries, the first if they are equal. -/
def earlierGreater (rank : β → β → Ordering) (a b : β) : β := if rank a b = .lt then b else a

theorem foldl_earlierGreater_mem (rank : β → β → Ordering) (xs : List β) (y : β) :
    xs.foldl (earlierGreater rank) y ∈ y :: xs := by
  induction xs generalizing y with
  | nil => exact List.mem_singleton_self y
  | cons z xs ih =>
    rw [List.foldl_cons, earlierGreater]
    split
    · exact List.mem_cons_of_mem _ (ih z)
    · exact List.mem_cons.2 ((List.mem_cons.1 (ih y)).imp_right (List.mem_cons_of_mem _))

/-- The greatest entry of a list, the first one of them. -/
def firstGreatest? (rank : β → β → Ordering) : List β → Option β
  | [] => none
  | x :: xs => some (xs.foldl (earlierGreater rank) x)

theorem mem_of_firstGreatest? {rank : β → β → Ordering} {xs : List β} {x : β}
    (h : firstGreatest? rank xs = some x) : x ∈ xs := by
  cases xs with
  | nil => cases h
  | cons y xs => exact Option.some_inj.1 h ▸ foldl_earlierGreater_mem rank xs y

/-- The greatest entry of a list, the last one of them. -/
def lastGreatest? (rank : β → β → Ordering) : List β → Option β
  | [] => none
  | x :: xs => some (xs.foldl (laterGreater rank) x)

end Matchmaking
