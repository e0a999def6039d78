import Mathlib.Data.List.Lex
import Mathlib.Data.List.Perm.Basic
import Mathlib.Order.Monotone.Basic
import Matchmaking.Orderings

/-!
# Orders of a tail

Some numbers of an order stay in front, and the others, its tail, come in orders of their
own: first its rotations and then its permutations (`Orderings.take_new`). The permutations
come in lexicographic order, none of them left out: the next one is the least of those
that are greater (`follows_of_nextPermutation?`), and after the last one there is none that
is greater (`le_of_nextPermutation?`).

What numbers are called is no matter, as long as they keep their order
(`ordersOf_map`).
-/

namespace Matchmaking

/-! ## Lists in lexicographic order -/

/-- Numbers that do not decrease are the least of their permutations. -/
theorem le_of_pairwise_le {xs ys : List Nat} (hxs : xs.Pairwise (· ≤ ·)) (h : ys.Perm xs) :
    xs ≤ ys := by
  rw [← not_lt]
  induction xs generalizing ys with
  | nil => rw [h.eq_nil]; exact List.lt_irrefl []
  | cons x xs ih =>
    obtain ⟨hx, hrest⟩ := List.pairwise_cons.1 hxs
    cases ys with
    | nil => cases h.nil_eq
    | cons y ys =>
      rw [List.cons_lt_cons_iff]
      rintro (hlt | ⟨rfl, hlt⟩)
      · rcases List.mem_cons.1 (h.subset List.mem_cons_self) with rfl | hy
        · exact Nat.lt_irrefl _ hlt
        · exact Nat.not_lt.2 (hx y hy) hlt
      · exact ih hrest h.cons_inv hlt

/-- Numbers that do not increase are the greatest of their permutations. -/
theorem le_of_pairwise_ge {xs ys : List Nat} (hxs : xs.Pairwise (· ≥ ·)) (h : ys.Perm xs) :
    ys ≤ xs := by
  rw [← not_lt]
  induction xs generalizing ys with
  | nil => rw [h.eq_nil]; exact List.lt_irrefl []
  | cons x xs ih =>
    obtain ⟨hx, hrest⟩ := List.pairwise_cons.1 hxs
    cases ys with
    | nil => cases h.nil_eq
    | cons y ys =>
      rw [List.cons_lt_cons_iff]
      rintro (hlt | ⟨rfl, hlt⟩)
      · rcases List.mem_cons.1 (h.subset List.mem_cons_self) with rfl | hy
        · exact Nat.lt_irrefl _ hlt
        · exact Nat.not_lt.2 (hx y hy) hlt
      · exact ih hrest h.cons_inv hlt

/-- A list is the next one of its permutations: it is greater, and no permutation comes
    between. -/
structure Follows (xs ys : List Nat) : Prop where
  perm : ys.Perm xs
  lt : xs < ys
  least : ∀ zs, zs.Perm xs → xs < zs → ys ≤ zs

/-- What comes before the numbers that change may be left out of sight. -/
theorem Follows.cons {xs ys : List Nat} (h : Follows xs ys) (x : Nat) :
    Follows (x :: xs) (x :: ys) where
  perm := h.perm.cons x
  lt := List.cons_lt_cons_iff.2 (.inr ⟨rfl, h.lt⟩)
  least := fun zs hperm hlt => by
    cases zs with
    | nil => cases hperm.nil_eq
    | cons z zs =>
      rcases List.cons_lt_cons_iff.1 hlt with hhead | ⟨rfl, htail⟩
      · exact le_of_lt (List.cons_lt_cons_iff.2 (.inl hhead))
      · rw [← not_lt, List.cons_lt_cons_iff, not_or]
        exact ⟨Nat.lt_irrefl x, fun hz => (h.least zs hperm.cons_inv htail).not_gt hz.2⟩

/-- What is not behind the next permutation is the next one or not behind this one. -/
theorem Follows.eq_or_le {xs ys zs : List Nat} (h : Follows xs ys) (hperm : zs.Perm xs)
    (hzs : zs ≤ ys) : zs = ys ∨ zs ≤ xs := by
  by_cases hlt : xs < zs
  · exact .inl (le_antisymm hzs (h.least zs hperm hlt))
  · exact .inr (not_lt.1 hlt)

/-- Behind a number that grows, the others are put in order. -/
theorem follows_of_pairwise_ge {x y : Nat} {upper lower : List Nat}
    (hge : (upper ++ y :: lower).Pairwise (· ≥ ·)) (hxy : x < y) (hlower : ∀ z ∈ lower, z ≤ x) :
    Follows (x :: (upper ++ y :: lower)) (y :: (upper ++ x :: lower).reverse) := by
  have hperm : (y :: (upper ++ x :: lower).reverse).Perm (x :: (upper ++ y :: lower)) := by
    refine ((List.reverse_perm _).cons y).trans ?_
    exact ((List.perm_middle.cons y).trans (.swap _ _ _)).trans (List.perm_middle.symm.cons x)
  refine ⟨hperm, List.cons_lt_cons_iff.2 (.inl hxy), fun zs hzs hlt => ?_⟩
  cases zs with
  | nil => cases hzs.nil_eq
  | cons z zs =>
    rcases List.cons_lt_cons_iff.1 hlt with hxz | ⟨rfl, htail⟩
    · rw [← not_lt, List.cons_lt_cons_iff]
      rintro (hzy | ⟨rfl, hrev⟩)
      · -- Of the numbers above `x`, the least is `y`.
        rcases List.mem_cons.1 (hzs.subset List.mem_cons_self) with rfl | hz
        · exact Nat.lt_irrefl _ hxz
        · rcases List.mem_append.1 hz with hz | hz
          · exact Nat.not_lt.2 ((List.pairwise_append.1 hge).2.2 z hz y List.mem_cons_self) hzy
          · rcases List.mem_cons.1 hz with heq | hz
            · exact Nat.lt_irrefl _ (heq ▸ hzy)
            · exact Nat.not_lt.2 (hlower z hz) hxz
      · refine (le_of_pairwise_le (List.pairwise_reverse.2 ?_)
          (hzs.trans hperm.symm).cons_inv).not_gt hrev
        obtain ⟨hupper, hrest, hcross⟩ := List.pairwise_append.1 hge
        obtain ⟨hy, hrest⟩ := List.pairwise_cons.1 hrest
        refine List.pairwise_append.2 ⟨hupper, hrest.cons hlower, fun u hu v hv => ?_⟩
        have hyu : z ≤ u := hcross u hu z List.mem_cons_self
        rcases List.mem_cons.1 hv with rfl | hv
        · exact Nat.le_trans (Nat.le_of_lt hxy) hyu
        · exact Nat.le_trans (hy v hv) hyu
    · exact absurd htail (le_of_pairwise_ge hge hzs.cons_inv).not_gt

/-- The last number above another one, in a list that does not increase. -/
theorem exists_split_of_takeWhile {x : Nat} {xs : List Nat} (hxs : xs.Pairwise (· ≥ ·))
    (h : xs.takeWhile (x < ·) ≠ []) :
    ∃ (upper : List Nat) (y : Nat) (lower : List Nat), xs = upper ++ y :: lower ∧ x < y ∧
      (∀ z ∈ lower, z ≤ x) ∧ xs.takeWhile (x < ·) = upper ++ [y] ∧
      xs.dropWhile (x < ·) = lower := by
  obtain ⟨upper, y, hupper⟩ := (List.eq_nil_or_concat (xs.takeWhile (x < ·))).resolve_left h
  rw [List.concat_eq_append] at hupper
  have hsplit : xs.takeWhile (x < ·) ++ xs.dropWhile (x < ·) = xs := List.takeWhile_append_dropWhile
  refine ⟨upper, y, xs.dropWhile (x < ·), ?_, ?_, ?_, hupper, rfl⟩
  · rw [List.append_cons, ← hupper, hsplit]
  · have hall := List.all_eq_true.1 (List.all_takeWhile (l := xs) (p := (x < ·)))
    exact of_decide_eq_true (hall y (hupper ▸ List.mem_concat_self))
  · intro z hz
    cases hdrop : xs.dropWhile (x < ·) with
    | nil => rw [hdrop] at hz; cases hz
    | cons w ws =>
      have hw : w ≤ x := by
        have := List.head?_dropWhile_not (fun y => decide (x < y)) xs
        simpa [hdrop] using this
      rw [← hsplit, hdrop] at hxs
      rw [hdrop] at hz
      rcases List.mem_cons.1 hz with rfl | hz
      · exact hw
      · exact Nat.le_trans (List.rel_of_pairwise_cons (List.pairwise_append.1 hxs).2.1 hz) hw

theorem nextPermutation?_cons_of_none {xs : List Nat} (h : nextPermutation? xs = none) (x : Nat) :
    nextPermutation? (x :: xs) =
      if hupper : xs.takeWhile (x < ·) = [] then none
      else some ((xs.takeWhile (x < ·)).getLast hupper ::
        ((xs.takeWhile (x < ·)).dropLast ++ x :: xs.dropWhile (x < ·)).reverse) := by
  rw [nextPermutation?, h]
  cases xs.takeWhile (x < ·) <;> rfl

/-- There is a next permutation unless the numbers do not increase; it is the least of
    those that are greater. -/
theorem nextPermutation?_spec (xs : List Nat) :
    (nextPermutation? xs = none ∧ xs.Pairwise (· ≥ ·)) ∨
      ∃ ys, nextPermutation? xs = some ys ∧ Follows xs ys := by
  induction xs with
  | nil => exact .inl ⟨rfl, .nil⟩
  | cons x xs ih =>
    rcases ih with ⟨hnone, hge⟩ | ⟨ys, hys, hfollows⟩
    · rw [nextPermutation?_cons_of_none hnone]
      by_cases hupper : xs.takeWhile (x < ·) = []
      · refine .inl ⟨dif_pos hupper, hge.cons fun y hy => ?_⟩
        cases xs with
        | nil => cases hy
        | cons w ws =>
          have hw : w ≤ x := by simpa [List.takeWhile_cons] using hupper
          rcases List.mem_cons.1 hy with rfl | hy
          · exact hw
          · exact Nat.le_trans (List.rel_of_pairwise_cons hge hy) hw
      · obtain ⟨upper, y, lower, rfl, hxy, hlower, htake, hdrop⟩ :=
          exists_split_of_takeWhile hge hupper
        refine .inr ⟨_, ?_, follows_of_pairwise_ge hge hxy hlower⟩
        simp [htake, hdrop]
    · refine .inr ⟨x :: ys, ?_, hfollows.cons x⟩
      rw [nextPermutation?, hys]

theorem follows_of_nextPermutation? {xs ys : List Nat} (h : nextPermutation? xs = some ys) :
    Follows xs ys := by
  rcases nextPermutation?_spec xs with ⟨hnone, _⟩ | ⟨zs, hzs, hfollows⟩
  · rw [hnone] at h
    cases h
  · rw [h] at hzs
    cases hzs
    exact hfollows

/-- The last permutation is the greatest. -/
theorem le_of_nextPermutation? {xs ys : List Nat} (h : nextPermutation? xs = none)
    (hperm : ys.Perm xs) : ys ≤ xs := by
  rcases nextPermutation?_spec xs with ⟨_, hge⟩ | ⟨zs, hzs, _⟩
  · exact le_of_pairwise_ge hge hperm
  · rw [h] at hzs
    cases hzs

/-! ## The orders of a tail -/

/-- The next permutations, at most so many. -/
def nextPermutations : Nat → List Nat → List (List Nat)
  | 0, _ => []
  | n + 1, xs =>
    match nextPermutation? xs with
    | none => []
    | some ys => ys :: nextPermutations n ys

/-- Each number once in front, in the order of the list; a list without numbers is its
    own rotation. -/
def rotationsOf (xs : List Nat) : List (List Nat) := (List.range (max xs.length 1)).map (rotate xs)

/-- The orders of a tail, at most so many: its rotations and then its permutations. -/
def ordersOf (n : Nat) (tail : List Nat) : List (List Nat) :=
  (rotationsOf tail ++ nextPermutations n tail).take n

theorem take_nextPermutations {n k : Nat} (h : k ≤ n) (xs : List Nat) :
    (nextPermutations n xs).take k = nextPermutations k xs := by
  induction k generalizing n xs with
  | zero => rw [List.take_zero, nextPermutations]
  | succ k ih =>
    obtain ⟨n, rfl⟩ : ∃ m, n = m + 1 := ⟨n - 1, by omega⟩
    rw [nextPermutations, nextPermutations]
    cases nextPermutation? xs with
    | none => rfl
    | some ys => exact congrArg (ys :: ·) (ih (Nat.le_of_succ_le_succ h) ys)

namespace Orderings

/-- Once all rotations are made, permutations come. -/
theorem take_permutations (n : Nat) {o : Orderings} (h : max o.tailLength 1 ≤ o.rotations) :
    o.take n = (nextPermutations n (o.permutation.getD o.tail)).map (o.fixed ++ ·) := by
  induction n generalizing o with
  | zero => rfl
  | succ n ih =>
    rw [take, next?, if_neg (Nat.not_lt.2 h), nextPermutations]
    cases hp : nextPermutation? (o.permutation.getD o.tail) with
    | none => rfl
    | some p => exact congrArg (_ :: ·) (ih (o := { o with permutation := some p }) h)

/-- The rotations that are still to come, and then permutations. -/
theorem take_rotations {n limit : Nat} (hn : n ≤ limit) {o : Orderings}
    (ho : o.permutation = none) {k : Nat} (hk : o.rotations + k = max o.tailLength 1) :
    o.take n = (((List.range' o.rotations k).map (rotate o.tail) ++
      nextPermutations limit o.tail).take n).map (o.fixed ++ ·) := by
  induction k generalizing n o with
  | zero =>
    rw [take_permutations n (by omega), ho, List.range'_zero, List.map_nil, List.nil_append,
      take_nextPermutations hn]
    rfl
  | succ k ih =>
    cases n with
    | zero => rfl
    | succ n =>
      have hk : o.rotations + 1 + k = max o.tailLength 1 := by omega
      have hrest := ih (Nat.le_of_succ_le hn) (o := { o with rotations := o.rotations + 1 }) ho hk
      rw [take, next?, if_pos (by omega)]
      exact (congrArg (_ :: ·) hrest).trans rfl

/-- The numbers that stay come before the orders of the others. -/
theorem take_new (n length pinned : Nat) :
    (new length pinned).take n =
      (ordersOf n (new length pinned).tail).map ((new length pinned).fixed ++ ·) := by
  rw [take_rotations (Nat.le_refl n) rfl (Nat.zero_add _), ordersOf, rotationsOf,
    List.range_eq_range', tail, List.length_range']
  rfl

/-- A greater cap adds orders behind those that there were. -/
theorem take_prefix {a b : Nat} (h : a ≤ b) (o : Orderings) : o.take a <+: o.take b := by
  induction a generalizing b o with
  | zero => exact List.nil_prefix
  | succ a ih =>
    cases b with
    | zero => exact absurd h (Nat.not_succ_le_zero a)
    | succ b =>
      rw [take, take]
      cases o.next? with
      | none => exact List.prefix_rfl
      | some next =>
        exact (List.prefix_cons_inj next.1).2 (ih (Nat.le_of_succ_le_succ h) next.2)

end Orderings

/-! ### Numbers under other names -/

section Map

variable {f : Nat → Nat}

theorem nextPermutation?_map (hf : StrictMono f) (xs : List Nat) :
    nextPermutation? (xs.map f) = (nextPermutation? xs).map (List.map f) := by
  induction xs with
  | nil => rfl
  | cons x xs ih =>
    have hlt : (fun y => decide (f x < y)) ∘ f = fun y => decide (x < y) :=
      funext fun y => by simp [hf.lt_iff_lt]
    cases hxs : nextPermutation? xs with
    | some ys => rw [List.map_cons, nextPermutation?, nextPermutation?, ih, hxs]; rfl
    | none =>
      rw [hxs] at ih
      rw [List.map_cons, nextPermutation?_cons_of_none ih, nextPermutation?_cons_of_none hxs]
      simp only [List.takeWhile_map, List.dropWhile_map, hlt, List.map_eq_nil_iff]
      split_ifs
      · rfl
      · simp [List.map_dropLast, List.getLast_map]

theorem nextPermutations_map (hf : StrictMono f) (n : Nat) (xs : List Nat) :
    nextPermutations n (xs.map f) = (nextPermutations n xs).map (List.map f) := by
  induction n generalizing xs with
  | zero => rfl
  | succ n ih =>
    rw [nextPermutations, nextPermutations, nextPermutation?_map hf]
    cases nextPermutation? xs with
    | none => rfl
    | some ys => exact congrArg (ys.map f :: ·) (ih ys)

/-- Orders of numbers under other names are the orders of the numbers. -/
theorem ordersOf_map (hf : StrictMono f) (n : Nat) (xs : List Nat) :
    ordersOf n (xs.map f) = (ordersOf n xs).map (List.map f) := by
  have hrotations : rotationsOf (xs.map f) = (rotationsOf xs).map (List.map f) := by
    simp [rotationsOf, rotate, Function.comp_def, List.map_take, List.map_drop]
  rw [ordersOf, hrotations, nextPermutations_map hf, ← List.map_append, ← List.map_take, ← ordersOf]

end Map

end Matchmaking
