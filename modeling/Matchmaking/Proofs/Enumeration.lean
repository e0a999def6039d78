import Mathlib.Data.List.Chain
import Mathlib.Data.List.Perm.Subperm
import Mathlib.Data.List.Permutation
import Mathlib.Data.List.Rotate
import Matchmaking.Proofs.Orderings

/-!
# All orders of a tail

From one permutation to the next one, none is left out (`mem_nextPermutations`): a list
whose numbers are in order goes through all of its permutations
(`length_nextPermutations`). So the orders of a tail are known in full, how many there are
and which one comes when (`Orderings.Enumerates`).

Orders are asked for one by one. Whoever asks gets these orders in turn, and none ever
again after the last one (`OrderSource.answers_eq`).
-/

namespace Matchmaking

/-! ## From one permutation to the next -/

variable {xs ys zs : List Nat} {n : Nat}

/-- Each permutation is followed by the next one. -/
theorem isChain_nextPermutations (n : Nat) (xs : List Nat) :
    (xs :: nextPermutations n xs).IsChain Follows := by
  induction n generalizing xs with
  | zero => exact .singleton xs
  | succ n ih =>
    rw [nextPermutations]
    cases h : nextPermutation? xs with
    | none => exact .singleton xs
    | some ys => exact .cons_cons (follows_of_nextPermutation? h) (ih ys)

/-- What follows in turn is a permutation of what comes first, and greater. -/
theorem pairwise_of_isChain_follows {l : List (List Nat)} (h : l.IsChain Follows) :
    l.Pairwise fun xs ys => ys.Perm xs ∧ xs < ys :=
  have : IsTrans (List Nat) fun xs ys => ys.Perm xs ∧ xs < ys :=
    ⟨fun _ _ _ h h' => ⟨h'.1.trans h.1, lt_trans h.2 h'.2⟩⟩
  (h.imp fun _ _ h => ⟨h.perm, h.lt⟩).pairwise

theorem perm_of_mem_nextPermutations (h : ys ∈ nextPermutations n xs) : ys.Perm xs :=
  ((List.pairwise_cons.1 (pairwise_of_isChain_follows (isChain_nextPermutations n xs))).1 ys h).1

/-- If there are fewer permutations to come than are asked for, every greater one comes. -/
theorem mem_nextPermutations (h : (nextPermutations n xs).length < n) (hperm : zs.Perm xs)
    (hlt : xs < zs) : zs ∈ nextPermutations n xs := by
  induction n generalizing xs with
  | zero => exact absurd h (Nat.not_lt_zero _)
  | succ n ih =>
    rw [nextPermutations] at h ⊢
    cases hnext : nextPermutation? xs with
    | none => exact absurd hlt (le_of_nextPermutation? hnext hperm).not_gt
    | some ys =>
      have hfollows := follows_of_nextPermutation? hnext
      rw [hnext] at h
      rcases (hfollows.least zs hperm hlt).eq_or_lt with rfl | hys
      · exact List.mem_cons_self
      · exact List.mem_cons_of_mem _ (ih (Nat.lt_of_succ_lt_succ h)
          (hperm.trans hfollows.perm.symm) hys)

/-- Numbers in order go through all of their permutations. -/
theorem length_nextPermutations (hxs : xs.Pairwise (· < ·)) (n : Nat) :
    (nextPermutations n xs).length = min n (xs.length.factorial - 1) := by
  have hnodup : xs.permutations.Nodup := List.nodup_permutations xs (hxs.imp Nat.ne_of_lt)
  -- As many permutations as there can be, and this one before them.
  let all := xs :: nextPermutations (max n xs.length.factorial) xs
  have hall : all.Pairwise fun xs ys => ys.Perm xs ∧ xs < ys :=
    pairwise_of_isChain_follows (isChain_nextPermutations _ xs)
  have hknown : all ⊆ xs.permutations := fun ys hys => by
    rcases List.mem_cons.1 hys with rfl | hys
    · exact List.mem_permutations.2 (.refl _)
    · exact List.mem_permutations.2 (perm_of_mem_nextPermutations hys)
  have hle : all.length ≤ xs.length.factorial := by
    rw [← List.length_permutations]
    exact (List.Nodup.subperm (hall.imp fun h => h.2.ne) hknown).length_le
  -- There are no more of them, so none is left out.
  have hmem : xs.permutations ⊆ all := fun zs hzs => by
    have hperm := List.mem_permutations.1 hzs
    rcases (le_of_pairwise_le (hxs.imp Nat.le_of_lt) hperm).eq_or_lt with rfl | hlt
    · exact List.mem_cons_self
    · exact List.mem_cons_of_mem _ (mem_nextPermutations
        (Nat.lt_of_lt_of_le (Nat.lt_of_succ_le hle) (Nat.le_max_right _ _)) hperm hlt)
  have hlength : all.length = xs.length.factorial := by
    refine Nat.le_antisymm hle ?_
    rw [← List.length_permutations]
    exact (List.Nodup.subperm hnodup hmem).length_le
  rw [← take_nextPermutations (Nat.le_max_left n xs.length.factorial), List.length_take]
  exact congrArg (min n) (Nat.eq_sub_of_add_eq hlength)

/-- Every permutation that is greater than numbers in order comes after them. -/
theorem mem_nextPermutations_of_lt (hxs : xs.Pairwise (· < ·)) (hn : xs.length.factorial - 1 ≤ n)
    (hperm : zs.Perm xs) (hlt : xs < zs) : zs ∈ nextPermutations n xs := by
  have hlength : (nextPermutations (n + 1) xs).length ≤ n := by
    rw [length_nextPermutations hxs]
    omega
  rw [← take_nextPermutations (Nat.le_succ n), List.take_of_length_le hlength]
  exact mem_nextPermutations (Nat.lt_succ_of_le hlength) hperm hlt

/-! ## Rotations and permutations -/

theorem rotationsOf_eq (xs : List Nat) :
    rotationsOf xs = (List.range (max xs.length 1)).map xs.rotate := by
  refine List.map_congr_left fun i hi => (List.rotate_eq_drop_append_take ?_).symm
  have := List.mem_range.1 hi
  omega

theorem length_rotationsOf (xs : List Nat) : (rotationsOf xs).length = max xs.length 1 := by
  rw [rotationsOf, List.length_map, List.length_range]

theorem take_ordersOf (n : Nat) (xs : List Nat) :
    (ordersOf n xs).take (max xs.length 1) = (rotationsOf xs).take n := by
  rw [ordersOf, List.take_take, Nat.min_comm, ← List.take_take, ← length_rotationsOf,
    List.take_left]

theorem drop_ordersOf (n : Nat) (xs : List Nat) :
    (ordersOf n xs).drop (max xs.length 1) = nextPermutations (n - max xs.length 1) xs := by
  rw [ordersOf, List.drop_take, ← length_rotationsOf, List.drop_left,
    take_nextPermutations (Nat.sub_le n _)]

theorem perm_of_mem_ordersOf (h : ys ∈ ordersOf n xs) : ys.Perm xs := by
  rcases List.mem_append.1 (List.mem_of_mem_take h) with h | h
  · rw [rotationsOf_eq] at h
    obtain ⟨i, _, rfl⟩ := List.mem_map.1 h
    exact List.rotate_perm xs i
  · exact perm_of_mem_nextPermutations h

theorem length_ordersOf (hxs : xs.Pairwise (· < ·)) (n : Nat) :
    (ordersOf n xs).length = min n (max xs.length 1 + xs.length.factorial - 1) := by
  have hpos := Nat.factorial_pos xs.length
  rw [ordersOf, List.length_take, List.length_append, length_rotationsOf,
    length_nextPermutations hxs]
  omega

/-- Numbers in order come in all of their orders, if as many may come. -/
theorem mem_ordersOf (hxs : xs.Pairwise (· < ·))
    (hn : max xs.length 1 + xs.length.factorial - 1 ≤ n) (hperm : ys.Perm xs) :
    ys ∈ ordersOf n xs := by
  have hpos := Nat.factorial_pos xs.length
  rcases (le_of_pairwise_le (hxs.imp Nat.le_of_lt) hperm).eq_or_lt with rfl | hlt
  · refine List.mem_of_mem_take (i := max xs.length 1) ?_
    rw [take_ordersOf, rotationsOf_eq, List.take_of_length_le (by simp; omega)]
    exact List.mem_map.2 ⟨0, by simp, List.rotate_zero xs⟩
  · refine List.mem_of_mem_drop (i := max xs.length 1) ?_
    rw [drop_ordersOf]
    exact mem_nextPermutations_of_lt hxs (by omega) hperm hlt

/-! ## The orders that are asked for -/

/-- Orders that are asked for one by one. -/
structure OrderSource where
  /-- The orders that are still to come. -/
  orderings : Orderings
  /-- How many of them may be asked for. -/
  left : Nat

namespace OrderSource

/-- The next order, if there is one and it may be asked for. When there is none, no more
    may be asked for. -/
def ask (s : OrderSource) : Option (List Nat) × OrderSource :=
  match s.left with
  | 0 => (none, s)
  | n + 1 =>
    match s.orderings.next? with
    | none => (none, { s with left := 0 })
    | some (order, rest) => (some order, ⟨rest, n⟩)

/-- What one gets who asks so many times. -/
def answers : Nat → OrderSource → List (Option (List Nat))
  | 0, _ => []
  | k + 1, s => s.ask.1 :: answers k s.ask.2

theorem answers_of_left_eq_zero {s : OrderSource} (h : s.left = 0) (k : Nat) :
    s.answers k = List.replicate k none := by
  induction k with
  | zero => rfl
  | succ k ih =>
    have hask : s.ask = (none, s) := by rw [ask, h]
    rw [answers, hask, ih]
    rfl

/-- The orders come in turn, and after the last one nothing comes any more. -/
theorem answers_eq (s : OrderSource) (k : Nat) :
    s.answers k = ((s.orderings.take s.left).map some ++ List.replicate k none).take k := by
  obtain ⟨o, left⟩ := s
  induction k generalizing o left with
  | zero => rfl
  | succ k ih =>
    cases left with
    | zero => rw [answers_of_left_eq_zero rfl]; simp [Orderings.take]
    | succ n =>
      rw [answers, ask, Orderings.take]
      cases o.next? with
      | none =>
        rw [answers_of_left_eq_zero rfl]
        simp [List.replicate_succ]
      | some next =>
        obtain ⟨order, rest⟩ := next
        simp only [ih, List.map_cons, List.cons_append, List.take_succ_cons, List.take_append,
          List.take_replicate, List.length_map]
        congr 3
        omega

end OrderSource

/-! ## What the orders are -/

/-- What comes before the numbers that change stays in front. -/
theorem Follows.append_left (h : Follows xs ys) (zs : List Nat) :
    Follows (zs ++ xs) (zs ++ ys) := by
  induction zs with
  | nil => exact h
  | cons z zs ih => exact ih.cons z

namespace Orderings

/-- The orders of `fixed + count` numbers, the first `fixed` of which stay in front and the
    others are the tail, are these, if there may be no more than `cap`. First come the
    rotations of the tail and then its permutations, from the least one on, each of which is
    the next one after that before it among all permutations of the numbers. -/
structure Enumerates (fixed count cap : Nat) (orders : List (List Nat)) : Prop where
  length : orders.length = min cap (max count 1 + count.factorial - 1)
  perm : ∀ order ∈ orders, order.Perm (List.range (fixed + count)) ∧ List.range fixed <+: order
  rotations : orders.take (max count 1) = ((List.range (max count 1)).map fun i =>
    List.range fixed ++ (List.range' fixed count).rotate i).take cap
  follows : (List.range (fixed + count) :: orders.drop (max count 1)).IsChain Follows
  ascending : (List.range (fixed + count) :: orders.drop (max count 1)).Pairwise (· < ·)
  complete : max count 1 + count.factorial - 1 ≤ cap → ∀ order : List Nat,
    order.Perm (List.range (fixed + count)) → List.range fixed <+: order → order ∈ orders

/-- Numbers that stay, and orders of the others behind them. -/
theorem enumerates_map (fixed count cap : Nat) :
    Enumerates fixed count cap
      ((ordersOf cap (List.range' fixed count)).map (List.range fixed ++ ·)) := by
  have htail : (List.range' fixed count).Pairwise (· < ·) := List.pairwise_lt_range'
  have hrange : List.range (fixed + count) = List.range fixed ++ List.range' fixed count := by
    rw [List.range_add, List.range'_eq_map_range]
  have hfollows : (List.range (fixed + count) ::
      ((ordersOf cap (List.range' fixed count)).map (List.range fixed ++ ·)).drop
        (max count 1)).IsChain Follows := by
    have hdrop := drop_ordersOf cap (List.range' fixed count)
    rw [List.length_range'] at hdrop
    rw [← List.map_drop, hdrop, hrange, ← List.map_cons (f := (List.range fixed ++ ·))]
    exact List.isChain_map_of_isChain _ (fun _ _ h => h.append_left _)
      (isChain_nextPermutations _ _)
  refine ⟨?_, fun order horder => ?_, ?_, hfollows,
    (pairwise_of_isChain_follows hfollows).imp And.right, fun hcap order hperm hfixed => ?_⟩
  · rw [List.length_map, length_ordersOf htail, List.length_range']
  · obtain ⟨tail, h, rfl⟩ := List.mem_map.1 horder
    exact ⟨hrange ▸ (perm_of_mem_ordersOf h).append_left _, List.prefix_append _ _⟩
  · have htake := take_ordersOf cap (List.range' fixed count)
    rw [List.length_range', rotationsOf_eq, List.length_range'] at htake
    rw [← List.map_take, htake, List.map_take, List.map_map]
    rfl
  · obtain ⟨tail, rfl⟩ := hfixed
    rw [hrange, List.perm_append_left_iff] at hperm
    refine List.mem_map_of_mem (mem_ordersOf htail ?_ hperm)
    rwa [List.length_range']

/-- The orders that one gets who asks for them one by one, at most `cap`, are all that there
    are; after the last one nothing comes any more. -/
theorem answers_enumerates (length pinned cap : Nat) :
    ∃ orders, Enumerates (min pinned length) (length - min pinned length) cap orders ∧
      ∀ calls, (OrderSource.mk (new length pinned) cap).answers calls =
        (orders.map some ++ List.replicate calls none).take calls := by
  refine ⟨(new length pinned).take cap, ?_, fun calls => OrderSource.answers_eq _ calls⟩
  rw [take_new]
  exact enumerates_map _ _ cap

/-- Three rotations of a tail of three numbers, and five more permutations. -/
example : (new 4 1).take 100 = [[0, 1, 2, 3], [0, 2, 3, 1], [0, 3, 1, 2], [0, 1, 3, 2],
    [0, 2, 1, 3], [0, 2, 3, 1], [0, 3, 1, 2], [0, 3, 2, 1]] := by decide

end Orderings

end Matchmaking
