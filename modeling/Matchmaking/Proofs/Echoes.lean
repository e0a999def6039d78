import Matchmaking.Proofs.Orderings

/-!
# Orders with a number more

A number more in the tail makes for more orders. Leaving it out of them gives the orders
without it, in the same order, but for some that come again (`Echoes`,
`Orderings.take_echoes`): a rotation comes twice, and a permutation with every place that
the number may have. What is less than a permutation without the number comes from
something less than the permutation (`exists_lt_of_leave`), so whatever comes for the first
time comes in its turn.

A number more in front makes no difference (`Orderings.take_succ_succ`).
-/

namespace Matchmaking

/-! ## Lists that echo another one -/

/-- The entries of a list come in the order of another one, but for some that were seen
    before. The other list may have further entries. -/
inductive Echoes {β : Type} : List β → List β → List β → Prop
  | done (seen ys : List β) : Echoes seen [] ys
  | next {seen xs ys : List β} {y : β} : Echoes (y :: seen) xs ys → Echoes seen (y :: xs) (y :: ys)
  | again {seen xs ys : List β} {x : β} : x ∈ seen → Echoes seen xs ys → Echoes seen (x :: xs) ys

namespace Echoes

variable {β γ : Type} {seen seen' xs ys : List β}

theorem mono (h : Echoes seen xs ys) (hseen : seen ⊆ seen') : Echoes seen' xs ys := by
  induction h generalizing seen' with
  | done => exact .done _ _
  | next _ ih => exact .next (ih (List.cons_subset_cons _ hseen))
  | again hx _ ih => exact .again (hseen hx) (ih hseen)

/-- What both lists begin with is seen. -/
theorem append (zs : List β) (h : Echoes (zs ++ seen) xs ys) :
    Echoes seen (zs ++ xs) (zs ++ ys) := by
  induction zs generalizing seen with
  | nil => exact h
  | cons z zs ih => exact .next (ih (h.mono List.perm_middle.symm.subset))

theorem refl (seen xs : List β) : Echoes seen xs xs := by
  simpa using append xs (.done (xs ++ seen) [])

theorem append_again {zs : List β} (hzs : zs ⊆ seen) (h : Echoes seen xs ys) :
    Echoes seen (zs ++ xs) ys := by
  induction zs with
  | nil => exact h
  | cons z zs ih =>
    obtain ⟨hz, hzs⟩ := List.cons_subset.1 hzs
    exact .again hz (ih hzs)

theorem take (h : Echoes seen xs ys) {n k : Nat} (hnk : n ≤ k) :
    Echoes seen (xs.take n) (ys.take k) := by
  induction h generalizing n k with
  | done => rw [List.take_nil]; exact .done _ _
  | @next seen xs ys y _ ih =>
    cases n with
    | zero => exact .done _ _
    | succ n =>
      obtain ⟨k, rfl⟩ : ∃ m, k = m + 1 := ⟨k - 1, by omega⟩
      exact .next (ih (Nat.le_of_succ_le_succ hnk))
  | again hx _ ih =>
    cases n with
    | zero => exact .done _ _
    | succ n => exact .again hx (ih (Nat.le_of_succ_le hnk))

theorem map (f : β → γ) (h : Echoes seen xs ys) : Echoes (seen.map f) (xs.map f) (ys.map f) := by
  induction h with
  | done => exact .done _ _
  | next _ ih => exact .next ih
  | again hx _ ih => exact .again (List.mem_map_of_mem hx) ih

theorem filterMap (f : β → Option γ) (h : Echoes seen xs ys) :
    Echoes (seen.filterMap f) (xs.filterMap f) (ys.filterMap f) := by
  induction h with
  | done => exact .done _ _
  | @next seen xs ys y _ ih =>
    cases hy : f y with
    | none => simpa only [List.filterMap_cons_none hy] using ih
    | some z =>
      rw [List.filterMap_cons_some hy] at ih ⊢
      rw [List.filterMap_cons_some hy]
      exact .next ih
  | @again seen xs ys x hx _ ih =>
    cases hx' : f x with
    | none => simpa only [List.filterMap_cons_none hx'] using ih
    | some z =>
      rw [List.filterMap_cons_some hx']
      exact .again (List.mem_filterMap.2 ⟨x, hx, hx'⟩) ih

end Echoes

/-! ## Lists without a number -/

/-- The list without a number. -/
def leave (j : Nat) (xs : List Nat) : List Nat := xs.filter (· ≠ j)

section Leave

variable {j : Nat} {us vs : List Nat}

theorem leave_perm {xs ys : List Nat} (h : xs.Perm ys) : (leave j xs).Perm (leave j ys) :=
  h.filter _

theorem leave_eq_self {xs : List Nat} (h : j ∉ xs) : leave j xs = xs :=
  List.filter_eq_self.2 fun x hx => by
    rw [decide_eq_true_iff]
    rintro rfl
    exact h hx

theorem leave_append (xs ys : List Nat) : leave j (xs ++ ys) = leave j xs ++ leave j ys :=
  List.filter_append _ _

theorem leave_middle (hus : j ∉ us) (hvs : j ∉ vs) : leave j (us ++ j :: vs) = us ++ vs := by
  rw [leave, List.filter_append, List.filter_cons_of_neg (by simp)]
  exact congrArg₂ _ (leave_eq_self hus) (leave_eq_self hvs)

/-- What is less than a list without a number is, without the number, something less than
    the list. -/
theorem exists_lt_of_leave {xs ys : List Nat} (hperm : ys.Perm (leave j xs))
    (h : ys < leave j xs) : ∃ zs, zs.Perm xs ∧ zs < xs ∧ leave j zs = ys := by
  induction xs generalizing ys with
  | nil => exact absurd h (List.not_lt_nil ys)
  | cons x xs ih =>
    by_cases hx : x = j
    · have hleave : leave j (x :: xs) = leave j xs := List.filter_cons_of_neg (by simpa using hx)
      rw [hleave] at hperm h
      obtain ⟨zs, hzs, hlt, rfl⟩ := ih hperm h
      refine ⟨x :: zs, hzs.cons x, List.cons_lt_cons_iff.2 (.inr ⟨rfl, hlt⟩), ?_⟩
      exact List.filter_cons_of_neg (by simpa using hx)
    · have hleave : leave j (x :: xs) = x :: leave j xs :=
        List.filter_cons_of_pos (by simpa using hx)
      rw [hleave] at hperm h
      cases ys with
      | nil => cases hperm.nil_eq
      | cons y ys =>
        rcases List.cons_lt_cons_iff.1 h with hyx | ⟨rfl, hlt⟩
        · -- The number comes right behind what is less.
          have hj : ∀ z ∈ y :: ys, z ≠ j := fun z hz => by
            rcases List.mem_cons.1 (hperm.subset hz) with rfl | hz
            · exact hx
            · simpa using (List.mem_filter.1 hz).2
          obtain ⟨hy, hys⟩ := List.forall_mem_cons.1 hj
          refine ⟨y :: (xs.filter (· = j) ++ ys), ?_, List.cons_lt_cons_iff.2 (.inl hyx), ?_⟩
          · refine (List.perm_middle.symm.trans (hperm.append_left _)).trans ?_
            refine List.perm_middle.trans (.cons x ?_)
            simpa [leave] using List.filter_append_perm (· = j) xs
          · have hnone : leave j (xs.filter (· = j)) = [] := by simp [leave]
            have hkeep : leave j (y :: ys) = y :: ys := leave_eq_self fun hmem => hj j hmem rfl
            rw [leave, List.filter_cons_of_pos (by simpa using hy)] at hkeep ⊢
            rw [List.filter_append, (List.cons.inj hkeep).2]
            exact congrArg (fun zs => y :: (zs ++ ys)) hnone
        · obtain ⟨zs, hzs, hless, rfl⟩ := ih hperm.cons_inv hlt
          refine ⟨y :: zs, hzs.cons y, List.cons_lt_cons_iff.2 (.inr ⟨rfl, hless⟩), ?_⟩
          exact List.filter_cons_of_pos (by simpa using hx)

/-! ## Orders without a number -/

/-- If the permutations up to `ps` have reached `qs` without a number, and the next one is
    past it, then this is the next one of the permutations without the number. -/
theorem nextPermutation?_leave {tail ps p qs : List Nat} (hps : ps.Perm tail) (hp : Follows ps p)
    (hperm : (leave j p).Perm qs) (hreached : ∀ zs, zs.Perm tail → zs ≤ ps → leave j zs ≤ qs)
    (hnew : qs < leave j p) : nextPermutation? qs = some (leave j p) := by
  have hptail : p.Perm tail := hp.perm.trans hps
  obtain ⟨q, hq⟩ : ∃ q, nextPermutation? qs = some q := by
    by_contra hnone
    exact (le_of_nextPermutation? (Option.not_isSome_iff_eq_none.1 fun h =>
      hnone (Option.isSome_iff_exists.1 h)) hperm).not_gt hnew
  have hfollows := follows_of_nextPermutation? hq
  have hle : q ≤ leave j p := hfollows.least _ hperm hnew
  refine hq.trans (congrArg some (hle.lt_or_eq.resolve_left fun hlt => ?_))
  obtain ⟨zs, hzs, hzsp, rfl⟩ := exists_lt_of_leave (hfollows.perm.trans hperm.symm) hlt
  rcases hp.eq_or_le (hzs.trans hp.perm) hzsp.le with rfl | hzsps
  · exact lt_irrefl _ hzsp
  · exact (hreached zs (hzs.trans hptail) hzsps).not_gt hfollows.lt

/-- The permutations of a list, from `ps` on, without a number, come in the order of the
    permutations without it from `qs` on: up to `ps` they have reached `qs`, and everything
    up to `qs` was seen. -/
theorem echoes_nextPermutations {tail ps qs : List Nat} {seen : List (List Nat)} {n k : Nat}
    (hnk : n ≤ k) (hps : ps.Perm tail) (hqs : ∃ zs, zs.Perm tail ∧ zs ≤ ps ∧ leave j zs = qs)
    (hreached : ∀ zs, zs.Perm tail → zs ≤ ps → leave j zs ≤ qs)
    (hseen : ∀ zs, zs.Perm qs → zs ≤ qs → zs ∈ seen) :
    Echoes seen ((nextPermutations n ps).map (leave j)) (nextPermutations k qs) := by
  induction n generalizing k ps qs seen with
  | zero => exact .done _ _
  | succ n ih =>
    rw [nextPermutations]
    cases hnext : nextPermutation? ps with
    | none => exact .done _ _
    | some p =>
      have hp := follows_of_nextPermutation? hnext
      have hptail : p.Perm tail := hp.perm.trans hps
      have hupto : ∀ zs, zs.Perm tail → zs ≤ p → zs = p ∨ zs ≤ ps := fun zs hzs =>
        hp.eq_or_le (hzs.trans hps.symm)
      have hperm : (leave j p).Perm qs := by
        obtain ⟨zs, hzs, _, rfl⟩ := hqs
        exact leave_perm (hptail.trans hzs.symm)
      rw [List.map_cons]
      by_cases hnew : qs < leave j p
      · -- The next one of the permutations without the number comes no later than this.
        have hq := nextPermutation?_leave hps hp hperm hreached hnew
        obtain ⟨k, rfl⟩ : ∃ m, k = m + 1 := ⟨k - 1, by omega⟩
        rw [nextPermutations, hq]
        refine .next (ih (Nat.le_of_succ_le_succ hnk) hptail ⟨p, hptail, le_rfl, rfl⟩ ?_ ?_)
        · intro zs hzs hzsp
          rcases hupto zs hzs hzsp with rfl | hzsps
          · exact le_rfl
          · exact (hreached zs hzs hzsps).trans hnew.le
        · intro zs hzs hzsle
          rcases (follows_of_nextPermutation? hq).eq_or_le (hzs.trans hperm) hzsle with rfl | hzsqs
          · exact List.mem_cons_self
          · exact List.mem_cons_of_mem _ (hseen zs (hzs.trans hperm) hzsqs)
      · refine .again (hseen _ hperm (not_lt.1 hnew))
          (ih (Nat.le_of_succ_le hnk) hptail ?_ ?_ hseen)
        · obtain ⟨zs, hzs, hzsps, hzsqs⟩ := hqs
          exact ⟨zs, hzs, hzsps.trans hp.lt.le, hzsqs⟩
        · intro zs hzs hzsp
          rcases hupto zs hzs hzsp with rfl | hzsps
          · exact not_lt.1 hnew
          · exact hreached zs hzs hzsps

theorem leave_rotate_of_le (hus : j ∉ us) (hvs : j ∉ vs) {i : Nat} (hi : i ≤ us.length) :
    leave j (rotate (us ++ j :: vs) i) = rotate (us ++ vs) i := by
  have hdrop : j ∉ us.drop i := fun h => hus (List.mem_of_mem_drop h)
  have htake : j ∉ vs ++ us.take i := fun h =>
    (List.mem_append.1 h).elim hvs fun h => hus (List.mem_of_mem_take h)
  rw [rotate, rotate, List.drop_append_of_le_length hi, List.take_append_of_le_length hi,
    List.drop_append_of_le_length hi, List.take_append_of_le_length hi, List.append_assoc,
    List.cons_append, leave_middle hdrop htake, List.append_assoc]

theorem leave_rotate_succ (hus : j ∉ us) (hvs : j ∉ vs) {i : Nat} (hi : us.length ≤ i) :
    leave j (rotate (us ++ j :: vs) (i + 1)) = rotate (us ++ vs) i := by
  obtain ⟨i, rfl⟩ := Nat.exists_eq_add_of_le hi
  have hdrop : j ∉ vs.drop i ++ us := fun h =>
    (List.mem_append.1 h).elim (fun h => hvs (List.mem_of_mem_drop h)) hus
  have htake : j ∉ vs.take i := fun h => hvs (List.mem_of_mem_take h)
  have hleft :
      rotate (us ++ j :: vs) (us.length + i + 1) = (vs.drop i ++ us) ++ j :: vs.take i := by
    rw [rotate, Nat.add_assoc, List.drop_length_add_append, List.take_length_add_append,
      List.drop_succ_cons, List.take_succ_cons, List.append_assoc]
  rw [hleft, leave_middle hdrop htake, rotate, List.drop_length_add_append,
    List.take_length_add_append, List.append_assoc]

theorem rotate_zero (xs : List Nat) : rotate xs 0 = xs := by
  rw [rotate, List.drop_zero, List.take_zero, List.append_nil]

theorem rotate_length (xs : List Nat) : rotate xs xs.length = xs := by
  rw [rotate, List.drop_length, List.take_length, List.nil_append]

/-- What begins with the number, or ends with it, is the same without it, so that one
    rotation comes twice. -/
theorem map_leave_rotationsOf (hus : j ∉ us) (hvs : j ∉ vs) :
    (rotationsOf (us ++ j :: vs)).map (leave j) =
      (List.range (us.length + 1)).map (rotate (us ++ vs)) ++
        (List.range' us.length vs.length).map (rotate (us ++ vs)) := by
  have hlength : max (us ++ j :: vs).length 1 = us.length + 1 + vs.length := by
    simp only [List.length_append, List.length_cons]
    omega
  rw [rotationsOf, hlength, List.range_add, List.map_append, List.map_append,
    List.range'_eq_map_range]
  simp only [List.map_map]
  congr 1
  · refine List.map_congr_left fun i hi => leave_rotate_of_le hus hvs ?_
    exact Nat.le_of_lt_succ (List.mem_range.1 hi)
  · refine List.map_congr_left fun i _ => ?_
    have := leave_rotate_succ hus hvs (Nat.le_add_right us.length i)
    rwa [Nat.add_right_comm] at this

/-- Without a number, rotations are those without the number, but for some that come
    again. -/
theorem exists_rotationsOf_eq (hus : j ∉ us) (hvs : j ∉ vs) :
    ∃ first again later,
      (rotationsOf (us ++ j :: vs)).map (leave j) = first ++ (again ++ later) ∧
        rotationsOf (us ++ vs) = first ++ later ∧ us ++ vs ∈ first ∧ again ⊆ first := by
  rw [map_leave_rotationsOf hus hvs]
  -- The list is its own first rotation, and its last one comes after all of its entries.
  have hfirst {n : Nat} (hn : 0 < n) : us ++ vs ∈ (List.range n).map (rotate (us ++ vs)) :=
    List.mem_map.2 ⟨0, List.mem_range.2 hn, rotate_zero _⟩
  cases vs with
  | nil =>
    have hlast : rotate (us ++ []) us.length = us ++ [] := by rw [List.append_nil, rotate_length]
    have hmax : max (us ++ []).length 1 = max us.length 1 := by rw [List.append_nil]
    rw [rotationsOf, hmax, List.range_succ, List.map_append, List.map_singleton, hlast]
    rcases Nat.eq_zero_or_pos us.length with hzero | hpos
    · refine ⟨[us ++ []], [], [], ?_, ?_, List.mem_singleton_self _, List.nil_subset _⟩
      · simp [hzero]
      · simp [hzero, rotate_zero]
    · rw [Nat.max_eq_left hpos]
      exact ⟨_, [us ++ []], [], List.append_assoc _ _ _, (List.append_nil _).symm, hfirst hpos,
        List.cons_subset.2 ⟨hfirst hpos, List.nil_subset _⟩⟩
  | cons v vs =>
    have hlength : max (us ++ v :: vs).length 1 = us.length + 1 + vs.length := by
      simp only [List.length_append, List.length_cons]
      omega
    refine ⟨_, [rotate (us ++ v :: vs) us.length],
      (List.range' (us.length + 1) vs.length).map (rotate (us ++ v :: vs)), rfl, ?_,
      hfirst (Nat.succ_pos _), ?_⟩
    · rw [rotationsOf, hlength, List.range_add, List.map_append, List.range'_eq_map_range]
    · refine List.cons_subset.2 ⟨List.mem_map_of_mem ?_, List.nil_subset _⟩
      exact List.mem_range.2 (Nat.lt_succ_self _)

/-- The orders of a tail with a number more are, without it, the orders of the tail, in
    the same order, but for some that come again. -/
theorem echoes_ordersOf {n k : Nat} (hnk : n ≤ k) (h : (us ++ j :: vs).Pairwise (· < ·)) :
    Echoes [] ((ordersOf n (us ++ j :: vs)).map (leave j)) (ordersOf k (us ++ vs)) := by
  have hnodup : j ∉ us ++ vs := by
    have := List.perm_middle.nodup_iff.1 (h.imp Nat.ne_of_lt)
    exact (List.nodup_cons.1 this).1
  rw [List.mem_append, not_or] at hnodup
  have hleast : (us ++ j :: vs).Pairwise (· ≤ ·) := h.imp Nat.le_of_lt
  have hleave := leave_middle hnodup.1 hnodup.2
  obtain ⟨first, again, later, hmore, hless, hmem, hagain⟩ :=
    exists_rotationsOf_eq hnodup.1 hnodup.2
  rw [ordersOf, ordersOf, List.map_take, List.map_append, hmore, hless, List.append_assoc,
    List.append_assoc, List.append_assoc]
  refine Echoes.take (.append _ (.append_again ?_ (.append _ ?_))) hnk
  · exact fun x hx => List.mem_append_left _ (hagain hx)
  · -- Nothing comes before the list that both begin with.
    refine echoes_nextPermutations hnk (.refl _) ⟨_, .refl _, le_rfl, hleave⟩ ?_ ?_
    · intro zs hzs hle
      rw [le_antisymm hle (le_of_pairwise_le hleast hzs), hleave]
    · intro zs hzs hle
      rw [le_antisymm hle (le_of_pairwise_le (hleave ▸ hleast.filter _) hzs)]
      simp [hmem]

end Leave

/-! ## The orders with a number more -/

/-- The numbers other than `j`, in order. -/
def skip (j i : Nat) : Nat := if i < j then i else i + 1

section Skip

variable {j : Nat}

theorem skip_strictMono (j : Nat) : StrictMono (skip j) := by
  intro i k hik
  simp only [skip]
  split_ifs <;> omega

theorem skip_ne (j i : Nat) : skip j i ≠ j := by
  rw [skip]
  split_ifs <;> omega

theorem leave_map_skip (xs : List Nat) : leave j (xs.map (skip j)) = xs.map (skip j) := by
  refine leave_eq_self fun h => ?_
  obtain ⟨i, _, hi⟩ := List.mem_map.1 h
  exact skip_ne j i hi

theorem map_skip_range'_of_le {start n : Nat} (h : start + n ≤ j) :
    (List.range' start n).map (skip j) = List.range' start n := by
  refine (List.map_congr_left fun i hi => ?_).trans (List.map_id _)
  exact if_pos (Nat.lt_of_lt_of_le (List.mem_range'_1.1 hi).2 h)

theorem map_skip_range'_of_ge {start n : Nat} (h : j ≤ start) :
    (List.range' start n).map (skip j) = List.range' (start + 1) n := by
  rw [Nat.add_comm start 1, ← List.map_add_range']
  refine List.map_congr_left fun i hi => ?_
  rw [skip, if_neg (Nat.not_lt.2 (Nat.le_trans h (List.mem_range'_1.1 hi).1)), Nat.add_comm]

section Range

variable {start n : Nat}

theorem range'_succ_eq (hj : start ≤ j) (hn : j ≤ start + n) :
    List.range' start (n + 1) =
      List.range' start (j - start) ++ j :: List.range' (j + 1) (start + n - j) := by
  have hcount : n + 1 = (j - start) + (start + n - j + 1) := by omega
  rw [hcount, ← List.range'_append_1, Nat.add_sub_cancel' hj, List.range'_succ]

theorem map_skip_range' (hj : start ≤ j) (hn : j ≤ start + n) :
    (List.range' start n).map (skip j) =
      List.range' start (j - start) ++ List.range' (j + 1) (start + n - j) := by
  have hcount : n = (j - start) + (start + n - j) := by omega
  conv_lhs => rw [hcount, ← List.range'_append_1, Nat.add_sub_cancel' hj]
  rw [List.map_append, map_skip_range'_of_le (Nat.le_of_eq (Nat.add_sub_cancel' hj)),
    map_skip_range'_of_ge (Nat.le_refl j)]

theorem leave_range' (hj : start ≤ j) (hn : j ≤ start + n) :
    leave j (List.range' start (n + 1)) = (List.range' start n).map (skip j) := by
  rw [range'_succ_eq hj hn, map_skip_range' hj hn, leave_middle]
  · exact fun h => by have := List.mem_range'_1.1 h; omega
  · exact fun h => by have := List.mem_range'_1.1 h; omega

end Range

namespace Orderings

variable {n length pinned : Nat}

theorem new_fixed (h : pinned ≤ length) : (new length pinned).fixed = List.range' 0 pinned := by
  rw [fixed, new, Nat.min_eq_left h, List.range_eq_range']

theorem new_tail (h : pinned ≤ length) :
    (new length pinned).tail = List.range' pinned (length - pinned) := by
  rw [tail, tailLength, new, Nat.min_eq_left h]

/-- The orders with a number more in the tail are, without it, the orders of the others,
    in the same order, but for some that come again. -/
theorem take_echoes (hpinned : pinned ≤ j) (hj : j ≤ length) (n : Nat) :
    Echoes [] (((new (length + 1) pinned).take n).map (leave j))
      (((new length pinned).take n).map (List.map (skip j))) := by
  obtain ⟨count, rfl⟩ := Nat.exists_eq_add_of_le (Nat.le_trans hpinned hj)
  have hcount : pinned + count + 1 - pinned = count + 1 := by omega
  have hfixed : leave j (List.range' 0 pinned) = List.range' 0 pinned :=
    leave_eq_self fun h => by have := List.mem_range'_1.1 h; omega
  have hskip : (List.range' 0 pinned).map (skip j) = List.range' 0 pinned :=
    map_skip_range'_of_le (by omega)
  have hascending := List.pairwise_lt_range' (s := pinned) (n := count + 1)
  rw [range'_succ_eq hpinned hj] at hascending
  have horders := (echoes_ordersOf (Nat.le_refl n) hascending).map (List.range' 0 pinned ++ ·)
  rw [← range'_succ_eq hpinned hj, ← map_skip_range' hpinned hj,
    ordersOf_map (skip_strictMono j)] at horders
  rw [take_new, take_new, new_fixed (Nat.le_add_right _ _), new_fixed (by omega),
    new_tail (Nat.le_add_right _ _), new_tail (by omega), hcount, Nat.add_sub_cancel_left]
  simpa only [List.map_map, List.map_nil, Function.comp_def, leave_append, hfixed, List.map_append,
    hskip] using horders

/-- A number more among those that stay makes no difference to the others. -/
theorem take_succ_succ (hj : j ≤ pinned) (hpinned : pinned ≤ length) (n : Nat) :
    ((new (length + 1) (pinned + 1)).take n).map (leave j) =
      ((new length pinned).take n).map (List.map (skip j)) := by
  have hfixed : leave j (List.range' 0 (pinned + 1)) = (List.range' 0 pinned).map (skip j) :=
    leave_range' (Nat.zero_le j) (by omega)
  have htail : List.range' (pinned + 1) (length + 1 - (pinned + 1)) =
      (List.range' pinned (length - pinned)).map (skip j) := by
    rw [map_skip_range'_of_ge hj, Nat.add_sub_add_right]
  rw [take_new, take_new, new_fixed hpinned, new_fixed (Nat.succ_le_succ hpinned), new_tail hpinned,
    new_tail (Nat.succ_le_succ hpinned), htail, ordersOf_map (skip_strictMono j)]
  simp only [List.map_map, Function.comp_def, leave_append, hfixed, List.map_append, leave_map_skip]

end Orderings

end Skip

end Matchmaking
