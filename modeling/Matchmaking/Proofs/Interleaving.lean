import Mathlib.Data.List.Perm.Basic

/-!
# Interleavings

Entries come from several lists, each list keeping its order (`Interleaves`). They are those
of the lists together (`Interleaves.perm`), and each list is found among them in its order
(`Interleaves.sublist`). An interleaving grows at its end by an entry behind one of the lists
(`Interleaves.snoc`), and there may always be one more list (`Interleaves.append_nil`).
-/

namespace Matchmaking

variable {ρ σ : Type}

/-- A list has the entries of several lists, those of each list in their order. -/
inductive Interleaves : List (List ρ) → List ρ → Prop
  /-- All lists are empty. -/
  | nil {xss : List (List ρ)} (h : ∀ xs ∈ xss, xs = []) : Interleaves xss []
  /-- The first entry is that of one of the lists. -/
  | cons {xss : List (List ρ)} {ys xs : List ρ} {x : ρ} {i : Nat} (hi : xss[i]? = some (x :: xs))
    (h : Interleaves (xss.set i xs) ys) : Interleaves xss (x :: ys)

namespace Interleaves

variable {xss : List (List ρ)} {xs ys : List ρ} {x : ρ} {i : Nat}

theorem perm (h : Interleaves xss ys) : ys.Perm xss.flatten := by
  induction h with
  | nil h => rw [List.flatten_eq_nil_iff.2 h]
  | @cons xss ys xs x i hi _ ih =>
    obtain ⟨hlt, hget⟩ := List.getElem?_eq_some_iff.1 hi
    -- The lists before and behind the one that has the entry are as they were.
    rw [List.set_eq_take_append_cons_drop, if_pos hlt] at ih
    rw [← List.take_append_drop i xss, List.drop_eq_getElem_cons hlt, hget, List.flatten_append,
      List.flatten_cons, List.cons_append]
    rw [List.flatten_append, List.flatten_cons] at ih
    exact (ih.cons x).trans List.perm_middle.symm

/-- An interleaving keeps the order of each list. -/
theorem sublist (h : Interleaves xss ys) : ∀ xs ∈ xss, xs.Sublist ys := by
  induction h with
  | nil h => exact fun xs hxs => h xs hxs ▸ List.Sublist.refl _
  | @cons xss ys xs x i hi _ ih =>
    intro zs hzs
    obtain ⟨j, hj⟩ := List.mem_iff_getElem?.1 hzs
    by_cases hij : i = j
    · obtain rfl : x :: xs = zs := Option.some.inj (hi.symm.trans (hij ▸ hj))
      refine (ih xs (List.mem_of_getElem? (i := i) ?_)).cons_cons x
      rw [List.getElem?_set_self (List.getElem?_eq_some_iff.1 hi).1]
    · exact (ih zs (List.mem_of_getElem? (i := j)
        ((List.getElem?_set_ne hij).trans hj))).cons x

/-- One more entry of one of the lists. -/
theorem snoc (h : Interleaves xss ys) (hi : xss[i]? = some xs) (x : ρ) :
    Interleaves (xss.set i (xs ++ [x])) (ys ++ [x]) := by
  induction h generalizing xs with
  | @nil xss h =>
    obtain ⟨hlt, _⟩ := List.getElem?_eq_some_iff.1 hi
    obtain rfl := h xs (List.mem_of_getElem? hi)
    have hhead : (xss.set i [x])[i]? = some (x :: []) := List.getElem?_set_self hlt
    refine .cons hhead (.nil ?_)
    rw [List.set_set]
    intro zs hzs
    rcases List.mem_or_eq_of_mem_set hzs with hzs | rfl
    · exact h zs hzs
    · rfl
  | @cons xss ys zs y j hj _ ih =>
    have hlt := (List.getElem?_eq_some_iff.1 hj).1
    by_cases hij : i = j
    · obtain rfl := hij
      obtain rfl : y :: zs = xs := Option.some.inj (hj.symm.trans hi)
      refine .cons (List.getElem?_set_self hlt) ?_
      have hnext := ih (List.getElem?_set_self hlt)
      rw [List.set_set] at hnext ⊢
      exact hnext
    · refine .cons ((List.getElem?_set_ne hij).trans hj) ?_
      rw [List.set_comm _ _ hij]
      exact ih ((List.getElem?_set_ne (Ne.symm hij)).trans hi)

/-- One more list, of which nothing has come. -/
theorem append_nil (h : Interleaves xss ys) : Interleaves (xss ++ [[]]) ys := by
  induction h with
  | nil h =>
    refine .nil fun xs hxs => ?_
    rcases List.mem_append.1 hxs with hxs | hxs
    · exact h xs hxs
    · exact List.mem_singleton.1 hxs
  | @cons xss ys xs x i hi _ ih =>
    have hlt := (List.getElem?_eq_some_iff.1 hi).1
    refine .cons ((List.getElem?_append_left hlt).trans hi) ?_
    rwa [List.set_append_left _ _ hlt]

theorem eq_nil (h : Interleaves [] ys) : ys = [] := by
  cases h with
  | nil => rfl
  | cons hi => cases hi

end Interleaves

end Matchmaking
