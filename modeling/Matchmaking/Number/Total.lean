/-!
# Totals

The total of a count over a list.
-/

namespace Matchmaking

variable {β γ : Type}

/-- The total of `f` over a list. -/
def total (f : β → Nat) : List β → Nat
  | [] => 0
  | x :: xs => f x + total f xs

@[simp]
theorem total_nil (f : β → Nat) : total f [] = 0 := rfl

@[simp]
theorem total_cons (f : β → Nat) (x : β) (xs : List β) :
    total f (x :: xs) = f x + total f xs := rfl

@[simp]
theorem total_append (f : β → Nat) (xs ys : List β) :
    total f (xs ++ ys) = total f xs + total f ys := by
  induction xs with
  | nil => simp
  | cons x xs ih => simp [ih, Nat.add_assoc]

theorem total_map (f : γ → Nat) (g : β → γ) (xs : List β) :
    total f (xs.map g) = total (fun x => f (g x)) xs := by
  induction xs with
  | nil => rfl
  | cons x xs ih => simp [ih]

theorem total_flatten (f : β → Nat) (xss : List (List β)) :
    total f xss.flatten = total (total f) xss := by
  induction xss with
  | nil => rfl
  | cons xs xss ih => rw [List.flatten_cons, total_append, total_cons, ih]

theorem length_mul_le_total {f : β → Nat} {n : Nat} {xs : List β} (h : ∀ x ∈ xs, n ≤ f x) :
    xs.length * n ≤ total f xs := by
  induction xs with
  | nil => simp
  | cons x xs ih =>
    obtain ⟨hx, hxs⟩ := List.forall_mem_cons.1 h
    have hrest := ih hxs
    rw [List.length_cons, Nat.succ_mul, total_cons]
    omega

theorem total_le_length_mul {f : β → Nat} {n : Nat} {xs : List β} (h : ∀ x ∈ xs, f x ≤ n) :
    total f xs ≤ xs.length * n := by
  induction xs with
  | nil => simp
  | cons x xs ih =>
    obtain ⟨hx, hxs⟩ := List.forall_mem_cons.1 h
    have hrest := ih hxs
    rw [List.length_cons, Nat.succ_mul, total_cons]
    omega

/-- A total is as large as it may be if all its parts are. -/
theorem total_eq_length_mul_iff {f : β → Nat} {n : Nat} {xs : List β} (h : ∀ x ∈ xs, f x ≤ n) :
    total f xs = xs.length * n ↔ ∀ x ∈ xs, f x = n := by
  induction xs with
  | nil => simp
  | cons x xs ih =>
    obtain ⟨hx, hxs⟩ := List.forall_mem_cons.1 h
    have hrest := total_le_length_mul hxs
    rw [List.length_cons, Nat.succ_mul, total_cons, List.forall_mem_cons, ← ih hxs]
    omega

theorem total_eq_of_perm (f : β → Nat) {xs ys : List β} (h : xs.Perm ys) :
    total f xs = total f ys := by
  induction h with
  | nil => rfl
  | cons x _ ih => rw [total_cons, total_cons, ih]
  | swap x y xs => simp only [total_cons]; omega
  | trans _ _ ih ih' => exact ih.trans ih'

theorem total_le_of_sublist (f : β → Nat) {xs ys : List β} (h : xs.Sublist ys) :
    total f xs ≤ total f ys := by
  induction h with
  | slnil => exact Nat.le_refl _
  | cons x _ ih => rw [total_cons]; omega
  | cons_cons x _ ih => rw [total_cons, total_cons]; omega

theorem length_flatMap_eq_total (f : β → List γ) (xs : List β) :
    (xs.flatMap f).length = total (fun x => (f x).length) xs := by
  induction xs with
  | nil => rfl
  | cons x xs ih => simp [ih]

end Matchmaking
