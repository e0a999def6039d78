import Matchmaking.Number.Decimal

/-!
# Numbers in digits

A run of digits ends where no digit follows (`Numeral.EndsDigits`), so that it is what is taken
of it and what stands behind it. The digits of a number denote that number
(`Numeral.value_toDigits`), with any zeros before them, and have no needless zero at their head.
-/

namespace Matchmaking

namespace Numeral

variable {ds cs : List Char} {n : Nat}

/-! ## Runs of digits -/

/-- No digit stands at the head of the characters. -/
def EndsDigits (cs : List Char) : Prop := ∀ c ∈ cs.head?, c.isDigit = false

theorem endsDigits_nil : EndsDigits [] := fun _ h => nomatch h

theorem endsDigits_cons {c : Char} (h : c.isDigit = false) : EndsDigits (c :: cs) :=
  fun _ hd => Option.some.inj hd ▸ h

theorem EndsDigits.takeWhile (h : EndsDigits cs) : cs.takeWhile Char.isDigit = [] := by
  cases cs with
  | nil => rfl
  | cons c cs => rw [List.takeWhile_cons_of_neg (by simp [h c rfl])]

theorem EndsDigits.dropWhile (h : EndsDigits cs) : cs.dropWhile Char.isDigit = cs := by
  cases cs with
  | nil => rfl
  | cons c cs => rw [List.dropWhile_cons_of_neg (by simp [h c rfl])]

theorem takeWhile_digits (hds : ∀ c ∈ ds, c.isDigit = true) (h : EndsDigits cs) :
    (ds ++ cs).takeWhile Char.isDigit = ds := by
  rw [List.takeWhile_append_of_pos hds, h.takeWhile, List.append_nil]

theorem dropWhile_digits (hds : ∀ c ∈ ds, c.isDigit = true) (h : EndsDigits cs) :
    (ds ++ cs).dropWhile Char.isDigit = cs := by
  rw [List.dropWhile_append_of_pos hds, h.dropWhile]

/-! ## The digits of a number -/

theorem value_eq_ofDigitChars (cs : List Char) : value cs = Nat.ofDigitChars 10 cs 0 := rfl

theorem value_toDigits (n : Nat) : value (Nat.toDigits 10 n) = n :=
  Nat.ofDigitChars_ten_toDigits

theorem value_zeros_append (zeros : Nat) (ds : List Char) :
    value (List.replicate zeros '0' ++ ds) = value ds := by
  rw [value_eq_ofDigitChars, Nat.ofDigitChars_append, Nat.ofDigitChars_replicate_zero, Nat.mul_zero,
    value_eq_ofDigitChars]

theorem isDigit_of_mem_toDigits {c : Char} (h : c ∈ Nat.toDigits 10 n) : c.isDigit = true :=
  Nat.isDigit_of_mem_toDigits (by decide) (by decide) h

/-- A number of several digits does not begin with a zero. -/
theorem head?_toDigits_ne_zero (h : 10 ≤ n) : (Nat.toDigits 10 n).head? ≠ some '0' := by
  induction n using Nat.strongRecOn with
  | ind n ih =>
    rw [Nat.toDigits_of_base_le (by decide) h, List.head?_append,
      List.head?_eq_some_head Nat.toDigits_ne_nil, Option.some_or, ← List.head?_eq_some_head]
    obtain hlt | hge := Nat.lt_or_ge (n / 10) 10
    · rw [Nat.toDigits_of_lt_base hlt, List.head?_singleton, Ne, Option.some_inj,
        Nat.digitChar_eq_zero]
      omega
    · exact ih (n / 10) (by omega) hge

/-- The digits of a number are as many as a numeral of a record may have. -/
theorem toDigits_strict (n : Nat) :
    (Nat.toDigits 10 n).head? ≠ some '0' ∨ (Nat.toDigits 10 n).length = 1 := by
  obtain hlt | hge := Nat.lt_or_ge n 10
  · exact .inr (by rw [Nat.toDigits_of_lt_base hlt]; rfl)
  · exact .inl (head?_toDigits_ne_zero hge)

/-! ## Whole numbers -/

/-- A digit is no sign. -/
theorem scanSign_digits (hds : ∀ c ∈ ds, c.isDigit = true) : scanSign ds = (none, ds) := by
  unfold scanSign
  split
  · exact absurd (hds _ List.mem_cons_self) (by decide)
  · exact absurd (hds _ List.mem_cons_self) (by decide)
  · rfl

/-- The numeral of digits, with a minus sign or without. -/
theorem scan_digits (sign : Option Char) (hsign : sign = none ∨ sign = some '-')
    (hds : ∀ c ∈ ds, c.isDigit = true) :
    scan (sign.toList ++ ds) = (⟨sign, ds, none, none⟩, []) := by
  have htake := takeWhile_digits hds endsDigits_nil
  have hdrop := dropWhile_digits hds endsDigits_nil
  rw [List.append_nil] at htake hdrop
  have hscan : scanSign (sign.toList ++ ds) = (sign, ds) := by
    obtain rfl | rfl := hsign
    · exact scanSign_digits hds
    · rfl
  simp only [scan, hscan, htake, hdrop]

end Numeral

end Matchmaking
