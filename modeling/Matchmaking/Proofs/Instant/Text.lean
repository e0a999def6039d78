import Mathlib.Algebra.Group.Nat.Defs
import Matchmaking.Instant.Text
import Matchmaking.Proofs.Instant.Calendar
import Matchmaking.Proofs.Numeral

/-!
# Written instants are read back

Each part of a written instant is read at the head of the characters, and what follows it is
left: a number with zeros before it (`Instant.number?_padded`), a year with its sign
(`Instant.year?_yearText`), a date (`Instant.date?_append`), a fraction that ends in what is no
digit (`Instant.fraction?_append`), and a time of day (`Instant.timeOfDay?_append`). So an
instant whose date is written is read as itself, in a leap second or not (`Instant.read?_text`).
-/

namespace Matchmaking

namespace Instant

variable {a : Instant} {cs : List Char} {width n : Nat}

/-! ## Numbers with zeros before them -/

theorem isDigit_of_mem_padded {c : Char} (h : c ∈ padded width n) : c.isDigit = true := by
  rcases List.mem_append.1 h with h | h
  · rw [List.eq_of_mem_replicate h]
    rfl
  · exact Numeral.isDigit_of_mem_toDigits h

theorem value_padded (width n : Nat) : Numeral.value (padded width n) = n :=
  (Numeral.value_zeros_append _ _).trans (Numeral.value_toDigits n)

theorem length_padded (width n : Nat) :
    (padded width n).length = max width (Nat.toDigits 10 n).length := by
  rw [padded, List.length_append, List.length_replicate]
  omega

theorem length_padded_of_lt (hwidth : 0 < width) (h : n < 10 ^ width) :
    (padded width n).length = width := by
  rw [length_padded]
  exact Nat.max_eq_left ((Nat.length_toDigits_le_iff (by decide) hwidth).2 h)

theorem padded_ne_nil (width n : Nat) : padded width n ≠ [] :=
  List.append_ne_nil_of_right_ne_nil _ Nat.toDigits_ne_nil

/-- A padded number begins with a digit. -/
theorem padded_eq_cons (width n : Nat) :
    ∃ c ds, padded width n = c :: ds ∧ c.isDigit = true := by
  obtain ⟨c, ds, hds⟩ := List.exists_cons_of_ne_nil (padded_ne_nil width n)
  exact ⟨c, ds, hds, isDigit_of_mem_padded (hds ▸ List.mem_cons_self)⟩

theorem number?_padded {least most : Nat} (hleast : least ≤ (padded width n).length)
    (hmost : (padded width n).length ≤ most) (hcs : Numeral.EndsDigits cs) :
    number? least most (padded width n ++ cs) = some (n, cs) := by
  rw [number?, Numeral.takeWhile_digits (fun _ => isDigit_of_mem_padded) hcs,
    List.take_of_length_le hmost, if_neg (Nat.not_lt.2 hleast), value_padded, List.drop_left]

/-! ## Blanks -/

theorem isBlankChar_of_isDigit {c : Char} (h : c.isDigit = true) : isBlankChar c = false := by
  have hrange : 48 ≤ c.toNat ∧ c.toNat ≤ 57 := by
    simpa [Char.isDigit, UInt32.le_iff_toNat_le] using h
  simp [isBlankChar, blankRanges]
  omega

theorem skipBlank_cons {c : Char} (h : isBlankChar c = false) : skipBlank (c :: cs) = c :: cs :=
  List.dropWhile_cons_of_neg (by simp [h])

theorem skipBlank_padded : skipBlank (padded width n ++ cs) = padded width n ++ cs := by
  obtain ⟨c, ds, hds, hc⟩ := padded_eq_cons width n
  rw [hds, List.cons_append, skipBlank_cons (isBlankChar_of_isDigit hc)]

theorem mark?_cons {c : Char} (h : isBlankChar c = false) : mark? c (c :: cs) = some cs := by
  rw [mark?, skipBlank_cons h]
  exact if_pos rfl

theorem part?_padded (h : n < 100) (hcs : Numeral.EndsDigits cs) :
    part? (padded 2 n ++ cs) = some (n, cs) := by
  have hlength : (padded 2 n).length = 2 := length_padded_of_lt (by decide) h
  rw [part?, skipBlank_padded]
  exact number?_padded (by omega) (by omega) hcs

/-! ## Dates -/

theorem year?_yearText (year : Int) (hcs : Numeral.EndsDigits cs) :
    year? (yearText year ++ cs) = some (year, cs) := by
  have hsigned (n : Nat) : number? 1 (padded 4 n ++ cs).length (padded 4 n ++ cs) = some (n, cs) :=
    number?_padded (by rw [length_padded]; omega) (by rw [List.length_append]; omega) hcs
  rw [yearText]
  split
  · obtain ⟨c, ds, hds, hc⟩ := padded_eq_cons 4 year.toNat
    have hlength : (padded 4 year.toNat).length = 4 :=
      length_padded_of_lt (by decide) (show _ < 10000 by omega)
    rw [year?, skipBlank_padded]
    split
    · simp_all
    · simp_all
    · rw [number?_padded (by omega) (by omega) hcs, Option.map_some]
      simp only [Option.some.injEq, Prod.mk.injEq, and_true]
      omega
  · split
    · rw [List.cons_append, year?, skipBlank_cons (by decide)]
      simp only [hsigned, Option.map_some, Option.some.injEq, Prod.mk.injEq, and_true]
      omega
    · rw [List.cons_append, year?, skipBlank_cons (by decide)]
      simp only [hsigned, Option.map_some, Option.some.injEq, Prod.mk.injEq, and_true]
      omega

/-- The text of the date of a day. -/
theorem date?_append {days : Int} (h : Date.isWritten days = true)
    (hcs : Numeral.EndsDigits cs) :
    date? (yearText (Date.ofDays days).year ++ '-' :: padded 2 (Date.ofDays days).month ++
      '-' :: padded 2 (Date.ofDays days).day ++ cs) = some (days, cs) := by
  have hmonth := Date.month_ofDays_le days
  have hday := Date.day_ofDays_le days
  have hmark (ds : List Char) : Numeral.EndsDigits ('-' :: ds) := Numeral.endsDigits_cons (by decide)
  have hdays : Date.toDays? ⟨(Date.ofDays days).year, (Date.ofDays days).month,
      (Date.ofDays days).day⟩ = some days := Date.toDays?_ofDays days
  simp only [List.append_assoc, List.cons_append]
  simp only [date?, year?_yearText _ (hmark _), mark?_cons (c := '-') (by decide),
    part?_padded (show (Date.ofDays days).month < 100 by omega) (hmark _),
    part?_padded (show (Date.ofDays days).day < 100 by omega) hcs, hdays,
    Option.bind_eq_bind, Option.bind_some, h, if_true]
  rfl

/-! ## Times of day -/

/-- The fraction of a second in so many digits. -/
theorem fraction?_point (hwidth : 0 < width) (hmost : width ≤ 9) (h : n < 10 ^ width)
    (hcs : Numeral.EndsDigits cs) :
    fraction? ('.' :: padded width n ++ cs) = some (n * 10 ^ (9 - width), cs) := by
  have hlength := length_padded_of_lt hwidth h
  have hne : (padded width n).isEmpty = false := List.isEmpty_eq_false_iff.2 (padded_ne_nil width n)
  rw [List.cons_append, fraction?, Numeral.takeWhile_digits (fun _ => isDigit_of_mem_padded) hcs,
    hne]
  simp only [Bool.false_eq_true, if_false, List.take_of_length_le (hlength ▸ hmost), value_padded,
    hlength, List.drop_left' hlength]
  rfl

theorem fraction?_append (h : n < second) (hcs : Numeral.EndsDigits cs)
    (hpoint : cs.head? ≠ some '.') : fraction? (fractionText n ++ cs) = some (n, cs) := by
  rw [second] at h
  rw [fractionText]
  split_ifs with hzero hmillis hmicros
  · subst hzero
    cases cs with
    | nil => rfl
    | cons c cs =>
      rw [List.nil_append, fraction?]
      rintro ds hds
      exact hpoint (by rw [hds]; rfl)
  · rw [fraction?_point (by decide) (by decide) (show _ < 1000 by omega) hcs]
    simp only [Option.some.injEq, Prod.mk.injEq, and_true]
    omega
  · rw [fraction?_point (by decide) (by decide) (show _ < 1000000 by omega) hcs]
    simp only [Option.some.injEq, Prod.mk.injEq, and_true]
    omega
  · rw [fraction?_point (by decide) (by decide) (show _ < 1000000000 by omega) hcs]
    simp only [Option.some.injEq, Prod.mk.injEq, and_true]
    omega

/-- No digit and no point follows a second. -/
theorem fractionText_append_ends (hcs : Numeral.EndsDigits cs) :
    Numeral.EndsDigits (fractionText n ++ cs) := by
  rw [fractionText]
  split_ifs
  · exact hcs
  all_goals exact Numeral.endsDigits_cons (by decide)

/-- The text of a time of day. -/
theorem timeOfDay?_append {time sec fraction : Nat} (htime : time < daySeconds) (hsec : sec ≤ 60)
    (hfraction : fraction < second) (hcs : Numeral.EndsDigits cs) (hpoint : cs.head? ≠ some '.') :
    timeOfDay? (padded 2 (time / 3600) ++ ':' :: padded 2 (time / 60 % 60) ++
      ':' :: padded 2 sec ++ fractionText fraction ++ cs) =
        some ((time / 60, sec, fraction), cs) := by
  rw [daySeconds] at htime
  have hmark (ds : List Char) : Numeral.EndsDigits (':' :: ds) := Numeral.endsDigits_cons (by decide)
  have hhour : time / 3600 ≤ 23 := by omega
  have hminute : time / 60 % 60 ≤ 59 := by omega
  have htotal : time / 3600 * 60 + time / 60 % 60 = time / 60 := by omega
  simp only [List.append_assoc, List.cons_append]
  simp only [timeOfDay?, part?_padded (show time / 3600 < 100 by omega) (hmark _),
    mark?_cons (c := ':') (by decide), part?_padded (show time / 60 % 60 < 100 by omega) (hmark _),
    part?_padded (show sec < 100 by omega) (fractionText_append_ends hcs),
    fraction?_append hfraction hcs hpoint, Option.bind_eq_bind, Option.bind_some, hhour, hminute,
    hsec, htotal, decide_true, Bool.and_true, if_true]
  rfl

/-! ## Instants -/

/-- A second is written up to the leap second. -/
theorem writtenSecond_le (a : Instant) : a.timeOfDay.toNat % 60 + a.nanos / second ≤ 60 := by
  have hnanos := a.nanos_lt
  have hleap := a.leap_at
  simp only [timeOfDay, daySeconds, second] at *
  omega

/-- An instant is in its minute what is written of it. -/
theorem inMinute?_minute (a : Instant) :
    inMinute? (a.seconds / daySeconds * 1440 + (a.timeOfDay.toNat / 60 : Nat))
      (a.timeOfDay.toNat % 60 + a.nanos / second) (a.nanos % second) = some a := by
  have hnanos := a.nanos_lt
  have hleap := a.leap_at
  rw [inMinute?, dif_pos ⟨a.writtenSecond_le, Nat.mod_lt _ (by decide)⟩]
  -- In a leap second or not, the place in time is the same.
  split_ifs with hsixty
  all_goals
    refine congrArg some (place_inj.1 ?_)
    simp only [place, timeOfDay, daySeconds, second] at *
    omega

/-- An instant that has a written date is read from its text. -/
theorem read?_text (h : Date.firstYear ≤ a.date.year ∧ a.date.year ≤ Date.lastYear) :
    read? a.text = some a := by
  have hwritten := Date.isWritten_iff.2 h
  have htime : a.timeOfDay.toNat < daySeconds := by
    rw [timeOfDay, daySeconds]
    omega
  have hfraction : a.nanos % second < second := Nat.mod_lt _ (by decide)
  have hzone : Numeral.EndsDigits ['Z'] := Numeral.endsDigits_cons (by decide)
  have hpart := timeOfDay?_append htime a.writtenSecond_le hfraction hzone (by decide)
  have hmark (cs : List Char) : Numeral.EndsDigits ('T' :: cs) := Numeral.endsDigits_cons (by decide)
  have hdate := fun cs => date?_append hwritten (hmark cs)
  simp only [List.append_assoc, List.cons_append] at hpart hdate
  rw [read?, text, String.toList_ofList]
  simp only [date, List.append_assoc, List.cons_append, hdate, hpart, Option.bind_eq_bind,
    Option.bind_some]
  have hday : ((a.seconds / daySeconds + Date.epoch) * 1440 + (a.timeOfDay.toNat / 60 : Nat) - 0) /
      1440 = a.seconds / daySeconds + Date.epoch := by
    rw [daySeconds] at htime
    omega
  have hminute : (a.seconds / daySeconds + Date.epoch) * 1440 + (a.timeOfDay.toNat / 60 : Nat) - 0 -
      Date.epoch * 1440 = a.seconds / daySeconds * 1440 + (a.timeOfDay.toNat / 60 : Nat) := by
    omega
  rw [skipBlank_cons (c := 'Z') (by decide)]
  simp only [offset?, Option.bind_some, hday, hwritten, hminute]
  exact a.inMinute?_minute

/-- The year of an instant is written in four digits, without a sign. -/
def HasFourDigits (a : Instant) : Prop := 0 ≤ a.date.year ∧ a.date.year ≤ 9999

instance (a : Instant) : Decidable a.HasFourDigits := inferInstanceAs (Decidable (_ ∧ _))

theorem HasFourDigits.read?_text (h : a.HasFourDigits) : read? a.text = some a :=
  Instant.read?_text ⟨Int.le_trans (by decide) h.1, Int.le_trans h.2 (by decide)⟩

end Instant

end Matchmaking
