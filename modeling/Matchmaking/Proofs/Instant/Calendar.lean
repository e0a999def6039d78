import Mathlib.Tactic.SplitIfs
import Matchmaking.Instant.Calendar

/-!
# Days and dates

A year begins after all days of the years before it (`Date.daysBeforeYear_succ`), and a day
falls into the year that begins at it or before it and ends after it (`Date.yearOfDays_spec`).
In its year it falls into a month, at a day of that month (`Date.monthAndDay_spec`). So the date
of a day is one that the calendar has, and it is the date of that day (`Date.toDays?_ofDays`).
-/

namespace Matchmaking

namespace Date

/-! ## Years -/

theorem total_monthLengths (year : Int) :
    (total id (monthLengths year) : Int) = 365 + if isLeap year then 1 else 0 := by
  rw [monthLengths]
  split <;> rfl

/-- A year is as long as its months together. -/
theorem daysBeforeYear_succ (year : Int) :
    daysBeforeYear (year + 1) = daysBeforeYear year + total id (monthLengths year) := by
  rw [total_monthLengths]
  simp only [daysBeforeYear, isLeap, Bool.and_eq_true, Bool.or_eq_true, beq_iff_eq, bne_iff_ne]
  -- The numbers of leap days before a year and before the next one differ just by its own.
  split_ifs <;> omega

theorem daysBeforeYear_mono {y z : Int} (h : y ≤ z) : daysBeforeYear y ≤ daysBeforeYear z := by
  simp only [daysBeforeYear]
  omega

/-- A day falls into a year that begins no later than it, and ends after it. -/
theorem yearOfDays_spec (days : Int) :
    daysBeforeYear (yearOfDays days) ≤ days ∧ days < daysBeforeYear (yearOfDays days + 1) := by
  have hlow : daysBeforeYear (400 * days / 146097 - 1) ≤ days := by
    simp only [daysBeforeYear]
    omega
  have hhigh : days < daysBeforeYear (400 * days / 146097 + 1 + 1) := by
    simp only [daysBeforeYear]
    omega
  rw [yearOfDays]
  split_ifs with hbefore hafter
  · exact ⟨hlow, by rwa [Int.sub_add_cancel]⟩
  · exact ⟨hafter, hhigh⟩
  · exact ⟨Int.not_lt.1 hbefore, Int.not_le.1 hafter⟩

/-- Of the years that begin no later it is the last one. -/
theorem le_yearOfDays_iff {days year : Int} :
    year ≤ yearOfDays days ↔ daysBeforeYear year ≤ days := by
  obtain ⟨hlow, hhigh⟩ := yearOfDays_spec days
  refine ⟨fun h => Int.le_trans (daysBeforeYear_mono h) hlow, fun h => Int.not_lt.1 fun hlt => ?_⟩
  have hmono := daysBeforeYear_mono (Int.add_one_le_of_lt hlt)
  omega

/-! ## Months -/

/-- A day of the year falls into one of the months, after the days of the months before it. -/
theorem monthAndDay_spec {lengths : List Nat} {day : Nat} (month : Nat)
    (h : day < total id lengths) : ∃ before length after d, lengths = before ++ length :: after ∧
      d < length ∧ day = total id before + d ∧
      monthAndDay month day lengths = (month + before.length, d + 1) := by
  induction lengths generalizing month day with
  | nil => exact absurd h (Nat.not_lt_zero day)
  | cons length lengths ih =>
    rw [monthAndDay]
    split
    · rename_i hlt
      exact ⟨[], length, lengths, day, rfl, hlt, (Nat.zero_add day).symm, rfl⟩
    · rename_i hge
      rw [total_cons, id] at h
      obtain ⟨before, next, after, d, rfl, hd, hday, heq⟩ :=
        ih (month + 1) (Nat.sub_lt_left_of_lt_add (Nat.not_lt.1 hge) h)
      refine ⟨length :: before, next, after, d, rfl, hd, ?_, ?_⟩
      · rw [total_cons, id]
        omega
      · rw [heq, List.length_cons, Nat.add_right_comm, Nat.add_assoc]

theorem length_monthLengths (year : Int) : (monthLengths year).length = 12 := rfl

theorem le_of_mem_monthLengths {year : Int} {length : Nat} (h : length ∈ monthLengths year) :
    length ≤ 31 := by
  simp only [monthLengths, List.mem_cons, List.not_mem_nil, or_false] at h
  split_ifs at h <;> omega

/-! ## Dates -/

/-- What the date of a day says. -/
theorem ofDays_spec (days : Int) : ∃ before length after, ∃ d : Nat,
    monthLengths (yearOfDays days) = before ++ length :: after ∧ d < length ∧
      days = daysBeforeYear (yearOfDays days) + total id before + d ∧
      ofDays days = ⟨yearOfDays days, before.length + 1, d + 1⟩ := by
  obtain ⟨hlow, hhigh⟩ := yearOfDays_spec days
  rw [daysBeforeYear_succ] at hhigh
  have hyear : (days - daysBeforeYear (yearOfDays days)).toNat <
      total id (monthLengths (yearOfDays days)) := by
    omega
  obtain ⟨before, length, after, d, hlengths, hd, hday, heq⟩ := monthAndDay_spec 1 hyear
  refine ⟨before, length, after, d, hlengths, hd, by omega, ?_⟩
  simp only [ofDays, heq, Nat.add_comm 1]

/-- The date of a day is the date of that day. -/
theorem toDays?_ofDays (days : Int) : toDays? (ofDays days) = some days := by
  obtain ⟨before, length, after, d, hlengths, hd, hdays, hdate⟩ := ofDays_spec days
  rw [hdate, toDays?]
  simp only [hlengths, Nat.add_sub_cancel, List.getElem?_append_right (Nat.le_refl _),
    Nat.sub_self, List.getElem?_cons_zero, List.take_left]
  -- Neither the month nor the day is zero, and the day is one of the month.
  rw [if_pos (by simp; omega)]
  simp only [Option.some.injEq]
  omega

theorem month_ofDays_le (days : Int) : (ofDays days).month ≤ 12 := by
  obtain ⟨before, length, after, d, hlengths, -, -, hdate⟩ := ofDays_spec days
  have hlength := congrArg List.length hlengths
  rw [length_monthLengths, List.length_append, List.length_cons] at hlength
  rw [hdate]
  simp only
  omega

theorem day_ofDays_le (days : Int) : (ofDays days).day ≤ 31 := by
  obtain ⟨before, length, after, d, hlengths, hd, -, hdate⟩ := ofDays_spec days
  have hmem : length ∈ monthLengths (yearOfDays days) := by simp [hlengths]
  have hle := le_of_mem_monthLengths hmem
  rw [hdate]
  simp only
  omega

/-- The dates that are written are those of the years that are. -/
theorem isWritten_iff {days : Int} :
    isWritten days = true ↔ firstYear ≤ (ofDays days).year ∧ (ofDays days).year ≤ lastYear := by
  show _ ↔ firstYear ≤ yearOfDays days ∧ yearOfDays days ≤ lastYear
  rw [isWritten, Bool.and_eq_true, decide_eq_true_iff, decide_eq_true_iff, ← le_yearOfDays_iff,
    ← Int.not_le, ← le_yearOfDays_iff, Int.not_le, Int.lt_add_one_iff]

end Date

end Matchmaking
