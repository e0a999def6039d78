import Matchmaking.Instant
import Matchmaking.Number.Total

/-!
# The calendar

Days are counted from the first day of the year 0 of the Gregorian calendar,
extended to the years before it. A day has a date, and a date that the calendar
has is the date of one day. Dates are written for the years from `firstYear` to
`lastYear`.
-/

namespace Matchmaking

/-- A year, a month from 1 to 12 and a day of the month. -/
structure Date where
  /-- The year. -/
  year : Int
  /-- The month, from 1. -/
  month : Nat
  /-- The day of the month, from 1. -/
  day : Nat
  deriving DecidableEq

namespace Date

/-- Every fourth year is a leap year, but of the centuries only every fourth. -/
def isLeap (year : Int) : Bool :=
  year % 4 == 0 && (year % 100 != 0 || year % 400 == 0)

/-- The lengths of the months of a year. -/
def monthLengths (year : Int) : List Nat :=
  [31, if isLeap year then 29 else 28, 31, 30, 31, 30, 31, 31, 30, 31, 30, 31]

/-- The number of days before the first day of a year. -/
def daysBeforeYear (year : Int) : Int :=
  365 * year + (year + 3) / 4 - (year + 99) / 100 + (year + 399) / 400

/-- The number of the day of a date, if the calendar has that date. -/
def toDays? (d : Date) : Option Int :=
  let lengths := monthLengths d.year
  match lengths[d.month - 1]? with
  | none => none
  | some length =>
    if 1 ≤ d.month && 1 ≤ d.day && d.day ≤ length then
      some (daysBeforeYear d.year + total id (lengths.take (d.month - 1)) + d.day - 1)
    else none

/-- The year that a day falls into: a year has `146097 / 400` days on average,
    which is never more than one year off. -/
def yearOfDays (days : Int) : Int :=
  let year := 400 * days / 146097
  if days < daysBeforeYear year then year - 1
  else if daysBeforeYear (year + 1) ≤ days then year + 1
  else year

/-- The month and the day of the month of a day of the year, counted from 0, for
    the months from `month` on. -/
def monthAndDay (month day : Nat) : List Nat → Nat × Nat
  | [] => (month, day + 1)
  | length :: lengths =>
    if day < length then (month, day + 1) else monthAndDay (month + 1) (day - length) lengths

/-- The date of a day. -/
def ofDays (days : Int) : Date :=
  let year := yearOfDays days
  let (month, day) := monthAndDay 1 (days - daysBeforeYear year).toNat (monthLengths year)
  ⟨year, month, day⟩

/-- The number of the first day of 1970. -/
def epoch : Int := 719528

/-- The first year of which dates are written. -/
def firstYear : Int := -262143

/-- The last year of which dates are written. -/
def lastYear : Int := 262142

/-- Whether a day falls into a year of which dates are written. -/
def isWritten (days : Int) : Bool :=
  daysBeforeYear firstYear ≤ days && days < daysBeforeYear (lastYear + 1)

end Date

/-- The date of an instant. -/
def Instant.date (a : Instant) : Date := Date.ofDays (a.seconds / daySeconds + Date.epoch)

end Matchmaking
