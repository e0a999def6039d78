import Matchmaking.Instant.Calendar
import Matchmaking.Number.Decimal
import Matchmaking.Text.Blank

/-!
# Written instants

An instant is written as date and time of day in universal time, with as few
groups of three fraction digits as are exact; a leap second is the second 60 of
its minute. It is read in any offset from universal time, and reading is lenient:
blanks may stand between the parts, the parts may be short of digits, a blank may
separate date and time, and fraction digits after the ninth are dropped.
-/

namespace Matchmaking

namespace Instant

/-! ### Writing -/

/-- A number in at least `width` digits. -/
def padded (width n : Nat) : List Char :=
  let ds := Nat.toDigits 10 n
  List.replicate (width - ds.length) '0' ++ ds

/-- A year in four digits; years outside of those carry a sign. -/
def yearText (year : Int) : List Char :=
  if 0 ≤ year ∧ year ≤ 9999 then padded 4 year.toNat
  else (if year < 0 then '-' else '+') :: padded 4 year.natAbs

/-- The fraction of a second in 0, 3, 6 or 9 digits, whichever is exact first. -/
def fractionText (nanos : Nat) : List Char :=
  if nanos = 0 then []
  else if nanos % 1000000 = 0 then '.' :: padded 3 (nanos / 1000000)
  else if nanos % 1000 = 0 then '.' :: padded 6 (nanos / 1000)
  else '.' :: padded 9 nanos

/-- An instant as date, `T`, time of day and `Z`. -/
def text (a : Instant) : String :=
  let time := a.timeOfDay.toNat
  String.ofList <|
    yearText a.date.year ++ '-' :: padded 2 a.date.month ++ '-' :: padded 2 a.date.day ++
      'T' :: padded 2 (time / 3600) ++ ':' :: padded 2 (time / 60 % 60) ++
      ':' :: padded 2 (time % 60 + a.nanos / second) ++ fractionText (a.nanos % second) ++ ['Z']

/-! ### Reading -/

/-- The rest of the characters after their leading blanks. -/
def skipBlank (cs : List Char) : List Char := cs.dropWhile isBlankChar

/-- The number at the head of the characters, in at least `least` and at most
    `most` digits, and the rest. -/
def number? (least most : Nat) (cs : List Char) : Option (Nat × List Char) :=
  let ds := (cs.takeWhile Char.isDigit).take most
  if ds.length < least then none else some (Numeral.value ds, cs.drop ds.length)

/-- A number of one or two digits, after any blanks. -/
def part? (cs : List Char) : Option (Nat × List Char) := number? 1 2 (skipBlank cs)

/-- The rest of the characters after the mark `c`, which may follow blanks. -/
def mark? (c : Char) (cs : List Char) : Option (List Char) :=
  match skipBlank cs with
  | d :: cs => if d = c then some cs else none
  | [] => none

/-- A year: up to four digits, or a sign and any number of digits. -/
def year? (cs : List Char) : Option (Int × List Char) :=
  match skipBlank cs with
  | '-' :: cs => (number? 1 cs.length cs).map fun (n, cs) => (-(n : Int), cs)
  | '+' :: cs => (number? 1 cs.length cs).map fun (n, cs) => ((n : Int), cs)
  | cs => (number? 1 4 cs).map fun (n, cs) => ((n : Int), cs)

/-- The date at the head of the characters, as the number of its day. -/
def date? (cs : List Char) : Option (Int × List Char) := do
  let (year, cs) ← year? cs
  let cs ← mark? '-' cs
  let (month, cs) ← part? cs
  let cs ← mark? '-' cs
  let (day, cs) ← part? cs
  let days ← Date.toDays? ⟨year, month, day⟩
  if Date.isWritten days then return (days, cs) else none

/-- The fraction of a second at the head of the characters, in nanoseconds. -/
def fraction? : List Char → Option (Nat × List Char)
  | '.' :: cs =>
    let ds := cs.takeWhile Char.isDigit
    if ds.isEmpty then none
    else
      let kept := ds.take 9
      some (Numeral.value kept * Nat.pow 10 (9 - kept.length), cs.drop ds.length)
  | cs => some (0, cs)

/-- The minute of the day, the second of the minute and its nanoseconds at the
    head of the characters. Any minute may have a leap second. -/
def timeOfDay? (cs : List Char) : Option ((Nat × Nat × Nat) × List Char) := do
  let (hour, cs) ← part? cs
  let cs ← mark? ':' cs
  let (minute, cs) ← part? cs
  let cs ← mark? ':' cs
  let (sec, cs) ← part? cs
  let (fraction, cs) ← fraction? cs
  if hour ≤ 23 && minute ≤ 59 && sec ≤ 60 then return ((hour * 60 + minute, sec, fraction), cs)
  else none

/-- The offset from universal time at the head of the characters, in minutes:
    a letter or name for none, or a sign, two digits for the hours and two for
    the minutes. -/
def offset? : List Char → Option (Int × List Char)
  | 'Z' :: cs => some (0, cs)
  | 'z' :: cs => some (0, cs)
  | c :: cs =>
    if [c, cs.headD ' ', (cs.drop 1).headD ' '].map Char.toUpper = ['U', 'T', 'C'] then
      some (0, cs.drop 2)
    else if c = '+' || c = '-' || c = '−' then do
      let (hours, cs) ← number? 2 2 cs
      let cs := cs.dropWhile fun c => c = ':' || isBlankChar c
      let (minutes, cs) ← number? 2 2 cs
      let offset := hours * 60 + minutes
      if minutes ≤ 59 && offset < 1440 then
        return (if c = '+' then (offset : Int) else -(offset : Int), cs)
      else none
    else none
  | [] => none

/-- The instant in a minute since the start of 1970, at a second up to the leap
    second and a fraction of it in nanoseconds. -/
def inMinute? (minute : Int) (sec fraction : Nat) : Option Instant :=
  if h : sec ≤ 60 ∧ fraction < second then
    if sec = 60 then
      some ⟨minute * 60 + 59, second + fraction, by omega, by omega⟩
    else some ⟨minute * 60 + sec, fraction, by omega, by omega⟩
  else none

/-- The instant that a text denotes, if any. Its date is in the written years as
    it stands and in universal time. -/
def read? (s : String) : Option Instant := do
  let (days, cs) ← date? s.toList
  let cs ← match cs with
    | 'T' :: cs => some cs
    | 't' :: cs => some cs
    | ' ' :: cs => some cs
    | _ => none
  let ((minute, sec, fraction), cs) ← timeOfDay? cs
  let (offset, cs) ← offset? (skipBlank cs)
  let minutes := days * 1440 + minute - offset
  if (skipBlank cs).isEmpty && Date.isWritten (minutes / 1440) then
    inMinute? (minutes - Date.epoch * 1440) sec fraction
  else none

end Instant

end Matchmaking
