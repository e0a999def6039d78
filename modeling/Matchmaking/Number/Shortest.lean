/-!
# Shortest decimals

A binary number `m * 2 ^ q` that stands for all the real numbers that round to
it has many decimals that read back as itself. The shortest of them is found on
decimal grids: for one, two, and up to seventeen digits, the two neighbours of
the number on the grid of that many digits are tried, and the first grid that
has a neighbour among the numbers that read back wins. Of two such neighbours
the nearer is taken, and of two equally near ones the upper.

All arithmetic is on whole numbers: the number and the ends of its interval are
fractions with a common denominator (`Span`).
-/

namespace Matchmaking

/-- A positive number with the interval of the numbers that read back as it, all
    as numerators over one denominator. -/
structure Span where
  /-- The lower end of the interval. -/
  low : Nat
  /-- The number itself. -/
  value : Nat
  /-- The upper end of the interval. -/
  high : Nat
  /-- The common denominator. -/
  scale : Nat
  /-- Whether the ends belong to the interval. -/
  closed : Bool

namespace Span

/-- The span of `m * 2 ^ q`. Its neighbours are `2 ^ q` away, but the lower one
    only half of that if `m` is the least significand of its binade
    (`narrow`). The ends are half way to the neighbours, and ties go to even. -/
def ofBinary (m : Nat) (q : Int) (narrow : Bool) : Span :=
  let unit := Nat.pow 2 (q - 2).toNat
  ⟨(4 * m - if narrow then 1 else 2) * unit, 4 * m * unit, (4 * m + 2) * unit,
    Nat.pow 2 (2 - q).toNat, m % 2 == 0⟩

/-- The least `j` with `n < 10 ^ j`. -/
def decimalWidth (n : Nat) : Nat :=
  if n = 0 then 0 else (Nat.toDigits 10 n).length

/-- The greatest power of ten that is at most the number. -/
def order (s : Span) : Int :=
  if s.scale ≤ s.value then decimalWidth (s.value / s.scale) - 1
  else -(decimalWidth ((s.scale + s.value - 1) / s.value - 1) : Int)

/-- The number's lower neighbour on the grid of step `10 ^ k`, with the grid
    step and the number as whole numbers on a common scale. -/
def onGrid (s : Span) (k : Int) : Nat × Nat × Nat :=
  let step := s.scale * Nat.pow 10 k.toNat
  let factor := Nat.pow 10 (-k).toNat
  (s.value * factor / step, step, factor)

/-- The neighbour on the grid of step `10 ^ k` that reads back, if there is one. -/
def neighbour? (s : Span) (k : Int) : Option Nat :=
  let (d, step, factor) := s.onGrid k
  let inside (a b : Nat) : Bool := if s.closed then a ≤ b else a < b
  let lower := inside (s.low * factor) (d * step)
  let upper := inside ((d + 1) * step) (s.high * factor)
  let value := s.value * factor
  if lower && upper then
    some (if value - d * step < (d + 1) * step - value then d else d + 1)
  else if lower then some d
  else if upper then some (d + 1)
  else none

/-- The first hit on the grids of step `10 ^ k`, `10 ^ (k - 1)`, and so on, of
    which `n` are left to try. -/
def search (s : Span) : Nat → Int → Nat × Int
  | 0, k => ((s.onGrid k).1, k)
  | n + 1, k =>
    match s.neighbour? k with
    | some d => (d, k)
    | none => search s n (k - 1)

/-- A decimal without the zeros at the end of its digits, of which there are at
    most `n`. -/
def strip : Nat → Nat × Int → Nat × Int
  | 0, d => d
  | n + 1, (d, k) => if d % 10 = 0 then strip n (d / 10, k + 1) else (d, k)

/-- The shortest decimal `d * 10 ^ k` that reads back as the number. -/
def shortest (s : Span) : Nat × Int :=
  strip 17 (s.search 17 s.order)

end Span

/-- The decimal `d * 10 ^ k` written without an exponent. -/
def positional (d : Nat) (k : Int) : List Char :=
  let ds := Nat.toDigits 10 d
  if 0 ≤ k then ds ++ List.replicate k.toNat '0'
  else
    let places := (-k).toNat
    if places < ds.length then
      ds.take (ds.length - places) ++ '.' :: ds.drop (ds.length - places)
    else '0' :: '.' :: List.replicate (places - ds.length) '0' ++ ds

end Matchmaking
