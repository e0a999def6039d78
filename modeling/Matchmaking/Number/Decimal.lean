/-!
# Decimal numerals

A numeral is read in two steps: `Numeral.scan` cuts the characters into sign,
whole part, fraction and exponent, and each grammar says which of these parts
may be missing: `Numeral.isPlain` is the grammar of numbers in running text,
`Numeral.isStrict` that of numbers in records. What a numeral denotes is a
`Decimal`, a whole number times a power of ten.
-/

namespace Matchmaking

/-- The number `± digits * 10 ^ exponent`. Zero has two signs. -/
structure Decimal where
  /-- Whether the number is negated. -/
  negative : Bool
  /-- The digits, without sign and point. -/
  digits : Nat
  /-- The power of ten. -/
  exponent : Int
  deriving DecidableEq

/-- The parts of a numeral, as written. -/
structure Numeral where
  /-- The sign, `+` or `-`, if there is one. -/
  sign : Option Char
  /-- The digits before the point. -/
  whole : List Char
  /-- The digits after the point, if there is one. -/
  fraction : Option (List Char)
  /-- The sign and the digits of the exponent, if there is one. -/
  exponent : Option (Option Char × List Char)

namespace Numeral

/-- The value of a digit. -/
def digitValue (c : Char) : Nat := c.toNat - 48

/-- The value of a run of digits. -/
def value (cs : List Char) : Nat := cs.foldl (fun n c => 10 * n + digitValue c) 0

/-- The sign at the head of the characters, if there is one, and the rest. -/
def scanSign : List Char → Option Char × List Char
  | '+' :: cs => (some '+', cs)
  | '-' :: cs => (some '-', cs)
  | cs => (none, cs)

/-- The parts of the characters as a numeral, and the characters after it. -/
def scan (cs : List Char) : Numeral × List Char :=
  let (sign, cs) := scanSign cs
  let whole := cs.takeWhile Char.isDigit
  let (fraction, cs) := match cs.dropWhile Char.isDigit with
    | '.' :: cs => (some (cs.takeWhile Char.isDigit), cs.dropWhile Char.isDigit)
    | cs => (none, cs)
  let mark (c : Char) := c == 'e' || c == 'E'
  let (exponent, cs) := match cs with
    | c :: cs =>
      if mark c then
        let (sign, cs) := scanSign cs
        (some (sign, cs.takeWhile Char.isDigit), cs.dropWhile Char.isDigit)
      else (none, c :: cs)
    | [] => (none, [])
  (⟨sign, whole, fraction, exponent⟩, cs)

/-- A number in running text has a digit before or after the point, and an
    exponent mark is followed by a digit. -/
def isPlain (n : Numeral) : Bool :=
  !(n.whole.isEmpty && (n.fraction.getD []).isEmpty) && n.exponent.all fun e => !e.2.isEmpty

/-- A number in a record is plain, without a plus sign, with digits on both
    sides of its point, and with no needless zero at its head. -/
def isStrict (n : Numeral) : Bool :=
  n.isPlain && n.sign != some '+' && !n.whole.isEmpty &&
    (n.whole.head? != some '0' || n.whole.length == 1) && n.fraction.all fun f => !f.isEmpty

/-- Whether the numeral is written without point and exponent. -/
def isWhole (n : Numeral) : Bool := n.fraction.isNone && n.exponent.isNone

/-- The exponent as written. -/
def exponentValue (n : Numeral) : Int :=
  match n.exponent with
  | none => 0
  | some (some '-', ds) => -(value ds)
  | some (_, ds) => value ds

/-- The number that the numeral denotes. -/
def toDecimal (n : Numeral) : Decimal :=
  let fraction := n.fraction.getD []
  ⟨n.sign == some '-', value (n.whole ++ fraction), n.exponentValue - fraction.length⟩

end Numeral

/-- A text that is one plain numeral denotes a number; no other text does. -/
def Decimal.read? (cs : List Char) : Option Decimal :=
  match Numeral.scan cs with
  | (n, []) => if n.isPlain then some n.toDecimal else none
  | _ => none

/-- A text of digits, which may have a plus sign, denotes a count if that is below
    `size`. -/
def readCount? (size : Nat) (cs : List Char) : Option Nat :=
  match Numeral.scan cs with
  | (n, []) =>
    if n.isWhole && !n.whole.isEmpty && n.sign != some '-' && Numeral.value n.whole < size then
      some (Numeral.value n.whole)
    else none
  | _ => none

end Matchmaking
