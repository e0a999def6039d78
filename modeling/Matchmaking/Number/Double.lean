import Matchmaking.Number.Scalar
import Matchmaking.Number.Shortest

/-!
# Double precision scalars

The scalars that programs run on. A double is read as the one nearest to the
decimal, and written as the shortest decimal that reads back, without an
exponent. Doubles are ranked by their bits, so that the negative zero comes
before the positive one and what is not a number comes at the ends.
-/

namespace Matchmaking

namespace Double

/-- The bits of a double hold its fraction below this one, -/
def fractionSize : Nat := Nat.pow 2 52

/-- above them a binary exponent of so many values, -/
def exponentSize : Nat := 2048

/-- and on top the sign. -/
def signBit : Nat := Nat.pow 2 63

/-- The place of a double in the ranking: the bits of a positive one count up
    from zero, those of a negative one down from minus one. -/
def place (x : Float) : Int :=
  let bits := x.toBits.toNat
  if bits < signBit then bits else -((bits - signBit : Nat) : Int) - 1

/-- The order of places. -/
def rank : Float → Float → Ordering := compareOn place

instance : Std.TransCmp rank := inferInstanceAs (Std.TransCmp (compareOn place))

/-- The double nearest to a decimal. Its order of magnitude is estimated from the
    binary length of its digits; a decimal far above the greatest double is taken
    for infinite and one far below the least for zero. -/
def ofDecimal (d : Decimal) : Float :=
  let order := (Nat.log2 d.digits * 30103 / 100000 : Nat) + d.exponent
  let magnitude : Float :=
    if d.digits = 0 || order < -400 then 0.0
    else if 400 < order then 1.0 / 0.0
    else if 0 ≤ d.exponent then Float.ofScientific (d.digits * Nat.pow 10 d.exponent.toNat) false 0
    else Float.ofScientific d.digits true (-d.exponent).toNat
  if d.negative then -magnitude else magnitude

/-- Whether a double is neither infinite nor not a number. -/
def isFinite (x : Float) : Bool := x.toBits.toNat / fractionSize % exponentSize != 2047

/-- The names of the doubles that have no decimal, in small letters. -/
def named? (cs : List Char) : Option Float :=
  match String.ofList (cs.map Char.toLower) with
  | "inf" | "infinity" => some (1.0 / 0.0)
  | "nan" => some (0.0 / 0.0)
  | _ => none

/-- A double is read from a plain numeral, or from the name of one that is not
    finite, in any letter case and with an optional sign. -/
def read? (cs : List Char) : Option Float :=
  match Decimal.read? cs with
  | some d => some (ofDecimal d)
  | none =>
    match cs with
    | '+' :: cs => named? cs
    | '-' :: cs => (named? cs).map Neg.neg
    | cs => named? cs

/-- The significand and the binary exponent of a finite double, without its
    sign: it is `m * 2 ^ q`. -/
def parts (x : Float) : Nat × Int :=
  let bits := x.toBits.toNat
  let field : Nat := bits / fractionSize % exponentSize
  let fraction := bits % fractionSize
  if field = 0 then (fraction, -1074) else (fractionSize + fraction, (field : Int) - 1075)

/-- Whether a double has the sign of a negative number. -/
def isNegative (x : Float) : Bool := signBit ≤ x.toBits.toNat

/-- The whole number nearest to `scale` times a finite double, without its sign. Of
    two it is the even one. -/
def nearest (scale : Nat) (x : Float) : Nat :=
  let (m, q) := parts x
  let above := scale * m * Nat.pow 2 q.toNat
  let below := Nat.pow 2 (-q).toNat
  let n := above / below
  let twice := 2 * (above % below)
  if twice < below || twice = below && n % 2 = 0 then n else n + 1

/-- The shortest decimal `d * 10 ^ k` that reads back as a finite double other
    than zero, without its sign. -/
def shortest (x : Float) : Nat × Int :=
  let (m, q) := parts x
  (Span.ofBinary m q (m == fractionSize && -1074 < q)).shortest

/-- A sign for the negative ones, and the text of the rest. -/
def signed (x : Float) (text : String) : String :=
  if isNegative x then "-" ++ text else text

/-- The text of a double, without an exponent. -/
def text (x : Float) : String :=
  if isFinite x then
    if (parts x).1 = 0 then signed x "0"
    else
      let (d, k) := shortest x
      signed x (String.ofList (positional d k))
  else if (parts x).1 = fractionSize then signed x "inf"
  else "NaN"

/-- The text of a double in a record: it always has a point or an exponent, and
    very large and very small numbers have an exponent. A double that is not
    finite is null. -/
def recordText (x : Float) : String :=
  if !isFinite x then "null"
  else if (parts x).1 = 0 then signed x "0.0"
  else
    let (d, k) := shortest x
    let ds := Nat.toDigits 10 d
    let point := ds.length + k
    if -5 < point && point ≤ 16 then
      signed x (String.ofList (positional d k) ++ if 0 ≤ k then ".0" else "")
    else
      let fraction := if ds.length = 1 then [] else '.' :: ds.drop 1
      signed x (String.ofList (ds.take 1 ++ fraction ++ ['e']) ++ toString (point - 1))

end Double

instance : Scalar Float where
  ofNat n := Float.ofScientific n false 0
  abs := Float.abs
  decLE := Float.decLe
  decLT := Float.decLt
  rank := Double.rank
  transRank := inferInstance
  ofDecimal? d :=
    let x := Double.ofDecimal d
    if Double.isFinite x then some x else none
  read? := Double.read?
  text := Double.text

end Matchmaking
