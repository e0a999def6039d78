import Mathlib.Algebra.Order.Ring.Rat
import Mathlib.Order.Compare
import Matchmaking.Number.Scalar

/-!
# Rational scalars

The scalars without rounding. A decimal is read as what it denotes, and the operations
and comparisons are those of the rational numbers.
-/

namespace Matchmaking

/-- The number that a decimal denotes. -/
def Decimal.toRat (d : Decimal) : Rat :=
  let magnitude := (d.digits : Rat) * (10 : Rat) ^ d.exponent
  if d.negative then -magnitude else magnitude

instance : Scalar Rat where
  ofNat n := n
  abs := Rat.abs
  decLE := inferInstance
  decLT := inferInstance
  rank := compare
  transRank := inferInstance
  ofDecimal? d := some d.toRat
  read? cs := (Decimal.read? cs).map Decimal.toRat
  text := toString

end Matchmaking
