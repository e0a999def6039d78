import Matchmaking.Number.Decimal

/-!
# Scalars

Attribute values, tolerances, weights and scores are written in a type of
scalars: what has the four operations, comparisons, a way to count, a decimal
reading and a text. Nothing in the library depends on how exact the arithmetic
is, so its laws can be stated for exact scalars and its programs run on
floating point numbers.

Comparisons (`≤`, `<`) need not be total: of a scalar that is not a number
none holds. Sorting is by `rank`, which is total.
-/

namespace Matchmaking

/-- The numbers that tickets carry and rules are written in. -/
class Scalar (α : Type) extends Add α, Sub α, Mul α, Div α, LE α, LT α where
  /-- The scalar of a count. -/
  ofNat : Nat → α
  /-- The scalar without its sign. -/
  abs : α → α
  /-- The order is decided. -/
  decLE : ∀ a b : α, Decidable (a ≤ b)
  /-- The strict order is decided. -/
  decLT : ∀ a b : α, Decidable (a < b)
  /-- The total order in which scores are ranked. -/
  rank : α → α → Ordering
  /-- Ranking is a total preorder. -/
  transRank : Std.TransCmp rank
  /-- The scalar nearest to a decimal, unless the decimal is out of range. -/
  ofDecimal? : Decimal → Option α
  /-- The scalar that a text without surrounding blanks denotes, if any. -/
  read? : List Char → Option α
  /-- The text of a scalar. -/
  text : α → String

namespace Scalar

variable {α : Type} [Scalar α]

instance (a b : α) : Decidable (a ≤ b) := decLE a b
instance (a b : α) : Decidable (a < b) := decLT a b
instance : Std.TransCmp (rank : α → α → Ordering) := transRank

instance : Inhabited α := ⟨ofNat 0⟩

/-- The mean of a list of scalars, if it has any: their sum, from the first on,
    divided by their count. -/
def mean? : List α → Option α
  | [] => none
  | x :: xs => some (xs.foldl (· + ·) x / ofNat (xs.length + 1))

/-- Whether `value` lies at most `tolerance` off `center`. -/
def within (center value tolerance : α) : Bool :=
  center - tolerance ≤ value && value ≤ center + tolerance

/-- The distance between two scalars. -/
def distance (a b : α) : α := abs (a - b)

end Scalar

end Matchmaking
