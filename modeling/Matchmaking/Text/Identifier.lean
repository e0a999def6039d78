/-!
# Identifiers

An identifier is written as 32 hexadecimal digits in five groups. Six of its 128
bits are fixed, and mark it as one that was drawn at random; the others are those
of a number.
-/

namespace Matchmaking

namespace Identifier

/-- The last `count` hexadecimal digits of a number. -/
def hex (count n : Nat) : List Char :=
  let digits := Nat.toDigits 16 (n % Nat.pow 16 count)
  List.replicate (count - digits.length) '0' ++ digits

/-- The groups of digits of the identifier of a number. -/
def groups (n : Nat) : List (List Char) :=
  let first := hex 12 (n / Nat.pow 2 74)
  let last := hex 16 (Nat.pow 2 63 + n % Nat.pow 2 62)
  [first.take 8, first.drop 8, '4' :: hex 3 (n / Nat.pow 2 62), last.take 4, last.drop 4]

/-- The text of the identifier of a number. -/
def text (n : Nat) : String := String.ofList (['-'].intercalate (groups n))

end Identifier

end Matchmaking
