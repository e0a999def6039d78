/-!
# Numbers in other bases

A number in a base up to 36 is written in the digits and, for those from ten on,
in letters of either case.
-/

namespace Matchmaking

namespace Radix

/-- The value of a digit or of a letter, if the base has it. -/
def digit? (base : Nat) (c : Char) : Option Nat :=
  let value :=
    if c.isDigit then c.toNat - 48
    else if c.isLower then c.toNat - 87
    else if c.isUpper then c.toNat - 55
    else base
  if value < base then some value else none

/-- Whether a base has a digit. -/
def isDigit (base : Nat) (c : Char) : Bool := (digit? base c).isSome

/-- The number that digits of a base denote. -/
def value (base : Nat) (cs : List Char) : Nat :=
  cs.foldl (fun n c => base * n + (digit? base c).getD 0) 0

end Radix

end Matchmaking
