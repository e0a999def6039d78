/-!
# Blank text

A character is blank if it is one of the white space characters of Unicode. A
text is blank if it has no other characters; trimming takes the blanks off both
ends.
-/

namespace Matchmaking

/-- The blank characters beyond ASCII and Latin-1, as ranges of code points. -/
def blankRanges : List (Nat × Nat) :=
  [(0x1680, 0x1680), (0x2000, 0x200A), (0x2028, 0x2029), (0x202F, 0x202F), (0x205F, 0x205F),
    (0x3000, 0x3000)]

/-- A blank character: the controls from tab to carriage return, the space, the
    next-line control, the no-break space and the wide blanks. -/
def isBlankChar (c : Char) : Bool :=
  let n := c.toNat
  (0x09 ≤ n && n ≤ 0x0D) || n == 0x20 || n == 0x85 || n == 0xA0 ||
    blankRanges.any fun r => r.1 ≤ n && n ≤ r.2

/-- A blank text has blank characters only. -/
def isBlank (s : String) : Bool :=
  s.toList.all isBlankChar

/-- The text without the blanks at its ends. -/
def trimBlank (cs : List Char) : List Char :=
  ((cs.dropWhile isBlankChar).reverse.dropWhile isBlankChar).reverse

end Matchmaking
