import Matchmaking.Json

/-!
# Writing JSON

A JSON value is written with every item and every field on a line of its own,
two spaces deeper than what it is part of. Empty lists and objects are written
without a line break. The text of a scalar is given by the caller, and what
cannot be held is written as null.
-/

namespace Matchmaking

namespace Json

variable {α : Type}

/-- The hexadecimal digits of a control character. -/
def controlDigits (n : Nat) : List Char := [Nat.digitChar (n / 16), Nat.digitChar (n % 16)]

/-- A character of a quoted text. -/
def quoteChar : Char → List Char
  | '"' => ['\\', '"']
  | '\\' => ['\\', '\\']
  | '\n' => ['\\', 'n']
  | '\r' => ['\\', 'r']
  | '\t' => ['\\', 't']
  | '\x08' => ['\\', 'b']
  | '\x0c' => ['\\', 'f']
  | c => if c.toNat < 32 then '\\' :: 'u' :: '0' :: '0' :: controlDigits c.toNat else [c]

/-- A text in quotes. -/
def quote (s : String) : String := String.ofList ('"' :: s.toList.flatMap quoteChar ++ ['"'])

/-- A line break and the indentation of depth `depth`. -/
def line (depth : Nat) : String := String.ofList ('\n' :: List.replicate (2 * depth) ' ')

mutual

/-- A value at depth `depth`. -/
def renderAt (number : α → String) (depth : Nat) : Json α → String
  | .null | .beyond => "null"
  | .bool b => if b then "true" else "false"
  | .int n => toString n
  | .real x => number x
  | .str s => quote s
  | .arr [] => "[]"
  | .arr (j :: js) =>
    "[" ++ line (depth + 1) ++ renderAt number (depth + 1) j ++
      renderItems number (depth + 1) js ++ line depth ++ "]"
  | .obj [] => "\x7b\x7d"
  | .obj ((k, j) :: fs) =>
    "\x7b" ++ line (depth + 1) ++ quote k ++ ": " ++ renderAt number (depth + 1) j ++
      renderFields number (depth + 1) fs ++ line depth ++ "\x7d"

/-- The items after the first of a list. -/
def renderItems (number : α → String) (depth : Nat) : List (Json α) → String
  | [] => ""
  | j :: js => "," ++ line depth ++ renderAt number depth j ++ renderItems number depth js

/-- The fields after the first of an object. -/
def renderFields (number : α → String) (depth : Nat) : List (String × Json α) → String
  | [] => ""
  | (k, j) :: fs =>
    "," ++ line depth ++ quote k ++ ": " ++ renderAt number depth j ++
      renderFields number depth fs

end

/-- The text of a value. -/
def render (number : α → String) (j : Json α) : String := renderAt number 0 j

end Json

end Matchmaking
