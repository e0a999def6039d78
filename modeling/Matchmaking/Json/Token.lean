import Matchmaking.Json
import Matchmaking.Number.Radix
import Matchmaking.Number.Word

/-!
# JSON tokens

A JSON text is cut into tokens by a scanner that looks at one character at a
time: outside of tokens, in a word, or in a quoted text. A word is a name or a
number; what it denotes is decided when it ends. A quoted text is kept as code
points until it ends; an escape may give half of a pair of them, and a text in
which one half stands alone has no characters.
-/

namespace Matchmaking

namespace Json

/-- A token of a JSON text. -/
inductive Token (α : Type) where
  /-- One of the six punctuation marks. -/
  | mark (c : Char)
  /-- A quoted text, if it has characters. -/
  | text (s : Option String)
  /-- A name or a number. -/
  | atom (v : Json α)

/-- Where the scanner is. The characters of an unfinished word and the code points
    of an unfinished text are kept in reverse. -/
inductive Place where
  /-- Between tokens. -/
  | outside
  /-- In a name or a number. -/
  | word (done : List Char)
  /-- In a quoted text. -/
  | quoted (done : List Nat)
  /-- In a quoted text, after a backslash. -/
  | escaped (done : List Nat)
  /-- In a quoted text, in the four hexadecimal digits of a code point, of which
      `left` are missing. -/
  | unit (done : List Nat) (left : Nat) (value : Nat)

/-- The characters that may stand between tokens. -/
def isGap (c : Char) : Bool := c == ' ' || c == '\t' || c == '\n' || c == '\r'

/-- The punctuation marks. -/
def isMark (c : Char) : Bool :=
  c == '[' || c == ']' || c == '\x7b' || c == '\x7d' || c == ',' || c == ':'

/-- The characters of names and numbers. -/
def isWordChar (c : Char) : Bool :=
  c.isAlphanum || c == '-' || c == '+' || c == '.'

/-- The character that a backslash and a letter stand for. -/
def escape? : Char → Option Char
  | '"' => some '"'
  | '\\' => some '\\'
  | '/' => some '/'
  | 'b' => some '\x08'
  | 'f' => some '\x0c'
  | 'n' => some '\n'
  | 'r' => some '\r'
  | 't' => some '\t'
  | _ => none

/-- Whether a code point is the first half of a pair. -/
def isFirstHalf (n : Nat) : Bool := 0xD800 ≤ n && n < 0xDC00

/-- Whether a code point is the second half of a pair. -/
def isSecondHalf (n : Nat) : Bool := 0xDC00 ≤ n && n < 0xE000

/-- The characters of code points, in which every half has its other half. -/
def characters? : List Nat → Option (List Char)
  | [] => some []
  | [n] => if isFirstHalf n || isSecondHalf n then none else some [Char.ofNat n]
  | n :: m :: ns =>
    if isSecondHalf n then none
    else if isFirstHalf n then
      if isSecondHalf m then
        (characters? ns).map (Char.ofNat (0x10000 + (n - 0xD800) * 0x400 + (m - 0xDC00)) :: ·)
      else none
    else (characters? (m :: ns)).map (Char.ofNat n :: ·)

/-- The text of code points in reverse, if it has characters. -/
def textOf (done : List Nat) : Option String := (characters? done.reverse).map String.ofList

variable {α : Type} [Scalar α]

/-- The number that a numeral denotes: a whole number if it is written as one,
    fits a word and is no negative zero, and else a scalar if it is in range. -/
def number (n : Numeral) : Json α :=
  let d := n.toDecimal
  let whole : Int := if d.negative then -d.digits else d.digits
  if n.isWhole && !(d.negative && d.digits == 0) && -(Word.half : Int) ≤ whole && whole < Word.size then
    .int whole
  else ((Scalar.ofDecimal? d).map .real).getD .beyond

/-- What a word denotes: one of three names, or a number. -/
def word? (cs : List Char) : Option (Json α) :=
  match String.ofList cs with
  | "null" => some .null
  | "true" => some (.bool true)
  | "false" => some (.bool false)
  | _ =>
    match Numeral.scan cs with
    | (n, []) => if n.isStrict then some (number n) else none
    | _ => none

/-- One character outside of tokens: where the scanner is then, and the tokens
    with the one that the character completes. Tokens are kept in reverse. -/
def start? (ts : List (Token α)) (c : Char) : Option (Place × List (Token α)) :=
  if isGap c then some (.outside, ts)
  else if isMark c then some (.outside, .mark c :: ts)
  else if c = '"' then some (.quoted [], ts)
  else if isWordChar c then some (.word [c], ts)
  else none

/-- One character: where the scanner is then, and the tokens so far. -/
def advance? (ts : List (Token α)) : Place → Char → Option (Place × List (Token α))
  | .outside, c => start? ts c
  | .word done, c =>
    if isWordChar c then some (.word (c :: done), ts)
    else do
      let v ← word? done.reverse
      start? (.atom v :: ts) c
  | .quoted done, c =>
    if c = '"' then some (.outside, .text (textOf done) :: ts)
    else if c = '\\' then some (.escaped done, ts)
    else if c.toNat < 32 then none
    else some (.quoted (c.toNat :: done), ts)
  | .escaped done, c =>
    if c = 'u' then some (.unit done 4 0, ts)
    else do
      let e ← escape? c
      some (.quoted (e.toNat :: done), ts)
  | .unit done left value, c => do
    let digit ← Radix.digit? 16 c
    let value := 16 * value + digit
    if left = 1 then return (.quoted (value :: done), ts)
    else return (.unit done (left - 1) value, ts)

/-- The tokens of the characters, which the scanner enters at a place with some
    tokens already cut. -/
def scan? : Place → List (Token α) → List Char → Option (List (Token α))
  | .outside, ts, [] => some ts.reverse
  | .word done, ts, [] => (word? done.reverse).map fun v => (.atom v :: ts).reverse
  | _, _, [] => none
  | place, ts, c :: cs =>
    match advance? ts place c with
    | some (place, ts) => scan? place ts cs
    | none => none

/-- The tokens of a JSON text. -/
def tokens? (s : String) : Option (List (Token α)) := scan? .outside [] s.toList

end Json

end Matchmaking
