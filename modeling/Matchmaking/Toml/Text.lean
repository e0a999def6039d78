import Matchmaking.Number.Radix

/-!
# Characters, texts and names of settings files

Blanks separate what stands in one line, a comment runs up to the end of its line,
and between values lines may be empty.

A text stands in double quotes, in which a backslash escapes, or in single quotes,
in which nothing does. Three quotes open a text that spans lines: it holds up to
two quotes in a row, and at its very end as well, and its first line is left out
if that is empty. In it a backslash at the end of a line takes the end of that
line away and all blanks up to the next character.

The reader of a text looks at one character at a time.
-/

namespace Matchmaking

namespace Toml

/-! ### Characters -/

/-- A blank in a line. -/
def isSpace (c : Char) : Bool := c == ' ' || c == '\t'

/-- A character that may stand in a line. -/
def isPrintable (c : Char) : Bool := c == '\t' || (32 ≤ c.toNat && c.toNat != 127)

/-- A character of a name that is not quoted. -/
def isNameChar (c : Char) : Bool := c.isAlphanum || c == '_' || c == '-'

/-- The characters without the blanks before them. -/
def skip (cs : List Char) : List Char := cs.dropWhile isSpace

/-- The characters without the blanks, the ends of lines and the comments before
    them, in a comment or not. -/
def skipLines (inComment : Bool) : List Char → List Char
  | [] => []
  | c :: cs =>
    if c = '\n' then skipLines false cs
    else if isSpace c || inComment && isPrintable c then skipLines inComment cs
    else if c = '#' then skipLines true cs
    else c :: cs

/-- The characters after the end of a line, before which nothing but blanks and a
    comment is left. -/
def endLine? (cs : List Char) : Option (List Char) :=
  let cs := skip cs
  match if cs.head? = some '#' then cs.dropWhile isPrintable else cs with
  | [] => some []
  | c :: cs => if c = '\n' then some cs else none

/-- The characters with a line feed for each pair of a carriage return and a line
    feed. -/
def joinLineEnds : List Char → List Char
  | '\r' :: '\n' :: cs => '\n' :: joinLineEnds cs
  | c :: cs => c :: joinLineEnds cs
  | [] => []

/-- The characters of a text, without the mark of its encoding at its head. -/
def characters (s : String) : List Char :=
  joinLineEnds (match s.toList with
    | '\ufeff' :: cs => cs
    | cs => cs)

/-! ### Texts -/

/-- How a text is quoted. -/
structure Quoting where
  /-- The quote. -/
  quote : Char
  /-- Whether the text spans lines. -/
  spansLines : Bool

namespace Quoting

/-- Whether a backslash escapes. -/
def hasEscapes (q : Quoting) : Bool := q.quote == '"'

/-- How many quotes in a row end a text at least. -/
def least (q : Quoting) : Nat := if q.spansLines then 3 else 1

/-- How many quotes in a row end a text at most: those before the last ones belong
    to the text. -/
def most (q : Quoting) : Nat := if q.spansLines then 5 else 1

end Quoting

/-- Where the reader of a text is. -/
inductive Place where
  /-- Among the characters of the text. -/
  | plain
  /-- After so many quotes in a row. -/
  | quotes (count : Nat)
  /-- After a backslash. -/
  | escaped
  /-- In the digits of a code point, of which `left` are missing. -/
  | code (left value : Nat)
  /-- After a backslash and a blank: the line must end. -/
  | closing
  /-- After a backslash and the end of its line. -/
  | folded

/-- The characters that are escaped by a letter. -/
def letterEscapes : List (Char × Char) :=
  [('b', '\x08'), ('t', '\t'), ('n', '\n'), ('f', '\x0c'), ('r', '\r'), ('"', '"'), ('\\', '\\')]

namespace Quoting

variable (q : Quoting)

/-- One character of a text: where the reader is then, and the characters of the
    text so far, in reverse. -/
def plain? (text : List Char) (c : Char) : Option (Place × List Char) :=
  if c = q.quote then some (.quotes 1, text)
  else if q.hasEscapes && c == '\\' then some (.escaped, text)
  else if isPrintable c || q.spansLines && c == '\n' then some (.plain, c :: text)
  else none

/-- One character after a backslash. -/
def escaped? (text : List Char) (c : Char) : Option (Place × List Char) :=
  if c = 'u' then some (.code 4 0, text)
  else if c = 'U' then some (.code 8 0, text)
  else if q.spansLines && isSpace c then some (.closing, text)
  else if q.spansLines && c == '\n' then some (.folded, text)
  else (letterEscapes.lookup c).map fun d => (.plain, d :: text)

/-- One digit of a code point, which is that of a character. -/
def code? (text : List Char) (left value : Nat) (c : Char) : Option (Place × List Char) := do
  let value := 16 * value + (← Radix.digit? 16 c)
  if left ≠ 1 then return (.code (left - 1) value, text)
  else if value.isValidChar then return (.plain, Char.ofNat value :: text)
  else none

/-- One character, where it does not end the text. -/
def advance? (text : List Char) : Place → Char → Option (Place × List Char)
  | .plain, c => q.plain? text c
  | .quotes n, c =>
    if c = q.quote then some (.quotes (n + 1), text)
    else q.plain? (List.replicate n q.quote ++ text) c
  | .escaped, c => q.escaped? text c
  | .code left value, c => code? text left value c
  | .closing, c =>
    if isSpace c then some (.closing, text) else if c = '\n' then some (.folded, text) else none
  | .folded, c => if isSpace c || c == '\n' then some (.folded, text) else q.plain? text c

/-- Whether a text ends at a place, before the next character if there is one. -/
def endsAt : Place → Option Char → Bool
  | .quotes n, next => q.least ≤ n && (n == q.most || next != some q.quote)
  | _, _ => false

/-- A text after its last quotes, those that belong to it included. -/
def finish (text : List Char) : Place → String
  | .quotes n => String.ofList (text.reverse ++ List.replicate (n - q.least) q.quote)
  | _ => String.ofList text.reverse

/-- The text that the reader is in, and what follows it. -/
def read? : Place → List Char → List Char → Option (String × List Char)
  | place, text, [] => if q.endsAt place none then some (q.finish text place, []) else none
  | place, text, c :: cs =>
    if q.endsAt place (some c) then some (q.finish text place, c :: cs)
    else
      match q.advance? text place c with
      | some (place, text) => read? place text cs
      | none => none

end Quoting

/-- The characters of a text that spans lines, without an end of line at their
    head. -/
def dropFirstLine : List Char → List Char
  | '\n' :: cs => cs
  | cs => cs

/-- A text in quotes, and what follows it. -/
def text? : List Char → Option (String × List Char)
  | '"' :: '"' :: '"' :: cs => Quoting.read? ⟨'"', true⟩ .plain [] (dropFirstLine cs)
  | '\'' :: '\'' :: '\'' :: cs => Quoting.read? ⟨'\'', true⟩ .plain [] (dropFirstLine cs)
  | '"' :: cs => Quoting.read? ⟨'"', false⟩ .plain [] cs
  | '\'' :: cs => Quoting.read? ⟨'\'', false⟩ .plain [] cs
  | _ => none

/-! ### Names -/

/-- The name of a value or a table: the parts that lead to the table it stands in,
    and the last part. -/
structure Name where
  /-- The parts before the last one. -/
  path : List String
  /-- The last part. -/
  last : String

/-- All parts of a name. -/
def Name.parts (n : Name) : List String := n.path ++ [n.last]

/-- The greatest number of parts of a name. -/
def maxParts : Nat := 79

/-- One part of a name, and what follows it. A quoted one does not span lines. -/
def part? (cs : List Char) : Option (String × List Char) :=
  match cs with
  | '"' :: cs => Quoting.read? ⟨'"', false⟩ .plain [] cs
  | '\'' :: cs => Quoting.read? ⟨'\'', false⟩ .plain [] cs
  | _ =>
    match cs.takeWhile isNameChar with
    | [] => none
    | part => some (String.ofList part, cs.dropWhile isNameChar)

/-- A name of at most `room` parts with blanks around them, and what follows it. -/
def nameWithin? : Nat → List Char → Option (Name × List Char)
  | 0, _ => none
  | room + 1, cs => do
    let (part, cs) ← part? (skip cs)
    match skip cs with
    | '.' :: cs =>
      let (name, cs) ← nameWithin? room cs
      return (⟨part :: name.path, name.last⟩, cs)
    | cs => return (⟨[], part⟩, cs)

/-- A name, and what follows it. -/
def name? (cs : List Char) : Option (Name × List Char) := nameWithin? maxParts cs

end Toml

end Matchmaking
