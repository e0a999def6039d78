import Matchmaking.Instant.Text
import Matchmaking.Number.Scalar
import Matchmaking.Number.Word
import Matchmaking.Toml.Table

/-!
# Values of settings

A value is a text, a truth value, a number, a date or a time of day, a list in
brackets or a table in braces. A list may go on over lines and end in a comma, a
table in braces does neither. Both are nested up to `maxDepth` deep.

Single underscores may stand between the digits of a number. Whole numbers fit a
signed word; those without a sign may be written in the bases 16, 8 and 2. A date
is read as an object that holds its text, as no setting is one.
-/

namespace Matchmaking

namespace Toml

variable {α : Type}

/-- How deep lists and tables may be nested in a value. -/
def maxDepth : Nat := 79

/-- The characters after the mark `c`. -/
def mark? (c : Char) : List Char → Option (List Char)
  | [] => none
  | d :: cs => if d = c then some cs else none

/-! ### Numbers -/

/-- The digits at the head of the characters, without the underscores between them,
    and the rest. -/
def digits? (isDigit : Char → Bool) (cs : List Char) : Option (List Char × List Char) :=
  let written := cs.takeWhile fun c => isDigit c || c == '_'
  let groups := written.splitOn '_'
  if groups.any List.isEmpty then none else some (groups.flatten, cs.drop written.length)

/-- A whole number, which fits a signed word. -/
def whole? (n : Int) : Option (Json α) :=
  if -(Word.half : Int) ≤ n ∧ n < Word.half then some (.int n) else none

/-- A whole number in a base, and what follows it. -/
def based? (base : Nat) (cs : List Char) : Option (Json α × List Char) := do
  let (ds, cs) ← digits? (Radix.isDigit base) cs
  return (← whole? (Radix.value base ds), cs)

/-- The digits of a number before its point: a zero alone or digits without one in
    front. -/
def wholePart? : List Char → Option (List Char × List Char)
  | '0' :: cs => some (['0'], cs)
  | cs => digits? Char.isDigit cs

/-- The digits after a point, if there is one. -/
def fraction? : List Char → Option (Option (List Char) × List Char)
  | '.' :: cs => (digits? Char.isDigit cs).map fun (ds, cs) => (some ds, cs)
  | cs => some (none, cs)

/-- The sign and the digits after the mark of an exponent, if there is one. -/
def exponent? : List Char → Option (Option (Option Char × List Char) × List Char)
  | [] => some (none, [])
  | c :: cs =>
    if c = 'e' || c = 'E' then
      let (sign, cs) := Numeral.scanSign cs
      (digits? Char.isDigit cs).map fun (ds, cs) => (some (sign, ds), cs)
    else some (none, c :: cs)

/-- The scalar of a numeral. One too large for a scalar is none, one too small for
    it is infinite. -/
def scalar? [Scalar α] (n : Numeral) : Option α :=
  let d := n.toDecimal
  match Scalar.ofDecimal? d with
  | some x => some x
  | none => if d.negative then Scalar.read? "-inf".toList else none

/-- A number, and what follows it. -/
def number? [Scalar α] : List Char → Option (Json α × List Char)
  | '0' :: 'x' :: cs => based? 16 cs
  | '0' :: 'o' :: cs => based? 8 cs
  | '0' :: 'b' :: cs => based? 2 cs
  | cs => do
    let (sign, cs) := Numeral.scanSign cs
    let (whole, cs) ← wholePart? cs
    let (fraction, cs) ← fraction? cs
    let (exponent, cs) ← exponent? cs
    let n : Numeral := ⟨sign, whole, fraction, exponent⟩
    if n.isWhole then
      let d := n.toDecimal
      return (← whole? (if d.negative then -(d.digits : Int) else d.digits), cs)
    else return (.real (← scalar? n), cs)

/-! ### Dates and names -/

/-- The characters after a date of the calendar. -/
def afterDate? (cs : List Char) : Option (List Char) := do
  let (year, cs) ← Instant.number? 4 4 cs
  let (month, cs) ← Instant.number? 2 2 (← mark? '-' cs)
  let (day, cs) ← Instant.number? 2 2 (← mark? '-' cs)
  if (Date.toDays? ⟨year, month, day⟩).isSome then return cs else none

/-- The characters after an hour and a minute. -/
def afterMinute? (cs : List Char) : Option (List Char) := do
  let (hour, cs) ← Instant.number? 2 2 cs
  let (minute, cs) ← Instant.number? 2 2 (← mark? ':' cs)
  if hour ≤ 23 && minute ≤ 59 then return cs else none

/-- The characters after a time of day. -/
def afterTime? (cs : List Char) : Option (List Char) := do
  let (sec, cs) ← Instant.number? 2 2 (← mark? ':' (← afterMinute? cs))
  let (_, cs) ← Instant.fraction? cs
  if sec ≤ 60 then return cs else none

/-- The characters after an offset from universal time. -/
def afterOffset? : List Char → Option (List Char)
  | [] => none
  | c :: cs =>
    if c = 'Z' || c = 'z' then some cs
    else if c = '+' || c = '-' then afterMinute? cs
    else none

/-- The characters after a time of day that follows a date, if there is one, and
    its offset, if there is one. -/
def afterMoment? : List Char → Option (List Char)
  | [] => none
  | c :: cs =>
    if c = 'T' || c = 't' || c = ' ' then
      (afterTime? cs).map fun cs => (afterOffset? cs).getD cs
    else none

/-- A date, a time of day or both, and what follows. -/
def date? (cs : List Char) : Option (Json α × List Char) := do
  let rest ← match afterDate? cs with
    | some rest => some ((afterMoment? rest).getD rest)
    | none => afterTime? cs
  return (.obj [("date", .str (String.ofList (cs.take (cs.length - rest.length))))], rest)

/-- The values that have names. -/
def names : List String := ["true", "false", "inf", "+inf", "-inf", "nan", "+nan", "-nan"]

/-- The value that has a name. -/
def named? [Scalar α] : String → Option (Json α)
  | "true" => some (.bool true)
  | "false" => some (.bool false)
  | name => (Scalar.read? name.toList).map .real

/-- A value with a name, and what follows it. -/
def word? [Scalar α] (cs : List Char) : Option (Json α × List Char) :=
  names.findSome? fun name => do return (← named? name, ← name.toList.isPrefixOf? cs)

/-! ### Lists and tables -/

/-- A value that holds no others, and what follows it. -/
def simple? [Scalar α] (cs : List Char) : Option (Json α × List Char) :=
  ((text? cs).map fun (s, cs) => (.str s, cs)) <|> word? cs <|> date? cs <|> number? cs

/-- The items of a list up to its end and what follows it, after some items in
    reverse. Each item has a character at least, of which `fuel` are left. -/
def items? (value? : List Char → Option (Json α × List Char)) :
    (fuel : Nat) → List (Json α) → List Char → Option (List (Json α) × List Char)
  | 0, _, _ => none
  | fuel + 1, items, cs =>
    match skipLines false cs with
    | ']' :: cs => some (items.reverse, cs)
    | cs => do
      let (v, cs) ← value? cs
      match skipLines false cs with
      | ',' :: cs => items? value? fuel (v :: items) cs
      | ']' :: cs => return ((v :: items).reverse, cs)
      | _ => none

/-- A name, an equals sign and a value, and what follows. -/
def setting? (value? : List Char → Option (Json α × List Char)) (cs : List Char) :
    Option ((Name × Json α) × List Char) := do
  let (name, cs) ← name? cs
  let (v, cs) ← value? (skip (← mark? '=' cs))
  return ((name, v), cs)

/-- The values of a table up to its end and what follows it, after some values in
    reverse. Each value has a character at least, of which `fuel` are left. -/
def values? (value? : List Char → Option (Json α × List Char)) :
    (fuel : Nat) → List (Name × Json α) → List Char → Option (List (Name × Json α) × List Char)
  | 0, _, _ => none
  | fuel + 1, values, cs => do
    let (v, cs) ← setting? value? cs
    match skip cs with
    | ',' :: cs => values? value? fuel (v :: values) cs
    | '\x7d' :: cs => return ((v :: values).reverse, cs)
    | _ => none

/-- A table after its opening brace, and what follows it. -/
def table? (value? : List Char → Option (Json α × List Char)) (cs : List Char) :
    Option (Json α × List Char) :=
  match skip cs with
  | '\x7d' :: cs => some (.obj [], cs)
  | cs => do
    let (values, cs) ← values? value? cs.length [] cs
    return (.obj (Node.fields (← Entries.ofValues? values)), cs)

/-- A value in which so many lists and tables are nested, and what follows it. -/
def valueWithin? [Scalar α] : (room : Nat) → List Char → Option (Json α × List Char)
  | 0, cs => simple? cs
  | room + 1, cs =>
    match cs with
    | '[' :: cs => (items? (valueWithin? room) (cs.length + 1) [] cs).map fun (js, cs) => (.arr js, cs)
    | '\x7b' :: cs => table? (valueWithin? room) cs
    | cs => simple? cs

/-- A value, and what follows it. -/
def value? [Scalar α] (cs : List Char) : Option (Json α × List Char) := valueWithin? maxDepth cs

end Toml

end Matchmaking
