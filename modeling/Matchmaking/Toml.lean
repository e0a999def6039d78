import Matchmaking.Toml.Value

/-!
# Settings files

Settings are written in TOML, one statement in a line: a header in brackets opens
a table, a header in double brackets adds a table to a list, and what is neither
gives a value to a name in the table of the header before it. The tables of a file
are read as JSON objects.
-/

namespace Matchmaking

namespace Toml

variable {α : Type}

/-- A statement of a settings file. -/
inductive Statement (α : Type) where
  /-- A table is opened. -/
  | table (name : Name)
  /-- A table is added to a list. -/
  | item (name : Name)
  /-- A value is given. -/
  | value (name : Name) (v : Json α)

/-- A statement, and what follows it. -/
def statement? [Scalar α] : List Char → Option (Statement α × List Char)
  | '[' :: '[' :: cs => do
    let (name, cs) ← name? cs
    return (.item name, ← mark? ']' (← mark? ']' cs))
  | '[' :: cs => do
    let (name, cs) ← name? cs
    return (.table name, ← mark? ']' cs)
  | cs => do
    let ((name, v), cs) ← setting? value? cs
    return (.value name v, cs)

/-- The statements of some characters. Each statement has a character at least, of
    which `fuel` are left. -/
def statements? [Scalar α] : (fuel : Nat) → List Char → Option (List (Statement α))
  | 0, _ => none
  | fuel + 1, cs =>
    match skipLines false cs with
    | [] => some []
    | cs => do
      let (s, cs) ← statement? cs
      return s :: (← statements? fuel (← endLine? cs))

/-- What the statements so far have made. -/
structure Document (α : Type) where
  /-- The outermost table. -/
  entries : Entries α
  /-- The path of the table that values are given in. -/
  current : List String

/-- One more statement. -/
def Document.add? (d : Document α) : Statement α → Option (Document α)
  | .table name => do
    return ⟨← d.entries.change? .implied (Entries.openTable? name.last) name.path, name.parts⟩
  | .item name => do
    return ⟨← d.entries.change? .implied (Entries.addTable? name.last) name.path, name.parts⟩
  | .value name v => do
    return { d with entries := ← d.entries.change? .implied (Entries.giveAt? name v) d.current }

/-- The fields of the outermost table of a text. -/
def read? [Scalar α] (s : String) : Option (List (String × Json α)) := do
  let cs := characters s
  let d ← (← statements? (cs.length + 1) cs).foldlM Document.add? ⟨[], []⟩
  return Node.fields d.entries

end Toml

end Matchmaking
