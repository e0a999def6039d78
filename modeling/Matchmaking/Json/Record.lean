import Matchmaking.Dict
import Matchmaking.Instant.Text
import Matchmaking.Json
import Matchmaking.Number.Word

/-!
# Records in JSON

A record is written as an object with one field for each of its parts, or as
the list of its parts in their declared order, of which the last ones may be
missing. Fields with other names are ignored, and no part is given twice. A part
is required, or has a default when it is missing, or is optional: then it may
also be null.

Reading a record either gives it or fails; why it fails is not told.
-/

namespace Matchmaking

namespace Json

variable {α β : Type}

/-! ### Values -/

/-- A truth value. -/
def bool? : Json α → Option Bool
  | .bool b => some b
  | _ => none

/-- A text. -/
def text? : Json α → Option String
  | .str s => some s
  | _ => none

/-- A whole number from `low` to `high`. -/
def intBetween? (low high : Int) : Json α → Option Int
  | .int n => if low ≤ n ∧ n ≤ high then some n else none
  | _ => none

/-- A count, which fits a word. -/
def count? : Json α → Option Nat
  | .int n => if 0 ≤ n ∧ n < Word.size then some n.toNat else none
  | _ => none

/-- A latency. -/
def latency? (j : Json α) : Option Latency := j.count?.map UInt64.ofNat

/-- A whole number as a scalar. -/
def scalarOfInt? [Scalar α] (n : Int) : Option α :=
  Scalar.ofDecimal? ⟨n < 0, n.natAbs, 0⟩

/-- A number. -/
def scalar? [Scalar α] : Json α → Option α
  | .int n => scalarOfInt? n
  | .real x => some x
  | _ => none

/-- An instant, written as a text. -/
def instant? (j : Json α) : Option Instant := j.text?.bind Instant.read?

/-- The list of the readings of a list, if all its items can be read. -/
def readAll? (read? : Json α → Option β) : List (Json α) → Option (List β)
  | [] => some []
  | j :: js =>
    match read? j with
    | some x => (readAll? read? js).map (x :: ·)
    | none => none

/-- A list of values. -/
def list? (read? : Json α → Option β) : Json α → Option (List β)
  | .arr items => readAll? read? items
  | _ => none

/-- The entries of a list of fields, if all their values can be read. -/
def readFields? (read? : Json α → Option β) : List (String × Json α) → Option (List (String × β))
  | [] => some []
  | (k, j) :: fs =>
    match read? j with
    | some x => (readFields? read? fs).map ((k, x) :: ·)
    | none => none

/-- A dictionary of values. -/
def dict? (read? : Json α → Option β) : Json α → Option (Dict β)
  | .obj fields => (readFields? read? fields).map Dict.ofList
  | _ => none

/-- One of finitely many names, as a text, or as the name of the only field of
    an object whose value is null. -/
def oneOf? (names : List (String × β)) : Json α → Option β
  | .str s => names.lookup s
  | .obj [(s, .null)] => names.lookup s
  | _ => none

/-! ### Parts -/

/-- The parts of a record, by name. -/
abbrev Parts (α : Type) := String → Option (Json α)

/-- Whether a list of fields has at most one of each name of a list. -/
def givenOnce (names : List String) (fields : List (String × Json α)) : Bool :=
  names.all fun k => (fields.filter fun f => f.1 == k).length ≤ 1

/-- The parts of a record with the given names. -/
def parts? (names : List String) : Json α → Option (Parts α)
  | .obj fields => if givenOnce names fields then some fun k => getField k fields else none
  | .arr items =>
    if items.length ≤ names.length then some fun k => (names.zip items).lookup k else none
  | _ => none

namespace Parts

/-- A part that must be there. -/
def required (p : Parts α) (k : String) (read? : Json α → Option β) : Option β :=
  (p k).bind read?

/-- A part that is `v` if it is missing. -/
def default (p : Parts α) (k : String) (v : β) (read? : Json α → Option β) : Option β :=
  match p k with
  | none => some v
  | some j => read? j

/-- A part that may be missing or null. -/
def optional (p : Parts α) (k : String) (read? : Json α → Option β) : Option (Option β) :=
  match p k with
  | none => some none
  | some .null => some none
  | some j => (read? j).map some

end Parts

/-! ### Writing -/

/-- An instant, written as a text. -/
def ofInstant (a : Instant) : Json α := .str a.text

/-- A list of values. -/
def ofList (write : β → Json α) (xs : List β) : Json α := .arr (xs.map write)

/-- A dictionary of values. -/
def ofDict (write : β → Json α) (d : Dict β) : Json α := .obj (d.map write).toList

/-- The field of an optional part, which is left out if the part is missing. -/
def optionalField (k : String) (write : β → Json α) : Option β → List (String × Json α)
  | none => []
  | some x => [(k, write x)]

end Json

end Matchmaking
