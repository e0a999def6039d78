import Matchmaking.Number.Scalar

/-!
# JSON values

Records are exchanged as JSON. Numbers written without point and exponent are
kept apart from the others, as only they can be counts; all others are scalars.
An object is the list of its fields, in order.

What is written well need not have a value: a number may be out of range, and a
text may hold half of a character. Such a value is `beyond` the others; a record
can hold it in a part that nobody reads, but it is never read as anything.
-/

namespace Matchmaking

/-- A JSON value with numbers in `α`. -/
inductive Json (α : Type) where
  | null
  | bool (b : Bool)
  /-- A whole number. -/
  | int (n : Int)
  /-- A number with a point or an exponent, or one too large for a word. -/
  | real (x : α)
  | str (s : String)
  | arr (items : List (Json α))
  | obj (fields : List (String × Json α))
  /-- What cannot be held. -/
  | beyond
  deriving Inhabited

namespace Json

variable {α : Type}

/-- The fields with the field `k` set to `v`: in its place if it is there, at
    the end if it is not. -/
def setField {β : Type} (k : String) (v : β) : List (String × β) → List (String × β)
  | [] => [(k, v)]
  | (y, w) :: fs => if y = k then (k, v) :: fs else (y, w) :: setField k v fs

/-- The field `k` of a list of fields. -/
def getField {β : Type} (k : String) (fs : List (String × β)) : Option β :=
  (fs.find? fun f => f.1 == k).map (·.2)

/-- The field `k`, if the value is an object that has one. -/
def field? (k : String) : Json α → Option (Json α)
  | .obj fs => getField k fs
  | _ => none

mutual

/-- Whether all that a value is made of can be held, in at most `room` lists and
    objects around one another. -/
def isHeld : Nat → Json α → Bool
  | _, .beyond => false
  | 0, .arr _ => false
  | 0, .obj _ => false
  | room + 1, .arr items => areHeld room items
  | room + 1, .obj fields => areFieldsHeld room fields
  | _, _ => true

/-- Whether all items of a list can be held. -/
def areHeld (room : Nat) : List (Json α) → Bool
  | [] => true
  | j :: js => isHeld room j && areHeld room js

/-- Whether the values of all fields can be held. -/
def areFieldsHeld (room : Nat) : List (String × Json α) → Bool
  | [] => true
  | (_, j) :: fs => isHeld room j && areFieldsHeld room fs

end

/-- The whole number `n`. -/
def ofNat (n : Nat) : Json α := .int n

/-- A list of texts. -/
def texts (ss : List String) : Json α := .arr (ss.map .str)

end Json

end Matchmaking
