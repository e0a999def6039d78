import Matchmaking.Json.Token

/-!
# Reading JSON

A JSON text is read token by token. The reader keeps the lists and objects that
are open around the place it has reached, innermost first, and knows what may
come next. An object with a name that has no characters cannot be held.

The value is read as it is written (`Json.readAsWritten?`), or with one field for
each name of an object, the last one (`Json.read?`): then all of it must be held,
and nested in up to `maxDepth` lists and objects.
-/

namespace Matchmaking

namespace Json

/-- A list or an object that is not yet closed. -/
inductive Open (α : Type) where
  /-- A list, with its items so far in reverse. -/
  | list (items : List (Json α))
  /-- An object, with its fields so far in reverse, if all their names have
      characters, and the name of the one being read. -/
  | object (fields : Option (List (String × Json α))) (name : Option String)

/-- What may come next. -/
inductive Want (α : Type) where
  /-- A value. -/
  | value
  /-- A value, or the end of an empty list. -/
  | valueOrEnd
  /-- The name of a field of the object with the given fields, in reverse. -/
  | name (fields : Option (List (String × Json α)))
  /-- The name of a field, or the end of an empty object. -/
  | nameOrEnd
  /-- The colon after the name of a field. -/
  | colon (fields : Option (List (String × Json α))) (name : Option String)
  /-- A comma or the end of the innermost list or object. -/
  | more
  /-- Nothing: the value is complete. -/
  | nothing (v : Json α)

/-- The open lists and objects, innermost first, and what may come next. -/
structure Progress (α : Type) where
  /-- What is open. -/
  stack : List (Open α)
  /-- What may come next. -/
  want : Want α

/-- How deep lists and objects may be nested. -/
def maxDepth : Nat := 127

namespace Progress

variable {α : Type}

/-- The fields of an object with one more in front. -/
def addField (fields : Option (List (String × Json α))) (name : Option String) (v : Json α) :
    Option (List (String × Json α)) := do
  return (← name, v) :: (← fields)

/-- An object with fields in reverse. -/
def close (fields : Option (List (String × Json α))) : Json α :=
  match fields with
  | some fs => .obj fs.reverse
  | none => .beyond

/-- A complete value has its place in the innermost open list or object. -/
def push (v : Json α) : List (Open α) → Progress α
  | [] => ⟨[], .nothing v⟩
  | .list items :: stack => ⟨.list (v :: items) :: stack, .more⟩
  | .object fields name :: stack => ⟨.object (addField fields name v) name :: stack, .more⟩

/-- One token where a value may start. -/
def value? (stack : List (Open α)) : Token α → Option (Progress α)
  | .atom v => some (push v stack)
  | .text (some s) => some (push (.str s) stack)
  | .text none => some (push .beyond stack)
  | .mark c =>
    if c = '[' then some ⟨.list [] :: stack, .valueOrEnd⟩
    else if c = '\x7b' then some ⟨stack, .nameOrEnd⟩
    else none

/-- One token. -/
def step? (p : Progress α) (t : Token α) : Option (Progress α) :=
  match p.want, t with
  | .value, t => value? p.stack t
  | .valueOrEnd, .mark ']' =>
    match p.stack with
    | .list _ :: stack => some (push (.arr []) stack)
    | _ => none
  | .valueOrEnd, t => value? p.stack t
  | .nameOrEnd, .mark '\x7d' => some (push (.obj []) p.stack)
  | .nameOrEnd, .text k => some ⟨p.stack, .colon (some []) k⟩
  | .name fields, .text k => some ⟨p.stack, .colon fields k⟩
  | .colon fields k, .mark ':' => some ⟨.object fields k :: p.stack, .value⟩
  | .more, .mark ',' =>
    match p.stack with
    | .list items :: stack => some ⟨.list items :: stack, .value⟩
    | .object fields _ :: stack => some ⟨stack, .name fields⟩
    | [] => none
  | .more, .mark ']' =>
    match p.stack with
    | .list items :: stack => some (push (.arr items.reverse) stack)
    | _ => none
  | .more, .mark '\x7d' =>
    match p.stack with
    | .object fields _ :: stack => some (push (close fields) stack)
    | _ => none
  | _, _ => none

/-- The progress after all tokens. -/
def steps? : Progress α → List (Token α) → Option (Progress α)
  | p, [] => some p
  | p, t :: ts =>
    match p.step? t with
    | some p => steps? p ts
    | none => none

end Progress

variable {α : Type}

mutual

/-- A value with one field for each name of its objects, the last one. -/
def settle : Json α → Json α
  | .arr items => .arr (settleItems items)
  | .obj fields => .obj (settleFields [] fields)
  | j => j

/-- The items of a list, settled. -/
def settleItems : List (Json α) → List (Json α)
  | [] => []
  | j :: js => settle j :: settleItems js

/-- The fields of an object, settled, after some that are. -/
def settleFields (before : List (String × Json α)) :
    List (String × Json α) → List (String × Json α)
  | [] => before
  | (k, j) :: fs => settleFields (setField k (settle j) before) fs

end

/-- The value that a JSON text denotes, as it is written, if it is one. -/
def readAsWritten? [Scalar α] (s : String) : Option (Json α) := do
  let p ← Progress.steps? ⟨[], .value⟩ (← tokens? s)
  match p.want with
  | .nothing v => some v
  | _ => none

/-- The value that a JSON text denotes, if it is one and can be held. -/
def read? [Scalar α] (s : String) : Option (Json α) := do
  let j ← readAsWritten? s
  if j.isHeld maxDepth then return j.settle else none

end Json

end Matchmaking
