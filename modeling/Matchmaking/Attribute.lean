import Matchmaking.Json.Record
import Matchmaking.NameSet

/-!
# Attributes

Parties, members and sessions carry attributes: values under names. A value is
a truth value, a number, a text or a list of texts. Rules about shared or
distinct values do not tell a single value from a list, so every value has a
view as a set of names (`Value.names`), in which blank texts do not count.
-/

namespace Matchmaking

/-- The value of an attribute, with numbers in `α`. -/
inductive Value (α : Type) where
  | bool (b : Bool)
  | number (x : α)
  | text (s : String)
  | list (items : List String)
  deriving DecidableEq

/-- Values under names. -/
abbrev Attributes (α : Type) := Dict (Value α)

/-! ## Names with a meaning of their own -/

namespace Key

/-- The platforms that a party is willing to play with. -/
def crossPlatform : String := "cross_platform"

/-- The platforms that the members of a party play on. -/
def currentPlatform : String := "current_platform"

/-- The players that are not to be met. -/
def blockedPlayers : String := "blocked_players"

/-- The modes that a party accepts. -/
def mode : String := "sub_game_mode"

/-- Whether a party stays out of sessions that have begun. -/
def newSessionOnly : String := "new_session_only"

/-- The roles that a member is willing to take. -/
def role : String := "role"

/-- The role that stands for every role. -/
def anyRole : String := "any"

/-- The names of attributes that rules of their own deal with; all others are
    custom attributes. -/
def housekeeping : List String :=
  [crossPlatform, currentPlatform, blockedPlayers, mode, newSessionOnly]

/-- Whether an attribute is not a custom one. -/
def isHousekeeping (k : String) : Bool := housekeeping.contains k

end Key

namespace Value

variable {α : Type} [Scalar α]

/-- The number that a value is or that its text denotes. -/
def scalar? : Value α → Option α
  | number x => some x
  | text s => Scalar.read? (trimBlank s.toList)
  | _ => none

/-- The text of a value that is one. -/
def text? : Value α → Option String
  | text s => some s
  | _ => none

/-- The truth value that a value is or that its text names. -/
def flag? : Value α → Option Bool
  | bool b => some b
  | text "true" => some true
  | text "false" => some false
  | _ => none

/-- The name of a truth value. -/
def flagName (b : Bool) : String := if b then "true" else "false"

/-- The value as a set of names. -/
def names : Value α → NameSet
  | bool b => .ofList [flagName b]
  | number x => .ofList [Scalar.text x]
  | text s => .ofList ([s].filter fun s => !isBlank s)
  | list items => .ofList (items.filter fun s => !isBlank s)

/-- A set of names as a value. -/
def ofNames (s : NameSet) : Value α := .list s.toList

/-- A value is read from a JSON value of its own kind. -/
def ofJson? : Json α → Option (Value α)
  | .bool b => some (.bool b)
  | .str s => some (.text s)
  | .arr items => (Json.readAll? Json.text? items).map .list
  | j => j.scalar?.map .number

/-- The value in JSON. -/
def toJson : Value α → Json α
  | bool b => .bool b
  | number x => .real x
  | text s => .str s
  | list items => Json.texts items

end Value

namespace Attributes

variable {α : Type} [Scalar α]

/-- The names under `k`, none if there is no value. -/
def names (a : Attributes α) (k : String) : NameSet := ((a.get? k).map Value.names).getD ∅

/-- The number under `k`, if there is one. -/
def scalar? (a : Attributes α) (k : String) : Option α := (a.get? k).bind Value.scalar?

/-- Attributes are read from an object of values. -/
def ofJson? : Json α → Option (Attributes α) := Json.dict? Value.ofJson?

/-- The attributes in JSON. -/
def toJson (a : Attributes α) : Json α := Json.ofDict Value.toJson a

end Attributes

end Matchmaking
