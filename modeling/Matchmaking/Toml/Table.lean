import Matchmaking.Json
import Matchmaking.Toml.Text

/-!
# Tables of settings

The settings of a file are a tree of tables. A table comes to be when a header opens
it, when the name of a header reaches into it, or when the name of a value does. A
header opens a table once, and no table that the names of values made. The name of a
value does not reach into a table that a header opened, and with its last step only
into one that such names made. No value is given twice.

Headers in double brackets add one table after the other to a list, and names reach
into the last one.

Values are never reached into. They are kept as they are read.
-/

namespace Matchmaking

namespace Toml

/-- How a table came to be. -/
inductive Origin where
  /-- The name of a header reaches into it. -/
  | implied
  /-- The name of a value reaches into it. -/
  | dotted
  /-- A header opened it. -/
  | opened
  deriving DecidableEq

/-- What stands in a table. -/
inductive Node (α : Type) where
  /-- A value. -/
  | value (v : Json α)
  /-- A table. -/
  | table (origin : Origin) (entries : List (String × Node α))
  /-- A list of tables: the finished ones, the last of them first, and the one after
      them. -/
  | tables (finished : List (Json α)) (last : List (String × Node α))

/-- What stands in a table, by name and in order. -/
abbrev Entries (α : Type) := List (String × Node α)

variable {α : Type}

mutual

/-- What stands in a table, as a value. -/
def Node.toJson : Node α → Json α
  | .value v => v
  | .table _ entries => .obj (Node.fields entries)
  | .tables finished last => .arr (.obj (Node.fields last) :: finished).reverse

/-- The entries of a table, as the fields of an object. -/
def Node.fields : List (String × Node α) → List (String × Json α)
  | [] => []
  | (k, n) :: es => (k, n.toJson) :: Node.fields es

end

/-- Whether a name reaches into a table that is there. That of a header always does,
    that of a value not if a header opened the table, and with its last step only if
    the names of values made it. -/
def Origin.reaches (origin : Origin) (isLast : Bool) (found : Origin) : Bool :=
  origin != .dotted || (if isLast then found == .dotted else found != .opened)

namespace Entries

/-- The entries of a table with a change to those of the table at a path. The tables
    on the way that are not there come to be. -/
def change? (origin : Origin) (edit? : Entries α → Option (Entries α)) :
    List String → Entries α → Option (Entries α)
  | [], es => edit? es
  | k :: ks, es =>
    match Json.getField k es with
    | none => (change? origin edit? ks []).map fun sub => Json.setField k (.table origin sub) es
    | some (.table found sub) =>
      if origin.reaches ks.isEmpty found then
        (change? origin edit? ks sub).map fun sub => Json.setField k (.table found sub) es
      else none
    | some (.tables finished last) =>
      if origin.reaches ks.isEmpty .implied then
        (change? origin edit? ks last).map fun last => Json.setField k (.tables finished last) es
      else none
    | some (.value _) => none

/-- The entries of a table with one more value. -/
def give? (k : String) (v : Json α) (es : Entries α) : Option (Entries α) :=
  match Json.getField k es with
  | none => some (Json.setField k (.value v) es)
  | some _ => none

/-- The entries of a table with one more table opened. -/
def openTable? (k : String) (es : Entries α) : Option (Entries α) :=
  match Json.getField k es with
  | none => some (Json.setField k (.table .opened []) es)
  | some (.table .implied sub) => some (Json.setField k (.table .opened sub) es)
  | some _ => none

/-- The entries of a table with one more table at the end of a list. -/
def addTable? (k : String) (es : Entries α) : Option (Entries α) :=
  match Json.getField k es with
  | none => some (Json.setField k (.tables [] []) es)
  | some (.tables finished last) =>
    some (Json.setField k (.tables (.obj (Node.fields last) :: finished) []) es)
  | some _ => none

/-- The entries of a table with a value of the given name. -/
def giveAt? (name : Name) (v : Json α) (es : Entries α) : Option (Entries α) :=
  change? .dotted (give? name.last v) name.path es

/-- The table of some values by name. -/
def ofValues? (values : List (Name × Json α)) : Option (Entries α) :=
  values.foldlM (fun es v => giveAt? v.1 v.2 es) []

end Entries

end Toml

end Matchmaking
