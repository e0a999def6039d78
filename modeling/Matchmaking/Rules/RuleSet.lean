import Matchmaking.Dict
import Matchmaking.Rules.Alliance

/-!
# Rule sets

The rules of a queue: the shape of a match, how far apart the players of a match
may be in which attributes, how both give way while a ticket waits, which
options parties must agree on, which regions they may play in, and what becomes
of players who block one another. A mode is a further shape that parties can ask
for by name.

A rule set is a value. Whatever depends on the time is derived from it.
-/

namespace Matchmaking

/-- How far apart players may be in an attribute, and what the distance costs. -/
structure DistanceRule (α : Type) where
  /-- The attribute. -/
  key : String
  /-- The greatest distance. -/
  tolerance : α
  /-- What a unit of distance costs, one if it is not given. -/
  weight : Option α
  /-- What distances are divided by, if it is given and positive. -/
  scale : Option α
  deriving DecidableEq

/-- A tolerance that replaces that of an attribute after a time. -/
structure FlexingRule (α : Type) where
  /-- The seconds of waiting. -/
  duration : Nat
  /-- The attribute. -/
  key : String
  /-- The greatest distance from then on. -/
  tolerance : α
  deriving DecidableEq

/-- How parties must agree on an option. -/
inductive OptionKind where
  /-- Every party has all values of the pivot. -/
  | all
  /-- The parties share a value. -/
  | any
  /-- No two parties share a value. -/
  | unique
  /-- The option does not matter. -/
  | disable
  deriving DecidableEq

/-- An attribute that parties must agree on. -/
structure MatchOption where
  /-- The attribute. -/
  name : String
  /-- How they must agree. -/
  kind : OptionKind
  deriving DecidableEq

/-- Which regions a ticket may be played in. The regions that are slower than
    its best one by a window may; the window widens while the ticket waits. -/
structure RegionRule where
  /-- The milliseconds of waiting per step. -/
  stepMillis : Latency
  /-- How much the window widens per step. -/
  stepRange : Latency
  /-- The window at first. -/
  initialRange : Latency
  /-- The greatest latency, if it is positive. -/
  greatest : Latency
  deriving DecidableEq

/-- A further shape, which parties ask for by name. -/
structure Mode where
  /-- The shape of a match. -/
  alliance : AllianceRule
  /-- How the shape changes in time. -/
  flexing : List AllianceFlexing
  deriving DecidableEq

/-- The rules of a queue. -/
structure RuleSet (α : Type) where
  /-- The shape of a match. -/
  alliance : AllianceRule
  /-- How far apart players may be. -/
  distances : List (DistanceRule α)
  /-- How tolerances change in time. -/
  flexing : List (FlexingRule α)
  /-- How the shape changes in time. -/
  allianceFlexing : List AllianceFlexing
  /-- What parties must agree on. -/
  options : List MatchOption
  /-- Which regions parties may play in. -/
  region : RegionRule
  /-- What becomes of players who block one another. -/
  blockPolicy : BlockPolicy
  /-- Further shapes, by name. -/
  modes : Dict Mode
  /-- Whether what is shared must be shared by all parties at once. -/
  narrowAny : Bool
  /-- Whether custom attributes of parties only have to agree in open sessions. -/
  deferAttributes : Bool
  /-- Whether new matches with room stay open. -/
  autoBackfill : Bool
  /-- Whether defaults were filled in. -/
  defaultsApplied : Bool
  deriving DecidableEq

variable {α : Type}

namespace DistanceRule

variable [Scalar α]

/-- What a unit of distance costs. -/
def cost (r : DistanceRule α) : α := r.weight.getD (Scalar.ofNat 1)

/-- What a distance costs. -/
def score (r : DistanceRule α) (distance : α) : α :=
  (match r.scale with
    | some s => if Scalar.ofNat 0 < s then distance / s else distance
    | none => distance) * r.cost

end DistanceRule

namespace RegionRule

/-- No region is out of reach. -/
def unlimited : RegionRule := ⟨0, 0, 0, 0⟩

/-- Whether regions matter. -/
def isUsed (r : RegionRule) : Bool := r.initialRange > 0 || r.greatest > 0 || r.stepMillis > 0

end RegionRule

namespace RuleSet

/-- The rules that only ask for a shape. -/
def ofAlliance (a : AllianceRule) : RuleSet α where
  alliance := a
  distances := []
  flexing := []
  allianceFlexing := []
  options := []
  region := .unlimited
  blockPolicy := .cannotMatch
  modes := ∅
  narrowAny := true
  deferAttributes := false
  autoBackfill := false
  defaultsApplied := false

/-- The first distance rule for an attribute. -/
def distance? (r : RuleSet α) (key : String) : Option (DistanceRule α) :=
  r.distances.find? fun d => d.key == key

/-- The kind of an option, by its first entry. -/
def optionKind? (r : RuleSet α) (name : String) : Option OptionKind :=
  (r.options.find? fun o => o.name == name).map (·.kind)

/-- Whether a name is that of an option. -/
def isOption (r : RuleSet α) (name : String) : Bool := r.options.any fun o => o.name == name

/-- The mode of a name, if there is a name and it is that of a mode. -/
def mode? (r : RuleSet α) (name : Option String) : Option Mode := name.bind r.modes.get?

/-- The shape of a mode, the main one without a mode. -/
def allianceFor (r : RuleSet α) (mode : Option String) : AllianceRule :=
  ((r.mode? mode).map (·.alliance)).getD r.alliance

/-- How the shape of a mode changes in time. -/
def allianceFlexingFor (r : RuleSet α) (mode : Option String) : List AllianceFlexing :=
  ((r.mode? mode).map (·.flexing)).getD r.allianceFlexing

/-- No mode, and each of the modes in the order of their names. -/
def modeNames (r : RuleSet α) : List (Option String) := none :: r.modes.keys.map some

/-- All bounds that a match of a mode can have in time. -/
def boundsFor (r : RuleSet α) (mode : Option String) : List Bounds :=
  (r.allianceFor mode).bounds :: (r.allianceFlexingFor mode).map (·.bounds)

/-- All bounds that a match can have. -/
def allBounds (r : RuleSet α) : List Bounds := r.modeNames.flatMap r.boundsFor

/-- Whether a match has a least number of players, whatever its shape: a word. -/
def countsLeast (r : RuleSet α) : Bool := r.allBounds.all fun b => decide (b.minPlayers < Word.size)

/-- The least number of players that any match can begin with, at any time. -/
def minPlayers (r : RuleSet α) : Nat :=
  ((r.allBounds.map Bounds.minPlayers).min?).getD 0

/-- The rules with what was not given filled in: the bounds of all shapes, and a
    weight of one. This is done once. -/
def withDefaults [Scalar α] (r : RuleSet α) : RuleSet α :=
  if r.defaultsApplied then r
  else
    { r with
      alliance := r.alliance.withDefaults
      modes := r.modes.map fun m => { m with alliance := m.alliance.withDefaults }
      distances := r.distances.map fun d => { d with weight := some d.cost }
      defaultsApplied := true }

end RuleSet

end Matchmaking
