import Matchmaking.Json.Record
import Matchmaking.Rules.Fault

/-!
# Rule sets in JSON

Reading and writing of rule sets and their parts. What is written has all parts,
except that roles, weights and scales are left out when they are missing.
`RuleSet.load` reads a rule set that a queue can run under: defaults are filled
in, and a faulty one is refused.
-/

namespace Matchmaking

variable {α : Type}

namespace Role

/-- A role as a record. -/
def ofJson? (j : Json α) : Option Role := do
  let p ← j.parts? ["name", "min", "max"]
  return {
    name := ← p.required "name" Json.text?
    min := ← p.default "min" 0 Json.count?
    max := ← p.required "max" Json.count? }

/-- The record of a role. -/
def toJson (r : Role) : Json α :=
  .obj [("name", .str r.name), ("min", Json.ofNat r.min), ("max", Json.ofNat r.max)]

end Role

namespace RoleCombination

/-- A role combination as a record. -/
def ofJson? (j : Json α) : Option RoleCombination := do
  let p ← j.parts? ["has_combination", "unique", "alliances", "role_flexing_enable",
    "role_flexing_second", "role_flexing_player"]
  return {
    active := ← p.default "has_combination" false Json.bool?
    unique := ← p.default "unique" false Json.bool?
    teams := ← p.default "alliances" [] (Json.list? (Json.list? Role.ofJson?))
    flexing := ← p.default "role_flexing_enable" false Json.bool?
    flexSeconds := ← p.default "role_flexing_second" 0 Json.count?
    flexPlayers := ← p.default "role_flexing_player" 0 Json.count? }

/-- The record of a role combination. -/
def toJson (c : RoleCombination) : Json α :=
  .obj [("has_combination", .bool c.active), ("unique", .bool c.unique),
    ("alliances", Json.ofList (Json.ofList Role.toJson) c.teams),
    ("role_flexing_enable", .bool c.flexing),
    ("role_flexing_second", Json.ofNat c.flexSeconds),
    ("role_flexing_player", Json.ofNat c.flexPlayers)]

end RoleCombination

namespace Bounds

/-- The names of the parts of bounds. -/
def partNames : List String :=
  ["min_number", "max_number", "player_min_number", "player_max_number"]

/-- Bounds among the parts of a record. -/
def ofParts? (p : Json.Parts α) : Option Bounds := do
  return {
    minTeams := ← p.required "min_number" Json.count?
    maxTeams := ← p.required "max_number" Json.count?
    minSize := ← p.required "player_min_number" Json.count?
    maxSize := ← p.required "player_max_number" Json.count? }

/-- The fields of bounds. -/
def fields (b : Bounds) : List (String × Json α) :=
  [("min_number", Json.ofNat b.minTeams), ("max_number", Json.ofNat b.maxTeams),
    ("player_min_number", Json.ofNat b.minSize), ("player_max_number", Json.ofNat b.maxSize)]

end Bounds

namespace AllianceRule

/-- The shape of a match as a record. -/
def ofJson? (j : Json α) : Option AllianceRule := do
  let p ← j.parts? (Bounds.partNames ++ ["combination"])
  return {
    bounds := ← Bounds.ofParts? p
    combination := ← p.optional "combination" RoleCombination.ofJson? }

/-- The record of the shape of a match. -/
def toJson (a : AllianceRule) : Json α :=
  .obj (a.bounds.fields ++ Json.optionalField "combination" RoleCombination.toJson a.combination)

end AllianceRule

namespace AllianceFlexing

/-- Bounds after a time as a record. -/
def ofJson? (j : Json α) : Option AllianceFlexing := do
  let p ← j.parts? ("duration" :: Bounds.partNames)
  return {
    duration := ← p.required "duration" Json.count?
    bounds := ← Bounds.ofParts? p }

/-- The record of bounds after a time. -/
def toJson (f : AllianceFlexing) : Json α :=
  .obj (("duration", Json.ofNat f.duration) :: f.bounds.fields)

end AllianceFlexing

namespace Mode

/-- A mode as a record. -/
def ofJson? (j : Json α) : Option Mode := do
  let p ← j.parts? ["alliance", "alliance_flexing_rule"]
  return {
    alliance := ← p.required "alliance" AllianceRule.ofJson?
    flexing := ← p.default "alliance_flexing_rule" [] (Json.list? AllianceFlexing.ofJson?) }

/-- The record of a mode. -/
def toJson (m : Mode) : Json α :=
  .obj [("alliance", m.alliance.toJson),
    ("alliance_flexing_rule", Json.ofList AllianceFlexing.toJson m.flexing)]

end Mode

/-- The ways in which distances are compared, of which there is one. -/
def criteria : List (String × Unit) := [("distance", ())]

/-- The field for how distances are compared. -/
def criteriaField : String × Json α := ("criteria", .str "distance")

namespace OptionKind

/-- The kinds of options and their names. -/
def names : List (String × OptionKind) :=
  [("all", .all), ("any", .any), ("unique", .unique), ("disable", .disable)]

/-- The name of a kind. -/
def name : OptionKind → String
  | all => "all"
  | any => "any"
  | unique => "unique"
  | disable => "disable"

end OptionKind

namespace MatchOption

/-- An option as a record. -/
def ofJson? (j : Json α) : Option MatchOption := do
  let p ← j.parts? ["name", "type"]
  return {
    name := ← p.required "name" Json.text?
    kind := ← p.required "type" (Json.oneOf? OptionKind.names) }

/-- The record of an option. -/
def toJson (o : MatchOption) : Json α := .obj [("name", .str o.name), ("type", .str o.kind.name)]

/-- A record of a list of options. -/
def listOfJson? (j : Json α) : Option (List MatchOption) := do
  let p ← j.parts? ["options"]
  p.default "options" [] (Json.list? ofJson?)

/-- The record of a list of options. -/
def listToJson (os : List MatchOption) : Json α := .obj [("options", Json.ofList toJson os)]

end MatchOption

namespace BlockPolicy

/-- The policies and their names. -/
def names : List (String × BlockPolicy) :=
  [("blockedPlayerCanMatch", .canMatch),
    ("blockedPlayerCanMatchOnDifferentTeam", .otherTeam),
    ("blockedPlayerCannotMatch", .cannotMatch)]

/-- The name of a policy. -/
def name : BlockPolicy → String
  | canMatch => "blockedPlayerCanMatch"
  | otherTeam => "blockedPlayerCanMatchOnDifferentTeam"
  | cannotMatch => "blockedPlayerCannotMatch"

end BlockPolicy

variable [Scalar α]

namespace DistanceRule

/-- A distance rule as a record. -/
def ofJson? (j : Json α) : Option (DistanceRule α) := do
  let p ← j.parts? ["attribute", "criteria", "reference", "weight", "normalization_max"]
  let _ ← p.default "criteria" () (Json.oneOf? criteria)
  return {
    key := ← p.required "attribute" Json.text?
    tolerance := ← p.required "reference" Json.scalar?
    weight := ← p.optional "weight" Json.scalar?
    scale := ← p.optional "normalization_max" Json.scalar? }

/-- The record of a distance rule. -/
def toJson (d : DistanceRule α) : Json α :=
  .obj <|
    [("attribute", .str d.key), criteriaField, ("reference", .real d.tolerance)] ++
      Json.optionalField "weight" .real d.weight ++
      Json.optionalField "normalization_max" .real d.scale

end DistanceRule

namespace FlexingRule

/-- A tolerance after a time as a record. -/
def ofJson? (j : Json α) : Option (FlexingRule α) := do
  let p ← j.parts? ["duration", "attribute", "criteria", "reference"]
  let _ ← p.default "criteria" () (Json.oneOf? criteria)
  return {
    duration := ← p.required "duration" Json.count?
    key := ← p.required "attribute" Json.text?
    tolerance := ← p.required "reference" Json.scalar? }

/-- The record of a tolerance after a time. -/
def toJson (f : FlexingRule α) : Json α :=
  .obj [("duration", Json.ofNat f.duration), ("attribute", .str f.key), criteriaField,
    ("reference", .real f.tolerance)]

end FlexingRule

namespace RuleSet

/-- A rule set as a record. -/
def ofJson? (j : Json α) : Option (RuleSet α) := do
  let p ← j.parts? ["alliance", "matching_rule", "flexing_rule", "alliance_flexing_rule",
    "match_options", "region_expansion_rate_ms", "region_expansion_range_ms",
    "region_latency_initial_range_ms", "region_latency_max_ms", "blocked_player_option",
    "sub_game_modes", "narrow_any_options", "match_options_referred_for_backfill",
    "auto_backfill"]
  return {
    alliance := ← p.required "alliance" AllianceRule.ofJson?
    distances := ← p.default "matching_rule" [] (Json.list? DistanceRule.ofJson?)
    flexing := ← p.default "flexing_rule" [] (Json.list? FlexingRule.ofJson?)
    allianceFlexing := ←
      p.default "alliance_flexing_rule" [] (Json.list? AllianceFlexing.ofJson?)
    options := ← p.default "match_options" [] MatchOption.listOfJson?
    region := {
      stepMillis := ← p.default "region_expansion_rate_ms" 0 Json.latency?
      stepRange := ← p.default "region_expansion_range_ms" 0 Json.latency?
      initialRange := ← p.default "region_latency_initial_range_ms" 0 Json.latency?
      greatest := ← p.default "region_latency_max_ms" 0 Json.latency? }
    blockPolicy := ←
      p.default "blocked_player_option" .cannotMatch (Json.oneOf? BlockPolicy.names)
    modes := ← p.default "sub_game_modes" ∅ (Json.dict? Mode.ofJson?)
    narrowAny := ← p.default "narrow_any_options" true Json.bool?
    deferAttributes := ← p.default "match_options_referred_for_backfill" false Json.bool?
    autoBackfill := ← p.default "auto_backfill" false Json.bool?
    defaultsApplied := false }

/-- The record of a rule set. -/
def toJson (r : RuleSet α) : Json α :=
  .obj [("alliance", r.alliance.toJson),
    ("matching_rule", Json.ofList DistanceRule.toJson r.distances),
    ("flexing_rule", Json.ofList FlexingRule.toJson r.flexing),
    ("alliance_flexing_rule", Json.ofList AllianceFlexing.toJson r.allianceFlexing),
    ("match_options", MatchOption.listToJson r.options),
    ("region_expansion_rate_ms", Json.ofNat r.region.stepMillis.toNat),
    ("region_expansion_range_ms", Json.ofNat r.region.stepRange.toNat),
    ("region_latency_initial_range_ms", Json.ofNat r.region.initialRange.toNat),
    ("region_latency_max_ms", Json.ofNat r.region.greatest.toNat),
    ("blocked_player_option", .str r.blockPolicy.name),
    ("sub_game_modes", Json.ofDict Mode.toJson r.modes),
    ("narrow_any_options", .bool r.narrowAny),
    ("match_options_referred_for_backfill", .bool r.deferAttributes),
    ("auto_backfill", .bool r.autoBackfill)]

end RuleSet

/-- Why there is no rule set to run under. -/
inductive RuleError (α : Type) where
  /-- The record is none of a rule set. -/
  | undecodable
  /-- The rule set is faulty. -/
  | invalid (fault : RuleFault α)
  deriving DecidableEq

/-- The wording of an error. -/
def RuleError.message : RuleError α → String
  | undecodable => "Rule set could not be decoded"
  | invalid fault => fault.message

namespace RuleSet

/-- The rule set with its defaults, unless that is faulty. -/
def resolve (r : RuleSet α) : Except (RuleError α) (RuleSet α) :=
  match r.withDefaults.fault? with
  | none => .ok r.withDefaults
  | some f => .error (.invalid f)

/-- The rule set of a record. -/
def load (j : Json α) : Except (RuleError α) (RuleSet α) :=
  match ofJson? j with
  | none => .error .undecodable
  | some r => r.resolve

end RuleSet

end Matchmaking
