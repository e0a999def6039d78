import Matchmaking.Rules.RuleSet
import Matchmaking.Text.Blank

/-!
# Faults of rule sets

What must hold of the rules that a queue runs under, and what is told when it
does not. Of several faults the first one found is told: the shape of a match is
looked at first, then distances, how tolerances change, how the shape changes,
modes, options and regions.

A tolerance may only grow in time: a rule that replaces it is not below it, and
the longer one must wait for a tolerance the greater it is.
-/

namespace Matchmaking

/-- What is wrong with the shape of a match. -/
inductive AllianceFault where
  /-- There is no room for a team or a player. -/
  | noRoom
  /-- The least number of teams is above the greatest. -/
  | teamBounds (min max : Nat)
  /-- The least size of a team is above the greatest. -/
  | sizeBounds (min max : Nat)
  /-- A role of a team has no name. -/
  | unnamedRole (team : Nat)
  /-- A team has two roles of one name. -/
  | repeatedRole (name : String) (team : Nat)
  /-- More members must take a role than may. -/
  | roleBounds (name : String) (min max : Nat)
  /-- Roles are given up after no time. -/
  | noFlexingTime
  deriving DecidableEq

/-- What is wrong with a rule set. -/
inductive RuleFault (α : Type) where
  /-- The main shape is wrong. -/
  | alliance (fault : AllianceFault)
  /-- A distance has no attribute. -/
  | unnamedDistance
  /-- A tolerance is negative. -/
  | negativeTolerance (key : String)
  /-- A weight is negative. -/
  | negativeWeight (key : String)
  /-- A tolerance is replaced that is not there. -/
  | flexingUnknown (key : String)
  /-- A tolerance is replaced by a smaller one. -/
  | flexingNarrows (key : String) (duration : Nat) (tolerance base : α)
  /-- A longer wait brings a smaller tolerance than a shorter one. -/
  | flexingShrinks (key : String)
  /-- Bounds that replace those of a shape are wrong. -/
  | allianceFlexing (duration : Nat) (fault : AllianceFault)
  /-- The shape of a mode is wrong. -/
  | mode (name : String) (fault : AllianceFault)
  /-- An option has no name. -/
  | unnamedOption
  /-- The first latency window is above the greatest latency. -/
  | regionRange (initial greatest : Latency)
  /-- The latency window widens by nothing. -/
  | noRegionStep
  deriving DecidableEq

/-- The opening words of all faults of rule sets. -/
def RuleFault.opening : String := "Invalid rule set: "

/-- The wording of a fault. -/
def AllianceFault.message : AllianceFault → String
  | noRoom => "alliance max_number and player_max_number must be positive"
  | teamBounds min max =>
    "alliance min_number " ++ toString min ++ " above max_number " ++ toString max
  | sizeBounds min max =>
    "alliance player_min_number " ++ toString min ++ " above player_max_number " ++ toString max
  | unnamedRole team =>
    "role combination team " ++ toString team ++ " has a role without a name"
  | repeatedRole name team => "role " ++ name ++ " declared twice for team " ++ toString team
  | roleBounds name min max =>
    "role " ++ name ++ " has min " ++ toString min ++ " above max " ++ toString max
  | noFlexingTime => "role flexing enabled without role_flexing_second"

/-- The wording of a fault, without its opening words. Faults of a part quote
    that of the shape in full. -/
def RuleFault.reason {α : Type} [Scalar α] : RuleFault α → String
  | alliance f => f.message
  | unnamedDistance => "matching rule without attribute"
  | negativeTolerance key => "matching rule " ++ key ++ " has negative reference"
  | negativeWeight key => "matching rule " ++ key ++ " has negative weight"
  | flexingUnknown key => "flexing rule for " ++ key ++ " has no matching rule"
  | flexingNarrows key duration tolerance base =>
    "flexing rule for " ++ key ++ " at " ++ toString duration ++ "s narrows the tolerance (" ++
      Scalar.text tolerance ++ " < " ++ Scalar.text base ++ ")"
  | flexingShrinks key => "flexing rules for " ++ key ++ " narrow the tolerance as the wait grows"
  | allianceFlexing duration f =>
    "alliance flexing rule at " ++ toString duration ++ "s: " ++ opening ++ f.message
  | mode name f => "sub game mode " ++ name ++ ": " ++ opening ++ f.message
  | unnamedOption => "match option without name"
  | regionRange initial greatest =>
    "region_latency_initial_range_ms " ++ toString initial.toNat ++
      " above region_latency_max_ms " ++ toString greatest.toNat
  | noRegionStep => "region_expansion_rate_ms set without region_expansion_range_ms"

/-- The wording of a fault. -/
def RuleFault.message {α : Type} [Scalar α] (f : RuleFault α) : String := opening ++ f.reason

/-! ## Finding faults -/

/-- The first fault of the roles of a team, given the names of the roles before
    them. -/
def Role.fault? (team : Nat) (seen : List String) : List Role → Option AllianceFault
  | [] => none
  | r :: rs =>
    if isBlank r.name then some (.unnamedRole team)
    else if seen.contains r.name then some (.repeatedRole r.name team)
    else if r.max < r.min then some (.roleBounds r.name r.min r.max)
    else fault? team (r.name :: seen) rs

namespace RoleCombination

/-- The first fault of the roles of numbered teams, from `i` on. -/
def teamFault? (i : Nat) : List (List Role) → Option AllianceFault
  | [] => none
  | t :: ts => (Role.fault? i [] t).or (teamFault? (i + 1) ts)

/-- The first fault of a role combination. -/
def fault? (c : RoleCombination) : Option AllianceFault :=
  (teamFault? 0 c.teams).or
    (if c.flexing && c.flexSeconds == 0 then some .noFlexingTime else none)

end RoleCombination

/-- The first fault of bounds. -/
def Bounds.fault? (b : Bounds) : Option AllianceFault :=
  if b.maxTeams = 0 ∨ b.maxSize = 0 then some .noRoom
  else if b.maxTeams < b.minTeams then some (.teamBounds b.minTeams b.maxTeams)
  else if b.maxSize < b.minSize then some (.sizeBounds b.minSize b.maxSize)
  else none

/-- The first fault of a shape. -/
def AllianceRule.fault? (a : AllianceRule) : Option AllianceFault :=
  a.bounds.fault?.or (a.combination.bind (·.fault?))

variable {α : Type}

/-- The fault of bounds that replace others. -/
def AllianceFlexing.fault? (f : AllianceFlexing) : Option (RuleFault α) :=
  f.bounds.fault?.map (.allianceFlexing f.duration)

/-- The first fault of a mode. -/
def Mode.fault? (name : String) (m : Mode) : Option (RuleFault α) :=
  (m.alliance.fault?.map (.mode name)).or (m.flexing.findSome? (·.fault?))

/-- The fault of the rule for regions. -/
def RegionRule.fault? (r : RegionRule) : Option (RuleFault α) :=
  if r.greatest > 0 ∧ r.initialRange > r.greatest then
    some (.regionRange r.initialRange r.greatest)
  else if r.stepMillis > 0 ∧ r.stepRange = 0 then some .noRegionStep
  else none

/-- The fault of an option. -/
def MatchOption.fault? (o : MatchOption) : Option (RuleFault α) :=
  if isBlank o.name then some .unnamedOption else none

variable [Scalar α]

/-- The first fault of a distance rule. -/
def DistanceRule.fault? (d : DistanceRule α) : Option (RuleFault α) :=
  if isBlank d.key then some .unnamedDistance
  else if d.tolerance < Scalar.ofNat 0 then some (.negativeTolerance d.key)
  else if d.weight.any fun w => w < Scalar.ofNat 0 then some (.negativeWeight d.key)
  else none

namespace RuleSet

/-- The fault of a tolerance in time, next to the first one. -/
def flexingFault? (r : RuleSet α) (f : FlexingRule α) : Option (RuleFault α) :=
  match r.distance? f.key with
  | none => some (.flexingUnknown f.key)
  | some d =>
    if f.tolerance < d.tolerance then
      some (.flexingNarrows f.key f.duration f.tolerance d.tolerance)
    else none

/-- The fault of a tolerance in time, next to the later ones. -/
def shrinkingFault? (r : RuleSet α) (f : FlexingRule α) : Option (RuleFault α) :=
  if r.flexing.any fun g =>
      g.key == f.key && decide (f.duration < g.duration) && decide (g.tolerance < f.tolerance) then
    some (.flexingShrinks f.key)
  else none

/-- The first fault of a rule set, if it has one. -/
def fault? (r : RuleSet α) : Option (RuleFault α) :=
  (r.alliance.fault?.map .alliance).or <|
  (r.distances.findSome? (·.fault?)).or <|
  (r.flexing.findSome? r.flexingFault?).or <|
  (r.flexing.findSome? r.shrinkingFault?).or <|
  (r.allianceFlexing.findSome? (·.fault?)).or <|
  (r.modes.toList.findSome? fun (name, m) => m.fault? name).or <|
  (r.options.findSome? (·.fault?)).or r.region.fault?

end RuleSet

end Matchmaking
