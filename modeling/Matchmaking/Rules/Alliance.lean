import Matchmaking.NameSet
import Matchmaking.Rules.Role

/-!
# The shape of a match

How many teams a match has, how many players a team has, which roles its teams
are made of, and what becomes of players who block one another. A set of teams
is checked against all of that at once (`AllianceRule.teamsFault?`).

Bounds may be any words. Before a match of a shape is searched for, the greatest
number of its players is computed and room is made for all its teams, which may
fail whoever waits (`Bounds.searchFailure?`).
-/

namespace Matchmaking

/-- How many teams there are and how large they are. -/
structure Bounds where
  /-- The least number of teams. -/
  minTeams : Nat
  /-- The greatest number of teams. -/
  maxTeams : Nat
  /-- The least number of players of a team. -/
  minSize : Nat
  /-- The greatest number of players of a team. -/
  maxSize : Nat
  deriving DecidableEq

/-- The shape of a match. -/
structure AllianceRule where
  /-- How many teams there are and how large they are. -/
  bounds : Bounds
  /-- The roles of the teams, if they have some. -/
  combination : Option RoleCombination
  deriving DecidableEq

/-- Bounds that replace those of the shape after a time. -/
structure AllianceFlexing where
  /-- The seconds of waiting. -/
  duration : Nat
  /-- The bounds from then on. -/
  bounds : Bounds
  deriving DecidableEq

/-- What becomes of players who block one another. -/
inductive BlockPolicy where
  /-- They may meet. -/
  | canMatch
  /-- They may meet as opponents. -/
  | otherTeam
  /-- They do not meet. -/
  | cannotMatch
  deriving DecidableEq

/-- Why a run over a queue breaks off. -/
inductive Failure where
  /-- A number of players is no word. -/
  | overflow
  /-- Room cannot be made for all teams that a match may have. -/
  | noRoom
  deriving DecidableEq

/-- What the check of a shape sees of a team. -/
structure TeamSummary where
  /-- The number of players. -/
  players : Nat
  /-- The players. -/
  userIds : NameSet
  /-- The players that someone on the team blocks. -/
  blocked : NameSet
  deriving DecidableEq

/-- Why teams do not fit a shape. -/
inductive TeamsFault where
  /-- There are too few or too many teams. -/
  | teamCount (teams min max : Nat)
  /-- A team is too small or too large. -/
  | teamSize (team players min max : Nat)
  /-- A team blocks one of its own players. -/
  | blockedTeammate (team : Nat)
  /-- A team blocks a player of the match. -/
  | blockedInMatch (team : Nat)
  deriving DecidableEq

/-- The wording of a fault. -/
def TeamsFault.message : TeamsFault → String
  | teamCount teams min max => toString teams ++ " teams, expected " ++ range min max
  | teamSize team players min max =>
    "team " ++ toString team ++ " has " ++ toString players ++ " players, expected " ++
      range min max
  | blockedTeammate team => "team " ++ toString team ++ " contains a blocked teammate"
  | blockedInMatch team => "team " ++ toString team ++ " blocks a player in the same match"
where
  /-- The text of a range. -/
  range (min max : Nat) : String := toString min ++ "..=" ++ toString max

namespace Bounds

/-- The least number of players of a match. -/
def minPlayers (b : Bounds) : Nat := b.minTeams * b.minSize

/-- The greatest number of players of a match. -/
def maxPlayers (b : Bounds) : Nat := b.maxTeams * b.maxSize

/-- The greatest number of teams that room can be made for at once, however much
    memory there is. That there is memory for fewer is taken for granted. -/
def greatestTeams : Nat := 50127021939428129

/-- Why a search for a match breaks off: the greatest number of players is computed to see
    who could fill it, and then room is made for the teams of the first order that is packed. -/
def searchFailure? (b : Bounds) : Option Failure :=
  if Word.size ≤ b.maxPlayers then some .overflow
  else if greatestTeams < b.maxTeams then some .noRoom
  else none

/-- Whether a match is a single player. -/
def isSinglePlayer (b : Bounds) : Bool := b = ⟨1, 1, 1, 1⟩

/-- Bounds that are zero are replaced: a least number by one, a greatest number
    by the least one. -/
def withDefaults (b : Bounds) : Bounds :=
  let minTeams := if b.minTeams = 0 then 1 else b.minTeams
  let minSize := if b.minSize = 0 then 1 else b.minSize
  { minTeams
    maxTeams := if b.maxTeams = 0 then minTeams else b.maxTeams
    minSize
    maxSize := if b.maxSize = 0 then minSize else b.maxSize }

/-- The first of numbered teams, from `i` on, whose size is out of bounds. -/
def sizeFault? (b : Bounds) (i : Nat) : List TeamSummary → Option TeamsFault
  | [] => none
  | t :: ts =>
    if b.minSize ≤ t.players ∧ t.players ≤ b.maxSize then sizeFault? b (i + 1) ts
    else some (.teamSize i t.players b.minSize b.maxSize)

end Bounds

namespace BlockPolicy

/-- The first of numbered teams, from `i` on, that blocks one of its own. -/
def teammateFault? (i : Nat) : List TeamSummary → Option TeamsFault
  | [] => none
  | t :: ts =>
    if t.blocked.disjoint t.userIds then teammateFault? (i + 1) ts else some (.blockedTeammate i)

/-- The first of numbered teams, from `i` on, that blocks one of some players. -/
def matchFault? (users : NameSet) (i : Nat) : List TeamSummary → Option TeamsFault
  | [] => none
  | t :: ts =>
    if t.blocked.disjoint users then matchFault? users (i + 1) ts else some (.blockedInMatch i)

/-- The first team that meets someone whom it must not meet. -/
def teamsFault? : BlockPolicy → List TeamSummary → Option TeamsFault
  | canMatch, _ => none
  | otherTeam, ts => teammateFault? 0 ts
  | cannotMatch, ts => matchFault? (ts.foldl (fun s t => s.union t.userIds) ∅) 0 ts

end BlockPolicy

namespace AllianceRule

/-- The shape of given bounds, without roles. -/
def ofBounds (b : Bounds) : AllianceRule := ⟨b, none⟩

/-- Whether teams are made of roles. -/
def hasRoles (a : AllianceRule) : Bool := (a.combination.map (·.active)).getD false

/-- The roles of the team at a place, none if teams are not made of roles. -/
def rolesFor (a : AllianceRule) (team : Nat) : List Role :=
  (a.combination.map fun c => c.rolesFor team).getD []

/-- The shape with the bounds that replace its own. -/
def flexed (a : AllianceRule) (f : AllianceFlexing) : AllianceRule := { a with bounds := f.bounds }

/-- The shape with the defaults of its bounds. -/
def withDefaults (a : AllianceRule) : AllianceRule := { a with bounds := a.bounds.withDefaults }

/-- Why a set of teams does not fit the shape: there are as many teams as the
    bounds say, each of a size that they say, and nobody meets a player whom the
    policy keeps away. -/
def teamsFault? (a : AllianceRule) (policy : BlockPolicy) (ts : List TeamSummary) :
    Option TeamsFault :=
  if ts.length < a.bounds.minTeams ∨ a.bounds.maxTeams < ts.length then
    some (.teamCount ts.length a.bounds.minTeams a.bounds.maxTeams)
  else (a.bounds.sizeFault? 0 ts).or (policy.teamsFault? ts)

end AllianceRule

end Matchmaking
