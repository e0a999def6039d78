import Matchmaking.Rules.Alliance
import Matchmaking.Session

/-!
# How far a session is

A session is satisfied once it has as many teams as it may have, all of them
full. From then on it is closed.
-/

namespace Matchmaking

namespace Session

variable {α : Type}

/-- Whether the session has all the teams and players that it may have. -/
def isSatisfied (s : Session α) (b : Bounds) : Bool :=
  decide (b.maxTeams ≤ s.alliances.length) &&
    s.alliances.all fun a => decide (b.maxSize ≤ a.players)

/-- The session at its proper stage, after it may have gained players. -/
def refresh (s : Session α) (b : Bounds) (gained : Bool) : Session α :=
  if s.isSatisfied b then { s with status := .satisfied, joinable := false }
  else if gained then { s with status := .updated }
  else s

end Session

end Matchmaking
