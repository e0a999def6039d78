import Matchmaking.Number.Scalar
import Matchmaking.Number.Total
import Matchmaking.Number.Word

/-!
# Roles

A role combination says which roles the teams of a match are made of, and how
many members of a team may and must take each of them. It also says how members
give up their own roles in time, which is rationed.
-/

namespace Matchmaking

/-- A role of a team. -/
structure Role where
  /-- The role. -/
  name : String
  /-- How many members must take it. -/
  min : Nat
  /-- How many members may take it. -/
  max : Nat
  deriving DecidableEq

/-- The roles of the teams of a match. -/
structure RoleCombination where
  /-- Whether teams are made of roles. -/
  active : Bool
  /-- Whether a role is taken by one member of a team at most. -/
  unique : Bool
  /-- The roles of each team. Further teams go through the list again. -/
  teams : List (List Role)
  /-- Whether members give up their own roles in time. -/
  flexing : Bool
  /-- The seconds of waiting per ration. -/
  flexSeconds : Nat
  /-- The players of a ration. -/
  flexPlayers : Nat
  deriving DecidableEq

namespace RoleCombination

/-- The roles of the team at a place. -/
def rolesFor (c : RoleCombination) (team : Nat) : List Role :=
  (c.teams[team % c.teams.length]?).getD []

/-- How many members of a team of some roles must take a role. -/
def leastOf (role : String) (roles : List Role) : Nat :=
  total Role.min (roles.filter fun r => r.name == role)

/-- How many members of the first teams must take a role. The teams go through the
    list in whole rounds and then through the head of it. -/
def required (c : RoleCombination) (teams : Nat) (role : String) : Nat :=
  teams / c.teams.length * total (leastOf role) c.teams +
    total (leastOf role) (c.teams.take (teams % c.teams.length))

/-- What the first teams require is the total over them. -/
theorem required_eq_total (c : RoleCombination) (teams : Nat) (role : String) :
    c.required teams role = total (fun i => leastOf role (c.rolesFor i)) (List.range teams) := by
  induction teams with
  | zero => simp [required]
  | succ n ih =>
    rw [List.range_succ, total_append, ← ih]
    simp only [required, total_cons, total_nil, Nat.add_zero]
    obtain h | h := Nat.eq_zero_or_pos c.teams.length
    · simp [rolesFor, leastOf, List.eq_nil_of_length_eq_zero h]
    · -- The team at `n` is the next one in the list.
      have hlt := Nat.mod_lt n h
      have hnext : total (leastOf role) (c.teams.take (n % c.teams.length + 1)) =
          total (leastOf role) (c.teams.take (n % c.teams.length)) +
            leastOf role (c.rolesFor n) := by
        rw [List.take_succ_eq_append_getElem hlt, total_append, rolesFor,
          List.getElem?_eq_getElem hlt]
        rfl
      have hn := Nat.div_add_mod n c.teams.length
      obtain hpart | hfull := Nat.lt_or_eq_of_le hlt
      · -- The round goes on.
        obtain ⟨hdiv, hmod⟩ := (Nat.div_mod_unique h).2
          ⟨show n % c.teams.length + 1 + c.teams.length * (n / c.teams.length) = n + 1 by omega, hpart⟩
        rw [hdiv, hmod, hnext, Nat.add_assoc]
      · -- The round is over.
        have hsucc : n + 1 = c.teams.length * (n / c.teams.length + 1) := by
          rw [Nat.mul_succ]
          omega
        rw [Nat.add_assoc, ← hnext, show n % c.teams.length + 1 = c.teams.length from hfull,
          List.take_length, hsucc, Nat.mul_mod_right, Nat.mul_div_cancel_left _ h, List.take_zero,
          total_nil, Nat.add_zero, Nat.succ_mul]

/-- Whether members give up their roles under these settings. -/
def isFlexible (c : RoleCombination) : Bool :=
  c.flexing && c.flexSeconds != 0 && c.flexPlayers != 0

/-- How many members give up their roles per minute, if any do. -/
def ratePerMinute? {α : Type} [Scalar α] (c : RoleCombination) : Option α :=
  if c.isFlexible then
    some (Scalar.ofNat c.flexPlayers * Scalar.ofNat 60 / Scalar.ofNat c.flexSeconds)
  else none

end RoleCombination

end Matchmaking
