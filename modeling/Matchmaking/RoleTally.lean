import Matchmaking.Order
import Matchmaking.Rules.Role
import Matchmaking.Ticket

/-!
# Roles taken in a team

A tally keeps how many members of a team have taken each of its roles. A member
takes the role of its own that lacks the most members and still has room. A
member who takes any role, and finds none of its own with room, is left open:
open members are given roles at the end, each the role that lacks the most
members then (`RoleTally.resolve`).

A party is taken into a team as a whole or not at all (`RoleTally.assignAll?`).
-/

namespace Matchmaking

variable {α : Type}

/-- What a member of a team takes. -/
inductive Slot where
  /-- A role. -/
  | role (name : String)
  /-- Any role, which is given at the end. -/
  | any
  deriving DecidableEq

/-- The roles of a team and how many members have taken them. -/
structure RoleTally where
  /-- The roles of the team. -/
  quotas : List Role
  /-- How many members have taken each role. -/
  counts : Dict Nat
  /-- How many members are left open. -/
  pending : Nat
  deriving DecidableEq

namespace Role

/-- A role that one member takes at most. -/
def single (r : Role) : Role := { r with min := Nat.min r.min 1, max := Nat.min r.max 1 }

end Role

namespace RoleTally

/-- An empty team of some roles, each taken once at most if they are unique. -/
def new (roles : List Role) (unique : Bool) : RoleTally :=
  ⟨if unique then roles.map Role.single else roles, ∅, 0⟩

/-- How many of some members have taken a role. -/
def taken (counts : Dict Nat) (role : String) : Nat := counts.getD role 0

/-- The counts with one more member in a role. -/
def take (counts : Dict Nat) (role : String) : Dict Nat :=
  counts.insert role (taken counts role + 1)

/-- Whether a role has room. -/
def hasRoom (counts : Dict Nat) (q : Role) : Bool := taken counts q.name < q.max

/-- How many members a role lacks, as signed words have it without a check: a least
    number from `Word.half` on is negative. -/
def deficit (counts : Dict Nat) (q : Role) : Int := Word.signed (q.min - taken counts q.name)

/-- The first role of a name. -/
def quota? (t : RoleTally) (name : String) : Option Role := t.quotas.find? fun q => q.name == name

/-- How many more members fit into the roles. The sum wraps around, as words do without
    a check; with the check a run whose roles have that much room breaks off. -/
def room (t : RoleTally) : Nat :=
  Word.wrap (total (fun q => q.max - taken t.counts q.name) t.quotas) - t.pending

/-- The role that a member takes of those of its own: the one that lacks the most
    members, of several the first. -/
def choice? (t : RoleTally) (own : List String) : Option Role :=
  firstGreatest? (compareOn (deficit t.counts))
    ((own.filterMap t.quota?).filter (hasRoom t.counts))

/-- What a member takes, if it fits, and the team with it. -/
def assign? (t : RoleTally) (m : Member α) : Option (Slot × RoleTally) :=
  if t.room = 0 then none
  else
    match t.choice? m.roles with
    | some q => some (.role q.name, { t with counts := take t.counts q.name })
    | none =>
      if m.roles.isEmpty || m.roles.contains Key.anyRole then
        some (.any, { t with pending := t.pending + 1 })
      else none

/-- What each of some members takes, if all of them fit, and the team with
    them. -/
def assignAll? (t : RoleTally) : List (Member α) → Option (List Slot × RoleTally)
  | [] => some ([], t)
  | m :: ms =>
    match t.assign? m with
    | none => none
    | some (slot, t) =>
      match assignAll? t ms with
      | none => none
      | some (slots, t) => some (slot :: slots, t)

/-- The team with a member who has a role already. -/
def force (t : RoleTally) (role : String) : RoleTally := { t with counts := take t.counts role }

/-- The order in which roles are given to open members: the role that lacks the
    most members last, then the one with the most room, then the first name. -/
def openRank (counts : Dict Nat) : Role → Role → Ordering :=
  compareLex (compareOn (deficit counts)) <|
  compareLex (compareOn fun q => q.max - taken counts q.name)
    (fun a b => compare b.name a.name)

/-- The roles of so many open members, one after the other, until no role has
    room. -/
def resolveFrom (quotas : List Role) (counts : Dict Nat) : Nat → List String
  | 0 => []
  | n + 1 =>
    match lastGreatest? (openRank counts) (quotas.filter (hasRoom counts)) with
    | none => []
    | some q => q.name :: resolveFrom quotas (take counts q.name) n

/-- The roles of the open members. -/
def resolve (t : RoleTally) : List String := resolveFrom t.quotas t.counts t.pending

/-- The counts once the open members have roles. -/
def finalCounts (t : RoleTally) : Dict Nat := t.resolve.foldl take t.counts

/-- Whether every role has the members that it must have, once the open members
    have roles. -/
def isSatisfied (t : RoleTally) : Bool :=
  t.quotas.all fun q => q.min ≤ taken t.finalCounts q.name

end RoleTally

end Matchmaking
