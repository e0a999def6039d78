import Matchmaking.Order
import Matchmaking.Rules.RuleSet
import Matchmaking.Ticket

/-!
# Giving up roles

Members of tickets that have waited for long give up their own roles and take
any. How many may do so is rationed: for each full interval that the oldest
ticket has waited there is a ration of players, and those who gave up their
roles before count against it. The roles of which the most players are missing
are given up first.

The interval and the rations are words: the interval is read as a signed one,
and the product of rations and intervals wraps around.
-/

namespace Matchmaking

variable {α : Type}

/-- The shape whose role combination rules how roles are given up. -/
structure RoleFlexing where
  /-- The mode of the shape. -/
  mode : Option String
  /-- The shape. -/
  alliance : AllianceRule
  /-- The roles of the shape. -/
  combination : RoleCombination
  deriving DecidableEq

/-- A member who may give up its role. -/
structure RoleFlexing.Candidate where
  /-- How many players its role lacks. -/
  deficit : Int
  /-- Its role. -/
  role : String
  /-- When its ticket entered the queue. -/
  createdAt : Instant
  /-- The place of the ticket. -/
  ticket : Nat
  /-- The place of the member in its ticket. -/
  member : Nat
  deriving DecidableEq

namespace RoleFlexing

/-- The order in which roles are given up: the greatest deficit first, then by
    role, then the newest ticket, then by place. -/
def Candidate.rank : Candidate → Candidate → Ordering :=
  compareLex (fun a b => compare b.deficit a.deficit) <|
  compareLex (compareOn (·.role)) <|
  compareLex (fun a b => Instant.rank b.createdAt a.createdAt) <|
  compareLex (compareOn (·.ticket)) (compareOn (·.member))

/-- The seconds between two rations. -/
def interval (f : RoleFlexing) : Int := Word.signed f.combination.flexSeconds

/-- How many players must take a role in all teams of the shape. -/
def required (f : RoleFlexing) (role : String) : Nat :=
  f.combination.required f.alliance.bounds.maxTeams role

/-- How many members of some tickets have a role as their first one. -/
def assigned (ts : List (Ticket α)) (role : String) : Nat :=
  (ts.flatMap (·.members)).countP fun m => m.primaryRole? == some role

/-- How many players a role lacks, as signed words have it without a check. -/
def deficit (f : RoleFlexing) (ts : List (Ticket α)) (role : String) : Int :=
  Word.signed (f.required role - assigned ts role)

/-- How many members of some tickets gave up their roles. -/
def flexedCount (ts : List (Ticket α)) : Nat := (ts.flatMap (·.members)).countP (·.roleFlexed)

/-- Whether a ticket has waited for an interval. -/
def isDue (f : RoleFlexing) (now : Instant) (t : Ticket α) : Bool :=
  decide (f.interval ≤ t.ageSeconds now)

/-- How many members may give up their roles now. The product wraps around, as words do
    without a check; with the check a run whose rations are no word breaks off. -/
def budget (f : RoleFlexing) (now : Instant) (ts : List (Ticket α)) : Nat :=
  match ((ts.filter (f.isDue now)).map (·.ageSeconds now)).max? with
  | none => 0
  | some age =>
    Word.wrap (f.combination.flexPlayers * Word.unsigned (age.tdiv f.interval)) - flexedCount ts

/-- The members of a ticket who may give up their roles. -/
def candidatesOf (f : RoleFlexing) (now : Instant) (deficit : String → Int) (i : Nat)
    (t : Ticket α) : List Candidate :=
  if f.isDue now t then
    (t.members.mapIdx fun j m =>
      m.primaryRole?.map fun role => ⟨deficit role, role, t.createdAt, i, j⟩).reduceOption
  else []

/-- The members of some tickets who may give up their roles, in the order in
    which they do. -/
def candidates (f : RoleFlexing) (now : Instant) (ts : List (Ticket α)) : List Candidate :=
  sortBy Candidate.rank (ts.mapIdx (f.candidatesOf now (f.deficit ts))).flatten

/-- The members who give up their roles now. -/
def chosen (f : RoleFlexing) (now : Instant) (ts : List (Ticket α)) : List Candidate :=
  let budget := f.budget now ts
  if budget = 0 then [] else (f.candidates now ts).take budget

/-- The tickets with the chosen members flexed. -/
def mark (cs : List Candidate) (ts : List (Ticket α)) : List (Ticket α) :=
  ts.mapIdx fun i t =>
    { t with members := t.members.mapIdx fun j m =>
        if cs.any fun c => c.ticket == i && c.member == j then { m with roleFlexed := true }
        else m }

end RoleFlexing

namespace RuleSet

variable [Scalar α]

/-- The shapes under which roles are given up, the main one first, each with its
    rate. -/
def roleFlexings (r : RuleSet α) : List (RoleFlexing × α) :=
  ((none, r.alliance) :: r.modes.toList.map fun (name, m) => (some name, m.alliance)).filterMap
    fun (mode, a) =>
      a.combination.bind fun c => c.ratePerMinute?.map fun rate => (⟨mode, a, c⟩, rate)

/-- The shape with the highest rate, the last one of them, with its rate. -/
def roleFlexing? (r : RuleSet α) : Option (RoleFlexing × α) :=
  lastGreatest? (fun a b => Scalar.rank a.2 b.2) r.roleFlexings

/-- The members who give up their roles now. -/
def flexingMembers (r : RuleSet α) (now : Instant) (ts : List (Ticket α)) :
    List RoleFlexing.Candidate :=
  match r.roleFlexing? with
  | some (f, _) => f.chosen now ts
  | none => []

/-- The tickets once their members gave up roles. -/
def flexRoles (r : RuleSet α) (now : Instant) (ts : List (Ticket α)) : List (Ticket α) :=
  RoleFlexing.mark (r.flexingMembers now ts) ts

/-- How many members give up their roles now. -/
def flexedNow (r : RuleSet α) (now : Instant) (ts : List (Ticket α)) : Nat :=
  (r.flexingMembers now ts).length

end RuleSet

end Matchmaking
