import Matchmaking.Rules.RuleSet
import Matchmaking.Session

/-!
# What parties have in common

The attributes of the parties of a session are merged into those of the session.
What all must share is narrowed to what they do share; what each has to itself,
where they play and whom they block is united; and of any other attribute the
first party's value stays.
-/

namespace Matchmaking

variable {α : Type}

/-- How the values of an attribute are merged. -/
inductive MergeMode where
  /-- To what they share. -/
  | intersect
  /-- To all there is. -/
  | union
  /-- To the first one. -/
  | keepFirst
  deriving DecidableEq

/-- How an attribute is merged. -/
def RuleSet.mergeMode (r : RuleSet α) (k : String) : MergeMode :=
  if k = Key.crossPlatform then .intersect
  else if k = Key.currentPlatform ∨ k = Key.blockedPlayers then .union
  else
    match r.optionKind? k with
    | some .all | some .any => .intersect
    | some .unique => .union
    | some .disable | none => .keepFirst

variable [Scalar α]

namespace Value

/-- What the values of a list share, nothing without values. -/
def common : List (Value α) → NameSet
  | [] => ∅
  | v :: vs => vs.foldl (fun s v => s.inter v.names) v.names

/-- What the values of a list have together. -/
def together (vs : List (Value α)) : NameSet := vs.foldl (fun s v => s.union v.names) ∅

/-- The values of a list as one. When they share nothing, the first one stays. -/
def merge (mode : MergeMode) (v : Value α) (vs : List (Value α)) : Value α :=
  match mode with
  | .keepFirst => v
  | .union => ofNames (together (v :: vs))
  | .intersect =>
    let shared := common (v :: vs)
    ofNames (if shared.isEmpty then v.names else shared)

end Value

namespace Attributes

/-- The values that a list of attributes has under a name. -/
def valuesAt (k : String) (as : List (Attributes α)) : List (Value α) := as.filterMap (·.get? k)

/-- All names of a list of attributes. -/
def allKeys (as : List (Attributes α)) : NameSet := .ofList (as.flatMap (·.keys))

/-- `merged` with the merged attribute of a name, of which the value of `base` is
    the first one and those of a list come after it. -/
def mergeAt (r : RuleSet α) (base : Attributes α) (as : List (Attributes α))
    (merged : Attributes α) (k : String) : Attributes α :=
  match (base.get? k).toList ++ valuesAt k as with
  | [] => merged
  | v :: vs => merged.insert k (.merge (r.mergeMode k) v vs)

/-- The attributes of a list merged into the first ones. -/
def merge (r : RuleSet α) (base : Attributes α) (as : List (Attributes α)) : Attributes α :=
  (allKeys as).toList.foldl (mergeAt r base as) base

end Attributes

namespace RuleSet

/-- The names under which the values of members count for their party. -/
def liftedKeys (r : RuleSet α) : List String :=
  r.options.map (·.name) ++ [Key.crossPlatform, Key.currentPlatform]

/-- The attributes of a party, with a value that counts for it. -/
def liftKey (t : Ticket α) (a : Attributes α) (k : String) : Attributes α :=
  if a.contains k || (t.optionNames k).isEmpty then a
  else a.insert k (.ofNames (t.optionNames k))

/-- The attributes of a ticket, with those of its members that count for the
    party, and all players whom it blocks. -/
def ticketAttributes (r : RuleSet α) (t : Ticket α) : Attributes α :=
  let a := r.liftedKeys.foldl (liftKey t) t.attributes
  if t.blocked.isEmpty then a else a.insert Key.blockedPlayers (.ofNames t.blocked)

/-- The attributes of a session of a pivot and further tickets. -/
def sessionAttributes (r : RuleSet α) (pivot : Ticket α) (ts : List (Ticket α)) : Attributes α :=
  (r.ticketAttributes pivot).merge r (ts.map r.ticketAttributes)

/-- The mean of an attribute over the players of some tickets. -/
def meanOver (k : String) (ts : List (Ticket α)) : RunningMean α :=
  ts.foldl (fun m t => m.absorb (t.average k) t.players) ⟨Scalar.ofNat 0, 0⟩

/-- The means of what the players of some tickets are matched by. -/
def means (r : RuleSet α) (ts : List (Ticket α)) : Dict (RunningMean α) :=
  .ofList (r.distances.map fun d => (d.key, meanOver d.key ts))

end RuleSet

end Matchmaking
