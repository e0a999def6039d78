import Matchmaking.Pivot
import Matchmaking.Region
import Matchmaking.Rules.Flexing

/-!
# Searches

A search goes through the tickets of a queue and collects those that fit a
pivot, in a region and a mode. What was collected narrows what is accepted after
it: nobody is collected twice, platforms and options must be shared with all,
and block lists hold among all.

Whether a ticket fits is a question about the search and what it has collected
(`Search.refusal?`). A ticket that fits says what it adds to the collection
(`Search.changes`), and only then the collection changes, so a ticket that does
not fit leaves no trace. What a ticket costs (`Search.score`) depends on the
pivot alone.
-/

namespace Matchmaking

/-- Why a ticket does not fit. -/
inductive Refusal where
  /-- It has a ticket, a party or a player in common with the collection. -/
  | overlap
  /-- It stays out of this session. -/
  | excluded
  /-- It stays out of sessions that have begun. -/
  | newSessionOnly
  /-- It does not play this mode. -/
  | mode
  /-- It is too far away in an attribute. -/
  | distance (key : String)
  /-- It does not play with the platforms of the collection, or they not with its
      own. -/
  | platform
  /-- It does not agree on an option. -/
  | option (name : String)
  /-- It has another value of a custom attribute. -/
  | attributes (key : String)
  /-- It blocks a player, or a player blocks it. -/
  | blocked
  /-- It is too slow in the region. -/
  | region
  /-- It lacks what the session asks for. -/
  | criteria (key : String)
  deriving DecidableEq

/-- The wording of a refusal. -/
def Refusal.message : Refusal → String
  | overlap => "candidate overlaps with the pivot"
  | excluded => "candidate excluded this session"
  | newSessionOnly => "candidate only joins new sessions"
  | mode => "candidate does not accept this sub game mode"
  | distance key => key ++ " outside tolerance"
  | platform => "cross-play platforms incompatible"
  | option name => "match option " ++ name ++ " not satisfied"
  | attributes key => "party attribute " ++ key ++ " differs"
  | blocked => "blocked player"
  | region => "region latency out of range"
  | criteria key => "additional criteria " ++ key ++ " differs"

/-- The platforms of a party: those that it plays on, and those that it plays
    with, if it is particular about them. -/
structure Platforms where
  /-- The platforms that it plays with. -/
  desired : Option NameSet
  /-- The platforms that it plays on. -/
  current : NameSet
  deriving DecidableEq

namespace Platforms

/-- The platforms of what offers names: without desired ones, it plays with those
    that it plays on, and without these with all. -/
def of (names : String → NameSet) : Platforms :=
  let current := names Key.currentPlatform
  let desired := names Key.crossPlatform
  { desired :=
      if !desired.isEmpty then some desired else if !current.isEmpty then some current else none
    current }

/-- Whether platforms are among those that are desired. -/
def accepts (p : Platforms) (current : NameSet) : Bool := p.desired.all current.subset

/-- What two parties both play with. -/
def narrow : Option NameSet → Option NameSet → Option NameSet
  | some ours, some theirs => some (ours.inter theirs)
  | some ours, none => some ours
  | none, theirs => theirs

/-- Two parties as one, which plays with what both play with if `narrowing`, and
    else with what the first one plays with. -/
def join (narrowing : Bool) (p q : Platforms) : Platforms where
  desired := if narrowing then narrow p.desired q.desired else p.desired
  current := p.current.union q.current

end Platforms

/-- What a ticket adds to a collection. -/
inductive Change where
  /-- It narrows the platforms. -/
  | platforms (p : Platforms)
  /-- It narrows the shared names of an option. -/
  | share (name : String) (names : NameSet)
  /-- It takes names of an option for itself. -/
  | claim (name : String) (names : NameSet)
  /-- Its ticket, its players and whom they block. -/
  | members (ticket : String) (users blocked : NameSet)
  deriving DecidableEq

/-- What a search has collected. -/
structure Collection where
  /-- The tickets. -/
  tickets : NameSet
  /-- The parties of the pivot. -/
  parties : NameSet
  /-- The players. -/
  users : NameSet
  /-- The players that are blocked. -/
  blocked : NameSet
  /-- The platforms. -/
  platforms : Platforms
  /-- The names of each option that every ticket must offer. -/
  required : Dict NameSet
  /-- The names of each option that all tickets share. -/
  shared : Dict NameSet
  /-- The names of each option that are taken. -/
  claimed : Dict NameSet
  deriving DecidableEq

/-- What a search looks for. -/
structure Search (α : Type) where
  /-- The rules as they are. -/
  source : RuleSet α
  /-- The rules in force for the pivot. -/
  active : RuleSet α
  /-- What the search is for. -/
  pivot : Pivot α
  /-- The region to play in, if that matters. -/
  region : Option String
  /-- The mode to play. -/
  mode : Option String
  /-- The time of the search. -/
  now : Instant
  deriving DecidableEq

/-- A ticket that fits. -/
structure Found (α : Type) where
  /-- The ticket. -/
  ticket : Ticket α
  /-- What it costs to take it. -/
  score : α
  /-- Its latency in the region, if the region matters and it is known. -/
  latency : Option Latency
  deriving DecidableEq

variable {α : Type}

namespace Collection

/-- Whether a ticket has something in common with the collection. -/
def overlaps (c : Collection) (t : Ticket α) : Bool :=
  c.tickets.contains t.id || c.parties.contains t.partyId ||
    t.members.any fun m => c.users.contains m.id

/-- The collection after a change. -/
def apply (narrowing : Bool) (c : Collection) : Change → Collection
  | .platforms p => { c with platforms := c.platforms.join narrowing p }
  | .share name names =>
    match narrowing, c.shared.get? name with
    | true, some ours => { c with shared := c.shared.insert name (ours.inter names) }
    | _, _ => c
  | .claim name names =>
    { c with claimed := c.claimed.insert name ((c.claimed.getD name ∅).union names) }
  | .members ticket users blocked =>
    { c with
      tickets := c.tickets.insert ticket
      users := c.users.union users
      blocked := c.blocked.union blocked }

/-- The collection after changes. -/
def applyAll (narrowing : Bool) (c : Collection) (changes : List Change) : Collection :=
  changes.foldl (apply narrowing) c

end Collection

namespace Found

/-- The order in which tickets are taken: by priority, then by what they cost,
    then by latency if that matters, then the longest wait first, then by
    ticket. An unknown latency is the greatest. -/
def rank [Scalar α] (byLatency : Bool) : Found α → Found α → Ordering :=
  compareLex (fun a b => compare b.ticket.priority a.ticket.priority) <|
  compareLex (fun a b => Scalar.rank a.score b.score) <|
  compareLex
    (fun a b =>
      if byLatency then
        compare (a.latency.getD Latency.greatest) (b.latency.getD Latency.greatest)
      else .eq) <|
  compareLex (fun a b => Instant.rank a.ticket.createdAt b.ticket.createdAt)
    (compareOn (·.ticket.id))

end Found

namespace Search

variable [Scalar α] (s : Search α)

/-- Whether platforms matter. -/
def platformsMatter : Bool := s.active.optionKind? Key.crossPlatform = some .any

/-- The options that are not about platforms. -/
def options : List MatchOption := s.active.options.filter fun o => o.name != Key.crossPlatform

/-- The names that the pivot offers under the options of a kind. -/
def offered (kind : OptionKind) : Dict NameSet :=
  .ofList ((s.options.filter fun o => o.kind = kind).map fun o =>
    (o.name, s.pivot.optionNames o.name))

/-- The collection that a search starts from: its pivot. -/
def start : Collection where
  tickets := s.pivot.ticketIds
  parties := s.pivot.partyIds
  users := s.pivot.userIds
  blocked := s.pivot.blocked
  platforms := if s.platformsMatter then .of s.pivot.optionNames else ⟨none, ∅⟩
  required := s.offered .all
  shared := s.offered .any
  claimed := s.offered .unique

/-! ### What a ticket must do to fit -/

/-- It joins open sessions, and this one. -/
def sessionRefusal? (t : Ticket α) : Option Refusal :=
  match s.pivot with
  | .ticket _ => none
  | .session session =>
    if t.excluded.contains session.id then some .excluded
    else if t.newSessionOnly then some .newSessionOnly
    else none

/-- It plays the mode; without one it plays none that the rules know. -/
def acceptsMode (t : Ticket α) : Bool :=
  let declared := t.modes.filter s.source.modes.contains
  match s.mode with
  | some m => declared.contains m
  | none => declared.isEmpty

/-- The tolerance of a ticket towards the pivot. -/
def toleranceOf (d : DistanceRule α) (t : Ticket α) : α :=
  (s.source.tolerance? t.createdAt s.now d.key).getD d.tolerance

/-- It and the pivot lie in the tolerance of each other. -/
def isNear (t : Ticket α) (d : DistanceRule α) : Bool :=
  let ours := s.pivot.average d.key
  let theirs := t.average d.key
  Scalar.within ours theirs d.tolerance && Scalar.within theirs ours (s.toleranceOf d t)

/-- Its platforms and those of the collection get along. -/
def acceptsPlatforms (c : Collection) (t : Ticket α) : Bool :=
  !s.platformsMatter ||
    (c.platforms.accepts (Platforms.of t.optionNames).current &&
      (Platforms.of t.optionNames).accepts c.platforms.current)

/-- It agrees on an option: it offers all that is required, some of what is
    shared if anything is, or none of what is taken. -/
def agrees (c : Collection) (t : Ticket α) (o : MatchOption) : Bool :=
  let names := t.optionNames o.name
  match o.kind with
  | .all => (c.required.get? o.name).all fun ours => ours.subset names
  | .any => (c.shared.get? o.name).all fun ours => ours.isEmpty || !ours.disjoint names
  | .unique => (c.claimed.get? o.name).all fun ours => ours.disjoint names
  | .disable => true

/-- Whether an attribute must be the same in all parties: it is not one that
    other rules deal with. -/
def isCustom (key : String) : Bool :=
  !(Key.isHousekeeping key || s.pivot.criteria.contains key || s.active.isOption key ||
    (s.active.distance? key).isSome)

/-- Its custom attributes are those of the pivot. -/
def attributeRefusal? (t : Ticket α) : Option Refusal :=
  if s.active.deferAttributes && !s.pivot.isSession then none
  else
    let keys := NameSet.ofList (s.pivot.attributes.keys ++ t.attributes.keys)
    (keys.toList.find? fun k =>
      s.isCustom k && s.pivot.attributes.names k != t.attributes.names k).map .attributes

/-- It blocks nobody, and nobody blocks it, if that matters in a match. -/
def acceptsUsers (c : Collection) (t : Ticket α) : Bool :=
  s.active.blockPolicy ≠ .cannotMatch ||
    (t.blocked.disjoint c.users && c.blocked.disjoint t.userIds)

/-- It fits the region. -/
def fit? (t : Ticket α) : Option (RegionFit α) := s.active.regionFit? t s.now s.region

/-- It has what the pivot asks for. -/
def criteriaRefusal? (t : Ticket α) : Option Refusal :=
  (s.pivot.criteria.toList.find? fun (k, v) => t.attributes.names k != v.names).map
    fun (k, _) => .criteria k

/-- Why a ticket does not fit, if it does not. -/
def refusal? (c : Collection) (t : Ticket α) : Option Refusal :=
  (if c.overlaps t then some .overlap else none).or <|
  (s.sessionRefusal? t).or <|
  (if s.acceptsMode t then none else some .mode).or <|
  ((s.active.distances.find? fun d => !s.isNear t d).map fun d => .distance d.key).or <|
  (if s.acceptsPlatforms c t then none else some .platform).or <|
  ((s.options.find? fun o => !agrees c t o).map fun o => .option o.name).or <|
  (s.attributeRefusal? t).or <|
  (if s.acceptsUsers c t then none else some .blocked).or <|
  (if (s.fit? t).isSome then none else some .region).or <|
  s.criteriaRefusal? t

/-! ### What a ticket costs and adds -/

/-- What the distance of a ticket costs. -/
def distanceScore (t : Ticket α) : α :=
  s.active.distances.foldl
    (fun score d => score + d.score (Scalar.distance (s.pivot.average d.key) (t.average d.key)))
    (Scalar.ofNat 0)

/-- What a ticket costs, in all, and its latency, if it fits the region. -/
def found? (t : Ticket α) : Option (Found α) :=
  (s.fit? t).map fun fit => ⟨t, s.distanceScore t + fit.score, fit.latency⟩

/-- What a ticket adds to an option. -/
def optionChange? (c : Collection) (t : Ticket α) (o : MatchOption) : Option Change :=
  let names := t.optionNames o.name
  match o.kind with
  | .any =>
    match c.shared.get? o.name with
    | some ours => if ours.isEmpty then none else some (.share o.name names)
    | none => none
  | .unique => some (.claim o.name names)
  | _ => none

/-- What a ticket adds to the collection. -/
def changes (c : Collection) (t : Ticket α) : List Change :=
  (if s.platformsMatter then [.platforms (.of t.optionNames)] else []) ++
    s.options.filterMap (optionChange? c t) ++ [.members t.id t.userIds t.blocked]

/-- A ticket that fits, or why it does not. -/
def evaluate (c : Collection) (t : Ticket α) : Except Refusal (Found α) :=
  match s.refusal? c t, s.found? t with
  | some r, _ => .error r
  | none, some found => .ok found
  | none, none => .error .region

/-- The collection with a ticket. -/
def collect (c : Collection) (t : Ticket α) : Collection :=
  c.applyAll s.active.narrowAny (s.changes c t)

/-- The tickets of a list that fit, in turn, and the collection with them. -/
def accept (c : Collection) : List (Ticket α) → List (Found α) × Collection
  | [] => ([], c)
  | t :: ts =>
    match s.evaluate c t with
    | .error _ => accept c ts
    | .ok found =>
      let (rest, c) := accept (s.collect c t) ts
      (found :: rest, c)

/-- The tickets of a list that fit, the best one first. -/
def run (ts : List (Ticket α)) : List (Found α) :=
  sortBy (Found.rank s.pivot.isSession) (s.accept s.start ts).1

end Search

end Matchmaking
