import Matchmaking.Proofs.Json.Record
import Matchmaking.Rules.Record

/-!
# Rule sets are read back

The parts of a rule set are read back one within the other: roles, shapes of a match with their
bounds, what replaces them in time, modes, options and distances. Their counts are words and their
numbers are finite (`RuleSet.Writable`). The rule set that is read has all its parts, and its
defaults count as not filled in (`RuleSet.image`).
-/

namespace Matchmaking

open Json (Image Parts)

variable {α : Type} {finite : α → Prop} {room : Nat}

namespace Role

/-- A role that can be written: words count its members. -/
structure Writable (r : Role) : Prop where
  /-- How many members must take it. -/
  min : r.min < Word.size
  /-- How many members may take it. -/
  max : r.max < Word.size

theorem image {r : Role} (h : r.Writable) :
    Image finite (room + 1) ofJson? (toJson r : Json α) r := by
  refine Image.record ?names ?reads ?fields
  case names => simp
  case reads =>
    refine Parts.required_bind (by simp) (Json.text?_str r.name) ?_
    refine Parts.default_bind (by simp) (Json.count?_ofNat h.min) ?_
    exact Parts.required_bind (by simp) (Json.count?_ofNat h.max) rfl
  case fields =>
    simp only [List.forall_mem_cons]
    exact ⟨.str _, .count h.min, .count h.max, List.forall_mem_nil _⟩

end Role

namespace RoleCombination

/-- A role combination that can be written. -/
structure Writable (c : RoleCombination) : Prop where
  /-- The roles of its teams are. -/
  roles : ∀ roles ∈ c.teams, ∀ r ∈ roles, r.Writable
  /-- A word counts the seconds of waiting per ration. -/
  flexSeconds : c.flexSeconds < Word.size
  /-- A word counts the players of a ration. -/
  flexPlayers : c.flexPlayers < Word.size

theorem image {c : RoleCombination} (h : c.Writable) :
    Image finite (room + 4) ofJson? (toJson c : Json α) c := by
  have hteams : Image finite (room + 3) _ _ c.teams :=
    .list fun roles hroles => .list fun r hr => Role.image (h.roles roles hroles r hr)
  refine Image.record ?names ?reads ?fields
  case names => simp
  case reads =>
    refine Parts.default_bind (by simp) (Json.bool?_bool c.active) ?_
    refine Parts.default_bind (by simp) (Json.bool?_bool c.unique) ?_
    refine Parts.default_bind (by simp) hteams.reads ?_
    refine Parts.default_bind (by simp) (Json.bool?_bool c.flexing) ?_
    refine Parts.default_bind (by simp) (Json.count?_ofNat h.flexSeconds) ?_
    exact Parts.default_bind (by simp) (Json.count?_ofNat h.flexPlayers) rfl
  case fields =>
    simp only [List.forall_mem_cons]
    exact ⟨.bool _, .bool _, hteams.writable, .bool _, .count h.flexSeconds, .count h.flexPlayers,
      List.forall_mem_nil _⟩

end RoleCombination

namespace Bounds

/-- Bounds that can be written: they are words. -/
structure Writable (b : Bounds) : Prop where
  /-- The least number of teams. -/
  minTeams : b.minTeams < Word.size
  /-- The greatest number of teams. -/
  maxTeams : b.maxTeams < Word.size
  /-- The least number of players of a team. -/
  minSize : b.minSize < Word.size
  /-- The greatest number of players of a team. -/
  maxSize : b.maxSize < Word.size

/-- The parts of a record that are bounds, and those after them. -/
theorem ofParts?_bind {γ : Type} {p : Parts α} {b : Bounds} {make : Bounds → Option γ} {y : γ}
    (h : b.Writable) (hp : ∀ f ∈ b.fields, p f.1 = some f.2) (hrest : make b = some y) :
    (ofParts? p).bind make = some y := by
  simp only [fields, List.forall_mem_cons] at hp
  have hparts : ofParts? p = some b := by
    refine Parts.required_bind hp.1 (Json.count?_ofNat h.minTeams) ?_
    refine Parts.required_bind hp.2.1 (Json.count?_ofNat h.maxTeams) ?_
    refine Parts.required_bind hp.2.2.1 (Json.count?_ofNat h.minSize) ?_
    exact Parts.required_bind hp.2.2.2.1 (Json.count?_ofNat h.maxSize) rfl
  rw [hparts, Option.bind_some, hrest]

theorem Writable.fields {b : Bounds} (h : b.Writable) :
    ∀ f ∈ b.fields, Json.Writable finite room f.2 := by
  simp only [Bounds.fields, List.forall_mem_cons]
  exact ⟨.count h.minTeams, .count h.maxTeams, .count h.minSize, .count h.maxSize,
    List.forall_mem_nil _⟩

end Bounds

namespace AllianceRule

/-- A shape that can be written. -/
structure Writable (a : AllianceRule) : Prop where
  /-- Its bounds are. -/
  bounds : a.bounds.Writable
  /-- Its roles are. -/
  combination : ∀ c ∈ a.combination, c.Writable

theorem image {a : AllianceRule} (h : a.Writable) :
    Image finite (room + 5) ofJson? (toJson a : Json α) a := by
  have hcombination : ∀ c ∈ a.combination, Image finite (room + 4) _ _ c :=
    fun c hc => RoleCombination.image (h.combination c hc)
  refine Image.record ?names ?reads ?fields
  case names => cases a.combination <;> simp [Json.optionalField, Bounds.fields]
  case reads =>
    refine Bounds.ofParts?_bind h.bounds ?bounds ?_
    case bounds =>
      simp only [Bounds.fields, List.forall_mem_cons]
      exact ⟨by simp, by simp, by simp, by simp, List.forall_mem_nil _⟩
    exact Parts.optional_bind (o := a.combination) (by simp [Bounds.fields])
      (fun c hc => (hcombination c hc).reads) (fun _ h => by cases h) rfl
  case fields =>
    simp only [List.forall_mem_append, Json.forall_mem_optionalField]
    exact ⟨h.bounds.fields, fun c hc => (hcombination c hc).writable⟩

end AllianceRule

namespace AllianceFlexing

/-- Bounds after a time that can be written. -/
structure Writable (f : AllianceFlexing) : Prop where
  /-- A word counts the seconds of waiting. -/
  duration : f.duration < Word.size
  /-- The bounds are words. -/
  bounds : f.bounds.Writable

theorem image {f : AllianceFlexing} (h : f.Writable) :
    Image finite (room + 1) ofJson? (toJson f : Json α) f := by
  refine Image.record ?names ?reads ?fields
  case names => simp [Bounds.fields]
  case reads =>
    refine Parts.required_bind (by simp) (Json.count?_ofNat h.duration) ?_
    refine Bounds.ofParts?_bind h.bounds ?_ rfl
    simp only [Bounds.fields, List.forall_mem_cons]
    exact ⟨by simp, by simp, by simp, by simp, List.forall_mem_nil _⟩
  case fields =>
    simp only [List.forall_mem_cons]
    exact ⟨.count h.duration, h.bounds.fields⟩

end AllianceFlexing

namespace Mode

/-- A mode that can be written. -/
structure Writable (m : Mode) : Prop where
  /-- Its shape is. -/
  alliance : m.alliance.Writable
  /-- How its shape changes in time is. -/
  flexing : ∀ f ∈ m.flexing, f.Writable

theorem image {m : Mode} (h : m.Writable) :
    Image finite (room + 6) ofJson? (toJson m : Json α) m := by
  have halliance : Image finite (room + 5) _ (m.alliance.toJson : Json α) _ :=
    AllianceRule.image h.alliance
  have hflexing : Image finite (room + 5) _ (Json.ofList AllianceFlexing.toJson m.flexing : Json α)
      m.flexing := .list fun f hf => AllianceFlexing.image (h.flexing f hf)
  refine Image.record ?names ?reads ?fields
  case names => simp
  case reads =>
    refine Parts.required_bind (by simp) halliance.reads ?_
    exact Parts.default_bind (by simp) hflexing.reads rfl
  case fields =>
    simp only [List.forall_mem_cons]
    exact ⟨halliance.writable, hflexing.writable, List.forall_mem_nil _⟩

end Mode

theorem lookup_criteria : criteria.lookup "distance" = some () := rfl

theorem OptionKind.lookup_name (kind : OptionKind) : names.lookup kind.name = some kind := by
  cases kind <;> rfl

theorem BlockPolicy.lookup_name (policy : BlockPolicy) :
    names.lookup policy.name = some policy := by
  cases policy <;> rfl

namespace MatchOption

theorem image (o : MatchOption) : Image finite (room + 1) ofJson? (toJson o : Json α) o := by
  refine Image.record ?names ?reads ?fields
  case names => simp
  case reads =>
    refine Parts.required_bind (by simp) (Json.text?_str o.name) ?_
    exact Parts.required_bind (by simp) (Json.oneOf?_str o.kind.lookup_name) rfl
  case fields =>
    simp only [List.forall_mem_cons]
    exact ⟨.str _, .str _, List.forall_mem_nil _⟩

theorem image_list (os : List MatchOption) :
    Image finite (room + 3) listOfJson? (listToJson os : Json α) os := by
  have hoptions : Image finite (room + 2) _ (Json.ofList toJson os : Json α) os :=
    .list fun o _ => image o
  refine Image.record ?names ?reads ?fields
  case names => simp
  case reads =>
    rw [Parts.default]
    simp [hoptions.reads]
  case fields => exact List.forall_mem_singleton.2 hoptions.writable

end MatchOption

variable [Scalar α]

namespace DistanceRule

/-- A distance rule that can be written: its numbers are finite. -/
structure Writable (finite : α → Prop) (d : DistanceRule α) : Prop where
  /-- The greatest distance. -/
  tolerance : finite d.tolerance
  /-- What a unit of distance costs. -/
  weight : ∀ w ∈ d.weight, finite w
  /-- What distances are divided by. -/
  scale : ∀ s ∈ d.scale, finite s

theorem image {d : DistanceRule α} (h : d.Writable finite) :
    Image finite (room + 1) ofJson? d.toJson d := by
  refine Image.record ?names ?reads ?fields
  case names => cases d.weight <;> cases d.scale <;> simp [Json.optionalField, criteriaField]
  case reads =>
    refine Parts.default_bind (by simp [criteriaField]) (Json.oneOf?_str lookup_criteria) ?_
    refine Parts.required_bind (by simp) (Json.text?_str d.key) ?_
    refine Parts.required_bind (by simp [criteriaField]) (Json.scalar?_real d.tolerance) ?_
    refine Parts.optional_bind (o := d.weight) (by simp [criteriaField])
      (fun w _ => Json.scalar?_real w) (fun _ h => by cases h) ?_
    exact Parts.optional_bind (o := d.scale) (by simp [criteriaField])
      (fun s _ => Json.scalar?_real s) (fun _ h => by cases h) rfl
  case fields =>
    simp only [List.forall_mem_append, List.forall_mem_cons, Json.forall_mem_optionalField]
    exact ⟨⟨⟨.str _, .str _, .real h.tolerance, List.forall_mem_nil _⟩,
      fun w hw => .real (h.weight w hw)⟩, fun s hs => .real (h.scale s hs)⟩

end DistanceRule

namespace FlexingRule

/-- A tolerance after a time that can be written. -/
structure Writable (finite : α → Prop) (f : FlexingRule α) : Prop where
  /-- A word counts the seconds of waiting. -/
  duration : f.duration < Word.size
  /-- The tolerance is finite. -/
  tolerance : finite f.tolerance

theorem image {f : FlexingRule α} (h : f.Writable finite) :
    Image finite (room + 1) ofJson? f.toJson f := by
  refine Image.record ?names ?reads ?fields
  case names => simp [criteriaField]
  case reads =>
    refine Parts.default_bind (by simp [criteriaField]) (Json.oneOf?_str lookup_criteria) ?_
    refine Parts.required_bind (by simp) (Json.count?_ofNat h.duration) ?_
    refine Parts.required_bind (by simp) (Json.text?_str f.key) ?_
    exact Parts.required_bind (by simp [criteriaField]) (Json.scalar?_real f.tolerance) rfl
  case fields =>
    simp only [List.forall_mem_cons]
    exact ⟨.count h.duration, .str _, .str _, .real h.tolerance, List.forall_mem_nil _⟩

end FlexingRule

namespace RuleSet

/-- A rule set that can be written. -/
structure Writable (finite : α → Prop) (r : RuleSet α) : Prop where
  /-- The shape of a match is. -/
  alliance : r.alliance.Writable
  /-- How far apart players may be is. -/
  distances : ∀ d ∈ r.distances, d.Writable finite
  /-- How tolerances change in time is. -/
  flexing : ∀ f ∈ r.flexing, f.Writable finite
  /-- How the shape changes in time is. -/
  allianceFlexing : ∀ f ∈ r.allianceFlexing, f.Writable
  /-- The further shapes are. -/
  modes : r.modes.All Mode.Writable

/-- A rule set is read back, without its defaults being known as filled in. -/
theorem image {r : RuleSet α} (h : r.Writable finite) :
    Image finite (room + 8) ofJson? r.toJson { r with defaultsApplied := false } := by
  have halliance : Image finite (room + 7) _ r.alliance.toJson _ := AllianceRule.image h.alliance
  have hdistances : Image finite (room + 7) _ _ r.distances :=
    .list fun d hd => DistanceRule.image (h.distances d hd)
  have hflexing : Image finite (room + 7) _ _ r.flexing :=
    .list fun f hf => FlexingRule.image (h.flexing f hf)
  have hallianceFlexing : Image finite (room + 7) _ _ r.allianceFlexing :=
    .list fun f hf => AllianceFlexing.image (h.allianceFlexing f hf)
  have hoptions : Image finite (room + 7) _ (MatchOption.listToJson r.options) r.options :=
    MatchOption.image_list r.options
  have hmodes : Image finite (room + 7) _ _ r.modes := .dict fun e he => Mode.image (h.modes e he)
  refine Image.record ?names ?reads ?fields
  case names => simp
  case reads =>
    refine Parts.required_bind (by simp) halliance.reads ?_
    refine Parts.default_bind (by simp) hdistances.reads ?_
    refine Parts.default_bind (by simp) hflexing.reads ?_
    refine Parts.default_bind (by simp) hallianceFlexing.reads ?_
    refine Parts.default_bind (by simp) hoptions.reads ?_
    refine Parts.default_bind (by simp) (Json.latency?_ofNat r.region.stepMillis) ?_
    refine Parts.default_bind (by simp) (Json.latency?_ofNat r.region.stepRange) ?_
    refine Parts.default_bind (by simp) (Json.latency?_ofNat r.region.initialRange) ?_
    refine Parts.default_bind (by simp) (Json.latency?_ofNat r.region.greatest) ?_
    refine Parts.default_bind (by simp) (Json.oneOf?_str r.blockPolicy.lookup_name) ?_
    refine Parts.default_bind (by simp) hmodes.reads ?_
    refine Parts.default_bind (by simp) (Json.bool?_bool r.narrowAny) ?_
    refine Parts.default_bind (by simp) (Json.bool?_bool r.deferAttributes) ?_
    exact Parts.default_bind (by simp) (Json.bool?_bool r.autoBackfill) rfl
  case fields =>
    simp only [List.forall_mem_cons]
    exact ⟨halliance.writable, hdistances.writable, hflexing.writable, hallianceFlexing.writable,
      hoptions.writable, .latency _, .latency _, .latency _, .latency _, .str _, hmodes.writable,
      .bool _, .bool _, .bool _, List.forall_mem_nil _⟩

end RuleSet

end Matchmaking
