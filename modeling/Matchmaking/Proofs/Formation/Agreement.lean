import Matchmaking.Number.Rational
import Matchmaking.Proofs.Attribute
import Matchmaking.Proofs.Formation.Shape

/-!
# What the tickets of a new session agree on

A ticket is found for a pivot if the two lie in the tolerance of each other, each by
the time that it has waited, and if it plays the mode, reaches the region and has the
custom attributes of the pivot (`Formation.mutual_of_mem_candidates`,
`Formation.meets_of_mem_candidates`). The pivot itself plays the modes and reaches the
regions that it tries (`Formation.meets_pivot`). So this holds of all tickets of a
session (`Session.Agrees`).
-/

namespace Matchmaking

variable {α : Type}

/-! ## Regions -/

theorem RegionRule.limit_le_greatest {r : RegionRule} (h : 0 < r.greatest) (best : Latency)
    (millis : Int) : r.limit best millis ≤ r.greatest := by
  have hgreatest : r.greatest > 0 := h
  rw [limit, if_pos hgreatest]
  exact Std.min_le_right

namespace RuleSet

/-- A ticket reaches a region: it has measured a latency there that is within its
    limit, and so within the greatest one that the rules allow, if they do not allow
    all. -/
def Reaches (r : RuleSet α) (now : Instant) (region : String) (t : Ticket α) : Prop :=
  ∃ latency limit, t.latencies.get? region = some latency ∧
    r.latencyLimit? t now = some limit ∧ latency ≤ limit ∧
    (0 < r.region.greatest → latency ≤ r.region.greatest)

/-- A ticket plays a mode, or in no mode in particular, which those do that ask for none
    that the rules know. -/
def Plays [Scalar α] (r : RuleSet α) (t : Ticket α) : Option String → Prop
  | some m => m ∈ t.modes
  | none => ∀ m ∈ t.modes, r.modes.contains m = false

/-- An attribute that no other rule deals with. -/
def IsCustom (r : RuleSet α) (key : String) : Prop :=
  Key.isHousekeeping key = false ∧ r.isOption key = false ∧ r.distance? key = none

/-- A ticket tolerates another one in an attribute, by the tolerance that is in force
    for it. -/
def Tolerates [Scalar α] (r : RuleSet α) (now : Instant) (key : String) (t u : Ticket α) : Prop :=
  ∃ tolerance, r.tolerance? t.createdAt now key = some tolerance ∧
    Scalar.within (t.average key) (u.average key) tolerance = true

/-- Two tickets tolerate each other in all attributes that the rules measure. -/
def Mutual [Scalar α] (r : RuleSet α) (now : Instant) (t u : Ticket α) : Prop :=
  ∀ d ∈ r.distances, r.Tolerates now d.key t u ∧ r.Tolerates now d.key u t

variable {r : RuleSet α} {now : Instant} {t u t' u' : Ticket α}

theorem reaches_of_le {region : String} {latency limit : Latency}
    (hlatency : t.latencies.get? region = some latency)
    (hlimit : r.latencyLimit? t now = some limit) (h : latency ≤ limit) :
    r.Reaches now region t := by
  refine ⟨latency, limit, hlatency, hlimit, h, fun hgreatest => UInt64.le_trans h ?_⟩
  simp only [latencyLimit?] at hlimit
  split_ifs at hlimit
  obtain ⟨best, _, rfl⟩ := Option.map_eq_some_iff.1 hlimit
  exact RegionRule.limit_le_greatest hgreatest _ _

/-- A ticket reaches the regions that it tries, and it tries some only if regions
    matter. -/
theorem reaches_of_mem_regions {region : String} (h : some region ∈ r.regions t now) :
    r.region.isUsed = true ∧ r.Reaches now region t := by
  rw [regions] at h
  split at h
  · simp at h
  · rename_i limit hlimit
    obtain ⟨⟨name, latency⟩, he, hname⟩ := List.mem_map.1 h
    obtain rfl := Option.some_inj.1 hname
    obtain ⟨hmem, hle⟩ := List.mem_filter.1 he
    have hget : t.latencies.get? name = some latency :=
      Dict.get?_eq_some_iff.2 ((List.mergeSort_perm _ _).mem_iff.1 hmem)
    refine ⟨?_, reaches_of_le hget hlimit (of_decide_eq_true hle)⟩
    by_contra hused
    simp [latencyLimit?, hused] at hlimit

theorem reaches_of_regionFit? [Scalar α] (hused : r.region.isUsed = true) {region : String}
    (h : (r.regionFit? t now (some region)).isSome = true) : r.Reaches now region t := by
  simp only [regionFit?, hused, if_true] at h
  cases hlatency : t.latencies.get? region with
  | none => simp [hlatency] at h
  | some latency =>
    cases hlimit : r.latencyLimit? t now with
    | none => simp [hlatency, hlimit] at h
    | some limit =>
      by_cases hle : latency ≤ limit
      · exact reaches_of_le hlatency hlimit hle
      · simp [hlatency, hlimit, hle] at h

/-! ## Roles are no matter -/

theorem Reaches.congr {region : String} (h : t.unflexed = t'.unflexed)
    (ht : r.Reaches now region t) : r.Reaches now region t' := by
  have hunflexed : r.Reaches now region t.unflexed := ht
  rw [h] at hunflexed
  exact hunflexed

variable [Scalar α]

theorem Plays.congr {mode : Option String} (h : t.unflexed = t'.unflexed) (ht : r.Plays t mode) :
    r.Plays t' mode := by
  have hmodes : t.modes = t'.modes := by rw [Ticket.modes, Ticket.attributes_congr h, Ticket.modes]
  cases mode <;> simpa only [Plays, hmodes] using ht

theorem Tolerates.congr {key : String} (h : t.unflexed = t'.unflexed)
    (h' : u.unflexed = u'.unflexed) (htu : r.Tolerates now key t u) :
    r.Tolerates now key t' u' := by
  simpa only [Tolerates, Ticket.createdAt_congr h, Ticket.average_congr h,
    Ticket.average_congr h'] using htu

theorem Mutual.congr (h : t.unflexed = t'.unflexed) (h' : u.unflexed = u'.unflexed)
    (htu : r.Mutual now t u) : r.Mutual now t' u' :=
  fun d hd => ⟨(htu d hd).1.congr h h', (htu d hd).2.congr h' h⟩

/-! ## Tolerances -/

omit [Scalar α] in
/-- The rules at a time have the tolerance in force for an attribute, as that of its
    first rule. -/
theorem exists_distanceAt (anchor now : Instant) {d : DistanceRule α} (hd : d ∈ r.distances) :
    ∃ e ∈ r.distancesAt anchor now,
      e.key = d.key ∧ r.tolerance? anchor now d.key = some e.tolerance := by
  obtain ⟨first, hfirst⟩ : ∃ first, r.distance? d.key = some first :=
    Option.isSome_iff_exists.1 (List.find?_isSome.2 ⟨d, hd, beq_self_eq_true _⟩)
  have hkey : first.key = d.key := by simpa using List.find?_some hfirst
  refine ⟨_, List.mem_map_of_mem (List.mem_of_find?_eq_some hfirst), ?_⟩
  simp only [tolerance?, hfirst, hkey, Option.map_some]
  cases r.flexing? anchor now d.key with
  | none => exact ⟨hkey, rfl⟩
  | some f => exact ⟨rfl, rfl⟩

omit [Scalar α] in
theorem distance?_isSome_iff {key : String} :
    (r.distance? key).isSome = true ↔ key ∈ r.distances.map (·.key) := by
  simp [distance?]

omit [Scalar α] in
/-- Time is no matter of which attributes are measured. -/
theorem distancesAt_keys (r : RuleSet α) (anchor now : Instant) :
    (r.distancesAt anchor now).map (·.key) = r.distances.map (·.key) := by
  rw [distancesAt, List.map_map]
  refine List.map_congr_left fun d _ => ?_
  rw [Function.comp_apply]
  split <;> rfl

omit [Scalar α] in
theorem exists_of_mem_distancesAt {anchor now : Instant} {d : DistanceRule α}
    (hd : d ∈ r.distancesAt anchor now) : ∃ e ∈ r.distances, e.key = d.key := by
  have hkey : d.key ∈ (r.distancesAt anchor now).map (·.key) := List.mem_map_of_mem hd
  rw [distancesAt_keys] at hkey
  exact List.mem_map.1 hkey

omit [Scalar α] in
/-- Time is no matter of whether an attribute is measured. -/
theorem isSome_distance?_flexedAt (r : RuleSet α) (anchor now : Instant) (key : String) :
    ((r.flexedAt anchor now).distance? key).isSome = (r.distance? key).isSome := by
  rw [Bool.eq_iff_iff, distance?_isSome_iff, distance?_isSome_iff, ← r.distancesAt_keys anchor now]
  rfl

end RuleSet

namespace Search

variable [Scalar α] {s : Search α} {c : Collection} {t : Ticket α}

theorem acceptsMode_iff : s.acceptsMode t = true ↔
    match s.mode with
    | some m => m ∈ t.modes ∧ s.source.modes.contains m = true
    | none => ∀ m ∈ t.modes, s.source.modes.contains m = false := by
  cases h : s.mode with
  | some m => simp [acceptsMode, h]
  | none =>
    simp only [acceptsMode, h, NameSet.isEmpty_iff]
    rw [← not_iff_not, ← ne_eq, NameSet.ne_empty_iff]
    simp

/-- No custom attribute is held against a ticket if it has those of the pivot, unless they
    only have to agree later. -/
theorem attributeRefusal?_eq_none_iff : s.attributeRefusal? t = none ↔
    ((s.active.deferAttributes && !s.pivot.isSession) = false → ∀ key, s.isCustom key = true →
      s.pivot.attributes.names key = t.attributes.names key) := by
  rw [attributeRefusal?]
  split_ifs with hdefer
  · simp [hdefer]
  · simp only [Bool.not_eq_true] at hdefer
    simp only [hdefer, forall_const, Option.map_eq_none_iff, List.find?_eq_none,
      ← NameSet.mem_def, NameSet.mem_ofList, Bool.and_eq_true, bne_iff_ne, not_and, not_not]
    refine ⟨fun h key hkey => ?_, fun h key _ hkey => h key hkey⟩
    by_cases hmem : key ∈ s.pivot.attributes.keys ++ t.attributes.keys
    · exact h key hmem hkey
    · -- Neither of them has a value there.
      rw [List.mem_append, not_or] at hmem
      rw [Attributes.names_eq_empty hmem.1, Attributes.names_eq_empty hmem.2]

/-- A ticket that fits has the custom attributes of the pivot. -/
theorem Fits.names_eq (h : s.Fits c t)
    (hs : (s.active.deferAttributes && !s.pivot.isSession) = false) {key : String}
    (hkey : s.isCustom key = true) : s.pivot.attributes.names key = t.attributes.names key :=
  attributeRefusal?_eq_none_iff.1 h.attributes hs key hkey

/-- A ticket that is near a ticket and the latter tolerate each other, under the rules in
    force for the latter. -/
theorem mutual_of_isNear {u : Ticket α} (hpivot : s.pivot = .ticket t)
    (hactive : s.active.distances = s.source.distancesAt t.createdAt s.now)
    (h : ∀ d ∈ s.active.distances, s.isNear u d = true) : s.source.Mutual s.now t u := by
  intro d hd
  obtain ⟨e, he, hkey, htolerance⟩ := RuleSet.exists_distanceAt t.createdAt s.now hd
  have hnear := h e (hactive ▸ he)
  simp only [isNear, Bool.and_eq_true, hkey, hpivot] at hnear
  refine ⟨⟨_, htolerance, hnear.1⟩, ?_⟩
  -- The other ticket has a tolerance of its own, as the attribute is one of the rules.
  obtain ⟨e', _, _, htolerance'⟩ := RuleSet.exists_distanceAt u.createdAt s.now hd
  refine ⟨_, htolerance', ?_⟩
  have htheirs := hnear.2
  rwa [toleranceOf, hkey, htolerance', Option.getD_some] at htheirs

end Search

/-! ## Sessions -/

namespace Formation

variable [Scalar α] {f : Formation α} {pivot t : Ticket α} {a : Attempt} {pool : List (Ticket α)}

/-- A ticket meets a pivot in an attempt. -/
structure Meets (f : Formation α) (pivot : Ticket α) (a : Attempt) (t : Ticket α) : Prop where
  mode : f.rules.Plays t a.mode
  region : ∀ region, a.region = some region → f.rules.Reaches f.now region t
  attributes : f.rules.deferAttributes = false → ∀ key, f.rules.IsCustom key →
    pivot.attributes.names key = t.attributes.names key

theorem Meets.congr {t' : Ticket α} (h : t.unflexed = t'.unflexed) (ht : f.Meets pivot a t) :
    f.Meets pivot a t' where
  mode := ht.mode.congr h
  region := fun region hregion => (ht.region region hregion).congr h
  attributes := fun hdefer key hkey =>
    Ticket.attributes_congr h ▸ ht.attributes hdefer key hkey

/-- A pivot plays the modes and reaches the regions that are tried for it. -/
theorem meets_pivot (ha : a ∈ f.attempts pivot) : f.Meets pivot a pivot := by
  obtain ⟨mode, hmode, ha⟩ := List.mem_flatMap.1 ha
  obtain ⟨region, hregion, rfl⟩ := List.mem_map.1 ha
  refine ⟨?_, ?_, fun _ _ _ => rfl⟩
  · rw [modes] at hmode
    split at hmode
    · rename_i hnone
      obtain rfl := List.mem_singleton.1 hmode
      intro m hm
      rw [← Bool.not_eq_true]
      intro hknown
      have : m ∈ pivot.modes.filter f.rules.modes.contains := NameSet.mem_filter.2 ⟨hm, hknown⟩
      rw [NameSet.mem_def, hnone] at this
      cases this
    · obtain ⟨m, hm, rfl⟩ := List.mem_map.1 hmode
      exact (NameSet.mem_filter.1 (NameSet.mem_def.2 hm)).1
  · rintro region rfl
    exact (RuleSet.reaches_of_mem_regions hregion).2

theorem fits_of_mem_candidates (ht : t ∈ f.candidates pivot a pool) :
    ∃ c, (f.search pivot a).Fits c t :=
  (f.search pivot a).run_fits _ t ht

omit [Scalar α] in
theorem isCustom_search {key : String} (h : f.rules.IsCustom key) :
    (f.search pivot a).isCustom key = true := by
  obtain ⟨hhouse, hoption, hdistance⟩ := h
  have hactive : ((f.activeRules pivot a.mode).distance? key).isSome = false := by
    refine (f.rules.isSome_distance?_flexedAt pivot.createdAt f.now key).trans ?_
    rw [hdistance, Option.isSome_none]
  have hoption' : (f.activeRules pivot a.mode).isOption key = false := hoption
  simp only [Search.isCustom, search, hhouse, hactive, hoption', Bool.false_or, Bool.or_false]
  rfl

/-- Candidates play the mode and reach the region of the attempt. -/
theorem meets_of_mem_candidates (ha : a ∈ f.attempts pivot) (ht : t ∈ f.candidates pivot a pool) :
    f.Meets pivot a t := by
  obtain ⟨c, hfits⟩ := fits_of_mem_candidates ht
  refine ⟨?_, fun region hregion => ?_, fun hdefer key hkey => ?_⟩
  · have hmode := Search.acceptsMode_iff.1 hfits.mode
    simp only [search] at hmode
    cases hm : a.mode with
    | some m =>
      rw [hm] at hmode
      exact hmode.1
    | none =>
      rw [hm] at hmode
      exact hmode
  · -- Regions matter, as the pivot tries one.
    obtain ⟨mode, _, ha⟩ := List.mem_flatMap.1 ha
    obtain ⟨tried, htried, rfl⟩ := List.mem_map.1 ha
    obtain rfl : tried = some region := hregion
    have hfit : (f.rules.regionFit? t f.now (some region)).isSome = true := hfits.region
    exact RuleSet.reaches_of_regionFit? (RuleSet.reaches_of_mem_regions htried).1 hfit
  · refine hfits.names_eq ?_ (isCustom_search hkey)
    show (f.rules.deferAttributes && _) = false
    rw [hdefer]
    rfl

/-- A candidate and the pivot tolerate each other. -/
theorem mutual_of_mem_candidates (ht : t ∈ f.candidates pivot a pool) :
    f.rules.Mutual f.now pivot t := by
  obtain ⟨c, hfits⟩ := fits_of_mem_candidates ht
  exact Search.mutual_of_isNear (s := f.search pivot a) rfl rfl hfits.near

end Formation

/-- The tickets of a session agree: its founder and any other one of them tolerate each
    other, all play its mode and reach its region, and all have the same custom
    attributes, unless these only have to agree later. -/
structure Session.Agrees [Scalar α] (s : Session α) (r : RuleSet α) (now : Instant)
    (founder : Ticket α) (ts : List (Ticket α)) : Prop where
  near : ∀ t ∈ ts, t ≠ founder → r.Mutual now founder t
  region : ∀ region, s.region = some region → ∀ t ∈ ts, r.Reaches now region t
  mode : ∀ t ∈ ts, r.Plays t s.mode
  attributes : r.deferAttributes = false → ∀ key, r.IsCustom key →
    ∀ t ∈ ts, ∀ u ∈ ts, t.attributes.names key = u.attributes.names key

namespace Formation

variable [Scalar α] {f : Formation α} {ts : List (Ticket α)} {s : Session α}

/-- A ticket of a session meets its pivot, and if it is another one the two tolerate each
    other. -/
theorem Teams.meets {pivot : Ticket α} {rest : List (Ticket α)} {a : Attempt} {m : Assembly}
    {teams : List (List (Ticket α))} (hteams : f.Teams pivot a (pivot :: rest) m teams)
    (ha : a ∈ f.attempts pivot) (hid : (ts.map (·.id)).Nodup)
    (hsub : (pivot :: rest).Sublist (f.queue ts)) (hseats : s.Seats teams) {t : Ticket α}
    (ht : t ∈ ts) (hts : t.id ∈ s.ticketIds) :
    f.Meets pivot a t ∧ (t.unflexed = pivot.unflexed ∨ f.rules.Mutual f.now pivot t) := by
  obtain ⟨u, hu, hut⟩ := exists_seated hid hseats
    (fun v hv => hsub.subset (hteams.subperm.subset hv)) ht hts
  -- It was seated as the pivot or as a candidate.
  rcases List.mem_cons.1 (hteams.known.subset hu) with rfl | hu
  · exact ⟨(meets_pivot ha).congr hut, .inl hut.symm⟩
  · exact ⟨(meets_of_mem_candidates ha hu).congr hut,
      .inr ((mutual_of_mem_candidates hu).congr rfl hut)⟩

/-- The tickets of a session that was formed in a round agree. -/
theorem run_agrees (f : Formation α) (budget : Budget) (hf : f.isSinglePlayer = false)
    (hid : (ts.map (·.id)).Nodup) (hs : s ∈ (f.run budget ts).sessions) :
    ∃ t, s.founder? ts = some t ∧
      s.Agrees f.rules f.now t (ts.filter fun u => s.ticketIds.contains u.id) := by
  cases forms_of_mem_run hid hs with
  | solo h => exact absurd h (by simp [hf])
  | @round pivot rest a m hsub ha hm =>
    obtain ⟨teams, hteams⟩ := assembly?_teams hm
    have hseats := f.session_seats pivot a ((queue_nodup hid).sublist (hsub.map _))
      hteams.tickets hteams.subperm.subset
    obtain ⟨founder, hfounder, hpivot⟩ :=
      founder?_eq_some hid hsub hseats hteams.subperm.subset hteams.pivot_mem
    have hmeets : ∀ t ∈ ts.filter fun u =>
        (f.session pivot a (pivot :: rest) m).ticketIds.contains u.id, f.Meets pivot a t ∧
          (t.unflexed = pivot.unflexed ∨ f.rules.Mutual f.now pivot t) := by
      intro t ht
      obtain ⟨ht, hts⟩ := List.mem_filter.1 ht
      exact hteams.meets ha hid hsub hseats ht (List.contains_iff_mem.1 hts)
    refine ⟨founder, hfounder, ⟨fun t ht hne => ?_, fun region hregion t ht => ?_, fun t ht => ?_,
      fun hdefer key hkey t ht u hu => ?_⟩⟩
    · rcases (hmeets t ht).2 with hsame | hmutual
      · -- The ticket of the pivot is the founder.
        have hmem : founder ∈ ts :=
          (Ticket.sortQueue_perm ts).mem_iff.1 (List.mem_of_find?_eq_some hfounder)
        exact absurd (Ticket.eq_of_id_eq hid (List.mem_filter.1 ht).1 hmem
          (Ticket.id_congr (hsame.trans hpivot.symm))) hne
      · exact hmutual.congr hpivot.symm rfl
    · exact (hmeets t ht).1.region region hregion
    · exact (hmeets t ht).1.mode
    · rw [← (hmeets t ht).1.attributes hdefer key hkey, (hmeets u hu).1.attributes hdefer key hkey]

/-! ### A ladder -/

/-- Ranked matches of one against one, of players of a like level, in a region that both
    reach. -/
def ladder : Formation Rat where
  rules := { RuleSet.ofAlliance (.ofBounds ⟨2, 2, 1, 1⟩) with
    distances := [⟨"level", 5, none, none⟩]
    region := ⟨0, 0, 50, 200⟩
    modes := .ofList [("ranked", ⟨.ofBounds ⟨2, 2, 1, 1⟩, []⟩)] }
  channel := "ladder"
  now := .ofNanos 0
  cap := 1

/-- The ticket of a player of a level, who measured one region. -/
def climber (id : String) (level : Rat) (latency : Latency) : Ticket Rat where
  id := id
  channel := "ladder"
  partyId := id
  members := [.ofId id]
  attributes := .ofList
    [("level", .number level), ("language", .text "en"), (Key.mode, .text "ranked")]
  priority := 0
  createdAt := .ofNanos 0
  latencies := .ofList [("eu", latency)]
  excluded := []

/-- Three players, the second of whom is too good for the others. -/
def climbers : List (Ticket Rat) := [climber "a" 10 30, climber "b" 30 40, climber "c" 13 60]

theorem ladder_agrees : ladder.isSinglePlayer = false ∧ (climbers.map (·.id)).Nodup ∧
    ∃ s ∈ (ladder.run .unlimited climbers).sessions,
      s.ticketIds = ["a", "c"] ∧ s.region = some "eu" ∧ s.mode = some "ranked" ∧
      ∃ t, s.founder? climbers = some t ∧
        s.Agrees ladder.rules ladder.now t (climbers.filter fun u => s.ticketIds.contains u.id) := by
  have hf : ladder.isSinglePlayer = false := by decide
  have hid : (climbers.map (·.id)).Nodup := by decide
  obtain ⟨s, hs, hids, hregion, hmode⟩ : ∃ s ∈ (ladder.run .unlimited climbers).sessions,
      s.ticketIds = ["a", "c"] ∧ s.region = some "eu" ∧ s.mode = some "ranked" := by
    rw [run_unlimited_sessions hf (by decide +kernel) (by decide +kernel)]
    decide +kernel
  exact ⟨hf, hid, s, hs, hids, hregion, hmode, run_agrees ladder .unlimited hf hid hs⟩

end Formation

end Matchmaking
