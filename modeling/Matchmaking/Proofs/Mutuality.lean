import Matchmaking.Proofs.Independence
import Matchmaking.Proofs.Tolerances

/-!
# Who finds whom

A search does not treat its pivot and the tickets that it is offered alike. The pivot is
held to the rules in force for it, and a ticket to the tolerances that are looked up for
it; what the pivot offers is what a collection starts from, and what a ticket offers is
compared with that. Still it is no matter which of two tickets is the pivot: before
anything is collected a ticket fits another one exactly if the two suit each other
(`RuleSet.fits_iff_suits`), and that is mutual (`RuleSet.Suits.symm`). So each is found
by a search around the other one or neither is, and it costs the same
(`RuleSet.receive_swap`).

This takes rules that name no attribute twice, as the tolerances of a pivot and of a
ticket may differ otherwise. And it takes rules without options of which a ticket must
offer all or some that the pivot offers, for the pivot need not offer what the ticket
does.
-/

namespace Matchmaking

variable {α : Type} [Scalar α]

namespace RuleSet

/-- Two tickets suit each other in a new session. -/
structure Suits (r : RuleSet α) (now : Instant) (t u : Ticket α) : Prop where
  independent : r.Independent t u
  party : t.partyId ≠ u.partyId
  near : r.Mutual now t u
  attributes : r.deferAttributes = false → ∀ key, r.IsCustom key →
    t.attributes.names key = u.attributes.names key

theorem Mutual.symm {r : RuleSet α} {now : Instant} {t u : Ticket α} (h : r.Mutual now t u) :
    r.Mutual now u t :=
  fun d hd => (h d hd).symm

theorem Suits.symm {r : RuleSet α} {now : Instant} {t u : Ticket α} (h : r.Suits now t u) :
    r.Suits now u t where
  independent := h.independent.symm
  party := h.party.symm
  near := h.near.symm
  attributes := fun hdefer key hkey => (h.attributes hdefer key hkey).symm

/-- Nothing that the pivot offers is asked of a ticket, but for platforms. -/
def AsksNoOffer (r : RuleSet α) : Prop :=
  ∀ o ∈ r.options, o.kind = .all ∨ o.kind = .any → o.name = Key.crossPlatform

omit [Scalar α] in
/-- Whether no offer is asked of tickets can be computed. -/
instance (r : RuleSet α) : Decidable r.AsksNoOffer :=
  inferInstanceAs (Decidable (∀ o ∈ r.options, _ → _))

/-- The search around a ticket in no region. -/
def around (r : RuleSet α) (mode : Option String) (now : Instant) (t : Ticket α) : Search α :=
  r.searchAt (.ticket t) none mode now

/-- What the search around a ticket answers to another one before anything is
    collected. -/
def receive (r : RuleSet α) (mode : Option String) (now : Instant) (t u : Ticket α) :
    Except Refusal (Found α) :=
  (r.around mode now t).evaluate (r.around mode now t).start u

variable {r : RuleSet α} {mode : Option String} {now : Instant} {t u : Ticket α}

/-! ## Both sides of a check -/

/-- Nobody is found twice. -/
theorem overlaps_iff : (r.around mode now t).start.overlaps u = false ↔
    t.id ≠ u.id ∧ t.partyId ≠ u.partyId ∧ t.Apart u := by
  rw [Collection.overlaps_eq_false_iff]
  simp only [Search.start, around, searchAt, Pivot.ticketIds, Pivot.partyIds, Pivot.userIds,
    NameSet.mem_ofList, List.mem_singleton]
  exact and_congr ne_comm (and_congr ne_comm ⟨Ticket.Apart.symm, Ticket.Apart.symm⟩)

/-- A ticket that plays the mode is accepted if the rules know it. -/
theorem acceptsMode_iff (hu : r.Plays u mode) : (r.around mode now t).acceptsMode u = true ↔
    ∀ m, mode = some m → r.modes.contains m = true := by
  rw [Search.acceptsMode_iff]
  cases mode with
  | none => exact iff_of_true hu fun m hm => nomatch hm
  | some m => exact ⟨fun h m' hm => Option.some_inj.1 hm ▸ h.2, fun h => ⟨hu, h m rfl⟩⟩

/-- A ticket is near a pivot if the two tolerate each other, where the pivot is held to
    the tolerances that are looked up. -/
theorem isNear_iff (huniform : r.UniformAt t.createdAt now) :
    (∀ d ∈ (r.around mode now t).active.distances, (r.around mode now t).isNear u d = true) ↔
      r.Mutual now t u := by
  refine ⟨Search.mutual_of_isNear (s := r.around mode now t) rfl rfl, fun h d hd => ?_⟩
  obtain ⟨e, he, hkey⟩ := exists_of_mem_distancesAt hd
  obtain ⟨⟨ours, hours, hwithin⟩, ⟨theirs, htheirs, hwithin'⟩⟩ := h e he
  rw [hkey] at hours hwithin htheirs hwithin'
  obtain rfl : d.tolerance = ours :=
    Option.some_inj.1 ((huniform.tolerance?_eq hd).symm.trans hours)
  have htolerance : (r.around mode now t).toleranceOf d u = theirs := by
    show (r.tolerance? u.createdAt now d.key).getD d.tolerance = theirs
    rw [htheirs, Option.getD_some]
  rw [Search.isNear, htolerance, Bool.and_eq_true]
  exact ⟨hwithin, hwithin'⟩

/-- Each plays with the platforms of the other one, if platforms matter. -/
theorem acceptsPlatforms_iff :
    (r.around mode now t).acceptsPlatforms (r.around mode now t).start u = true ↔
      (r.optionKind? Key.crossPlatform = some .any →
        Offer.Compatible t.optionNames u.optionNames) := by
  have hmatter : (r.around mode now t).platformsMatter = true ↔
      r.optionKind? Key.crossPlatform = some .any := decide_eq_true_iff
  rw [Search.acceptsPlatforms_iff, ← hmatter]
  refine forall_congr' fun h => ?_
  have hstart : (r.around mode now t).start.platforms = .of t.optionNames := if_pos h
  rw [hstart, Offer.Compatible]

/-- Neither offers what the other one has taken, and nothing else is asked of it. -/
theorem agrees_iff (hoptions : r.AsksNoOffer) :
    (∀ o ∈ (r.around mode now t).options,
        Search.agrees (r.around mode now t).start u o = true) ↔
      ∀ o ∈ r.options, o.name ≠ Key.crossPlatform → o.kind = .unique →
        Offer.Disjoint o.name t.optionNames u.optionNames := by
  have hclaimed {o : MatchOption} (ho : o ∈ (r.around mode now t).options)
      (hkind : o.kind = .unique) :
      (r.around mode now t).start.claimed.getD o.name ∅ = t.optionNames o.name :=
    Search.getD_offered ho hkind
  constructor
  · intro h o ho hname hkind
    have hmem : o ∈ (r.around mode now t).options :=
      List.mem_filter.2 ⟨ho, by simpa using hname⟩
    have hagrees := Search.agrees_iff.1 (h o hmem)
    rwa [hkind, hclaimed hmem hkind] at hagrees
  · intro h o ho
    obtain ⟨hmem, hname⟩ := Search.name_ne_of_mem_options ho
    rw [Search.agrees_iff]
    -- Only platforms may be an option of the first two kinds, and are none here.
    cases hkind : o.kind with
    | all => exact absurd (hoptions o hmem (.inl hkind)) hname
    | any => exact absurd (hoptions o hmem (.inr hkind)) hname
    | unique =>
      rw [hclaimed ho hkind]
      exact h o hmem hname hkind
    | disable => trivial

omit [Scalar α] in
theorem isCustom_iff {key : String} :
    (r.around mode now t).isCustom key = true ↔ r.IsCustom key := by
  have hmeasured : ((r.around mode now t).active.distance? key).isSome =
      (r.distance? key).isSome :=
    isSome_distance?_flexedAt r t.createdAt now key
  have hcriteria : (r.around mode now t).pivot.criteria.contains key = false := rfl
  have hoption : (r.around mode now t).active.isOption key = r.isOption key := rfl
  rw [Search.isCustom, hmeasured, hcriteria, hoption]
  simp [IsCustom, and_assoc]

/-- The two have the same custom attributes, unless these only have to agree later. -/
theorem attributeRefusal?_iff : (r.around mode now t).attributeRefusal? u = none ↔
    (r.deferAttributes = false → ∀ key, r.IsCustom key →
      t.attributes.names key = u.attributes.names key) := by
  have hdefer : ((r.around mode now t).active.deferAttributes &&
      !(r.around mode now t).pivot.isSession) = r.deferAttributes := Bool.and_true _
  rw [Search.attributeRefusal?_eq_none_iff, hdefer]
  simp only [isCustom_iff]
  rfl

/-- Neither blocks a player of the other one, if that matters. -/
theorem acceptsUsers_iff :
    (r.around mode now t).acceptsUsers (r.around mode now t).start u = true ↔
      (r.blockPolicy = .cannotMatch →
        (∀ x ∈ t.blocked, x ∉ u.userIds) ∧ ∀ x ∈ u.blocked, x ∉ t.userIds) := by
  rw [Search.acceptsUsers_iff, and_comm]
  rfl

/-! ## Either one as the pivot -/

/-- Before anything is collected a ticket fits another one exactly if the rules know the
    mode that it plays and the two suit each other. -/
theorem fits_iff_suits (huniform : r.UniformAt t.createdAt now) (hoptions : r.AsksNoOffer)
    (hu : r.Plays u mode) :
    (r.around mode now t).Fits (r.around mode now t).start u ↔
      (∀ m, mode = some m → r.modes.contains m = true) ∧ r.Suits now t u := by
  constructor
  · intro h
    obtain ⟨hid, hparty, hapart⟩ := overlaps_iff.1 h.fresh
    refine ⟨(acceptsMode_iff hu).1 h.mode, ?_, hparty, (isNear_iff huniform).1 h.near,
      attributeRefusal?_iff.1 h.attributes⟩
    exact
      { id := hid
        apart := hapart
        platforms := acceptsPlatforms_iff.1 h.platforms
        unique := (agrees_iff hoptions).1 h.options
        any := fun _ o ho hname hkind => absurd (hoptions o ho (.inr hkind)) hname
        blocked := acceptsUsers_iff.1 h.users }
  · rintro ⟨hmode, h⟩
    exact
      { fresh := overlaps_iff.2 ⟨h.independent.id, h.party, h.independent.apart⟩
        session := rfl
        mode := (acceptsMode_iff hu).2 hmode
        near := (isNear_iff huniform).2 h.near
        platforms := acceptsPlatforms_iff.2 h.independent.platforms
        options := (agrees_iff hoptions).2 h.independent.unique
        attributes := attributeRefusal?_iff.2 h.attributes
        users := acceptsUsers_iff.2 h.independent.blocked
        region := rfl
        criteria := rfl }

/-- In no region a ticket costs what its distance does. -/
theorem receive_eq_ok_iff {found : Found α} : r.receive mode now t u = .ok found ↔
    (r.around mode now t).Fits (r.around mode now t).start u ∧
      found = ⟨u, (r.around mode now t).distanceScore u + Scalar.ofNat 0, none⟩ := by
  rw [receive, Search.evaluate_eq_ok_iff, eq_comm (a := found)]
  exact and_congr_right fun _ => Option.some_inj

theorem exists_receive_iff : (∃ found, r.receive mode now t u = .ok found) ↔
    (r.around mode now t).Fits (r.around mode now t).start u := by
  simp only [receive_eq_ok_iff, exists_and_left, exists_eq, and_true]

/-- The distance of two tickets costs the same from either side. -/
theorem distanceScore_swap (r : RuleSet Rat) (mode : Option String) (now : Instant)
    (t u : Ticket Rat) :
    (r.around mode now t).distanceScore u = (r.around mode now u).distanceScore t := by
  have hdistance (a b : Rat) : Scalar.distance a b = Scalar.distance b a := Rat.abs_sub_comm
  rw [around, around, distanceScore_searchAt, distanceScore_searchAt]
  simp only [Pivot.average, hdistance (t.average _)]

/-- It is no matter which of two tickets a search is around: under rules that measure no
    attribute twice and ask no offer of a ticket, each one is found by the search around
    the other one or neither is, and it costs the same. -/
theorem receive_swap {r : RuleSet Rat} (hkeys : r.keys.Nodup) (hoptions : r.AsksNoOffer)
    {t u : Ticket Rat} {mode : Option String} (ht : r.Plays t mode) (hu : r.Plays u mode)
    (now : Instant) :
    ((∃ found, r.receive mode now t u = .ok found) ↔
        ∃ found, r.receive mode now u t = .ok found) ∧
      ∀ found found', r.receive mode now t u = .ok found →
        r.receive mode now u t = .ok found' → found.score = found'.score := by
  constructor
  · rw [exists_receive_iff, exists_receive_iff,
      fits_iff_suits (uniformAt_of_nodup hkeys) hoptions hu,
      fits_iff_suits (uniformAt_of_nodup hkeys) hoptions ht]
    exact and_congr_right fun _ => ⟨Suits.symm, Suits.symm⟩
  · intro found found' h h'
    obtain ⟨_, rfl⟩ := receive_eq_ok_iff.1 h
    obtain ⟨_, rfl⟩ := receive_eq_ok_iff.1 h'
    rw [distanceScore_swap]

/-! ### Two challengers -/

/-- Ranked matches of one against one, of players of a like level and other heroes, on
    platforms that play with each other. -/
def arena : RuleSet Rat :=
  { (ofAlliance (.ofBounds ⟨2, 2, 1, 1⟩) : RuleSet Rat) with
    distances := [⟨"level", 5, some 2, none⟩, ⟨"wins", 1, none, none⟩]
    flexing := [⟨10, "level", 20⟩, ⟨30, "level", 50⟩]
    options := [⟨Key.crossPlatform, .any⟩, ⟨"hero", .unique⟩]
    modes := .ofList [("ranked", ⟨.ofBounds ⟨2, 2, 1, 1⟩, []⟩)] }

/-- The ticket of a player who comes at a second. -/
def challenger (id : String) (seconds : Nat) (level : Rat) (hero platform : String) :
    Ticket Rat where
  id := id
  channel := "arena"
  partyId := id
  members := [.ofId id]
  attributes := .ofList
    [("level", .number level), ("hero", .text hero), ("language", .text "en"),
      (Key.mode, .text "ranked"), (Key.currentPlatform, .text platform),
      (Key.crossPlatform, .list ["pc", "console"])]
  priority := 0
  createdAt := .ofNanos (seconds * Instant.second)
  latencies := ∅
  excluded := []

/-- The first of two challengers has waited for long and the second one has not, and more
    is tolerated for the first. Each one is found for the other. -/
theorem challengers_meet :
    arena.keys.Nodup ∧ arena.AsksNoOffer ∧
      arena.Plays (challenger "a" 0 10 "mage" "pc") (some "ranked") ∧
      arena.Plays (challenger "b" 25 23 "rogue" "console") (some "ranked") ∧
      arena.receive (some "ranked") (.ofNanos (40 * Instant.second))
          (challenger "a" 0 10 "mage" "pc") (challenger "b" 25 23 "rogue" "console") =
        .ok ⟨challenger "b" 25 23 "rogue" "console", 26, none⟩ ∧
      ∃ found, arena.receive (some "ranked") (.ofNanos (40 * Instant.second))
          (challenger "b" 25 23 "rogue" "console") (challenger "a" 0 10 "mage" "pc") = .ok found ∧
        found.score = 26 := by
  have hkeys : arena.keys.Nodup := by decide
  have hoptions : arena.AsksNoOffer := by decide
  have ha : arena.Plays (challenger "a" 0 10 "mage" "pc") (some "ranked") := by
    show "ranked" ∈ (challenger "a" 0 10 "mage" "pc").modes
    decide +kernel
  have hb : arena.Plays (challenger "b" 25 23 "rogue" "console") (some "ranked") := by
    show "ranked" ∈ (challenger "b" 25 23 "rogue" "console").modes
    decide +kernel
  have hmeet : arena.receive (some "ranked") (.ofNanos (40 * Instant.second))
      (challenger "a" 0 10 "mage" "pc") (challenger "b" 25 23 "rogue" "console") =
        .ok ⟨challenger "b" 25 23 "rogue" "console", 26, none⟩ := by
    decide +kernel
  obtain ⟨hmutual, hscore⟩ :=
    receive_swap hkeys hoptions ha hb (.ofNanos (40 * Instant.second))
  obtain ⟨found, hfound⟩ := hmutual.1 ⟨_, hmeet⟩
  exact ⟨hkeys, hoptions, ha, hb, hmeet, found, hfound, (hscore _ _ hmeet hfound).symm⟩

end RuleSet

end Matchmaking
