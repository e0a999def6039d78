import Matchmaking.Proofs.Backfill.Blocks
import Matchmaking.Proofs.Formation.Agreement

/-!
# Who may join an open session

A ticket that joins an open session was found for the session as it was handed in, before
anyone joined it. So whatever the search holds against a ticket is not so of those that
join (`Search.eligible`), in whatever order they find a place and whatever becomes of the
session meanwhile (`Backfill.run_eligible`).

What the tickets found before it have to do with a ticket is no part of this. But they only
add to what a search has collected, so a ticket that is found has nothing in common with
the session itself (`Search.run_overlaps`).
-/

namespace Matchmaking

variable {α : Type} [Scalar α]

namespace Backfill

/-- A ticket lies in the tolerance of a session by a rule, and the session in that which is in
    force for the ticket. -/
def IsNear (b : Backfill α) (s : Session α) (t : Ticket α) (d : DistanceRule α) : Prop :=
  Scalar.within (s.average d.key) (t.average d.key) d.tolerance = true ∧
  ∃ own, b.rules.tolerance? t.createdAt b.now d.key = some own ∧
    Scalar.within (t.average d.key) (s.average d.key) own = true

/-- A ticket may join an open session. -/
structure Eligible (b : Backfill α) (s : Session α) (t : Ticket α) : Prop where
  /-- It does not stay out of this session. -/
  excluded : s.id ∉ t.excluded
  /-- It does not stay out of sessions that have begun. -/
  begun : t.newSessionOnly = false
  /-- It is none of the tickets of the session, and of none of its parties. -/
  fresh : ∀ p ∈ s.parties, p.isExternal = false → p.ticketId ≠ some t.id ∧ p.id ≠ t.partyId
  /-- It plays the mode of the session. -/
  mode : b.rules.Plays t s.mode
  /-- The rules know the mode. -/
  known : ∀ m, s.mode = some m → b.rules.modes.contains m = true
  /-- It has what the session asks for. -/
  criteria : ∀ key value, s.criteria.get? key = some value → t.attributes.names key = value.names
  /-- It reaches the region of the session, if regions matter. -/
  region : ∀ region, s.region = some region → b.rules.region.isUsed = true →
    b.rules.Reaches b.now region t
  /-- It and the session are near each other by all rules as they are in force for the
      session. -/
  near : ∀ d ∈ b.rules.distancesAt s.createdAt b.now, b.IsNear s t d

variable {b : Backfill α} {s : Session α} {c : Collection} {t : Ticket α} {pool : List (Ticket α)}

/-- A ticket that has nothing in common with a session is none of its tickets, and of none
    of its parties. -/
theorem fresh_of_overlaps (h : (b.search s).start.overlaps t = false) :
    ∀ p ∈ s.parties, p.isExternal = false → p.ticketId ≠ some t.id ∧ p.id ≠ t.partyId := by
  intro p hp hknown
  simp only [Collection.overlaps, Bool.or_eq_false_iff] at h
  obtain ⟨⟨htickets, hparties⟩, -⟩ := h
  refine ⟨fun hticket => ?_, fun hparty => ?_⟩
  · have hmem : t.id ∈ (b.search s).start.tickets :=
      NameSet.mem_ofList.2 (List.mem_filterMap.2 ⟨p, hp, hticket⟩)
    exact Bool.false_ne_true (htickets.symm.trans (NameSet.contains_iff.2 hmem))
  · have hmem : t.partyId ∈ (b.search s).start.parties :=
      NameSet.mem_ofList.2 (List.mem_map.2 ⟨p, List.mem_filter.2 ⟨hp, by simp [hknown]⟩, hparty⟩)
    exact Bool.false_ne_true (hparties.symm.trans (NameSet.contains_iff.2 hmem))

theorem isNear_of_fits (h : (b.search s).Fits c t) {d : DistanceRule α}
    (hd : d ∈ b.rules.distancesAt s.createdAt b.now) : b.IsNear s t d := by
  have hnear : (b.search s).isNear t d = true := h.near d hd
  obtain ⟨hours, htheirs⟩ := Bool.and_eq_true_iff.1 hnear
  refine ⟨hours, ?_⟩
  -- The attribute is one of the rules, so that the ticket has a tolerance of its own.
  obtain ⟨d₀, hd₀, hkey⟩ := RuleSet.exists_of_mem_distancesAt hd
  obtain ⟨_, _, _, hown⟩ := RuleSet.exists_distanceAt t.createdAt b.now hd₀
  rw [hkey] at hown
  have htolerance : (b.search s).toleranceOf d t = _ := congrArg (·.getD d.tolerance) hown
  rw [htolerance] at htheirs
  exact ⟨_, hown, htheirs⟩

/-- A ticket that is found for an open session may join it. -/
theorem eligible_of_fits (h : (b.search s).Fits c t)
    (hfresh : (b.search s).start.overlaps t = false) : b.Eligible s t := by
  have hsession := h.session
  simp only [Search.sessionRefusal?, search] at hsession
  split_ifs at hsession with hexcluded hbegun
  have hmode := Search.acceptsMode_iff.1 h.mode
  simp only [search] at hmode
  refine ⟨by simpa using hexcluded, by simpa using hbegun, fresh_of_overlaps hfresh, ?_, ?_, ?_,
    ?_, fun d hd => isNear_of_fits h hd⟩
  · cases hs : s.mode with
    | some m =>
      rw [hs] at hmode
      exact hmode.1
    | none =>
      rw [hs] at hmode
      exact hmode
  · intro m hs
    rw [hs] at hmode
    exact hmode.2
  · intro key value hvalue
    have hcriteria := h.criteria
    simp only [Search.criteriaRefusal?, Option.map_eq_none_iff, List.find?_eq_none] at hcriteria
    simpa using hcriteria (key, value) (Dict.get?_eq_some_iff.1 hvalue)
  · intro region hregion hused
    have hfit : (b.rules.regionFit? t b.now s.region).isSome = true := h.region
    rw [hregion] at hfit
    exact RuleSet.reaches_of_regionFit? hused hfit

/-- Every ticket that joins a session in its turn may join it. -/
theorem Attended.eligible {f : Filling α} (h : b.Attended pool f) (hpool : Ticket.Distinct pool)
    (ht : t ∈ f.joined) : b.Eligible f.before.session t := by
  obtain ⟨queue, left, hqueue, hattends⟩ := h
  have hfound := (hattends.serves.subperm_found (hpool.subperm hqueue)).subset ht
  obtain ⟨c, hfits⟩ := (b.search f.before.session).run_fits queue t hfound
  exact eligible_of_fits hfits ((b.search f.before.session).run_overlaps queue t hfound)

/-- Every ticket that joins an open session in a run may join the session as it was handed
    in, whenever time is spent, if the tickets have ids of their own. -/
theorem run_eligible (b : Backfill α) (budget : Budget) (os : List (OpenSession α))
    (hpool : Ticket.Distinct pool) :
    ∃ fs, b.Accounts (b.run budget os pool) (sortBy OpenSession.rank os) pool fs ∧
      ∀ f ∈ fs, ∀ t ∈ f.joined, b.Eligible f.before.session t := by
  obtain ⟨fs, haccounts, hattended⟩ := b.run_accounts budget os pool
  refine ⟨fs, haccounts, fun f hf t ht => ?_⟩
  rcases hattended f hf with h | ⟨_, o, rfl⟩
  · exact h.eligible hpool ht
  · cases ht

/-! ### A ladder match that is open -/

/-- Open matches of the ladder are filled a minute after it began, when more is tolerated
    for whoever has waited since. -/
def ladderFilling : Backfill Rat where
  rules := { Formation.ladder.rules with flexing := [⟨30, "level", 50⟩] }
  now := .ofNanos (60 * Instant.second)

/-- A player of the ladder has waited for an opponent who speaks the same language. -/
def openLadder : OpenSession Rat where
  ticketId := "open"
  session := { Formation.ladder.soloSession (Formation.climber "a" 10 30) with
    id := "m"
    mode := some "ranked"
    region := some "eu"
    criteria := .ofList [("language", .text "en")]
    status := .forming
    joinable := true }

/-- Players who have just come, the first of whom is too good to tolerate the match. -/
def newClimbers : List (Ticket Rat) :=
  [Formation.climber "b" 30 40, Formation.climber "c" 13 60].map fun t =>
    { t with createdAt := ladderFilling.now }

theorem ladder_eligible : Ticket.Distinct newClimbers ∧
    (ladderFilling.run .unlimited [openLadder] newClimbers).proposals.map (·.added) = [["c"]] ∧
    ∃ fs, ladderFilling.Accounts (ladderFilling.run .unlimited [openLadder] newClimbers)
        (sortBy OpenSession.rank [openLadder]) newClimbers fs ∧
      ∀ f ∈ fs, ∀ t ∈ f.joined, ladderFilling.Eligible f.before.session t :=
  ⟨by decide, by decide +kernel, ladderFilling.run_eligible .unlimited [openLadder] (by decide)⟩

end Backfill

end Matchmaking
