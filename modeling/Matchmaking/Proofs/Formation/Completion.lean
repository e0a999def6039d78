import Matchmaking.Proofs.Flexing
import Matchmaking.Proofs.Formation.Round

/-!
# Runs that come to their end

A run breaks off if it computes with bounds that are too large. It may be that nobody
is served under such bounds, and then it comes to its end after all; whoever needs to be
sure of it asks for rules whose numbers all fit (`Formation.Fits`,
`Formation.run_failure`).

Of the numbers of roles this asks more than the arithmetic without a check needs: with
the check the sums and differences of `RoleTally` and `RoleFlexing` break a run off too.
-/

namespace Matchmaking

variable {α : Type}

namespace Formed

theorem handedOut_eq {r : Formed α} (h : r.failure = none) : r.handedOut = r.sessions := by
  rw [handedOut, h]

/-- A run hands out what it formed, or nothing. -/
theorem handedOut_sublist (r : Formed α) : r.handedOut.Sublist r.sessions := by
  rw [handedOut]
  split
  · exact .refl _
  · exact List.nil_sublist _

end Formed

/-- The members of a team that its roles take are a word together, and so are those that any
    of them must have, as a signed word. -/
structure RoleCombination.Fits (c : RoleCombination) : Prop where
  greatest : ∀ roles ∈ c.teams, total Role.max roles < Word.size
  least : ∀ roles ∈ c.teams, ∀ r ∈ roles, r.min < Word.half

/-- The interval between two rations, the rations of all that has been waited, and the players
    that a role needs in all teams fit. -/
structure RoleFlexing.Fits (f : RoleFlexing) (now : Instant) (ts : List (Ticket α)) : Prop where
  interval : f.combination.flexSeconds < Word.half
  rations : ∀ t ∈ ts, f.combination.flexPlayers * (t.ageSeconds now).toNat < Word.size
  required : ∀ role, f.required role < Word.half

namespace Formation

variable [Scalar α] {f : Formation α}

/-- All numbers fit that a run over some tickets computes with. -/
structure Fits (f : Formation α) (ts : List (Ticket α)) : Prop where
  bounds : ∀ b ∈ f.rules.allBounds, b.Fits
  roles : ∀ mode ∈ f.rules.modeNames, ∀ c ∈ (f.rules.allianceFor mode).combination, c.Fits
  rations : ∀ r ∈ f.rules.roleFlexings, r.1.Fits f.now ts

/-- Where there are no roles, only bounds have to fit. -/
theorem Fits.of_bounds {ts : List (Ticket α)} (hbounds : ∀ b ∈ f.rules.allBounds, b.Fits)
    (hroles : ∀ mode ∈ f.rules.modeNames, (f.rules.allianceFor mode).combination = none)
    (hrations : f.rules.roleFlexings = []) : f.Fits ts where
  bounds := hbounds
  roles := fun mode hmode c hc => by
    rw [hroles mode hmode] at hc
    cases hc
  rations := fun r hr => by
    rw [hrations] at hr
    cases hr

omit [Scalar α] in
/-- A search breaks off at bounds that do not fit. -/
theorem exists_bounds_of_searchFailure? {pivot : Ticket α} {mode : Option String} {e : Failure}
    (h : (f.allianceAt pivot mode).bounds.searchFailure? = some e) :
    ∃ b ∈ f.rules.allBounds, ¬b.Fits := by
  refine ⟨_, f.rules.allianceAt_bounds_mem pivot.createdAt f.now mode, fun hfits => ?_⟩
  rw [allianceAt, hfits.searchFailure?_eq_none] at h
  cases h

theorem exists_bounds_of_sessionFor {pivot : Ticket α} {pool : List (Ticket α)} {e : Failure}
    (h : f.sessionFor pivot pool = .error e) : ∃ b ∈ f.rules.allBounds, ¬b.Fits := by
  rw [sessionFor] at h
  rcases f.searchIn_cases pivot pool (f.attempts pivot) with ⟨s, hs, -⟩ | ⟨hnone, -⟩ |
    ⟨_, -, _, -, hshape⟩
  · cases hs.symm.trans h
  · cases hnone.symm.trans h
  · exact exists_bounds_of_searchFailure? hshape

/-- A round breaks off at bounds that do not fit. -/
theorem BreaksOff.exists_bounds {pivot : Ticket α} {pool : List (Ticket α)} {e : Failure}
    (h : f.BreaksOff pivot pool e) : ∃ b ∈ f.rules.allBounds, ¬b.Fits := by
  cases h with
  | uncounted hcounts =>
    obtain ⟨b, hb, hleast⟩ := List.all_eq_false.1 hcounts
    exact ⟨b, hb, fun hfits => hleast (decide_eq_true hfits.least)⟩
  | unsearched _ _ he => exact exists_bounds_of_sessionFor he

/-- Rounds break off in a round. -/
theorem rounds_breaksOff {time : Budget} {queue : List (Ticket α)} {e : Failure}
    (hid : (queue.map (·.id)).Nodup) (h : (f.rounds time queue).failure = some e) :
    ∃ pivot pool, f.BreaksOff pivot pool e := by
  suffices ∀ e, (f.rounds time queue).failure = some e → ∃ pivot pool, f.BreaksOff pivot pool e from
    this e h
  refine rounds_induction (f := f) time (motive := fun _ r => ∀ e, r.failure = some e →
    ∃ pivot pool, f.BreaksOff pivot pool e) ?_ ?_ ?_ ?_ ?_ hid
  · exact fun _ _ _ => nofun
  · exact fun _ _ _ => nofun
  · rintro e pivot rest hbreaks _ ⟨⟩
    exact ⟨pivot, _, hbreaks⟩
  · exact fun _ _ _ _ _ _ ih => ih
  · exact fun _ _ _ _ _ _ _ ih => ih

theorem rounds_failure (hfits : ∀ b ∈ f.rules.allBounds, b.Fits) (time : Budget)
    {queue : List (Ticket α)} (hid : (queue.map (·.id)).Nodup) :
    (f.rounds time queue).failure = none := by
  by_contra hfailure
  obtain ⟨e, he⟩ := Option.ne_none_iff_exists'.1 hfailure
  obtain ⟨pivot, pool, hbreaks⟩ := rounds_breaksOff hid he
  obtain ⟨b, hb, hnot⟩ := hbreaks.exists_bounds
  exact hnot (hfits b hb)

/-- Rounds of too few players do not break off, if the least number of players is known. -/
theorem rounds_failure_of_few {queue : List (Ticket α)} (hcounts : f.rules.countsLeast = true)
    (hfew : Ticket.totalPlayers queue < f.rules.minPlayers) :
    (f.rounds .unlimited queue).failure = none := by
  cases queue with
  | nil => rw [rounds]; rfl
  | cons pivot rest =>
    rw [rounds]
    simp only [Budget.read?, hcounts, if_pos hfew]
    rfl

theorem solos_failure (f : Formation α) (queue : List (Ticket α)) :
    (f.solos queue).failure = none := by
  induction queue with
  | nil => rfl
  | cons t queue ih =>
    rw [solos]
    split_ifs
    · exact ih
    · exact ih

/-- A run breaks off in a round. -/
theorem run_breaksOff {budget : Budget} {ts : List (Ticket α)} {e : Failure}
    (hid : (ts.map (·.id)).Nodup) (h : (f.run budget ts).failure = some e) :
    ∃ pivot pool, f.BreaksOff pivot pool e := by
  replace h : (f.form budget (f.rules.flexRoles f.now ts)).failure = some e := h
  rcases f.form_cases budget (f.rules.flexRoles f.now ts) with ⟨-, hf⟩ | ⟨-, -, hf⟩ | ⟨-, -, hf⟩
  · rw [hf, solos_failure] at h
    cases h
  · rw [hf] at h
    cases h
  · exact rounds_breaksOff (queue_nodup hid) (hf ▸ h)

/-- Where all numbers fit a run comes to its end. -/
theorem run_failure {ts : List (Ticket α)} (hfits : f.Fits ts) (budget : Budget)
    (hid : (ts.map (·.id)).Nodup) : (f.run budget ts).failure = none := by
  by_contra hfailure
  obtain ⟨e, he⟩ := Option.ne_none_iff_exists'.1 hfailure
  obtain ⟨pivot, pool, hbreaks⟩ := run_breaksOff hid he
  obtain ⟨b, hb, hnot⟩ := hbreaks.exists_bounds
  exact hnot (hfits.bounds b hb)

end Formation

end Matchmaking
