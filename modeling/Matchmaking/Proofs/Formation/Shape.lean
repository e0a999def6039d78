import Matchmaking.Proofs.Formation.Round
import Matchmaking.Session.Progress

/-!
# The shape of new sessions

A session is formed within the bounds that were in force for its pivot, and the
pivot can be told from the session: it is the one of its tickets that is served
first (`Session.founder?`, `Formation.founder?_eq_some`). An assembly is full when
it meets the bounds exactly, a session is satisfied when it has at least as much;
within the bounds that is the same (`Assembly.isFull_eq_isSatisfied`). So a new
session has the stage that it would be given as a session that has begun
(`Session.Conforms`).
-/

namespace Matchmaking

variable {α : Type}

/-- What comes first in a part of a list comes first in the list, for a property
    that only that part has. -/
theorem find?_eq_some_of_sublist {β : Type} {p : β → Bool} {x : β} {xs ys : List β}
    (h : (x :: xs).Sublist ys) (hys : ys.Nodup) (hx : p x = true)
    (hp : ∀ y ∈ ys, p y = true → y ∈ x :: xs) : ys.find? p = some x := by
  induction ys with
  | nil => cases h
  | cons y ys ih =>
    obtain ⟨hy, hys⟩ := List.nodup_cons.1 hys
    cases h with
    | cons _ h =>
      -- What stands before the part does not have the property.
      have hpy : ¬p y = true := fun hpy => hy (h.subset (hp y List.mem_cons_self hpy))
      rw [List.find?_cons_of_neg hpy]
      exact ih h hys fun z hz => hp z (List.mem_cons_of_mem _ hz)
    | cons_cons _ h => exact List.find?_cons_of_pos hx

/-! ### Full and satisfied -/

theorem Assembly.isFull_iff {m : Assembly} {b : Bounds} :
    m.isFull b = true ↔ (m.teams.map (·.players)).length = b.maxTeams ∧
      ∀ n ∈ m.teams.map (·.players), n = b.maxSize := by
  simp [isFull]

namespace Session

theorem isSatisfied_iff {s : Session α} {b : Bounds} :
    s.isSatisfied b = true ↔ b.maxTeams ≤ s.teamSizes.length ∧ ∀ n ∈ s.teamSizes, b.maxSize ≤ n := by
  simp [isSatisfied, teamSizes]

/-- A new session has a shape: its teams are within the bounds, it is satisfied if
    it has all that these allow and forming if not, and it is open if it is not
    satisfied and sessions are kept open. -/
structure Conforms (s : Session α) (b : Bounds) (autoBackfill : Bool) : Prop where
  allows : b.Allows s.teamSizes
  status : s.status = if s.isSatisfied b then .satisfied else .forming
  joinable : s.joinable = true ↔ s.status ≠ .satisfied ∧ autoBackfill = true

theorem Conforms.of_isSatisfied {s : Session α} {b : Bounds} {autoBackfill : Bool}
    (hallows : b.Allows s.teamSizes)
    (hstatus : s.status = if s.isSatisfied b then .satisfied else .forming)
    (hjoinable : s.joinable = (!s.isSatisfied b && autoBackfill)) : s.Conforms b autoBackfill := by
  refine ⟨hallows, hstatus, ?_⟩
  rw [hstatus, hjoinable]
  cases s.isSatisfied b <;> simp

/-- The one of the tickets of a session that is served first. -/
def founder? (s : Session α) (ts : List (Ticket α)) : Option (Ticket α) :=
  (Ticket.sortQueue ts).find? fun t => s.ticketIds.contains t.id

/-- The head of a list that is in order founds the sessions that it is in. -/
theorem founder?_cons {s : Session α} {t : Ticket α} {ts : List (Ticket α)}
    (hsorted : (t :: ts).Pairwise fun t u => (Ticket.rank t u).isLE = true)
    (ht : t.id ∈ s.ticketIds) : s.founder? (t :: ts) = some t := by
  rw [founder?, Ticket.sortQueue_eq_self hsorted]
  exact List.find?_cons_of_pos (List.contains_iff_mem.2 ht)

end Session

theorem Assembly.isFull_eq_isSatisfied {m : Assembly} {s : Session α} {b : Bounds}
    (hsizes : m.teams.map (·.players) = s.teamSizes) (h : b.Allows s.teamSizes) :
    m.isFull b = s.isSatisfied b := by
  rw [Bool.eq_iff_iff, isFull_iff, Session.isSatisfied_iff, hsizes]
  constructor
  · rintro ⟨hteams, hfull⟩
    exact ⟨Nat.le_of_eq hteams.symm, fun n hn => Nat.le_of_eq (hfull n hn).symm⟩
  · rintro ⟨hteams, hfull⟩
    exact ⟨Nat.le_antisymm h.le_maxTeams hteams, fun n hn =>
      Nat.le_antisymm (h.sizes n hn).2 (hfull n hn)⟩

namespace Formation

variable [Scalar α] {f : Formation α} {ts : List (Ticket α)} {s : Session α}

/-- The founder of a session is its pivot, but for roles. -/
theorem founder?_eq_some (hid : (ts.map (·.id)).Nodup) {pivot : Ticket α}
    {rest : List (Ticket α)} (hsub : (pivot :: rest).Sublist (f.queue ts))
    {teams : List (List (Ticket α))} (hs : s.Seats teams) (hteams : teams.flatten ⊆ pivot :: rest)
    (hpivot : pivot ∈ teams.flatten) :
    ∃ t, s.founder? ts = some t ∧ t.unflexed = pivot.unflexed := by
  have hqueue : ((f.queue ts).find? fun t => s.ticketIds.contains t.id) = some pivot := by
    refine find?_eq_some_of_sublist hsub (List.Nodup.of_map _ (queue_nodup hid)) ?_ ?_
    · rw [hs.ticketIds, List.contains_iff_mem]
      exact List.mem_map_of_mem hpivot
    · intro t ht hts
      rw [hs.ticketIds, List.contains_iff_mem] at hts
      obtain ⟨u, hu, hut⟩ := List.mem_map.1 hts
      -- A ticket of the queue that has the id of a seated one is that ticket.
      rw [← Ticket.eq_of_id_eq (queue_nodup hid) (hsub.subset (hteams hu)) ht hut]
      exact hteams hu
  -- The queue is that of the tickets but for roles, which are no matter here.
  have hfind : ((f.queue ts).map Ticket.unflexed).find? (fun t => s.ticketIds.contains t.id) =
      some pivot.unflexed := List.find?_map.trans (congrArg (Option.map Ticket.unflexed) hqueue)
  rw [queue_unflexed, List.find?_map] at hfind
  exact Option.map_eq_some_iff.1 hfind

/-- The session of a match has the shape that its pivot asks for. -/
theorem session_conforms {pivot : Ticket α} {a : Attempt} {pool : List (Ticket α)} {m : Assembly}
    {teams : List (List (Ticket α))} (hm : f.Teams pivot a pool m teams)
    (hs : (f.session pivot a pool m).Seats teams) :
    (f.session pivot a pool m).Conforms (f.allianceAt pivot a.mode).bounds
      f.rules.autoBackfill := by
  have hallows : (f.allianceAt pivot a.mode).bounds.Allows (f.session pivot a pool m).teamSizes :=
    hs.teamSizes ▸ hm.allows
  have hfull := Assembly.isFull_eq_isSatisfied (hm.players.trans hs.teamSizes.symm) hallows
  refine .of_isSatisfied hallows ?_ ?_
  · rw [← hfull]
    rfl
  · rw [← hfull]
    rfl

/-- A single player is all that a match of a single player may have. -/
theorem soloSession_conforms {t : Ticket α} (ht : t.players = 1) (autoBackfill : Bool) :
    (f.soloSession t).Conforms ⟨1, 1, 1, 1⟩ autoBackfill := by
  have hsizes : (f.soloSession t).teamSizes = [1] := by
    rw [(f.soloSession_seats t).teamSizes]
    simp [Ticket.totalPlayers, ht]
  have hsatisfied : (f.soloSession t).isSatisfied ⟨1, 1, 1, 1⟩ = true := by
    rw [Session.isSatisfied_iff, hsizes]
    simp
  refine .of_isSatisfied ⟨?_, ?_, ?_⟩ ?_ ?_
  · simp [hsizes]
  · simp [hsizes]
  · simp [hsizes]
  · rw [hsatisfied]
    rfl
  · rw [hsatisfied]
    rfl

omit [Scalar α] in
/-- Where every match is a single player, this is so at any time. -/
theorem bounds_of_isSinglePlayer (hf : f.isSinglePlayer = true) (anchor : Instant) :
    (f.rules.allianceAt anchor f.now none).1.bounds = ⟨1, 1, 1, 1⟩ := by
  simp only [isSinglePlayer, Bounds.isSinglePlayer, Bool.and_eq_true, decide_eq_true_eq,
    List.isEmpty_iff] at hf
  obtain ⟨⟨hbounds, hflexing⟩, _⟩ := hf
  show (f.rules.alliance.flexedAt f.rules.allianceFlexing anchor f.now).1.bounds = _
  rw [hflexing]
  exact hbounds

/-- A session comes out of a queue in the shape that is in force for the first of its
    tickets. -/
theorem Forms.conforms (hid : (ts.map (·.id)).Nodup) (h : f.Forms (f.queue ts) s) :
    ∃ t, s.founder? ts = some t ∧
      s.Conforms (f.rules.allianceAt t.createdAt f.now s.mode).1.bounds f.rules.autoBackfill := by
  cases h with
  | @round pivot rest a m hsub _ hm =>
    obtain ⟨teams, hteams⟩ := assembly?_teams hm
    have hseats := f.session_seats pivot a ((queue_nodup hid).sublist (hsub.map _))
      hteams.tickets hteams.subperm.subset
    obtain ⟨t, ht, htp⟩ := founder?_eq_some hid hsub hseats hteams.subperm.subset hteams.pivot_mem
    refine ⟨t, ht, ?_⟩
    rw [Ticket.createdAt_congr htp]
    exact session_conforms hteams hseats
  | @solo u hf hu hone =>
    obtain ⟨t, ht, _⟩ := founder?_eq_some hid (List.singleton_sublist.2 hu) (f.soloSession_seats u)
      (List.Subset.refl _) (List.mem_singleton_self u)
    refine ⟨t, ht, ?_⟩
    rw [show (f.soloSession u).mode = none from rfl, bounds_of_isSinglePlayer hf]
    exact soloSession_conforms hone _

/-- A session is formed in the shape that is in force for the first of its tickets
    in the order of service, in its mode. -/
theorem run_within_bounds (f : Formation α) (budget : Budget) (hid : (ts.map (·.id)).Nodup)
    (hs : s ∈ (f.run budget ts).sessions) :
    ∃ t, s.founder? ts = some t ∧
      s.Conforms (f.rules.allianceAt t.createdAt f.now s.mode).1.bounds f.rules.autoBackfill :=
  (forms_of_mem_run hid hs).conforms hid

theorem duel_within_bounds : ∃ s ∈ (duel.run .unlimited duelists).sessions,
    ∃ t, s.founder? duelists = some t ∧
      s.Conforms (duel.rules.allianceAt t.createdAt duel.now s.mode).1.bounds false := by
  obtain ⟨s, hs, _⟩ := duel_session
  exact ⟨s, hs, run_within_bounds duel .unlimited (by decide) hs⟩

end Formation

end Matchmaking
