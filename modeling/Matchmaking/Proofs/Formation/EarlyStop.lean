import Matchmaking.Proofs.Flexing
import Matchmaking.Proofs.Formation.Conservation

/-!
# Stopping early

Rounds end when there are fewer players than any match begins with, and a pivot is
dropped unseen when there are fewer than its own matches begin with. Both save
searches and nothing else: a match seats at least the players that its shape asks
for, all of them from the queue (`Formation.Teams.minPlayers_le`), so that with too
few there is none to be found (`Formation.sessionFor?_eq_none_of_few`).

The rounds without either check are `Formation.plainRounds`. If both come to their end,
they form the same sessions in the same order and leave the same tickets; only more
pivots are counted as dropped (`Formation.run_eq_plainRun`). To this end both are compared
with rounds in which no search can break off (`Formation.idealRounds`).

If not all numbers fit, one may break off where the other does not: the checks compute
with all bounds, also with those that no search is about yet
(`Formation.legion_breaks_off`).
-/

namespace Matchmaking

variable {α : Type}

namespace Ticket

theorem totalPlayers_le_of_subperm {ts us : List (Ticket α)} (h : ts.Subperm us) :
    totalPlayers ts ≤ totalPlayers us := by
  obtain ⟨l, hperm, hsub⟩ := h
  rw [totalPlayers, ← total_eq_of_perm players hperm]
  exact total_le_of_sublist players hsub

end Ticket

namespace Formation

variable [Scalar α] {f : Formation α} {pivot : Ticket α} {rest : List (Ticket α)} {a : Attempt}

/-! ## No match of too few -/

/-- A match has the players of the fewest and smallest teams, all of some tickets. -/
theorem Teams.minPlayers_le {pool ts : List (Ticket α)} {m : Assembly}
    {teams : List (List (Ticket α))} (h : f.Teams pivot a pool m teams)
    (hts : teams.flatten.Subperm ts) :
    (f.allianceAt pivot a.mode).bounds.minPlayers ≤ Ticket.totalPlayers ts := by
  generalize hb : (f.allianceAt pivot a.mode).bounds = b
  have hallows : b.Allows (teams.map Ticket.totalPlayers) := hb ▸ h.allows
  have hteams : b.minTeams ≤ teams.length := by
    rw [← List.length_map Ticket.totalPlayers]
    exact hallows.minTeams_le
  have hsize : ∀ team ∈ teams, b.minSize ≤ Ticket.totalPlayers team := fun team hteam =>
    (hallows.sizes _ (List.mem_map_of_mem hteam)).1
  calc b.minTeams * b.minSize
    _ ≤ teams.length * b.minSize := Nat.mul_le_mul_right _ hteams
    _ ≤ total Ticket.totalPlayers teams := length_mul_le_total hsize
    _ = Ticket.totalPlayers teams.flatten := (total_flatten _ _).symm
    _ ≤ Ticket.totalPlayers ts := Ticket.totalPlayers_le_of_subperm hts

/-- A match has them from the queue. -/
theorem Teams.minPlayers_le_totalPlayers {m : Assembly} {teams : List (List (Ticket α))}
    (h : f.Teams pivot a (pivot :: rest) m teams) :
    (f.allianceAt pivot a.mode).bounds.minPlayers ≤ Ticket.totalPlayers (pivot :: rest) :=
  h.minPlayers_le h.subperm

/-- A match is searched for in no mode, or in one that the rules know. -/
theorem modes_subset (f : Formation α) (pivot : Ticket α) : f.modes pivot ⊆ f.rules.modeNames := by
  intro mode hmode
  rw [modes] at hmode
  split at hmode
  · rw [List.mem_singleton.1 hmode]
    exact List.mem_cons_self
  · obtain ⟨name, hname, rfl⟩ := List.mem_map.1 hmode
    have hknown := (NameSet.mem_filter.1 (NameSet.mem_def.2 hname)).2
    obtain ⟨m, hm⟩ := Option.isSome_iff_exists.1 hknown
    refine List.mem_cons_of_mem _ (List.mem_map_of_mem ?_)
    exact List.mem_map_of_mem (Dict.get?_eq_some_iff.1 hm)

/-- Where there are no modes, a match is searched for in none. -/
theorem modes_eq_of_empty (h : f.rules.modes = ∅) (pivot : Ticket α) : f.modes pivot = [none] := by
  have hnone : pivot.modes.filter f.rules.modes.contains = ∅ :=
    NameSet.ext fun x => by simp [h, Dict.contains]
  rw [modes, hnone]
  rfl

theorem mode_mem_of_mem_attempts (ha : a ∈ f.attempts pivot) : a.mode ∈ f.rules.modeNames := by
  obtain ⟨mode, hmode, ha⟩ := List.mem_flatMap.1 ha
  obtain ⟨region, _, rfl⟩ := List.mem_map.1 ha
  exact f.modes_subset pivot hmode

/-- The session of a pivot that the first of its attempts leads to, if one does, however
    large the bounds are. -/
def sessionFor? (f : Formation α) (pivot : Ticket α) (pool : List (Ticket α)) :
    Option (Session α) :=
  (f.attempts pivot).findSome? (f.attempt? pivot pool)

theorem exists_of_sessionFor? {pool : List (Ticket α)} {s : Session α}
    (h : f.sessionFor? pivot pool = some s) :
    ∃ a ∈ f.attempts pivot, ∃ m, f.assembly? pivot a pool = some m ∧
      f.session pivot a pool m = s := by
  obtain ⟨a, ha, hs⟩ := List.exists_of_findSome?_eq_some h
  obtain ⟨m, hm, hms⟩ := Option.map_eq_some_iff.1 hs
  exact ⟨a, ha, m, hm, hms⟩

theorem findSome?_of_searchIn {pool : List (Ticket α)} {as : List Attempt}
    {r : Option (Session α)} (h : f.searchIn pivot pool as = .ok r) :
    as.findSome? (f.attempt? pivot pool) = r := by
  induction as with
  | nil => exact Except.ok.inj h
  | cons a as ih =>
    rw [searchIn] at h
    split at h
    · cases h
    · rename_i ha
      rw [List.findSome?_cons, (attempt_eq_ok_iff.1 ha).2]
      exact ih h
    · rename_i s ha
      rw [List.findSome?_cons, (attempt_eq_ok_iff.1 ha).2]
      exact Except.ok.inj h

/-- A search that does not break off finds the session of the first attempt that leads to
    one. -/
theorem sessionFor?_of_ok {pool : List (Ticket α)} {r : Option (Session α)}
    (h : f.sessionFor pivot pool = .ok r) : f.sessionFor? pivot pool = r :=
  findSome?_of_searchIn h

/-- There is no match if those who may have a place in it have fewer players than any
    match begins with, or than any match of the pivot begins with. -/
theorem sessionFor?_eq_none {pool ts : List (Ticket α)}
    (hpool : ∀ a ∈ f.attempts pivot, ∀ m teams, f.Teams pivot a pool m teams →
      teams.flatten.Subperm ts)
    (hfew : Ticket.totalPlayers ts < f.rules.minPlayers ∨
      Ticket.totalPlayers ts < f.minPlayersFor pivot) :
    f.sessionFor? pivot pool = none := by
  by_contra hsome
  obtain ⟨s, hs⟩ := Option.ne_none_iff_exists'.1 hsome
  obtain ⟨a, ha, m, hm, _⟩ := exists_of_sessionFor? hs
  obtain ⟨teams, hteams⟩ := assembly?_teams hm
  have henough := hteams.minPlayers_le (hpool a ha m teams hteams)
  have hrules : f.rules.minPlayers ≤ (f.allianceAt pivot a.mode).bounds.minPlayers :=
    RuleSet.minPlayers_le _ _ _ _
  have hpivot : f.minPlayersFor pivot ≤ (f.allianceAt pivot a.mode).bounds.minPlayers :=
    List.min?_getD_le_of_mem (List.mem_map.2 ⟨a, ha, rfl⟩)
  omega

/-- With too few players there is no match. -/
theorem sessionFor?_eq_none_of_few
    (hfew : Ticket.totalPlayers (pivot :: rest) < f.rules.minPlayers ∨
      Ticket.totalPlayers (pivot :: rest) < f.minPlayersFor pivot) :
    f.sessionFor? pivot (pivot :: rest) = none :=
  sessionFor?_eq_none (fun _ _ _ _ hteams => hteams.subperm) hfew

/-! ## Rounds without a check -/

/-- What becomes of the tickets of a queue if a match is searched for every pivot,
    however few players there are. -/
def plainRounds (f : Formation α) : List (Ticket α) → Formed α
  | [] => .leave []
  | pivot :: rest =>
    match f.sessionFor pivot (pivot :: rest) with
    | .error e => .broken e (pivot :: rest)
    | .ok none => (plainRounds f (Ticket.without [pivot.id] rest)).drop pivot
    | .ok (some s) => (plainRounds f (Ticket.without s.ticketIds rest)).emit s
termination_by pool => pool.length
decreasing_by
  · exact Nat.lt_succ_of_le (Ticket.length_without_le _ _)
  · exact Nat.lt_succ_of_le (Ticket.length_without_le _ _)

/-- What becomes of the tickets of a queue, given time, if rounds go on to the end
    of the queue. -/
def plainRun (f : Formation α) (ts : List (Ticket α)) : Formed α :=
  { (if f.isSinglePlayer then f.solos (f.queue ts) else f.plainRounds (f.queue ts)) with
    flexed := f.rules.flexedNow f.now ts }

/-! ## Rounds that never break off -/

/-- What becomes of the tickets of a queue if a match is searched for every pivot,
    however few players there are and however large the bounds. -/
def idealRounds (f : Formation α) : List (Ticket α) → Formed α
  | [] => .leave []
  | pivot :: rest =>
    match f.sessionFor? pivot (pivot :: rest) with
    | none => (idealRounds f (Ticket.without [pivot.id] rest)).drop pivot
    | some s => (idealRounds f (Ticket.without s.ticketIds rest)).emit s
termination_by pool => pool.length
decreasing_by
  · exact Nat.lt_succ_of_le (Ticket.length_without_le _ _)
  · exact Nat.lt_succ_of_le (Ticket.length_without_le _ _)

/-- A pivot for which nothing is found is dropped. -/
theorem idealRounds_cons_of_none (hid : ((pivot :: rest).map (·.id)).Nodup)
    (h : f.sessionFor? pivot (pivot :: rest) = none) :
    f.idealRounds (pivot :: rest) = (f.idealRounds rest).drop pivot := by
  rw [idealRounds, h, Ticket.without_head hid]

theorem idealRounds_cons_of_some {s : Session α}
    (h : f.sessionFor? pivot (pivot :: rest) = some s) :
    f.idealRounds (pivot :: rest) = (f.idealRounds (Ticket.without s.ticketIds rest)).emit s := by
  rw [idealRounds, h]

/-- A queue with too few players for any match is dropped ticket by ticket. -/
theorem idealRounds_of_few {queue : List (Ticket α)} (hid : (queue.map (·.id)).Nodup)
    (hfew : queue = [] ∨ Ticket.totalPlayers queue < f.rules.minPlayers) :
    (f.idealRounds queue).sessions = [] ∧ (f.idealRounds queue).unmatched = queue := by
  induction queue with
  | nil => rw [idealRounds]; exact ⟨rfl, rfl⟩
  | cons pivot rest ih =>
    have hfew := hfew.resolve_left (List.cons_ne_nil _ _)
    have hrest : Ticket.totalPlayers rest ≤ Ticket.totalPlayers (pivot :: rest) :=
      Ticket.totalPlayers_le_of_subperm (List.sublist_cons_self pivot rest).subperm
    obtain ⟨hsessions, hunmatched⟩ :=
      ih (List.nodup_cons.1 hid).2 (.inr (Nat.lt_of_le_of_lt hrest hfew))
    rw [idealRounds_cons_of_none hid (sessionFor?_eq_none_of_few (.inl hfew))]
    exact ⟨hsessions, congrArg (pivot :: ·) hunmatched⟩

/-- Rounds that come to their end form what they would form if none could break off. -/
theorem rounds_eq_idealRounds {queue : List (Ticket α)} (hid : (queue.map (·.id)).Nodup)
    (hends : (f.rounds .unlimited queue).failure = none) :
    (f.rounds .unlimited queue).sessions = (f.idealRounds queue).sessions ∧
      (f.rounds .unlimited queue).unmatched = (f.idealRounds queue).unmatched := by
  -- What is left after a round keeps its ids, so the premises go with the induction.
  suffices (queue.map (·.id)).Nodup → (f.rounds .unlimited queue).failure = none →
      (f.rounds .unlimited queue).sessions = (f.idealRounds queue).sessions ∧
        (f.rounds .unlimited queue).unmatched = (f.idealRounds queue).unmatched from
    this hid hends
  refine rounds_induction (f := f) .unlimited (motive := fun queue r =>
    (queue.map (·.id)).Nodup → r.failure = none →
      r.sessions = (f.idealRounds queue).sessions ∧
        r.unmatched = (f.idealRounds queue).unmatched)
    ?leave ?late ?broken ?drop ?emit hid
  case leave =>
    intro queue hfew hid _
    obtain ⟨hsessions, hunmatched⟩ := idealRounds_of_few hid hfew
    exact ⟨hsessions.symm, hunmatched.symm⟩
  case late => exact fun h => absurd rfl h
  case broken => exact fun _ _ _ _ _ => nofun
  case drop =>
    intro pivot rest _ _ _ hnone ih hid hends
    have hnone : f.sessionFor? pivot (pivot :: rest) = none :=
      hnone.elim (fun hfew => sessionFor?_eq_none_of_few (.inr hfew)) sessionFor?_of_ok
    obtain ⟨hsessions, hunmatched⟩ := ih (List.nodup_cons.1 hid).2 hends
    rw [idealRounds_cons_of_none hid hnone]
    exact ⟨hsessions, congrArg (pivot :: ·) hunmatched⟩
  case emit =>
    intro pivot rest s _ _ _ hs ih hid hends
    obtain ⟨hsessions, hunmatched⟩ :=
      ih ((List.nodup_cons.1 hid).2.sublist ((Ticket.without_sublist _ _).map _)) hends
    rw [idealRounds_cons_of_some (sessionFor?_of_ok hs)]
    exact ⟨congrArg (s :: ·) hsessions, hunmatched⟩

theorem plainRounds_eq_idealRounds {queue : List (Ticket α)}
    (hends : (f.plainRounds queue).failure = none) : f.plainRounds queue = f.idealRounds queue := by
  induction queue using plainRounds.induct f with
  | case1 => rw [plainRounds, idealRounds]
  | case2 pivot rest e he =>
    rw [plainRounds, he] at hends
    cases hends
  | case3 pivot rest hnone ih =>
    rw [plainRounds, hnone] at hends ⊢
    rw [idealRounds, sessionFor?_of_ok hnone]
    exact congrArg (Formed.drop pivot) (ih hends)
  | case4 pivot rest s hs ih =>
    rw [plainRounds, hs] at hends ⊢
    rw [idealRounds, sessionFor?_of_ok hs]
    exact congrArg (Formed.emit s) (ih hends)

/-- Rounds without a check come to their end where all bounds fit. -/
theorem plainRounds_failure (hfits : ∀ b ∈ f.rules.allBounds, b.Fits) (queue : List (Ticket α)) :
    (f.plainRounds queue).failure = none := by
  induction queue using plainRounds.induct f with
  | case1 => rw [plainRounds]; rfl
  | case2 pivot rest e he =>
    obtain ⟨b, hb, hnot⟩ := exists_bounds_of_sessionFor he
    exact absurd (hfits b hb) hnot
  | case3 pivot rest hnone ih => rw [plainRounds, hnone]; exact ih
  | case4 pivot rest s hs ih => rw [plainRounds, hs]; exact ih

/-! ## Runs -/

/-- Unless every match is a single player, the sessions of a run that comes to its end are
    those of rounds that go on to the end of the queue. -/
theorem run_sessions_eq_idealRounds (hf : f.isSinglePlayer = false) {ts : List (Ticket α)}
    (hid : (ts.map (·.id)).Nodup) (hends : (f.run .unlimited ts).failure = none) :
    (f.run .unlimited ts).sessions = (f.idealRounds (f.queue ts)).sessions := by
  rw [run, form_unlimited hf] at hends ⊢
  exact (rounds_eq_idealRounds (queue_nodup hid) hends).1

/-- If both come to their end, rounds that stop early form the same sessions, in the same
    order, as rounds that go on to the end of the queue, and leave the same tickets. Both
    come to their end where all numbers fit that they compute with. -/
theorem run_eq_plainRun (f : Formation α) {ts : List (Ticket α)} (hid : (ts.map (·.id)).Nodup) :
    ((f.run .unlimited ts).failure = none → (f.plainRun ts).failure = none →
      (f.run .unlimited ts).sessions = (f.plainRun ts).sessions ∧
        (f.run .unlimited ts).unmatched = (f.plainRun ts).unmatched) ∧
    (f.Fits ts → (f.run .unlimited ts).failure = none ∧ (f.plainRun ts).failure = none) := by
  by_cases hf : f.isSinglePlayer = true
  · rw [run, form, plainRun, if_pos hf, if_pos hf]
    exact ⟨fun _ _ => ⟨rfl, rfl⟩, fun _ => ⟨f.solos_failure _, f.solos_failure _⟩⟩
  · have hf : f.isSinglePlayer = false := Bool.eq_false_iff.2 hf
    have hqueue := queue_nodup (f := f) hid
    simp only [run, form_unlimited hf, plainRun, hf]
    refine ⟨fun hends hplain => ?_, fun hfits => ⟨?_, ?_⟩⟩
    · have hideal := plainRounds_eq_idealRounds hplain
      simp only [Bool.false_eq_true, if_false, hideal]
      exact rounds_eq_idealRounds hqueue hends
    · exact rounds_failure hfits.bounds .unlimited hqueue
    · exact plainRounds_failure hfits.bounds _

theorem duel_eq_plainRun : (duelists.map (·.id)).Nodup ∧
    (duel.run .unlimited duelists).sessions = (duel.plainRun duelists).sessions ∧
    (duel.run .unlimited duelists).unmatched = (duel.plainRun duelists).unmatched := by
  have hid : (duelists.map (·.id)).Nodup := by decide
  obtain ⟨hsame, hends⟩ := run_eq_plainRun duel hid
  obtain ⟨hrun, hplain⟩ := hends (duel_fits duelists)
  exact ⟨hid, hsame hrun hplain⟩

/-! ### Legions -/

/-- Duels that after an hour give way to a number of teams, of that many players each, in the
    first minute. -/
def legion (n : Nat) : Formation Float where
  rules := { RuleSet.ofAlliance (.ofBounds ⟨2, 2, 1, 1⟩) with
    allianceFlexing := [⟨3600, ⟨n, n, n, n⟩⟩]
    defaultsApplied := true }
  channel := "legion"
  now := .ofNanos (60 * Instant.second)
  cap := 1

/-- The players of a whole legion are no word, so that the checks break a run off that would
    else leave a single player. -/
theorem legion_breaks_off : (legion 4294967296).rules.fault? = none ∧
    ([duelist "a" []].map (·.id)).Nodup ∧
    ((legion 4294967296).run .unlimited [duelist "a" []]).failure = some .overflow ∧
    ((legion 4294967296).plainRun [duelist "a" []]).failure = none ∧
    ((legion 4294967296).plainRun [duelist "a" []]).unmatched = [duelist "a" []] := by
  decide +kernel

end Formation

end Matchmaking
