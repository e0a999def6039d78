import Matchmaking.Formation
import Matchmaking.Number.Double
import Matchmaking.Proofs.Assembly
import Matchmaking.Proofs.Search
import Matchmaking.Proofs.Seating

/-!
# How sessions come about

Sessions are formed in rounds. Each round looks at the first ticket of what is
left of the queue and ends in one of these ways: everything is left, as there are
too few players, time is spent or the run breaks off, the ticket is dropped, or a
session takes its tickets out (`Formation.Round`, `Formation.rounds_induction`).

What a search in several attempts can be is said once (`Formation.searchIn_cases`), and
so is how a run serves its queue (`Formation.form_cases`).

So every session of a run is that of a ticket of its own, or the session of a
match that was found around the head of what was left of the queue
(`Formation.Forms`, `Formation.forms_of_mem_run`). It seats tickets of the queue, none
of them twice and no two of them with a player in common (`Formation.Hosts`,
`Forms.hosts`).
-/

namespace Matchmaking

variable {α : Type}

namespace Ticket

/-- A ticket that is not there cannot be taken out. -/
theorem without_eq_self {ids : List String} {ts : List (Ticket α)}
    (h : ∀ t ∈ ts, t.id ∉ ids) : without ids ts = ts :=
  List.filter_eq_self.2 fun t ht => by simpa using h t ht

theorem without_cons_of_mem {ids : List String} {t : Ticket α} (h : t.id ∈ ids)
    (ts : List (Ticket α)) : without ids (t :: ts) = without ids ts :=
  List.filter_cons_of_neg (by simpa using h)

theorem without_sublist (ids : List String) (ts : List (Ticket α)) :
    (without ids ts).Sublist ts := List.filter_sublist

theorem length_without_lt {ids : List String} {ts : List (Ticket α)} {t : Ticket α} (ht : t ∈ ts)
    (hid : t.id ∈ ids) : (without ids ts).length < ts.length :=
  List.length_filter_lt_length_iff_exists.2 ⟨t, ht, by simpa using hid⟩

/-- Nobody else in a queue has the id of its head. -/
theorem without_head {t : Ticket α} {ts : List (Ticket α)}
    (hid : ((t :: ts).map (·.id)).Nodup) : without [t.id] ts = ts := by
  rw [List.map_cons, List.nodup_cons] at hid
  refine without_eq_self fun u hu hut => hid.1 ?_
  rw [← List.mem_singleton.1 hut]
  exact List.mem_map_of_mem hu

theorem find?_id_eq_some {ts : List (Ticket α)} (hid : (ts.map (·.id)).Nodup) {t : Ticket α}
    (ht : t ∈ ts) : (ts.find? fun u => u.id == t.id) = some t := by
  cases h : ts.find? fun u => u.id == t.id with
  | none => exact absurd (List.find?_eq_none.1 h t ht) (by simp)
  | some u =>
    have := List.find?_some h
    rw [eq_of_id_eq hid (List.mem_of_find?_eq_some h) ht (by simpa using this)]

end Ticket

theorem Budget.eq_spent_of_read? {time : Budget} (h : time.read? = none) : time = .spent := by
  match time, h with
  | .spent, _ => rfl

/-- Time that is never spent is not spent by a reading. -/
theorem Budget.unlimited_of_read? {time time' later : Budget} (hread : time'.read? = some later)
    (h : time = .unlimited → time' = .unlimited) : time = .unlimited → later = .unlimited := by
  intro htime
  rw [h htime] at hread
  exact (Option.some_inj.1 hread).symm

namespace Formation

variable [Scalar α] {f : Formation α}

/-! ## The session of a match -/

omit [Scalar α] in
/-- Tickets are found by their ids. -/
theorem ticketsOf_ids {pool team : List (Ticket α)} (hid : (pool.map (·.id)).Nodup)
    (hteam : team ⊆ pool) : ticketsOf pool (team.map (·.id)) = team := by
  induction team with
  | nil => rfl
  | cons t team ih =>
    -- The first ticket with the id of `t` is `t`, as nobody else has its id.
    obtain ⟨ht, hteam⟩ := List.cons_subset.1 hteam
    rw [List.map_cons, ticketsOf, List.filterMap_cons, Ticket.find?_id_eq_some hid ht]
    exact congrArg (t :: ·) (ih hteam)

omit [Scalar α] in
theorem alliance_parties (pool : List (Ticket α)) (i : Nat) (p : TeamPlan) :
    (alliance pool i p).parties.map Party.bare = (ticketsOf pool p.tickets).map Party.ofBare := by
  simp [alliance, Party.ofBare, Function.comp_def]

/-- The session of a match seats the tickets of its teams. -/
theorem session_seats (f : Formation α) (pivot : Ticket α) (a : Attempt)
    {pool : List (Ticket α)} {m : Assembly} {teams : List (List (Ticket α))}
    (hid : (pool.map (·.id)).Nodup)
    (hm : m.teams.map (·.tickets) = teams.map (·.map (·.id))) (hteams : teams.flatten ⊆ pool) :
    (f.session pivot a pool m).Seats teams := by
  have hplans : (f.session pivot a pool m).alliances.map (·.parties.map Party.bare) =
      m.teams.map fun p => (ticketsOf pool p.tickets).map Party.ofBare := by
    refine List.ext_getElem (by simp [session]) fun i hi _ => ?_
    simp [session, alliance_parties]
  have hids : m.teams.map (fun p => (ticketsOf pool p.tickets).map Party.ofBare) =
      (m.teams.map (·.tickets)).map fun ids => (ticketsOf pool ids).map Party.ofBare := by
    rw [List.map_map]
    rfl
  rw [Session.Seats, hplans, hids, hm, List.map_map]
  refine List.map_congr_left fun team hteam => ?_
  rw [Function.comp_apply, ticketsOf_ids hid fun t ht =>
    hteams (List.mem_flatten_of_mem hteam ht)]

/-! ## Searches -/

theorem attempt_eq_ok_iff {pivot : Ticket α} {pool : List (Ticket α)} {a : Attempt}
    {r : Option (Session α)} : f.attempt pivot pool a = .ok r ↔
      (f.allianceAt pivot a.mode).bounds.searchFailure? = none ∧ f.attempt? pivot pool a = r := by
  rw [attempt]
  split <;> simp_all

/-- A search in some attempts leads to a session by one of them, to none if none of them does,
    and breaks off at a shape that is too large. -/
theorem searchIn_cases (f : Formation α) (pivot : Ticket α) (pool : List (Ticket α))
    (as : List Attempt) :
    (∃ s, f.searchIn pivot pool as = .ok (some s) ∧
      ∃ a ∈ as, f.attempt pivot pool a = .ok (some s)) ∨
    (f.searchIn pivot pool as = .ok none ∧ ∀ a ∈ as, f.attempt pivot pool a = .ok none) ∨
    ∃ e, f.searchIn pivot pool as = .error e ∧
      ∃ a ∈ as, (f.allianceAt pivot a.mode).bounds.searchFailure? = some e := by
  induction as with
  | nil => exact .inr (.inl ⟨rfl, List.forall_mem_nil _⟩)
  | cons a as ih =>
    rw [searchIn]
    cases ha : f.attempt pivot pool a with
    | error e =>
      rw [attempt] at ha
      split at ha
      · cases ha
        exact .inr (.inr ⟨_, rfl, a, List.mem_cons_self, ‹_›⟩)
      · cases ha
    | ok r =>
      cases r with
      | some s => exact .inl ⟨s, rfl, a, List.mem_cons_self, ha⟩
      | none =>
        rcases ih with ⟨s, hs, a', ha', hs'⟩ | ⟨hnone, hall⟩ | ⟨e, he, a', ha', he'⟩
        · exact .inl ⟨s, hs, a', List.mem_cons_of_mem _ ha', hs'⟩
        · exact .inr (.inl ⟨hnone, List.forall_mem_cons.2 ⟨ha, hall⟩⟩)
        · exact .inr (.inr ⟨e, he, a', List.mem_cons_of_mem _ ha', he'⟩)

/-- A search leads to the session of an attempt. -/
theorem exists_attempt_of_sessionFor {pivot : Ticket α} {pool : List (Ticket α)} {s : Session α}
    (h : f.sessionFor pivot pool = .ok (some s)) :
    ∃ a ∈ f.attempts pivot, f.attempt pivot pool a = .ok (some s) := by
  rw [sessionFor] at h
  rcases f.searchIn_cases pivot pool (f.attempts pivot) with ⟨s', hs', a, ha, has⟩ | ⟨hnone, -⟩ |
    ⟨e, he, -⟩
  · obtain rfl : s' = s := Option.some_inj.1 (Except.ok.inj (hs'.symm.trans h))
    exact ⟨a, ha, has⟩
  · cases hnone.symm.trans h
  · cases he.symm.trans h

theorem exists_of_sessionFor {pivot : Ticket α} {pool : List (Ticket α)} {s : Session α}
    (h : f.sessionFor pivot pool = .ok (some s)) :
    ∃ a ∈ f.attempts pivot, ∃ m, f.assembly? pivot a pool = some m ∧
      f.session pivot a pool m = s := by
  obtain ⟨a, ha, has⟩ := exists_attempt_of_sessionFor h
  obtain ⟨m, hm, hs⟩ := Option.map_eq_some_iff.1 (attempt_eq_ok_iff.1 has).2
  exact ⟨a, ha, m, hm, hs⟩

/-- The teams of a match, as tickets: the pivot and candidates of it. -/
abbrev Teams (f : Formation α) (pivot : Ticket α) (a : Attempt) (pool : List (Ticket α))
    (m : Assembly) (teams : List (List (Ticket α))) : Prop :=
  (Assembler.of (f.allianceAt pivot a.mode) f.rules.blockPolicy f.cap).Seats pivot
    (f.candidates pivot a pool) m teams

theorem assembly?_teams {pivot : Ticket α} {a : Attempt} {pool : List (Ticket α)} {m : Assembly}
    (h : f.assembly? pivot a pool = some m) : ∃ teams, f.Teams pivot a pool m teams :=
  Assembler.assemble?_seats (Option.filter_eq_some_iff.1 h).1

theorem candidates_subperm (f : Formation α) (pivot : Ticket α) (a : Attempt)
    (rest : List (Ticket α)) : (f.candidates pivot a (pivot :: rest)).Subperm rest := by
  rw [candidates, Ticket.without_cons_of_mem (List.mem_singleton_self _)]
  exact ((f.search pivot a).run_subperm _).trans (Ticket.without_sublist _ _).subperm

theorem candidates_apart (f : Formation α) (pivot : Ticket α) (a : Attempt)
    (pool : List (Ticket α)) : (pivot :: f.candidates pivot a pool).Pairwise Ticket.Apart := by
  obtain ⟨hpivot, hapart⟩ := (f.search pivot a).run_apart (Ticket.without [pivot.id] pool)
  exact hapart.cons fun t ht => Ticket.Apart.symm (hpivot t ht)

namespace Teams

variable {pivot : Ticket α} {a : Attempt} {rest : List (Ticket α)} {m : Assembly}
  {teams : List (List (Ticket α))}

theorem subperm (h : f.Teams pivot a (pivot :: rest) m teams) :
    teams.flatten.Subperm (pivot :: rest) :=
  h.known.trans ((List.subperm_cons pivot).2 (f.candidates_subperm pivot a rest))

theorem apart (h : f.Teams pivot a (pivot :: rest) m teams) :
    teams.flatten.Pairwise Ticket.Apart := by
  obtain ⟨l, hperm, hsub⟩ := h.known
  exact (hperm.pairwise_iff Ticket.Apart.symm).1 ((f.candidates_apart pivot a _).sublist hsub)

end Teams

/-! ## Rounds -/

/-- Why a round breaks off: a least number of players is no word, or there are players enough
    and a search of the pivot breaks off. -/
inductive BreaksOff (f : Formation α) (pivot : Ticket α) (pool : List (Ticket α)) :
    Failure → Prop
  | uncounted : f.rules.countsLeast = false → BreaksOff f pivot pool .overflow
  | unsearched {e : Failure} : f.rules.minPlayers ≤ Ticket.totalPlayers pool →
    f.minPlayersFor pivot ≤ Ticket.totalPlayers pool → f.sessionFor pivot pool = .error e →
    BreaksOff f pivot pool e

/-- What rounds come to whose first one has time, and leaves so much of it: the run breaks off,
    everything is left, the pivot is dropped, or a session takes its tickets out. -/
inductive Round (f : Formation α) (later : Budget) (pivot : Ticket α) (rest : List (Ticket α)) :
    Formed α → Prop
  | broken {e : Failure} : f.BreaksOff pivot (pivot :: rest) e →
    Round f later pivot rest (.broken e (pivot :: rest))
  | leave : f.rules.countsLeast = true →
    Ticket.totalPlayers (pivot :: rest) < f.rules.minPlayers →
    Round f later pivot rest (.leave (pivot :: rest))
  | drop : f.rules.countsLeast = true →
    f.rules.minPlayers ≤ Ticket.totalPlayers (pivot :: rest) →
    Ticket.totalPlayers (pivot :: rest) < f.minPlayersFor pivot ∨
      f.sessionFor pivot (pivot :: rest) = .ok none →
    Round f later pivot rest ((f.rounds later rest).drop pivot)
  | emit {s : Session α} : f.rules.countsLeast = true →
    f.rules.minPlayers ≤ Ticket.totalPlayers (pivot :: rest) →
    f.minPlayersFor pivot ≤ Ticket.totalPlayers (pivot :: rest) →
    f.sessionFor pivot (pivot :: rest) = .ok (some s) →
    Round f later pivot rest ((f.rounds later (Ticket.without s.ticketIds rest)).emit s)

theorem rounds_cons {time later : Budget} {pivot : Ticket α} {rest : List (Ticket α)}
    (hread : time.read? = some later) (hid : ((pivot :: rest).map (·.id)).Nodup) :
    f.Round later pivot rest (f.rounds time (pivot :: rest)) := by
  rw [rounds]
  simp only [hread]
  split_ifs with hcounts hmin hfew
  · exact .broken (.uncounted (by simpa using hcounts))
  · exact .leave (by simpa using hcounts) hmin
  · exact .drop (by simpa using hcounts) (Nat.le_of_not_lt hmin) (.inl hfew)
  · have hcounts : f.rules.countsLeast = true := by simpa using hcounts
    split
    · exact .broken (.unsearched (Nat.le_of_not_lt hmin) (Nat.le_of_not_lt hfew) ‹_›)
    · -- The pivot is taken out of the rest by its id, which nobody has there.
      rw [Ticket.without_head hid]
      exact .drop hcounts (Nat.le_of_not_lt hmin) (.inr ‹_›)
    · exact .emit hcounts (Nat.le_of_not_lt hmin) (Nat.le_of_not_lt hfew) ‹_›

theorem rounds_late {time : Budget} (hread : time.read? = none) (pivot : Ticket α)
    (rest : List (Ticket α)) : f.rounds time (pivot :: rest) = .late (pivot :: rest) := by
  rw [rounds]
  simp only [hread]

/-- Induction over rounds: what holds of a queue that is left as it is, and goes
    from what is left after a round to the queue before it, holds of the whole. -/
theorem rounds_induction {motive : List (Ticket α) → Formed α → Prop} (time : Budget)
    (leave : ∀ queue, queue = [] ∨ Ticket.totalPlayers queue < f.rules.minPlayers →
      motive queue (.leave queue))
    (late : time ≠ .unlimited → ∀ queue, motive queue (.late queue))
    (broken : ∀ e pivot rest, f.BreaksOff pivot (pivot :: rest) e →
      motive (pivot :: rest) (.broken e (pivot :: rest)))
    (drop : ∀ pivot rest r, ((pivot :: rest).map (·.id)).Nodup →
      f.rules.minPlayers ≤ Ticket.totalPlayers (pivot :: rest) →
      Ticket.totalPlayers (pivot :: rest) < f.minPlayersFor pivot ∨
        f.sessionFor pivot (pivot :: rest) = .ok none →
      motive rest r → motive (pivot :: rest) (r.drop pivot))
    (emit : ∀ pivot rest s r, ((pivot :: rest).map (·.id)).Nodup →
      f.rules.minPlayers ≤ Ticket.totalPlayers (pivot :: rest) →
      f.sessionFor pivot (pivot :: rest) = .ok (some s) →
      motive (Ticket.without s.ticketIds rest) r → motive (pivot :: rest) (r.emit s))
    {queue : List (Ticket α)} (hid : (queue.map (·.id)).Nodup) :
    motive queue (f.rounds time queue) := by
  -- Time that is never spent is not spent by a round.
  suffices ∀ (n : Nat) (time' : Budget) (queue : List (Ticket α)), queue.length ≤ n →
      (time = .unlimited → time' = .unlimited) → (queue.map (·.id)).Nodup →
      motive queue (f.rounds time' queue) from this _ time queue (Nat.le_refl _) id hid
  intro n
  induction n with
  | zero =>
    intro time' queue hn _ _
    obtain rfl := List.eq_nil_of_length_eq_zero (Nat.le_zero.1 hn)
    rw [rounds]
    exact leave [] (.inl rfl)
  | succ n ih =>
    intro time' queue hn htime hid
    cases queue with
    | nil => rw [rounds]; exact leave [] (.inl rfl)
    | cons pivot rest =>
      have hrest : rest.length ≤ n := Nat.le_of_succ_le_succ hn
      have hidrest := (List.nodup_cons.1 hid).2
      cases hread : time'.read? with
      | none =>
        rw [rounds_late hread]
        refine late (fun hunlimited => ?_) _
        rw [htime hunlimited] at hread
        cases hread
      | some later =>
        have hlater := Budget.unlimited_of_read? hread htime
        have hround := rounds_cons (f := f) hread hid
        generalize f.rounds time' (pivot :: rest) = r at hround
        cases hround with
        | broken hbreaks => exact broken _ pivot rest hbreaks
        | leave _ hmin => exact leave _ (.inr hmin)
        | drop _ hmin hnone =>
          exact drop pivot rest _ hid hmin hnone (ih later rest hrest hlater hidrest)
        | @emit s _ hmin _ hs =>
          have hsub := Ticket.without_sublist s.ticketIds rest
          exact emit pivot rest s _ hid hmin hs (ih later _ (Nat.le_trans hsub.length_le hrest)
            hlater (hidrest.sublist (hsub.map _)))

/-- How a session comes out of a queue: around the first ticket of what is left
    of it, or as a ticket on its own. -/
inductive Forms (f : Formation α) (queue : List (Ticket α)) : Session α → Prop
  | round {pivot : Ticket α} {rest : List (Ticket α)} {a : Attempt} {m : Assembly} :
    (pivot :: rest).Sublist queue → a ∈ f.attempts pivot →
      f.assembly? pivot a (pivot :: rest) = some m →
    Forms f queue (f.session pivot a (pivot :: rest) m)
  | solo {t : Ticket α} :
    f.isSinglePlayer = true → t ∈ queue → t.players = 1 → Forms f queue (f.soloSession t)

theorem forms_of_mem_rounds {time : Budget} {queue : List (Ticket α)}
    (hid : (queue.map (·.id)).Nodup) :
    ∀ s ∈ (f.rounds time queue).sessions, ∀ queue', queue.Sublist queue' → f.Forms queue' s := by
  refine rounds_induction (f := f) time (motive := fun queue r =>
    ∀ s ∈ r.sessions, ∀ queue', queue.Sublist queue' → f.Forms queue' s) ?_ ?_ ?_ ?_ ?_ hid
  · exact fun _ _ => nofun
  · exact fun _ _ => nofun
  · exact fun _ _ _ _ => nofun
  · exact fun pivot rest _ _ _ _ ih s hs queue' h =>
      ih s hs queue' ((List.sublist_cons_self _ _).trans h)
  · intro pivot rest s r _ _ hs ih s' hs' queue' h
    -- The session of this round, or one of what is left after it.
    rcases List.mem_cons.1 hs' with rfl | hs'
    · obtain ⟨a, ha, m, hm, rfl⟩ := exists_of_sessionFor hs
      exact .round h ha hm
    · have hrest : (Ticket.without s.ticketIds rest).Sublist (pivot :: rest) :=
        (Ticket.without_sublist _ _).trans (List.sublist_cons_self _ _)
      exact ih s' hs' queue' (hrest.trans h)

theorem forms_of_mem_solos (hf : f.isSinglePlayer = true) {queue : List (Ticket α)} {s : Session α}
    (hs : s ∈ (f.solos queue).sessions) : f.Forms queue s := by
  suffices ∃ t ∈ queue, t.players = 1 ∧ f.soloSession t = s by
    obtain ⟨t, ht, hone, rfl⟩ := this
    exact .solo hf ht hone
  induction queue with
  | nil => cases hs
  | cons t queue ih =>
    rw [solos] at hs
    split_ifs at hs with hone
    · rcases List.mem_cons.1 hs with rfl | hs
      · exact ⟨t, List.mem_cons_self, hone, rfl⟩
      · exact (ih hs).imp fun u hu => ⟨List.mem_cons_of_mem _ hu.1, hu.2⟩
    · exact (ih hs).imp fun u hu => ⟨List.mem_cons_of_mem _ hu.1, hu.2⟩

/-! ## Runs -/

/-- The queue of a run: the tickets in the order of service, once roles are given
    up. -/
def queue (f : Formation α) (ts : List (Ticket α)) : List (Ticket α) :=
  Ticket.sortQueue (f.rules.flexRoles f.now ts)

theorem queue_ids_perm (f : Formation α) (ts : List (Ticket α)) :
    ((f.queue ts).map (·.id)).Perm (ts.map (·.id)) := by
  rw [← f.rules.flexRoles_ids f.now ts]
  exact (Ticket.sortQueue_perm _).map _

theorem queue_unflexed (f : Formation α) (ts : List (Ticket α)) :
    (f.queue ts).map Ticket.unflexed = (Ticket.sortQueue ts).map Ticket.unflexed := by
  rw [queue, Ticket.sortQueue_unflexed, Ticket.sortQueue_unflexed, f.rules.flexRoles_unflexed]

variable {ts : List (Ticket α)} {s : Session α}

theorem queue_nodup (hid : (ts.map (·.id)).Nodup) : ((f.queue ts).map (·.id)).Nodup :=
  (f.queue_ids_perm ts).nodup_iff.2 hid

theorem exists_of_mem_queue {t : Ticket α} (ht : t ∈ f.queue ts) :
    ∃ u ∈ ts, t.unflexed = u.unflexed :=
  RuleSet.exists_of_mem_flexRoles ((Ticket.sortQueue_perm _).mem_iff.1 ht)

/-- A ticket of a run is in the queue as the one of its id. -/
theorem unflexed_eq_of_id_eq (hid : (ts.map (·.id)).Nodup) {t u : Ticket α} (ht : t ∈ f.queue ts)
    (hu : u ∈ ts) (h : t.id = u.id) : t.unflexed = u.unflexed := by
  obtain ⟨v, hv, htv⟩ := exists_of_mem_queue ht
  rw [htv, Ticket.eq_of_id_eq hid hv hu ((Ticket.id_congr htv).symm.trans h)]

/-- A ticket whose id a session has is one of those that it seats, but for roles. -/
theorem exists_seated (hid : (ts.map (·.id)).Nodup) {teams : List (List (Ticket α))}
    (hseats : s.Seats teams) (hteams : teams.flatten ⊆ f.queue ts) {t : Ticket α} (ht : t ∈ ts)
    (hs : t.id ∈ s.ticketIds) : ∃ u ∈ teams.flatten, u.unflexed = t.unflexed := by
  rw [hseats.ticketIds] at hs
  obtain ⟨u, hu, hut⟩ := List.mem_map.1 hs
  exact ⟨u, hu, unflexed_eq_of_id_eq hid (hteams hu) ht hut⟩

/-- Without time a queue is left untouched; with time it is served in rounds. -/
theorem serve_cases (f : Formation α) (budget : Budget) (ts : List (Ticket α)) :
    (budget = .spent ∧ f.serve budget ts = { Formed.leave ts with outOfBudget := !ts.isEmpty }) ∨
    (budget ≠ .spent ∧ f.serve budget ts = f.rounds budget (Ticket.sortQueue ts)) := by
  unfold serve
  split
  · exact .inl ⟨rfl, rfl⟩
  · exact .inr ⟨‹_›, rfl⟩

/-- A run serves the queue as single players, leaves it untouched for want of time, or serves
    it in rounds. -/
theorem form_cases (f : Formation α) (budget : Budget) (ts : List (Ticket α)) :
    (f.isSinglePlayer = true ∧ f.form budget ts = f.solos (Ticket.sortQueue ts)) ∨
    (f.isSinglePlayer = false ∧ budget = .spent ∧
      f.form budget ts = { Formed.leave ts with outOfBudget := !ts.isEmpty }) ∨
    (f.isSinglePlayer = false ∧ budget ≠ .spent ∧
      f.form budget ts = f.rounds budget (Ticket.sortQueue ts)) := by
  rw [form]
  split_ifs with hf
  · exact .inl ⟨hf, rfl⟩
  · exact (f.serve_cases budget ts).elim (fun h => .inr (.inl ⟨Bool.eq_false_iff.2 hf, h⟩))
      fun h => .inr (.inr ⟨Bool.eq_false_iff.2 hf, h⟩)

/-- Unless every match is a single player, a run with time without end serves its queue in
    rounds. -/
theorem form_unlimited (hf : f.isSinglePlayer = false) (ts : List (Ticket α)) :
    f.form .unlimited ts = f.rounds .unlimited (Ticket.sortQueue ts) :=
  if_neg (Bool.eq_false_iff.1 hf)

theorem forms_of_mem_run {budget : Budget} (hid : (ts.map (·.id)).Nodup)
    (hs : s ∈ (f.run budget ts).sessions) : f.Forms (f.queue ts) s := by
  replace hs : s ∈ (f.form budget (f.rules.flexRoles f.now ts)).sessions := hs
  rcases f.form_cases budget (f.rules.flexRoles f.now ts) with ⟨hf, h⟩ | ⟨-, -, h⟩ | ⟨-, -, h⟩
  · exact forms_of_mem_solos hf (h ▸ hs)
  · rw [h] at hs
    cases hs
  · exact forms_of_mem_rounds (queue_nodup hid) s (h ▸ hs) _ (.refl _)

/-- Given time, and unless every match is a single player, sessions are formed in
    rounds from a queue as it is, if it is in order and nobody gives up a role. -/
theorem run_unlimited_sessions (hf : f.isSinglePlayer = false)
    (hroles : f.rules.flexRoles f.now ts = ts)
    (hsorted : ts.Pairwise fun t u => (Ticket.rank t u).isLE = true) :
    (f.run .unlimited ts).sessions = (f.rounds .unlimited ts).sessions := by
  rw [run, hroles, form_unlimited hf, Ticket.sortQueue_eq_self hsorted]

theorem soloSession_seats (f : Formation α) (t : Ticket α) : (f.soloSession t).Seats [[t]] := rfl

/-- A session has its players from tickets of the queue, none of them twice and no
    two of them with a player in common. They may meet, or there is one player
    only. -/
structure Hosts (f : Formation α) (queue : List (Ticket α)) (s : Session α)
    (teams : List (List (Ticket α))) : Prop where
  seats : s.Seats teams
  subperm : teams.flatten.Subperm queue
  apart : teams.flatten.Pairwise Ticket.Apart
  admits : f.rules.blockPolicy.Admits (teams.map TeamSummary.ofTickets) ∨
    ∃ t, teams = [[t]] ∧ t.players = 1

theorem Forms.hosts {queue : List (Ticket α)} (hid : (queue.map (·.id)).Nodup)
    (h : f.Forms queue s) : ∃ teams, f.Hosts queue s teams := by
  cases h with
  | @round pivot rest a m hsub _ hm =>
    obtain ⟨teams, hteams⟩ := assembly?_teams hm
    have hseats := f.session_seats pivot a (hid.sublist (hsub.map _)) hteams.tickets
      hteams.subperm.subset
    exact ⟨teams, hseats, hteams.subperm.trans hsub.subperm, hteams.apart, .inl hteams.admits⟩
  | @solo t _ ht hone =>
    exact ⟨[[t]], f.soloSession_seats t, (List.singleton_sublist.2 ht).subperm,
      List.pairwise_singleton _ _, .inr ⟨t, rfl, hone⟩⟩

/-! ### A duel -/

/-- Matches of two players, one against one. -/
def duel : Formation Float where
  rules := .ofAlliance (.ofBounds ⟨2, 2, 1, 1⟩)
  channel := "duel"
  now := .ofNanos 0
  cap := 1

/-- The ticket of a player who blocks others. -/
def duelist (id : String) (blocked : List String) : Ticket Float where
  id := id
  channel := "duel"
  partyId := id
  members := [.ofId id]
  attributes := Dict.ofList [(Key.blockedPlayers, .list blocked)]
  priority := 0
  createdAt := .ofNanos 0
  latencies := ∅
  excluded := []

/-- Three players, the first of whom does not want to meet the second. -/
def duelists : List (Ticket Float) := [duelist "a" ["b"], duelist "b" [], duelist "c" []]

/-- The first and the third player meet. -/
theorem duel_session : ∃ s ∈ (duel.run .unlimited duelists).sessions,
    s.ticketIds = ["a", "c"] ∧ s.userIds = .ofList ["a", "c"] := by
  rw [run_unlimited_sessions (by decide) (by decide +kernel) (by decide +kernel)]
  decide +kernel

end Formation

end Matchmaking
