import Matchmaking.Proofs.Backfill.Eligibility
import Matchmaking.Rules.Fault

/-!
# Parties with several tickets

A search finds no ticket of a party of its pivot (`Search.run_overlaps`), be the pivot the
ticket that founds a session or a session that is open. But what it collects of a ticket that
it finds are the id, the players and those whom they block, and not the party. So a party
meets itself in a session if and only if two of the tickets that were found for it are of
that party: those that a new session has besides its founder (`Formation.Forms.party_of_founder`),
or those that joined an open one together (`Filling.KeepsApart`).
-/

namespace Matchmaking

variable {α : Type}

/-! ## The parties of a session -/

namespace Session

/-- The party ids of a session, of the parties that came with a ticket. -/
def ticketParties (s : Session α) : List String :=
  (s.parties.filter fun p => !p.isExternal).map (·.id)

variable {s s' : Session α}

/-- The parties of a session are those of the tickets that it seats. -/
theorem Seats.ticketParties {teams : List (List (Ticket α))} (h : s.Seats teams) :
    s.ticketParties = teams.flatten.map (·.partyId) := by
  have hparties := congrArg (fun ps => (ps.filter fun p => !p.isExternal).map Party.id) h.parties
  simp only [List.filter_map, List.map_map] at hparties
  have hknown : (teams.flatten.filter ((fun p : Party α => !p.isExternal) ∘ Party.ofBare)) =
      teams.flatten := List.filter_eq_self.2 fun _ _ => rfl
  rw [hknown] at hparties
  exact hparties

/-- The parties of a session that gained tickets are those that it had and those of the
    tickets. -/
theorem Gains.ticketParties {ts : List (Ticket α)} (h : s.Gains s' ts) :
    s'.ticketParties.Perm (s.ticketParties ++ ts.map (·.partyId)) := by
  obtain ⟨ps, hperm, hps⟩ := h.parties
  have hids : (ps.filter fun p => !p.isExternal).map (·.id) = ts.map (·.partyId) := by
    clear hperm h
    induction hps with
    | nil => rfl
    | cons hp _ ih =>
      obtain ⟨roles, rfl⟩ := hp
      exact congrArg (_ :: ·) ih
  rw [← hids, Session.ticketParties, Session.ticketParties, ← List.map_append, ← List.filter_append]
  exact (hperm.filter _).map _

end Session

variable [Scalar α]

/-! ## Who was found for an open session -/

namespace Backfill

variable {b : Backfill α} {s : Session α} {t : Ticket α} {pool : List (Ticket α)}
  {g : Filling α}

/-- A ticket that may join a session is of none of its parties. -/
theorem Eligible.partyId_not_mem (h : b.Eligible s t) : t.partyId ∉ s.ticketParties := by
  intro hmem
  obtain ⟨p, hp, hpt⟩ := List.mem_map.1 hmem
  obtain ⟨hp, hknown⟩ := List.mem_filter.1 hp
  exact (h.fresh p hp (by simpa using hknown)).2 hpt

/-- Whoever joins a session has the id of a ticket that may join it. -/
theorem Attended.exists_eligible (h : b.Attended pool g) (ht : t ∈ g.joined) :
    ∃ u ∈ pool, u.id = t.id ∧ b.Eligible g.before.session u := by
  obtain ⟨queue, left, hqueue, hattends⟩ := h
  obtain ⟨found, hfound, hid⟩ := List.mem_map.1 (hattends.found.subset (List.mem_map_of_mem ht))
  have hmem : found.ticket ∈ ((b.search g.before.session).run queue).map (·.ticket) :=
    List.mem_map_of_mem hfound
  have hpool : found.ticket ∈ pool :=
    hqueue.subset (((b.search g.before.session).run_subperm queue).subset hmem)
  obtain ⟨c, hfits⟩ := (b.search g.before.session).run_fits queue _ hmem
  exact ⟨_, hpool, hid,
    eligible_of_fits hfits ((b.search g.before.session).run_overlaps queue _ hmem)⟩

end Backfill

/-- The parties of a session that is filled are kept apart from those who join: each of
    these has the id of a ticket of the queue that is of none of them. Where tickets have
    ids of their own it is of none of them itself, so a party meets itself only if two
    tickets of it joined. -/
structure Filling.KeepsApart (pool : List (Ticket α)) (g : Filling α) : Prop where
  found : ∀ t ∈ g.joined, ∃ u ∈ pool, u.id = t.id ∧ u.partyId ∉ g.before.session.ticketParties
  fresh : Ticket.Distinct pool → ∀ t ∈ g.joined, t.partyId ∉ g.before.session.ticketParties
  nodup_iff : Ticket.Distinct pool → g.before.session.ticketParties.Nodup →
    (g.after.session.ticketParties.Nodup ↔ (g.joined.map (·.partyId)).Nodup)

omit [Scalar α] in
theorem Filling.keepsApart_idle (pool : List (Ticket α)) (o : OpenSession α) :
    (Filling.idle o).KeepsApart pool :=
  ⟨List.forall_mem_nil _, fun _ => List.forall_mem_nil _,
    fun _ h => iff_of_true h List.nodup_nil⟩

theorem Backfill.Attended.keepsApart {b : Backfill α} {pool : List (Ticket α)} {g : Filling α}
    (h : b.Attended pool g) : g.KeepsApart pool := by
  have hfresh : Ticket.Distinct pool →
      ∀ t ∈ g.joined, t.partyId ∉ g.before.session.ticketParties :=
    fun hpool t ht => (h.eligible hpool ht).partyId_not_mem
  refine ⟨fun t ht => ?_, hfresh, fun hpool hbefore => ?_⟩
  · obtain ⟨u, hu, hid, heligible⟩ := h.exists_eligible ht
    exact ⟨u, hu, hid, heligible.partyId_not_mem⟩
  · rw [g.gains.ticketParties.nodup_iff, List.nodup_append]
    refine ⟨fun h => h.2.1, fun hjoined => ⟨hbefore, hjoined, ?_⟩⟩
    rintro x hx y hy rfl
    obtain ⟨t, ht, rfl⟩ := List.mem_map.1 hy
    exact hfresh hpool t ht hx

/-! ## Who was found for a founder -/

namespace Formation

variable {f : Formation α} {ts : List (Ticket α)} {s : Session α}

/-- No ticket that is found for a pivot is of its party. -/
theorem partyId_ne_of_mem_candidates {pivot t : Ticket α} {a : Attempt} {pool : List (Ticket α)}
    (h : t ∈ f.candidates pivot a pool) : t.partyId ≠ pivot.partyId := by
  have hfresh := (f.search pivot a).run_overlaps _ t h
  simp only [Collection.overlaps, Bool.or_eq_false_iff] at hfresh
  intro hparty
  have hmem : t.partyId ∈ (f.search pivot a).start.parties :=
    NameSet.mem_ofList.2 (hparty ▸ List.mem_singleton_self _)
  exact Bool.false_ne_true (hfresh.1.2.symm.trans (NameSet.contains_iff.2 hmem))

/-- Nobody whom a new session seats is of the party of its pivot, the pivot apart. -/
theorem Forms.exists_pivot {queue : List (Ticket α)} (hid : Ticket.Distinct queue)
    (h : f.Forms queue s) :
    ∃ pivot rest teams, (pivot :: rest).Sublist queue ∧ s.Seats teams ∧
      teams.flatten.Subperm (pivot :: rest) ∧ pivot ∈ teams.flatten ∧
      ∀ u ∈ teams.flatten, u.partyId = pivot.partyId → u = pivot := by
  cases h with
  | @round pivot rest a m hsub _ hm =>
    obtain ⟨teams, hteams⟩ := assembly?_teams hm
    refine ⟨pivot, rest, teams, hsub, f.session_seats pivot a (hid.sublist (hsub.map _))
      hteams.tickets hteams.subperm.subset, hteams.subperm, hteams.pivot_mem, fun u hu hparty => ?_⟩
    rcases List.mem_cons.1 (hteams.known.subset hu) with rfl | hu
    · rfl
    · exact absurd hparty (partyId_ne_of_mem_candidates hu)
  | @solo t _ ht _ =>
    exact ⟨t, [], [[t]], List.singleton_sublist.2 ht, f.soloSession_seats t, .refl _,
      List.mem_singleton_self t, fun u hu _ => List.mem_singleton.1 hu⟩

omit [Scalar α] in
/-- The founder of a session is one of its tickets. -/
theorem mem_ticketsIn_of_founder? {founder : Ticket α} (h : s.founder? ts = some founder) :
    founder ∈ s.ticketsIn ts := by
  rw [Session.founder?] at h
  have hin : s.ticketIds.contains founder.id = true := by simpa using List.find?_some h
  exact List.mem_filter.2
    ⟨(Ticket.sortQueue_perm ts).mem_iff.1 (List.mem_of_find?_eq_some h), hin⟩

/-- The parties of a new session are those of its tickets. -/
theorem ticketParties_perm (hid : Ticket.Distinct ts) {teams : List (List (Ticket α))}
    (hseats : s.Seats teams) (hsub : teams.flatten.Subperm (f.queue ts)) :
    s.ticketParties.Perm ((s.ticketsIn ts).map (·.partyId)) := by
  have hperm := (seated_unflexed_perm hid hseats hsub).map (·.partyId)
  rw [List.map_map, List.map_map] at hperm
  exact hseats.ticketParties ▸ hperm

omit [Scalar α] in
/-- If nobody else is of the party of a ticket, parties are different if those of the others
    are. -/
theorem nodup_partyIds_iff {us : List (Ticket α)} {t : Ticket α} (hus : Ticket.Distinct us)
    (ht : t ∈ us) (halone : ∀ u ∈ us, u.partyId = t.partyId → u = t) :
    (us.map (·.partyId)).Nodup ↔ ((Ticket.without [t.id] us).map (·.partyId)).Nodup := by
  have hsplit : (t :: Ticket.without [t.id] us).Perm us :=
    Ticket.append_without_perm hus (List.singleton_subperm_iff.2 ht)
  rw [← (hsplit.map (·.partyId)).nodup_iff, List.map_cons, List.nodup_cons]
  refine and_iff_right fun hmem => ?_
  obtain ⟨u, hu, hparty⟩ := List.mem_map.1 hmem
  obtain ⟨hu, hne⟩ := List.mem_filter.1 hu
  rw [halone u hu hparty] at hne
  simp at hne

/-- A new session is that of a founder whose party nobody else in it is of. So a party meets
    itself there only if two others are of it. -/
theorem Forms.party_of_founder (hid : Ticket.Distinct ts) (h : f.Forms (f.queue ts) s) :
    ∃ founder, s.founder? ts = some founder ∧
      (∀ t ∈ s.ticketsIn ts, t.partyId = founder.partyId → t = founder) ∧
      (s.ticketParties.Nodup ↔
        ((Ticket.without [founder.id] (s.ticketsIn ts)).map (·.partyId)).Nodup) := by
  obtain ⟨pivot, rest, teams, hsub, hseats, hteams, hpivot, hothers⟩ :=
    h.exists_pivot (queue_nodup hid)
  obtain ⟨founder, hfounder, hpf⟩ := founder?_eq_some hid hsub hseats hteams.subset hpivot
  have hmem : founder ∈ s.ticketsIn ts := mem_ticketsIn_of_founder? hfounder
  have hqueued : teams.flatten.Subperm (f.queue ts) := hteams.trans hsub.subperm
  -- A ticket of the session is seated, but for roles, and these are no matter to its party.
  have halone : ∀ t ∈ s.ticketsIn ts, t.partyId = founder.partyId → t = founder := by
    intro t ht hparty
    obtain ⟨u, hu, hut⟩ := List.mem_map.1
      ((seated_unflexed_perm hid hseats hqueued).mem_iff.2 (List.mem_map_of_mem ht))
    have hup : u.partyId = pivot.partyId :=
      (Ticket.partyId_congr hut).trans (hparty.trans (Ticket.partyId_congr hpf))
    obtain rfl := hothers u hu hup
    exact Ticket.eq_of_id_eq hid (List.mem_of_mem_filter ht) (List.mem_of_mem_filter hmem)
      (Ticket.id_congr (hut.symm.trans hpf.symm))
  refine ⟨founder, hfounder, halone, ?_⟩
  rw [(ticketParties_perm hid hseats hqueued).nodup_iff]
  exact nodup_partyIds_iff (hid.subperm List.filter_sublist.subperm) hmem halone

/-- Nobody plays in a new session who is of the party of its founder, and nobody joins an
    open one who is of a party that it has. So parties stay different, whenever time is
    spent, unless two tickets of a party were found for the same session. -/
theorem run_keeps_parties_apart (f : Formation α) (hid : Ticket.Distinct ts) :
    (∀ budget, ∀ s ∈ (f.run budget ts).sessions, ∃ founder, s.founder? ts = some founder ∧
      (∀ t ∈ s.ticketsIn ts, t.partyId = founder.partyId → t = founder) ∧
      (s.ticketParties.Nodup ↔
        ((Ticket.without [founder.id] (s.ticketsIn ts)).map (·.partyId)).Nodup)) ∧
    ∀ (b : Backfill α) (budget : Budget) (os : List (OpenSession α)) (pool : List (Ticket α)),
      ∃ fs, b.Accounts (b.run budget os pool) (sortBy OpenSession.rank os) pool fs ∧
        ∀ g ∈ fs, g.KeepsApart pool := by
  refine ⟨fun _ s hs => (forms_of_mem_run hid hs).party_of_founder hid,
    fun b budget os pool => ?_⟩
  obtain ⟨fs, haccounts, hattended⟩ := b.run_accounts budget os pool
  refine ⟨fs, haccounts, fun g hg => ?_⟩
  rcases hattended g hg with h | ⟨_, o, rfl⟩
  · exact h.keepsApart
  · exact Filling.keepsApart_idle pool o

/-! ### A party of two -/

/-- Matches of two or three players, each a team of its own. -/
def melee : Formation Rat where
  rules := { RuleSet.ofAlliance (.ofBounds ⟨2, 3, 1, 1⟩) with autoBackfill := true }
  channel := "melee"
  now := .ofNanos 0
  cap := 1

/-- The ticket of a player who is of a party. -/
def fighter (id party : String) : Ticket Rat where
  id := id
  channel := "melee"
  partyId := party
  members := [.ofId id]
  attributes := ∅
  priority := 0
  createdAt := .ofNanos 0
  latencies := ∅
  excluded := []

/-- A player on its own, and two of one party who come with a ticket each. -/
def fighters : List (Ticket Rat) := [fighter "a" "p", fighter "b" "q", fighter "c" "q"]

/-- The two are found for the player on its own. -/
theorem melee_candidates :
    melee.candidates (fighter "a" "p") ⟨none, none⟩ fighters = [fighter "b" "q", fighter "c" "q"] := by
  rw [candidates, Search.run, sortBy_eq_self (by decide +kernel)]
  decide +kernel

/-- All three of them meet. -/
theorem melee_session : ∃ s ∈ (melee.run .unlimited fighters).sessions,
    s.ticketIds = ["a", "b", "c"] ∧ s.ticketParties = ["p", "q", "q"] := by
  have hattempts : melee.attempts (fighter "a" "p") = [⟨none, none⟩] := by decide +kernel
  have hattempt : (melee.attempt? (fighter "a" "p") fighters ⟨none, none⟩).map
      (fun s => (s.ticketIds, s.ticketParties)) = some (["a", "b", "c"], ["p", "q", "q"]) := by
    rw [attempt?, assembly?, melee_candidates]
    decide +kernel
  obtain ⟨s, hs, hseen⟩ := Option.map_eq_some_iff.1 hattempt
  have hsession : melee.sessionFor (fighter "a" "p") fighters = .ok (some s) := by
    have hfits : (melee.allianceAt (fighter "a" "p") none).bounds.searchFailure? = none := by
      decide +kernel
    rw [sessionFor, hattempts, searchIn, attempt_eq_ok_iff.2 ⟨hfits, hs⟩]
  refine ⟨s, ?_, congrArg Prod.fst hseen, congrArg Prod.snd hseen⟩
  rw [run_unlimited_sessions (by decide) (by decide +kernel) (by decide +kernel), fighters, rounds]
  simp only [Budget.read?]
  rw [if_neg (by decide +kernel), if_neg (by decide +kernel), if_neg (by decide +kernel),
    ← fighters, hsession]
  exact List.mem_cons_self

theorem melee_keeps_parties_apart : Ticket.Distinct fighters ∧
    ∃ s ∈ (melee.run .unlimited fighters).sessions, ∃ founder,
      s.founder? fighters = some founder ∧
      (∀ t ∈ s.ticketsIn fighters, t.partyId = founder.partyId → t = founder) ∧
      (s.ticketParties.Nodup ↔
        ((Ticket.without [founder.id] (s.ticketsIn fighters)).map (·.partyId)).Nodup) := by
  have hid : Ticket.Distinct fighters := by decide
  obtain ⟨s, hs, _⟩ := melee_session
  exact ⟨hid, s, hs, (run_keeps_parties_apart melee hid).1 .unlimited s hs⟩

/-- Open matches are filled under the same rules. -/
def meleeFilling : Backfill Rat := ⟨melee.rules, melee.now⟩

/-- The player on its own waits for others. -/
def openMelee : OpenSession Rat where
  ticketId := "open"
  session := { melee.soloSession (fighter "a" "p") with
    id := "m"
    status := .forming
    joinable := true }

/-- The two join an open match as well. -/
theorem melee_joined :
    ∃ o ∈ (meleeFilling.run .unlimited [openMelee]
        [fighter "b" "q", fighter "c" "q"]).sessions,
      o.session.ticketParties = ["p", "q", "q"] := by
  have hfound : ((meleeFilling.search openMelee.session).run
      [fighter "b" "q", fighter "c" "q"]).map (·.ticket.id) = ["b", "c"] := by
    rw [Search.run, sortBy_eq_self (by decide +kernel)]
    decide +kernel
  have hsession : (meleeFilling.session .unlimited openMelee.session
      [fighter "b" "q", fighter "c" "q"]).session.ticketParties = ["p", "q", "q"] := by
    simp only [Backfill.session]
    rw [if_neg (by decide +kernel), hfound]
    decide +kernel
  refine ⟨{ openMelee with session := _ }, ?_, hsession⟩
  rw [Backfill.run, sortBy, List.mergeSort_singleton]
  simp only [Backfill.sessions, Budget.read?]
  split_ifs <;> exact List.mem_cons_self

/-- A party meets itself in a new match, and in one that it joins. -/
theorem melee_doubles_party : melee.rules.fault? = none ∧ Ticket.Distinct fighters ∧
    (∃ s ∈ (melee.run .unlimited fighters).sessions, ¬ s.ticketParties.Nodup) ∧
    openMelee.session.ticketParties.Nodup ∧
    ∃ o ∈ (meleeFilling.run .unlimited [openMelee]
        [fighter "b" "q", fighter "c" "q"]).sessions,
      ¬ o.session.ticketParties.Nodup := by
  obtain ⟨s, hs, _, hparties⟩ := melee_session
  obtain ⟨o, ho, hjoined⟩ := melee_joined
  refine ⟨by decide, by decide, ⟨s, hs, ?_⟩, by decide, o, ho, ?_⟩
  · rw [hparties]
    decide
  · rw [hjoined]
    decide

end Formation

end Matchmaking
