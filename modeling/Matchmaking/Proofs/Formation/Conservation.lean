import Matchmaking.Proofs.Formation.Completion
import Matchmaking.Rules.Fault

/-!
# Every ticket has one place

A run that comes to its end neither loses a ticket nor uses it twice: the tickets that
its sessions seat and those that are left are together those of the queue
(`Formed.Accounts`). A queue that is left as it is accounts for itself, and every
round and every ticket on its own keeps the account, whether the ticket is left,
dropped or taken out with its session (`Formation.rounds_accounts`,
`Formation.solos_accounts`).

Seen from outside, every ticket id occurs once among the sessions and the tickets
that are left, and parties and tickets are as they came in, but for roles
(`Formed.Conserves`).
-/

namespace Matchmaking

variable {α : Type}

/-- Tickets that are taken out of a queue and those that stay are the queue. -/
theorem Ticket.append_without_perm {matched ts : List (Ticket α)}
    (hid : (ts.map (·.id)).Nodup) (h : matched.Subperm ts) :
    (matched ++ without (matched.map (·.id)) ts).Perm ts := by
  have hts : ts.Nodup := List.Nodup.of_map _ hid
  have hmatched : matched.Nodup := by
    obtain ⟨l, hperm, hsub⟩ := h
    exact hperm.nodup_iff.1 (hts.sublist hsub)
  refine List.Perm.trans ?_
    (List.filter_append_perm (fun t => (matched.map (·.id)).contains t.id) ts)
  refine List.Perm.append_right _ ?_
  refine (List.perm_ext_iff_of_nodup hmatched (hts.filter _)).2 fun t => ?_
  simp only [List.mem_filter, List.contains_iff_mem, List.mem_map]
  constructor
  · exact fun ht => ⟨h.subset ht, t, ht, rfl⟩
  · rintro ⟨ht, u, hu, hut⟩
    exact eq_of_id_eq hid (h.subset hu) ht hut ▸ hu

namespace Formed

/-- What became of a queue accounts for it: the tickets that the sessions seat
    and those that are left are those of the queue. -/
def Accounts (r : Formed α) (queue : List (Ticket α)) : Prop :=
  ∃ seated : List (List (List (Ticket α))), List.Forall₂ Session.Seats r.sessions seated ∧
    (seated.flatten.flatten ++ r.unmatched).Perm queue

variable {r : Formed α} {queue : List (Ticket α)}

theorem accounts_leave (queue : List (Ticket α)) : (leave queue).Accounts queue :=
  ⟨[], .nil, .refl _⟩

theorem Accounts.congr {queue' : List (Ticket α)} (h : r.Accounts queue)
    (hq : queue.Perm queue') : r.Accounts queue' := by
  obtain ⟨seated, hseated, hperm⟩ := h
  exact ⟨seated, hseated, hperm.trans hq⟩

theorem Accounts.drop (h : r.Accounts queue) (t : Ticket α) : (r.drop t).Accounts (t :: queue) := by
  obtain ⟨seated, hseated, hperm⟩ := h
  exact ⟨seated, hseated, List.perm_middle.trans (hperm.cons t)⟩

theorem Accounts.pass (h : r.Accounts queue) (t : Ticket α) : (r.pass t).Accounts (t :: queue) :=
  h.drop t

theorem Accounts.emit {queue' : List (Ticket α)} (h : r.Accounts queue) {s : Session α}
    {teams : List (List (Ticket α))} (hs : s.Seats teams)
    (hq : (teams.flatten ++ queue).Perm queue') : (r.emit s).Accounts queue' := by
  obtain ⟨seated, hseated, hperm⟩ := h
  refine ⟨teams :: seated, .cons hs hseated, .trans ?_ hq⟩
  rw [List.flatten_cons, List.flatten_append, List.append_assoc]
  exact hperm.append_left _

/-! ### What is seen of an account -/

theorem Accounts.ids_perm (h : r.Accounts queue) :
    (r.sessions.flatMap Session.ticketIds ++ r.unmatched.map (·.id)).Perm (queue.map (·.id)) := by
  obtain ⟨seated, hseated, hperm⟩ := h
  have hids : r.sessions.flatMap Session.ticketIds = seated.flatten.flatten.map (·.id) := by
    clear hperm
    generalize r.sessions = sessions at hseated
    induction hseated with
    | nil => rfl
    | cons hs _ ih =>
      rw [List.flatMap_cons, hs.ticketIds, ih, List.flatten_cons, List.flatten_append,
        List.map_append]
  rw [hids, ← List.map_append]
  exact hperm.map _

theorem Accounts.party (h : r.Accounts queue) {s : Session α} (hs : s ∈ r.sessions) {p : Party α}
    (hp : p ∈ s.parties) : ∃ t ∈ queue, p.bare = Party.ofBare t := by
  obtain ⟨seated, hseated, hperm⟩ := h
  obtain ⟨teams, hteams, hseats⟩ : ∃ teams ∈ seated, s.Seats teams := by
    clear hperm
    generalize r.sessions = sessions at hseated hs
    induction hseated with
    | nil => cases hs
    | cons hs' _ ih =>
      rcases List.mem_cons.1 hs with rfl | hs
      · exact ⟨_, List.mem_cons_self, hs'⟩
      · exact (ih hs).imp fun teams h => ⟨List.mem_cons_of_mem _ h.1, h.2⟩
  obtain ⟨t, ht, hpt⟩ := hseats.party hp
  refine ⟨t, hperm.mem_iff.1 (List.mem_append_left _ ?_), hpt⟩
  obtain ⟨team, hteam, ht⟩ := List.mem_flatten.1 ht
  exact List.mem_flatten_of_mem (List.mem_flatten_of_mem hteams hteam) ht

theorem Accounts.unmatched_subset (h : r.Accounts queue) : r.unmatched ⊆ queue := by
  obtain ⟨seated, _, hperm⟩ := h
  exact fun t ht => hperm.mem_iff.1 (List.mem_append_right _ ht)

end Formed

namespace Formation

variable [Scalar α] {f : Formation α}

theorem attempt?_seats {pivot : Ticket α} {rest : List (Ticket α)} {a : Attempt} {s : Session α}
    (hid : ((pivot :: rest).map (·.id)).Nodup) (h : f.attempt? pivot (pivot :: rest) a = some s) :
    ∃ teams, s.Seats teams ∧ teams.flatten.Subperm (pivot :: rest) ∧ pivot ∈ teams.flatten := by
  obtain ⟨m, hm, rfl⟩ := Option.map_eq_some_iff.1 h
  obtain ⟨teams, hteams⟩ := assembly?_teams hm
  exact ⟨teams, f.session_seats pivot _ hid hteams.tickets hteams.subperm.subset, hteams.subperm,
    hteams.pivot_mem⟩

/-- A session has the pivot that it was searched for. -/
theorem pivot_mem_of_attempt? {pivot : Ticket α} {rest : List (Ticket α)} {a : Attempt}
    {s : Session α} (hid : ((pivot :: rest).map (·.id)).Nodup)
    (h : f.attempt? pivot (pivot :: rest) a = some s) : pivot.id ∈ s.ticketIds := by
  obtain ⟨teams, hseats, _, hpivot⟩ := attempt?_seats hid h
  exact hseats.ticketIds ▸ List.mem_map_of_mem hpivot

theorem sessionFor_seats {pivot : Ticket α} {rest : List (Ticket α)} {s : Session α}
    (hid : ((pivot :: rest).map (·.id)).Nodup)
    (h : f.sessionFor pivot (pivot :: rest) = .ok (some s)) :
    ∃ teams, s.Seats teams ∧ teams.flatten.Subperm (pivot :: rest) ∧ pivot ∈ teams.flatten := by
  obtain ⟨a, _, m, hm, rfl⟩ := exists_of_sessionFor h
  exact attempt?_seats (a := a) hid (Option.map_eq_some_iff.2 ⟨m, hm, rfl⟩)

/-- A dropped pivot is left, and a session takes out the tickets that it seats, so
    rounds account for their queue. -/
theorem rounds_accounts {time : Budget} {queue : List (Ticket α)}
    (hid : (queue.map (·.id)).Nodup) : (f.rounds time queue).Accounts queue := by
  refine rounds_induction (f := f) time (motive := fun queue r => r.Accounts queue)
    ?_ ?_ ?_ ?_ ?_ hid
  · exact fun queue _ => Formed.accounts_leave queue
  · exact fun _ queue => Formed.accounts_leave queue
  · exact fun _ _ _ _ => Formed.accounts_leave _
  · exact fun pivot _ _ _ _ _ ih => ih.drop pivot
  · intro pivot rest s r hid _ hs ih
    obtain ⟨teams, hseats, hsub, hpivot⟩ := sessionFor_seats hid hs
    -- The pivot is seated, so taking the seated out of the rest or out of the
    -- whole queue leaves the same.
    have hmem : pivot.id ∈ s.ticketIds := hseats.ticketIds ▸ List.mem_map_of_mem hpivot
    rw [← Ticket.without_cons_of_mem hmem, hseats.ticketIds] at ih
    exact ih.emit hseats (Ticket.append_without_perm hid hsub)

theorem solos_accounts (f : Formation α) (queue : List (Ticket α)) :
    (f.solos queue).Accounts queue := by
  induction queue with
  | nil => exact Formed.accounts_leave []
  | cons t queue ih =>
    rw [solos]
    split_ifs
    · exact ih.emit (f.soloSession_seats t) (.refl _)
    · exact ih.pass t

theorem run_accounts (f : Formation α) (budget : Budget) {ts : List (Ticket α)}
    (hid : (ts.map (·.id)).Nodup) : (f.run budget ts).Accounts (f.queue ts) := by
  show (f.form budget (f.rules.flexRoles f.now ts)).Accounts (f.queue ts)
  rcases f.form_cases budget (f.rules.flexRoles f.now ts) with ⟨-, h⟩ | ⟨-, -, h⟩ | ⟨-, -, h⟩
  · exact h ▸ f.solos_accounts _
  · rw [h]
    exact (Formed.accounts_leave _).congr (Ticket.sortQueue_perm _).symm
  · exact h ▸ rounds_accounts (queue_nodup hid)

end Formation

/-- Every ticket has one place, in a session or among those that are left, and
    nobody else has one. A party in a session is that of its ticket but for the
    roles of its members, and a ticket that is left is as it was but for members
    who gave up their roles. -/
structure Formed.Conserves (r : Formed α) (ts : List (Ticket α)) : Prop where
  ids : (r.sessions.flatMap Session.ticketIds ++ r.unmatched.map (·.id)).Perm (ts.map (·.id))
  parties : ∀ s ∈ r.sessions, ∀ p ∈ s.parties,
    ∃ t ∈ ts, p.ticketId = some t.id ∧ p.bare = (Party.ofTicket t).bare
  unmatched : ∀ u ∈ r.unmatched, ∃ t ∈ ts, u.unflexed = t.unflexed

namespace Formation

variable [Scalar α] {f : Formation α}

/-- A run that comes to its end has a place for every ticket, and it does come to its end
    where all numbers fit that it computes with. -/
theorem run_conserves_tickets (f : Formation α) (budget : Budget) {ts : List (Ticket α)}
    (hid : (ts.map (·.id)).Nodup) :
    ((f.run budget ts).failure = none → (f.run budget ts).Conserves ts) ∧
      (f.Fits ts → (f.run budget ts).failure = none) := by
  refine ⟨fun _ => ?_, fun hfits => run_failure hfits budget hid⟩
  have haccounts := f.run_accounts budget hid
  refine ⟨haccounts.ids_perm.trans (f.queue_ids_perm ts), fun s hs p hp => ?_, fun u hu => ?_⟩
  · obtain ⟨t, ht, hpt⟩ := haccounts.party hs hp
    obtain ⟨u, hu, htu⟩ := exists_of_mem_queue ht
    rw [← Party.ofBare_unflexed, htu, Party.ofBare_unflexed] at hpt
    exact ⟨u, hu, congrArg Party.ticketId hpt, hpt⟩
  · exact exists_of_mem_queue (haccounts.unmatched_subset hu)

theorem duel_fits (ts : List (Ticket Float)) : duel.Fits ts :=
  .of_bounds (by decide) (by decide) rfl

theorem duel_conserves_tickets : (duelists.map (·.id)).Nodup ∧
    ((duel.run .unlimited duelists).sessions.flatMap Session.ticketIds ++
      (duel.run .unlimited duelists).unmatched.map (·.id)).Perm ["a", "b", "c"] := by
  have hid : (duelists.map (·.id)).Nodup := by decide
  obtain ⟨hconserves, hends⟩ := run_conserves_tickets duel .unlimited hid
  exact ⟨hid, (hconserves (hends (duel_fits duelists))).ids⟩

/-! ### A horde -/

/-- Matches of single players, as many as there are up to some number. -/
def horde (n : Nat) : Formation Float := { duel with rules := .ofAlliance (.ofBounds ⟨1, n, 1, 1⟩) }

/-- There is never room for so many players, so that even one who would be a match alone gets
    no place. -/
theorem horde_loses_ticket : (horde 1152921504606846976).rules.fault? = none ∧
    ([duelist "a" []].map (·.id)).Nodup ∧
    ((horde 1152921504606846976).run .unlimited [duelist "a" []]).failure = some .noRoom ∧
    ((horde 1152921504606846976).run .unlimited [duelist "a" []]).handedOut = [] := by
  decide +kernel

end Formation

end Matchmaking
