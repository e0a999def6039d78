import Matchmaking.Proofs.Backfill.Blocks
import Matchmaking.Rules.Fault

/-!
# Since when a session waits

A session waits since a time, which decides how far its rules have flexed. When it is
formed, that is when the oldest of its tickets entered the queue, whether or not this is the
pivot (`Formation.Forms.isEarliest`). Whoever joins the session later leaves the time as it
is (`Session.Gains.createdAt`), so it stays the time of the oldest ticket as long as no
ticket joins that is older (`Filling.isEarliest_iff`), and in the whole life of a session it
is the time of the oldest ticket of those that it was formed with
(`Formation.Life.isEarliest`).
-/

namespace Matchmaking

variable {α : Type}

/-! ## The earliest of some instants -/

namespace Instant

/-- An instant is the earliest one of a list. -/
structure IsEarliest (a : Instant) (as : List Instant) : Prop where
  mem : a ∈ as
  le : ∀ b ∈ as, a ≤ b

variable {a b c : Instant} {as bs : List Instant}

instance : Decidable (a.IsEarliest as) :=
  decidable_of_iff (a ∈ as ∧ ∀ b ∈ as, a ≤ b) ⟨fun h => ⟨h.1, h.2⟩, fun h => ⟨h.mem, h.le⟩⟩

theorem le_refl (a : Instant) : a ≤ a := Int.le_refl a.place

theorem le_trans (h : a ≤ b) (h' : b ≤ c) : a ≤ c := Int.le_trans h h'

theorem earlier_cases (a b : Instant) :
    earlier a b = a ∧ a ≤ b ∨ earlier a b = b ∧ b ≤ a := by
  rw [earlier]
  split_ifs with h
  · exact .inr ⟨rfl, Int.le_of_lt h⟩
  · exact .inl ⟨rfl, Int.not_lt.1 h⟩

theorem isEarliest_earliest (a : Instant) (as : List Instant) :
    (earliest a as).IsEarliest (a :: as) := by
  induction as generalizing a with
  | nil => exact ⟨List.mem_singleton_self a, fun b hb => List.mem_singleton.1 hb ▸ le_refl a⟩
  | cons b as ih =>
    obtain ⟨hmem, hle⟩ := ih (earlier a b)
    show (earliest (earlier a b) as).IsEarliest (a :: b :: as)
    generalize earliest (earlier a b) as = c at hmem hle
    obtain ⟨hfirst, hrest⟩ := List.forall_mem_cons.1 hle
    rcases earlier_cases a b with ⟨heq, hab⟩ | ⟨heq, hba⟩
    · rw [heq] at hmem hfirst
      have hsub : (a :: as).Sublist (a :: b :: as) := (List.sublist_cons_self b as).cons_cons a
      exact ⟨hsub.subset hmem, List.forall_mem_cons.2 ⟨hfirst, List.forall_mem_cons.2
        ⟨le_trans hfirst hab, hrest⟩⟩⟩
    · rw [heq] at hmem hfirst
      exact ⟨List.mem_cons_of_mem _ hmem, List.forall_mem_cons.2 ⟨le_trans hfirst hba,
        List.forall_mem_cons.2 ⟨hfirst, hrest⟩⟩⟩

theorem IsEarliest.congr (h : a.IsEarliest as) (hperm : as.Perm bs) : a.IsEarliest bs :=
  ⟨hperm.mem_iff.1 h.mem, fun b hb => h.le b (hperm.mem_iff.2 hb)⟩

end Instant

/-! ## When nobody was older -/

/-- The time of a session that is filled is that of its oldest ticket, if it was that
    before, unless someone joins who is older. -/
theorem Filling.isEarliest_iff (g : Filling α) :
    g.after.session.createdAt.IsEarliest
        (g.before.session.createdAt :: g.joined.map (·.createdAt)) ↔
      ∀ t ∈ g.joined, g.before.session.createdAt ≤ t.createdAt := by
  rw [g.gains.createdAt]
  refine ⟨fun h t ht => h.le _ (List.mem_cons_of_mem _ (List.mem_map_of_mem ht)), fun h => ?_⟩
  exact ⟨List.mem_cons_self, List.forall_mem_cons.2
    ⟨Instant.le_refl _, List.forall_mem_map.2 h⟩⟩

namespace Formation

variable [Scalar α] {f : Formation α} {ts : List (Ticket α)} {s : Session α}

omit [Scalar α] in
theorem createdAtOf_isEarliest (pivot : Ticket α) {us : List (Ticket α)} (h : us ≠ []) :
    (createdAtOf pivot us).IsEarliest (us.map (·.createdAt)) := by
  cases us with
  | nil => exact absurd rfl h
  | cons u us => exact Instant.isEarliest_earliest u.createdAt (us.map (·.createdAt))

/-- A session is formed with the time of the oldest of its tickets. -/
theorem Forms.isEarliest (hid : Ticket.Distinct ts) (h : f.Forms (f.queue ts) s) :
    s.createdAt.IsEarliest ((s.ticketsIn ts).map (·.createdAt)) := by
  obtain ⟨teams, hseats, hsub, hearliest⟩ : ∃ teams, s.Seats teams ∧
      teams.flatten.Subperm (f.queue ts) ∧
      s.createdAt.IsEarliest (teams.flatten.map (·.createdAt)) := by
    cases h with
    | @round pivot rest a m hsub _ hm =>
      obtain ⟨teams, hteams⟩ := assembly?_teams hm
      have hpool : ((pivot :: rest).map (·.id)).Nodup := (queue_nodup hid).sublist (hsub.map _)
      refine ⟨teams, f.session_seats pivot a hpool hteams.tickets hteams.subperm.subset,
        hteams.subperm.trans hsub.subperm, ?_⟩
      show (createdAtOf pivot (Formation.ticketsOf (pivot :: rest) m.tickets)).IsEarliest _
      rw [Teams.ticketsOf hteams hpool]
      exact createdAtOf_isEarliest pivot (List.ne_nil_of_mem hteams.pivot_mem)
    | @solo t _ ht _ =>
      exact ⟨[[t]], f.soloSession_seats t, (List.singleton_sublist.2 ht).subperm,
        createdAtOf_isEarliest t (List.cons_ne_nil t [])⟩
  -- Nobody's time has to do with roles.
  have hperm := (seated_unflexed_perm hid hseats hsub).map (·.createdAt)
  rw [List.map_map, List.map_map] at hperm
  exact hearliest.congr hperm

/-- In its whole life a session keeps the time of the oldest of the tickets that it was
    formed with. -/
theorem Life.isEarliest {kind : List (Ticket α) → Prop} {founder : Ticket α}
    (h : f.Life kind founder s ts) :
    ∃ formed, formed <+: ts ∧ s.createdAt.IsEarliest (formed.map (·.createdAt)) := by
  induction h with
  | formed _ hid hs _ =>
    have hearliest := (forms_of_mem_run hid hs).isEarliest hid
    exact ⟨_, List.prefix_rfl, hearliest⟩
  | extended _ _ _ hext ih =>
    obtain ⟨formed, hformed, hearliest⟩ := ih
    cases hext with
    | run _ _ hgains =>
      exact ⟨formed, hformed.trans (List.prefix_append _ _), hgains.createdAt ▸ hearliest⟩

/-- A session is formed with the time of the oldest of its tickets, whenever time is spent,
    and it keeps this time in every run that fills open sessions. So the time is the
    earlier of what it was and of the oldest ticket that joined, if and only if none that
    joined is older. -/
theorem waits_since_oldest (f : Formation α) (hid : Ticket.Distinct ts) :
    (∀ budget, ∀ s ∈ (f.run budget ts).sessions,
      s.createdAt.IsEarliest ((s.ticketsIn ts).map (·.createdAt))) ∧
    ∀ (b : Backfill α) (budget : Budget) (os : List (OpenSession α)) (pool : List (Ticket α)),
      ∃ fs, b.Accounts (b.run budget os pool) (sortBy OpenSession.rank os) pool fs ∧
        ∀ g ∈ fs, g.after.session.createdAt = g.before.session.createdAt ∧
          (g.after.session.createdAt.IsEarliest
              (g.before.session.createdAt :: g.joined.map (·.createdAt)) ↔
            ∀ t ∈ g.joined, g.before.session.createdAt ≤ t.createdAt) := by
  refine ⟨fun _ s hs => (forms_of_mem_run hid hs).isEarliest hid, fun b budget os pool => ?_⟩
  obtain ⟨fs, haccounts, _⟩ := b.run_accounts budget os pool
  exact ⟨fs, haccounts, fun g _ => ⟨g.gains.createdAt, g.isEarliest_iff⟩⟩

/-! ### Challengers -/

/-- The ticket of a player of a duel who has waited for some seconds. -/
def challenger (id : String) (priority : Int) (seconds : Nat) : Ticket Float :=
  { duelist id [] with priority := priority, createdAt := .ofNanos (-(seconds * Instant.second)) }

/-- The one who is served first has not waited longest. -/
theorem challenge_waits_since_oldest :
    Ticket.Distinct [challenger "a" 1 10, challenger "b" 0 60] ∧
      ∃ s ∈ (duel.run .unlimited [challenger "a" 1 10, challenger "b" 0 60]).sessions,
        s.ticketIds = ["a", "b"] ∧ s.createdAt = (challenger "b" 0 60).createdAt ∧
        s.createdAt.IsEarliest
          ((s.ticketsIn [challenger "a" 1 10, challenger "b" 0 60]).map (·.createdAt)) := by
  have hid : Ticket.Distinct [challenger "a" 1 10, challenger "b" 0 60] := by decide
  obtain ⟨s, hs, hids, htime⟩ :
      ∃ s ∈ (duel.run .unlimited [challenger "a" 1 10, challenger "b" 0 60]).sessions,
        s.ticketIds = ["a", "b"] ∧ s.createdAt = (challenger "b" 0 60).createdAt := by
    rw [run_unlimited_sessions (by decide) (by decide +kernel) (by decide +kernel)]
    decide +kernel
  exact ⟨hid, s, hs, hids, htime, (waits_since_oldest duel hid).1 .unlimited s hs⟩

/-- A player waits for an opponent. -/
def openChallenge : OpenSession Float where
  ticketId := "open"
  session := { duel.soloSession (challenger "a" 1 10) with
    id := "m"
    status := .forming
    joinable := true }

/-- The opponent who comes has waited longer. -/
theorem challenge_keeps_time : Backfill.duelFilling.rules.fault? = none ∧
    ∃ o ∈ (Backfill.duelFilling.run .unlimited [openChallenge] [challenger "b" 0 60]).sessions,
      o.session.ticketIds = ["a", "b"] ∧
      ¬ o.session.createdAt.IsEarliest
        [openChallenge.session.createdAt, (challenger "b" 0 60).createdAt] := by
  exact ⟨by decide +kernel, by decide +kernel⟩

end Formation

end Matchmaking
