import Matchmaking.Proofs.Backfill.Conservation

/-!
# How full sessions get

A session is filled within the bounds that are in force for its age in its mode. It
may have begun under others, so these bound what is added and not what is there
(`Session.StaysWithin`): one ticket keeps to them by the place that it gets
(`Backfill.staysWithin_add`), and so does a filling, one ticket after the other
(`Backfill.Fills.staysWithin`). The stage that a session ends at says whether it is full
under these bounds, and nobody joins it once it is (`Backfill.Settles`).
-/

namespace Matchmaking

variable {α : Type}

namespace Session

/-- What is added to a session stays within bounds: there are no more teams than these
    allow or there were, no team got larger than they allow or it was, and no new team is
    larger than they allow. -/
structure StaysWithin (b : Bounds) (s s' : Session α) : Prop where
  teams : s'.alliances.length ≤ max s.alliances.length b.maxTeams
  old : ∀ {i : Nat} {a : Alliance α}, s.alliances[i]? = some a →
    ∃ a', s'.alliances[i]? = some a' ∧ a'.players ≤ max a.players b.maxSize
  new : ∀ {i : Nat} {a' : Alliance α}, s.alliances.length ≤ i → s'.alliances[i]? = some a' →
    a'.players ≤ b.maxSize

namespace StaysWithin

variable {b : Bounds} {s s' s'' : Session α}

theorem of_alliances_eq (h : s'.alliances = s.alliances) : s.StaysWithin b s' where
  teams := h ▸ Nat.le_max_left _ _
  old := fun {_ a} ha => ⟨a, h ▸ ha, Nat.le_max_left _ _⟩
  new := fun {i a'} hi ha' => by
    rw [h, List.getElem?_eq_none hi] at ha'
    cases ha'

theorem trans (h : s.StaysWithin b s') (h' : s'.StaysWithin b s'') : s.StaysWithin b s'' where
  teams := by
    have := h.teams
    have := h'.teams
    omega
  old := fun ha => by
    obtain ⟨a', ha', hsize⟩ := h.old ha
    obtain ⟨a'', ha'', hsize'⟩ := h'.old ha'
    exact ⟨a'', ha'', by omega⟩
  new := fun {i a''} hi ha'' => by
    rcases Nat.lt_or_ge i s'.alliances.length with hlt | hge
    · -- The team was new when it was first seen, and got no larger than it may.
      have ha' := List.getElem?_eq_getElem hlt
      obtain ⟨_, heq, hsize⟩ := h'.old ha'
      obtain rfl := Option.some_inj.1 (ha''.symm.trans heq)
      have := h.new hi ha'
      omega
    · exact h'.new hge ha''

end StaysWithin

end Session

namespace Alliance

@[simp] theorem players_addParty (a : Alliance α) (p : Party α) :
    (a.addParty p).players = a.players + p.players := by
  simp [players, addParty]

@[simp] theorem players_new (teamId : String) : (new teamId : Alliance α).players = 0 := rfl

end Alliance

/-- A party has the players of its ticket, whatever roles these take. -/
@[simp] theorem Party.players_assignRoles (roles : Dict String) (t : Ticket α) :
    ((Party.ofTicket t).assignRoles roles).players = t.players :=
  List.length_map _

namespace Backfill

variable [Scalar α]

section Fillings

variable {rules : RuleSet α} {s s' : Session α} {t : Ticket α} {ts : List (Ticket α)}
  {p : Placement}

theorem staysWithin_joined (h : place? rules t s = some p) :
    s.StaysWithin rules.alliance.bounds (joined s t p) := by
  rcases place?_cases h with ⟨i, a, hteam, ha, hroom, _⟩ | ⟨hteam, hteams, hsize⟩
  · -- The team at place `i` grows, and nothing else changes.
    simp only [joined, hteam]
    refine ⟨?_, fun {j a₀} ha₀ => ?_, fun {j a'} hj ha' => ?_⟩
    · rw [Session.addParty, List.length_modify]
      exact Nat.le_max_left _ _
    · refine ⟨_, (List.getElem?_modify ..).trans (congrArg (_ <$> ·) ha₀), ?_⟩
      split_ifs with hij
      · obtain rfl : a = a₀ := Option.some_inj.1 (ha.symm.trans (hij ▸ ha₀))
        rw [Alliance.players_addParty, Party.players_assignRoles]
        exact Nat.le_trans hroom (Nat.le_max_right _ _)
      · exact Nat.le_max_left _ _
    · rw [Session.addParty, List.getElem?_eq_none (by simpa using hj)] at ha'
      cases ha'
  · simp only [joined, hteam]
    refine ⟨?_, fun {j a₀} ha₀ => ?_, fun {j a'} hj ha' => ?_⟩
    · rw [Session.addAlliance, List.length_append, List.length_singleton]
      exact Nat.le_trans hteams (Nat.le_max_right _ _)
    · obtain ⟨hlt, _⟩ := List.getElem?_eq_some_iff.1 ha₀
      exact ⟨a₀, (List.getElem?_append_left hlt).trans ha₀, Nat.le_max_left _ _⟩
    · rw [Session.addAlliance, List.getElem?_append_right hj] at ha'
      obtain rfl := List.mem_singleton.1 (List.mem_of_getElem? ha')
      simpa using hsize

theorem staysWithin_add (h : place? rules t s = some p) :
    s.StaysWithin rules.alliance.bounds (add rules s t p) :=
  (staysWithin_joined h).trans (.of_alliances_eq rfl)

theorem Fills.staysWithin (h : Fills rules s ts s') :
    s.StaysWithin rules.alliance.bounds s' := by
  induction h with
  | done s => exact .of_alliances_eq rfl
  | join hp _ ih =>
    exact ((staysWithin_add hp).trans (.of_alliances_eq (Session.refresh_alliances _ _ _))).trans ih

/-- Whoever joins a session joins it at a time when it is not full, where it has a place. -/
theorem FillsOpen.exists_join (h : FillsOpen rules s ts s') {us vs : List (Ticket α)}
    (hts : ts = us ++ t :: vs) :
    ∃ m p, Fills rules s us m ∧ m.isSatisfied rules.alliance.bounds = false ∧
      place? rules t m = some p ∧
      FillsOpen rules ((add rules m t p).refresh rules.alliance.bounds true) vs s' := by
  induction h generalizing us with
  | done s => exact absurd hts (by simp)
  | @join s s' u ts p hopen hp h ih =>
    cases us with
    | nil =>
      obtain ⟨rfl, rfl⟩ := List.cons.inj hts
      exact ⟨s, p, .done s, hopen, hp, h⟩
    | cons u' us =>
      obtain ⟨rfl, hrest⟩ := List.cons.inj hts
      obtain ⟨m, q, hfills, hm⟩ := ih hrest
      exact ⟨m, q, .join hp hfills, hm⟩

/-- A session that gained a ticket and is not full is updated. -/
theorem FillsOpen.status (h : FillsOpen rules s ts s') (hts : ts ≠ [])
    (hopen : s'.isSatisfied rules.alliance.bounds = false) : s'.status = .updated := by
  induction h with
  | done s => exact absurd rfl hts
  | @join s s' t ts p _ _ h ih =>
    cases h with
    | done =>
      rw [Session.status_refresh_gained, ← Session.isSatisfied_refresh, hopen]
      rfl
    | join hopen' hp' h' => exact ih (List.cons_ne_nil _ _) hopen

end Fillings

/-- The bounds in force for a session, by its age and its mode. -/
def bounds (b : Backfill α) (s : Session α) : Bounds :=
  (b.rules.allianceAt s.createdAt b.now s.mode).1.bounds

/-- A session was filled within the bounds in force for it, and is at its proper stage:
    closed if it is full, updated if it is not but gained a ticket. Before each ticket it
    was not full. -/
structure Settles (b : Backfill α) (f : Filling α) : Prop where
  within : f.before.session.StaysWithin (b.bounds f.before.session) f.after.session
  full : f.after.session.isSatisfied (b.bounds f.before.session) = true →
    f.after.session.status = .satisfied ∧ f.after.session.joinable = false
  room : f.after.session.isSatisfied (b.bounds f.before.session) = false →
    f.after.session.status = if f.joined.isEmpty then f.before.session.status else .updated
  before : ∀ {ts us : List (Ticket α)} {t : Ticket α}, f.joined = ts ++ t :: us →
    ∃ m, Fills (b.activeRules f.before.session) f.before.session ts m ∧
      m.isSatisfied (b.bounds f.before.session) = false

variable {b : Backfill α}

theorem Attended.settles {pool : List (Ticket α)} {f : Filling α} (h : b.Attended pool f) :
    b.Settles f := by
  obtain ⟨queue, left, _, hattends⟩ := h
  obtain ⟨m, hfills, hafter⟩ := hattends.fills
  have hsatisfied : ∀ {x : Bool}, f.after.session.isSatisfied (b.bounds f.before.session) = x →
      m.isSatisfied (b.activeRules f.before.session).alliance.bounds = x := by
    rintro x rfl
    rw [hafter]
    exact (Session.isSatisfied_refresh _ _ _ _).symm
  refine ⟨?_, fun hfull => ?_, fun hroom => ?_, fun {ts us t} hts => ?_⟩
  · exact hfills.fills.staysWithin.trans
      (.of_alliances_eq (by rw [hafter, Session.refresh_alliances]))
  · rw [hafter, Session.refresh, hsatisfied hfull]
    exact ⟨rfl, rfl⟩
  · rw [hafter, Session.refresh_of_open (hsatisfied hroom)]
    cases hjoined : f.joined with
    | nil =>
      rw [hjoined] at hfills
      cases hfills
      rfl
    | cons t ts => exact hfills.status (hjoined ▸ List.cons_ne_nil t ts) (hsatisfied hroom)
  · obtain ⟨m, _, hbefore, hopen, _⟩ := hfills.exists_join hts
    exact ⟨m, hbefore, hopen⟩

/-- The sessions that are counted as full now are those with a proposal at that stage. -/
theorem satisfied_sessions (b : Backfill α) (time : Budget) (os : List (OpenSession α))
    (pool : List (Ticket α)) :
    (b.sessions time os pool).satisfied =
      (b.sessions time os pool).proposals.countP fun p => p.status = .satisfied := by
  induction os generalizing time pool with
  | nil => rfl
  | cons o os ih =>
    rw [sessions]
    split
    · rfl
    · rename_i time' _
      rcases b.session time' o.session pool with ⟨s, added, left, time'', late⟩
      dsimp only
      split_ifs with hnobody hfull
      · exact ih time'' left
      · simp [proposal, hfull, ih]
      · simp [proposal, hfull, ih]

/-- Where there is time for all, every session is filled within the bounds in force for
    it and ends at its proper stage, and the run counts the proposals for sessions that are
    full. -/
theorem run_settles (b : Backfill α) (os : List (OpenSession α)) (pool : List (Ticket α)) :
    ∃ fs, b.Accounts (b.run .unlimited os pool) (sortBy OpenSession.rank os) pool fs ∧
      (∀ f ∈ fs, b.Settles f) ∧
      (b.run .unlimited os pool).satisfied =
        (b.run .unlimited os pool).proposals.countP fun p => p.status = .satisfied := by
  obtain ⟨fs, haccounts, hattended⟩ := b.run_accounts .unlimited os pool
  refine ⟨fs, haccounts, fun f hf => ?_, b.satisfied_sessions .unlimited _ pool⟩
  rcases hattended f hf with h | ⟨htime, _⟩
  · exact h.settles
  · exact absurd rfl htime

end Backfill

end Matchmaking
