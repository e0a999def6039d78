import Matchmaking.Proofs.Backfill.Growth

/-!
# The turns of open sessions

The clock is read before each ticket that was found for a session, and once time is spent
nobody joins it any more. What a placement can be is said once (`Backfill.place?_cases`),
and so is what a turn can be (`Backfill.Attends`): tickets that were found for a session
join it one after the other, each at a time when the session was not full
(`Backfill.FillsOpen`), and in the end the session is closed if it is full.

So a session gains tickets of the queue that have ids of tickets that were found for it, and
what it records is what was recorded, merged with theirs (`Backfill.Serves`).
-/

namespace Matchmaking

variable {α : Type}

/-! ## The stage of a session -/

namespace Session

/-- The stage of a session that gained a ticket. -/
theorem status_refresh_gained (s : Session α) (b : Bounds) :
    (s.refresh b true).status = if s.isSatisfied b then .satisfied else .updated := by
  rw [refresh]
  cases s.isSatisfied b <;> rfl

@[simp] theorem refresh_alliances (s : Session α) (b : Bounds) (gained : Bool) :
    (s.refresh b gained).alliances = s.alliances := by
  rw [refresh]
  split_ifs <;> rfl

/-- Whether a session is full is no matter of its stage. -/
@[simp] theorem isSatisfied_refresh (s : Session α) (b b' : Bounds) (gained : Bool) :
    (s.refresh b gained).isSatisfied b' = s.isSatisfied b' := by
  rw [isSatisfied, refresh_alliances, isSatisfied]

/-- A session that is not full is left as it is unless it gained a ticket. -/
theorem refresh_of_open {s : Session α} {b : Bounds} (h : s.isSatisfied b = false) :
    s.refresh b false = s := by
  rw [refresh, h]
  rfl

/-- A session at its proper stage is left as it is. -/
theorem refresh_refresh (s : Session α) (b : Bounds) (gained : Bool) :
    (s.refresh b gained).refresh b false = s.refresh b gained := by
  cases h : s.isSatisfied b with
  | false => exact refresh_of_open ((s.isSatisfied_refresh b b gained).trans h)
  | true =>
    have hclosed : s.refresh b gained = { s with status := .satisfied, joinable := false } :=
      if_pos h
    rw [hclosed]
    exact if_pos h

end Session

namespace Backfill

variable [Scalar α]

/-! ## Placements -/

section Placements

variable {b : Backfill α} {rules : RuleSet α} {s s' : Session α} {t : Ticket α} {p : Placement}

/-- Where a ticket joins a session there is room for it: in a team that nobody keeps it
    away from, or in a new team that there may be. -/
theorem place?_cases (h : place? rules t s = some p) :
    (∃ i a, p.team = some i ∧ s.alliances[i]? = some a ∧
      a.players + t.players ≤ rules.alliance.bounds.maxSize ∧
      (rules.blockPolicy = .otherTeam →
        a.blocked.disjoint t.userIds = true ∧ t.blocked.disjoint a.userIds = true)) ∨
    (p.team = none ∧ s.alliances.length < rules.alliance.bounds.maxTeams ∧
      t.players ≤ rules.alliance.bounds.maxSize) := by
  rcases placeIn?_or_placeNew?_of_place? h with ⟨i, a, ha, hp⟩ | hp
  · have hteam := placeIn?_team hp
    simp only [placeIn?] at hp
    split_ifs at hp with hsize hblocked
    refine .inl ⟨i, a, hteam, ha, Nat.le_of_not_lt hsize, fun hpolicy => ?_⟩
    simpa [hpolicy] using hblocked
  · have hteam := placeNew?_team hp
    simp only [placeNew?] at hp
    split_ifs at hp with hroom
    exact .inr ⟨hteam, hroom⟩

end Placements

/-! ## Turns -/

/-- Tickets join a session one after the other, each where it has a place, and none when
    the session is full. -/
inductive FillsOpen (rules : RuleSet α) : Session α → List (Ticket α) → Session α → Prop
  | done (s : Session α) : FillsOpen rules s [] s
  | join {s s' : Session α} {t : Ticket α} {ts : List (Ticket α)} {p : Placement}
    (hopen : s.isSatisfied rules.alliance.bounds = false) (hp : place? rules t s = some p)
    (h : FillsOpen rules ((add rules s t p).refresh rules.alliance.bounds true) ts s') :
    FillsOpen rules s (t :: ts) s'

theorem FillsOpen.fills {rules : RuleSet α} {s s' : Session α} {ts : List (Ticket α)}
    (h : FillsOpen rules s ts s') : Fills rules s ts s' := by
  induction h with
  | done s => exact .done s
  | join _ hp _ ih => exact .join hp ih

/-- Ids are taken from a queue in turn as long as there is time: the tickets that join
    the session are listed by theirs, and leave the queue. -/
theorem fill_fills (rules : RuleSet α) (time : Budget) (ids : List String) {s : Session α}
    (pool : List (Ticket α)) (hopen : s.isSatisfied rules.alliance.bounds = false) :
    ∃ ts, FillsOpen rules s ts (fill rules time ids s pool).session ∧
      (fill rules time ids s pool).session.refresh rules.alliance.bounds false =
        (fill rules time ids s pool).session ∧
      (fill rules time ids s pool).added = ts.map (·.id) ∧ (ts.map (·.id)).Sublist ids ∧
      (ts ++ (fill rules time ids s pool).left).Perm pool := by
  induction ids generalizing time s pool with
  | nil =>
    rw [fill]
    exact ⟨[], .done s, Session.refresh_of_open hopen, rfl, .slnil, .refl _⟩
  | cons id ids ih =>
    rw [fill]
    split
    · exact ⟨[], .done s, Session.refresh_of_open hopen, rfl, List.nil_sublist _, .refl _⟩
    · rename_i time' _
      split
      · obtain ⟨ts, hfills, hstage, hadded, hids, hperm⟩ := ih time' pool hopen
        exact ⟨ts, hfills, hstage, hadded, hids.cons id, hperm⟩
      · rename_i t rest htake
        obtain ⟨rfl, hrest⟩ := takeTicket?_eq_some htake
        split
        · obtain ⟨ts, hfills, hstage, hadded, hids, hperm⟩ := ih time' pool hopen
          exact ⟨ts, hfills, hstage, hadded, hids.cons t.id, hperm⟩
        · rename_i p hp
          dsimp only
          split_ifs with hfull
          · exact ⟨[t], .join hopen hp (.done _), Session.refresh_refresh _ _ _, rfl,
              (List.nil_sublist ids).cons_cons t.id, hrest⟩
          · have hopen' : ((add rules s t p).refresh rules.alliance.bounds true).isSatisfied
                rules.alliance.bounds = false := by
              rw [Session.isSatisfied_refresh]
              rw [Session.status_refresh_gained] at hfull
              simpa using hfull
            obtain ⟨ts, hfills, hstage, hadded, hids, hperm⟩ := ih time' rest hopen'
            exact ⟨t :: ts, .join hopen hp hfills, hstage, congrArg (t.id :: ·) hadded,
              hids.cons_cons t.id, (hperm.cons t).trans hrest⟩

/-- Time that is never spent is not spent by a filling. -/
theorem fill_time (rules : RuleSet α) (ids : List String) (s : Session α)
    (pool : List (Ticket α)) : (fill rules .unlimited ids s pool).time = .unlimited := by
  induction ids generalizing s pool with
  | nil => rw [fill]
  | cons id ids ih =>
    rw [fill]
    simp only [Budget.read?]
    cases takeTicket? id pool with
    | none => exact ih s pool
    | some found =>
      dsimp only
      cases place? rules found.1 s with
      | none => exact ih s pool
      | some p =>
        dsimp only
        split_ifs
        · rfl
        · exact ih _ _

variable (b : Backfill α)

theorem session_time (s : Session α) (pool : List (Ticket α)) :
    (b.session .unlimited s pool).time = .unlimited := by
  simp only [session]
  split_ifs
  · rfl
  · exact fill_time _ _ _ _

/-- A turn of a session: tickets of a queue that were found for it join it while it is not
    full, and then it is closed if it is full. -/
structure Attends (s : Session α) (pool : List (Ticket α)) (s' : Session α)
    (ts left : List (Ticket α)) : Prop where
  fills : ∃ m, FillsOpen (b.activeRules s) s ts m ∧
    s' = m.refresh (b.activeRules s).alliance.bounds false
  found : (ts.map (·.id)).Sublist (((b.search s).run pool).map (·.ticket.id))
  left_perm : (ts ++ left).Perm pool

theorem session_attends (time : Budget) (s : Session α) (pool : List (Ticket α)) :
    ∃ ts, (b.session time s pool).added = ts.map (·.id) ∧
      b.Attends s pool (b.session time s pool).session ts (b.session time s pool).left := by
  simp only [session]
  split_ifs with hfull
  · exact ⟨[], rfl, ⟨s, .done s, rfl⟩, List.nil_sublist _, .refl _⟩
  · obtain ⟨ts, hfills, hstage, hadded, hids, hperm⟩ := fill_fills (b.activeRules s) time
      (((b.search s).run pool).map (·.ticket.id)) pool (Bool.eq_false_iff.2 hfull)
    exact ⟨ts, hadded, ⟨_, hfills, hstage.symm⟩, hids, hperm⟩

/-- What becomes of a session and of a queue: tickets that were found for the
    session leave the queue and join it. -/
structure Serves (s : Session α) (pool : List (Ticket α)) (s' : Session α)
    (ts left : List (Ticket α)) : Prop where
  gains : s.Gains s' ts
  records : ∀ {us : List (Ticket α)}, b.rules.Records s.attributes us →
    b.rules.Records s'.attributes (us ++ ts)
  found : (ts.map (·.id)).Sublist (((b.search s).run pool).map (·.ticket.id))
  left_perm : (ts ++ left).Perm pool

variable {b} {s s' : Session α} {pool ts left : List (Ticket α)}

theorem Attends.serves (h : b.Attends s pool s' ts left) : b.Serves s pool s' ts left := by
  obtain ⟨m, hfills, rfl⟩ := h.fills
  refine ⟨?_, fun hus => ?_, h.found, h.left_perm⟩
  · exact List.append_nil ts ▸ hfills.fills.gains.trans (m.gains_refresh _ _)
  · -- The rules in force have the options of the rules.
    have hactive : (b.activeRules s).Records s.attributes _ := hus.congr rfl
    rw [Session.refresh_attributes]
    exact (hfills.fills.records hactive).congr rfl

/-- A session without a turn is served nobody. -/
theorem serves_nobody (b : Backfill α) (s : Session α) (pool : List (Ticket α)) :
    b.Serves s pool s [] pool :=
  ⟨.refl s, fun hus => by rwa [List.append_nil], List.nil_sublist _, .refl _⟩

end Backfill

end Matchmaking
