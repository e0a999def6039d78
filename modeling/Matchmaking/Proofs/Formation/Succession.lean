import Matchmaking.Proofs.Formation.Loop
import Matchmaking.Proofs.Formation.Shape

/-!
# In which order sessions come

Every round is about the head of what is left of the queue, and what is left keeps its
order. So the pivots of the sessions are a part of the queue, in its order
(`Formation.rounds_leads`, `Formation.solos_leads`), and a session has no ticket that is
served before its pivot (`Session.founder?_isLE`). Seen from outside, sessions come in the
order of their founders (`Session.InTurn`), and a ticket that is served before a founder
has its place by then: in an earlier session, or among those that are left
(`Formation.run_in_turn`).
-/

namespace Matchmaking

variable {α : Type}

/-- Of tickets with ids of their own, each is served before the next. -/
theorem Ticket.pairwise_lt_of_sorted {ts : List (Ticket α)} (hid : (ts.map (·.id)).Nodup)
    (hsorted : ts.Pairwise fun t u => (rank t u).isLE = true) :
    ts.Pairwise fun t u => rank t u = .lt := by
  refine hsorted.imp₂ (fun t u hle hne => ?_) (List.pairwise_map.1 hid)
  cases hrank : rank t u with
  | lt => rfl
  | eq => exact absurd (id_eq_of_rank_eq hrank) hne
  | gt => rw [hrank] at hle; cases hle

/-- Nobody is served before a ticket that is served before it. -/
theorem Ticket.rank_ne_lt_of_isLE {t u : Ticket α} (h : (rank t u).isLE = true) :
    rank u t ≠ .lt := by
  have hswap : rank u t = (rank t u).swap := Std.OrientedCmp.eq_swap
  rw [hswap]
  cases hrank : rank t u with
  | lt => nofun
  | eq => nofun
  | gt => rw [hrank] at h; cases h

namespace Session

/-- Sessions come in the order in which their founders are served. -/
def InTurn (ts : List (Ticket α)) (ss : List (Session α)) : Prop :=
  ∃ founders : List (Ticket α), ss.map (·.founder? ts) = founders.map some ∧
    founders.Pairwise fun t u => Ticket.rank t u = .lt

theorem InTurn.of_isPrefix {ts : List (Ticket α)} {ss all : List (Session α)} (h : InTurn ts all)
    (hinitial : ss <+: all) : InTurn ts ss := by
  obtain ⟨founders, hfounders, hlt⟩ := h
  refine ⟨founders.take ss.length, ?_, hlt.sublist (List.take_sublist _ _)⟩
  rw [List.map_take, ← hfounders, ← List.map_take, ← List.prefix_iff_eq_take.1 hinitial]

/-- The founder of a session is served before that of a later one. -/
theorem InTurn.lt {ts : List (Ticket α)} {before after : List (Session α)} {s s' : Session α}
    (h : InTurn ts (before ++ s :: after)) (hs' : s' ∈ after) {t : Ticket α}
    (ht : s.founder? ts = some t) :
    ∃ t', s'.founder? ts = some t' ∧ Ticket.rank t t' = .lt := by
  obtain ⟨founders, hfounders, hlt⟩ := h
  rw [List.map_append, List.map_cons, ht, eq_comm, List.map_eq_append_iff] at hfounders
  obtain ⟨earlier, rest, rfl, _, hrest⟩ := hfounders
  obtain ⟨t, later, rfl, hfirst, hlater⟩ := List.map_eq_cons_iff.1 hrest
  obtain rfl := Option.some.inj hfirst
  have hmem : s'.founder? ts ∈ later.map some := hlater ▸ List.mem_map_of_mem hs'
  obtain ⟨t', ht', hsome⟩ := List.mem_map.1 hmem
  exact ⟨t', hsome.symm, List.rel_of_pairwise_cons (List.pairwise_append.1 hlt).2.1 ht'⟩

/-- No ticket of a session is served before its founder. -/
theorem founder?_isLE {s : Session α} {ts : List (Ticket α)} {t u : Ticket α}
    (ht : s.founder? ts = some t) (hu : u ∈ ts) (hs : u.id ∈ s.ticketIds) :
    (Ticket.rank t u).isLE = true := by
  obtain ⟨_, before, after, hqueue, hnone⟩ := List.find?_eq_some_iff_append.1 ht
  have hsorted := Ticket.pairwise_sortQueue ts
  rw [hqueue] at hsorted
  have hmem : u ∈ before ++ t :: after := hqueue ▸ (Ticket.sortQueue_perm ts).mem_iff.2 hu
  rcases List.mem_append.1 hmem with hbefore | hafter
  · exact absurd (List.contains_iff_mem.2 hs) (by simpa using hnone u hbefore)
  · rcases List.mem_cons.1 hafter with rfl | hafter
    · exact Std.ReflCmp.isLE_rfl
    · exact List.rel_of_pairwise_cons (List.pairwise_append.1 hsorted).2.1 hafter

end Session

namespace Formation

variable [Scalar α] {f : Formation α} {ts queue : List (Ticket α)} {s : Session α}
  {pivot : Ticket α}

/-- A session is led by a pivot: it seats the pivot, and others that come after it in the
    queue. -/
def Leads (queue : List (Ticket α)) (s : Session α) (pivot : Ticket α) : Prop :=
  ∃ rest teams, (pivot :: rest).Sublist queue ∧ s.Seats teams ∧
    teams.flatten ⊆ pivot :: rest ∧ pivot ∈ teams.flatten

theorem Leads.founder? (hid : (ts.map (·.id)).Nodup) (h : Leads (f.queue ts) s pivot) :
    ∃ t, s.founder? ts = some t ∧ t.unflexed = pivot.unflexed := by
  obtain ⟨rest, teams, hsub, hseats, hteams, hpivot⟩ := h
  exact founder?_eq_some hid hsub hseats hteams hpivot

/-! ## The pivots of a run -/

/-- Rounds take their pivots from the queue in order. -/
theorem rounds_leads {time : Budget} (hid : (queue.map (·.id)).Nodup) :
    ∀ whole, queue.Sublist whole → ∃ pivots : List (Ticket α), pivots.Sublist queue ∧
      List.Forall₂ (Leads whole) (f.rounds time queue).sessions pivots := by
  refine rounds_induction (f := f) time (motive := fun queue r => ∀ whole,
    queue.Sublist whole → ∃ pivots : List (Ticket α), pivots.Sublist queue ∧
      List.Forall₂ (Leads whole) r.sessions pivots) ?leave ?late ?broken ?drop ?emit hid
  case leave => exact fun _ _ _ _ => ⟨[], List.nil_sublist _, .nil⟩
  case late => exact fun _ _ _ _ => ⟨[], List.nil_sublist _, .nil⟩
  case broken => exact fun _ _ _ _ _ _ => ⟨[], List.nil_sublist _, .nil⟩
  case drop =>
    intro pivot rest _ _ _ _ ih whole hwhole
    obtain ⟨pivots, hpivots, hleads⟩ := ih whole ((List.sublist_cons_self _ _).trans hwhole)
    exact ⟨pivots, hpivots.cons pivot, hleads⟩
  case emit =>
    intro pivot rest s _ hid _ hs ih whole hwhole
    have hrest : (Ticket.without s.ticketIds rest).Sublist rest := Ticket.without_sublist _ _
    obtain ⟨pivots, hpivots, hleads⟩ :=
      ih whole ((hrest.trans (List.sublist_cons_self _ _)).trans hwhole)
    obtain ⟨teams, hseats, hsub, hpivot⟩ := sessionFor_seats hid hs
    exact ⟨pivot :: pivots, (hpivots.trans hrest).cons_cons pivot,
      .cons ⟨rest, teams, hwhole, hseats, hsub.subset, hpivot⟩ hleads⟩

/-- Tickets that are matches of their own are so in order. -/
theorem solos_leads (f : Formation α) (queue : List (Ticket α)) :
    ∀ whole, queue.Sublist whole → ∃ pivots : List (Ticket α), pivots.Sublist queue ∧
      List.Forall₂ (Leads whole) (f.solos queue).sessions pivots := by
  induction queue with
  | nil => exact fun whole _ => ⟨[], .slnil, .nil⟩
  | cons t queue ih =>
    intro whole hwhole
    obtain ⟨pivots, hpivots, hleads⟩ := ih whole ((List.sublist_cons_self _ _).trans hwhole)
    rw [solos]
    split_ifs
    · refine ⟨t :: pivots, hpivots.cons_cons t, .cons ⟨queue, [[t]], hwhole, rfl, ?_, ?_⟩ hleads⟩
      · exact fun u hu => List.mem_singleton.1 hu ▸ List.mem_cons_self
      · exact List.mem_singleton_self t
    · exact ⟨pivots, hpivots.cons t, hleads⟩

theorem run_leads (f : Formation α) (budget : Budget) (hid : (ts.map (·.id)).Nodup) :
    ∃ pivots : List (Ticket α), pivots.Sublist (f.queue ts) ∧
      List.Forall₂ (Leads (f.queue ts)) (f.run budget ts).sessions pivots := by
  show ∃ pivots : List (Ticket α), pivots.Sublist (f.queue ts) ∧
    List.Forall₂ (Leads (f.queue ts)) (f.form budget (f.rules.flexRoles f.now ts)).sessions pivots
  rcases f.form_cases budget (f.rules.flexRoles f.now ts) with ⟨-, h⟩ | ⟨-, -, h⟩ | ⟨-, -, h⟩
  · exact h ▸ f.solos_leads _ _ (.refl _)
  · rw [h]
    exact ⟨[], List.nil_sublist _, .nil⟩
  · exact h ▸ rounds_leads (queue_nodup hid) _ (.refl _)

/-- Sessions that are led by a part of the queue, in its order, are founded in that order. -/
theorem inTurn_of_leads (hid : (ts.map (·.id)).Nodup) {ss : List (Session α)}
    {pivots : List (Ticket α)} (hpivots : pivots.Sublist (f.queue ts))
    (h : List.Forall₂ (Leads (f.queue ts)) ss pivots) : Session.InTurn ts ss := by
  have hlt : pivots.Pairwise fun t u => Ticket.rank t u = .lt :=
    (Ticket.pairwise_lt_of_sorted (queue_nodup hid) (Ticket.pairwise_sortQueue _)).sublist hpivots
  have hfounders : ∃ founders : List (Ticket α), ss.map (·.founder? ts) = founders.map some ∧
      founders.map Ticket.unflexed = pivots.map Ticket.unflexed := by
    clear hpivots hlt
    induction h with
    | nil => exact ⟨[], rfl, rfl⟩
    | cons hs _ ih =>
      obtain ⟨founders, hfounders, hsame⟩ := ih
      obtain ⟨t, ht, hpivot⟩ := hs.founder? hid
      refine ⟨t :: founders, ?_, ?_⟩
      · rw [List.map_cons, ht, hfounders, List.map_cons]
      · rw [List.map_cons, hpivot, hsame, List.map_cons]
  -- Roles are no matter of who is served first.
  obtain ⟨founders, hfounders, hsame⟩ := hfounders
  refine ⟨founders, hfounders, ?_⟩
  have hunflexed : (pivots.map Ticket.unflexed).Pairwise fun t u => Ticket.rank t u = .lt :=
    List.pairwise_map.2 hlt
  rw [← hsame] at hunflexed
  exact List.pairwise_map.1 hunflexed

/-! ## The order of the sessions -/

/-- The sessions of a run, and those that a loop has formed after some turns, come in the
    order of their founders. Given time, a ticket that is served before the founder of a
    session is in an earlier session or is left. -/
structure InTurn (f : Formation α) (ts : List (Ticket α)) : Prop where
  run : ∀ budget, Session.InTurn ts (f.run budget ts).sessions
  loop : f.isSinglePlayer = false → ∀ budget n,
    Session.InTurn ts (f.after budget ts n).formed.sessions
  passed : ∀ {before after : List (Session α)} {s : Session α} {t u : Ticket α},
    (f.run .unlimited ts).sessions = before ++ s :: after → s.founder? ts = some t →
    u ∈ ts → Ticket.rank u t = .lt →
    (∃ s' ∈ before, u.id ∈ s'.ticketIds) ∨
      ∃ v ∈ (f.run .unlimited ts).unmatched, v.unflexed = u.unflexed

/-- A ticket of a run is in a session or is left. -/
theorem mem_session_or_unmatched (f : Formation α) (budget : Budget) (hid : (ts.map (·.id)).Nodup)
    {u : Ticket α} (hu : u ∈ ts) :
    (∃ s ∈ (f.run budget ts).sessions, u.id ∈ s.ticketIds) ∨
      ∃ v ∈ (f.run budget ts).unmatched, v.unflexed = u.unflexed := by
  have haccounts := f.run_accounts budget hid
  have hids := haccounts.ids_perm.trans (f.queue_ids_perm ts)
  rcases List.mem_append.1 (hids.mem_iff.2 (List.mem_map_of_mem hu)) with hmem | hmem
  · exact .inl (List.mem_flatMap.1 hmem)
  · obtain ⟨v, hv, hvu⟩ := List.mem_map.1 hmem
    exact .inr ⟨v, hv, unflexed_eq_of_id_eq hid (haccounts.unmatched_subset hv) hu hvu⟩

theorem run_in_turn (f : Formation α) (hid : (ts.map (·.id)).Nodup) : f.InTurn ts := by
  have hrun : ∀ budget, Session.InTurn ts (f.run budget ts).sessions := fun budget => by
    obtain ⟨pivots, hpivots, hleads⟩ := f.run_leads budget hid
    exact inTurn_of_leads hid hpivots hleads
  refine ⟨hrun, fun hf budget n => ?_, ?_⟩
  · exact (hrun budget).of_isPrefix (f.sessions_after budget hid hf n)
  · intro before after s t u hsessions ht hu hlt
    rcases f.mem_session_or_unmatched .unlimited hid hu with ⟨s', hs', hus'⟩ | hleft
    · rw [hsessions] at hs'
      rcases List.mem_append.1 hs' with hbefore | hlater
      · exact .inl ⟨s', hbefore, hus'⟩
      · -- The session and those after it have no ticket that is served before its founder.
        exfalso
        rcases List.mem_cons.1 hlater with rfl | hafter
        · exact Ticket.rank_ne_lt_of_isLE (Session.founder?_isLE ht hu hus') hlt
        · obtain ⟨t', ht', htt'⟩ := (hsessions ▸ hrun .unlimited).lt hafter ht
          have hle : (Ticket.rank t t').isLE = true := by rw [htt']; rfl
          exact Ticket.rank_ne_lt_of_isLE
            (Std.TransCmp.isLE_trans hle (Session.founder?_isLE ht' hu hus')) hlt
    · exact .inr hleft

/-- The player who blocks both others comes first, and is left by their session. -/
theorem duel_in_turn :
    let ts := [duelist "a" ["b", "c"], duelist "b" [], duelist "c" []]
    (ts.map (·.id)).Nodup ∧
      (duel.run .unlimited ts).sessions.map (·.ticketIds) = [["b", "c"]] ∧ duel.InTurn ts := by
  intro ts
  have hid : (ts.map (·.id)).Nodup := by decide
  refine ⟨hid, ?_, run_in_turn duel hid⟩
  rw [run_unlimited_sessions (by decide) (by decide +kernel) (by decide +kernel)]
  decide +kernel

end Formation

end Matchmaking
