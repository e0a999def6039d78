import Matchmaking.Proofs.Formation.EarlyStop
import Matchmaking.Proofs.Formation.Listing
import Matchmaking.Proofs.Formation.ReadyTeams
import Matchmaking.Proofs.Independence

/-!
# Nobody is left who could play

Where two players meet, one against one (`Formation.IsDuel`), no two tickets are left
of which the later one fits the earlier one: when the earlier one was the pivot, the
later one was there, and a pivot is dropped only if nobody fits it. For as soon as
somebody fits, there is a match: the first candidate may have been one of many, and
kept others out, but it and the pivot are two teams that are ready
(`Formation.attempt?_isSome`).

What fits is decided for every region that the earlier ticket tries. How queues
shrink is no matter: what is left at the end is in order, and was left in every round
before.
-/

namespace Matchmaking

variable {α : Type} [Scalar α]

namespace Search

variable {s : Search α} {c : Collection} {ts : List (Ticket α)}

/-- If nothing is accepted, nothing fits what there was at first. -/
theorem refused_of_accept_eq_nil (h : (s.accept c ts).1 = []) :
    ∀ t ∈ ts, ∃ r, s.evaluate c t = .error r := by
  induction ts with
  | nil => exact List.forall_mem_nil _
  | cons t ts ih =>
    rw [accept] at h
    cases ht : s.evaluate c t with
    | error r =>
      rw [ht] at h
      exact List.forall_mem_cons.2 ⟨⟨r, ht⟩, ih h⟩
    | ok found =>
      rw [ht] at h
      cases h

/-- If nothing is found, nothing fits the pivot. -/
theorem refused_of_run_eq_nil (h : s.run ts = []) :
    ∀ t ∈ ts, ∃ r, s.evaluate s.start t = .error r := by
  have hperm : (s.run ts).Perm (s.accept s.start ts).1 := sortBy_perm _ _
  rw [h] at hperm
  exact refused_of_accept_eq_nil (List.nil_perm.1 hperm)

/-- What is accepted fits what there was at first. -/
theorem fits_of_mem_accept {t : Ticket α} (ht : t ∈ (s.accept c ts).1.map (·.ticket)) :
    s.Fits c t := by
  induction ts generalizing c with
  | nil => cases ht
  | cons u us ih =>
    rw [accept] at ht
    cases hu : s.evaluate c u with
    | error r =>
      rw [hu] at ht
      exact ih ht
    | ok found =>
      simp only [hu, List.map_cons, ticket_of_evaluate hu] at ht
      have hfits : s.Fits c u := (evaluate_eq_ok_iff.1 hu).1
      rcases List.mem_cons.1 ht with rfl | ht
      · exact hfits
      · exact hfits.shares.of_collect (ih ht)

theorem fits_of_mem_run {t : Ticket α} (ht : t ∈ (s.run ts).map (·.ticket)) : s.Fits s.start t :=
  fits_of_mem_accept ((s.run_perm_accept ts).mem_iff.1 ht)

end Search

/-- A ticket is that of a single player, who does not block themselves. -/
structure Ticket.Lone (t : Ticket α) : Prop where
  players : t.players = 1
  blocked : ∀ x ∈ t.userIds, x ∉ t.blocked

theorem Ticket.Lone.congr {t u : Ticket α} (h : u.Lone) (htu : t.unflexed = u.unflexed) :
    t.Lone where
  players := by
    have := congrArg (·.members.length) htu
    simp only [unflexed, List.length_map] at this
    exact this.trans h.players
  blocked := by
    rw [userIds_congr htu, blocked_congr htu]
    exact h.blocked

theorem AllianceRule.roleMode_eq_normal {a : AllianceRule} (h : a.hasRoles = false) :
    a.roleMode = .normal := by
  rw [hasRoles] at h
  rw [roleMode]
  split
  · rename_i c hc
    have hactive : c.active = false := by simpa [hc] using h
    rw [hactive]
    rfl
  · rfl

/-- Two tickets of single players who may meet are two teams of one. -/
theorem BlockPolicy.admits_pair {policy : BlockPolicy} {t u : Ticket α} (ht : t.Lone) (hu : u.Lone)
    (h : policy = .cannotMatch →
      (∀ x ∈ u.blocked, x ∉ t.userIds) ∧ ∀ x ∈ t.blocked, x ∉ u.userIds) :
    policy.Admits ([[t], [u]].map TeamSummary.ofTickets) := by
  have husers (t : Ticket α) {x : String} :
      x ∈ (TeamSummary.ofTickets [t]).userIds ↔ x ∈ t.userIds := by
    simp [TeamSummary.mem_userIds_ofTickets]
  have hblocked (t : Ticket α) {x : String} :
      x ∈ (TeamSummary.ofTickets [t]).blocked ↔ x ∈ t.blocked := by
    simp [TeamSummary.mem_blocked_ofTickets]
  cases policy with
  | canMatch => trivial
  | otherTeam =>
    simp only [Admits, List.map_cons, List.map_nil, List.forall_mem_cons, husers, hblocked]
    exact ⟨ht.blocked, hu.blocked, List.forall_mem_nil _⟩
  | cannotMatch =>
    obtain ⟨hut, htu⟩ := h rfl
    simp only [Admits, List.map_cons, List.map_nil, List.forall_mem_cons, husers, hblocked]
    exact ⟨⟨ht.blocked, fun x hx hb => htu x hb hx, List.forall_mem_nil _⟩,
      ⟨fun x hx hb => hut x hb hx, hu.blocked, List.forall_mem_nil _⟩, List.forall_mem_nil _⟩

namespace Formation

variable {f : Formation α} {pivot : Ticket α} {rest : List (Ticket α)}

/-- Matches are of two players against each other, at any time. -/
structure IsDuel (f : Formation α) : Prop where
  bounds : f.rules.alliance.bounds = ⟨2, 2, 1, 1⟩
  roles : f.rules.alliance.hasRoles = false
  flexing : f.rules.allianceFlexing = []
  modes : f.rules.modes = ∅

namespace IsDuel

omit [Scalar α] in
theorem allianceAt (h : f.IsDuel) (pivot : Ticket α) :
    f.allianceAt pivot none = f.rules.alliance := by
  show (f.rules.alliance.flexedAt f.rules.allianceFlexing pivot.createdAt f.now).1 = _
  rw [h.flexing]
  rfl

theorem attempts (h : f.IsDuel) (pivot : Ticket α) :
    f.attempts pivot = (f.rules.regions pivot f.now).map fun region => ⟨none, region⟩ := by
  simp [Formation.attempts, modes_eq_of_empty h.modes]

omit [Scalar α] in
theorem allBounds (h : f.IsDuel) : f.rules.allBounds = [⟨2, 2, 1, 1⟩] := by
  rw [RuleSet.allBounds_eq h.flexing h.modes, h.bounds]

omit [Scalar α] in
theorem minPlayers (h : f.IsDuel) : f.rules.minPlayers = 2 := by
  rw [RuleSet.minPlayers, h.allBounds]
  rfl

/-- Duels are small enough for every search. -/
theorem not_breaksOff (h : f.IsDuel) {pool : List (Ticket α)} {e : Failure} :
    ¬f.BreaksOff pivot pool e := by
  intro hbreaks
  obtain ⟨b, hb, hnot⟩ := hbreaks.exists_bounds
  rw [h.allBounds] at hb
  rw [List.mem_singleton.1 hb] at hnot
  exact hnot (by decide)

omit [Scalar α] in
theorem isSinglePlayer (h : f.IsDuel) : f.isSinglePlayer = false := by
  rw [Formation.isSinglePlayer, h.bounds]
  rfl

end IsDuel

/-! ## Pivots that are dropped -/

/-- Where somebody fits a pivot there is a match. -/
theorem attempt?_isSome (hf : f.IsDuel) (hid : ((pivot :: rest).map (·.id)).Nodup)
    (hlone : ∀ t ∈ pivot :: rest, t.Lone) {region : Option String}
    (hfound : (f.search pivot ⟨none, region⟩).run rest ≠ []) :
    (f.attempt? pivot (pivot :: rest) ⟨none, region⟩).isSome = true := by
  obtain ⟨found, others, hrun⟩ := List.exists_cons_of_ne_nil hfound
  have hcandidates : f.candidates pivot ⟨none, region⟩ (pivot :: rest) =
      found.ticket :: others.map (·.ticket) := by
    rw [candidates, Ticket.without_cons_of_mem (List.mem_singleton_self _),
      Ticket.without_head hid, hrun, List.map_cons]
  have hmem : found.ticket ∈ ((f.search pivot ⟨none, region⟩).run rest).map (·.ticket) := by
    rw [hrun]
    exact List.mem_cons_self
  have hpivot : pivot.Lone := hlone _ List.mem_cons_self
  have hother : found.ticket.Lone := by
    have hrest := (Search.run_subperm (f.search pivot ⟨none, region⟩) rest).subset hmem
    exact hlone _ (List.mem_cons_of_mem _ hrest)
  have hmeet := (Search.fits_of_mem_run hmem).users
  have hready : (Assembler.of (f.allianceAt pivot none) f.rules.blockPolicy f.cap).packing.Ready
      [[pivot], [found.ticket]] := by
    rw [hf.allianceAt]
    refine ⟨AllianceRule.roleMode_eq_normal hf.roles, ?_, ?_, ?_, ?_, ?_, ?_⟩
    · simp [Assembler.of, hf.bounds]
    · simp [Assembler.of, hf.bounds]
    · simp [Assembler.of, hf.bounds]
    · simp [Assembler.of, hf.bounds, Ticket.totalPlayers, hpivot.players, hother.players]
    · simp [hpivot.players, hother.players]
    · exact BlockPolicy.admits_pair hpivot hother (Search.acceptsUsers_iff.1 hmeet)
  have hteams : pivot :: f.candidates pivot ⟨none, region⟩ (pivot :: rest) =
      [[pivot], [found.ticket]].flatten ++ others.map (·.ticket) :=
    congrArg (pivot :: ·) hcandidates
  obtain ⟨s, hs, _⟩ := attempt?_of_ready hid hready hteams (List.cons_ne_nil _ _)
  rw [hs]
  rfl

/-- A ticket does not fit another one in any region that the other one tries. -/
def Refuses (f : Formation α) (p q : Ticket α) : Prop :=
  ∀ region ∈ f.rules.regions p f.now,
    ∃ r, (f.search p ⟨none, region⟩).evaluate (f.search p ⟨none, region⟩).start q = .error r

/-- Nobody fits a pivot that has no match. -/
theorem refuses_of_sessionFor? (hf : f.IsDuel) (hid : ((pivot :: rest).map (·.id)).Nodup)
    (hlone : ∀ t ∈ pivot :: rest, t.Lone) (h : f.sessionFor? pivot (pivot :: rest) = none) :
    ∀ q ∈ rest, f.Refuses pivot q := by
  intro q hq region hregion
  have hattempt : (⟨none, region⟩ : Attempt) ∈ f.attempts pivot := by
    rw [hf.attempts]
    exact List.mem_map_of_mem hregion
  refine Search.refused_of_run_eq_nil ?_ q hq
  by_contra hfound
  have hsome := attempt?_isSome hf hid hlone hfound
  rw [List.findSome?_eq_none_iff.1 h _ hattempt] at hsome
  cases hsome

/-! ## Tickets that are left -/

/-- The tickets that rounds leave are some of the queue, in order, and none of them
    fits one before it. -/
theorem rounds_refuse (hf : f.IsDuel) {queue : List (Ticket α)} (hid : (queue.map (·.id)).Nodup)
    (hlone : ∀ t ∈ queue, t.Lone) :
    (f.rounds .unlimited queue).unmatched.Sublist queue ∧
      (f.rounds .unlimited queue).unmatched.Pairwise f.Refuses := by
  suffices (∀ t ∈ queue, t.Lone) → (f.rounds .unlimited queue).unmatched.Sublist queue ∧
      (f.rounds .unlimited queue).unmatched.Pairwise f.Refuses from this hlone
  refine rounds_induction (f := f) .unlimited (motive := fun queue r =>
    (∀ t ∈ queue, t.Lone) → r.unmatched.Sublist queue ∧ r.unmatched.Pairwise f.Refuses)
    ?leave ?late ?broken ?drop ?emit hid
  case leave =>
    intro queue hfew hlone
    refine ⟨.refl _, ?_⟩
    rcases queue with _ | ⟨t, _ | ⟨u, queue⟩⟩
    · exact .nil
    · exact List.pairwise_singleton _ _
    · -- Two tickets are two players at least.
      have hplayers := hfew.resolve_left (List.cons_ne_nil _ _)
      have ht := (hlone t (by simp)).players
      have hu := (hlone u (by simp)).players
      rw [hf.minPlayers, Ticket.totalPlayers, total_cons, total_cons, ht, hu] at hplayers
      omega
  case late => exact fun h => absurd rfl h
  case broken => exact fun _ _ _ hbreaks => absurd hbreaks hf.not_breaksOff
  case drop =>
    intro pivot rest _ hid _ hnone ih hlone
    obtain ⟨hsub, hrefuse⟩ := ih fun t ht => hlone t (List.mem_cons_of_mem _ ht)
    have hnone : f.sessionFor? pivot (pivot :: rest) = none :=
      hnone.elim (fun hfew => sessionFor?_eq_none_of_few (.inr hfew)) sessionFor?_of_ok
    have hpivot := refuses_of_sessionFor? hf hid hlone hnone
    exact ⟨hsub.cons_cons pivot, hrefuse.cons fun q hq => hpivot q (hsub.subset hq)⟩
  case emit =>
    intro pivot rest s _ _ _ _ ih hlone
    have hsub : (Ticket.without s.ticketIds rest).Sublist (pivot :: rest) :=
      (Ticket.without_sublist _ _).trans (List.sublist_cons_self _ _)
    obtain ⟨hleft, hrefuse⟩ := ih fun t ht => hlone t (hsub.subset ht)
    exact ⟨hleft.trans hsub, hrefuse⟩

/-- Of two tickets that a run of duels leaves, the later one does not fit the earlier
    one in any region that this one tries. -/
theorem run_leaves_no_pair (hf : f.IsDuel) {ts : List (Ticket α)} (hid : (ts.map (·.id)).Nodup)
    (hlone : ∀ t ∈ ts, t.Lone) {p q : Ticket α} (hp : p ∈ (f.run .unlimited ts).unmatched)
    (hq : q ∈ (f.run .unlimited ts).unmatched) (hpq : Ticket.rank p q = .lt) :
    ∀ region ∈ f.rules.regions p f.now,
      ∃ r, (f.search p ⟨none, region⟩).evaluate (f.search p ⟨none, region⟩).start q = .error r := by
  have hqueue : ∀ t ∈ f.queue ts, t.Lone := fun t ht => by
    obtain ⟨u, hu, htu⟩ := exists_of_mem_queue ht
    exact (hlone u hu).congr htu
  have hrun : (f.run .unlimited ts).unmatched = (f.rounds .unlimited (f.queue ts)).unmatched := by
    rw [run, form_unlimited hf.isSinglePlayer]
    rfl
  rw [hrun] at hp hq
  obtain ⟨hsub, hrefuse⟩ := rounds_refuse hf (queue_nodup hid) hqueue
  have hsorted := (Ticket.pairwise_sortQueue _).sublist hsub
  rw [List.pairwise_iff_getElem] at hrefuse hsorted
  obtain ⟨i, hi, rfl⟩ := List.getElem_of_mem hp
  obtain ⟨j, hj, rfl⟩ := List.getElem_of_mem hq
  rcases Nat.lt_trichotomy i j with hij | rfl | hji
  · exact hrefuse i j hi hj hij
  · exact Ordering.noConfusion (hpq.symm.trans Std.ReflCmp.compare_self)
  · -- The one that is served first stands first.
    have hle := hsorted j i hj hi hji
    rw [Std.OrientedCmp.gt_of_lt hpq] at hle
    cases hle

/-- Two players, the first of whom does not want to meet the second. -/
def rivals : List (Ticket Float) := [duelist "a" ["b"], duelist "b" []]

theorem duel_isDuel : duel.IsDuel := ⟨rfl, rfl, rfl, rfl⟩

theorem duel_leaves_rivals : (duel.run .unlimited rivals).unmatched = rivals := by
  have hsorted : Ticket.sortQueue rivals = rivals := Ticket.sortQueue_eq_self (by decide +kernel)
  rw [run, form_unlimited duel_isDuel.isSinglePlayer, RuleSet.flexRoles_eq_self (by decide), hsorted]
  show (duel.rounds .unlimited rivals).unmatched = rivals
  decide +kernel

theorem duel_leaves_no_pair : (duelist "a" ["b"]) ∈ (duel.run .unlimited rivals).unmatched ∧
    (duelist "b" []) ∈ (duel.run .unlimited rivals).unmatched ∧
    ∀ region ∈ duel.rules.regions (duelist "a" ["b"]) duel.now,
      ∃ r, (duel.search (duelist "a" ["b"]) ⟨none, region⟩).evaluate
        (duel.search (duelist "a" ["b"]) ⟨none, region⟩).start (duelist "b" []) = .error r := by
  have hlone : ∀ t ∈ rivals, t.Lone := by
    intro t ht
    rcases List.mem_cons.1 ht with rfl | ht
    · exact ⟨rfl, by decide⟩
    · rw [List.mem_singleton.1 ht]
      exact ⟨rfl, by decide⟩
  have ha : duelist "a" ["b"] ∈ (duel.run .unlimited rivals).unmatched := by
    rw [duel_leaves_rivals]
    exact List.mem_cons_self
  have hb : duelist "b" [] ∈ (duel.run .unlimited rivals).unmatched := by
    rw [duel_leaves_rivals]
    exact List.mem_cons_of_mem _ (List.mem_singleton_self _)
  exact ⟨ha, hb, run_leaves_no_pair duel_isDuel (by decide) hlone ha hb (by decide)⟩

end Formation

end Matchmaking
