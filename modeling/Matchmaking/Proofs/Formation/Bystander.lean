import Matchmaking.Proofs.Bystander
import Matchmaking.Proofs.Formation.EarlyStop
import Matchmaking.Proofs.Formation.Listing
import Matchmaking.Proofs.Oversize

/-!
# A ticket that fits no team

A ticket of more players than any team may have (`RuleSet.FitsNoTeam`) is in no session,
and if it becomes the pivot it is dropped. But the rounds of others see it: it may be
accepted and keep others out, its players may make it look as if there were enough for a
full match, and it makes for more orders, of which only so many are packed. Where it does
none of this (`Formation.Bystander`), a pivot finds the same match with it as without it
(`Formation.attempt?_bystander`), and so the rounds with it form the same sessions
(`Formation.idealRounds_bystander`).

There is more to search with the ticket than without it: with its players a queue may not be
too small, and it is searched for itself. So if a run with it comes to its end, a run without
it does too (`Formation.rounds_failure_bystander`), and with the same sessions
(`Formation.run_bystander`).
-/

namespace Matchmaking

variable {α : Type}

/-- A ticket has more players than any team that there may be, in any mode and at any
    time. -/
def RuleSet.FitsNoTeam (r : RuleSet α) (t : Ticket α) : Prop :=
  ∀ mode ∈ r.modeNames, ∀ b ∈ r.boundsFor mode, b.maxSize < t.players

instance (r : RuleSet α) (t : Ticket α) : Decidable (r.FitsNoTeam t) :=
  inferInstanceAs (Decidable (∀ mode ∈ r.modeNames, ∀ b ∈ r.boundsFor mode, b.maxSize < t.players))

namespace Formation

variable [Scalar α] {f : Formation α} {pivot x : Ticket α} {pool before after : List (Ticket α)}
  {a : Attempt}

theorem maxSize_lt_players (hx : f.rules.FitsNoTeam x) (ha : a ∈ f.attempts pivot) :
    (f.allianceAt pivot a.mode).bounds.maxSize < x.players :=
  hx a.mode (mode_mem_of_mem_attempts ha) _ (AllianceRule.flexedAt_bounds_mem _ _ _ _)

/-- The ticket has no place in a match. -/
theorem not_mem_teams (hx : f.rules.FitsNoTeam x) (ha : a ∈ f.attempts pivot) {m : Assembly}
    {teams : List (List (Ticket α))} (h : f.Teams pivot a pool m teams) : x ∉ teams.flatten := by
  intro hmem
  obtain ⟨team, hteam, hxteam⟩ := List.mem_flatten.1 hmem
  have hsize := (h.allows.sizes _ (List.mem_map_of_mem hteam)).2
  have hplayers : x.players ≤ Ticket.totalPlayers team := by
    have := Ticket.totalPlayers_le_of_subperm (List.singleton_sublist.2 hxteam).subperm
    simpa [Ticket.totalPlayers] using this
  exact absurd (Nat.le_trans hplayers hsize) (Nat.not_le.2 (maxSize_lt_players hx ha))

/-- There is no match for the ticket. -/
theorem sessionFor?_eq_none_of_fitsNoTeam (hx : f.rules.FitsNoTeam x) (pool : List (Ticket α)) :
    f.sessionFor? x pool = none := by
  by_contra hsome
  obtain ⟨s, hs⟩ := Option.ne_none_iff_exists'.1 hsome
  obtain ⟨a, ha, m, hm, _⟩ := exists_of_sessionFor? hs
  obtain ⟨teams, hteams⟩ := assembly?_teams hm
  exact not_mem_teams hx ha hteams hteams.pivot_mem

/-! ## The search of a pivot -/

/-- A ticket stands by in the search of a pivot: it keeps nobody out of it, and the match
    that is found without it stands among those found with it. -/
structure Bystander (f : Formation α) (x pivot : Ticket α) (a : Attempt)
    (pool : List (Ticket α)) : Prop where
  admits : f.candidates pivot a pool ⊆ f.candidates pivot a (Ticket.sortQueue (x :: pool))
  stands : ∀ m, f.assembly? pivot a pool = some m →
    (Assembler.of (f.allianceAt pivot a.mode) f.rules.blockPolicy f.cap).Stands pivot
      (f.candidates pivot a pool) (f.candidates pivot a (Ticket.sortQueue (x :: pool))) m

/-- A match always has as many teams as there must be. -/
theorem assembly?_eq (f : Formation α) (pivot : Ticket α) (a : Attempt) (pool : List (Ticket α)) :
    f.assembly? pivot a pool =
      (Assembler.of (f.allianceAt pivot a.mode) f.rules.blockPolicy f.cap).assemble? pivot
        (f.candidates pivot a pool) := by
  cases hm : (Assembler.of (f.allianceAt pivot a.mode) f.rules.blockPolicy f.cap).assemble? pivot
      (f.candidates pivot a pool) with
  | none => rw [assembly?, hm]; rfl
  | some m =>
    obtain ⟨teams, hteams⟩ := Assembler.assemble?_seats hm
    have hlength : m.teams.length = (teams.map Ticket.totalPlayers).length := by
      rw [← hteams.players, List.length_map]
    exact Option.filter_eq_some_iff.2 ⟨hm, decide_eq_true (hlength ▸ hteams.allows.minTeams_le)⟩

theorem candidates_cons (hid : ((pivot :: pool).map (·.id)).Nodup) (a : Attempt) :
    f.candidates pivot a (pivot :: pool) = ((f.search pivot a).run pool).map (·.ticket) := by
  rw [candidates, Ticket.without_cons_of_mem (List.mem_singleton_self _), Ticket.without_head hid]

omit [Scalar α] in
/-- Tickets of different ids have different ranks. -/
theorem rank_eq_lt {t u : Ticket α} (hle : (Ticket.rank t u).isLE = true) (hid : t.id ≠ u.id) :
    Ticket.rank t u = .lt := by
  cases hrank : Ticket.rank t u with
  | lt => rfl
  | eq => exact absurd (Ticket.id_eq_of_rank_eq hrank) hid
  | gt => rw [hrank] at hle; cases hle

/-- A search of a pivot finds the same match with a bystander in its queue. -/
theorem assembly?_bystander (hid : ((x :: pivot :: (before ++ after)).map (·.id)).Nodup)
    (hsort : Ticket.sortQueue (x :: pivot :: (before ++ after)) = pivot :: (before ++ x :: after))
    (hx : f.rules.FitsNoTeam x) (ha : a ∈ f.attempts pivot)
    (h : x ∈ f.candidates pivot a (pivot :: (before ++ x :: after)) →
      f.Bystander x pivot a (pivot :: (before ++ after))) :
    f.assembly? pivot a (pivot :: (before ++ x :: after)) =
      f.assembly? pivot a (pivot :: (before ++ after)) := by
  have hmore : ((pivot :: (before ++ x :: after)).map (·.id)).Nodup := by
    refine (List.Perm.map _ ?_).nodup_iff.1 hid
    exact (List.Perm.swap _ _ _).trans (.cons _ List.perm_middle.symm)
  have hless : ((pivot :: (before ++ after)).map (·.id)).Nodup := (List.nodup_cons.1 hid).2
  rw [candidates_cons hmore] at h
  rw [assembly?_eq, assembly?_eq, candidates_cons hmore, candidates_cons hless]
  have hadmits (hmem : x ∈ ((f.search pivot a).run (before ++ x :: after)).map (·.ticket)) :
      ((f.search pivot a).run (before ++ after)).map (·.ticket) ⊆
        ((f.search pivot a).run (before ++ x :: after)).map (·.ticket) := by
    have hsub := (h hmem).admits
    rwa [hsort, candidates_cons hmore, candidates_cons hless] at hsub
  rcases Search.run_middle (List.nodup_cons.1 hmore).2 hadmits with
    hsame | ⟨hmem, front, back, hfewer, hall, hfront, hback⟩
  · rw [hsame]
  · rw [hfewer, hall]
    refine Assembler.assemble?_oversize (maxSize_lt_players hx ha) hfront hback fun m hm => ?_
    have hstands := (h hmem).stands m
    rw [assembly?_eq, hsort, candidates_cons hmore, candidates_cons hless, hfewer, hall] at hstands
    exact hstands hm

/-! ## The session of a pivot -/

omit [Scalar α] in
/-- Tickets are found by their ids with or without another one. -/
theorem ticketsOf_middle {ids : List String} (hx : x.id ∉ ids) (us vs : List (Ticket α)) :
    ticketsOf (us ++ x :: vs) ids = ticketsOf (us ++ vs) ids := by
  refine List.filterMap_congr fun id hid => ?_
  have hne : (x.id == id) = false := Bool.eq_false_iff.2 fun heq => hx (eq_of_beq heq ▸ hid)
  simp only [List.find?_append, List.find?_cons, hne]

/-- A session is that of its match, whether there is another ticket or not. -/
theorem session_middle {m : Assembly} (hx : x.id ∉ m.tickets) (us vs : List (Ticket α)) :
    f.session pivot a (us ++ x :: vs) m = f.session pivot a (us ++ vs) m := by
  have halliances : m.teams.mapIdx (alliance (us ++ x :: vs)) =
      m.teams.mapIdx (alliance (us ++ vs)) := by
    refine List.ext_getElem (by simp) fun i hi _ => ?_
    simp only [List.length_mapIdx] at hi
    simp only [List.getElem_mapIdx, alliance]
    rw [ticketsOf_middle fun hmem => hx (List.mem_flatMap.2 ⟨_, List.getElem_mem hi, hmem⟩)]
  simp only [session, halliances, ticketsOf_middle hx]

/-- The tickets of a match, in the order in which its teams have them. -/
theorem Teams.tickets_eq {m : Assembly} {teams : List (List (Ticket α))}
    (h : f.Teams pivot a pool m teams) : m.tickets = teams.flatten.map (·.id) := by
  rw [Assembly.tickets, List.flatMap_def, h.tickets, List.map_flatten]

theorem attempt?_bystander (hid : ((x :: pivot :: (before ++ after)).map (·.id)).Nodup)
    (hsort : Ticket.sortQueue (x :: pivot :: (before ++ after)) = pivot :: (before ++ x :: after))
    (hx : f.rules.FitsNoTeam x) (ha : a ∈ f.attempts pivot)
    (h : x ∈ f.candidates pivot a (pivot :: (before ++ x :: after)) →
      f.Bystander x pivot a (pivot :: (before ++ after))) :
    f.attempt? pivot (pivot :: (before ++ x :: after)) a =
      f.attempt? pivot (pivot :: (before ++ after)) a := by
  rw [attempt?, attempt?, assembly?_bystander hid hsort hx ha h]
  cases hm : f.assembly? pivot a (pivot :: (before ++ after)) with
  | none => rfl
  | some m =>
    obtain ⟨teams, hteams⟩ := assembly?_teams hm
    refine congrArg some ?_
    rw [← List.cons_append, ← List.cons_append]
    refine session_middle (fun hmem => ?_) _ _
    rw [hteams.tickets_eq] at hmem
    obtain ⟨t, ht, htx⟩ := List.mem_map.1 hmem
    exact (List.nodup_cons.1 hid).1 (List.mem_map.2 ⟨t, hteams.subperm.subset ht, htx⟩)

/-! ## Rounds with a bystander -/

/-- A match is searched for a pivot in an attempt if there is none in the attempts before
    it. -/
def Tries (f : Formation α) (pivot : Ticket α) (pool : List (Ticket α)) (a : Attempt) : Prop :=
  ∃ before after, f.attempts pivot = before ++ a :: after ∧
    ∀ b ∈ before, f.attempt? pivot pool b = none

/-- What is left of a queue in each of its rounds. -/
def pools (f : Formation α) : List (Ticket α) → List (List (Ticket α))
  | [] => []
  | pivot :: rest =>
    (pivot :: rest) ::
      match f.sessionFor? pivot (pivot :: rest) with
      | none => pools f (Ticket.without [pivot.id] rest)
      | some s => pools f (Ticket.without s.ticketIds rest)
termination_by pool => pool.length
decreasing_by
  · exact Nat.lt_succ_of_le (Ticket.length_without_le _ _)
  · exact Nat.lt_succ_of_le (Ticket.length_without_le _ _)

theorem pools_cons_of_none {rest : List (Ticket α)}
    (h : f.sessionFor? pivot (pivot :: rest) = none) :
    f.pools (pivot :: rest) = (pivot :: rest) :: f.pools (Ticket.without [pivot.id] rest) := by
  rw [pools, h]

theorem pools_cons_of_some {rest : List (Ticket α)} {s : Session α}
    (h : f.sessionFor? pivot (pivot :: rest) = some s) :
    f.pools (pivot :: rest) = (pivot :: rest) :: f.pools (Ticket.without s.ticketIds rest) := by
  rw [pools, h]

/-- A ticket stands by while sessions are formed from a queue: it does so in all searches
    of pivots before it in which it is found. -/
def StandsBy (f : Formation α) (x : Ticket α) (queue : List (Ticket α)) : Prop :=
  ∀ pivot rest, pivot :: rest ∈ f.pools queue →
    f.rules.minPlayers ≤ Ticket.totalPlayers (pivot :: rest) →
    f.minPlayersFor pivot ≤ Ticket.totalPlayers (pivot :: rest) →
    Ticket.rank pivot x = .lt →
    ∀ a, f.Tries pivot (pivot :: rest) a →
      x ∈ f.candidates pivot a (Ticket.sortQueue (x :: pivot :: rest)) →
      f.Bystander x pivot a (pivot :: rest)

/-- What is found in a list is known from what the entries before it give. -/
theorem findSome?_congr_of_reached {β γ : Type} {g g' : β → Option γ} {xs : List β}
    (h : ∀ before b after, xs = before ++ b :: after → (∀ c ∈ before, g c = none) → g' b = g b) :
    xs.findSome? g' = xs.findSome? g := by
  induction xs with
  | nil => rfl
  | cons b xs ih =>
    have hb : g' b = g b := h [] b xs rfl (List.forall_mem_nil _)
    rw [List.findSome?_cons, List.findSome?_cons, hb]
    cases hgb : g b with
    | some => rfl
    | none =>
      refine ih fun before c after heq hbefore => ?_
      exact h (b :: before) c after (congrArg (b :: ·) heq) (List.forall_mem_cons.2 ⟨hgb, hbefore⟩)

/-- What a search comes to is known from what the attempts give that it makes. -/
theorem searchIn_congr_of_reached {pool' : List (Ticket α)} {as : List Attempt}
    (h : ∀ first a last, as = first ++ a :: last → (∀ b ∈ first, f.attempt? pivot pool b = none) →
      f.attempt? pivot pool' a = f.attempt? pivot pool a) :
    f.searchIn pivot pool' as = f.searchIn pivot pool as := by
  induction as with
  | nil => rfl
  | cons a as ih =>
    have ha : f.attempt pivot pool' a = f.attempt pivot pool a := by
      rw [attempt, attempt, h [] a as rfl (List.forall_mem_nil _)]
    rw [searchIn, searchIn, ha]
    cases hattempt : f.attempt pivot pool a with
    | error e => rfl
    | ok r =>
      cases r with
      | some s => rfl
      | none =>
        refine ih fun first b last heq hfirst => ?_
        exact h (a :: first) b last (congrArg (a :: ·) heq)
          (List.forall_mem_cons.2 ⟨(attempt_eq_ok_iff.1 hattempt).2, hfirst⟩)

omit [Scalar α] in
/-- A ticket has its place in the order of service. -/
theorem sortQueue_middle (hid : ((before ++ x :: after).map (·.id)).Nodup)
    (hsorted : (before ++ x :: after).Pairwise fun t u => (Ticket.rank t u).isLE = true) :
    Ticket.sortQueue (x :: (before ++ after)) = before ++ x :: after := by
  rw [← Ticket.sortQueue_eq_of_perm hid List.perm_middle, Ticket.sortQueue_eq_self hsorted]

omit [Scalar α] in
theorem exists_sortQueue_cons {queue : List (Ticket α)} (hid : ((x :: queue).map (·.id)).Nodup)
    (hsorted : queue.Pairwise fun t u => (Ticket.rank t u).isLE = true) :
    ∃ before after, queue = before ++ after ∧
      Ticket.sortQueue (x :: queue) = before ++ x :: after := by
  obtain ⟨before, after, hless, hmore, _⟩ := exists_sortBy_cons Ticket.rank x
    fun t ht u hu htu =>
      Ticket.eq_of_id_eq (List.nodup_cons.1 hid).2 ht hu (Ticket.id_eq_of_rank_eq htu)
  rw [sortBy_eq_self hsorted] at hless
  exact ⟨before, after, hless, hmore⟩

omit [Scalar α] in
/-- Tickets that are taken out leave the place of another one as it is. -/
theorem sortQueue_without {ids : List String} (hx : x.id ∉ ids)
    (hid : ((before ++ x :: after).map (·.id)).Nodup)
    (hsorted : (before ++ x :: after).Pairwise fun t u => (Ticket.rank t u).isLE = true) :
    Ticket.without ids (before ++ x :: after) =
      Ticket.sortQueue (x :: Ticket.without ids (before ++ after)) := by
  have hmore : Ticket.without ids (before ++ x :: after) =
      Ticket.without ids before ++ x :: Ticket.without ids after := by
    rw [Ticket.without, List.filter_append, List.filter_cons_of_pos (by simpa using hx)]
    rfl
  have hless : Ticket.without ids (before ++ after) =
      Ticket.without ids before ++ Ticket.without ids after := List.filter_append _ _
  have hsub := hmore ▸ Ticket.without_sublist ids (before ++ x :: after)
  rw [hmore, hless, sortQueue_middle (hid.sublist (hsub.map _)) (hsorted.sublist hsub)]

omit [Scalar α] in
/-- A ticket more comes before all others, or it has its place behind the first one. -/
theorem sortQueue_cases {rest : List (Ticket α)} (hid : ((x :: pivot :: rest).map (·.id)).Nodup)
    (hsorted : (pivot :: rest).Pairwise fun t u => (Ticket.rank t u).isLE = true) :
    Ticket.sortQueue (x :: pivot :: rest) = x :: pivot :: rest ∨
      ∃ before after, rest = before ++ after ∧
        Ticket.sortQueue (x :: pivot :: rest) = pivot :: (before ++ x :: after) := by
  obtain ⟨before, after, hqueue, hsort⟩ := exists_sortQueue_cons hid hsorted
  cases before with
  | nil => exact .inl (hsort.trans (congrArg (x :: ·) hqueue.symm))
  | cons t before =>
    obtain ⟨rfl, rfl⟩ := List.cons.inj hqueue
    exact .inr ⟨before, after, rfl, hsort⟩

/-! ### One round -/

section Round

variable (hid : ((x :: pivot :: (before ++ after)).map (·.id)).Nodup)
  (hsort : Ticket.sortQueue (x :: pivot :: (before ++ after)) = pivot :: (before ++ x :: after))

include hid hsort

/-- An attempt of a pivot before a bystander leads to the same session with it. -/
theorem attempt?_of_standsBy (hx : f.rules.FitsNoTeam x)
    (h : f.StandsBy x (pivot :: (before ++ after)))
    (hmin : f.rules.minPlayers ≤ Ticket.totalPlayers (pivot :: (before ++ after)))
    (hpivot : f.minPlayersFor pivot ≤ Ticket.totalPlayers (pivot :: (before ++ after)))
    (htries : f.Tries pivot (pivot :: (before ++ after)) a) :
    f.attempt? pivot (pivot :: (before ++ x :: after)) a =
      f.attempt? pivot (pivot :: (before ++ after)) a := by
  have hsorted := Ticket.pairwise_sortQueue (x :: pivot :: (before ++ after))
  rw [hsort] at hsorted
  have hne : pivot.id ≠ x.id := fun heq =>
    (List.nodup_cons.1 hid).1 (List.mem_map.2 ⟨pivot, List.mem_cons_self, heq⟩)
  have hrank : Ticket.rank pivot x = .lt :=
    rank_eq_lt ((List.pairwise_cons.1 hsorted).1 x (by simp)) hne
  have ha : a ∈ f.attempts pivot := by
    obtain ⟨first, last, hattempts, _⟩ := htries
    exact hattempts ▸ List.mem_append_right first List.mem_cons_self
  refine attempt?_bystander hid hsort hx ha fun hmem => ?_
  exact h pivot _ (by rw [pools]; exact List.mem_cons_self) hmin hpivot hrank a htries
    (hsort ▸ hmem)

/-- A pivot finds the same session with a bystander in its queue. -/
theorem sessionFor?_bystander (hx : f.rules.FitsNoTeam x)
    (h : f.StandsBy x (pivot :: (before ++ after))) :
    f.sessionFor? pivot (pivot :: (before ++ x :: after)) =
      f.sessionFor? pivot (pivot :: (before ++ after)) := by
  by_cases henough : f.rules.minPlayers ≤ Ticket.totalPlayers (pivot :: (before ++ after)) ∧
      f.minPlayersFor pivot ≤ Ticket.totalPlayers (pivot :: (before ++ after))
  · exact findSome?_congr_of_reached fun first a last hattempts hfirst =>
      attempt?_of_standsBy hid hsort hx h henough.1 henough.2 ⟨first, last, hattempts, hfirst⟩
  · -- The ticket has no place in a match, so its players are no matter.
    have hfew : Ticket.totalPlayers (pivot :: (before ++ after)) < f.rules.minPlayers ∨
        Ticket.totalPlayers (pivot :: (before ++ after)) < f.minPlayersFor pivot := by
      omega
    rw [sessionFor?_eq_none_of_few hfew]
    refine sessionFor?_eq_none (fun a ha m teams hteams => ?_) hfew
    obtain ⟨l, hperm, hsub⟩ := hteams.subperm
    rw [← List.cons_append] at hsub
    refine ⟨l, hperm, Relists.sublist_of_not_mem (fun hmem => ?_) hsub⟩
    exact not_mem_teams hx ha hteams (hperm.mem_iff.1 hmem)

/-- If there are players enough without a bystander, its search comes to the same with it, also
    if it breaks off. -/
theorem sessionFor_bystander (hx : f.rules.FitsNoTeam x)
    (h : f.StandsBy x (pivot :: (before ++ after)))
    (hmin : f.rules.minPlayers ≤ Ticket.totalPlayers (pivot :: (before ++ after)))
    (hpivot : f.minPlayersFor pivot ≤ Ticket.totalPlayers (pivot :: (before ++ after))) :
    f.sessionFor pivot (pivot :: (before ++ x :: after)) =
      f.sessionFor pivot (pivot :: (before ++ after)) :=
  searchIn_congr_of_reached fun first _ last hattempts hfirst =>
    attempt?_of_standsBy hid hsort hx h hmin hpivot ⟨first, last, hattempts, hfirst⟩

omit [Scalar α] in
/-- A bystander keeps its place when others are taken out. -/
theorem without_bystander {ids : List String} (hids : x.id ∉ ids) :
    Ticket.without ids (before ++ x :: after) =
      Ticket.sortQueue (x :: Ticket.without ids (before ++ after)) := by
  have hsorted := Ticket.pairwise_sortQueue (x :: pivot :: (before ++ after))
  rw [hsort] at hsorted
  have hperm : (pivot :: (before ++ x :: after)).Perm (x :: pivot :: (before ++ after)) :=
    hsort ▸ Ticket.sortQueue_perm _
  have hmore : ((pivot :: (before ++ x :: after)).map (·.id)).Nodup :=
    (hperm.map _).nodup_iff.2 hid
  exact sortQueue_without hids (List.nodup_cons.1 hmore).2 (List.pairwise_cons.1 hsorted).2

end Round

/-! ### All rounds -/

omit [Scalar α] in
/-- A part of a queue has other ids than a ticket more. -/
theorem nodup_without (ids : List String) {rest : List (Ticket α)}
    (hid : ((x :: pivot :: rest).map (·.id)).Nodup) :
    ((x :: Ticket.without ids rest).map (·.id)).Nodup :=
  hid.sublist ((((Ticket.without_sublist ids rest).trans
    (List.sublist_cons_self pivot rest)).cons_cons x).map _)

/-- The ticket is in no session of others. -/
theorem not_mem_ticketIds {rest : List (Ticket α)} {s : Session α}
    (hid : ((x :: pivot :: rest).map (·.id)).Nodup)
    (hs : f.sessionFor? pivot (pivot :: rest) = some s) : x.id ∉ s.ticketIds := by
  obtain ⟨a, _, m, hm, rfl⟩ := exists_of_sessionFor? hs
  obtain ⟨teams, hseats, hsub, _⟩ := attempt?_seats (a := a) (List.nodup_cons.1 hid).2
    (Option.map_eq_some_iff.2 ⟨m, hm, rfl⟩)
  rw [hseats.ticketIds]
  exact fun hmem => (List.nodup_cons.1 hid).1 (List.map_subset _ hsub.subset hmem)

/-- The rounds of a queue form the same sessions with a ticket more that fits no team and
    stands by. -/
theorem idealRounds_bystander {queue : List (Ticket α)} (hid : ((x :: queue).map (·.id)).Nodup)
    (hsorted : queue.Pairwise fun t u => (Ticket.rank t u).isLE = true)
    (hx : f.rules.FitsNoTeam x) (h : f.StandsBy x queue) :
    (f.idealRounds (Ticket.sortQueue (x :: queue))).sessions = (f.idealRounds queue).sessions := by
  -- As a pivot the ticket is dropped, and otherwise it has its place in what is left.
  have hdrop {queue : List (Ticket α)} (hid : ((x :: queue).map (·.id)).Nodup) :
      (f.idealRounds (x :: queue)).sessions = (f.idealRounds queue).sessions := by
    rw [idealRounds_cons_of_none hid (sessionFor?_eq_none_of_fitsNoTeam hx _)]
    rfl
  induction queue using idealRounds.induct f with
  | case1 => rw [Ticket.sortQueue_eq_self (List.pairwise_singleton _ _), hdrop hid]
  | case2 pivot rest hnone ih =>
    rcases sortQueue_cases hid hsorted with hsort | ⟨before, after, rfl, hsort⟩
    · rw [hsort, hdrop hid]
    · have hne : x.id ∉ [pivot.id] := fun hmem => (List.nodup_cons.1 hid).1
        (List.mem_map.2 ⟨pivot, List.mem_cons_self, (List.mem_singleton.1 hmem).symm⟩)
      have hrest : f.StandsBy x (Ticket.without [pivot.id] (before ++ after)) := fun p rest hmem =>
        h p rest (pools_cons_of_none hnone ▸ List.mem_cons_of_mem _ hmem)
      rw [hsort, idealRounds, sessionFor?_bystander hid hsort hx h, hnone, idealRounds, hnone,
        without_bystander hid hsort hne]
      refine ih (nodup_without _ hid) ?_ hrest
      exact (List.pairwise_cons.1 hsorted).2.sublist (Ticket.without_sublist _ _)
  | case3 pivot rest s hs ih =>
    rcases sortQueue_cases hid hsorted with hsort | ⟨before, after, rfl, hsort⟩
    · rw [hsort, hdrop hid]
    · have hsession := sessionFor?_bystander hid hsort hx h
      have hrest : f.StandsBy x (Ticket.without s.ticketIds (before ++ after)) := fun p rest hmem =>
        h p rest (pools_cons_of_some hs ▸ List.mem_cons_of_mem _ hmem)
      rw [hsort, idealRounds_cons_of_some (hsession.trans hs), idealRounds_cons_of_some hs,
        without_bystander hid hsort (not_mem_ticketIds hid hs)]
      refine congrArg (s :: ·) (ih (nodup_without _ hid) ?_ hrest)
      exact (List.pairwise_cons.1 hsorted).2.sublist (Ticket.without_sublist _ _)

/-- If rounds come to their end that begin with the ticket, those without it do. -/
theorem rounds_failure_of_first {queue : List (Ticket α)} (hid : ((x :: queue).map (·.id)).Nodup)
    (hx : f.rules.FitsNoTeam x) (hends : (f.rounds .unlimited (x :: queue)).failure = none) :
    (f.rounds .unlimited queue).failure = none := by
  have hround := rounds_cons (f := f) Budget.read?_unlimited hid
  generalize f.rounds .unlimited (x :: queue) = r at hround hends
  cases hround with
  | broken => cases hends
  | leave hcounts hmin =>
    have hless := Ticket.totalPlayers_le_of_subperm (List.sublist_cons_self x queue).subperm
    exact rounds_failure_of_few hcounts (Nat.lt_of_le_of_lt hless hmin)
  | drop => exact hends
  | emit _ _ _ hs =>
    exact absurd ((sessionFor?_eq_none_of_fitsNoTeam hx _).symm.trans (sessionFor?_of_ok hs)) nofun

/-- A round of a pivot before a bystander does not break off if it does not with the bystander
    in the queue, and if so it is for what is left. -/
theorem Round.failure_bystander (hid : ((x :: pivot :: (before ++ after)).map (·.id)).Nodup)
    (hsort : Ticket.sortQueue (x :: pivot :: (before ++ after)) = pivot :: (before ++ x :: after))
    (hx : f.rules.FitsNoTeam x) (h : f.StandsBy x (pivot :: (before ++ after))) {r r' : Formed α}
    (hround : f.Round .unlimited pivot (before ++ after) r)
    (hround' : f.Round .unlimited pivot (before ++ x :: after) r') (hends : r'.failure = none)
    (hleft : ∀ ids, f.StandsBy x (Ticket.without ids (before ++ after)) →
      (f.rounds .unlimited (Ticket.sortQueue (x :: Ticket.without ids (before ++ after)))).failure =
        none → (f.rounds .unlimited (Ticket.without ids (before ++ after))).failure = none) :
    r.failure = none := by
  -- With the ticket there are no fewer players, and the pivot finds the same.
  have hle : Ticket.totalPlayers (pivot :: (before ++ after)) ≤
      Ticket.totalPlayers (pivot :: (before ++ x :: after)) :=
    Ticket.totalPlayers_le_of_subperm
      (((List.sublist_cons_self x after).append_left before).cons_cons pivot).subperm
  have hfound := sessionFor?_bystander hid hsort hx h
  cases hround with
  | broken hbreaks =>
    cases hbreaks with
    | uncounted hcounts =>
      cases hround' with
      | broken => cases hends
      | leave hcounts' => cases hcounts.symm.trans hcounts'
      | drop hcounts' => cases hcounts.symm.trans hcounts'
      | emit hcounts' => cases hcounts.symm.trans hcounts'
    | unsearched hmin hpivot he =>
      rw [← sessionFor_bystander hid hsort hx h hmin hpivot] at he
      cases hround' with
      | broken => cases hends
      | leave _ hmin' => omega
      | drop _ _ hnone =>
        rcases hnone with hfew | hnone
        · omega
        · cases he.symm.trans hnone
      | emit _ _ _ hs => cases he.symm.trans hs
  | leave => rfl
  | drop _ hmin hnone =>
    have hnone : f.sessionFor? pivot (pivot :: (before ++ after)) = none :=
      hnone.elim (fun hfew => sessionFor?_eq_none_of_few (.inr hfew)) sessionFor?_of_ok
    cases hround' with
    | broken => cases hends
    | leave _ hmin' => omega
    | drop =>
      have hne : x.id ∉ [pivot.id] := fun hmem => (List.nodup_cons.1 hid).1
        (List.mem_map.2 ⟨pivot, List.mem_cons_self, (List.mem_singleton.1 hmem).symm⟩)
      have hrest : f.StandsBy x (Ticket.without [pivot.id] (before ++ after)) := fun p rest hmem =>
        h p rest (pools_cons_of_none hnone ▸ List.mem_cons_of_mem _ hmem)
      have hmore : ((pivot :: (before ++ x :: after)).map (·.id)).Nodup :=
        ((hsort ▸ Ticket.sortQueue_perm _ : (pivot :: (before ++ x :: after)).Perm _).map
          _).nodup_iff.2 hid
      have hends' := hleft [pivot.id] hrest
      rw [← without_bystander hid hsort hne, Ticket.without_head hmore,
        Ticket.without_head (List.nodup_cons.1 hid).2] at hends'
      exact hends' hends
    | emit _ _ _ hs => cases (hfound.trans hnone).symm.trans (sessionFor?_of_ok hs)
  | @emit s _ hmin hpivot hs =>
    have hs := sessionFor?_of_ok hs
    have hrest : f.StandsBy x (Ticket.without s.ticketIds (before ++ after)) := fun p rest hmem =>
      h p rest (pools_cons_of_some hs ▸ List.mem_cons_of_mem _ hmem)
    cases hround' with
    | broken => cases hends
    | leave _ hmin' => omega
    | drop _ _ hnone =>
      rcases hnone with hfew | hnone
      · omega
      · cases (hfound.trans hs).symm.trans (sessionFor?_of_ok hnone)
    | emit _ _ _ hs' =>
      obtain rfl := Option.some_inj.1 ((hfound.trans hs).symm.trans (sessionFor?_of_ok hs'))
      refine hleft _ hrest ?_
      rw [← without_bystander hid hsort (not_mem_ticketIds hid hs)]
      exact hends

/-- If the rounds of a queue come to their end with a bystander in it, they do without it. -/
theorem rounds_failure_bystander {queue : List (Ticket α)} (hid : ((x :: queue).map (·.id)).Nodup)
    (hsorted : queue.Pairwise fun t u => (Ticket.rank t u).isLE = true)
    (hx : f.rules.FitsNoTeam x) (h : f.StandsBy x queue)
    (hends : (f.rounds .unlimited (Ticket.sortQueue (x :: queue))).failure = none) :
    (f.rounds .unlimited queue).failure = none := by
  induction hn : queue.length using Nat.strong_induction_on generalizing queue with
  | h n ih =>
    cases queue with
    | nil => rw [rounds]; rfl
    | cons pivot rest =>
      rcases sortQueue_cases hid hsorted with hsort | ⟨before, after, rfl, hsort⟩
      · exact rounds_failure_of_first hid hx (hsort ▸ hends)
      · have hmore : ((pivot :: (before ++ x :: after)).map (·.id)).Nodup :=
          ((hsort ▸ Ticket.sortQueue_perm _ : (pivot :: (before ++ x :: after)).Perm _).map
            _).nodup_iff.2 hid
        rw [hsort] at hends
        refine (rounds_cons rfl (List.nodup_cons.1 hid).2).failure_bystander hid hsort hx h
          (rounds_cons rfl hmore) hends fun ids hrest hends => ?_
        have hsub := Ticket.without_sublist ids (before ++ after)
        exact ih _ (hn ▸ Nat.lt_succ_of_le hsub.length_le) (nodup_without ids hid)
          ((List.pairwise_cons.1 hsorted).2.sublist hsub) hrest hends rfl

/-! ## Runs with a bystander -/

/-- Where matches are single players, tickets of one player are formed from. -/
theorem solos_sessions (f : Formation α) (ts : List (Ticket α)) :
    (f.solos ts).sessions = (ts.filter fun t => t.players = 1).map f.soloSession := by
  induction ts with
  | nil => rfl
  | cons t ts ih =>
    rw [solos]
    split_ifs with ht
    · rw [List.filter_cons_of_pos (by simpa using ht)]
      exact congrArg (f.soloSession t :: ·) ih
    · rw [List.filter_cons_of_neg (by simpa using ht)]
      exact ih

omit [Scalar α] in
/-- The ticket is no match of its own. -/
theorem players_ne_one (hx : f.rules.FitsNoTeam x) (hf : f.isSinglePlayer = true) :
    x.players ≠ 1 := by
  have hmain : f.rules.alliance.bounds.maxSize < x.players :=
    hx none List.mem_cons_self _ List.mem_cons_self
  simp only [isSinglePlayer, Bool.and_eq_true, Bounds.isSinglePlayer, decide_eq_true_eq] at hf
  rw [hf.1.1] at hmain
  exact (Nat.ne_of_lt hmain).symm

/-- Matches of a shape, in which no two parties may play the same hero. -/
def hall (b : Bounds) (cap : Nat) : Formation Float where
  rules := { RuleSet.ofAlliance (.ofBounds b) with options := [⟨"hero", .unique⟩] }
  channel := "hall"
  now := .ofNanos 0
  cap := cap

/-- A party of some players, who may play some heroes. -/
def guests (id : String) (players : Nat) (heroes : List String) : Ticket Float where
  id := id
  channel := "hall"
  partyId := id
  members := (List.range players).map fun i => .ofId (id ++ toString i)
  attributes := Dict.ofList [("hero", .list heroes)]
  priority := 0
  createdAt := .ofNanos 0
  latencies := ∅
  excluded := []

section Hall

variable {b : Bounds} {cap : Nat} {pivot : Ticket Float} {rest : List (Ticket Float)}

theorem hall_attempts (b : Bounds) (cap : Nat) (pivot : Ticket Float) :
    (hall b cap).attempts pivot = [⟨none, none⟩] := by
  rw [attempts, modes_eq_of_empty rfl]
  rfl

theorem hall_fits (hb : b.Fits) (cap : Nat) (ts : List (Ticket Float)) : (hall b cap).Fits ts :=
  .of_bounds (List.forall_mem_singleton.2 hb) (List.forall_mem_singleton.2 rfl) rfl

/-- Who is accepted for a pivot in a hall. -/
def hallAccepted (b : Bounds) (cap : Nat) (pivot : Ticket Float) (rest : List (Ticket Float)) :
    List (Ticket Float) :=
  (((hall b cap).search pivot ⟨none, none⟩).accept
    ((hall b cap).search pivot ⟨none, none⟩).start rest).1.map (·.ticket)

/-- In a hall all cost the same, so those who are accepted come in their order. -/
theorem hall_candidates (hid : ((pivot :: rest).map (·.id)).Nodup)
    (hsorted : (pivot :: rest).Pairwise fun t u => (Ticket.rank t u).isLE = true) :
    (hall b cap).candidates pivot ⟨none, none⟩ (pivot :: rest) = hallAccepted b cap pivot rest := by
  have hscore : ∀ t found, ((hall b cap).search pivot ⟨none, none⟩).found? t = some found →
      found.score = Scalar.ofNat 0 + Scalar.ofNat 0 := fun t found hfound =>
    (congrArg Found.score (Option.some_inj.1 hfound)).symm
  rw [candidates_cons hid, Search.run_eq_accept rfl hscore hsorted.of_cons, hallAccepted]

/-- How matches are assembled in a hall. -/
def hallAssembler (b : Bounds) (cap : Nat) : Assembler := .of (.ofBounds b) .cannotMatch cap

/-- The tickets of the match that is found for a pivot in a hall. -/
def hallMatch? (b : Bounds) (cap : Nat) (pivot : Ticket Float) (rest : List (Ticket Float)) :
    Option (List String) :=
  ((hallAssembler b cap).assemble? pivot (hallAccepted b cap pivot rest)).map Assembly.tickets

theorem hall_sessionFor? (hid : ((pivot :: rest).map (·.id)).Nodup)
    (hsorted : (pivot :: rest).Pairwise fun t u => (Ticket.rank t u).isLE = true) :
    ((hall b cap).sessionFor? pivot (pivot :: rest)).map Session.ticketIds =
      hallMatch? b cap pivot rest := by
  have hassembly := (hall b cap).assembly?_eq pivot ⟨none, none⟩ (pivot :: rest)
  rw [hall_candidates hid hsorted] at hassembly
  have hmatch : hallMatch? b cap pivot rest =
      ((hall b cap).assembly? pivot ⟨none, none⟩ (pivot :: rest)).map Assembly.tickets :=
    congrArg (Option.map Assembly.tickets) hassembly.symm
  rw [sessionFor?, hall_attempts, List.findSome?_singleton, attempt?, hmatch, Option.map_map]
  refine Option.map_congr fun m hm => ?_
  obtain ⟨teams, hteams⟩ := assembly?_teams hm
  rw [hteams.tickets_eq]
  exact (session_seats _ pivot _ hid hteams.tickets hteams.subperm.subset).ticketIds

/-- One round after the other, as it is seen in the tickets of the sessions. -/
theorem hall_round (hid : ((pivot :: rest).map (·.id)).Nodup)
    (hsorted : (pivot :: rest).Pairwise fun t u => (Ticket.rank t u).isLE = true) :
    ((hall b cap).idealRounds (pivot :: rest)).sessions.map Session.ticketIds =
      match hallMatch? b cap pivot rest with
      | none => ((hall b cap).idealRounds rest).sessions.map Session.ticketIds
      | some ids => ids :: ((hall b cap).idealRounds (Ticket.without ids rest)).sessions.map
          Session.ticketIds := by
  rw [← hall_sessionFor? hid hsorted]
  cases hs : (hall b cap).sessionFor? pivot (pivot :: rest) with
  | none => rw [idealRounds_cons_of_none hid hs]; rfl
  | some s => rw [idealRounds_cons_of_some hs]; rfl

/-- The tickets of the sessions that are formed in a hall, as they can be computed. -/
def hallSessions (b : Bounds) (cap : Nat) : Nat → List (Ticket Float) → List (List String)
  | 0, _ => []
  | _, [] => []
  | n + 1, pivot :: rest =>
    match hallMatch? b cap pivot rest with
    | none => hallSessions b cap n rest
    | some ids => ids :: hallSessions b cap n (Ticket.without ids rest)

theorem hall_rounds {n : Nat} {queue : List (Ticket Float)} (hn : queue.length ≤ n)
    (hid : (queue.map (·.id)).Nodup)
    (hsorted : queue.Pairwise fun t u => (Ticket.rank t u).isLE = true) :
    ((hall b cap).idealRounds queue).sessions.map Session.ticketIds =
      hallSessions b cap n queue := by
  induction n generalizing queue with
  | zero =>
    obtain rfl := List.eq_nil_of_length_eq_zero (Nat.le_zero.1 hn)
    rw [idealRounds]
    rfl
  | succ n ih =>
    cases queue with
    | nil => rw [idealRounds]; rfl
    | cons pivot rest =>
      have hrest := Nat.le_of_succ_le_succ hn
      rw [hall_round hid hsorted, hallSessions]
      cases hallMatch? b cap pivot rest with
      | none => exact ih hrest (List.nodup_cons.1 hid).2 hsorted.of_cons
      | some ids =>
        have hsub := Ticket.without_sublist ids rest
        exact congrArg (ids :: ·) (ih (Nat.le_trans hsub.length_le hrest)
          ((List.nodup_cons.1 hid).2.sublist (hsub.map _)) (hsorted.of_cons.sublist hsub))

theorem hall_run (hb : b.isSinglePlayer = false) (hfits : b.Fits) {ts : List (Ticket Float)}
    (hid : (ts.map (·.id)).Nodup)
    (hsorted : ts.Pairwise fun t u => (Ticket.rank t u).isLE = true) :
    ((hall b cap).run .unlimited ts).sessions.map Session.ticketIds =
      hallSessions b cap ts.length ts := by
  have hsingle : (hall b cap).isSinglePlayer = false := by
    show (b.isSinglePlayer && _ && _) = false
    rw [hb]
    rfl
  have hqueue : (hall b cap).queue ts = ts := by
    rw [queue, RuleSet.flexRoles_eq_self rfl, Ticket.sortQueue_eq_self hsorted]
  have hends := run_failure (hall_fits hfits cap ts) .unlimited hid
  rw [run_sessions_eq_idealRounds hsingle hid hends, hqueue,
    hall_rounds (Nat.le_refl _) hid hsorted]

end Hall

/-- Two parties meet at once. -/
theorem hall_pools : (hall ⟨2, 2, 1, 1⟩ 1).pools [guests "a" 1 ["rogue"], guests "c" 1 ["mage"]] =
    [[guests "a" 1 ["rogue"], guests "c" 1 ["mage"]]] := by
  have hmatch : ((hall ⟨2, 2, 1, 1⟩ 1).sessionFor? (guests "a" 1 ["rogue"])
        [guests "a" 1 ["rogue"], guests "c" 1 ["mage"]]).map Session.ticketIds =
      hallMatch? ⟨2, 2, 1, 1⟩ 1 (guests "a" 1 ["rogue"]) [guests "c" 1 ["mage"]] :=
    hall_sessionFor? (by decide) (by decide +kernel)
  have hids : hallMatch? ⟨2, 2, 1, 1⟩ 1 (guests "a" 1 ["rogue"]) [guests "c" 1 ["mage"]] =
      some ["a", "c"] := by decide +kernel
  obtain ⟨s, hs, hticketIds⟩ := Option.map_eq_some_iff.1 (hmatch.trans hids)
  rw [pools_cons_of_some hs, hticketIds,
    show Ticket.without ["a", "c"] [guests "c" 1 ["mage"]] = [] from rfl, pools]

/-- A party that is too large and has no hero stands by. -/
theorem hall_standsBy : (hall ⟨2, 2, 1, 1⟩ 1).StandsBy (guests "b" 2 [])
    ((hall ⟨2, 2, 1, 1⟩ 1).queue [guests "a" 1 ["rogue"], guests "c" 1 ["mage"]]) := by
  have hqueue : (hall ⟨2, 2, 1, 1⟩ 1).queue [guests "a" 1 ["rogue"], guests "c" 1 ["mage"]] =
      [guests "a" 1 ["rogue"], guests "c" 1 ["mage"]] :=
    Ticket.sortQueue_eq_self (by decide +kernel)
  have hsort : Ticket.sortQueue [guests "b" 2 [], guests "a" 1 ["rogue"], guests "c" 1 ["mage"]] =
      [guests "a" 1 ["rogue"], guests "b" 2 [], guests "c" 1 ["mage"]] := by
    rw [← Ticket.sortQueue_eq_of_perm (by decide +kernel) (.swap _ _ _)]
    exact Ticket.sortQueue_eq_self (by decide +kernel)
  rw [hqueue]
  intro pivot rest hmem _ _ _ a htries _
  rw [hall_pools, List.mem_singleton] at hmem
  obtain ⟨rfl, rfl⟩ := List.cons.inj hmem
  obtain ⟨before, after, hattempts, _⟩ := htries
  have ha : a ∈ (hall ⟨2, 2, 1, 1⟩ 1).attempts (guests "a" 1 ["rogue"]) :=
    hattempts ▸ List.mem_append_right before List.mem_cons_self
  rw [hall_attempts] at ha
  obtain rfl := List.mem_singleton.1 ha
  refine ⟨?_, fun m hm => ?_⟩
  · rw [hsort, hall_candidates (by decide) (by decide +kernel),
      hall_candidates (by decide) (by decide +kernel)]
    decide +kernel
  · rw [assembly?_eq, hall_candidates (by decide) (by decide +kernel)] at hm
    rw [hsort, hall_candidates (by decide) (by decide +kernel),
      hall_candidates (by decide) (by decide +kernel)]
    -- The match is full, and a packing of the one order that is packed.
    have hfull : ((hallAssembler ⟨2, 2, 1, 1⟩ 1).assemble? (guests "a" 1 ["rogue"])
        (hallAccepted ⟨2, 2, 1, 1⟩ 1 (guests "a" 1 ["rogue"]) [guests "c" 1 ["mage"]])).all
        (fun m => decide (m ∈ (hallAssembler ⟨2, 2, 1, 1⟩ 1).packings (guests "a" 1 ["rogue"])
          (hallAccepted ⟨2, 2, 1, 1⟩ 1 (guests "a" 1 ["rogue"])
            [guests "b" 2 [], guests "c" 1 ["mage"]])) && m.isFull ⟨2, 2, 1, 1⟩) = true := by
      decide +kernel
    have hm : (hallAssembler ⟨2, 2, 1, 1⟩ 1).assemble? _ _ = some m := hm
    rw [hm, Option.all_some, Bool.and_eq_true, decide_eq_true_eq] at hfull
    exact ⟨hfull.1, fun _ => .inr (.inl hfull.2)⟩

/-- A ticket that fits no team makes a difference to the sessions that are formed, although
    no run breaks off. -/
structure Sways (f : Formation α) (x : Ticket α) (us ts : List (Ticket α)) : Prop where
  fault : f.rules.fault? = none
  roles : f.rules.roleFlexing? = none
  ids : (us.map (·.id)).Nodup
  perm : us.Perm (x :: ts)
  fits : f.rules.FitsNoTeam x
  ends : ∀ ts, (ts.map (·.id)).Nodup → (f.run .unlimited ts).failure = none
  sessions : (f.run .unlimited us).sessions ≠ (f.run .unlimited ts).sessions

end Formation

end Matchmaking
