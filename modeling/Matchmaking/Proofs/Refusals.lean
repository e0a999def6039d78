import Mathlib.Tactic.IntervalCases
import Matchmaking.Number.Rational
import Matchmaking.Proofs.Relisting

/-!
# Refusals leave no trace

A search tells every ticket of a list in its turn whether it is found (`Search.verdicts`). What it
is told depends on the tickets that were found before it and on nothing else that was told
(`Search.getElem?_verdicts`).

So tickets that are refused may as well stay away (`Search.accept_kept`). And whoever has its id or
a player in common with the pivot, or with a ticket that was found, is refused from then on
(`Search.overlaps_of_mem_kept`), so any number of such tickets may come (`Search.accept_marked`).

A search may have collected whatever changes were made to its pivot before (`Search.reached`), not
only what it found itself.
-/

namespace Matchmaking

variable {α : Type}

/-! ## Having something in common -/

/-- A ticket has its id or a player in common with another one. -/
def Ticket.Touches (t u : Ticket α) : Prop := t.id = u.id ∨ ∃ x ∈ u.userIds, x ∈ t.userIds

/-- A pivot has its ticket or a player in common with a ticket. -/
def Pivot.Touches (p : Pivot α) (u : Ticket α) : Prop :=
  u.id ∈ p.ticketIds ∨ ∃ x ∈ u.userIds, x ∈ p.userIds

namespace Collection

variable {c : Collection} {u : Ticket α}

theorem overlaps_of_mem (h : u.id ∈ c.tickets ∨ ∃ x ∈ u.userIds, x ∈ c.users) :
    c.overlaps u = true := by
  simp only [overlaps, Bool.or_eq_true, List.any_eq_true, NameSet.contains_iff]
  rcases h with hid | ⟨x, hx, hmem⟩
  · exact .inl (.inl hid)
  · obtain ⟨m, hm, rfl⟩ := List.mem_map.1 (NameSet.mem_ofList.1 hx)
    exact .inr ⟨m, hm, hmem⟩

/-- No change makes a collection forget anybody. -/
theorem overlaps_apply {narrowing : Bool} (h : c.overlaps u = true) (ch : Change) :
    (c.apply narrowing ch).overlaps u = true := by
  cases ch with
  | platforms p => exact h
  | share name names =>
    simp only [apply]
    split <;> exact h
  | claim name names => exact h
  | members ticket users blocked =>
    simp only [overlaps, apply, Bool.or_eq_true, List.any_eq_true, NameSet.contains_iff,
      NameSet.mem_insert, NameSet.mem_union] at h ⊢
    refine h.imp (Or.imp_left .inr) ?_
    rintro ⟨m, hm, hmem⟩
    exact ⟨m, hm, .inl hmem⟩

theorem overlaps_applyAll {narrowing : Bool} (h : c.overlaps u = true) (changes : List Change) :
    (c.applyAll narrowing changes).overlaps u = true := by
  induction changes generalizing c with
  | nil => exact h
  | cons ch changes ih => exact ih (overlaps_apply h ch)

end Collection

namespace Search

variable [Scalar α] {s : Search α} {c : Collection} {t u : Ticket α} {ts : List (Ticket α)}

/-! ## What a search tells -/

/-- What a search has collected once changes were made to what it starts from. -/
def reached (s : Search α) (changes : List Change) : Collection :=
  s.start.applyAll s.active.narrowAny changes

/-- The tickets of a list with what each of them is told in its turn: whoever is found is
    collected, and whoever is refused is not. -/
def verdicts (s : Search α) (c : Collection) :
    List (Ticket α) → List (Ticket α × Except Refusal (Found α))
  | [] => []
  | t :: ts =>
    match s.evaluate c t with
    | .error r => (t, .error r) :: verdicts s c ts
    | .ok found => (t, .ok found) :: verdicts s (s.collect c t) ts

/-- The tickets of a list without those that are refused in their turn. -/
def kept (s : Search α) (c : Collection) (ts : List (Ticket α)) : List (Ticket α) :=
  ((s.verdicts c ts).filter fun v => v.2.isOk).map (·.1)

/-- The tickets of a list that are found, the best one first, by a search that has collected
    something before. -/
def survivors (s : Search α) (c : Collection) (ts : List (Ticket α)) : List (Found α) :=
  sortBy (Found.rank s.pivot.isSession) (s.accept c ts).1

theorem survivors_start (s : Search α) (ts : List (Ticket α)) :
    s.survivors s.start ts = s.run ts := rfl

theorem exists_evaluate_eq_error (h : ¬s.Fits c t) : ∃ r, s.evaluate c t = .error r := by
  cases hevaluate : s.evaluate c t with
  | error r => exact ⟨r, rfl⟩
  | ok found => exact absurd (evaluate_eq_ok_iff.1 hevaluate).1 h

theorem verdicts_cons_of_not_fits (h : ¬s.Fits c t) (ts : List (Ticket α)) :
    s.verdicts c (t :: ts) = (t, s.evaluate c t) :: s.verdicts c ts := by
  obtain ⟨r, hr⟩ := exists_evaluate_eq_error h
  rw [verdicts, hr]

theorem verdicts_cons_of_fits (h : s.Fits c t) (ts : List (Ticket α)) :
    s.verdicts c (t :: ts) = (t, s.evaluate c t) :: s.verdicts (s.collect c t) ts := by
  obtain ⟨found, hfound⟩ := h.exists_found
  rw [verdicts, evaluate_eq_ok_iff.2 ⟨h, hfound⟩]

theorem kept_cons_of_not_fits (h : ¬s.Fits c t) (ts : List (Ticket α)) :
    s.kept c (t :: ts) = s.kept c ts := by
  obtain ⟨r, hr⟩ := exists_evaluate_eq_error h
  rw [kept, verdicts_cons_of_not_fits h, hr]
  rfl

theorem kept_cons_of_fits (h : s.Fits c t) (ts : List (Ticket α)) :
    s.kept c (t :: ts) = t :: s.kept (s.collect c t) ts := by
  obtain ⟨found, hfound⟩ := h.exists_found
  rw [kept, verdicts_cons_of_fits h, evaluate_eq_ok_iff.2 ⟨h, hfound⟩]
  rfl

/-- Whoever is told to be found is accepted, and nobody else is collected. -/
theorem accept_eq (s : Search α) (c : Collection) (ts : List (Ticket α)) :
    s.accept c ts =
      ((s.verdicts c ts).filterMap fun v => v.2.toOption, (s.kept c ts).foldl s.collect c) := by
  induction ts generalizing c with
  | nil => rfl
  | cons t ts ih =>
    by_cases ht : s.Fits c t
    · obtain ⟨found, hfound⟩ := ht.exists_found
      rw [accept_cons_of_fits ht hfound, verdicts_cons_of_fits ht, kept_cons_of_fits ht, ih,
        evaluate_eq_ok_iff.2 ⟨ht, hfound⟩]
      rfl
    · obtain ⟨r, hr⟩ := exists_evaluate_eq_error ht
      rw [accept_cons_of_not_fits ht, verdicts_cons_of_not_fits ht, kept_cons_of_not_fits ht, ih,
        hr]
      rfl

/-- What a ticket is told depends on the pivot and on those who were found before it. -/
theorem getElem?_verdicts (s : Search α) (c : Collection) {ts : List (Ticket α)} {i : Nat}
    {t : Ticket α} (h : ts[i]? = some t) : (s.verdicts c ts)[i]? =
      some (t, s.evaluate ((s.kept c (ts.take i)).foldl s.collect c) t) := by
  induction ts generalizing i c with
  | nil => cases h
  | cons u ts ih =>
    cases i with
    | zero =>
      obtain rfl : u = t := Option.some_inj.1 h
      by_cases hu : s.Fits c u
      · rw [verdicts_cons_of_fits hu]
        rfl
      · rw [verdicts_cons_of_not_fits hu]
        rfl
    | succ i =>
      have h : ts[i]? = some t := h
      by_cases hu : s.Fits c u
      · rw [verdicts_cons_of_fits hu, List.take_succ_cons, kept_cons_of_fits hu]
        exact ih (s.collect c u) h
      · rw [verdicts_cons_of_not_fits hu, List.take_succ_cons, kept_cons_of_not_fits hu]
        exact ih c h

/-! ## Without the refused -/

/-- Those who are refused may stay away. -/
theorem accept_kept (s : Search α) (c : Collection) (ts : List (Ticket α)) :
    s.accept c (s.kept c ts) = s.accept c ts := by
  induction ts generalizing c with
  | nil => rfl
  | cons t ts ih =>
    by_cases ht : s.Fits c t
    · obtain ⟨found, hfound⟩ := ht.exists_found
      rw [kept_cons_of_fits ht, accept_cons_of_fits ht hfound, accept_cons_of_fits ht hfound, ih]
    · rw [kept_cons_of_not_fits ht, accept_cons_of_not_fits ht, ih]

/-! ## With more who are refused -/

theorem not_fits_of_overlaps (h : c.overlaps u = true) : ¬s.Fits c u := fun hfits =>
  Bool.false_ne_true (hfits.fresh.symm.trans h)

/-- A collection knows whom it knew, whoever is found. -/
theorem overlaps_accept (h : c.overlaps u = true) (ts : List (Ticket α)) :
    (s.accept c ts).2.overlaps u = true := by
  induction ts generalizing c with
  | nil => exact h
  | cons t ts ih =>
    by_cases ht : s.Fits c t
    · obtain ⟨found, hfound⟩ := ht.exists_found
      rw [accept_cons_of_fits ht hfound]
      exact ih (overlaps_collect t h)
    · rw [accept_cons_of_not_fits ht]
      exact ih h

theorem overlaps_reached (h : s.pivot.Touches u) (changes : List Change) :
    (s.reached changes).overlaps u = true := by
  have hstart : s.start.overlaps u = true := Collection.overlaps_of_mem h
  exact Collection.overlaps_applyAll hstart changes

theorem overlaps_collect_of_touches (s : Search α) (c : Collection) (h : t.Touches u) :
    (s.collect c t).overlaps u = true := by
  obtain ⟨htickets, _, husers, _⟩ := s.collect_people c t
  refine Collection.overlaps_of_mem ?_
  rw [htickets, husers]
  rcases h with hid | ⟨x, hx, hmem⟩
  · exact .inl (NameSet.mem_insert.2 (.inl hid.symm))
  · exact .inr ⟨x, hx, NameSet.mem_union.2 (.inr hmem)⟩

/-- Whoever has something in common with a ticket that is found is known from then on. -/
theorem overlaps_of_mem_kept (ht : t ∈ s.kept c ts) (h : t.Touches u) :
    (s.accept c ts).2.overlaps u = true := by
  induction ts generalizing c with
  | nil => cases ht
  | cons v ts ih =>
    by_cases hv : s.Fits c v
    · obtain ⟨found, hfound⟩ := hv.exists_found
      rw [accept_cons_of_fits hv hfound]
      rw [kept_cons_of_fits hv] at ht
      rcases List.mem_cons.1 ht with rfl | ht
      · exact overlaps_accept (s.overlaps_collect_of_touches c h) ts
      · exact ih ht
    · rw [accept_cons_of_not_fits hv]
      rw [kept_cons_of_not_fits hv] at ht
      exact ih ht

/-- The tickets of a list that are not marked. -/
def unmarked (ms : List (Ticket α × Bool)) : List (Ticket α) :=
  (ms.filter fun m => !m.2).map (·.1)

/-- Marked tickets that are known in their turn may come in between. -/
theorem accept_marked {ms : List (Ticket α × Bool)}
    (h : ∀ i u, ms[i]? = some (u, true) →
      (s.accept c (unmarked (ms.take i))).2.overlaps u = true) :
    s.accept c (ms.map (·.1)) = s.accept c (unmarked ms) := by
  induction ms generalizing c with
  | nil => rfl
  | cons m ms ih =>
    obtain ⟨t, marked⟩ := m
    cases marked with
    | true =>
      have hknown : c.overlaps t = true := h 0 t rfl
      have hrest : s.accept c (ms.map (·.1)) = s.accept c (unmarked ms) :=
        ih fun i u hu => h (i + 1) u hu
      rw [List.map_cons, accept_cons_of_not_fits (not_fits_of_overlaps hknown)]
      exact hrest
    | false =>
      have hunmarked (ms : List (Ticket α × Bool)) :
          unmarked ((t, false) :: ms) = t :: unmarked ms := rfl
      rw [List.map_cons, hunmarked]
      by_cases ht : s.Fits c t
      · obtain ⟨found, hfound⟩ := ht.exists_found
        have hrest : s.accept (s.collect c t) (ms.map (·.1)) =
            s.accept (s.collect c t) (unmarked ms) := by
          refine ih ?_
          intro i u hu
          have hknown := h (i + 1) u hu
          rwa [List.take_succ_cons, hunmarked, accept_cons_of_fits ht hfound] at hknown
        rw [accept_cons_of_fits ht hfound, accept_cons_of_fits ht hfound, hrest]
      · have hrest : s.accept c (ms.map (·.1)) = s.accept c (unmarked ms) := by
          refine ih ?_
          intro i u hu
          have hknown := h (i + 1) u hu
          rwa [List.take_succ_cons, hunmarked, accept_cons_of_not_fits ht] at hknown
        rw [accept_cons_of_not_fits ht, accept_cons_of_not_fits ht, hrest]

/-! ## The best one first -/

/-- No ticket is accepted twice. -/
theorem nodup_accept (s : Search α) (c : Collection) (ts : List (Ticket α)) :
    ((s.accept c ts).1.map fun found => found.ticket.id).Nodup := by
  have hpairs := (accept_pairwise (s := s) (P := fun c t => t.id ∉ c.tickets)
    (R := fun t u => t.id ≠ u.id) (fun c t h => ?_) (fun c t u h => ?_) c ts).2
  · rw [List.pairwise_map] at hpairs
    exact List.pairwise_map.2 hpairs
  · intro hmem
    exact not_fits_of_overlaps (Collection.overlaps_of_mem (.inl hmem)) h
  · rw [(s.collect_people c t).1, NameSet.mem_insert, not_or] at h
    exact ⟨h.2, Ne.symm h.1⟩

theorem pairwise_survivors (s : Search α) (c : Collection) (ts : List (Ticket α)) :
    (s.survivors c ts).Pairwise fun a b => Found.rank s.pivot.isSession a b = .lt := by
  have hids : ((s.survivors c ts).map fun found => found.ticket.id).Nodup :=
    ((sortBy_perm _ _).map _).nodup_iff.2 (s.nodup_accept c ts)
  refine (pairwise_sortBy (Found.rank s.pivot.isSession) _).imp₂ ?_ (List.pairwise_map.1 hids)
  intro a b hle hne
  cases hrank : Found.rank s.pivot.isSession a b with
  | lt => rfl
  | eq => exact absurd (Found.ticket_id_eq_of_rank_eq hrank) hne
  | gt => rw [hrank] at hle; cases hle

/-! ## No trace -/

/-- Those whom a search refuses leave no trace in what it finds of a list, given what it has
    collected before. -/
structure Traceless (s : Search α) (c : Collection) (ts : List (Ticket α)) : Prop where
  /-- Every ticket is told in its turn whether it fits the pivot and those found before it. -/
  inTurn : ∀ i t, ts[i]? = some t →
    (s.verdicts c ts)[i]? = some (t, s.evaluate ((s.kept c (ts.take i)).foldl s.collect c) t)
  /-- The same are found, at the same costs, if those who are refused stay away. -/
  fewer : s.survivors c (s.kept c ts) = s.survivors c ts
  /-- The same are found if more tickets come in between, each of which has its id or a player in
      common with the pivot or with somebody found before it. -/
  more : ∀ ms, unmarked ms = ts →
    (∀ i u, ms[i]? = some (u, true) →
      s.pivot.Touches u ∨ ∃ t ∈ s.kept c (unmarked (ms.take i)), t.Touches u) →
    s.survivors c (ms.map (·.1)) = s.survivors c ts
  /-- Those are found who are told so. -/
  found : (s.survivors c ts).Perm ((s.verdicts c ts).filterMap fun v => v.2.toOption)
  /-- They are ranked, each before the next. -/
  ranked : (s.survivors c ts).Pairwise fun a b => Found.rank s.pivot.isSession a b = .lt
  /-- Nobody is found twice. -/
  distinct : ((s.survivors c ts).map fun found => found.ticket.id).Nodup

/-- Whomever a search refuses leaves no trace, whatever it has collected before. -/
theorem traceless_reached (s : Search α) (changes : List Change) (ts : List (Ticket α)) :
    s.Traceless (s.reached changes) ts where
  inTurn _ _ ht := s.getElem?_verdicts _ ht
  fewer := by rw [survivors, accept_kept, survivors]
  more := by
    rintro ms rfl htouches
    have hmarked : s.accept (s.reached changes) (ms.map (·.1)) =
        s.accept (s.reached changes) (unmarked ms) := by
      refine accept_marked ?_
      intro i u hu
      rcases htouches i u hu with hpivot | ⟨t, ht, htouch⟩
      · exact overlaps_accept (overlaps_reached hpivot changes) _
      · exact overlaps_of_mem_kept ht htouch
    rw [survivors, hmarked, survivors]
  found := by
    rw [survivors, accept_eq]
    exact sortBy_perm _ _
  ranked := s.pairwise_survivors _ ts
  distinct := ((sortBy_perm _ _).map _).nodup_iff.2 (s.nodup_accept _ ts)

/-! ### A masked ball -/

/-- Guests of a like age, no two of whom wear one mask. -/
def ball : RuleSet Rat :=
  { RuleSet.ofAlliance (.ofBounds ⟨2, 4, 1, 1⟩) with
    distances := [⟨"age", 10, none, none⟩]
    options := [⟨"mask", .unique⟩] }

/-- The ticket of guests who come together. -/
def guest (id : String) (players : List String) (age : Rat) (mask : String) : Ticket Rat where
  id := id
  channel := "ball"
  partyId := id
  members := players.map .ofId
  attributes := .ofList [("age", .number age), ("mask", .text mask)]
  priority := 0
  createdAt := .ofNanos 0
  latencies := ∅
  excluded := []

/-- The search of a host for guests. -/
def ballSearch : Search Rat where
  source := ball
  active := ball
  pivot := .ticket (guest "host" ["h"] 30 "sun")
  region := none
  mode := none
  now := .ofNanos 0

/-- Those who come, the second of whom wears the mask of the first. Those who are marked are the
    host again, a friend of the first guest and the last guest again. -/
def guests : List (Ticket Rat × Bool) :=
  [(guest "host" ["i"] 30 "star", true), (guest "a" ["ann"] 31 "moon", false),
    (guest "f" ["fay", "ann"] 30 "owl", true), (guest "b" ["bob"] 30 "moon", false),
    (guest "c" ["cat"] 34 "star", false), (guest "c" ["cat"] 34 "star", true)]

/-- Those of them who are found. -/
def welcome : List (Found Rat) :=
  [⟨guest "a" ["ann"] 31 "moon", 1, none⟩, ⟨guest "c" ["cat"] 34 "star", 4, none⟩]

theorem ball_run : ballSearch.run (unmarked guests) = welcome := by
  have haccept : (ballSearch.accept ballSearch.start (unmarked guests)).1 = welcome := by
    decide +kernel
  rw [run, haccept]
  exact sortBy_eq_self (by decide +kernel)

/-- Nobody who is marked makes a difference, nor does the guest who is refused. -/
theorem ball_traceless :
    ballSearch.survivors (ballSearch.reached []) (guests.map (·.1)) = welcome ∧
      ballSearch.run (welcome.map (·.ticket)) = welcome := by
  have htraceless := ballSearch.traceless_reached [] (unmarked guests)
  have hrun : ballSearch.survivors (ballSearch.reached []) (unmarked guests) = welcome :=
    (ballSearch.survivors_start _).trans ball_run
  have hkept : ballSearch.kept (ballSearch.reached []) (unmarked guests) =
      welcome.map (·.ticket) := by decide +kernel
  constructor
  · rw [← hrun]
    refine htraceless.more guests rfl fun i u hu => ?_
    have hi : i < 6 := (List.getElem?_eq_some_iff.1 hu).1
    interval_cases i <;> cases hu
    · exact .inl (.inl (by decide))
    · exact .inr ⟨guest "a" ["ann"] 31 "moon", by decide +kernel,
        .inr ⟨"ann", by decide, by decide⟩⟩
    · exact .inr ⟨guest "c" ["cat"] 34 "star", by decide +kernel, .inl rfl⟩
  · have hfewer := htraceless.fewer
    rw [hkept, hrun] at hfewer
    exact hfewer

end Search

end Matchmaking
