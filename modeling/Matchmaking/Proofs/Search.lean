import Mathlib.Data.List.Perm.Subperm
import Matchmaking.Proofs.Ticket
import Matchmaking.Search

/-!
# What a search collects

A ticket is collected if it fits what was collected before it (`Search.Fits`),
and its players belong to the collection from then on (`Search.collect_people`).
What every ticket that fits has to do with a collection, and what a collection
keeps of the tickets in it, so holds of all tickets of a search and between any two of
them (`Search.accept_pairwise`).

So the tickets of a search are tickets of the list, each at most once, and no two of
them, nor one of them and the pivot, have a player in common
(`Search.run_subperm`, `Search.run_apart`).
-/

namespace Matchmaking

variable {α : Type}

/-- Two tickets have no player in common. -/
def Ticket.Apart (t u : Ticket α) : Prop := ∀ x ∈ t.userIds, x ∉ u.userIds

theorem Ticket.Apart.symm {t u : Ticket α} (h : t.Apart u) : u.Apart t :=
  fun x hx hx' => h x hx' hx

/-- Whether a change adds members. -/
def Change.addsMembers : Change → Bool
  | .members .. => true
  | _ => false

namespace Collection

/-- What no change touches stays as it is. -/
theorem view_applyAll {β : Type} (view : Collection → β) {narrowing : Bool} {changes : List Change}
    (h : ∀ ch ∈ changes, ∀ c : Collection, view (c.apply narrowing ch) = view c) (c : Collection) :
    view (c.applyAll narrowing changes) = view c := by
  induction changes generalizing c with
  | nil => rfl
  | cons ch changes ih =>
    obtain ⟨hch, hchanges⟩ := List.forall_mem_cons.1 h
    exact (ih hchanges (c.apply narrowing ch)).trans (hch c)

/-- Two collections are of the same people. -/
structure SamePeople (c d : Collection) : Prop where
  tickets : d.tickets = c.tickets
  parties : d.parties = c.parties
  users : d.users = c.users
  blocked : d.blocked = c.blocked

/-- Only members make a difference in who is collected. -/
theorem samePeople_apply (narrowing : Bool) {ch : Change} (h : ch.addsMembers = false)
    (c : Collection) : c.SamePeople (c.apply narrowing ch) := by
  cases ch with
  | platforms p => exact ⟨rfl, rfl, rfl, rfl⟩
  | share name names =>
    simp only [apply]
    split <;> exact ⟨rfl, rfl, rfl, rfl⟩
  | claim name names => exact ⟨rfl, rfl, rfl, rfl⟩
  | members ticket users blocked => cases h

theorem samePeople_applyAll (narrowing : Bool) {changes : List Change}
    (h : ∀ ch ∈ changes, ch.addsMembers = false) (c : Collection) :
    c.SamePeople (c.applyAll narrowing changes) where
  tickets := view_applyAll (·.tickets) (fun ch hch d => (samePeople_apply _ (h ch hch) d).tickets) c
  parties := view_applyAll (·.parties) (fun ch hch d => (samePeople_apply _ (h ch hch) d).parties) c
  users := view_applyAll (·.users) (fun ch hch d => (samePeople_apply _ (h ch hch) d).users) c
  blocked := view_applyAll (·.blocked) (fun ch hch d => (samePeople_apply _ (h ch hch) d).blocked) c

end Collection

namespace Search

variable [Scalar α] {s : Search α}

/-! ## A ticket that fits -/

/-- A ticket fits a collection: nothing is held against it. -/
structure Fits (s : Search α) (c : Collection) (t : Ticket α) : Prop where
  fresh : c.overlaps t = false
  session : s.sessionRefusal? t = none
  mode : s.acceptsMode t = true
  near : ∀ d ∈ s.active.distances, s.isNear t d = true
  platforms : s.acceptsPlatforms c t = true
  options : ∀ o ∈ s.options, agrees c t o = true
  attributes : s.attributeRefusal? t = none
  users : s.acceptsUsers c t = true
  region : (s.fit? t).isSome = true
  criteria : s.criteriaRefusal? t = none

theorem refusal?_eq_none_iff {c : Collection} {t : Ticket α} :
    s.refusal? c t = none ↔ s.Fits c t := by
  simp only [refusal?, Option.or_eq_none_iff, Option.map_eq_none_iff, List.find?_eq_none,
    ite_eq_right_iff, ite_eq_left_iff, reduceCtorEq, imp_false, Bool.not_eq_true,
    Bool.not_eq_true', Bool.not_eq_false]
  exact ⟨fun ⟨h₁, h₂, h₃, h₄, h₅, h₆, h₇, h₈, h₉, h₁₀⟩ =>
      ⟨h₁, h₂, h₃, h₄, h₅, h₆, h₇, h₈, h₉, h₁₀⟩,
    fun ⟨h₁, h₂, h₃, h₄, h₅, h₆, h₇, h₈, h₉, h₁₀⟩ =>
      ⟨h₁, h₂, h₃, h₄, h₅, h₆, h₇, h₈, h₉, h₁₀⟩⟩

/-- What is found is a ticket that fits, at its cost. -/
theorem evaluate_eq_ok_iff {c : Collection} {t : Ticket α} {found : Found α} :
    s.evaluate c t = .ok found ↔ s.Fits c t ∧ s.found? t = some found := by
  rw [← refusal?_eq_none_iff, evaluate]
  split <;> simp_all

theorem ticket_of_evaluate {c : Collection} {t : Ticket α} {found : Found α}
    (h : s.evaluate c t = .ok found) : found.ticket = t := by
  obtain ⟨_, _, rfl⟩ := Option.map_eq_some_iff.1 (evaluate_eq_ok_iff.1 h).2
  rfl

/-- A ticket that fits has no player of the collection. -/
theorem Fits.not_mem_users {c : Collection} {t : Ticket α} (h : s.Fits c t) {x : String}
    (hx : x ∈ t.userIds) : x ∉ c.users := by
  have := h.fresh
  simp only [Collection.overlaps, Bool.or_eq_false_iff, List.any_eq_false] at this
  obtain ⟨m, hm, rfl⟩ := List.mem_map.1 (NameSet.mem_ofList.1 hx)
  simpa using this.2 m hm

/-! ## Collecting -/

/-- A ticket adds to an option what it offers, if parties must share a name or if
    none may have a name twice. -/
theorem optionChange?_cases {c : Collection} {t : Ticket α} {o : MatchOption} {ch : Change}
    (h : optionChange? c t o = some ch) :
    (o.kind = .any ∧ ch = .share o.name (t.optionNames o.name)) ∨
      (o.kind = .unique ∧ ch = .claim o.name (t.optionNames o.name)) := by
  simp only [optionChange?] at h
  split at h
  · split at h
    · split_ifs at h
      exact .inl ⟨by assumption, (Option.some_inj.1 h).symm⟩
    · cases h
  · exact .inr ⟨by assumption, (Option.some_inj.1 h).symm⟩
  · cases h

/-- The people of a ticket belong to the collection once it is collected. -/
theorem collect_people (s : Search α) (c : Collection) (t : Ticket α) :
    (s.collect c t).tickets = c.tickets.insert t.id ∧ (s.collect c t).parties = c.parties ∧
      (s.collect c t).users = c.users.union t.userIds ∧
      (s.collect c t).blocked = c.blocked.union t.blocked := by
  -- The members come last, and what comes before them is about platforms and options.
  obtain ⟨first, hfirst, hchanges⟩ : ∃ first : List Change, (∀ ch ∈ first, ch.addsMembers = false) ∧
      s.changes c t = first ++ [.members t.id t.userIds t.blocked] := by
    refine ⟨_, fun ch hch => ?_, rfl⟩
    rcases List.mem_append.1 hch with hch | hch
    · split_ifs at hch
      · rw [List.mem_singleton.1 hch]
        rfl
      · cases hch
    · obtain ⟨o, _, ho⟩ := List.mem_filterMap.1 hch
      rcases optionChange?_cases ho with ⟨_, rfl⟩ | ⟨_, rfl⟩ <;> rfl
  have hsame := Collection.samePeople_applyAll s.active.narrowAny hfirst c
  have hcollect : s.collect c t = (c.applyAll s.active.narrowAny first).apply s.active.narrowAny
      (.members t.id t.userIds t.blocked) := by
    rw [collect, hchanges, Collection.applyAll, List.foldl_append]
    rfl
  rw [hcollect]
  exact ⟨congrArg (·.insert t.id) hsame.tickets, hsame.parties,
    congrArg (·.union t.userIds) hsame.users, congrArg (·.union t.blocked) hsame.blocked⟩

/-- What a ticket has in common with a collection it has in common with a larger one. -/
theorem overlaps_collect {c : Collection} (t : Ticket α) {u : Ticket α}
    (h : c.overlaps u = true) : (s.collect c t).overlaps u = true := by
  obtain ⟨htickets, hparties, husers, _⟩ := s.collect_people c t
  simp only [Collection.overlaps, Bool.or_eq_true, List.any_eq_true, NameSet.contains_iff,
    htickets, hparties, husers, NameSet.mem_insert, NameSet.mem_union] at h ⊢
  refine h.imp (Or.imp_left .inr) ?_
  rintro ⟨m, hm, hmc⟩
  exact ⟨m, hm, .inl hmc⟩

theorem accept_sublist (c : Collection) (ts : List (Ticket α)) :
    ((s.accept c ts).1.map (·.ticket)).Sublist ts := by
  induction ts generalizing c with
  | nil => exact .slnil
  | cons t ts ih =>
    rw [accept]
    split
    · exact (ih c).cons t
    · rename_i found hfound
      rw [List.map_cons, ticket_of_evaluate hfound]
      exact (ih _).cons_cons t

/-- If `P` holds of a collection and every ticket that fits it, and says of a
    collection with a ticket in it what it says without that ticket, and `R` of the
    ticket, then `P` holds of the collection that a list comes to and all tickets that
    are accepted, and `R` of these. -/
theorem accept_pairwise {P : Collection → Ticket α → Prop} {R : Ticket α → Ticket α → Prop}
    (hfits : ∀ c t, s.Fits c t → P c t)
    (hcollect : ∀ c t u, P (s.collect c t) u → P c u ∧ R t u) (c : Collection)
    (ts : List (Ticket α)) :
    (∀ t ∈ (s.accept c ts).1.map (·.ticket), P c t) ∧
      ((s.accept c ts).1.map (·.ticket)).Pairwise R := by
  induction ts generalizing c with
  | nil => exact ⟨List.forall_mem_nil _, .nil⟩
  | cons t ts ih =>
    rw [accept]
    split
    · exact ih c
    · rename_i found hfound
      -- What comes later fits a collection that has `t` too.
      obtain ⟨hlater, hpairs⟩ := ih (s.collect c t)
      rw [List.map_cons, ticket_of_evaluate hfound]
      exact ⟨List.forall_mem_cons.2 ⟨hfits c t (evaluate_eq_ok_iff.1 hfound).1,
          fun u hu => (hcollect c t u (hlater u hu)).1⟩,
        hpairs.cons fun u hu => (hcollect c t u (hlater u hu)).2⟩

/-- The tickets that are accepted have no player of the collection that they come
    to, nor of one another. -/
theorem accept_apart (c : Collection) (ts : List (Ticket α)) :
    (∀ t ∈ (s.accept c ts).1.map (·.ticket), ∀ x ∈ t.userIds, x ∉ c.users) ∧
      ((s.accept c ts).1.map (·.ticket)).Pairwise Ticket.Apart := by
  refine accept_pairwise (P := fun c t => ∀ x ∈ t.userIds, x ∉ c.users)
    (fun c t h x hx => h.not_mem_users hx) (fun c t u h => ?_) c ts
  simp only [(s.collect_people c t).2.2.1, NameSet.mem_union, not_or] at h
  exact ⟨fun x hx => (h x hx).1, Ticket.Apart.symm fun x hx => (h x hx).2⟩

/-! ## The whole search -/

theorem run_perm_accept (s : Search α) (ts : List (Ticket α)) :
    ((s.run ts).map (·.ticket)).Perm ((s.accept s.start ts).1.map (·.ticket)) :=
  (sortBy_perm _ _).map _

/-- Whatever is found fits the search and something that it had collected. -/
theorem run_fits (s : Search α) (ts : List (Ticket α)) :
    ∀ t ∈ (s.run ts).map (·.ticket), ∃ c, s.Fits c t := by
  obtain ⟨hfits, _⟩ := accept_pairwise (s := s) (P := fun _ t => ∃ c, s.Fits c t)
    (R := fun _ _ => True) (fun c _ h => ⟨c, h⟩) (fun _ _ _ h => ⟨h, trivial⟩) s.start ts
  exact fun t ht => hfits t ((s.run_perm_accept ts).mem_iff.1 ht)

/-- Whatever is found has nothing in common with the pivot. -/
theorem run_overlaps (s : Search α) (ts : List (Ticket α)) :
    ∀ t ∈ (s.run ts).map (·.ticket), s.start.overlaps t = false := by
  obtain ⟨hfresh, _⟩ := accept_pairwise (s := s) (P := fun c t => c.overlaps t = false)
    (R := fun _ _ => True) (fun _ _ h => h.fresh)
    (fun _ t _ h => ⟨Bool.eq_false_iff.2 fun h' => Bool.eq_false_iff.1 h (overlaps_collect t h'),
      trivial⟩) s.start ts
  exact fun t ht => hfresh t ((s.run_perm_accept ts).mem_iff.1 ht)

theorem run_subperm (s : Search α) (ts : List (Ticket α)) :
    ((s.run ts).map (·.ticket)).Subperm ts :=
  ⟨_, (s.run_perm_accept ts).symm, accept_sublist _ _⟩

/-- No two tickets of a search have a player in common, nor has one of them a
    player of the pivot. -/
theorem run_apart (s : Search α) (ts : List (Ticket α)) :
    (∀ t ∈ (s.run ts).map (·.ticket), ∀ x ∈ t.userIds, x ∉ s.pivot.userIds) ∧
      ((s.run ts).map (·.ticket)).Pairwise Ticket.Apart := by
  have hperm := s.run_perm_accept ts
  obtain ⟨hpivot, hapart⟩ := s.accept_apart s.start ts
  exact ⟨fun t ht => hpivot t (hperm.mem_iff.1 ht),
    (hperm.pairwise_iff Ticket.Apart.symm).2 hapart⟩

end Search

end Matchmaking
