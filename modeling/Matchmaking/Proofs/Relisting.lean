import Matchmaking.Proofs.Independence

/-!
# The order in which a search looks at tickets

Two lists that differ by independent neighbours which changed places have the same
entries (`Relists`). Lists without repetitions do so if entries that are not independent
are in the same order in both (`Relists.of_perm`).

A search accepts the same tickets of both (`Search.accept_relists`), and as it ranks
different tickets differently, it finds the same (`Search.run_eq_of_relists`).
-/

namespace Matchmaking

/-- Two lists have the same entries, in an order that differs by independent neighbours
    that changed places. -/
inductive Relists {β : Type} (independent : β → β → Prop) : List β → List β → Prop
  | nil : Relists independent [] []
  | cons (x : β) {xs ys : List β} : Relists independent xs ys →
    Relists independent (x :: xs) (x :: ys)
  | swap {x y : β} : independent x y → ∀ xs, Relists independent (x :: y :: xs) (y :: x :: xs)
  | trans {xs ys zs : List β} : Relists independent xs ys → Relists independent ys zs →
    Relists independent xs zs

namespace Relists

variable {β : Type} {independent : β → β → Prop} {xs ys : List β}

theorem refl (xs : List β) : Relists independent xs xs := by
  induction xs with
  | nil => exact .nil
  | cons x xs ih => exact ih.cons x

theorem perm (h : Relists independent xs ys) : xs.Perm ys := by
  induction h with
  | nil => exact .refl _
  | cons x _ ih => exact ih.cons x
  | swap _ xs => exact .swap _ _ xs
  | trans _ _ ih ih' => exact ih.trans ih'

theorem mono {independent' : β → β → Prop} (himp : ∀ x y, independent x y → independent' x y)
    (h : Relists independent xs ys) : Relists independent' xs ys := by
  induction h with
  | nil => exact .nil
  | cons x _ ih => exact ih.cons x
  | swap hxy xs => exact .swap (himp _ _ hxy) xs
  | trans _ _ ih ih' => exact ih.trans ih'

theorem filter (p : β → Bool) (h : Relists independent xs ys) :
    Relists independent (xs.filter p) (ys.filter p) := by
  induction h with
  | nil => exact .nil
  | cons x _ ih =>
    simp only [List.filter_cons]
    split_ifs
    · exact ih.cons x
    · exact ih
  | swap hxy xs =>
    simp only [List.filter_cons]
    split_ifs
    · exact .swap hxy _
    · exact .refl _
    · exact .refl _
    · exact .refl _
  | trans _ _ ih ih' => exact ih.trans ih'

/-- An entry that is independent of all before it may be listed first. -/
theorem move_to_front {x : β} (hxs : ∀ y ∈ xs, independent x y) (ys : List β) :
    Relists independent (x :: (xs ++ ys)) (xs ++ x :: ys) := by
  induction xs with
  | nil => exact .refl _
  | cons y xs ih =>
    obtain ⟨hy, hxs⟩ := List.forall_mem_cons.1 hxs
    exact .trans (.swap hy _) ((ih hxs).cons y)

/-- What comes behind the first occurrence of an entry. -/
theorem mem_of_pair_sublist {x y : β} {before after : List β} (hx : x ∉ before)
    (h : [x, y].Sublist (before ++ x :: after)) : y ∈ after := by
  obtain ⟨front, back, heq, hfront, hback⟩ := List.sublist_append_iff.1 h
  cases front with
  | nil =>
    rw [List.nil_append] at heq
    rw [← heq, List.cons_sublist_cons] at hback
    exact hback.subset (List.mem_singleton_self y)
  | cons z front =>
    obtain ⟨rfl, _⟩ := List.cons.inj heq
    exact absurd (hfront.subset List.mem_cons_self) hx

theorem sublist_of_not_mem {x : β} {part before after : List β} (hx : x ∉ part)
    (h : part.Sublist (before ++ x :: after)) : part.Sublist (before ++ after) := by
  obtain ⟨front, back, rfl, hfront, hback⟩ := List.sublist_append_iff.1 h
  rcases List.sublist_cons_iff.1 hback with hback | ⟨rest, rfl, _⟩
  · exact hfront.append hback
  · exact absurd (List.mem_append_right front List.mem_cons_self) hx

/-- If entries that are not independent keep their order, the others may be listed in
    any order. -/
theorem of_perm (hxs : xs.Nodup) (h : xs.Perm ys)
    (horder : ∀ x y, [x, y].Sublist xs → ¬independent x y → [x, y].Sublist ys) :
    Relists independent xs ys := by
  induction xs generalizing ys with
  | nil =>
    obtain rfl := h.nil_eq
    exact .nil
  | cons x xs ih =>
    obtain ⟨before, after, rfl⟩ := List.append_of_mem (h.subset List.mem_cons_self)
    obtain ⟨hx, hxs⟩ := List.nodup_cons.1 hxs
    have hperm : xs.Perm (before ++ after) := (h.trans List.perm_middle).cons_inv
    have hnot : x ∉ before ++ after := fun hmem => hx (hperm.mem_iff.2 hmem)
    -- What now stands before `x` stood behind it.
    have hbefore : ∀ y ∈ before, independent x y := by
      intro y hy
      by_contra hxy
      have hmem : y ∈ xs := hperm.mem_iff.2 (List.mem_append_left _ hy)
      have hsub := horder x y ((List.singleton_sublist.2 hmem).cons_cons x) hxy
      have hafter := mem_of_pair_sublist (fun hmem => hnot (List.mem_append_left _ hmem)) hsub
      exact List.disjoint_of_nodup_append (hperm.nodup_iff.1 hxs) hy hafter
    have hrest : Relists independent xs (before ++ after) := by
      refine ih hxs hperm fun y z hyz hindependent => ?_
      exact sublist_of_not_mem (fun hmem => hx (hyz.subset hmem))
        (horder y z (hyz.cons x) hindependent)
    exact (hrest.cons x).trans (move_to_front hbefore after)

end Relists

variable {α : Type} [Scalar α]

namespace Search

variable {s : Search α} {c : Collection} {t u : Ticket α} {ts us : List (Ticket α)}

theorem Fits.exists_found (h : s.Fits c t) : ∃ found, s.found? t = some found := by
  obtain ⟨fit, hfit⟩ := Option.isSome_iff_exists.1 h.region
  exact ⟨_, by rw [found?, hfit, Option.map_some]⟩

theorem accept_cons_of_fits (h : s.Fits c t) {found : Found α} (hfound : s.found? t = some found)
    (ts : List (Ticket α)) : s.accept c (t :: ts) =
      (found :: (s.accept (s.collect c t) ts).1, (s.accept (s.collect c t) ts).2) := by
  rw [accept, evaluate_eq_ok_iff.2 ⟨h, hfound⟩]

theorem accept_cons_of_not_fits (h : ¬s.Fits c t) (ts : List (Ticket α)) :
    s.accept c (t :: ts) = s.accept c ts := by
  rw [accept]
  split
  · rfl
  · rename_i found hfound
    exact absurd (evaluate_eq_ok_iff.1 hfound).1 h

theorem found?_of_mem_accept {found : Found α} {ts : List (Ticket α)}
    (h : found ∈ (s.accept c ts).1) : s.found? found.ticket = some found := by
  induction ts generalizing c with
  | nil => cases h
  | cons t ts ih =>
    rw [accept] at h
    split at h
    · exact ih h
    · rename_i found' hfound
      rcases List.mem_cons.1 h with rfl | h
      · rw [ticket_of_evaluate hfound]
        exact (evaluate_eq_ok_iff.1 hfound).2
      · exact ih h

/-- Independent neighbours may change places. -/
theorem accept_swap (htu : s.active.Independent t u) (c : Collection) (ts : List (Ticket α)) :
    (s.accept c (t :: u :: ts)).1.Perm (s.accept c (u :: t :: ts)).1 ∧
      (s.accept c (t :: u :: ts)).2 = (s.accept c (u :: t :: ts)).2 := by
  by_cases ht : s.Fits c t
  · obtain ⟨found, hfound⟩ := ht.exists_found
    by_cases hu : s.Fits c u
    · obtain ⟨found', hfound'⟩ := hu.exists_found
      rw [accept_cons_of_fits ht hfound, accept_cons_of_fits (ht.collect hu htu) hfound',
        accept_cons_of_fits hu hfound', accept_cons_of_fits (hu.collect ht htu.symm) hfound,
        collect_right_comm ht.shares hu.shares]
      exact ⟨.swap _ _ _, rfl⟩
    · rw [accept_cons_of_not_fits hu, accept_cons_of_fits ht hfound,
        accept_cons_of_not_fits fun h => hu (ht.shares.of_collect h), accept_cons_of_fits ht hfound]
      exact ⟨.refl _, rfl⟩
  · rw [accept_cons_of_not_fits ht]
    by_cases hu : s.Fits c u
    · obtain ⟨found', hfound'⟩ := hu.exists_found
      rw [accept_cons_of_fits hu hfound', accept_cons_of_fits hu hfound',
        accept_cons_of_not_fits fun h => ht (hu.shares.of_collect h)]
      exact ⟨.refl _, rfl⟩
    · rw [accept_cons_of_not_fits hu, accept_cons_of_not_fits hu, accept_cons_of_not_fits ht]
      exact ⟨.refl _, rfl⟩

/-- The same tickets are accepted in an order that differs by independent ones. -/
theorem accept_relists (h : Relists s.active.Independent ts us) (c : Collection) :
    (s.accept c ts).1.Perm (s.accept c us).1 ∧ (s.accept c ts).2 = (s.accept c us).2 := by
  induction h generalizing c with
  | nil => exact ⟨.refl _, rfl⟩
  | @cons t ts us _ ih =>
    by_cases ht : s.Fits c t
    · obtain ⟨found, hfound⟩ := ht.exists_found
      obtain ⟨hperm, hcollection⟩ := ih (s.collect c t)
      rw [accept_cons_of_fits ht hfound, accept_cons_of_fits ht hfound]
      exact ⟨hperm.cons found, hcollection⟩
    · rw [accept_cons_of_not_fits ht, accept_cons_of_not_fits ht]
      exact ih c
  | swap htu ts => exact accept_swap htu c ts
  | trans _ _ ih ih' =>
    exact ⟨(ih c).1.trans (ih' c).1, (ih c).2.trans (ih' c).2⟩

end Search

/-! ## The best one first -/

instance (byLatency : Bool) : Std.TransCmp (@Found.rank α _ byLatency) := by
  have hpriority : Std.TransCmp fun a b : Found α =>
      compare b.ticket.priority a.ticket.priority :=
    transCmp_swap (compareOn fun a : Found α => a.ticket.priority)
  have hscore : Std.TransCmp fun a b : Found α => Scalar.rank a.score b.score :=
    transCmp_on Scalar.rank fun a : Found α => a.score
  have hlatency : Std.TransCmp fun a b : Found α =>
      if byLatency then
        compare (a.latency.getD Latency.greatest) (b.latency.getD Latency.greatest)
      else .eq := by
    cases byLatency with
    | true => exact transCmp_on compare fun a : Found α => a.latency.getD Latency.greatest
    | false => exact { eq_swap := rfl, isLE_trans := fun _ _ => rfl }
  have hplace : Std.TransCmp fun a b : Found α =>
      Instant.rank a.ticket.createdAt b.ticket.createdAt :=
    transCmp_on Instant.rank fun a : Found α => a.ticket.createdAt
  unfold Found.rank
  infer_instance

theorem Found.ticket_id_eq_of_rank_eq {byLatency : Bool} {a b : Found α}
    (h : Found.rank byLatency a b = .eq) : a.ticket.id = b.ticket.id := by
  simp only [rank, compareLex, Ordering.then_eq_eq] at h
  exact Std.LawfulEqOrd.eq_of_compare h.2.2.2.2

/-- At one cost, and where latency is no matter, tickets are ranked as in the queue. -/
theorem Found.rank_of_score_eq {x y : Found α} (h : x.score = y.score) :
    Found.rank false x y = Ticket.rank x.ticket y.ticket := by
  simp only [Found.rank, Ticket.rank, compareLex, compareOn, h, Std.ReflCmp.compare_self,
    Bool.false_eq_true, if_false]
  rfl

/-- If all tickets cost the same, a new session finds them in the order in which they
    come. -/
theorem Search.run_eq_accept {s : Search α} (hpivot : s.pivot.isSession = false) {score : α}
    (hscore : ∀ t found, s.found? t = some found → found.score = score) {ts : List (Ticket α)}
    (hsorted : ts.Pairwise fun t u => (Ticket.rank t u).isLE = true) :
    s.run ts = (s.accept s.start ts).1 := by
  refine sortBy_eq_self ?_
  have hpart := hsorted.sublist (accept_sublist (s := s) s.start ts)
  refine (List.pairwise_map.1 hpart).imp_of_mem fun {x y} hx hy hxy => ?_
  have hsame : x.score = y.score :=
    (hscore _ x (found?_of_mem_accept hx)).trans (hscore _ y (found?_of_mem_accept hy)).symm
  rwa [hpivot, Found.rank_of_score_eq hsame]

/-- What is found of a list is known by its rank: what is found of a ticket depends on the
    ticket only. -/
theorem Search.eq_of_rank_eq {s : Search α} {byLatency : Bool} {ts : List (Ticket α)}
    (hid : (ts.map (·.id)).Nodup) :
    ∀ a ∈ (s.accept s.start ts).1, ∀ b ∈ (s.accept s.start ts).1,
      Found.rank byLatency a b = .eq → a = b := by
  intro a ha b hb hab
  have hmem {a : Found α} (ha : a ∈ (s.accept s.start ts).1) : a.ticket ∈ ts :=
    (accept_sublist s.start ts).subset (List.mem_map_of_mem ha)
  have hticket : a.ticket = b.ticket :=
    Ticket.eq_of_id_eq hid (hmem ha) (hmem hb) (Found.ticket_id_eq_of_rank_eq hab)
  exact Option.some_inj.1
    ((found?_of_mem_accept ha).symm.trans (hticket ▸ found?_of_mem_accept hb))

/-- A search finds the same in an order that differs by independent tickets. -/
theorem Search.run_eq_of_relists {s : Search α} {ts us : List (Ticket α)}
    (hid : (ts.map (·.id)).Nodup) (h : Relists s.active.Independent ts us) : s.run ts = s.run us :=
  sortBy_eq_of_perm (accept_relists h s.start).1 (eq_of_rank_eq hid)

end Matchmaking
