import Matchmaking.Proofs.Relisting

/-!
# A search with a ticket more

A ticket that is accepted may keep others out that come behind it. If it keeps nobody out
that is accepted without it, nobody else is accepted with it either
(`Search.accept_collect`), and it takes its place among them by its rank. So a search with
a ticket more finds the same as without it, or the ticket in some place besides
(`Search.run_middle`).
-/

namespace Matchmaking

/-! ## Sorting with an entry more -/

/-- An entry more has some place in a sorted list, and the others stay as they are. -/
theorem exists_sortBy_cons {β : Type} (rank : β → β → Ordering) [Std.TransCmp rank] (x : β)
    {xs : List β} (hxs : ∀ a ∈ xs, ∀ b ∈ xs, rank a b = .eq → a = b) :
    ∃ before after, sortBy rank xs = before ++ after ∧
      sortBy rank (x :: xs) = before ++ x :: after ∧
      (∀ a ∈ before, (rank a x).isLE = true) ∧ ∀ a ∈ after, (rank x a).isLE = true := by
  have hmem : x ∈ sortBy rank (x :: xs) := mem_sortBy.2 List.mem_cons_self
  obtain ⟨before, after, hmore⟩ := List.append_of_mem hmem
  have hsorted := pairwise_sortBy rank (x :: xs)
  have hperm : (before ++ after).Perm xs :=
    (List.perm_middle.symm.trans (hmore ▸ sortBy_perm rank (x :: xs))).cons_inv
  rw [hmore] at hsorted
  have hpart : (before ++ after).Sublist (before ++ x :: after) :=
    (List.sublist_cons_self x after).append_left before
  obtain ⟨_, hafter, hcross⟩ := List.pairwise_append.1 hsorted
  refine ⟨before, after, ?_, hmore, fun a ha => hcross a ha x List.mem_cons_self,
    (List.pairwise_cons.1 hafter).1⟩
  rw [← sortBy_eq_of_perm hperm fun a ha b hb => hxs a (hperm.subset ha) b (hperm.subset hb),
    sortBy_eq_self (hsorted.sublist hpart)]

variable {α : Type} [Scalar α]

theorem Found.priority_le {byLatency : Bool} {a b : Found α}
    (h : (Found.rank byLatency a b).isLE = true) : b.ticket.priority ≤ a.ticket.priority := by
  refine Int.isLE_compare.1 ?_
  simp only [rank, compareLex] at h
  cases hcompare : compare b.ticket.priority a.ticket.priority with
  | gt => rw [hcompare] at h; cases h
  | _ => rfl

namespace Search

variable {s : Search α} {c : Collection} {x : Ticket α} {ts us before after : List (Ticket α)}

theorem accept_append (c : Collection) (ts us : List (Ticket α)) :
    (s.accept c (ts ++ us)).1 = (s.accept c ts).1 ++ (s.accept (s.accept c ts).2 us).1 := by
  induction ts generalizing c with
  | nil => rfl
  | cons t ts ih =>
    by_cases ht : s.Fits c t
    · obtain ⟨found, hfound⟩ := ht.exists_found
      rw [List.cons_append, accept_cons_of_fits ht hfound, accept_cons_of_fits ht hfound, ih]
      rfl
    · rw [List.cons_append, accept_cons_of_not_fits ht, accept_cons_of_not_fits ht, ih]

/-- Behind a ticket that keeps nobody out, the same are accepted. -/
theorem accept_collect (hid : (ts.map (·.id)).Nodup) (hx : s.Shares c x)
    (h : (s.accept c ts).1.map (·.ticket) ⊆ (s.accept (s.collect c x) ts).1.map (·.ticket)) :
    (s.accept (s.collect c x) ts).1 = (s.accept c ts).1 := by
  induction ts generalizing c with
  | nil => rfl
  | cons t ts ih =>
    obtain ⟨hnew, hts⟩ := List.nodup_cons.1 hid
    by_cases ht : s.Fits c t
    · obtain ⟨found, hfound⟩ := ht.exists_found
      have hticket : found.ticket = t := ticket_of_evaluate (evaluate_eq_ok_iff.2 ⟨ht, hfound⟩)
      have hmem (c : Collection) {u : Ticket α} (hu : u ∈ (s.accept c ts).1.map (·.ticket)) :
          u ≠ t := fun heq => hnew (List.mem_map_of_mem (heq ▸ (accept_sublist c ts).subset hu))
      rw [accept_cons_of_fits ht hfound, List.map_cons, hticket] at h
      -- Whoever comes behind is another ticket, so this one is accepted in its own turn.
      have hfits : s.Fits (s.collect c x) t := by
        by_contra hnot
        rw [accept_cons_of_not_fits hnot] at h
        exact hmem _ (h List.mem_cons_self) rfl
      rw [accept_cons_of_fits hfits hfound, List.map_cons, hticket,
        collect_right_comm hx ht.shares] at h
      rw [accept_cons_of_fits hfits hfound, accept_cons_of_fits ht hfound,
        collect_right_comm hx ht.shares, ih hts (hx.collect hfits.shares) fun u hu => ?_]
      exact (List.mem_cons.1 (h (List.mem_cons_of_mem _ hu))).resolve_left (hmem _ hu)
    · have hnot : ¬s.Fits (s.collect c x) t := fun h => ht (hx.of_collect h)
      rw [accept_cons_of_not_fits ht, accept_cons_of_not_fits hnot] at h
      rw [accept_cons_of_not_fits ht, accept_cons_of_not_fits hnot, ih hts hx h]

/-- With a ticket more that, if it is accepted, keeps nobody out, the same are accepted, or
    the ticket besides. -/
theorem accept_middle (hid : ((before ++ x :: after).map (·.id)).Nodup)
    (h : x ∈ (s.accept c (before ++ x :: after)).1.map (·.ticket) →
      (s.accept c (before ++ after)).1.map (·.ticket) ⊆
        (s.accept c (before ++ x :: after)).1.map (·.ticket)) :
    (s.accept c (before ++ x :: after)).1 = (s.accept c (before ++ after)).1 ∨
      ∃ found, found.ticket = x ∧ (s.accept c (before ++ x :: after)).1.Perm
        (found :: (s.accept c (before ++ after)).1) := by
  obtain ⟨_, hbehind, hcross⟩ := List.nodup_append.1 (List.map_append ▸ hid)
  obtain ⟨hnew, hafter⟩ := List.nodup_cons.1 hbehind
  rw [accept_append, accept_append] at h ⊢
  by_cases hx : s.Fits (s.accept c before).2 x
  · obtain ⟨found, hfound⟩ := hx.exists_found
    have hticket : found.ticket = x := ticket_of_evaluate (evaluate_eq_ok_iff.2 ⟨hx, hfound⟩)
    rw [accept_cons_of_fits hx hfound] at h ⊢
    simp only [List.map_append, List.map_cons, hticket] at h
    have hsub : (s.accept (s.accept c before).2 after).1.map (·.ticket) ⊆
        (s.accept (s.collect (s.accept c before).2 x) after).1.map (·.ticket) := by
      intro t ht
      have hmem : t ∈ after := (accept_sublist _ _).subset ht
      rcases List.mem_append.1 (h (by simp) (List.mem_append_right _ ht)) with hbefore | htail
      · exact absurd rfl (hcross _ (List.mem_map_of_mem ((accept_sublist _ _).subset hbefore)) _
          (List.mem_map_of_mem (List.mem_cons_of_mem x hmem)))
      · refine (List.mem_cons.1 htail).resolve_left ?_
        rintro rfl
        exact hnew (List.mem_map_of_mem hmem)
    rw [accept_collect hafter hx.shares hsub]
    exact .inr ⟨found, hticket, List.perm_middle⟩
  · rw [accept_cons_of_not_fits hx]
    exact .inl rfl

/-- With a ticket more that, if it is found, keeps nobody out, a search finds the same, or
    the ticket in some place besides. -/
theorem run_middle (hid : ((before ++ x :: after).map (·.id)).Nodup)
    (h : x ∈ (s.run (before ++ x :: after)).map (·.ticket) →
      (s.run (before ++ after)).map (·.ticket) ⊆ (s.run (before ++ x :: after)).map (·.ticket)) :
    (s.run (before ++ x :: after)).map (·.ticket) = (s.run (before ++ after)).map (·.ticket) ∨
      x ∈ (s.run (before ++ x :: after)).map (·.ticket) ∧ ∃ front back,
        (s.run (before ++ after)).map (·.ticket) = front ++ back ∧
        (s.run (before ++ x :: after)).map (·.ticket) = front ++ x :: back ∧
        (∀ t ∈ front, x.priority ≤ t.priority) ∧ ∀ t ∈ back, t.priority ≤ x.priority := by
  have haccept := h
  rw [(s.run_perm_accept _).mem_iff, (s.run_perm_accept _).subset_congr_left,
    (s.run_perm_accept _).subset_congr_right] at haccept
  rcases accept_middle hid haccept with hsame | ⟨found, rfl, hperm⟩
  · left
    rw [run, run, hsame]
  · have hless : ((before ++ after).map (·.id)).Nodup :=
      hid.sublist (((List.sublist_cons_self _ after).append_left before).map _)
    obtain ⟨front, back, hfewer, hall, hfront, hback⟩ :=
      exists_sortBy_cons (Found.rank s.pivot.isSession) found (eq_of_rank_eq hless)
    have hrun : s.run (before ++ found.ticket :: after) = front ++ found :: back :=
      (sortBy_eq_of_perm hperm (eq_of_rank_eq hid)).trans hall
    refine .inr ⟨?_, front.map (·.ticket), back.map (·.ticket), ?_, ?_, ?_, ?_⟩
    · rw [hrun, List.map_append, List.map_cons]
      exact List.mem_append_right _ List.mem_cons_self
    · rw [run, hfewer, List.map_append]
    · rw [hrun, List.map_append, List.map_cons]
    · exact List.forall_mem_map.2 fun a ha => Found.priority_le (hfront a ha)
    · exact List.forall_mem_map.2 fun a ha => Found.priority_le (hback a ha)

end Search

end Matchmaking
