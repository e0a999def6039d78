import Mathlib.Data.List.Nodup
import Matchmaking.Rules.RoleFlexing

/-!
# Tickets of a queue

While tickets are queued, sorted and taken out, they change in one thing only:
members give up their roles. A ticket is compared with what it becomes by
leaving that out (`Ticket.unflexed`); whatever does not depend on roles is the
same for both.
-/

namespace Matchmaking

variable {α : Type}

namespace Member

/-- The member as it was before it gave up its roles. -/
def unflexed (m : Member α) : Member α := { m with roleFlexed := false }

/-- The member without roles given to it or given up by it. -/
def bare (m : Member α) : Member α := { m with assignedRole := none, roleFlexed := false }

end Member

namespace Ticket

/-- The ticket as it was before its members gave up roles. -/
def unflexed (t : Ticket α) : Ticket α := { t with members := t.members.map Member.unflexed }

section Unflexed

variable (t : Ticket α)

@[simp] theorem unflexed_id : t.unflexed.id = t.id := rfl

@[simp] theorem unflexed_partyId : t.unflexed.partyId = t.partyId := rfl

@[simp] theorem unflexed_attributes : t.unflexed.attributes = t.attributes := rfl

@[simp] theorem unflexed_createdAt : t.unflexed.createdAt = t.createdAt := rfl

@[simp] theorem unflexed_bare_members :
    t.unflexed.members.map Member.bare = t.members.map Member.bare := List.map_map

@[simp] theorem unflexed_member_ids :
    t.unflexed.members.map (·.id) = t.members.map (·.id) := List.map_map

@[simp] theorem unflexed_userIds : t.unflexed.userIds = t.userIds := by
  rw [userIds, userIds, unflexed_member_ids]

@[simp] theorem unflexed_optionNames [Scalar α] : t.unflexed.optionNames = t.optionNames := by
  funext k
  simp only [optionNames, unflexed, List.foldl_map]
  rfl

@[simp] theorem unflexed_average [Scalar α] : t.unflexed.average = t.average := by
  funext k
  simp only [average, unflexed, List.filterMap_map]
  rfl

@[simp] theorem unflexed_blocked [Scalar α] : t.unflexed.blocked = t.blocked := by
  simp only [blocked, blockedBy, unflexed, List.foldl_map]
  rfl

@[simp] theorem unflexed_fault? : t.unflexed.fault? = t.fault? := by
  rw [fault?, fault?, unflexed_member_ids]
  simp [unflexed]

end Unflexed

section Congr

variable {t u : Ticket α}

theorem id_congr (h : t.unflexed = u.unflexed) : t.id = u.id := by
  rw [← t.unflexed_id, h, u.unflexed_id]

theorem attributes_congr (h : t.unflexed = u.unflexed) : t.attributes = u.attributes := by
  rw [← t.unflexed_attributes, h, u.unflexed_attributes]

theorem createdAt_congr (h : t.unflexed = u.unflexed) : t.createdAt = u.createdAt := by
  rw [← t.unflexed_createdAt, h, u.unflexed_createdAt]

theorem partyId_congr (h : t.unflexed = u.unflexed) : t.partyId = u.partyId := by
  rw [← t.unflexed_partyId, h, u.unflexed_partyId]

theorem userIds_congr (h : t.unflexed = u.unflexed) : t.userIds = u.userIds := by
  rw [← t.unflexed_userIds, h, u.unflexed_userIds]

theorem optionNames_congr [Scalar α] (h : t.unflexed = u.unflexed) :
    t.optionNames = u.optionNames := by
  rw [← t.unflexed_optionNames, h, u.unflexed_optionNames]

theorem average_congr [Scalar α] (h : t.unflexed = u.unflexed) : t.average = u.average := by
  rw [← t.unflexed_average, h, u.unflexed_average]

theorem blocked_congr [Scalar α] (h : t.unflexed = u.unflexed) : t.blocked = u.blocked := by
  rw [← t.unflexed_blocked, h, u.unflexed_blocked]

theorem fault?_congr (h : t.unflexed = u.unflexed) : t.fault? = u.fault? := by
  rw [← t.unflexed_fault?, h, u.unflexed_fault?]

end Congr

/-! ### Faults -/

theorem firstRepeated?_eq_none_iff {seen xs : List String} :
    firstRepeated? seen xs = none ↔ xs.Nodup ∧ ∀ x ∈ xs, x ∉ seen := by
  induction xs generalizing seen with
  | nil => simp [firstRepeated?]
  | cons x xs ih =>
    rw [firstRepeated?]
    split_ifs with hx
    · refine iff_of_false nofun fun h => h.2 x List.mem_cons_self ?_
      exact List.contains_iff_mem.1 hx
    · rw [ih, List.nodup_cons, List.forall_mem_cons]
      rw [List.contains_iff_mem] at hx
      simp only [List.mem_cons, not_or]
      constructor
      · rintro ⟨hnodup, hnew⟩
        exact ⟨⟨fun hmem => (hnew x hmem).1 rfl, hnodup⟩, hx, fun y hy => (hnew y hy).2⟩
      · rintro ⟨⟨hmem, hnodup⟩, _, hnew⟩
        exact ⟨hnodup, fun y hy => ⟨fun h => hmem (h ▸ hy), hnew y hy⟩⟩

theorem nodup_of_fault?_eq_none {t : Ticket α} (h : t.fault? = none) :
    (t.members.map (·.id)).Nodup := by
  rw [fault?] at h
  split_ifs at h
  exact (firstRepeated?_eq_none_iff.1 (Option.map_eq_none_iff.1 h)).1

theorem players_pos_of_fault?_eq_none {t : Ticket α} (h : t.fault? = none) : 0 < t.players := by
  rw [fault?] at h
  split_ifs at h with hmembers
  exact List.length_pos_iff.2 (by simpa using hmembers)

/-! ### The queue -/

instance : Std.TransCmp (@rank α) := by
  have hpriority : Std.TransCmp fun t u : Ticket α => compare u.priority t.priority :=
    transCmp_swap (compareOn fun t : Ticket α => t.priority)
  exact inferInstanceAs (Std.TransCmp (compareLex
    (fun t u : Ticket α => compare u.priority t.priority)
    (compareLex (compareOn fun t => t.createdAt.place) (compareOn (·.id)))))

theorem id_eq_of_rank_eq {t u : Ticket α} (h : rank t u = .eq) : t.id = u.id := by
  simp only [rank, compareLex, Ordering.then_eq_eq] at h
  exact Std.LawfulEqOrd.eq_of_compare h.2.2

theorem rank_unflexed (t u : Ticket α) : rank t.unflexed u.unflexed = rank t u := rfl

theorem sortQueue_perm (ts : List (Ticket α)) : (sortQueue ts).Perm ts := List.mergeSort_perm _ _

theorem perm_of_sortQueue {ts queue : List (Ticket α)} (h : sortQueue ts = queue) :
    queue.Perm ts := h ▸ sortQueue_perm ts

theorem sortQueue_eq_self {ts : List (Ticket α)}
    (h : ts.Pairwise fun t u => (rank t u).isLE = true) : sortQueue ts = ts :=
  sortBy_eq_self h

/-- Roles are no matter of who is served first. -/
theorem sortQueue_unflexed (ts : List (Ticket α)) :
    (sortQueue ts).map unflexed = sortQueue (ts.map unflexed) :=
  List.map_mergeSort fun t _ u _ => by rw [rank_unflexed]

/-- Tickets are known by their ids. -/
theorem eq_of_id_eq {ts : List (Ticket α)} (hid : (ts.map (·.id)).Nodup) {t u : Ticket α}
    (ht : t ∈ ts) (hu : u ∈ ts) (h : t.id = u.id) : t = u :=
  List.inj_on_of_nodup_map hid ht hu h

/-- A queue with ids of its own is served in one order, however it was listed. -/
theorem sortQueue_eq_of_perm {ts us : List (Ticket α)} (hid : (ts.map (·.id)).Nodup)
    (h : ts.Perm us) : sortQueue ts = sortQueue us :=
  show sortBy rank ts = sortBy rank us from
    sortBy_eq_of_perm h fun _ ht _ hu htu => eq_of_id_eq hid ht hu (id_eq_of_rank_eq htu)

theorem pairwise_sortQueue (ts : List (Ticket α)) :
    (sortQueue ts).Pairwise fun t u => (rank t u).isLE = true :=
  pairwise_sortBy rank ts

end Ticket

/-! ## Giving up roles -/

namespace RoleFlexing

/-- Only roles are given up. -/
theorem mark_unflexed (cs : List Candidate) (ts : List (Ticket α)) :
    (mark cs ts).map Ticket.unflexed = ts.map Ticket.unflexed := by
  refine List.ext_getElem (by simp [mark]) fun i hi _ => ?_
  simp only [mark, List.getElem_map, List.getElem_mapIdx, Ticket.unflexed, Ticket.mk.injEq,
    true_and, and_true]
  refine List.ext_getElem (by simp) fun j hj _ => ?_
  simp only [List.getElem_map, List.getElem_mapIdx]
  split_ifs <;> rfl

end RoleFlexing

namespace RuleSet

variable [Scalar α] (r : RuleSet α) (now : Instant) (ts : List (Ticket α))

theorem flexRoles_unflexed : (r.flexRoles now ts).map Ticket.unflexed = ts.map Ticket.unflexed :=
  RoleFlexing.mark_unflexed _ _

theorem flexRoles_ids : (r.flexRoles now ts).map (·.id) = ts.map (·.id) := by
  simpa [Function.comp_def] using congrArg (List.map (·.id)) (r.flexRoles_unflexed now ts)

variable {r now ts}

/-- Every ticket is one that was there, but for roles that its members gave up. -/
theorem exists_of_mem_flexRoles {t : Ticket α} (ht : t ∈ r.flexRoles now ts) :
    ∃ u ∈ ts, t.unflexed = u.unflexed := by
  have : t.unflexed ∈ ts.map Ticket.unflexed :=
    r.flexRoles_unflexed now ts ▸ List.mem_map_of_mem ht
  obtain ⟨u, hu, h⟩ := List.mem_map.1 this
  exact ⟨u, hu, h.symm⟩

end RuleSet

end Matchmaking
