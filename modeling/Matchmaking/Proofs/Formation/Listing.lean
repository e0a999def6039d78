import Matchmaking.Proofs.Formation.Round

/-!
# The order of listing

A queue is put in the order of service before anything is formed from it. Tickets of
different ids have different places in that order (`Ticket.sortQueue_eq_of_perm`), so
if nobody gives up a role, which depends on the places in a list, it is no matter in
which order the tickets of a queue are listed.
-/

namespace Matchmaking

variable {α : Type}

theorem RoleFlexing.mark_nil (ts : List (Ticket α)) : mark [] ts = ts := by
  refine List.ext_getElem (by simp [mark]) fun i hi _ => ?_
  have hmembers (ms : List (Member α)) : (ms.mapIdx fun _ m => m) = ms :=
    List.ext_getElem (by simp) fun j _ _ => by simp
  simp only [mark, List.getElem_mapIdx, List.any_nil, Bool.false_eq_true, if_false, hmembers]

namespace RuleSet

variable [Scalar α] {r : RuleSet α}

theorem flexingMembers_eq_nil (h : r.roleFlexing? = none) (now : Instant) (ts : List (Ticket α)) :
    r.flexingMembers now ts = [] := by
  rw [flexingMembers, h]

/-- Without rates at which roles are given up nobody gives up one. -/
theorem flexRoles_eq_self (h : r.roleFlexing? = none) (now : Instant) (ts : List (Ticket α)) :
    r.flexRoles now ts = ts := by
  rw [flexRoles, flexingMembers_eq_nil h, RoleFlexing.mark_nil]

theorem flexedNow_eq_zero (h : r.roleFlexing? = none) (now : Instant) (ts : List (Ticket α)) :
    r.flexedNow now ts = 0 := by
  rw [flexedNow, flexingMembers_eq_nil h, List.length_nil]

end RuleSet

namespace Formation

variable [Scalar α] {ts us : List (Ticket α)}

/-- From the same tickets, listed in any order, the same sessions are formed in the same
    order, the same tickets are left in the same order, and as many pivots are
    dropped. -/
theorem run_eq_of_perm (f : Formation α) (hroles : f.rules.roleFlexing? = none)
    (hid : (ts.map (·.id)).Nodup) (h : ts.Perm us) : f.run .unlimited ts = f.run .unlimited us := by
  have hform : f.form .unlimited ts = f.form .unlimited us := by
    simp only [form, serve, Ticket.sortQueue_eq_of_perm hid h]
  rw [run, run, RuleSet.flexRoles_eq_self hroles, RuleSet.flexRoles_eq_self hroles,
    RuleSet.flexedNow_eq_zero hroles, RuleSet.flexedNow_eq_zero hroles, hform]

theorem duel_eq_of_perm : duel.rules.roleFlexing? = none ∧
    duel.run .unlimited duelists =
      duel.run .unlimited [duelist "c" [], duelist "a" ["b"], duelist "b" []] := by
  have hroles : duel.rules.roleFlexing? = none := by decide
  have hperm : duelists.Perm [duelist "c" [], duelist "a" ["b"], duelist "b" []] := by
    refine .trans ((List.Perm.swap (duelist "c" []) (duelist "b" []) []).cons _) ?_
    exact .swap _ _ _
  exact ⟨hroles, run_eq_of_perm duel hroles (by decide) hperm⟩

end Formation

end Matchmaking
