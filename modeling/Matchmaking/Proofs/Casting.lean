import Mathlib.Data.List.Induction
import Matchmaking.Packing
import Matchmaking.Proofs.Dict
import Matchmaking.Proofs.RoleTally

/-!
# Casts

What members take in a team is noted down as they come, and those who are left open are
given roles at the end. Together these are a cast: each member with its role
(`RoleTally.cast`). Where there is a role for each open member, nobody is left out of it
(`RoleTally.members_cast`), and each role is in it as often as it was taken and given
(`RoleTally.count_cast`). So members with different ids are allotted roles that they may
take (`RoleTally.Deals.allots`).
-/

namespace Matchmaking

variable {α : Type}

/-! ## Casts -/

/-- How many of some members have a role. -/
def holders (roles : Dict String) (role : String) (ms : List (Member α)) : Nat :=
  ms.countP fun m => roles.get? m.id == some role

namespace RoleTally

variable {resolved : List String} {given : List (Member α × Slot)}

/-- Members with the roles that they have in the end. Those who were left open have some
    roles in turn; for whom there is none is left out. -/
def cast : List String → List (Member α × Slot) → List (Member α × String)
  | _, [] => []
  | resolved, (m, .role name) :: given => (m, name) :: cast resolved given
  | [], (_, .any) :: given => cast [] given
  | name :: resolved, (m, .any) :: given => (m, name) :: cast resolved given

/-- How many members were left open. -/
def opens (given : List (Member α × Slot)) : Nat := (given.map (·.2)).count .any

theorem opens_cons (x : Member α × Slot) (given : List (Member α × Slot)) :
    opens (x :: given) = opens given + if x.2 = .any then 1 else 0 := by
  rw [opens, List.map_cons, List.count_cons]
  simp only [beq_iff_eq, opens]

theorem members_cast (h : opens given ≤ resolved.length) :
    (cast resolved given).map (·.1) = given.map (·.1) := by
  induction given generalizing resolved with
  | nil => rw [cast]; rfl
  | cons x given ih =>
    rw [opens_cons] at h
    obtain ⟨m, slot⟩ := x
    cases slot with
    | role name =>
      rw [cast, List.map_cons, List.map_cons, ih h]
    | any =>
      cases resolved with
      | nil => cases h
      | cons name resolved => rw [cast, List.map_cons, List.map_cons, ih (Nat.le_of_succ_le_succ h)]

theorem count_cast (resolved : List String) (given : List (Member α × Slot)) (role : String) :
    ((cast resolved given).map (·.2)).count role =
      (given.map (·.2)).count (.role role) + (resolved.take (opens given)).count role := by
  induction given generalizing resolved with
  | nil => rw [cast]; simp [opens]
  | cons x given ih =>
    rw [opens_cons]
    obtain ⟨m, slot⟩ := x
    cases slot with
    | role name =>
      rw [cast, List.map_cons, List.count_cons, List.map_cons, List.count_cons, ih]
      simp
      omega
    | any =>
      cases resolved with
      | nil =>
        rw [cast, ih]
        simp
      | cons name resolved =>
        rw [cast, List.map_cons, List.count_cons, List.map_cons, List.count_cons, ih, if_pos rfl,
          List.take_succ_cons, List.count_cons]
        simp
        omega

theorem mem_cast {c : Member α × String} (h : c ∈ cast resolved given) :
    (c.1, Slot.role c.2) ∈ given ∨ (c.1, Slot.any) ∈ given ∧ c.2 ∈ resolved := by
  induction given generalizing resolved with
  | nil => rw [cast] at h; cases h
  | cons x given ih =>
    obtain ⟨m, slot⟩ := x
    cases slot with
    | role name =>
      rw [cast] at h
      rcases List.mem_cons.1 h with rfl | h
      · exact .inl List.mem_cons_self
      · exact (ih h).imp (List.mem_cons_of_mem _) fun h => ⟨List.mem_cons_of_mem _ h.1, h.2⟩
    | any =>
      cases resolved with
      | nil =>
        rw [cast] at h
        exact (ih h).imp (List.mem_cons_of_mem _) fun h => ⟨List.mem_cons_of_mem _ h.1, h.2⟩
      | cons name resolved =>
        rw [cast] at h
        rcases List.mem_cons.1 h with rfl | h
        · exact .inr ⟨List.mem_cons_self, List.mem_cons_self⟩
        · exact (ih h).imp (List.mem_cons_of_mem _) fun h =>
            ⟨List.mem_cons_of_mem _ h.1, List.mem_cons_of_mem _ h.2⟩

/-- The roles of the players of a cast. -/
def rolesIn (cast : List (Member α × String)) : Dict String :=
  .ofList (cast.map fun c => (c.1.id, c.2))

theorem get?_rolesIn {cast : List (Member α × String)} (hnodup : (cast.map (·.1.id)).Nodup)
    {x role : String} :
    (rolesIn cast).get? x = some role ↔ ∃ c ∈ cast, c.1.id = x ∧ c.2 = role := by
  rw [rolesIn, Dict.get?_ofList_eq_some_iff (by rw [List.map_map]; exact hnodup), List.mem_map]
  simp only [Prod.mk.injEq]

theorem holders_rolesIn {cast : List (Member α × String)} (hnodup : (cast.map (·.1.id)).Nodup)
    (role : String) :
    holders (rolesIn cast) role (cast.map (·.1)) = (cast.map (·.2)).count role := by
  rw [holders, List.countP_map, List.count_eq_countP, List.countP_map]
  refine List.countP_congr fun c hc => ?_
  have hget : (rolesIn cast).get? c.1.id = some c.2 := (get?_rolesIn hnodup).2 ⟨c, hc, rfl, rfl⟩
  simp [hget]

/-- Members with different ids are allotted roles: each of them has one, a role of its own
    that the team has, or one of some roles if it takes any; and nobody else has one. -/
structure Allots (quotas : List Role) (ms : List (Member α)) (slots : List Slot)
    (resolved : List String) (roles : Dict String) : Prop where
  players : ∀ x, roles.contains x = true ↔ x ∈ ms.map (·.id)
  holders : ∀ role, holders roles role ms = slots.count (.role role) + resolved.count role
  role : ∀ m ∈ ms, ∀ {role}, roles.get? m.id = some role →
    MayTake quotas m (.role role) ∨ MayTake quotas m .any ∧ role ∈ resolved

/-- Members have no roles but those of the team. -/
theorem Allots.known {quotas : List Role} {ms : List (Member α)} {slots : List Slot}
    {roles : Dict String} (h : Allots quotas ms slots resolved roles)
    (hresolved : ∀ role ∈ resolved, ∃ q ∈ quotas, q.name = role) {x role : String}
    (hx : roles.get? x = some role) : ∃ q ∈ quotas, q.name = role := by
  have hcontains : roles.contains x = true := by rw [Dict.contains, hx]; rfl
  obtain ⟨m, hm, rfl⟩ := List.mem_map.1 ((h.players x).1 hcontains)
  rcases h.role m hm hx with ⟨-, hknown⟩ | ⟨-, hopen⟩
  · exact hknown
  · exact hresolved role hopen

/-- Where there is a role for each of those who are left open, nobody is left out of the
    cast. -/
theorem Deals.members_cast {t t' : RoleTally} {ms : List (Member α)} {slots : List Slot}
    (h : t.Deals ms slots t') (hopens : slots.count .any = resolved.length) :
    (cast resolved (ms.zip slots)).map (·.1) = ms := by
  have hlength := h.may.length_eq
  have hslots : opens (ms.zip slots) ≤ resolved.length := by
    rw [opens, List.map_snd_zip (Nat.le_of_eq hlength.symm)]
    exact Nat.le_of_eq hopens
  exact (RoleTally.members_cast hslots).trans (List.map_fst_zip (Nat.le_of_eq hlength))

theorem Deals.nodup_cast {t t' : RoleTally} {ms : List (Member α)} {slots : List Slot}
    (h : t.Deals ms slots t') (hid : (ms.map (·.id)).Nodup)
    (hopens : slots.count .any = resolved.length) :
    ((cast resolved (ms.zip slots)).map (·.1.id)).Nodup := by
  rw [← h.members_cast hopens, List.map_map] at hid
  exact hid

/-- Members who take something are allotted roles by their cast, where there is a role for
    each of those who are left open. -/
theorem Deals.allots {t t' : RoleTally} {ms : List (Member α)} {slots : List Slot}
    (h : t.Deals ms slots t') (hid : (ms.map (·.id)).Nodup)
    (hopens : slots.count .any = resolved.length) :
    Allots t.quotas ms slots resolved (rolesIn (cast resolved (ms.zip slots))) := by
  have hlength := h.may.length_eq
  have hslots : (ms.zip slots).map (·.2) = slots := List.map_snd_zip (Nat.le_of_eq hlength.symm)
  have hmembers := h.members_cast hopens
  have hnodup := h.nodup_cast hid hopens
  refine ⟨fun x => ?players, fun role => ?holders, fun m hm role hrole => ?role⟩
  case players =>
    have hmem : ∀ m, m ∈ ms ↔ ∃ c ∈ cast resolved (ms.zip slots), c.1 = m := fun m => by
      rw [← List.mem_map, hmembers]
    rw [Dict.contains, Option.isSome_iff_exists, List.mem_map]
    simp only [get?_rolesIn hnodup, hmem]
    grind
  case holders =>
    have hcount := holders_rolesIn hnodup role
    rwa [hmembers, count_cast, hslots, opens, hslots, hopens, List.take_length] at hcount
  case role =>
    obtain ⟨c, hc, hcid, rfl⟩ := (get?_rolesIn hnodup).1 hrole
    have hcm : c.1 ∈ ms := hmembers ▸ List.mem_map_of_mem hc
    obtain rfl : c.1 = m := List.inj_on_of_nodup_map hid hcm hm hcid
    have hmay : ∀ {m slot}, (m, slot) ∈ ms.zip slots → MayTake t.quotas m slot := fun hmem =>
      (List.forall₂_iff_zip.1 h.may).2 hmem
    exact (mem_cast hc).imp hmay fun hopen => ⟨hmay hopen.1, hopen.2⟩

end RoleTally

/-! ## The quotas of a team -/

namespace AllianceRule

variable {a : AllianceRule} {team : Nat}

/-- The quotas of the team at a place: its roles, each of them for one member at most if
    they are unique. -/
def quotasFor (a : AllianceRule) (team : Nat) : List Role :=
  if a.roleMode = .unique then (a.rolesFor team).map Role.single else a.rolesFor team

theorem proper_quotasFor (h : a.fault? = none) (team : Nat) : Role.Proper (a.quotasFor team) := by
  rw [quotasFor]
  split_ifs
  · exact (proper_rolesFor h team).single
  · exact proper_rolesFor h team

/-- A team that has roles begins with an empty tally of its quotas. -/
theorem tally?_eq_some (hmode : a.roleMode ≠ .normal) (hroles : a.rolesFor team ≠ []) :
    a.tally? a.roleMode team = some ⟨a.quotasFor team, ∅, 0⟩ := by
  have hne : (a.rolesFor team).isEmpty = false := by simpa using hroles
  rw [quotasFor]
  cases hm : a.roleMode with
  | normal => exact absurd hm hmode
  | combo => rw [tally?, hne]; rfl
  | unique => rw [tally?, hne]; rfl

/-- Only bounds give way in time. -/
theorem quotasFor_flexedAt (a : AllianceRule) (fs : List AllianceFlexing) (anchor now : Instant)
    (team : Nat) : (a.flexedAt fs anchor now).1.quotasFor team = a.quotasFor team := by
  rw [flexedAt]
  split <;> rfl

end AllianceRule

namespace RuleSet

variable [Scalar α] {r : RuleSet α}

/-- The shapes of rules without a fault have none. -/
theorem fault?_allianceFor (h : r.fault? = none) (mode : Option String) :
    (r.allianceFor mode).fault? = none := by
  simp only [fault?, Option.or_eq_none_iff, List.findSome?_eq_none_iff] at h
  rw [allianceFor]
  cases hmode : r.mode? mode with
  | none => exact Option.map_eq_none_iff.1 h.1
  | some m =>
    obtain ⟨name, -, hm⟩ := Option.bind_eq_some_iff.1 hmode
    have hfault := h.2.2.2.2.2.1 (name, m) (Dict.get?_eq_some_iff.1 hm)
    rw [Mode.fault?, Option.or_eq_none_iff] at hfault
    exact Option.map_eq_none_iff.1 hfault.1

/-- The quotas of rules without a fault are proper at all times. -/
theorem proper_quotasFor_allianceAt (h : r.fault? = none) (anchor now : Instant)
    (mode : Option String) (team : Nat) :
    Role.Proper ((r.allianceAt anchor now mode).1.quotasFor team) := by
  rw [allianceAt, AllianceRule.quotasFor_flexedAt]
  exact AllianceRule.proper_quotasFor (r.fault?_allianceFor h mode) team

end RuleSet

end Matchmaking
