import Matchmaking.Proofs.Backfill.Capacity
import Matchmaking.Proofs.Quotas

/-!
# Roles in filled sessions

The tally of a team that is there counts everyone who has a role, be it one that the team
does not have or one that more members have than may, and lets the others take something if
they can (`RoleTally.assigned_le_taken`). Members who are left open come before newcomers
who are, so that newcomers are given the roles behind theirs
(`RoleTally.length_drop_resolve`). So all newcomers have a role of the team, and no role is
held by more members than may hold it unless it was so before (`RoleTally.admits_of_join?`).

A ticket joins the team whose members its roles were looked up for
(`Backfill.rolesFor?_of_place?`, `Backfill.joins_add`), and one ticket joins after the other
(`FillsOpen.exists_join`).
-/

namespace Matchmaking

variable {α : Type}

/-- How many members were given a role. -/
def assigned (role : String) (ms : List (Member α)) : Nat :=
  ms.countP fun m => m.assignedRole == some role

theorem assigned_append (role : String) (ms ms' : List (Member α)) :
    assigned role (ms ++ ms') = assigned role ms + assigned role ms' := List.countP_append

namespace RoleTally

variable {t t' : RoleTally} {m : Member α} {ms : List (Member α)} {slots : List Slot}

/-! ## Members who are there -/

theorem quotas_withMember (t : RoleTally) (m : Member α) : (t.withMember m).quotas = t.quotas := by
  rw [withMember]
  cases m.assignedRole with
  | some role => rfl
  | none =>
    cases h : t.assign? m with
    | none => rfl
    | some given => exact (takes_of_assign? h).2.quotas_eq

theorem quotas_foldl_withMember (t : RoleTally) (ms : List (Member α)) :
    (ms.foldl withMember t).quotas = t.quotas := by
  induction ms generalizing t with
  | nil => rfl
  | cons m ms ih => rw [List.foldl_cons, ih, quotas_withMember]

/-- A member who has a role is counted in it. -/
theorem taken_withMember (t : RoleTally) (m : Member α) (role : String) :
    taken t.counts role + (if m.assignedRole = some role then 1 else 0) ≤
      taken (t.withMember m).counts role := by
  rw [withMember]
  cases m.assignedRole with
  | some held =>
    show _ ≤ taken (take t.counts held) role
    rw [taken_take]
    simp only [Option.some_inj, eq_comm]
    exact Nat.le_refl _
  | none =>
    rw [if_neg nofun, Nat.add_zero]
    cases h : t.assign? m with
    | none => exact Nat.le_refl _
    | some given =>
      have htaken := (takes_of_assign? h).2.taken_eq role
      exact htaken ▸ Nat.le_add_right _ _

theorem assigned_le_taken (t : RoleTally) (ms : List (Member α)) (role : String) :
    taken t.counts role + assigned role ms ≤ taken (ms.foldl withMember t).counts role := by
  induction ms generalizing t with
  | nil => exact Nat.le_refl _
  | cons m ms ih =>
    have hfirst := t.taken_withMember m role
    have hrest := ih (t.withMember m)
    rw [List.foldl_cons, assigned, List.countP_cons]
    rw [assigned] at hrest
    simp only [beq_iff_eq]
    omega

/-! ## Newcomers -/

/-- The roles of newcomers are those of their cast. -/
theorem rolesOf_eq (resolved : List String) (given : List (Member α × Slot))
    (roles : Dict String) : rolesOf resolved given roles =
      ((cast resolved given).map fun c => (c.1.id, c.2)).foldl
        (fun roles e => roles.insert e.1 e.2) roles := by
  induction given generalizing resolved roles with
  | nil => rw [rolesOf, cast]; rfl
  | cons x given ih =>
    obtain ⟨m, slot⟩ := x
    cases slot with
    | role name => rw [rolesOf, cast, ih]; rfl
    | any =>
      cases resolved with
      | nil => rw [rolesOf, cast, ih]
      | cons name resolved => rw [rolesOf, cast, ih]; rfl

/-- There is a role for each newcomer who is left open, behind those for the members who
    are. -/
theorem length_drop_resolve (hproper : Role.Proper t.quotas)
    (h : t.assignAll? ms = some (slots, t')) :
    (t'.resolve.drop t.pending).length = slots.count .any := by
  rw [List.length_drop]
  cases ms with
  | nil =>
    cases h
    exact Nat.sub_eq_zero_of_le (length_resolveFrom_le _ _ _)
  | cons m ms =>
    have hdeals := deals_of_assignAll? h
    have hroom := pending_le_of_assignAll? hproper h (.inl (List.cons_ne_nil m ms))
    rw [length_resolve (hdeals.quotas_eq ▸ hproper) hroom, hdeals.pending_eq]
    exact Nat.add_sub_cancel_left _ _

/-- Newcomers are admitted to a team with roles: they have roles and nobody else has one,
    all roles are those of the team, and none is held by more members than may hold it,
    unless it was so before. -/
structure Admits (t : RoleTally) (ms : List (Member α)) (roles : Dict String) : Prop where
  players : ∀ x, roles.contains x = true ↔ x ∈ ms.map (·.id)
  known : ∀ {x role}, roles.get? x = some role → ∃ q ∈ t.quotas, q.name = role
  most : ∀ q ∈ t.quotas, taken t.counts q.name + holders roles q.name ms ≤
    max (taken t.counts q.name) q.max

theorem admits_of_join? {roles : Dict String} (hproper : Role.Proper t.quotas)
    (hid : (ms.map (·.id)).Nodup) (h : t.join? ms = some roles) : t.Admits ms roles := by
  obtain ⟨⟨slots, t'⟩, hassign, rfl⟩ := Option.map_eq_some_iff.1 h
  have hdeals := deals_of_assignAll? hassign
  have hallots : Allots t.quotas ms slots (t'.resolve.drop t.pending)
      (rolesOf (t'.resolve.drop t.pending) (ms.zip slots) ∅) := by
    rw [rolesOf_eq]
    exact hdeals.allots hid (length_drop_resolve hproper hassign).symm
  refine ⟨hallots.players, fun {x role} hx => ?known, fun q hq => ?most⟩
  case known =>
    refine hallots.known (fun role hrole => ?_) hx
    exact hdeals.quotas_eq ▸ mem_resolveFrom (List.mem_of_mem_drop hrole)
  case most =>
    -- The roles for newcomers are some of those that are given in the end.
    have hdrop : (t'.resolve.drop t.pending).count q.name ≤ t'.resolve.count q.name :=
      (List.drop_sublist _ _).count_le _
    have htaken := taken_le_of_assignAll? hproper hassign hq
    have hresolve := taken_add_count_resolve_le (hdeals.quotas_eq ▸ hproper)
      (hdeals.quotas_eq ▸ hq)
    have hslots := hdeals.taken_eq q.name
    rw [hallots.holders]
    omega

end RoleTally

namespace AllianceRule

variable {a : AllianceRule} {team : Nat} {members newcomers : List (Member α)}
  {roles : Dict String}

/-- The tally of a team with some members. -/
def tallyWith (a : AllianceRule) (team : Nat) (members : List (Member α)) : RoleTally :=
  members.foldl RoleTally.withMember ⟨a.quotasFor team, ∅, 0⟩

theorem quotas_tallyWith (a : AllianceRule) (team : Nat) (members : List (Member α)) :
    (a.tallyWith team members).quotas = a.quotasFor team :=
  RoleTally.quotas_foldl_withMember _ _

theorem assigned_le_taken_tallyWith (a : AllianceRule) (team : Nat) (members : List (Member α))
    (role : String) :
    assigned role members ≤ RoleTally.taken (a.tallyWith team members).counts role := by
  have h := RoleTally.assigned_le_taken ⟨a.quotasFor team, ∅, 0⟩ members role
  have hempty : RoleTally.taken ∅ role = 0 := rfl
  rwa [hempty, Nat.zero_add] at h

theorem admits_of_rolesFor? (hmode : a.roleMode ≠ .normal) (hroles : a.rolesFor team ≠ [])
    (hproper : Role.Proper (a.quotasFor team)) (hid : (newcomers.map (·.id)).Nodup)
    (h : a.rolesFor? team members newcomers = some roles) :
    (a.tallyWith team members).Admits newcomers roles := by
  rw [rolesFor?, tally?_eq_some hmode hroles] at h
  exact RoleTally.admits_of_join? (a.quotas_tallyWith team members ▸ hproper) hid h

end AllianceRule

/-! ## One ticket joins -/

namespace Session

/-- The parties of the team at a place. There are none where there is no team. -/
def partiesAt (s : Session α) (i : Nat) : List (Party α) :=
  ((s.alliances[i]?).map (·.parties)).getD []

/-- The members of the team at a place. -/
def membersAt (s : Session α) (i : Nat) : List (Member α) := (s.partiesAt i).flatMap (·.members)

/-- A party of a ticket joined the team at a place, which may be a new one. -/
structure Joins (s s' : Session α) (i : Nat) (p : Party α) (t : Ticket α) : Prop where
  party : p.IsOf t
  parties : s'.partiesAt i = s.partiesAt i ++ [p]
  others : ∀ j ≠ i, s'.alliances[j]? = s.alliances[j]?

/-- The members of a party that joined the team at a place have roles of the team, and no
    role of the team is held by more members than may hold it, unless it was so before. -/
structure Casts (a : AllianceRule) (s s' : Session α) (i : Nat) (p : Party α) : Prop where
  known : ∀ m ∈ p.members, ∃ q ∈ a.quotasFor i, m.assignedRole = some q.name
  most : ∀ q ∈ a.quotasFor i,
    assigned q.name (s'.membersAt i) ≤ max (assigned q.name (s.membersAt i)) q.max

variable {s s' : Session α} {i : Nat} {p : Party α} {t : Ticket α}

theorem partiesAt_eq {a : Alliance α} (ha : s.alliances[i]? = some a) :
    s.partiesAt i = a.parties := by
  rw [partiesAt, ha]
  rfl

theorem partiesAt_length (s : Session α) : s.partiesAt s.alliances.length = [] := by
  rw [partiesAt, List.getElem?_eq_none (Nat.le_refl _)]
  rfl

theorem membersAt_eq {a : Alliance α} (ha : s.alliances[i]? = some a) :
    s.membersAt i = a.members := by
  rw [membersAt, partiesAt_eq ha, Alliance.members]

theorem Joins.membersAt (h : s.Joins s' i p t) : s'.membersAt i = s.membersAt i ++ p.members := by
  rw [Session.membersAt, h.parties, List.flatMap_append, List.flatMap_singleton, Session.membersAt]

theorem Joins.of_alliances_eq {s'' : Session α} (h : s.Joins s' i p t)
    (heq : s''.alliances = s'.alliances) : s.Joins s'' i p t where
  party := h.party
  parties := by rw [partiesAt, heq, ← partiesAt, h.parties]
  others := heq ▸ h.others

end Session

/-- A member of a party has the role that is given to it. -/
theorem Party.exists_assignedRole {roles : Dict String} {t : Ticket α}
    (hroles : ∀ m ∈ t.members, roles.contains m.id = true) {m : Member α}
    (hm : m ∈ ((Party.ofTicket t).assignRoles roles).members) :
    ∃ role, roles.get? m.id = some role ∧ m.assignedRole = some role := by
  obtain ⟨m₀, hm₀, rfl⟩ := List.mem_map.1 hm
  obtain ⟨role, hrole⟩ := Option.isSome_iff_exists.1 (hroles m₀ hm₀)
  refine ⟨role, ?_⟩
  simp only [hrole, and_self]

/-- As many members of a party have a role as it is given to. -/
theorem Party.assigned_assignRoles {roles : Dict String} {t : Ticket α}
    (hroles : ∀ m ∈ t.members, roles.contains m.id = true) (role : String) :
    assigned role ((Party.ofTicket t).assignRoles roles).members =
      holders roles role t.members := by
  rw [assigned, Party.assignRoles, List.countP_map]
  refine List.countP_congr fun m hm => ?_
  obtain ⟨held, hheld⟩ := Option.isSome_iff_exists.1 (hroles m hm)
  simp only [Function.comp_apply, hheld]

/-- The place of the team that a ticket joins. -/
def Placement.place (p : Placement) (s : Session α) : Nat := p.team.getD s.alliances.length

namespace Backfill

variable [Scalar α] {rules : RuleSet α} {s s' : Session α} {t : Ticket α} {ts : List (Ticket α)}
  {p : Placement}

/-- The roles of a ticket are looked up for the members of the team that it joins. -/
theorem rolesFor?_of_place? (h : place? rules t s = some p) :
    rules.alliance.rolesFor? (p.place s) (s.membersAt (p.place s)) t.members = some p.roles := by
  rcases placeIn?_or_placeNew?_of_place? h with ⟨i, a, ha, hp⟩ | hp
  · simp only [placeIn?] at hp
    split_ifs at hp
    obtain ⟨roles, hroles, rfl⟩ := Option.map_eq_some_iff.1 hp
    rw [Placement.place, Option.getD_some, Session.membersAt_eq ha]
    exact hroles
  · simp only [placeNew?] at hp
    split_ifs at hp
    obtain ⟨roles, hroles, rfl⟩ := Option.map_eq_some_iff.1 hp
    rw [Placement.place, Option.getD_none, Session.membersAt, Session.partiesAt_length]
    exact hroles

theorem joins_joined (h : place? rules t s = some p) :
    s.Joins (joined s t p) (p.place s) ((Party.ofTicket t).assignRoles p.roles) t where
  party := ⟨_, rfl⟩
  parties := by
    rw [joined, Placement.place]
    cases hteam : p.team with
    | some i =>
      obtain ⟨a, ha⟩ : ∃ a, s.alliances[i]? = some a :=
        ⟨_, List.getElem?_eq_getElem (place?_team_lt h hteam)⟩
      have ha' : (s.addParty i ((Party.ofTicket t).assignRoles p.roles)).alliances[i]? =
          some (a.addParty ((Party.ofTicket t).assignRoles p.roles)) := by
        rw [Session.addParty, List.getElem?_modify_eq, ha]
        rfl
      dsimp only [Option.getD_some]
      rw [Session.partiesAt_eq ha', Session.partiesAt_eq ha, Alliance.addParty]
    | none =>
      dsimp only [Option.getD_none]
      rw [Session.partiesAt_length, Session.partiesAt, Session.addAlliance,
        List.getElem?_append_right (Nat.le_refl _), Nat.sub_self]
      rfl
  others j hj := by
    rw [Placement.place] at hj
    rw [joined]
    cases hteam : p.team with
    | some i =>
      rw [hteam, Option.getD_some] at hj
      exact List.getElem?_modify_ne _ _ (Ne.symm hj)
    | none =>
      rw [hteam, Option.getD_none] at hj
      rcases Nat.lt_or_gt_of_ne hj with hlt | hgt
      · exact List.getElem?_append_left hlt
      · rw [List.getElem?_eq_none (Nat.le_of_lt hgt)]
        refine List.getElem?_eq_none ?_
        rw [Session.addAlliance, List.length_append]
        exact hgt

theorem joins_add (h : place? rules t s = some p) :
    s.Joins ((add rules s t p).refresh rules.alliance.bounds true) (p.place s)
      ((Party.ofTicket t).assignRoles p.roles) t :=
  (joins_joined h).of_alliances_eq (Session.refresh_alliances _ _ _)

/-- A ticket that joins a team with roles is cast in it. -/
theorem casts_of_place? (h : place? rules t s = some p) (hid : (t.members.map (·.id)).Nodup)
    (hmode : rules.alliance.roleMode ≠ .normal) (hroles : rules.alliance.rolesFor (p.place s) ≠ [])
    (hproper : Role.Proper (rules.alliance.quotasFor (p.place s)))
    (hjoins : s.Joins s' (p.place s) ((Party.ofTicket t).assignRoles p.roles) t) :
    s.Casts rules.alliance s' (p.place s) ((Party.ofTicket t).assignRoles p.roles) := by
  have hadmits := AllianceRule.admits_of_rolesFor? hmode hroles hproper hid (rolesFor?_of_place? h)
  have hall : ∀ m ∈ t.members, p.roles.contains m.id = true := fun m hm =>
    (hadmits.players m.id).2 (List.mem_map_of_mem hm)
  refine ⟨fun m hm => ?_, fun q hq => ?_⟩
  · obtain ⟨role, hrole, hassigned⟩ := Party.exists_assignedRole hall hm
    obtain ⟨q, hq, rfl⟩ := hadmits.known hrole
    exact ⟨q, AllianceRule.quotas_tallyWith _ _ _ ▸ hq, hassigned⟩
  · have hmost := hadmits.most q ((AllianceRule.quotas_tallyWith _ _ _).symm ▸ hq)
    have hbefore := rules.alliance.assigned_le_taken_tallyWith (p.place s) (s.membersAt (p.place s))
      q.name
    rw [hjoins.membersAt, assigned_append, Party.assigned_assignRoles hall]
    omega

/-! ## Fillings -/

/-- Every ticket that joined a session is cast: at a time in the filling it joined a team,
    and where that has roles and the ticket has different members, these have roles of the
    team, none of which is held by more members than may hold it unless it was so before. -/
def CastsAll (b : Backfill α) (f : Filling α) : Prop :=
  ∀ {us vs : List (Ticket α)} {t : Ticket α}, f.joined = us ++ t :: vs →
    ∃ m m' i p, Fills (b.activeRules f.before.session) f.before.session us m ∧
      m.Joins m' i p t ∧ m'.Gains f.after.session vs ∧
      ((b.activeRules f.before.session).alliance.roleMode ≠ .normal →
        (b.activeRules f.before.session).alliance.rolesFor i ≠ [] →
        (t.members.map (·.id)).Nodup →
        m.Casts (b.activeRules f.before.session).alliance m' i p)

variable {b : Backfill α}

theorem Attended.castsAll {pool : List (Ticket α)} {f : Filling α} (hrules : b.rules.fault? = none)
    (h : b.Attended pool f) : b.CastsAll f := by
  intro us vs t hts
  obtain ⟨queue, left, _, hattends⟩ := h
  obtain ⟨s', hfills, hafter⟩ := hattends.fills
  obtain ⟨m, p, hbefore, _, hp, hrest⟩ := hfills.exists_join hts
  have hgains := hrest.fills.gains.trans
    (s'.gains_refresh (b.activeRules f.before.session).alliance.bounds false)
  rw [List.append_nil, ← hafter] at hgains
  refine ⟨m, _, p.place m, _, hbefore, joins_add hp, hgains, fun hmode hroles hid => ?_⟩
  exact casts_of_place? hp hid hmode hroles (RuleSet.proper_quotasFor_allianceAt hrules _ _ _ _)
    (joins_add hp)

/-- Under rules without a fault, every ticket that joins a session in a run is cast in its
    team. -/
theorem run_casts (b : Backfill α) (hrules : b.rules.fault? = none) (budget : Budget)
    (os : List (OpenSession α)) (pool : List (Ticket α)) :
    ∃ fs, b.Accounts (b.run budget os pool) (sortBy OpenSession.rank os) pool fs ∧
      ∀ f ∈ fs, b.CastsAll f := by
  obtain ⟨fs, haccounts, hattended⟩ := b.run_accounts budget os pool
  refine ⟨fs, haccounts, fun f hf => ?_⟩
  rcases hattended f hf with h | ⟨_, o, rfl⟩
  · exact h.castsAll hrules
  · exact fun hjoined => absurd hjoined (by simp [Filling.idle])

/-! ### A raid that is open -/

/-- Open raids are filled under the same rules. -/
def raidFilling : Backfill Float := ⟨.ofAlliance raid, .ofNanos 0⟩

/-- A raider who takes any role waits for others. -/
def openRaid : OpenSession Float where
  ticketId := "open"
  session :=
    { id := "m"
      channel := "raid"
      mode := none
      region := none
      alliances := [(Alliance.new (Alliance.teamName 0)).addParty (.ofTicket (raider "a" []))]
      attributes := ∅
      means := ∅
      criteria := ∅
      priority := 0
      createdAt := .ofNanos 0
      status := .forming
      joinable := true }

/-- The role of one who joins stands behind the one that is kept for the first raider. -/
theorem raid_fills : raidFilling.rules.fault? = none ∧
    (raidFilling.activeRules openRaid.session).alliance.roleMode ≠ .normal ∧
    (raidFilling.activeRules openRaid.session).alliance.rolesFor 0 ≠ [] ∧
    (raidFilling.run .unlimited [openRaid] [raider "b" []]).proposals.map (fun p =>
      p.alliances.map fun a => a.members.map fun m => (m.id, m.assignedRole)) =
        [[[("a", none), ("b", some "tank")]]] ∧
    ∃ fs, raidFilling.Accounts (raidFilling.run .unlimited [openRaid] [raider "b" []])
        (sortBy OpenSession.rank [openRaid]) [raider "b" []] fs ∧
      ∀ f ∈ fs, raidFilling.CastsAll f := by
  have hrules : raidFilling.rules.fault? = none := by decide +kernel
  exact ⟨hrules, by decide +kernel, by decide +kernel, by decide +kernel,
    raidFilling.run_casts hrules .unlimited [openRaid] _⟩

end Backfill

end Matchmaking
