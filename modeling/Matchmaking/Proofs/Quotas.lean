import Mathlib.Data.List.Flatten
import Matchmaking.Number.Double
import Matchmaking.Proofs.Assembly
import Matchmaking.Proofs.Casting

/-!
# The quotas of assembled teams

A draft has the cast of its members (`TeamDraft.Casts`), and packing keeps that
(`Packing.keeps_casts`). Teams have the members that their roles must have before they are
filled up, and keep them as further members come (`Packing.StaysSatisfied`). So the roles of
a team that is finished are a casting of its players by the quotas of the team
(`TeamDraft.Casts.casting`, `Assembler.assemble?_casts`).
-/

namespace Matchmaking

variable {α : Type}

/-- Roles of some members are a casting by quotas: these members have roles and nobody else
    has one, all roles are those of the quotas, each is held by as many members as must and
    may hold it, and a member with roles of its own that does not take any has one of them. -/
structure Casting (quotas : List Role) (ms : List (Member α)) (roles : Dict String) : Prop where
  players : ∀ x, roles.contains x = true ↔ x ∈ ms.map (·.id)
  known : ∀ {x role}, roles.get? x = some role → ∃ q ∈ quotas, q.name = role
  least : ∀ q ∈ quotas, q.min ≤ holders roles q.name ms
  most : ∀ q ∈ quotas, holders roles q.name ms ≤ q.max
  own : ∀ m ∈ ms, m.roles ≠ [] → Key.anyRole ∉ m.roles →
    ∃ role ∈ m.roles, roles.get? m.id = some role

/-! ## Drafts -/

namespace TeamDraft

variable {d d' : TeamDraft} {given : List (Member α × Slot)}

/-- The players who have taken a role, with it. -/
def named (given : List (Member α × Slot)) : List (String × String) :=
  given.filterMap fun
    | (m, .role name) => some (m.id, name)
    | (_, .any) => none

/-- The players who are left open. -/
def opened (given : List (Member α × Slot)) : List String :=
  given.filterMap fun
    | (_, .role _) => none
    | (m, .any) => some m.id

/-- What is noted down of some members. -/
theorem note_eq (d : TeamDraft) (given : List (Member α × Slot)) :
    d.note given = { d with
      roles := (named given).foldl (fun roles e => roles.insert e.1 e.2) d.roles
      pending := d.pending ++ opened given } := by
  induction given generalizing d with
  | nil => simp [note, named, opened]
  | cons x given ih =>
    obtain ⟨m, slot⟩ := x
    cases slot <;> rw [note, ih] <;> simp [named, opened]

/-- The players who have taken a role, and those left open with theirs, are a cast. -/
theorem named_append_zip_perm (resolved : List String) (given : List (Member α × Slot)) :
    (named given ++ (opened given).zip resolved).Perm
      ((RoleTally.cast resolved given).map fun c => (c.1.id, c.2)) := by
  induction given generalizing resolved with
  | nil => rw [RoleTally.cast]; exact .refl _
  | cons x given ih =>
    obtain ⟨m, slot⟩ := x
    cases slot with
    | role name =>
      rw [RoleTally.cast]
      exact (ih resolved).cons (m.id, name)
    | any =>
      cases resolved with
      | nil =>
        have hrest := ih []
        rw [List.zip_nil_right] at hrest ⊢
        rw [RoleTally.cast]
        exact hrest
      | cons name resolved =>
        rw [RoleTally.cast]
        exact List.perm_middle.trans ((ih resolved).cons (m.id, name))

/-- A draft has the cast of its entrants: its tally is an empty one with what their members
    take, and what they take is noted down. -/
def Casts (empty : RoleTally) (d : TeamDraft) (es : List (Entrant α)) : Prop :=
  ∃ slots t, empty.assignAll? (es.flatMap (·.ticket.members)) = some (slots, t) ∧
    d.tally = some t ∧
    d.roles = .ofList (named ((es.flatMap (·.ticket.members)).zip slots)) ∧
    d.pending = opened ((es.flatMap (·.ticket.members)).zip slots)

theorem casts_new (t : RoleTally) : (new (some t)).Casts t ([] : List (Entrant α)) :=
  ⟨[], t, rfl, rfl, rfl, rfl⟩

/-- A team with roles that takes an entrant has what its members take. -/
theorem exists_of_add? {p : Packing} {t : RoleTally} {e : Entrant α} (htally : d.tally = some t)
    (h : p.add? d e = some d') :
    ∃ slots t', t.assignAll? e.ticket.members = some (slots, t') ∧
      d' = ({ d with tally := some t' }.note (e.ticket.members.zip slots)).push e := by
  rw [Packing.add?] at h
  split_ifs at h
  rw [htally] at h
  obtain ⟨⟨slots, t'⟩, hassign, rfl⟩ := Option.map_eq_some_iff.1 h
  exact ⟨slots, t', hassign, rfl⟩

theorem Casts.add? {p : Packing} {empty : RoleTally} {e : Entrant α} {es : List (Entrant α)}
    (h : d.Casts empty es) (hadd : p.add? d e = some d') : d'.Casts empty (es ++ [e]) := by
  obtain ⟨slots, t, hall, htally, hroles, hpending⟩ := h
  obtain ⟨slots', t', hassign, rfl⟩ := exists_of_add? htally hadd
  have hlength := (RoleTally.deals_of_assignAll? hall).may.length_eq
  have hmembers : (es ++ [e]).flatMap (·.ticket.members) =
      es.flatMap (·.ticket.members) ++ e.ticket.members := by
    rw [List.flatMap_append, List.flatMap_singleton]
  refine ⟨slots ++ slots', t', ?_, ?_, ?_, ?_⟩
  · rw [hmembers]
    exact RoleTally.assignAll?_append hall hassign
  · rw [note_eq]
    rfl
  · rw [hmembers, List.zip_append hlength, named, List.filterMap_append, Dict.ofList,
      List.foldl_append, note_eq]
    dsimp only [push]
    rw [hroles]
    rfl
  · rw [hmembers, List.zip_append hlength, opened, List.filterMap_append, note_eq]
    dsimp only [push]
    rw [hpending]
    rfl

end TeamDraft

/-! ## Teams that are finished -/

namespace TeamDraft

variable {d : TeamDraft} {quotas : List Role} {es : List (Entrant α)}

/-- A tally has counted no more members than there are. -/
theorem Casts.counts_lt (h : d.Casts ⟨quotas, ∅, 0⟩ es) {n : Nat}
    (hsize : total (·.ticket.players) es < n) :
    ∀ t, d.tally = some t → ∀ name, RoleTally.taken t.counts name + t.pending < n := by
  obtain ⟨slots, t, hall, htally, _⟩ := h
  rintro _ hsome name
  obtain rfl := Option.some.inj (htally.symm.trans hsome)
  have hdeals := RoleTally.deals_of_assignAll? hall
  have hcount := RoleTally.count_role_add_count_any_le slots name
  have hlength := hdeals.may.length_eq
  rw [length_flatMap_eq_total] at hlength
  have htaken : RoleTally.taken t.counts name = slots.count (.role name) :=
    (hdeals.taken_eq name).trans (Nat.zero_add _)
  have hpending : t.pending = slots.count .any := hdeals.pending_eq.trans (Nat.zero_add _)
  have hplayers : total (fun e : Entrant α => e.ticket.members.length) es =
      total (·.ticket.players) es := rfl
  omega

/-- The roles of a draft in the end are those of the cast of its members. -/
theorem Casts.exists_allots (h : d.Casts ⟨quotas, ∅, 0⟩ es) (hproper : Role.Proper quotas)
    (hid : ((es.flatMap (·.ticket.members)).map (·.id)).Nodup) :
    ∃ slots t, RoleTally.assignAll? ⟨quotas, ∅, 0⟩ (es.flatMap (·.ticket.members)) =
        some (slots, t) ∧ d.tally = some t ∧
      RoleTally.Allots quotas (es.flatMap (·.ticket.members)) slots t.resolve d.finalRoles := by
  obtain ⟨slots, t, hall, htally, hroles, hpending⟩ := h
  refine ⟨slots, t, hall, htally, ?_⟩
  generalize es.flatMap (·.ticket.members) = ms at *
  have hdeals := RoleTally.deals_of_assignAll? hall
  have hopens : slots.count .any = t.resolve.length := by
    have hroom := RoleTally.pending_le_of_assignAll? hproper hall (.inr (Nat.zero_le _))
    have hproper' : Role.Proper t.quotas := hdeals.quotas_eq ▸ hproper
    rw [RoleTally.length_resolve hproper' hroom, hdeals.pending_eq]
    exact (Nat.zero_add _).symm
  have hfinal : d.finalRoles = RoleTally.rolesIn (RoleTally.cast t.resolve (ms.zip slots)) := by
    have hperm := named_append_zip_perm t.resolve (ms.zip slots)
    have hof : d.finalRoles =
        .ofList (named (ms.zip slots) ++ (opened (ms.zip slots)).zip t.resolve) := by
      rw [finalRoles, htally, hroles, hpending, Dict.ofList, Dict.ofList, List.foldl_append]
    rw [hof, RoleTally.rolesIn]
    refine Dict.ofList_eq_of_perm hperm ?_
    rw [List.map_map]
    exact hdeals.nodup_cast hid hopens
  rw [hfinal]
  exact hdeals.allots hid hopens

/-- The roles of a team that has the members it must have are a casting of its members. -/
theorem Casts.casting (h : d.Casts ⟨quotas, ∅, 0⟩ es) (hproper : Role.Proper quotas)
    (hid : ((es.flatMap (·.ticket.members)).map (·.id)).Nodup) (hsatisfied : d.isSatisfied = true) :
    Casting quotas (es.flatMap (·.ticket.members)) d.finalRoles := by
  obtain ⟨slots, t, hall, htally, hallots⟩ := h.exists_allots hproper hid
  generalize es.flatMap (·.ticket.members) = ms at *
  have hdeals := RoleTally.deals_of_assignAll? hall
  have hquotas : t.quotas = quotas := hdeals.quotas_eq
  have hholders : ∀ role, holders d.finalRoles role ms =
      RoleTally.taken t.counts role + t.resolve.count role := fun role => by
    rw [hallots.holders, hdeals.taken_eq]
    exact congrArg (· + _) (Nat.zero_add _).symm
  refine ⟨hallots.players, fun {x role} hx => ?known, fun q hq => ?least, fun q hq => ?most,
    fun m hm hown hany => ?own⟩
  case known =>
    refine hallots.known (fun role hrole => ?_) hx
    exact hquotas ▸ RoleTally.mem_resolveFrom hrole
  case least =>
    have htsatisfied : t.isSatisfied = true := by
      rw [isSatisfied, htally] at hsatisfied
      exact hsatisfied
    have hleast := RoleTally.shortfall_eq_zero_iff.1 (RoleTally.isSatisfied_iff.1 htsatisfied) q
      (hquotas ▸ hq)
    rwa [RoleTally.taken_finalCounts, ← hholders] at hleast
  case most =>
    have htaken := RoleTally.taken_le_of_assignAll? hproper hall hq
    have hmost := RoleTally.taken_add_count_resolve_le (hquotas ▸ hproper) (hquotas ▸ hq)
    have hzero : RoleTally.taken ∅ q.name = 0 := rfl
    rw [hholders]
    dsimp only at htaken
    omega
  case own =>
    obtain ⟨role, hrole⟩ := Option.isSome_iff_exists.1
      ((hallots.players m.id).2 (List.mem_map_of_mem hm))
    rcases hallots.role m hm hrole with ⟨hmine, -⟩ | ⟨hopen, -⟩
    · exact ⟨role, hmine, hrole⟩
    · exact (hopen.elim hown hany).elim

end TeamDraft

/-! ## Packing -/

namespace Packing

variable {p : Packing} {team : Nat} {d : TeamDraft} {es : List (Entrant α)}

/-- A team at a place that has roles has the cast of its entrants. -/
def CastsAt (p : Packing) (team : Nat) (d : TeamDraft) (es : List (Entrant α)) : Prop :=
  d.Holds es ∧ (p.rule.rolesFor team ≠ [] → d.Casts ⟨p.rule.quotasFor team, ∅, 0⟩ es)

/-- A team that has had the members it must have has them still, unless it has so many
    members that words wrap around. -/
def StaysSatisfied (p : Packing) (team : Nat) (d : TeamDraft) (es : List (Entrant α)) : Prop :=
  p.CastsAt team d es ∧ (p.rule.rolesFor team ≠ [] → total (·.ticket.players) es < Word.half →
    d.isSatisfied = true)

theorem CastsAt.add? {d' : TeamDraft} {e : Entrant α} (h : p.CastsAt team d es)
    (hadd : p.add? d e = some d') : p.CastsAt team d' (es ++ [e]) :=
  ⟨h.1.add? hadd, fun hroles => (h.2 hroles).add? hadd⟩

theorem StaysSatisfied.add? {d' : TeamDraft} {e : Entrant α} (h : p.StaysSatisfied team d es)
    (hproper : Role.Proper (p.rule.quotasFor team)) (hadd : p.add? d e = some d') :
    p.StaysSatisfied team d' (es ++ [e]) := by
  obtain ⟨hcasts, hsatisfied⟩ := h
  refine ⟨hcasts.add? hadd, fun hroles hsize => ?_⟩
  have hsmaller : total (·.ticket.players) es < Word.half := by
    rw [total_append] at hsize
    exact Nat.lt_of_le_of_lt (Nat.le_add_right _ _) hsize
  have hlater := ((hcasts.2 hroles).add? hadd).counts_lt hsize
  obtain ⟨slots, t, hall, htally, -⟩ := hcasts.2 hroles
  obtain ⟨slots', t', hassign, rfl⟩ := TeamDraft.exists_of_add? htally hadd
  have hd := hsatisfied hroles hsmaller
  rw [TeamDraft.isSatisfied, htally] at hd
  have hquotas : t.quotas = p.rule.quotasFor team := (RoleTally.deals_of_assignAll? hall).quotas_eq
  rw [TeamDraft.note_eq] at hlater ⊢
  exact RoleTally.isSatisfied_of_assignAll? (hquotas ▸ hproper) hassign (hlater t' rfl) hd

/-- Packing keeps the casts of its teams, and that they have the members they must have. -/
theorem keeps_casts (hfault : p.rule.fault? = none) (hp : p.mode = p.rule.roleMode)
    (hmode : p.rule.roleMode ≠ .normal) : p.Keeps (p.CastsAt (α := α)) p.StaysSatisfied where
  new team := by
    refine ⟨TeamDraft.holds_new _, fun hroles => ?_⟩
    rw [hp, AllianceRule.tally?_eq_some hmode hroles]
    exact TeamDraft.casts_new _
  add h hadd := h.add? hadd
  satisfied h hsatisfied := ⟨h, fun _ _ => hsatisfied⟩
  add_satisfied h hadd := h.add? (AllianceRule.proper_quotasFor hfault _) hadd

end Packing

/-! ## Assemblies -/

namespace Assembler

variable [Scalar α] {rule : AllianceRule} {policy : BlockPolicy} {cap : Nat} {pivot : Ticket α}
  {ts : List (Ticket α)} {a : Assembly}

/-- The roles of an assembly are castings: in every team that has roles the roles of its
    plan are a casting of the members of its tickets by the quotas of the team. -/
def Casts (rule : AllianceRule) (a : Assembly) (teams : List (List (Ticket α))) : Prop :=
  ∀ {i team plan}, teams[i]? = some team → a.teams[i]? = some plan → rule.rolesFor i ≠ [] →
    Casting (rule.quotasFor i) (team.flatMap (·.members)) plan.roles

omit [Scalar α] in
/-- Members of some of the tickets are different where those of all of them are, and they are
    no more. -/
theorem members_of_subperm {us : List (Ticket α)} (h : us.Subperm (pivot :: ts))
    (hid : (((pivot :: ts).flatMap (·.members)).map (·.id)).Nodup) :
    ((us.flatMap (·.members)).map (·.id)).Nodup ∧
      Ticket.totalPlayers us ≤ Ticket.totalPlayers (pivot :: ts) := by
  obtain ⟨l, hperm, hsub⟩ := h
  have hids := ((hperm.flatMap_right fun t : Ticket α => t.members).map (·.id)).nodup_iff
  refine ⟨hids.1 (hid.sublist ((hsub.flatMap _).map _)), ?_⟩
  rw [Ticket.totalPlayers, ← total_eq_of_perm Ticket.players hperm]
  exact total_le_of_sublist Ticket.players hsub

/-- An assembly of tickets whose members are different players gives everyone in a team with
    roles a role, and each role as many members as must and may have it. There are fewer
    players than signed words can count, as what a role lacks is a signed word. -/
theorem assemble?_casts (hfault : rule.fault? = none) (hmode : rule.roleMode ≠ .normal)
    (hid : (((pivot :: ts).flatMap (·.members)).map (·.id)).Nodup)
    (hsize : Ticket.totalPlayers (pivot :: ts) < Word.half)
    (h : (Assembler.of rule policy cap).assemble? pivot ts = some a) :
    ∃ teams, (Assembler.of rule policy cap).Seats pivot ts a teams ∧ Casts rule a teams := by
  obtain ⟨order, horder⟩ := packed?_of_assemble? h
  have hkeeps := Packing.keeps_casts (α := α) (p := (Assembler.of rule policy cap).packing)
    hfault rfl hmode
  obtain ⟨ds, seats, hplans, hseated, hseats⟩ := packed?_keeps hkeeps (fun h => h.1.1) horder
  refine ⟨_, hseats, fun {i team plan} hteam hplan hroles => ?_⟩
  rw [hplans, List.getElem?_map] at hplan
  obtain ⟨d, hd, rfl⟩ := Option.map_eq_some_iff.1 hplan
  rw [List.getElem?_map] at hteam
  obtain ⟨es, hes, rfl⟩ := Option.map_eq_some_iff.1 hteam
  obtain ⟨⟨_, hcasts⟩, hsatisfied⟩ := hseated.of_getElem? hd hes
  -- The tickets of the team are some of those that there are.
  have hsub : (es.map (·.ticket)).Subperm (pivot :: ts) := by
    refine List.Subperm.trans (List.Sublist.subperm ?_) hseats.known
    exact List.sublist_flatten_of_mem (List.mem_map_of_mem (List.mem_of_getElem? hes))
  obtain ⟨hids, hplayers⟩ := members_of_subperm hsub hid
  rw [List.flatMap_map] at hids ⊢
  rw [Ticket.totalPlayers, total_map] at hplayers
  exact (hcasts hroles).casting (AllianceRule.proper_quotasFor hfault i) hids
    (hsatisfied hroles (Nat.lt_of_le_of_lt hplayers hsize))

end Assembler

/-! ### A raid -/

/-- A team of a tank and one or two healers. -/
def raid : AllianceRule where
  bounds := ⟨1, 1, 2, 3⟩
  combination := some
    { active := true, unique := false, teams := [[⟨"tank", 1, 1⟩, ⟨"healer", 1, 2⟩]]
      flexing := false, flexSeconds := 0, flexPlayers := 0 }

/-- A raider with roles of its own. -/
def raider (id : String) (roles : List String) : Ticket Float where
  id := id
  channel := "raid"
  partyId := id
  members := [⟨id, .ofList [(Key.role, .list roles)], none, false⟩]
  attributes := ∅
  priority := 0
  createdAt := .ofNanos 0
  latencies := ∅
  excluded := []

/-- The first raider takes any role. -/
def raiders : List (Ticket Float) := [raider "a" [], raider "b" ["tank"], raider "c" ["healer"]]

namespace Assembler

/-- They make a team, where the first raider is left open until the end. -/
theorem raid_casts : raid.fault? = none ∧ raid.roleMode ≠ .normal ∧
    ((raiders.flatMap (·.members)).map (·.id)).Nodup ∧
    Ticket.totalPlayers raiders < Word.half ∧
    ∃ a, (Assembler.of raid .cannotMatch 4).assemble? (raider "a" []) raiders.tail = some a ∧
      a.players = 3 ∧
      ∃ teams, (Assembler.of raid .cannotMatch 4).Seats (raider "a" []) raiders.tail a teams ∧
        Casts raid a teams := by
  have hfault : raid.fault? = none := by decide +kernel
  have hmode : raid.roleMode ≠ .normal := by decide
  have hid : ((raiders.flatMap (·.members)).map (·.id)).Nodup := by decide
  have hsize : Ticket.totalPlayers raiders < Word.half := by decide
  have hplayers : ((Assembler.of raid .cannotMatch 4).assemble? (raider "a" [])
      raiders.tail).map (·.players) = some 3 := by decide +kernel
  obtain ⟨a, ha, hthree⟩ := Option.map_eq_some_iff.1 hplayers
  exact ⟨hfault, hmode, hid, hsize, a, ha, hthree, assemble?_casts hfault hmode hid hsize ha⟩

end Assembler

end Matchmaking
