import Mathlib.Data.List.Forall2
import Mathlib.Data.List.Nodup
import Matchmaking.Proofs.Flexing
import Matchmaking.RoleTally

/-!
# What a tally keeps

A member takes a role that has room, or is left open while there is room for one more
(`RoleTally.Takes`, `RoleTally.takes_of_assign?`). What follows is counted by the members
that roles are short of, either to have as many as they may or as they must
(`RoleTally.shortfall`):

* no role is taken by more members than may take it, unless it was so before
  (`RoleTally.taken_le_of_assignAll?`);
* there is room for all members who are left open (`RoleTally.pending_le_of_assignAll?`), so
  that each of them is given a role (`RoleTally.length_resolve`);
* the open members make up for what roles must have, as far as they can
  (`RoleTally.shortfall_resolveFrom`), so that roles which have what they must have keep it
  when a member is added (`RoleTally.isSatisfied_of_assignAll?`).
-/

namespace Matchmaking

variable {α : Type}

/-- Roles of a team: their names are different, and none must be taken by more members than
    may take it. -/
structure Role.Proper (quotas : List Role) : Prop where
  names : (quotas.map (·.name)).Nodup
  bounds : ∀ q ∈ quotas, q.min ≤ q.max

/-- A role is known by its name. -/
theorem Role.Proper.eq_of_name_eq {quotas : List Role} (h : Role.Proper quotas) {q r : Role}
    (hq : q ∈ quotas) (hr : r ∈ quotas) (hname : q.name = r.name) : q = r :=
  List.inj_on_of_nodup_map h.names hq hr hname

/-- Roles without a fault are proper, and have other names than those before them. -/
theorem Role.proper_of_fault?_eq_none {team : Nat} {seen : List String} {quotas : List Role}
    (h : Role.fault? team seen quotas = none) :
    Role.Proper quotas ∧ ∀ q ∈ quotas, q.name ∉ seen := by
  induction quotas generalizing seen with
  | nil => exact ⟨⟨.nil, List.forall_mem_nil _⟩, List.forall_mem_nil _⟩
  | cons r quotas ih =>
    rw [fault?] at h
    split_ifs at h with hblank hseen hbounds
    obtain ⟨hproper, hnew⟩ := ih h
    have hr : r.name ∉ quotas.map (·.name) := fun hmem => by
      obtain ⟨q, hq, hname⟩ := List.mem_map.1 hmem
      exact hnew q hq (hname ▸ List.mem_cons_self)
    refine ⟨⟨List.nodup_cons.2 ⟨hr, hproper.names⟩, ?_⟩, ?_⟩
    · exact List.forall_mem_cons.2 ⟨Nat.le_of_not_lt hbounds, hproper.bounds⟩
    · refine List.forall_mem_cons.2 ⟨by simpa using hseen, fun q hq hmem => ?_⟩
      exact hnew q hq (List.mem_cons_of_mem _ hmem)

/-- Proper roles are proper as roles for one member at most. -/
theorem Role.Proper.single {quotas : List Role} (h : Role.Proper quotas) :
    Role.Proper (quotas.map Role.single) where
  names := by
    rw [List.map_map]
    exact h.names
  bounds := List.forall_mem_map.2 fun q hq => by
    have hq := h.bounds q hq
    show Nat.min q.min 1 ≤ Nat.min q.max 1
    simp only [Nat.min_def]
    split_ifs <;> omega

theorem RoleCombination.proper_of_teamFault?_eq_none {i : Nat} {teams : List (List Role)}
    (h : teamFault? i teams = none) : ∀ quotas ∈ teams, Role.Proper quotas := by
  induction teams generalizing i with
  | nil => exact List.forall_mem_nil _
  | cons quotas teams ih =>
    rw [teamFault?, Option.or_eq_none_iff] at h
    exact List.forall_mem_cons.2 ⟨(Role.proper_of_fault?_eq_none h.1).1, ih h.2⟩

/-- The roles of the teams of a shape without a fault are proper. -/
theorem AllianceRule.proper_rolesFor {a : AllianceRule} (h : a.fault? = none) (team : Nat) :
    Role.Proper (a.rolesFor team) := by
  have hnil : Role.Proper [] := ⟨.nil, List.forall_mem_nil _⟩
  rw [rolesFor]
  cases hc : a.combination with
  | none => exact hnil
  | some c =>
    rw [fault?, Option.or_eq_none_iff, hc, Option.bind_some, RoleCombination.fault?,
      Option.or_eq_none_iff] at h
    rw [Option.map_some, Option.getD_some, RoleCombination.rolesFor]
    cases hteam : c.teams[team % c.teams.length]? with
    | none => exact hnil
    | some quotas =>
      exact RoleCombination.proper_of_teamFault?_eq_none h.2.1 quotas (List.mem_of_getElem? hteam)

namespace RoleTally

variable {counts : Dict Nat} {quotas : List Role} {q : Role} {name : String} {n : Nat}

/-! ## Counts -/

theorem taken_take (counts : Dict Nat) (role name : String) :
    taken (take counts role) name = taken counts name + if name = role then 1 else 0 := by
  rw [taken, take, Dict.getD, Dict.get?_insert]
  split_ifs with h
  · rw [h]
    rfl
  · rfl

theorem taken_take_self (counts : Dict Nat) (role : String) :
    taken (take counts role) role = taken counts role + 1 := by
  rw [taken_take, if_pos rfl]

theorem taken_take_of_ne {role : String} (h : name ≠ role) :
    taken (take counts role) name = taken counts name := by
  rw [taken_take, if_neg h, Nat.add_zero]

theorem taken_foldl_take (counts : Dict Nat) (roles : List String) (name : String) :
    taken (roles.foldl take counts) name = taken counts name + roles.count name := by
  induction roles generalizing counts with
  | nil => rfl
  | cons role roles ih =>
    rw [List.foldl_cons, ih, taken_take, List.count_cons]
    grind

/-- How many members roles are short of, where so many are wanted of each. -/
def shortfall (want : Role → Nat) (counts : Dict Nat) (quotas : List Role) : Nat :=
  total (fun q => want q - taken counts q.name) quotas

variable {want : Role → Nat}

theorem shortfall_eq_zero_iff :
    shortfall want counts quotas = 0 ↔ ∀ q ∈ quotas, want q ≤ taken counts q.name := by
  induction quotas with
  | nil => simp [shortfall]
  | cons r quotas ih =>
    rw [List.forall_mem_cons, ← ih, shortfall, total_cons, shortfall]
    omega

/-- Roles that are short of members are short of one of a role. -/
theorem exists_of_shortfall_pos (h : 0 < shortfall want counts quotas) :
    ∃ q ∈ quotas, taken counts q.name < want q := by
  by_contra hnone
  simp only [not_exists, not_and] at hnone
  exact (Nat.ne_of_gt h) (shortfall_eq_zero_iff.2 fun q hq => Nat.le_of_not_lt (hnone q hq))

theorem shortfall_take_of_not_mem (want : Role → Nat) (counts : Dict Nat)
    (h : name ∉ quotas.map (·.name)) :
    shortfall want (take counts name) quotas = shortfall want counts quotas := by
  induction quotas with
  | nil => rfl
  | cons r quotas ih =>
    rw [List.map_cons, List.mem_cons, not_or] at h
    rw [shortfall, total_cons, taken_take_of_ne (Ne.symm h.1)]
    exact congrArg _ (ih h.2)

theorem shortfall_take_le (want : Role → Nat) (counts : Dict Nat) (name : String)
    (quotas : List Role) :
    shortfall want (take counts name) quotas ≤ shortfall want counts quotas := by
  induction quotas with
  | nil => exact Nat.le_refl _
  | cons r quotas ih =>
    have hr : taken counts r.name ≤ taken (take counts name) r.name := by
      rw [taken_take]
      exact Nat.le_add_right _ _
    rw [shortfall, shortfall, total_cons, total_cons]
    rw [shortfall, shortfall] at ih
    omega

/-- A member who takes a role that is short of one makes the shortfall less by one. -/
theorem shortfall_take_of_lt (want : Role → Nat) (hnames : (quotas.map (·.name)).Nodup)
    (hq : q ∈ quotas) (h : taken counts q.name < want q) :
    shortfall want (take counts q.name) quotas + 1 = shortfall want counts quotas := by
  induction quotas with
  | nil => cases hq
  | cons r quotas ih =>
    obtain ⟨hr, hnames⟩ := List.nodup_cons.1 hnames
    rw [shortfall, shortfall, total_cons, total_cons]
    rcases List.mem_cons.1 hq with rfl | hq
    · -- The roles behind it have other names.
      have hrest := shortfall_take_of_not_mem want counts hr
      rw [shortfall, shortfall] at hrest
      rw [hrest, taken_take_self]
      omega
    · have hne : r.name ≠ q.name := fun heq => hr (List.mem_map.2 ⟨q, hq, heq.symm⟩)
      have hrest := ih hnames hq
      rw [shortfall, shortfall] at hrest
      rw [taken_take_of_ne hne]
      omega

/-! ## The roles of open members -/

instance (counts : Dict Nat) : Std.TransCmp (openRank counts) := by
  have hname : Std.TransCmp fun q r : Role => compare r.name q.name :=
    transCmp_swap (compareOn fun q : Role => q.name)
  exact inferInstanceAs (Std.TransCmp (compareLex (compareOn (deficit counts))
    (compareLex (compareOn fun q => q.max - taken counts q.name)
      fun q r => compare r.name q.name)))

/-- What goes first in this order lacks no more members. -/
theorem deficit_le_of_openRank {r : Role} (h : (openRank counts q r).isLE = true) :
    deficit counts q ≤ deficit counts r := by
  by_contra hlt
  have hgt : compare (deficit counts q) (deficit counts r) = .gt :=
    Int.compare_eq_gt.2 (Int.not_le.1 hlt)
  rw [openRank, compareLex, compareOn, hgt] at h
  cases h

/-- The next of the open members has no role if none has room, and else one that lacks the
    most members. -/
theorem resolveFrom_succ (quotas : List Role) (counts : Dict Nat) (n : Nat) :
    ((∀ q ∈ quotas, q.max ≤ taken counts q.name) ∧ resolveFrom quotas counts (n + 1) = []) ∨
      ∃ q ∈ quotas, taken counts q.name < q.max ∧
        (∀ r ∈ quotas, taken counts r.name < r.max → deficit counts r ≤ deficit counts q) ∧
        resolveFrom quotas counts (n + 1) =
          q.name :: resolveFrom quotas (take counts q.name) n := by
  rw [resolveFrom]
  cases hlast : lastGreatest? (openRank counts) (quotas.filter (hasRoom counts)) with
  | none =>
    refine .inl ⟨fun q hq => ?_, rfl⟩
    have hnil : quotas.filter (hasRoom counts) = [] := by
      cases hfilter : quotas.filter (hasRoom counts) with
      | nil => rfl
      | cons => rw [hfilter] at hlast; cases hlast
    have hfull := List.filter_eq_nil_iff.1 hnil q hq
    simpa [hasRoom] using hfull
  | some q =>
    obtain ⟨before, after, hsplit, hbefore, hafter⟩ := split_of_lastGreatest? hlast
    have hmem : ∀ {r}, r ∈ before ++ q :: after ↔ r ∈ quotas ∧ taken counts r.name < r.max :=
      fun {r} => by rw [← hsplit, List.mem_filter, hasRoom, decide_eq_true_iff]
    obtain ⟨hq, hroom⟩ := hmem.1 (List.mem_append_right _ List.mem_cons_self)
    refine .inr ⟨q, hq, hroom, fun r hr hrroom => deficit_le_of_openRank ?_, rfl⟩
    rcases List.mem_append.1 (hmem.2 ⟨hr, hrroom⟩) with hr | hr
    · exact hbefore r hr
    · rcases List.mem_cons.1 hr with rfl | hr
      · exact Std.ReflCmp.isLE_rfl
      · rw [hafter r hr]
        rfl

theorem mem_resolveFrom (h : name ∈ resolveFrom quotas counts n) :
    ∃ q ∈ quotas, q.name = name := by
  induction n generalizing counts with
  | zero => cases h
  | succ n ih =>
    rcases resolveFrom_succ quotas counts n with ⟨_, hnil⟩ | ⟨q, hq, _, _, hcons⟩
    · rw [hnil] at h
      cases h
    · rw [hcons] at h
      rcases List.mem_cons.1 h with rfl | h
      · exact ⟨q, hq, rfl⟩
      · exact ih h

theorem length_resolveFrom_le (quotas : List Role) (counts : Dict Nat) (n : Nat) :
    (resolveFrom quotas counts n).length ≤ n := by
  induction n generalizing counts with
  | zero => exact Nat.le_refl _
  | succ n ih =>
    rcases resolveFrom_succ quotas counts n with ⟨_, hnil⟩ | ⟨q, _, _, _, hcons⟩
    · rw [hnil]
      exact Nat.zero_le _
    · rw [hcons]
      exact Nat.succ_le_succ (ih _)

/-- Where there is room for all of them, every open member has a role. -/
theorem length_resolveFrom (hnames : (quotas.map (·.name)).Nodup)
    (h : n ≤ shortfall Role.max counts quotas) : (resolveFrom quotas counts n).length = n := by
  induction n generalizing counts with
  | zero => rfl
  | succ n ih =>
    rcases resolveFrom_succ quotas counts n with ⟨hfull, _⟩ | ⟨q, hq, hroom, _, hcons⟩
    · rw [shortfall_eq_zero_iff.2 hfull] at h
      cases h
    · have hless := shortfall_take_of_lt Role.max hnames hq hroom
      rw [hcons, List.length_cons, ih (by omega)]

/-- No role is given to more members than may take it, unless it was so before. -/
theorem taken_add_count_resolveFrom_le (counts : Dict Nat) (hproper : Role.Proper quotas)
    (hq : q ∈ quotas) :
    taken counts q.name + (resolveFrom quotas counts n).count q.name ≤
      max (taken counts q.name) q.max := by
  induction n generalizing counts with
  | zero => exact Nat.le_max_left _ _
  | succ n ih =>
    rcases resolveFrom_succ quotas counts n with ⟨_, hnil⟩ | ⟨r, hr, hroom, _, hcons⟩
    · rw [hnil]
      exact Nat.le_max_left _ _
    · have hrest := ih (take counts r.name)
      rw [hcons, List.count_cons]
      by_cases hname : r.name = q.name
      · obtain rfl := hproper.eq_of_name_eq hr hq hname
        rw [taken_take_self] at hrest
        rw [beq_self_eq_true, if_pos rfl]
        omega
      · rw [taken_take_of_ne (Ne.symm hname)] at hrest
        rwa [if_neg (by simpa using hname), Nat.add_zero]

/-- As long as words do not wrap around, a role lacks what is missing of what it must have. -/
theorem deficit_eq (hmin : q.min < Word.half) (htaken : taken counts q.name < Word.half) :
    deficit counts q = q.min - taken counts q.name := by
  rw [Word.half] at hmin htaken
  rw [deficit, Word.signed, Word.size, Int.bmod_def]
  omega

/-- The open members make up for what roles must have, as far as they can. -/
theorem shortfall_resolveFrom (hproper : Role.Proper quotas)
    (hmin : ∀ q ∈ quotas, q.min < Word.half) (hsmall : ∀ name, taken counts name + n < Word.half)
    (h : n ≤ shortfall Role.max counts quotas) :
    shortfall Role.min ((resolveFrom quotas counts n).foldl take counts) quotas =
      shortfall Role.min counts quotas - n := by
  induction n generalizing counts with
  | zero => rfl
  | succ n ih =>
    rcases resolveFrom_succ quotas counts n with ⟨hfull, _⟩ | ⟨q, hq, hroom, hmost, hcons⟩
    · rw [shortfall_eq_zero_iff.2 hfull] at h
      cases h
    · have hless := shortfall_take_of_lt Role.max hproper.names hq hroom
      have hsmall' : ∀ name, taken (take counts q.name) name + n < Word.half := fun name => by
        have hname := hsmall name
        rw [taken_take]
        split_ifs <;> omega
      have hsigned : ∀ r ∈ quotas, deficit counts r = r.min - taken counts r.name :=
        fun r hr => deficit_eq (hmin r hr) (by have hr := hsmall r.name; omega)
      rw [hcons, List.foldl_cons, ih hsmall' (by omega)]
      rcases Nat.eq_zero_or_pos (shortfall Role.min counts quotas) with hzero | hpos
      · have hle := shortfall_take_le Role.min counts q.name quotas
        omega
      · -- A role that lacks members has room, so the role that is given lacks some too.
        obtain ⟨r, hr, hlacks⟩ := exists_of_shortfall_pos hpos
        have hdeficit := hmost r hr (Nat.lt_of_lt_of_le hlacks (hproper.bounds r hr))
        rw [hsigned r hr, hsigned q hq] at hdeficit
        have hqlacks : taken counts q.name < q.min := by omega
        have hstep := shortfall_take_of_lt Role.min hproper.names hq hqlacks
        omega

/-! ## What a member takes -/

/-- How many more members the roles may have. -/
def space (t : RoleTally) : Nat := shortfall Role.max t.counts t.quotas

/-- What a member may take: a role of its own that the team has, or any role if it has none
    of its own or takes any. -/
def MayTake (quotas : List Role) (m : Member α) : Slot → Prop
  | .role name => name ∈ m.roles ∧ ∃ q ∈ quotas, q.name = name
  | .any => m.roles = [] ∨ Key.anyRole ∈ m.roles

/-- A member takes something, and the team has the member. -/
inductive Takes (t : RoleTally) (m : Member α) : Slot → RoleTally → Prop
  /-- A role of its own that has room. -/
  | role {q : Role} (hq : q ∈ t.quotas) (hown : q.name ∈ m.roles)
    (hroom : taken t.counts q.name < q.max) :
    Takes t m (.role q.name) { t with counts := take t.counts q.name }
  /-- Any role. -/
  | any (hopen : m.roles = [] ∨ Key.anyRole ∈ m.roles) :
    Takes t m .any { t with pending := t.pending + 1 }

variable {t t' : RoleTally} {m : Member α} {ms : List (Member α)} {slot : Slot} {slots : List Slot}

/-- A member takes something only if there is room for one more. -/
theorem takes_of_assign? (h : t.assign? m = some (slot, t')) :
    t.pending < t.space ∧ t.Takes m slot t' := by
  rw [assign?] at h
  split at h
  · cases h
  rename_i hroom
  have hspace : t.pending < t.space := by
    have hwrap : Word.wrap t.space ≤ t.space := Nat.mod_le _ _
    have hpos : t.room = Word.wrap t.space - t.pending := rfl
    omega
  refine ⟨hspace, ?_⟩
  split at h
  · rename_i q hchoice
    cases h
    obtain ⟨hmem, hroom⟩ := List.mem_filter.1 (mem_of_firstGreatest? hchoice)
    obtain ⟨name, hown, hquota⟩ := List.mem_filterMap.1 hmem
    obtain rfl : q.name = name := by simpa using List.find?_some hquota
    exact .role (List.mem_of_find?_eq_some hquota) hown (by simpa [hasRoom] using hroom)
  · split_ifs at h with hopen
    cases h
    exact .any (by simpa using hopen)

theorem Takes.mayTake (h : t.Takes m slot t') : MayTake t.quotas m slot := by
  cases h with
  | role hq hown _ => exact ⟨hown, _, hq, rfl⟩
  | any hopen => exact hopen

theorem Takes.quotas_eq (h : t.Takes m slot t') : t'.quotas = t.quotas := by
  cases h <;> rfl

theorem Takes.taken_eq (h : t.Takes m slot t') (name : String) :
    taken t'.counts name =
      taken t.counts name + if slot = .role name then 1 else 0 := by
  cases h with
  | role _ _ _ =>
    rw [taken_take]
    simp [eq_comm]
  | any _ => rfl

theorem Takes.pending_eq (h : t.Takes m slot t') :
    t'.pending = t.pending + if slot = .any then 1 else 0 := by
  cases h <;> rfl

/-- There is room for all open members still. -/
theorem Takes.pending_le (h : t.Takes m slot t') (hproper : Role.Proper t.quotas)
    (hspace : t.pending < t.space) : t'.pending ≤ t'.space := by
  cases h with
  | role hq _ hroom =>
    have hless := shortfall_take_of_lt Role.max hproper.names hq hroom
    rw [space] at hspace ⊢
    dsimp only
    omega
  | any _ => exact hspace

/-- No role is taken by more members than may take it, unless it was so before. -/
theorem Takes.taken_le (h : t.Takes m slot t') (hproper : Role.Proper t.quotas)
    (hq : q ∈ t.quotas) :
    taken t'.counts q.name ≤ max (taken t.counts q.name) q.max := by
  cases h with
  | @role r hr _ hroom =>
    by_cases hname : q.name = r.name
    · obtain rfl := hproper.eq_of_name_eq hq hr hname
      rw [taken_take_self]
      omega
    · rw [taken_take_of_ne hname]
      exact Nat.le_max_left _ _
  | any _ => exact Nat.le_max_left _ _

/-! ## What several members take -/

/-- What is known when several members take something: what each of them may take, and how
    often each role is taken. -/
structure Deals (t : RoleTally) (ms : List (Member α)) (slots : List Slot) (t' : RoleTally) :
    Prop where
  may : List.Forall₂ (MayTake t.quotas) ms slots
  quotas_eq : t'.quotas = t.quotas
  taken_eq : ∀ name, taken t'.counts name = taken t.counts name + slots.count (.role name)
  pending_eq : t'.pending = t.pending + slots.count .any

/-- Who takes a role is not left open. -/
theorem count_role_add_count_any_le (slots : List Slot) (name : String) :
    slots.count (.role name) + slots.count .any ≤ slots.length := by
  induction slots with
  | nil => exact Nat.le_refl _
  | cons slot slots ih =>
    rw [List.count_cons, List.count_cons, List.length_cons]
    cases slot <;> grind

theorem assignAll?_cons (h : t.assignAll? (m :: ms) = some (slots, t')) :
    ∃ slot t₁ rest, t.assign? m = some (slot, t₁) ∧ t₁.assignAll? ms = some (rest, t') ∧
      slots = slot :: rest := by
  rw [assignAll?] at h
  split at h
  · cases h
  · rename_i slot t₁ hassign
    split at h
    · cases h
    · rename_i rest t₂ hrest
      cases h
      exact ⟨slot, t₁, rest, hassign, hrest, rfl⟩

theorem deals_of_assignAll? (h : t.assignAll? ms = some (slots, t')) : t.Deals ms slots t' := by
  induction ms generalizing t slots with
  | nil =>
    cases h
    exact ⟨.nil, rfl, fun _ => rfl, rfl⟩
  | cons m ms ih =>
    obtain ⟨slot, t₁, rest, hassign, hrest, rfl⟩ := assignAll?_cons h
    have htakes := (takes_of_assign? hassign).2
    have hdeals := ih hrest
    refine ⟨.cons htakes.mayTake (htakes.quotas_eq ▸ hdeals.may),
      hdeals.quotas_eq.trans htakes.quotas_eq,
      fun name => ?_, ?_⟩
    · rw [hdeals.taken_eq, htakes.taken_eq, List.count_cons]
      simp only [beq_iff_eq]
      omega
    · rw [hdeals.pending_eq, htakes.pending_eq, List.count_cons]
      simp only [beq_iff_eq]
      omega

/-- Members one after the other are members all at once. -/
theorem assignAll?_append {ms' : List (Member α)} {slots' : List Slot} {t'' : RoleTally}
    (h : t.assignAll? ms = some (slots, t')) (h' : t'.assignAll? ms' = some (slots', t'')) :
    t.assignAll? (ms ++ ms') = some (slots ++ slots', t'') := by
  induction ms generalizing t slots with
  | nil =>
    cases h
    exact h'
  | cons m ms ih =>
    obtain ⟨slot, t₁, rest, hassign, hrest, rfl⟩ := assignAll?_cons h
    rw [List.cons_append, assignAll?, hassign]
    dsimp only
    rw [ih hrest]
    rfl

/-- No role is taken by more members than may take it, unless it was so before. -/
theorem taken_le_of_assignAll? (hproper : Role.Proper t.quotas)
    (h : t.assignAll? ms = some (slots, t')) (hq : q ∈ t.quotas) :
    taken t'.counts q.name ≤ max (taken t.counts q.name) q.max := by
  induction ms generalizing t slots with
  | nil =>
    cases h
    exact Nat.le_max_left _ _
  | cons m ms ih =>
    obtain ⟨slot, t₁, rest, hassign, hrest, rfl⟩ := assignAll?_cons h
    have htakes := (takes_of_assign? hassign).2
    have hfirst := htakes.taken_le hproper hq
    have hlater := ih (htakes.quotas_eq ▸ hproper) hrest (htakes.quotas_eq ▸ hq)
    omega

/-- There is room for all open members, once a member was added. -/
theorem pending_le_of_assignAll? (hproper : Role.Proper t.quotas)
    (h : t.assignAll? ms = some (slots, t')) (hstart : ms ≠ [] ∨ t.pending ≤ t.space) :
    t'.pending ≤ t'.space := by
  induction ms generalizing t slots with
  | nil =>
    cases h
    exact hstart.resolve_left fun hne => hne rfl
  | cons m ms ih =>
    obtain ⟨slot, t₁, rest, hassign, hrest, rfl⟩ := assignAll?_cons h
    obtain ⟨hspace, htakes⟩ := takes_of_assign? hassign
    exact ih (htakes.quotas_eq ▸ hproper) hrest (.inr (htakes.pending_le hproper hspace))

/-! ## In the end -/

/-- Where there is room for all of them, every open member has a role. -/
theorem length_resolve (hproper : Role.Proper t.quotas) (h : t.pending ≤ t.space) :
    t.resolve.length = t.pending := length_resolveFrom hproper.names h

/-- No role is given to more members than may take it, unless it was so before. -/
theorem taken_add_count_resolve_le (hproper : Role.Proper t.quotas) (hq : q ∈ t.quotas) :
    taken t.counts q.name + t.resolve.count q.name ≤ max (taken t.counts q.name) q.max :=
  taken_add_count_resolveFrom_le t.counts hproper hq

theorem taken_finalCounts (t : RoleTally) (name : String) :
    taken t.finalCounts name = taken t.counts name + t.resolve.count name :=
  taken_foldl_take _ _ _

theorem isSatisfied_iff : t.isSatisfied = true ↔ shortfall Role.min t.finalCounts t.quotas = 0 := by
  rw [isSatisfied, List.all_eq_true, shortfall_eq_zero_iff]
  simp only [decide_eq_true_iff]

/-- Of a team that has the members it must have, no role must have more than there are. -/
theorem min_lt_of_isSatisfied (h : t.isSatisfied = true)
    (hsmall : ∀ name, taken t.counts name + t.pending < Word.half) :
    ∀ q ∈ t.quotas, q.min < Word.half := by
  intro q hq
  have hmin := shortfall_eq_zero_iff.1 (isSatisfied_iff.1 h) q hq
  have hlength : t.resolve.length ≤ t.pending := length_resolveFrom_le _ _ _
  have hcount := List.count_le_length (a := q.name) (l := t.resolve)
  have hq := hsmall q.name
  rw [taken_finalCounts] at hmin
  omega

/-- A team has the members that it must have when there are open members for all that its
    roles are short of. -/
theorem isSatisfied_iff_le (hproper : Role.Proper t.quotas) (hspace : t.pending ≤ t.space)
    (hmin : ∀ q ∈ t.quotas, q.min < Word.half)
    (hsmall : ∀ name, taken t.counts name + t.pending < Word.half) :
    t.isSatisfied = true ↔ shortfall Role.min t.counts t.quotas ≤ t.pending := by
  rw [isSatisfied_iff, finalCounts, resolve, shortfall_resolveFrom hproper hmin hsmall hspace]
  omega

/-- A team that has the members it must have keeps them when a member is added. -/
theorem Takes.isSatisfied (h : t.Takes m slot t') (hproper : Role.Proper t.quotas)
    (hspace : t.pending < t.space)
    (hsmall : ∀ name, taken t'.counts name + t'.pending < Word.half)
    (hsatisfied : t.isSatisfied = true) : t'.isSatisfied = true := by
  have hbefore : ∀ name, taken t.counts name + t.pending < Word.half := fun name => by
    have hname := hsmall name
    rw [h.taken_eq, h.pending_eq] at hname
    omega
  have hmin := min_lt_of_isSatisfied hsatisfied hbefore
  have hlack := (isSatisfied_iff_le hproper (Nat.le_of_lt hspace) hmin hbefore).1 hsatisfied
  refine (isSatisfied_iff_le (h.quotas_eq ▸ hproper) (h.pending_le hproper hspace)
    (h.quotas_eq ▸ hmin) hsmall).2 ?_
  cases h with
  | role _ _ _ => exact Nat.le_trans (shortfall_take_le _ _ _ _) hlack
  | any _ => exact Nat.le_succ_of_le hlack

theorem isSatisfied_of_assignAll? (hproper : Role.Proper t.quotas)
    (h : t.assignAll? ms = some (slots, t'))
    (hsmall : ∀ name, taken t'.counts name + t'.pending < Word.half)
    (hsatisfied : t.isSatisfied = true) : t'.isSatisfied = true := by
  induction ms generalizing t slots with
  | nil =>
    cases h
    exact hsatisfied
  | cons m ms ih =>
    obtain ⟨slot, t₁, rest, hassign, hrest, rfl⟩ := assignAll?_cons h
    obtain ⟨hspace, htakes⟩ := takes_of_assign? hassign
    have hdeals := deals_of_assignAll? hrest
    -- There are no fewer members later.
    have hsmall₁ : ∀ name, taken t₁.counts name + t₁.pending < Word.half := fun name => by
      have hname := hsmall name
      rw [hdeals.taken_eq, hdeals.pending_eq] at hname
      omega
    exact ih (htakes.quotas_eq ▸ hproper) hrest
      (htakes.isSatisfied hproper hspace hsmall₁ hsatisfied)

end RoleTally

end Matchmaking
