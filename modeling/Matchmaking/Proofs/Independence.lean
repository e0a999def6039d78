import Matchmaking.Proofs.Accord

/-!
# Tickets that do not get into each other's way

What a search accepts depends on what it accepted before. A ticket that fits after
another one fits without it (`Search.Shares.of_collect`). Two tickets are independent if
neither keeps the other out, whatever was collected before (`RuleSet.Independent`): a
ticket that fits without an independent one fits after it (`Search.Fits.collect`).

What changes a collection may come in any order (`Collection.applyAll_perm`), and what a
ticket changes is not changed by another one (`Search.changes_collect`). So two tickets
that fit are collected in any order (`Search.collect_right_comm`).
-/

namespace Matchmaking

variable {α : Type}

/-! ## Changes in any order -/

theorem NameSet.insert_right_comm (s : NameSet) (x y : String) :
    (s.insert x).insert y = (s.insert y).insert x :=
  ext fun z => by simp only [mem_insert, or_left_comm]

theorem NameSet.union_right_comm (s t u : NameSet) :
    (s.union t).union u = (s.union u).union t :=
  ext fun x => by simp only [mem_union, or_right_comm]

theorem NameSet.inter_right_comm (s t u : NameSet) :
    (s.inter t).inter u = (s.inter u).inter t :=
  ext fun x => by simp only [mem_inter, and_right_comm]

theorem Platforms.narrow_right_comm (p q r : Option NameSet) :
    narrow (narrow p q) r = narrow (narrow p r) q := by
  cases p with
  | none =>
    cases q <;> cases r <;> simp only [narrow]
    exact congrArg some (NameSet.ext fun x => by simp only [NameSet.mem_inter, and_comm])
  | some p => cases q <;> cases r <;> simp only [narrow, NameSet.inter_right_comm]

theorem Platforms.join_right_comm (narrowing : Bool) (p q r : Platforms) :
    (p.join narrowing q).join narrowing r = (p.join narrowing r).join narrowing q := by
  cases narrowing
  · simp only [join, Bool.false_eq_true, if_false, NameSet.union_right_comm p.current q.current]
  · simp only [join, if_true, narrow_right_comm p.desired q.desired,
      NameSet.union_right_comm p.current q.current]

namespace Collection

/-- The shared names of options, narrowed under one of them if they are. -/
def shareAt (narrowing : Bool) (name : String) (names : NameSet) (shared : Dict NameSet) :
    Dict NameSet :=
  match narrowing, shared.get? name with
  | true, some ours => shared.insert name (ours.inter names)
  | _, _ => shared

/-- The taken names of options, with further ones under one of them. -/
def claimAt (name : String) (names : NameSet) (claimed : Dict NameSet) : Dict NameSet :=
  claimed.insert name ((claimed.getD name ∅).union names)

theorem get?_shareAt (narrowing : Bool) (name : String) (names : NameSet) (d : Dict NameSet)
    (k : String) : (shareAt narrowing name names d).get? k =
      if narrowing = true ∧ k = name then (d.get? k).map (·.inter names) else d.get? k := by
  cases narrowing with
  | false => simp [shareAt]
  | true =>
    by_cases hk : k = name
    · subst hk
      cases h : d.get? k <;> simp [shareAt, h]
    · cases h : d.get? name <;> simp [shareAt, h, hk]

theorem get?_claimAt (name : String) (names : NameSet) (d : Dict NameSet) (k : String) :
    (claimAt name names d).get? k =
      if k = name then some ((d.getD k ∅).union names) else d.get? k := by
  by_cases hk : k = name
  · subst hk
    simp [claimAt]
  · simp [claimAt, hk]

theorem shareAt_right_comm (narrowing : Bool) (name name' : String) (names names' : NameSet)
    (d : Dict NameSet) : shareAt narrowing name' names' (shareAt narrowing name names d) =
      shareAt narrowing name names (shareAt narrowing name' names' d) := by
  refine Dict.ext fun k => ?_
  simp only [get?_shareAt]
  split_ifs <;> simp [Function.comp_def, NameSet.inter_right_comm _ names']

theorem claimAt_right_comm (name name' : String) (names names' : NameSet) (d : Dict NameSet) :
    claimAt name' names' (claimAt name names d) = claimAt name names (claimAt name' names' d) := by
  refine Dict.ext fun k => ?_
  simp only [get?_claimAt, Dict.getD]
  split_ifs <;> simp [NameSet.union_right_comm _ names']

theorem apply_share (narrowing : Bool) (c : Collection) (name : String) (names : NameSet) :
    c.apply narrowing (.share name names) =
      { c with shared := shareAt narrowing name names c.shared } := by
  cases narrowing with
  | false => rfl
  | true => cases h : c.shared.get? name <;> simp only [apply, shareAt, h]

/-- It is no matter which of two changes comes first. -/
theorem apply_right_comm (narrowing : Bool) (c : Collection) (a b : Change) :
    (c.apply narrowing a).apply narrowing b = (c.apply narrowing b).apply narrowing a := by
  -- Changes of two kinds are about different parts of a collection.
  cases a with
  | platforms p =>
    cases b with
    | platforms q =>
      simp only [apply]
      rw [Platforms.join_right_comm]
    | share name names =>
      simp only [apply_share]
      rfl
    | _ => rfl
  | share name names =>
    cases b with
    | share name' names' =>
      simp only [apply_share]
      rw [shareAt_right_comm]
    | _ =>
      simp only [apply_share]
      rfl
  | claim name names =>
    cases b with
    | claim name' names' =>
      exact congrArg (fun d => { c with claimed := d }) (claimAt_right_comm name name' names names' _)
    | share name' names' =>
      simp only [apply_share]
      rfl
    | _ => rfl
  | members ticket users blocked =>
    cases b with
    | members ticket' users' blocked' =>
      simp only [apply]
      rw [NameSet.insert_right_comm, NameSet.union_right_comm c.users,
        NameSet.union_right_comm c.blocked]
    | share name' names' =>
      simp only [apply_share]
      rfl
    | _ => rfl

theorem applyAll_perm {narrowing : Bool} {changes changes' : List Change}
    (h : changes.Perm changes') (c : Collection) :
    c.applyAll narrowing changes = c.applyAll narrowing changes' :=
  @List.Perm.foldl_eq _ _ _ _ _ ⟨apply_right_comm narrowing⟩ h c

theorem applyAll_append (narrowing : Bool) (c : Collection) (changes changes' : List Change) :
    c.applyAll narrowing (changes ++ changes') =
      (c.applyAll narrowing changes).applyAll narrowing changes' :=
  List.foldl_append

theorem overlaps_eq_false_iff {c : Collection} {t : Ticket α} :
    c.overlaps t = false ↔
      t.id ∉ c.tickets ∧ t.partyId ∉ c.parties ∧ ∀ x ∈ t.userIds, x ∉ c.users := by
  rw [← Bool.not_eq_true]
  simp only [overlaps, Bool.or_eq_true, NameSet.contains_iff, List.any_eq_true, not_or, and_assoc]
  simp [Ticket.userIds]

end Collection

theorem Platforms.Compatible.of_join {narrowing : Bool} {p q r : Platforms}
    (h : (p.join narrowing q).Compatible r) : p.Compatible r := by
  cases narrowing with
  | true => exact (compatible_join.1 h).1
  | false =>
    refine ⟨h.left, accepts_iff.2 fun x hx => accepts_iff.1 h.right x ?_⟩
    exact NameSet.mem_union.2 (.inl hx)

theorem Platforms.Compatible.join {narrowing : Bool} {p q r : Platforms} (hp : p.Compatible r)
    (hq : q.Compatible r) : (p.join narrowing q).Compatible r := by
  cases narrowing with
  | true => exact compatible_join.2 ⟨hp, hq⟩
  | false =>
    refine ⟨hp.left, accepts_iff.2 fun x hx => ?_⟩
    exact (NameSet.mem_union.1 hx).elim (accepts_iff.1 hp.right x) (accepts_iff.1 hq.right x)

/-! ## Independent tickets -/

/-- Neither of two tickets keeps the other out of a session, as far as the rules go:
    they have nobody in common, play with each other's platforms, take no name of an
    option twice, share with others what the other one shares with them, and block none
    of each other's players. -/
structure RuleSet.Independent [Scalar α] (r : RuleSet α) (t u : Ticket α) : Prop where
  id : t.id ≠ u.id
  apart : t.Apart u
  platforms : r.optionKind? Key.crossPlatform = some .any →
    Offer.Compatible t.optionNames u.optionNames
  unique : ∀ o ∈ r.options, o.name ≠ Key.crossPlatform → o.kind = .unique →
    Offer.Disjoint o.name t.optionNames u.optionNames
  any : r.narrowAny = true → ∀ o ∈ r.options, o.name ≠ Key.crossPlatform → o.kind = .any →
    (∀ x ∈ t.optionNames o.name, x ∈ u.optionNames o.name) ∨
      ∀ x ∈ u.optionNames o.name, x ∈ t.optionNames o.name
  blocked : r.blockPolicy = .cannotMatch →
    (∀ x ∈ t.blocked, x ∉ u.userIds) ∧ ∀ x ∈ u.blocked, x ∉ t.userIds

theorem RuleSet.Independent.symm [Scalar α] {r : RuleSet α} {t u : Ticket α}
    (h : r.Independent t u) : r.Independent u t where
  id := h.id.symm
  apart := h.apart.symm
  platforms := fun hkind => (h.platforms hkind).symm
  unique := fun o ho hname hkind => (h.unique o ho hname hkind).symm
  any := fun hn o ho hname hkind => (h.any hn o ho hname hkind).symm
  blocked := fun hpolicy => (h.blocked hpolicy).symm

/-- Whether tickets are independent can be computed. -/
instance [Scalar α] (r : RuleSet α) (t u : Ticket α) : Decidable (r.Independent t u) :=
  decidable_of_iff
    (t.id ≠ u.id ∧ t.userIds.disjoint u.userIds = true ∧
      (r.optionKind? Key.crossPlatform = some .any →
        (Platforms.of t.optionNames).accepts (Platforms.of u.optionNames).current = true ∧
          (Platforms.of u.optionNames).accepts (Platforms.of t.optionNames).current = true) ∧
      (∀ o ∈ r.options, o.name ≠ Key.crossPlatform → o.kind = .unique →
        (t.optionNames o.name).disjoint (u.optionNames o.name) = true) ∧
      (r.narrowAny = true → ∀ o ∈ r.options, o.name ≠ Key.crossPlatform → o.kind = .any →
        (t.optionNames o.name).subset (u.optionNames o.name) = true ∨
          (u.optionNames o.name).subset (t.optionNames o.name) = true) ∧
      (r.blockPolicy = .cannotMatch →
        t.blocked.disjoint u.userIds = true ∧ u.blocked.disjoint t.userIds = true))
    (by
      simp only [NameSet.disjoint_iff, NameSet.subset_iff]
      constructor
      · rintro ⟨hid, hapart, hplatforms, hunique, hany, hblocked⟩
        exact ⟨hid, hapart, fun hkind => ⟨(hplatforms hkind).1, (hplatforms hkind).2⟩, hunique,
          hany, hblocked⟩
      · rintro ⟨hid, hapart, hplatforms, hunique, hany, hblocked⟩
        exact ⟨hid, hapart, fun hkind => ⟨(hplatforms hkind).left, (hplatforms hkind).right⟩,
          hunique, hany, hblocked⟩)

namespace Search

variable [Scalar α] {s : Search α} {c : Collection} {t u : Ticket α} {o : MatchOption}

/-! ## What a collection asks of a ticket -/

theorem acceptsPlatforms_iff : s.acceptsPlatforms c t = true ↔
    (s.platformsMatter = true → c.platforms.Compatible (.of t.optionNames)) := by
  cases h : s.platformsMatter with
  | false => simp [acceptsPlatforms, h]
  | true =>
    simp only [acceptsPlatforms, h, Bool.not_true, Bool.false_or, Bool.and_eq_true, forall_const]
    exact ⟨fun h => ⟨h.1, h.2⟩, fun h => ⟨h.left, h.right⟩⟩

theorem acceptsUsers_iff : s.acceptsUsers c t = true ↔
    (s.active.blockPolicy = .cannotMatch →
      (∀ x ∈ t.blocked, x ∉ c.users) ∧ ∀ x ∈ c.blocked, x ∉ t.userIds) := by
  simp [acceptsUsers, imp_iff_not_or]

omit [Scalar α] in
theorem name_ne_of_mem_options (ho : o ∈ s.options) :
    o ∈ s.active.options ∧ o.name ≠ Key.crossPlatform := by
  obtain ⟨hmem, hname⟩ := List.mem_filter.1 ho
  exact ⟨hmem, by simpa using hname⟩

/-- What is taken once a ticket is collected was taken before or is offered by it. -/
theorem mem_claimed_collect_iff (ho : o ∈ s.options) (hk : o.kind = .unique) {x : String} :
    x ∈ (s.collect c t).claimed.getD o.name ∅ ↔
      x ∈ c.claimed.getD o.name ∅ ∨ x ∈ t.optionNames o.name := by
  refine ⟨fun h => ?_, mem_claimed_collect ho hk⟩
  rw [collect, Collection.mem_claimed_applyAll] at h
  refine h.imp_right fun hchange => ?_
  obtain ⟨names, hnames, hx⟩ := hchange
  obtain ⟨o', _, ho'⟩ := (mem_changes_iff (by simp) rfl).1 hnames
  rcases optionChange?_cases ho' with ⟨_, heq⟩ | ⟨_, heq⟩
  · cases heq
  · obtain ⟨hname, rfl⟩ := Change.claim.inj heq
    exact hname ▸ hx

/-- Nothing is narrowed where the rules do not narrow. -/
theorem shared_collect (hn : s.active.narrowAny = false) (c : Collection) (t : Ticket α) :
    (s.collect c t).shared = c.shared := by
  rw [collect, hn]
  refine Collection.view_applyAll (·.shared) (fun ch _ c => ?_) c
  cases ch <;> rfl

/-- A ticket shares something of all that is shared under an option. -/
def Shares (s : Search α) (c : Collection) (t : Ticket α) : Prop :=
  ∀ o ∈ s.options, o.kind = .any →
    ∀ y ∈ c.shared.getD o.name ∅, ∃ x ∈ c.shared.getD o.name ∅, x ∈ t.optionNames o.name

theorem Fits.shares (h : s.Fits c t) : s.Shares c t := fun _ ho hk _ hy => h.exists_shared ho hk hy

/-- Something is shared under an option once a ticket is collected that shares something
    of it, if something was shared before. -/
theorem Shares.exists_shared_collect (h : s.Shares c t) (ho : o ∈ s.options) (hk : o.kind = .any) :
    (∃ x, x ∈ (s.collect c t).shared.getD o.name ∅) ↔ ∃ x, x ∈ c.shared.getD o.name ∅ := by
  cases hn : s.active.narrowAny with
  | false => rw [shared_collect hn]
  | true =>
    simp only [mem_shared_collect hn ho hk]
    refine ⟨fun ⟨x, hx, _⟩ => ⟨x, hx⟩, fun ⟨y, hy⟩ => ?_⟩
    exact h o ho hk y hy

/-- A ticket shares something after another one if that one does after it. -/
theorem Shares.collect (ht : s.Shares c t) (h : s.Shares (s.collect c t) u) :
    s.Shares (s.collect c u) t := by
  intro o ho hk y hy
  cases hn : s.active.narrowAny with
  | false =>
    rw [shared_collect hn] at hy ⊢
    exact ht o ho hk y hy
  | true =>
    simp only [mem_shared_collect hn ho hk] at hy ⊢
    obtain ⟨z, hz, hzt⟩ := ht o ho hk y hy.1
    obtain ⟨x, hx, hxu⟩ := h o ho hk z ((mem_shared_collect hn ho hk).2 ⟨hz, hzt⟩)
    obtain ⟨hx, hxt⟩ := (mem_shared_collect hn ho hk).1 hx
    exact ⟨x, ⟨hx, hxu⟩, hxt⟩

/-! ## One ticket after another -/

/-- What fits after a ticket would have fitted without it. -/
theorem Shares.of_collect (ht : s.Shares c t) (h : s.Fits (s.collect c t) u) : s.Fits c u where
  fresh := by
    have hfresh := Collection.overlaps_eq_false_iff.1 h.fresh
    obtain ⟨htickets, hparties, husers, _⟩ := s.collect_people c t
    rw [htickets, hparties, husers] at hfresh
    simp only [NameSet.mem_insert, NameSet.mem_union, not_or] at hfresh
    exact Collection.overlaps_eq_false_iff.2
      ⟨hfresh.1.2, hfresh.2.1, fun x hx => (hfresh.2.2 x hx).1⟩
  session := h.session
  mode := h.mode
  near := h.near
  platforms := acceptsPlatforms_iff.2 fun hs => by
    have := h.compatible hs
    rw [collect_platforms hs] at this
    exact this.of_join
  options := fun o ho => by
    rw [agrees_iff]
    cases hk : o.kind with
    | all => exact fun x hx => h.required ho hk (s.required_collect c t ▸ hx)
    | any =>
      intro y hy
      obtain ⟨z, hz⟩ := (ht.exists_shared_collect ho hk).2 ⟨y, hy⟩
      obtain ⟨x, hx, hxu⟩ := h.exists_shared ho hk hz
      refine ⟨x, ?_, hxu⟩
      cases hn : s.active.narrowAny with
      | false => rwa [shared_collect hn] at hx
      | true => exact ((mem_shared_collect hn ho hk).1 hx).1
    | unique => exact fun x hx => h.not_claimed ho hk (mem_claimed_collect ho hk (.inl hx))
    | disable => trivial
  attributes := h.attributes
  users := acceptsUsers_iff.2 fun hpolicy => by
    obtain ⟨hblocked, hblocks⟩ := acceptsUsers_iff.1 h.users hpolicy
    obtain ⟨_, _, husers, hc⟩ := s.collect_people c t
    rw [husers] at hblocked
    rw [hc] at hblocks
    simp only [NameSet.mem_union, not_or] at hblocked hblocks
    exact ⟨fun x hx => (hblocked x hx).1, fun x hx => hblocks x (.inl hx)⟩
  region := h.region
  criteria := h.criteria

/-- What fits without an independent ticket fits after it. -/
theorem Fits.collect (ht : s.Fits c t) (h : s.Fits c u) (htu : s.active.Independent t u) :
    s.Fits (s.collect c t) u where
  fresh := by
    obtain ⟨hid, hparty, husers⟩ := Collection.overlaps_eq_false_iff.1 h.fresh
    obtain ⟨htickets', hparties', husers', _⟩ := s.collect_people c t
    rw [Collection.overlaps_eq_false_iff, htickets', hparties', husers']
    simp only [NameSet.mem_insert, NameSet.mem_union, not_or]
    exact ⟨⟨htu.id.symm, hid⟩, hparty, fun x hx => ⟨husers x hx, htu.apart.symm x hx⟩⟩
  session := h.session
  mode := h.mode
  near := h.near
  platforms := acceptsPlatforms_iff.2 fun hs => by
    rw [collect_platforms hs]
    exact (h.compatible hs).join (htu.platforms (of_decide_eq_true hs))
  options := fun o ho => by
    obtain ⟨hmem, hname⟩ := name_ne_of_mem_options ho
    rw [agrees_iff]
    cases hk : o.kind with
    | all =>
      rw [required_collect]
      exact fun x hx => h.required ho hk hx
    | any =>
      cases hn : s.active.narrowAny with
      | false =>
        rw [shared_collect hn]
        exact fun y hy => h.exists_shared ho hk hy
      | true =>
        simp only [mem_shared_collect hn ho hk]
        rintro y ⟨hy, _⟩
        -- One of the tickets shares with others what the other one does.
        rcases htu.any hn o hmem hname hk with hsub | hsub
        · obtain ⟨x, hx, hxt⟩ := ht.exists_shared ho hk hy
          exact ⟨x, ⟨hx, hxt⟩, hsub x hxt⟩
        · obtain ⟨x, hx, hxu⟩ := h.exists_shared ho hk hy
          exact ⟨x, ⟨hx, hsub x hxu⟩, hxu⟩
    | unique =>
      simp only [mem_claimed_collect_iff ho hk]
      rintro x (hx | hx)
      · exact h.not_claimed ho hk hx
      · exact htu.unique o hmem hname hk x hx
    | disable => trivial
  attributes := h.attributes
  users := acceptsUsers_iff.2 fun hpolicy => by
    obtain ⟨hblocked, hblocks⟩ := acceptsUsers_iff.1 h.users hpolicy
    obtain ⟨htblocked, hublocked⟩ := htu.blocked hpolicy
    obtain ⟨_, _, husers, hc⟩ := s.collect_people c t
    rw [husers, hc]
    simp only [NameSet.mem_union, not_or]
    exact ⟨fun x hx => ⟨hblocked x hx, hublocked x hx⟩, fun x hx => hx.elim (hblocks x) (htblocked x)⟩
  region := h.region
  criteria := h.criteria

/-- What a ticket changes is not changed by another one. -/
theorem changes_collect (ht : s.Shares c t) (u : Ticket α) :
    s.changes (s.collect c t) u = s.changes c u := by
  have hoptions : s.options.filterMap (optionChange? (s.collect c t) u) =
      s.options.filterMap (optionChange? c u) := by
    refine List.filterMap_congr fun o ho => ?_
    cases hk : o.kind with
    | any =>
      have hempty : ((s.collect c t).shared.getD o.name ∅).isEmpty =
          (c.shared.getD o.name ∅).isEmpty := by
        rw [Bool.eq_iff_iff, NameSet.isEmpty_iff, NameSet.isEmpty_iff, ← not_iff_not, ← ne_eq,
          ← ne_eq, NameSet.ne_empty_iff, NameSet.ne_empty_iff]
        exact ht.exists_shared_collect ho hk
      rw [optionChange?_any hk, optionChange?_any hk, hempty]
    | _ => simp only [optionChange?, hk]
  rw [changes, changes, hoptions]

/-- Tickets that share something may be collected in any order. -/
theorem collect_right_comm (ht : s.Shares c t) (hu : s.Shares c u) :
    s.collect (s.collect c t) u = s.collect (s.collect c u) t := by
  have htu : s.collect (s.collect c t) u =
      c.applyAll s.active.narrowAny (s.changes c t ++ s.changes c u) := by
    rw [collect, changes_collect ht, collect, Collection.applyAll_append]
  have hut : s.collect (s.collect c u) t =
      c.applyAll s.active.narrowAny (s.changes c u ++ s.changes c t) := by
    rw [collect, changes_collect hu, collect, Collection.applyAll_append]
  rw [htu, hut, Collection.applyAll_perm List.perm_append_comm]

end Search

end Matchmaking
