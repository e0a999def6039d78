import Matchmaking.Proofs.Search

/-!
# What the tickets of a search agree on

An offer is what a ticket or an open session has under each option, as sets of
names. What a search has collected is narrowed by the offer of each ticket that is
collected: the platforms that are played with are those that all play with
(`Platforms.compatible_join`), the names that all share become fewer
(`Collection.mem_shared_applyAll`), and those that are taken become more
(`Collection.mem_claimed_applyAll`).

So the offers of the tickets that a search finds are in accord with the offer of its
pivot and with one another (`Accord`, `Search.run_accord`).
-/

namespace Matchmaking

variable {α : Type}

/-- What is offered under each option. -/
abbrev Offer := String → NameSet

/-! ## Platforms -/

namespace Platforms

/-- A party plays with a platform if it is not particular, or desires it. -/
def PlaysWith (p : Platforms) (x : String) : Prop := ∀ names, p.desired = some names → x ∈ names

theorem accepts_iff {p : Platforms} {current : NameSet} :
    p.accepts current = true ↔ ∀ x ∈ current, p.PlaysWith x := by
  rw [accepts, Option.all_eq_true]
  simp only [NameSet.subset_iff, PlaysWith]
  exact ⟨fun h x hx names hnames => h names hnames x hx,
    fun h names hnames x hx => h x hx names hnames⟩

/-- Parties as one play with what both play with, if they are narrowed. -/
theorem playsWith_join {p q : Platforms} {x : String} :
    (p.join true q).PlaysWith x ↔ p.PlaysWith x ∧ q.PlaysWith x := by
  simp only [PlaysWith, join, if_true]
  cases p.desired <;> cases q.desired <;> simp [narrow]

/-- Two parties get along: each plays with what the other plays on. -/
structure Compatible (p q : Platforms) : Prop where
  left : p.accepts q.current = true
  right : q.accepts p.current = true

theorem Compatible.symm {p q : Platforms} (h : p.Compatible q) : q.Compatible p :=
  ⟨h.right, h.left⟩

/-- Who gets along with two parties as one gets along with both. -/
theorem compatible_join {p q r : Platforms} :
    (p.join true q).Compatible r ↔ p.Compatible r ∧ q.Compatible r := by
  have hleft : (p.join true q).accepts r.current = true ↔
      p.accepts r.current = true ∧ q.accepts r.current = true := by
    simp only [accepts_iff, playsWith_join, forall_and]
  have hright : r.accepts (p.join true q).current = true ↔
      r.accepts p.current = true ∧ r.accepts q.current = true := by
    simp only [accepts_iff, join, NameSet.mem_union, or_imp, forall_and]
  constructor
  · rintro ⟨hl, hr⟩
    exact ⟨⟨(hleft.1 hl).1, (hright.1 hr).1⟩, ⟨(hleft.1 hl).2, (hright.1 hr).2⟩⟩
  · rintro ⟨hp, hq⟩
    exact ⟨hleft.2 ⟨hp.left, hq.left⟩, hright.2 ⟨hp.right, hq.right⟩⟩

end Platforms

/-- A ticket and a ticket, or a session, get along on platforms. -/
def Offer.Compatible (o p : Offer) : Prop := (Platforms.of o).Compatible (.of p)

/-- No name is offered twice under an option. -/
def Offer.Disjoint (k : String) (o p : Offer) : Prop := ∀ x ∈ o k, x ∉ p k

theorem Offer.Disjoint.symm {k : String} {o p : Offer} (h : o.Disjoint k p) : p.Disjoint k o :=
  fun x hx hx' => h x hx' hx

/-! ## Names of options -/

namespace Collection

theorem mem_claimed_apply {narrowing : Bool} {c : Collection} {ch : Change} {k x : String} :
    x ∈ (c.apply narrowing ch).claimed.getD k ∅ ↔
      x ∈ c.claimed.getD k ∅ ∨ ∃ names, ch = .claim k names ∧ x ∈ names := by
  cases ch with
  | platforms p => simp [apply]
  | share name names =>
    simp only [apply]
    split <;> simp
  | claim name names =>
    simp only [apply, Dict.getD, Dict.get?_insert]
    by_cases hk : k = name
    · subst hk
      simp
    · simp [hk, Ne.symm hk]
  | members ticket users blocked => simp [apply]

/-- The names that are taken are those that were and those that changes take. -/
theorem mem_claimed_applyAll {narrowing : Bool} {c : Collection} {changes : List Change}
    {k x : String} :
    x ∈ (c.applyAll narrowing changes).claimed.getD k ∅ ↔
      x ∈ c.claimed.getD k ∅ ∨ ∃ names, Change.claim k names ∈ changes ∧ x ∈ names := by
  induction changes generalizing c with
  | nil => simp [applyAll]
  | cons ch changes ih =>
    rw [applyAll, List.foldl_cons]
    refine ih.trans ?_
    simp only [mem_claimed_apply, or_assoc, List.mem_cons, or_and_right, exists_or, eq_comm]

theorem mem_shared_apply {c : Collection} {ch : Change} {k x : String} :
    x ∈ (c.apply true ch).shared.getD k ∅ ↔
      x ∈ c.shared.getD k ∅ ∧ ∀ names, ch = .share k names → x ∈ names := by
  cases ch with
  | platforms p => simp [apply]
  | share name names =>
    simp only [apply]
    by_cases hk : k = name
    · subst hk
      cases h : c.shared.get? k <;> simp [Dict.getD, h]
    · cases h : c.shared.get? name <;> simp [Dict.getD, hk, Ne.symm hk]
  | claim name names => simp [apply]
  | members ticket users blocked => simp [apply]

/-- The names that are shared, where these are narrowed, are those that were and that
    all changes share. -/
theorem mem_shared_applyAll {c : Collection} {changes : List Change} {k x : String} :
    x ∈ (c.applyAll true changes).shared.getD k ∅ ↔
      x ∈ c.shared.getD k ∅ ∧ ∀ names, Change.share k names ∈ changes → x ∈ names := by
  induction changes generalizing c with
  | nil => simp [applyAll]
  | cons ch changes ih =>
    rw [applyAll, List.foldl_cons]
    refine ih.trans ?_
    simp only [mem_shared_apply, and_assoc, List.mem_cons, or_imp, forall_and, eq_comm]

theorem required_applyAll (narrowing : Bool) (c : Collection) (changes : List Change) :
    (c.applyAll narrowing changes).required = c.required := by
  refine view_applyAll (·.required) (fun ch _ c => ?_) c
  cases ch with
  | share name names =>
    simp only [apply]
    split <;> rfl
  | _ => rfl

end Collection

theorem Dict.mem_getD {d : Dict NameSet} {k x : String} :
    x ∈ d.getD k ∅ ↔ ∃ names, d.get? k = some names ∧ x ∈ names := by
  rw [getD]
  cases d.get? k <;> simp

theorem Dict.get?_foldl_insert {β γ : Type} (name : β → String) (value : String → γ) (xs : List β)
    (d : Dict γ) (k : String) :
    ((xs.map fun x => (name x, value (name x))).foldl (fun d e => d.insert e.1 e.2) d).get? k =
      if k ∈ xs.map name then some (value k) else d.get? k := by
  induction xs generalizing d with
  | nil => rfl
  | cons x xs ih =>
    rw [List.map_cons, List.foldl_cons, ih, List.map_cons, Dict.get?_insert]
    by_cases hk : k = name x
    · subst hk
      simp
    · simp [hk]

namespace Search

variable [Scalar α] {s : Search α} {c : Collection} {t : Ticket α} {o : MatchOption}

/-! ## Collecting a ticket -/

/-- Platforms come first, and what comes after them is about people and options. -/
theorem collect_platforms (h : s.platformsMatter = true) (c : Collection) (t : Ticket α) :
    (s.collect c t).platforms = c.platforms.join s.active.narrowAny (.of t.optionNames) := by
  have hrest : ∀ ch ∈
      s.options.filterMap (optionChange? c t) ++ [.members t.id t.userIds t.blocked],
      ∀ d : Collection, (d.apply s.active.narrowAny ch).platforms = d.platforms := by
    intro ch hch d
    rcases List.mem_append.1 hch with hch | hch
    · obtain ⟨o, _, ho⟩ := List.mem_filterMap.1 hch
      rcases optionChange?_cases ho with ⟨_, rfl⟩ | ⟨_, rfl⟩
      · simp only [Collection.apply]
        split <;> rfl
      · rfl
    · rw [List.mem_singleton.1 hch]
      rfl
  rw [collect, changes, if_pos h, List.append_assoc, List.singleton_append]
  exact Collection.view_applyAll (·.platforms) hrest (c.apply _ (.platforms (.of t.optionNames)))

/-- Under an option that must be shared a ticket narrows what is shared, if anything is. -/
theorem optionChange?_any (hk : o.kind = .any) : optionChange? c t o =
    if (c.shared.getD o.name ∅).isEmpty then none
    else some (.share o.name (t.optionNames o.name)) := by
  cases h : c.shared.get? o.name with
  | none =>
    have hempty : (c.shared.getD o.name ∅).isEmpty = true :=
      NameSet.isEmpty_iff.2 (by simp [Dict.getD, h])
    simp [optionChange?, hk, h, hempty]
  | some ours => simp [optionChange?, hk, h, Dict.getD]

theorem mem_changes_iff {ch : Change} (hplatforms : ∀ p, ch ≠ .platforms p)
    (hmembers : ch.addsMembers = false) :
    ch ∈ s.changes c t ↔ ∃ o ∈ s.options, optionChange? c t o = some ch := by
  have hfirst : ch ∉
      (if s.platformsMatter then [Change.platforms (.of t.optionNames)] else []) := by
    split_ifs
    · exact fun h => hplatforms _ (List.mem_singleton.1 h)
    · exact List.not_mem_nil
  have hlast : ch ≠ .members t.id t.userIds t.blocked := by
    rintro rfl
    cases hmembers
  simp [changes, hfirst, hlast]

/-- A ticket takes the names that it offers under an option that is unique. -/
theorem mem_claimed_collect (ho : o ∈ s.options) (hk : o.kind = .unique) {x : String}
    (hx : x ∈ c.claimed.getD o.name ∅ ∨ x ∈ t.optionNames o.name) :
    x ∈ (s.collect c t).claimed.getD o.name ∅ := by
  rw [collect, Collection.mem_claimed_applyAll]
  refine hx.imp_right fun hx => ⟨_, (mem_changes_iff (by simp) rfl).2 ⟨o, ho, ?_⟩, hx⟩
  simp [optionChange?, hk]

/-- What is shared by a collection with a ticket are the names that were shared and
    that the ticket offers. -/
theorem mem_shared_collect (hn : s.active.narrowAny = true) (ho : o ∈ s.options)
    (hk : o.kind = .any) {x : String} :
    x ∈ (s.collect c t).shared.getD o.name ∅ ↔
      x ∈ c.shared.getD o.name ∅ ∧ x ∈ t.optionNames o.name := by
  rw [collect, hn, Collection.mem_shared_applyAll]
  refine and_congr_right fun hx =>
    ⟨fun h => h _ ((mem_changes_iff (by simp) rfl).2 ⟨o, ho, ?_⟩), ?_⟩
  · -- The ticket changes what is shared, as something is.
    obtain ⟨ours, hget, hx⟩ := Dict.mem_getD.1 hx
    simp [optionChange?, hk, hget, NameSet.isEmpty_eq_false hx]
  · intro hxt names hnames
    obtain ⟨o', _, ho'⟩ := (mem_changes_iff (by simp) rfl).1 hnames
    rcases optionChange?_cases ho' with ⟨_, heq⟩ | ⟨_, heq⟩
    · obtain ⟨hname, rfl⟩ := Change.share.inj heq
      exact hname ▸ hxt
    · cases heq

theorem required_collect (s : Search α) (c : Collection) (t : Ticket α) :
    (s.collect c t).required = c.required := Collection.required_applyAll _ _ _

/-! ## A ticket that fits -/

theorem Fits.compatible (h : s.Fits c t) (hs : s.platformsMatter = true) :
    c.platforms.Compatible (.of t.optionNames) := by
  have := h.platforms
  simp only [acceptsPlatforms, hs, Bool.not_true, Bool.false_or, Bool.and_eq_true] at this
  exact ⟨this.1, this.2⟩

/-- What an option asks of a ticket, by its kind. -/
theorem agrees_iff : agrees c t o = true ↔
    match o.kind with
    | .all => ∀ x ∈ c.required.getD o.name ∅, x ∈ t.optionNames o.name
    | .any => ∀ y ∈ c.shared.getD o.name ∅, ∃ x ∈ c.shared.getD o.name ∅, x ∈ t.optionNames o.name
    | .unique => ∀ x ∈ c.claimed.getD o.name ∅, x ∉ t.optionNames o.name
    | .disable => True := by
  cases hk : o.kind with
  | all => cases h : c.required.get? o.name <;> simp [agrees, hk, h, Dict.getD]
  | any =>
    cases h : c.shared.get? o.name with
    | none => simp [agrees, hk, h, Dict.getD]
    | some ours =>
      simp only [agrees, hk, h, Dict.getD, Option.all_some, Option.getD_some, Bool.or_eq_true,
        NameSet.isEmpty_iff, Bool.not_eq_true', Bool.eq_false_iff, ne_eq, NameSet.disjoint_iff]
      push Not
      constructor
      · rintro (rfl | hshared) y hy
        · exact absurd hy (NameSet.not_mem_empty y)
        · exact hshared
      · intro hshared
        by_cases hours : ours = ∅
        · exact .inl hours
        · obtain ⟨y, hy⟩ := NameSet.ne_empty_iff.1 hours
          exact .inr (hshared y hy)
  | unique => cases h : c.claimed.get? o.name <;> simp [agrees, hk, h, Dict.getD]
  | disable => simp [agrees, hk]

theorem Fits.not_claimed (h : s.Fits c t) (ho : o ∈ s.options) (hk : o.kind = .unique) {x : String}
    (hx : x ∈ c.claimed.getD o.name ∅) : x ∉ t.optionNames o.name := by
  have hagrees := agrees_iff.1 (h.options o ho)
  rw [hk] at hagrees
  exact hagrees x hx

theorem Fits.exists_shared (h : s.Fits c t) (ho : o ∈ s.options) (hk : o.kind = .any) {y : String}
    (hy : y ∈ c.shared.getD o.name ∅) : ∃ x ∈ c.shared.getD o.name ∅, x ∈ t.optionNames o.name := by
  have hagrees := agrees_iff.1 (h.options o ho)
  rw [hk] at hagrees
  exact hagrees y hy

theorem Fits.required (h : s.Fits c t) (ho : o ∈ s.options) (hk : o.kind = .all) {x : String}
    (hx : x ∈ c.required.getD o.name ∅) : x ∈ t.optionNames o.name := by
  have hagrees := agrees_iff.1 (h.options o ho)
  rw [hk] at hagrees
  exact hagrees x hx

/-- All tickets that are accepted share a name that the collection shares. -/
theorem accept_share (hn : s.active.narrowAny = true) (ho : o ∈ s.options) (hk : o.kind = .any)
    (c : Collection) (ts : List (Ticket α)) {y : String} (hy : y ∈ c.shared.getD o.name ∅) :
    ∃ x ∈ c.shared.getD o.name ∅,
      ∀ t ∈ (s.accept c ts).1.map (·.ticket), x ∈ t.optionNames o.name := by
  induction ts generalizing c y with
  | nil => exact ⟨y, hy, List.forall_mem_nil _⟩
  | cons t ts ih =>
    rw [accept]
    split
    · exact ih c hy
    · rename_i found hfound
      -- A name that the collection shares with `t` is shared by it with `t` in it.
      obtain ⟨z, hz, hzt⟩ := (evaluate_eq_ok_iff.1 hfound).1.exists_shared ho hk hy
      obtain ⟨x, hx, hlater⟩ := ih (s.collect c t) ((mem_shared_collect hn ho hk).2 ⟨hz, hzt⟩)
      obtain ⟨hx, hxt⟩ := (mem_shared_collect hn ho hk).1 hx
      rw [List.map_cons, ticket_of_evaluate hfound]
      exact ⟨x, hx, List.forall_mem_cons.2 ⟨hxt, hlater⟩⟩

/-! ## The whole search -/

omit [Scalar α] in
theorem exists_option {k : String} {kind : OptionKind} (hk : k ≠ Key.crossPlatform)
    (h : s.active.optionKind? k = some kind) : ∃ o ∈ s.options, o.name = k ∧ o.kind = kind := by
  obtain ⟨o, ho, hkind⟩ := Option.map_eq_some_iff.1 h
  have hname : o.name = k := by simpa using List.find?_some ho
  have hmem : o ∈ s.options :=
    List.mem_filter.2 ⟨List.mem_of_find?_eq_some ho, by simpa [hname] using hk⟩
  exact ⟨o, hmem, hname, hkind⟩

/-- Under an option of a kind the pivot offers what it offers. -/
theorem getD_offered (ho : o ∈ s.options) {kind : OptionKind} (hk : o.kind = kind) :
    (s.offered kind).getD o.name ∅ = s.pivot.optionNames o.name := by
  have hmem : o.name ∈ (s.options.filter fun o => o.kind = kind).map (·.name) :=
    List.mem_map_of_mem (List.mem_filter.2 ⟨ho, by simpa using hk⟩)
  rw [Dict.getD, offered, Dict.ofList, Dict.get?_foldl_insert, if_pos hmem]
  rfl

end Search

/-- Offers are in accord with an offer that they were found for and with one another:
    on platforms and under each option, as its kind has it. -/
structure Accord (kind? : String → Option OptionKind) (narrowing : Bool) (o : Offer)
    (os : List Offer) : Prop where
  platforms : kind? Key.crossPlatform = some .any → narrowing = true →
    (o :: os).Pairwise Offer.Compatible
  unique : ∀ {k : String}, k ≠ Key.crossPlatform → kind? k = some .unique →
    (o :: os).Pairwise (Offer.Disjoint k)
  any : ∀ {k y : String}, k ≠ Key.crossPlatform → kind? k = some .any → narrowing = true → y ∈ o k →
    ∃ x ∈ o k, ∀ p ∈ os, x ∈ p k
  all : ∀ {k x : String}, k ≠ Key.crossPlatform → kind? k = some .all → x ∈ o k →
    ∀ p ∈ os, x ∈ p k

/-- Some of the offers, in any order, are in accord as well. -/
theorem Accord.subperm {kind? : String → Option OptionKind} {narrowing : Bool} {o : Offer}
    {os ps : List Offer} (h : Accord kind? narrowing o os) (hps : ps.Subperm os) :
    Accord kind? narrowing o ps where
  platforms := fun hkind hn => by
    obtain ⟨l, hperm, hsub⟩ := hps
    exact ((hperm.cons o).pairwise_iff Platforms.Compatible.symm).1
      ((h.platforms hkind hn).sublist (hsub.cons_cons o))
  unique := fun hk hkind => by
    obtain ⟨l, hperm, hsub⟩ := hps
    exact ((hperm.cons o).pairwise_iff Offer.Disjoint.symm).1
      ((h.unique hk hkind).sublist (hsub.cons_cons o))
  any := fun hk hkind hn hy => by
    obtain ⟨x, hx, hall⟩ := h.any hk hkind hn hy
    exact ⟨x, hx, fun p hp => hall p (hps.subset hp)⟩
  all := fun hk hkind hx p hp => h.all hk hkind hx p (hps.subset hp)

namespace Search

variable [Scalar α]

/-- The tickets that a search finds are in accord with its pivot. -/
theorem run_accord (s : Search α) (ts : List (Ticket α)) :
    Accord s.active.optionKind? s.active.narrowAny s.pivot.optionNames
      (((s.run ts).map (·.ticket)).map (·.optionNames)) := by
  refine Accord.subperm ?_ ((s.run_perm_accept ts).map _).subperm
  constructor
  · intro hkind hn
    have hs : s.platformsMatter = true := by simpa [platformsMatter] using hkind
    obtain ⟨hpivot, hpairs⟩ := accept_pairwise
      (P := fun c t => c.platforms.Compatible (.of t.optionNames))
      (R := fun t u => Offer.Compatible t.optionNames u.optionNames)
      (fun c t h => h.compatible hs)
      (fun c t u h => Platforms.compatible_join.1 (hn ▸ collect_platforms hs c t ▸ h)) s.start ts
    rw [List.pairwise_cons, List.forall_mem_map, List.pairwise_map]
    refine ⟨fun t ht => ?_, hpairs⟩
    have := hpivot t ht
    simp only [start, hs, if_true] at this
    exact this
  · intro k hk hkind
    obtain ⟨o, ho, rfl, hok⟩ := exists_option hk hkind
    obtain ⟨hpivot, hpairs⟩ := accept_pairwise
      (P := fun c t => ∀ x ∈ c.claimed.getD o.name ∅, x ∉ t.optionNames o.name)
      (R := fun t u => Offer.Disjoint o.name t.optionNames u.optionNames)
      (fun c t h x hx => h.not_claimed ho hok hx)
      (fun c t u h => ⟨fun x hx => h x (mem_claimed_collect ho hok (.inl hx)),
        fun x hx => h x (mem_claimed_collect ho hok (.inr hx))⟩) s.start ts
    rw [List.pairwise_cons, List.forall_mem_map, List.pairwise_map]
    refine ⟨fun t ht x hx => hpivot t ht x ?_, hpairs⟩
    exact (getD_offered ho hok).symm ▸ hx
  · intro k y hk hkind hn hy
    obtain ⟨o, ho, rfl, hok⟩ := exists_option hk hkind
    have hstart : s.start.shared.getD o.name ∅ = s.pivot.optionNames o.name := getD_offered ho hok
    obtain ⟨x, hx, hall⟩ := accept_share hn ho hok s.start ts (hstart.symm ▸ hy)
    exact ⟨x, hstart ▸ hx, List.forall_mem_map.2 hall⟩
  · intro k x hk hkind hx
    obtain ⟨o, ho, rfl, hok⟩ := exists_option hk hkind
    obtain ⟨hpivot, _⟩ := accept_pairwise
      (P := fun c t => ∀ x ∈ c.required.getD o.name ∅, x ∈ t.optionNames o.name)
      (R := fun _ _ => True) (fun c t h x hx => h.required ho hok hx)
      (fun c t u h => ⟨s.required_collect c t ▸ h, trivial⟩) s.start ts
    refine List.forall_mem_map.2 fun t ht => hpivot t ht x ?_
    exact (getD_offered ho hok).symm ▸ hx

end Search

end Matchmaking
