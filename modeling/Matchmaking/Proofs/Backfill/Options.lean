import Matchmaking.Proofs.Backfill.Life

/-!
# Options over the life of a session

The attributes of a session say what its tickets agree on, from its founding on and
through all tickets that join it. Under an option that is unique they have what each
ticket has to itself. Under an option that is to be shared, if its founder offers
something there, they have what all tickets share, and that is never nothing: so
values are narrowed and the merge never has to fall back on those of one party.

This takes queues whose tickets have ids of their own. Tickets are known by their ids,
and where two have the same one, another ticket may join than the one that was found.
-/

namespace Matchmaking

variable {α : Type} [Scalar α]

namespace RuleSet

/-- An option of which parties agree as its kind has it: it is not about platforms or
    blocked players. -/
def IsPlain (k : String) : Prop :=
  k ∉ [Key.crossPlatform, Key.currentPlatform, Key.blockedPlayers]

instance (k : String) : Decidable (IsPlain k) := inferInstanceAs (Decidable (k ∉ _))

variable {r : RuleSet α} {k : String}

theorem IsPlain.ne_crossPlatform (hk : IsPlain k) : k ≠ Key.crossPlatform := by
  rintro rfl
  exact hk List.mem_cons_self

theorem IsPlain.ne_blockedPlayers (hk : IsPlain k) : k ≠ Key.blockedPlayers := by
  rintro rfl
  simp [IsPlain] at hk

omit [Scalar α] in
theorem mem_liftedKeys {kind : OptionKind} (h : r.optionKind? k = some kind) :
    k ∈ r.liftedKeys := by
  obtain ⟨o, ho, _⟩ := Option.map_eq_some_iff.1 h
  have hname : o.name = k := by simpa using List.find?_some ho
  exact List.mem_append_left _ (List.mem_map.2 ⟨o, List.mem_of_find?_eq_some ho, hname⟩)

omit [Scalar α] in
theorem mergeMode_of_unique (hk : IsPlain k) (h : r.optionKind? k = some .unique) :
    r.mergeMode k = .union := by
  simp only [IsPlain, List.mem_cons, List.not_mem_nil, or_false, not_or] at hk
  rw [mergeMode, if_neg hk.1, if_neg (not_or.2 hk.2), h]

omit [Scalar α] in
theorem mergeMode_of_shared (hk : IsPlain k)
    (h : r.optionKind? k = some .any ∨ r.optionKind? k = some .all) :
    r.mergeMode k = .intersect := by
  simp only [IsPlain, List.mem_cons, List.not_mem_nil, or_false, not_or] at hk
  rw [mergeMode, if_neg hk.1, if_neg (not_or.2 hk.2)]
  rcases h with h | h <;> rw [h]

end RuleSet

namespace RuleSet.Gathers

variable [Scalar.Visible α] {r : RuleSet α} {pivot : Ticket α} {a : Attributes α}
  {ts : List (Ticket α)} {k : String}

/-- What is recorded under an option that is unique is what some ticket offers. -/
theorem mem_names_of_unique (h : r.Gathers pivot a ts) (hk : IsPlain k)
    (hkind : r.optionKind? k = some .unique) {x : String} :
    x ∈ a.names k ↔ ∃ t ∈ ts, x ∈ t.optionNames k :=
  h.records.mem_names_of_union (mem_liftedKeys hkind) hk.ne_blockedPlayers
    (mergeMode_of_unique hk hkind)

/-- So a ticket that has nothing of what is recorded has nothing of any ticket. -/
theorem pairwise_disjoint (h : r.Gathers pivot a ts) (hk : IsPlain k)
    (hkind : r.optionKind? k = some .unique) :
    ts.Pairwise fun t u => Offer.Disjoint k t.optionNames u.optionNames := by
  induction h with
  | founded _ haccord => exact List.pairwise_map.1 (haccord.unique hk.ne_crossPlatform hkind)
  | joined h _ haccord ih =>
    obtain ⟨hnew, hpairs⟩ := List.pairwise_cons.1 (haccord.unique hk.ne_crossPlatform hkind)
    refine List.pairwise_append.2 ⟨ih, List.pairwise_map.1 hpairs, fun t ht u hu x hx => ?_⟩
    exact hnew _ (List.mem_map_of_mem hu) x ((h.mem_names_of_unique hk hkind).2 ⟨t, ht, hx⟩)

/-- What is recorded under an option that is to be shared is what all tickets offer,
    if they share something. -/
theorem mem_names_of_shared (h : r.Gathers pivot a ts) (hk : IsPlain k)
    (hkind : r.optionKind? k = some .any ∨ r.optionKind? k = some .all)
    (hshared : ∃ y, ∀ t ∈ ts, y ∈ t.optionNames k) {x : String} :
    x ∈ a.names k ↔ ∀ t ∈ ts, x ∈ t.optionNames k := by
  have hlifted : k ∈ r.liftedKeys := hkind.elim mem_liftedKeys mem_liftedKeys
  exact h.records.mem_names_of_intersect hlifted hk.ne_blockedPlayers (mergeMode_of_shared hk hkind)
    hshared

/-- Under an option of which a name is to be shared, all tickets share one. -/
theorem exists_shared (h : r.Gathers pivot a ts) (hn : r.narrowAny = true) (hk : IsPlain k)
    (hkind : r.optionKind? k = some .any) (hpivot : ∃ y, y ∈ pivot.optionNames k) :
    ∃ x, ∀ t ∈ ts, x ∈ t.optionNames k := by
  induction h with
  | founded _ haccord =>
    obtain ⟨y, hy⟩ := hpivot
    obtain ⟨x, hx, hothers⟩ := haccord.any hk.ne_crossPlatform hkind hn hy
    exact ⟨x, List.forall_mem_cons.2 ⟨hx, fun u hu => hothers _ (List.mem_map_of_mem hu)⟩⟩
  | joined h _ haccord ih =>
    -- What the tickets share is recorded, and those that join share some of that.
    obtain ⟨y, hy⟩ := ih
    have hrecorded {x : String} := h.mem_names_of_shared (x := x) hk (.inl hkind) ⟨y, hy⟩
    obtain ⟨x, hx, hjoined⟩ := haccord.any hk.ne_crossPlatform hkind hn (hrecorded.2 hy)
    exact ⟨x, List.forall_mem_append.2
      ⟨hrecorded.1 hx, fun u hu => hjoined _ (List.mem_map_of_mem hu)⟩⟩

/-- Under an option of which all names are to be shared, all tickets have those of the
    pivot. -/
theorem forall_shared (h : r.Gathers pivot a ts) (hk : IsPlain k)
    (hkind : r.optionKind? k = some .all) {x : String} (hx : x ∈ pivot.optionNames k) :
    ∀ t ∈ ts, x ∈ t.optionNames k := by
  induction h with
  | founded _ haccord =>
    have hothers := haccord.all hk.ne_crossPlatform hkind hx
    exact List.forall_mem_cons.2 ⟨hx, fun u hu => hothers _ (List.mem_map_of_mem hu)⟩
  | joined h _ haccord ih =>
    have hrecorded := (h.mem_names_of_shared hk (.inr hkind) ⟨x, ih⟩).2 ih
    have hjoined := haccord.all hk.ne_crossPlatform hkind hrecorded
    exact List.forall_mem_append.2 ⟨ih, fun u hu => hjoined _ (List.mem_map_of_mem hu)⟩

end RuleSet.Gathers

namespace Formation

variable [Scalar.Visible α] {f : Formation α} {founder : Ticket α} {s : Session α}
  {ts : List (Ticket α)} {k : String}

/-- Over its whole life, a session records under an option that is unique all that its
    tickets offer, and no two of them offer the same; and under an option that is to be
    shared, if its founder offers something there, it records what all of them offer.
    There is such a name, and what all must have of the founder is what is recorded. -/
theorem Life.options_recorded (h : f.Life Ticket.Distinct founder s ts)
    (hn : f.rules.narrowAny = true) (hk : RuleSet.IsPlain k) :
    (f.rules.optionKind? k = some .unique →
      ts.Pairwise (fun t u => ∀ x ∈ t.optionNames k, x ∉ u.optionNames k) ∧
        ∀ x, x ∈ s.attributes.names k ↔ ∃ t ∈ ts, x ∈ t.optionNames k) ∧
    (f.rules.optionKind? k = some .any ∨ f.rules.optionKind? k = some .all →
      founder.optionNames k ≠ ∅ →
        (∀ x, x ∈ s.attributes.names k ↔ ∀ t ∈ ts, x ∈ t.optionNames k) ∧
        s.attributes.names k ≠ ∅ ∧
        (f.rules.optionKind? k = some .all → s.attributes.names k = founder.optionNames k)) := by
  obtain ⟨pivot, us, hgathers, hpivot, hperm⟩ := h.gathers_offers
  have hall := forall_offers_iff hperm
  constructor
  · intro hkind
    constructor
    · have hpairs := List.pairwise_map.2 (hgathers.pairwise_disjoint hk hkind)
      exact List.pairwise_map.1 ((hperm.pairwise_iff Offer.Disjoint.symm).1 hpairs)
    · intro x
      have hnone := not_congr (hall fun o => x ∉ o k)
      push Not at hnone
      exact (hgathers.mem_names_of_unique hk hkind).trans hnone
  · intro hkind hfounder
    rw [NameSet.ne_empty_iff, ← hpivot] at hfounder
    have hshared : ∃ y, ∀ u ∈ us, y ∈ u.optionNames k := by
      rcases hkind with hkind | hkind
      · exact hgathers.exists_shared hn hk hkind hfounder
      · exact hfounder.imp fun y hy => hgathers.forall_shared hk hkind hy
    have hrecorded : ∀ x, x ∈ s.attributes.names k ↔ ∀ u ∈ us, x ∈ u.optionNames k := fun x =>
      hgathers.mem_names_of_shared hk hkind hshared
    refine ⟨fun x => (hrecorded x).trans (hall fun o => x ∈ o k), ?_,
      fun hkind => NameSet.ext fun x => ?_⟩
    · exact NameSet.ne_empty_iff.2 (hshared.imp fun y hy => (hrecorded y).2 hy)
    · rw [hrecorded, ← hpivot]
      exact ⟨fun hx => hx pivot (List.mem_of_mem_head? hgathers.head?_eq),
        hgathers.forall_shared hk hkind⟩

/-! ### Heroes of their own -/

/-- Matches of one or two players, each a team of its own, who do not have a hero in
    common. -/
def draft : Formation Float where
  rules := { RuleSet.ofAlliance (.ofBounds ⟨1, 2, 1, 1⟩) with
    options := [⟨"hero", .unique⟩]
    autoBackfill := true }
  channel := "draft"
  now := .ofNanos 0
  cap := 1

/-- Open matches are filled under the same rules. -/
def draftFilling : Backfill Float := ⟨draft.rules, draft.now⟩

/-- The ticket of a player with a hero. -/
def hero (id player name : String) : Ticket Float :=
  { gamer player [("hero", [name])] with id := id }

/-- A player is in a match, and another one with another hero joins. Of two tickets of
    one id the first one joins, though the other one was found. -/
theorem draft_session : ∃ s ∈ (draft.run .unlimited [hero "a" "ann" "mage"]).sessions,
    s.ticketIds = ["a"] ∧
    (draftFilling.run .unlimited [⟨"open", { s with id := "m" }⟩]
      [hero "b" "bob" "rogue"]).unmatched = [] ∧
    (draftFilling.run .unlimited [⟨"open", { s with id := "m" }⟩]
      [hero "b" "bob" "mage", hero "b" "cat" "rogue"]).unmatched = [hero "b" "cat" "rogue"] := by
  rw [run_unlimited_sessions (by decide) (by decide +kernel) (List.pairwise_singleton _ _)]
  decide +kernel

theorem draft_options_recorded : draft.rules.narrowAny = true ∧ RuleSet.IsPlain "hero" ∧
    ∃ s, draft.Life Ticket.Distinct (hero "a" "ann" "mage") s
        [hero "a" "ann" "mage", hero "b" "bob" "rogue"] ∧
      ∀ x, x ∈ s.attributes.names "hero" ↔
        ∃ t ∈ [hero "a" "ann" "mage", hero "b" "bob" "rogue"], x ∈ t.optionNames "hero" := by
  obtain ⟨s, s', hformed, hext⟩ := Life.exists_extended Ticket.Distinct (by decide)
    (List.pairwise_singleton _ _)
    (draft_session.imp fun s ⟨hs, hids, hleft, _⟩ => ⟨hs, hids, hleft⟩)
  have hplain : RuleSet.IsPlain "hero" := by decide
  have hkind : draft.rules.optionKind? "hero" = some .unique := by decide
  have hlife := hformed.extended rfl (by decide) hext
  exact ⟨rfl, hplain, s', hlife, ((hlife.options_recorded rfl hplain).1 hkind).2⟩

/-- Where queues may have two tickets of one id, a session may have tickets with the
    same hero. -/
theorem draft_options_shared : draft.rules.narrowAny = true ∧ RuleSet.IsPlain "hero" ∧
    draft.rules.optionKind? "hero" = some .unique ∧
    ∃ s ts, draft.Life (fun _ => True) (hero "a" "ann" "mage") s ts ∧
      ¬ts.Pairwise fun t u => ∀ x ∈ t.optionNames "hero", x ∉ u.optionNames "hero" := by
  obtain ⟨s, s', hformed, hext⟩ := Life.exists_extended (fun _ => True) (by decide)
    (List.pairwise_singleton _ _)
    (draft_session.imp fun s ⟨hs, hids, _, hleft⟩ => ⟨hs, hids, hleft⟩)
  refine ⟨rfl, by decide, by decide, s', _, hformed.extended rfl trivial hext, fun hpairs => ?_⟩
  -- Both have the mage.
  have hann : "mage" ∈ (hero "a" "ann" "mage").optionNames "hero" := by decide +kernel
  have hbob : "mage" ∈ (hero "b" "bob" "mage").optionNames "hero" := by decide +kernel
  exact (List.pairwise_cons.1 hpairs).1 _ (List.mem_singleton_self _) "mage" hann hbob

end Formation

end Matchmaking
