import Matchmaking.Proofs.Backfill.Life

/-!
# Platforms over the life of a session

The attributes of a session have the platforms that its tickets play on, and those
that its tickets desire, narrowed. So a ticket that joins plays with the platforms of
all tickets that it meets. They play with its platforms as well if they all desire a
platform together, or if none of them says what it desires
(`RuleSet.Gathers.playsWith`).

Otherwise the attributes say less than the search that founded the session knew. A
ticket that does not say what it desires plays with its own platforms only, but
adds nothing to what is recorded as desired; and if nothing is desired by all, what
is recorded is what one of them desires.
-/

namespace Matchmaking

variable {α : Type}

namespace Platforms

variable {o : Offer} {x y : String}

theorem playsWith_of_desired (h : y ∈ o Key.crossPlatform) :
    (of o).PlaysWith x ↔ x ∈ o Key.crossPlatform := by
  simp [PlaysWith, of, NameSet.isEmpty_eq_false h]

theorem playsWith_of_current (h : o Key.crossPlatform = ∅) (hy : y ∈ o Key.currentPlatform) :
    (of o).PlaysWith x ↔ x ∈ o Key.currentPlatform := by
  simp [PlaysWith, of, NameSet.isEmpty_iff.2 h, NameSet.isEmpty_eq_false hy]

theorem playsWith_of_empty (h : o Key.crossPlatform = ∅) (h' : o Key.currentPlatform = ∅) :
    (of o).PlaysWith x := by
  simp [PlaysWith, of, NameSet.isEmpty_iff.2 h, NameSet.isEmpty_iff.2 h']

end Platforms

variable [Scalar α]

/-- Tickets share their desires: they all desire a platform together, or none of them
    says what it desires. -/
def ShareDesires (ts : List (Ticket α)) : Prop :=
  (∃ x, ∀ t ∈ ts, x ∈ t.optionNames Key.crossPlatform) ∨
    ∀ t ∈ ts, t.optionNames Key.crossPlatform = ∅

theorem ShareDesires.of_append {ts us : List (Ticket α)} (h : ShareDesires (ts ++ us)) :
    ShareDesires ts :=
  h.imp (fun ⟨x, hx⟩ => ⟨x, fun t ht => hx t (List.mem_append_left _ ht)⟩)
    fun h t ht => h t (List.mem_append_left _ ht)

namespace RuleSet

omit [Scalar α] in
theorem crossPlatform_mem_liftedKeys (r : RuleSet α) : Key.crossPlatform ∈ r.liftedKeys := by
  simp [liftedKeys]

omit [Scalar α] in
theorem currentPlatform_mem_liftedKeys (r : RuleSet α) : Key.currentPlatform ∈ r.liftedKeys := by
  simp [liftedKeys]

omit [Scalar α] in
theorem mergeMode_crossPlatform (r : RuleSet α) : r.mergeMode Key.crossPlatform = .intersect :=
  if_pos rfl

omit [Scalar α] in
theorem mergeMode_currentPlatform (r : RuleSet α) : r.mergeMode Key.currentPlatform = .union := by
  rw [mergeMode, if_neg (by decide), if_pos (.inl rfl)]

end RuleSet

namespace RuleSet.Gathers

variable [Scalar.Visible α] {r : RuleSet α} {pivot : Ticket α} {a : Attributes α}
  {ts : List (Ticket α)} {x : String}

/-- The platforms that tickets play on are all recorded. -/
theorem mem_current (h : r.Gathers pivot a ts) :
    x ∈ a.names Key.currentPlatform ↔ ∃ t ∈ ts, x ∈ t.optionNames Key.currentPlatform :=
  h.records.mem_names_of_union r.currentPlatform_mem_liftedKeys (by decide)
    r.mergeMode_currentPlatform

/-- So who gets along with what is recorded plays with the platforms of all tickets. -/
theorem accepts_current (h : r.Gathers pivot a ts) {o : Offer} (ho : Offer.Compatible a.names o) :
    ∀ t ∈ ts, (Platforms.of o).accepts (t.optionNames Key.currentPlatform) = true := by
  intro t ht
  rw [Platforms.accepts_iff]
  exact fun x hx => Platforms.accepts_iff.1 ho.right x (h.mem_current.2 ⟨t, ht, hx⟩)

/-- Tickets that share their desires play with all that their attributes play with, if
    they get along with one another. -/
theorem playsWith (h : r.Gathers pivot a ts) (hshare : ShareDesires ts)
    (hpairs : ts.Pairwise fun t u => Offer.Compatible t.optionNames u.optionNames)
    (hx : (Platforms.of a.names).PlaysWith x) :
    ∀ t ∈ ts, (Platforms.of t.optionNames).PlaysWith x := by
  intro t ht
  rcases hshare with ⟨y, hy⟩ | hnone
  · -- What is recorded as desired is what all of them desire.
    have hrecorded : ∀ z, z ∈ a.names Key.crossPlatform ↔
        ∀ u ∈ ts, z ∈ u.optionNames Key.crossPlatform := fun z =>
      h.records.mem_names_of_intersect r.crossPlatform_mem_liftedKeys (by decide)
        r.mergeMode_crossPlatform ⟨y, hy⟩
    rw [Platforms.playsWith_of_desired ((hrecorded y).2 hy), hrecorded] at hx
    exact (Platforms.playsWith_of_desired (hy t ht)).2 (hx t ht)
  · -- Nothing is recorded as desired, so what is played on counts.
    have hcross : a.names Key.crossPlatform = ∅ := by
      refine NameSet.ext fun z => iff_of_false (fun hz => ?_) (NameSet.not_mem_empty z)
      obtain ⟨u, hu, hzu⟩ := h.records.exists_of_mem_names r.crossPlatform_mem_liftedKeys
        (by decide) r.mergeMode_crossPlatform hz
      exact NameSet.not_mem_empty z (hnone u hu ▸ hzu)
    by_cases hcurrent : t.optionNames Key.currentPlatform = ∅
    · exact Platforms.playsWith_of_empty (hnone t ht) hcurrent
    · obtain ⟨y, hy⟩ := NameSet.ne_empty_iff.1 hcurrent
      rw [Platforms.playsWith_of_current hcross (h.mem_current.2 ⟨t, ht, hy⟩), h.mem_current] at hx
      obtain ⟨u, hu, hxu⟩ := hx
      by_cases htu : u = t
      · exact (Platforms.playsWith_of_current (hnone t ht) hy).2 (htu ▸ hxu)
      · have : Std.Symm fun v w : Ticket α => Offer.Compatible v.optionNames w.optionNames :=
          ⟨fun _ _ => Platforms.Compatible.symm⟩
        exact Platforms.accepts_iff.1 (hpairs.forall hu ht htu).right x hxu

/-- Tickets that share their desires get along with one another. -/
theorem pairwise_compatible (h : r.Gathers pivot a ts)
    (hkind : r.optionKind? Key.crossPlatform = some .any) (hn : r.narrowAny = true)
    (hshare : ShareDesires ts) :
    ts.Pairwise fun t u => Offer.Compatible t.optionNames u.optionNames := by
  induction h with
  | founded _ haccord => exact List.pairwise_map.1 (haccord.platforms hkind hn)
  | joined h _ haccord ih =>
    obtain ⟨hnew, hpairs⟩ := List.pairwise_cons.1 (haccord.platforms hkind hn)
    have hearlier := ih hshare.of_append
    refine List.pairwise_append.2 ⟨hearlier, List.pairwise_map.1 hpairs, fun t ht u hu => ?_⟩
    have hu := hnew _ (List.mem_map_of_mem hu)
    refine ⟨Platforms.accepts_iff.2 fun x hx => ?_, h.accepts_current hu t ht⟩
    exact h.playsWith hshare.of_append hearlier (Platforms.accepts_iff.1 hu.left x hx) t ht

/-- What is recorded as desired is desired by the pivot, if it says what it desires. -/
theorem playsWith_pivot (h : r.Gathers pivot a ts)
    (hpivot : pivot.optionNames Key.crossPlatform ≠ ∅) (hx : (Platforms.of a.names).PlaysWith x) :
    (Platforms.of pivot.optionNames).PlaysWith x := by
  obtain ⟨⟨y, hy⟩, hsubset⟩ := h.records.narrows_head r.crossPlatform_mem_liftedKeys (by decide)
    r.mergeMode_crossPlatform h.head?_eq (NameSet.ne_empty_iff.1 hpivot)
  rw [Platforms.playsWith_of_desired hy] at hx
  exact (Platforms.playsWith_of_desired (hsubset y hy)).2 (hsubset x hx)

end RuleSet.Gathers

namespace Formation

variable [Scalar.Visible α] {f : Formation α} {founder : Ticket α} {b : Backfill α}
  {s s' : Session α} {ts pool joined : List (Ticket α)}

/-- Tickets that join a session get along with one another and play with the platforms
    of all tickets that it has. The founder plays with their platforms, if it says what
    it desires, and so do all tickets of the session if they share their desires. -/
theorem Life.extends_platforms (h : f.Life Ticket.Distinct founder s ts)
    (hrules : b.rules = f.rules) (hpool : Ticket.Distinct pool) (hext : b.Extends pool s s' joined)
    (hkind : f.rules.optionKind? Key.crossPlatform = some .any) (hn : f.rules.narrowAny = true) :
    joined.Pairwise (fun t u =>
        (Platforms.of t.optionNames).accepts (u.optionNames Key.currentPlatform) = true ∧
        (Platforms.of u.optionNames).accepts (t.optionNames Key.currentPlatform) = true) ∧
    (∀ t ∈ joined, ∀ u ∈ ts,
      (Platforms.of t.optionNames).accepts (u.optionNames Key.currentPlatform) = true) ∧
    (founder.optionNames Key.crossPlatform ≠ ∅ → ∀ t ∈ joined,
      (Platforms.of founder.optionNames).accepts (t.optionNames Key.currentPlatform) = true) ∧
    (ShareDesires ts → ∀ t ∈ joined, ∀ u ∈ ts,
      (Platforms.of u.optionNames).accepts (t.optionNames Key.currentPlatform) = true) := by
  obtain ⟨pivot, us, hgathers, hpivot, hperm⟩ := h.gathers_offers
  have hall := forall_offers_iff hperm
  obtain ⟨hnew, hpairs⟩ := List.pairwise_cons.1 ((hrules ▸ hext.accord hpool).platforms hkind hn)
  have hcompatible : ∀ t ∈ joined, Offer.Compatible s.attributes.names t.optionNames := fun t ht =>
    hnew _ (List.mem_map_of_mem ht)
  have hrecorded : ∀ t ∈ joined, ∀ x ∈ t.optionNames Key.currentPlatform,
      (Platforms.of s.attributes.names).PlaysWith x := fun t ht =>
    Platforms.accepts_iff.1 (hcompatible t ht).left
  refine ⟨(List.pairwise_map.1 hpairs).imp fun h => ⟨h.left, h.right⟩, fun t ht => ?_,
    fun hfounder t ht => ?_, fun hshare t ht => ?_⟩
  · exact (hall fun o => (Platforms.of t.optionNames).accepts (o Key.currentPlatform) = true).1
      (hgathers.accepts_current (hcompatible t ht))
  · rw [← hpivot] at hfounder ⊢
    exact Platforms.accepts_iff.2 fun x hx =>
      hgathers.playsWith_pivot hfounder (hrecorded t ht x hx)
  · have hshare' : ShareDesires us :=
      hshare.imp (fun ⟨x, hx⟩ => ⟨x, (hall fun o => x ∈ o Key.crossPlatform).2 hx⟩)
        (hall fun o => o Key.crossPlatform = ∅).2
    have hus := hgathers.pairwise_compatible hkind hn hshare'
    refine (hall fun o => (Platforms.of o).accepts (t.optionNames Key.currentPlatform) = true).1 ?_
    exact fun u hu => Platforms.accepts_iff.2 fun x hx =>
      hgathers.playsWith hshare' hus (hrecorded t ht x hx) u hu

/-! ### Players who join on other platforms -/

/-- Open matches of players who say with which platforms they play are filled under the
    same rules. -/
def crossplayFilling : Backfill Float := ⟨crossplay.rules, crossplay.now⟩

/-- Two players desire a platform together, and a player on another one joins. -/
theorem crossplay_joined : ∃ s ∈ (crossplay.run .unlimited
      [crossPlayer "a" ["pc"] ["pc", "xbox"], crossPlayer "b" ["pc"] ["pc", "xbox"]]).sessions,
    s.ticketIds = ["a", "b"] ∧
    (crossplayFilling.run .unlimited [⟨"open", { s with id := "m" }⟩]
      [crossPlayer "c" ["xbox"] ["pc", "xbox"]]).unmatched = [] := by
  rw [run_unlimited_sessions (by decide) (by decide +kernel) (by decide +kernel)]
  decide +kernel

/-- Two players do not desire a platform together, and a player joins whom only the
    founder expects. -/
theorem crossplay_divided : ∃ s ∈ (crossplay.run .unlimited
      [crossPlayer "a" [] ["pc"], crossPlayer "b" [] ["xbox"]]).sessions,
    s.ticketIds = ["a", "b"] ∧
    (crossplayFilling.run .unlimited [⟨"open", { s with id := "m" }⟩]
      [crossPlayer "c" ["pc"] []]).unmatched = [] := by
  rw [run_unlimited_sessions (by decide) (by decide +kernel) (by decide +kernel)]
  decide +kernel

/-- Two players desire a platform together. Of two tickets of one id the first one
    joins, though only the other one was found. -/
theorem crossplay_doubled : ∃ s ∈ (crossplay.run .unlimited
      [crossPlayer "a" ["pc"] ["pc"], crossPlayer "b" ["pc"] ["pc"]]).sessions,
    s.ticketIds = ["a", "b"] ∧
    (crossplayFilling.run .unlimited [⟨"open", { s with id := "m" }⟩]
      [{ crossPlayer "x" ["xbox"] ["pc", "xbox"] with id := "c" },
        { crossPlayer "y" ["pc"] ["pc"] with id := "c" }]).unmatched =
      [{ crossPlayer "y" ["pc"] ["pc"] with id := "c" }] := by
  rw [run_unlimited_sessions (by decide) (by decide +kernel) (by decide +kernel)]
  decide +kernel

theorem crossplay_extends_platforms :
    crossplay.rules.optionKind? Key.crossPlatform = some .any ∧ crossplay.rules.narrowAny = true ∧
    ∃ s s', crossplay.Life Ticket.Distinct (crossPlayer "a" ["pc"] ["pc", "xbox"]) s
        [crossPlayer "a" ["pc"] ["pc", "xbox"], crossPlayer "b" ["pc"] ["pc", "xbox"]] ∧
      crossplayFilling.Extends [crossPlayer "c" ["xbox"] ["pc", "xbox"]] s s'
        [crossPlayer "c" ["xbox"] ["pc", "xbox"]] ∧
      (Platforms.of (crossPlayer "b" ["pc"] ["pc", "xbox"]).optionNames).accepts
        ((crossPlayer "c" ["xbox"] ["pc", "xbox"]).optionNames Key.currentPlatform) = true := by
  obtain ⟨s, s', hlife, hext⟩ :=
    Life.exists_extended Ticket.Distinct (by decide) (by decide) crossplay_joined
  have hkind : crossplay.rules.optionKind? Key.crossPlatform = some .any := by decide
  have hshare : ShareDesires
      [crossPlayer "a" ["pc"] ["pc", "xbox"], crossPlayer "b" ["pc"] ["pc", "xbox"]] :=
    .inl ⟨"pc", by decide⟩
  obtain ⟨_, _, _, hplays⟩ := hlife.extends_platforms rfl (by decide) hext hkind rfl
  exact ⟨hkind, rfl, _, s', hlife, hext, hplays hshare _ (List.mem_singleton_self _) _
    (List.mem_cons_of_mem _ (List.mem_singleton_self _))⟩

/-- A ticket may join that another one does not play with: if the tickets of the session
    do not desire a platform together, or if the queue has two tickets of one id. -/
theorem crossplay_not_played :
    crossplay.rules.optionKind? Key.crossPlatform = some .any ∧ crossplay.rules.narrowAny = true ∧
    (∃ founder s s' ts joined pool, crossplay.Life Ticket.Distinct founder s ts ∧
      Ticket.Distinct pool ∧ crossplayFilling.Extends pool s s' joined ∧ ∃ t ∈ joined, ∃ u ∈ ts,
        (Platforms.of u.optionNames).accepts (t.optionNames Key.currentPlatform) = false) ∧
    ∃ founder s s' ts joined pool, crossplay.Life Ticket.Distinct founder s ts ∧
      ShareDesires ts ∧ crossplayFilling.Extends pool s s' joined ∧ ∃ t ∈ joined, ∃ u ∈ ts,
        (Platforms.of u.optionNames).accepts (t.optionNames Key.currentPlatform) = false := by
  refine ⟨by decide, rfl, ?_, ?_⟩
  · obtain ⟨s, s', hlife, hext⟩ :=
      Life.exists_extended Ticket.Distinct (by decide) (by decide) crossplay_divided
    refine ⟨_, _, s', _, _, _, hlife, by decide, hext, _, List.mem_singleton_self _, _,
      List.mem_cons_of_mem _ (List.mem_singleton_self _), ?_⟩
    decide
  · obtain ⟨s, s', hlife, hext⟩ :=
      Life.exists_extended Ticket.Distinct (by decide) (by decide) crossplay_doubled
    have hshare : ShareDesires [crossPlayer "a" ["pc"] ["pc"], crossPlayer "b" ["pc"] ["pc"]] :=
      .inl ⟨"pc", by decide⟩
    refine ⟨_, _, s', _, _, _, hlife, hshare, hext, _, List.mem_singleton_self _, _,
      List.mem_cons_self, ?_⟩
    decide

end Formation

end Matchmaking
