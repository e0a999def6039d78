import Matchmaking.Proofs.Echoes
import Matchmaking.Proofs.Selection

/-!
# A party too large for a team

A party of more players than a team may have goes into no team, so packing is the same
without it (`Packing.pack?_filter`), and what entrants are called is no matter
(`Packing.pack?_renumber`). With such a party among the tickets that fit a pivot, the
orders that are packed have a number more, and their packings are those without it, in the
same order, but for some that come again (`Assembler.echoes_packings`).

A packing that comes again is not taken, as of several largest ones the first is
(`Assembler.exists_choose_eq`). So the party makes a difference in two ways only: the
orders that are left out because of it, and its players, who may make it look as if there
were enough for a full match (`Assembler.assemble?_oversize`).
-/

namespace Matchmaking

variable {α : Type}

/-! ## Packing without a party -/

/-- An entrant of another number. -/
def Entrant.renumber (f : Nat → Nat) (e : Entrant α) : Entrant α := { e with index := f e.index }

namespace Packing

variable {p : Packing} {f : Nat → Nat} {es es' : List (Entrant α)}

/-- Teams are filled from two orders of entrants alike, but for what entrants are called. -/
def FillsAlike (p : Packing) (f : Nat → Nat) (es es' : List (Entrant α)) : Prop :=
  ∀ size d placed, p.fill size es' d (placed.map f) =
    ((p.fill size es d placed).1, (p.fill size es d placed).2.map f)

/-- A party that is too large is passed over. -/
theorem fill_filter (size : Nat) {keep : Entrant α → Bool}
    (h : ∀ e ∈ es, keep e = false → p.rule.bounds.maxSize < e.ticket.players) (d : TeamDraft)
    (placed : List Nat) : p.fill size (es.filter keep) d placed = p.fill size es d placed := by
  induction es generalizing d placed with
  | nil => rfl
  | cons e es ih =>
    obtain ⟨he, hes⟩ := List.forall_mem_cons.1 h
    cases hkeep : keep e with
    | true =>
      rw [List.filter_cons_of_pos hkeep]
      simp only [fill, ih hes]
    | false =>
      have hadd : p.add? d e = none := if_pos (Nat.lt_add_left _ (he hkeep))
      rw [List.filter_cons_of_neg (by simp [hkeep]), ih hes, fill, hadd, ite_self]
      split_ifs with hreaches
      · exact fill_of_reaches hreaches es
      · rfl

/-- Whoever has a place has it under any number. -/
theorem contains_map (hf : Function.Injective f) (placed : List Nat) (i : Nat) :
    (placed.map f).contains (f i) = placed.contains i := by
  rw [Bool.eq_iff_iff, List.contains_iff_mem, List.contains_iff_mem]
  exact List.mem_map_of_injective hf

theorem fillsAlike_renumber (hf : Function.Injective f) (es : List (Entrant α)) :
    p.FillsAlike f es (es.map (Entrant.renumber f)) := by
  intro size d placed
  induction es generalizing d placed with
  | nil => rfl
  | cons e es ih =>
    have hcontains := contains_map hf placed e.index
    have hadd : p.add? d (e.renumber f) = p.add? d e := rfl
    rw [List.map_cons, fill, fill, hadd, show (e.renumber f).index = f e.index from rfl, hcontains]
    split_ifs
    · rfl
    · exact ih d placed
    · cases p.add? d e with
      | none => exact ih d placed
      | some d => exact ih d (e.index :: placed)

namespace FillsAlike

variable (h : p.FillsAlike f es es')
include h

theorem newTeam (size team : Nat) (placed : List Nat) :
    p.newTeam size es' team (placed.map f) =
      ((p.newTeam size es team placed).1, (p.newTeam size es team placed).2.map f) :=
  h size _ placed

theorem firstTeams? (n team : Nat) (placed : List Nat) :
    p.firstTeams? es' n team (placed.map f) =
      (p.firstTeams? es n team placed).map fun (ds, placed) => (ds, placed.map f) := by
  induction n generalizing team placed with
  | zero => rfl
  | succ n ih =>
    simp only [Packing.firstTeams?, h.newTeam, ih]
    split_ifs
    · simp only [Option.map_map]
      rfl
    · rfl

theorem topUp (ds : List TeamDraft) (placed : List Nat) :
    p.topUp es' ds (placed.map f) =
      ((p.topUp es ds placed).1, (p.topUp es ds placed).2.map f) := by
  induction ds generalizing placed with
  | nil => rfl
  | cons d ds ih => simp only [Packing.topUp, h _ _ _, ih]

theorem furtherTeams (n team : Nat) (placed : List Nat) :
    p.furtherTeams es' n team (placed.map f) =
      ((p.furtherTeams es n team placed).1, (p.furtherTeams es n team placed).2.map f) := by
  induction n generalizing team placed with
  | zero => rfl
  | succ n ih =>
    simp only [Packing.furtherTeams, h.newTeam, ih]
    split_ifs <;> rfl

theorem drafts? : p.drafts? es' = (p.drafts? es).map fun (ds, placed) => (ds, placed.map f) := by
  have hfirst := h.firstTeams? p.rule.bounds.minTeams 0 []
  rw [List.map_nil] at hfirst
  rw [Packing.drafts?, Packing.drafts?, hfirst, Option.map_map, Option.map_map]
  congr 1
  funext ⟨first, placed⟩
  simp only [Function.comp_apply, h.topUp, h.furtherTeams]

theorem pack? (hf : Function.Injective f) (hzero : f 0 = 0) : p.pack? es' = p.pack? es := by
  rw [Packing.pack?, Packing.pack?, h.drafts?]
  cases p.drafts? es with
  | none => rfl
  | some r =>
    have hcontains : (r.2.map f).contains 0 = r.2.contains 0 := by
      conv_lhs => rw [← hzero]
      exact contains_map hf r.2 0
    simp only [Option.map_some, hcontains]

end FillsAlike

/-- Packing is the same without parties that are too large. -/
theorem pack?_filter {keep : Entrant α → Bool}
    (h : ∀ e ∈ es, keep e = false → p.rule.bounds.maxSize < e.ticket.players) :
    p.pack? (es.filter keep) = p.pack? es := by
  refine FillsAlike.pack? (f := id) (fun size d placed => ?_) Function.injective_id rfl
  rw [List.map_id, List.map_id, fill_filter size h]

/-- What entrants are called is no matter, as long as the pivot keeps its number. -/
theorem pack?_renumber (hf : Function.Injective f) (hzero : f 0 = 0) (es : List (Entrant α)) :
    p.pack? (es.map (Entrant.renumber f)) = p.pack? es :=
  (fillsAlike_renumber hf es).pack? hf hzero

end Packing

/-! ## Packing an order without a party -/

namespace Assembler

variable [Scalar α] {m : Assembler} {pivot x : Ticket α} {before after : List (Ticket α)}

theorem getElem?_skip {β : Type} (us vs : List β) (x : β) (i : Nat) :
    (us ++ x :: vs)[skip us.length i]? = (us ++ vs)[i]? := by
  rw [skip]
  split_ifs with hi
  · rw [List.getElem?_append_left hi, List.getElem?_append_left hi]
  · rw [List.getElem?_append_right (by omega), List.getElem?_append_right (by omega),
      Nat.succ_sub (by omega), List.getElem?_cons_succ]

theorem getElem?_ofList (ts : List (Ticket α)) (i : Nat) :
    (Entrant.ofList ts).toArray[i]? = ts[i]?.map (Entrant.of i) := by
  simp [Entrant.ofList]

/-- An order is packed as it is without a party that is too large. -/
theorem packed?_leave (hx : m.packing.rule.bounds.maxSize < x.players)
    {ts : List (Ticket α)} {j : Nat} (hj : ts[j]? = some x) (order : List Nat) :
    m.packed? (Entrant.ofList ts).toArray (leave j order) =
      m.packed? (Entrant.ofList ts).toArray order := by
  have hleave : (leave j order).filterMap ((Entrant.ofList ts).toArray[·]?) =
      (order.filterMap ((Entrant.ofList ts).toArray[·]?)).filter (·.index ≠ j) := by
    rw [leave, List.filterMap_filter, List.filter_filterMap]
    refine List.filterMap_congr fun i _ => ?_
    rw [getElem?_ofList]
    by_cases hi : i = j <;> cases ts[i]? <;> simp [Entrant.of, Option.filter, hi]
  rw [packed?, packed?, hleave, Packing.pack?_filter]
  intro e he hindex
  obtain ⟨i, _, hi⟩ := List.mem_filterMap.1 he
  rw [getElem?_ofList] at hi
  obtain ⟨t, ht, rfl⟩ := Option.map_eq_some_iff.1 hi
  have hij : i = j := Decidable.not_not.1 (of_decide_eq_false hindex)
  rw [hij, hj] at ht
  exact Option.some_inj.1 ht ▸ hx

/-- An order of the others is packed as it is without the party. -/
theorem packed?_map_skip (order : List Nat) :
    m.packed? (Entrant.ofList (pivot :: (before ++ x :: after))).toArray
        (order.map (skip (before.length + 1))) =
      m.packed? (Entrant.ofList (pivot :: (before ++ after))).toArray order := by
  have hget (i : Nat) : (Entrant.ofList (pivot :: (before ++ x :: after))).toArray[
        skip (before.length + 1) i]? =
      ((Entrant.ofList (pivot :: (before ++ after))).toArray[i]?).map
        (Entrant.renumber (skip (before.length + 1))) := by
    rw [getElem?_ofList, getElem?_ofList, ← List.cons_append, ← List.cons_append,
      ← List.length_cons (a := pivot), getElem?_skip, Option.map_map]
    rfl
  rw [packed?, packed?, List.filterMap_map]
  simp only [Function.comp_def, hget, ← List.map_filterMap]
  rw [Packing.pack?_renumber (skip_strictMono _).injective (if_pos (Nat.succ_pos _))]

/-! ## The orders with a party too large -/

omit [Scalar α] in
theorem pinned_le (ts : List (Ticket α)) : pinned ts ≤ ts.length + 1 := by
  rw [pinned, Nat.add_comm]
  exact Nat.succ_le_succ (List.takeWhile_sublist _).length_le

omit [Scalar α] in
/-- With a party of some priority, one ticket more stays in front. -/
theorem pinned_of_pos (hx : 0 < x.priority) (hbefore : ∀ t ∈ before, x.priority ≤ t.priority)
    (after : List (Ticket α)) :
    pinned (before ++ x :: after) = pinned (before ++ after) + 1 ∧
      before.length + 1 ≤ pinned (before ++ after) := by
  have hall : ∀ t ∈ before, decide (0 < t.priority) = true := fun t ht =>
    decide_eq_true (Int.lt_of_lt_of_le hx (hbefore t ht))
  rw [pinned, pinned, List.takeWhile_append_of_pos hall, List.takeWhile_append_of_pos hall,
    List.takeWhile_cons, if_pos (decide_eq_true hx)]
  simp only [List.length_append, List.length_cons]
  omega

omit [Scalar α] in
/-- Only tickets with a priority stay in front. -/
theorem pinned_append {rest : List (Ticket α)} (h : ∀ t ∈ rest, ¬0 < t.priority) :
    pinned (before ++ rest) = pinned before := by
  have hrest : rest.takeWhile (fun t => decide (0 < t.priority)) = [] := by
    cases rest with
    | nil => rfl
    | cons t rest =>
      exact List.takeWhile_cons.trans (if_neg (by simpa using h t List.mem_cons_self))
  rw [pinned, pinned, List.takeWhile_append, hrest, List.append_nil]
  split_ifs with hall
  · rw [hall]
  · rfl

omit [Scalar α] in
/-- A party of no priority does not stay in front. -/
theorem pinned_of_not_pos (hx : ¬0 < x.priority) (before : List (Ticket α))
    (hafter : ∀ t ∈ after, t.priority ≤ x.priority) :
    pinned (before ++ x :: after) = pinned (before ++ after) ∧
      pinned (before ++ after) ≤ before.length + 1 := by
  have hrest : ∀ t ∈ after, ¬0 < t.priority := fun t ht hpos =>
    hx (Int.lt_of_lt_of_le hpos (hafter t ht))
  rw [pinned_append (List.forall_mem_cons.2 ⟨hx, hrest⟩), pinned_append hrest]
  exact ⟨rfl, pinned_le before⟩

/-- With a party that is too large, the packings are those without it, in the same order,
    but for some that come again. -/
theorem echoes_packings (m : Assembler) (pivot : Ticket α)
    (hx : m.packing.rule.bounds.maxSize < x.players)
    (hbefore : ∀ t ∈ before, x.priority ≤ t.priority)
    (hafter : ∀ t ∈ after, t.priority ≤ x.priority) :
    Echoes [] (m.packings pivot (before ++ x :: after)) (m.packings pivot (before ++ after)) := by
  have hplace : (pivot :: (before ++ x :: after))[before.length + 1]? = some x := by simp
  have hlength : (before ++ x :: after).length = (before ++ after).length + 1 := by
    simp [Nat.add_assoc]
  have hle := pinned_le (before ++ after)
  -- Every order is packed without the party, and the others have their places without it.
  have hmore : m.packings pivot (before ++ x :: after) =
      (((Orderings.new ((before ++ after).length + 1 + 1) (pinned (before ++ x :: after))).take
        (max m.cap 1)).map (leave (before.length + 1))).filterMap
          (m.packed? (Entrant.ofList (pivot :: (before ++ x :: after))).toArray) := by
    rw [packings, hlength, List.filterMap_map]
    exact List.filterMap_congr fun order _ => (packed?_leave hx hplace order).symm
  have hless : m.packings pivot (before ++ after) =
      (((Orderings.new ((before ++ after).length + 1) (pinned (before ++ after))).take
        (max m.cap 1)).map (List.map (skip (before.length + 1)))).filterMap
          (m.packed? (Entrant.ofList (pivot :: (before ++ x :: after))).toArray) := by
    rw [packings, List.filterMap_map]
    exact List.filterMap_congr fun order _ => (packed?_map_skip order).symm
  rw [hmore, hless]
  by_cases hpos : 0 < x.priority
  · obtain ⟨hpinned, hstays⟩ := pinned_of_pos hpos hbefore after
    rw [hpinned, Orderings.take_succ_succ hstays hle]
    exact .refl _ _
  · obtain ⟨hpinned, hstays⟩ := pinned_of_not_pos hpos before hafter
    rw [hpinned]
    refine (Orderings.take_echoes hstays ?_ _).filterMap _
    simp

/-! ## The match with a party too large -/

/-- Of packings that echo others, what is taken is what is taken of the first ones of
    these. -/
theorem exists_choose_eq (b : Bounds) (canFill : Bool) {seen xs ys : List Assembly}
    (h : Echoes seen xs ys) :
    ∃ zs rest, ys = zs ++ rest ∧ zs ⊆ xs ∧ xs ⊆ seen ++ zs ∧
      ∀ best, Passed b canFill seen best → choose b canFill xs best = choose b canFill zs best := by
  induction h with
  | done seen ys => exact ⟨[], ys, rfl, List.Subset.refl _, List.nil_subset _, fun _ _ => rfl⟩
  | @next seen xs ys a _ ih =>
    obtain ⟨zs, rest, rfl, hsub, hsup, hchoose⟩ := ih
    refine ⟨a :: zs, rest, rfl, List.cons_subset_cons a hsub, ?_, fun best hbest => ?_⟩
    · refine List.cons_subset.2 ⟨by simp, fun x hx => ?_⟩
      exact List.perm_middle.symm.subset (hsup hx)
    · rw [choose, choose]
      split_ifs with ha
      · rfl
      · exact hchoose _ (hbest.cons (Bool.eq_false_iff.2 ha))
  | @again seen xs ys a ha _ ih =>
    obtain ⟨zs, rest, rfl, hsub, hsup, hchoose⟩ := ih
    refine ⟨zs, rest, rfl, fun x hx => List.mem_cons_of_mem _ (hsub hx),
      List.cons_subset.2 ⟨List.mem_append_left _ ha, hsup⟩, fun best hbest => ?_⟩
    rw [choose, if_neg (by simp [(hbest a ha).1]), hbest.larger ha]
    exact hchoose best hbest

/-- A match of some tickets stands among others: it is a packing of one of the orders of
    these that may be packed, and if only these have players enough for a full match, then
    it is full or none of their packings is full or larger. -/
structure Stands (m : Assembler) (pivot : Ticket α) (ts us : List (Ticket α)) (a : Assembly) :
    Prop where
  packed : a ∈ m.packings pivot us
  largest : m.canFill (pivot :: us) = true → m.canFill (pivot :: ts) = true ∨
    a.isFull m.packing.rule.bounds = true ∨
    ∀ c ∈ m.packings pivot us, c.isFull m.packing.rule.bounds = false ∧ c.players ≤ a.players

omit [Scalar α] in
theorem canFill_of_sublist {ts us : List (Ticket α)} (hsub : ts.Sublist us)
    (h : m.canFill ts = true) : m.canFill us = true :=
  decide_eq_true (Nat.le_trans (of_decide_eq_true h) (total_le_of_sublist Ticket.players hsub))

/-- A match that stands with a party that is too large for a team is the one that is
    assembled with it. -/
theorem assemble?_oversize (hx : m.packing.rule.bounds.maxSize < x.players)
    (hbefore : ∀ t ∈ before, x.priority ≤ t.priority)
    (hafter : ∀ t ∈ after, t.priority ≤ x.priority)
    (h : ∀ a, m.assemble? pivot (before ++ after) = some a →
      m.Stands pivot (before ++ after) (before ++ x :: after) a) :
    m.assemble? pivot (before ++ x :: after) = m.assemble? pivot (before ++ after) := by
  obtain ⟨zs, rest, hless, hsub, hsup, hchoose⟩ := exists_choose_eq m.packing.rule.bounds
    (m.canFill (pivot :: (before ++ x :: after))) (m.echoes_packings pivot hx hbefore hafter)
  have hmore := hchoose none nofun
  simp only [assemble?_eq_choose] at h ⊢
  rw [hmore]
  rw [hless] at h ⊢
  cases ha : choose m.packing.rule.bounds (m.canFill (pivot :: (before ++ after))) (zs ++ rest)
      none with
  | none =>
    rw [(List.append_eq_nil_iff.1 (eq_nil_of_choose_eq_none ha)).1]
    rfl
  | some a =>
    obtain ⟨hpacked, hlargest⟩ := h a ha
    have hmem : a ∈ zs := hsup hpacked
    have htaken := choose_of_append ha hmem
    cases hfill : m.canFill (pivot :: (before ++ after)) with
    | true =>
      have hsublist : (pivot :: (before ++ after)).Sublist (pivot :: (before ++ x :: after)) :=
        ((List.sublist_cons_self x after).append_left before).cons_cons pivot
      rw [canFill_of_sublist hsublist hfill]
      rwa [hfill] at htaken
    | false =>
      rw [hfill] at htaken
      cases hfill' : m.canFill (pivot :: (before ++ x :: after)) with
      | false => exact htaken
      | true =>
        -- Without players enough the first packing is taken.
        cases zs with
        | nil => cases hmem
        | cons c zs =>
          obtain rfl : c = a := by simpa [choose, settles] using htaken
          refine choose_true_cons ((hlargest hfill').resolve_left (by simp [hfill]) |>.imp_right ?_)
          exact fun hall c' hc' => hall c' (hsub (List.mem_cons_of_mem _ hc'))

end Assembler

end Matchmaking
