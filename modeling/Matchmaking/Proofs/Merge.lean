import Matchmaking.Merge
import Matchmaking.Proofs.Attribute

/-!
# What merged attributes say of tickets

The attributes of a session are those of its tickets, merged: the tickets that it
was formed of at once, and each further one when it joined (`RuleSet.Records`).
Under the names that count for parties, the attributes of a ticket have the names
that it offers (`RuleSet.names_ticketAttributes`). So

* what is united has the names that some ticket offers
  (`RuleSet.Records.mem_names_of_union`);
* what is narrowed has the names that all tickets offer, if there are such names
  (`RuleSet.Records.mem_names_of_intersect`). Where there are none the merged
  attributes keep names that not all tickets offer.
-/

namespace Matchmaking

variable {α : Type} [Scalar α]

theorem Dict.mem_keys_iff {β : Type} {d : Dict β} {k : String} :
    k ∈ d.keys ↔ (d.get? k).isSome = true := by
  simp [keys, Option.isSome_iff_exists, get?_eq_some_iff]

/-! ## Lists of values -/

namespace Value

theorem mem_together {vs : List (Value α)} {x : String} :
    x ∈ together vs ↔ ∃ v ∈ vs, x ∈ v.names := by
  simp [together, NameSet.mem_foldl_union]

theorem mem_common {v : Value α} {vs : List (Value α)} {x : String} :
    x ∈ common (v :: vs) ↔ ∀ w ∈ v :: vs, x ∈ w.names := by
  have hfold : ∀ s : NameSet, x ∈ vs.foldl (fun s v => s.inter v.names) s ↔
      x ∈ s ∧ ∀ w ∈ vs, x ∈ w.names := by
    induction vs with
    | nil => simp
    | cons w vs ih => simp [ih, and_assoc]
  rw [common, hfold, List.forall_mem_cons]

/-- Values that share a name are merged into what they share. -/
theorem merge_intersect {v : Value α} {vs : List (Value α)}
    (h : ∃ x, ∀ w ∈ v :: vs, x ∈ w.names) : merge .intersect v vs = ofNames (common (v :: vs)) := by
  obtain ⟨x, hx⟩ := h
  have hshared : (common (v :: vs)).isEmpty = false := NameSet.isEmpty_eq_false (mem_common.2 hx)
  simp only [merge, hshared, Bool.false_eq_true, if_false]

variable [Scalar.Visible α] {v : Value α} {vs : List (Value α)} {x : String}

theorem mem_names_merge_union : x ∈ (merge .union v vs).names ↔ ∃ w ∈ v :: vs, x ∈ w.names := by
  rw [merge, names_ofNames, mem_together]
  intro y hy
  obtain ⟨w, _, hyw⟩ := mem_together.1 hy
  exact isBlank_of_mem_names hyw

/-- Values that share a name are narrowed to what they share. -/
theorem mem_names_merge_intersect (h : ∃ y, ∀ w ∈ v :: vs, y ∈ w.names) :
    x ∈ (merge .intersect v vs).names ↔ ∀ w ∈ v :: vs, x ∈ w.names := by
  rw [merge_intersect h, names_ofNames, mem_common]
  exact fun y hy => isBlank_of_mem_names (mem_common.1 hy v List.mem_cons_self)

theorem mem_of_mem_names_merge_intersect (h : x ∈ (merge .intersect v vs).names) :
    x ∈ v.names := by
  simp only [merge] at h
  rw [names_ofNames] at h
  · split_ifs at h
    · exact h
    · exact mem_common.1 h v List.mem_cons_self
  · intro y hy
    split_ifs at hy
    · exact isBlank_of_mem_names hy
    · exact isBlank_of_mem_names (mem_common.1 hy v List.mem_cons_self)

/-- Values are narrowed to some of the names of the first one. -/
theorem exists_mem_names_merge_intersect (h : ∃ y, y ∈ v.names) :
    ∃ y, y ∈ (merge .intersect v vs).names := by
  by_cases hshared : ∃ y, ∀ w ∈ v :: vs, y ∈ w.names
  · obtain ⟨y, hy⟩ := hshared
    exact ⟨y, (mem_names_merge_intersect ⟨y, hy⟩).2 hy⟩
  · have hcommon : (common (v :: vs)).isEmpty = true :=
      NameSet.isEmpty_iff.2 (NameSet.ext fun y =>
        iff_of_false (fun hy => hshared ⟨y, mem_common.1 hy⟩) (NameSet.not_mem_empty y))
    obtain ⟨y, hy⟩ := h
    refine ⟨y, ?_⟩
    simp only [merge, hcommon, if_true]
    rwa [names_ofNames fun z hz => isBlank_of_mem_names hz]

end Value

/-! ## Merging attributes -/

namespace Attributes

theorem mem_names_iff {a : Attributes α} {k x : String} :
    x ∈ a.names k ↔ ∃ v, a.get? k = some v ∧ x ∈ v.names := by
  rw [names]
  cases a.get? k <;> simp

omit [Scalar α] in
theorem mem_valuesAt {as : List (Attributes α)} {k : String} {v : Value α} :
    v ∈ valuesAt k as ↔ ∃ a ∈ as, a.get? k = some v := List.mem_filterMap

/-- The merged attribute of a name. -/
def merged? (r : RuleSet α) (base : Attributes α) (as : List (Attributes α)) (k : String) :
    Option (Value α) :=
  match (base.get? k).toList ++ valuesAt k as with
  | [] => none
  | v :: vs => some (.merge (r.mergeMode k) v vs)

variable {r : RuleSet α} {base : Attributes α} {as : List (Attributes α)} {k : String}

theorem get?_mergeAt (m : Attributes α) (k' : String) :
    (mergeAt r base as m k').get? k =
      if k = k' then (merged? r base as k).or (m.get? k) else m.get? k := by
  rw [mergeAt]
  by_cases hk : k = k'
  · subst hk
    rw [if_pos rfl, merged?]
    cases (base.get? k).toList ++ valuesAt k as with
    | nil => rfl
    | cons v vs => exact (Dict.get?_insert ..).trans (if_pos rfl)
  · rw [if_neg hk]
    cases (base.get? k').toList ++ valuesAt k' as with
    | nil => rfl
    | cons v vs => exact (Dict.get?_insert ..).trans (if_neg hk)

theorem get?_foldl_mergeAt (ks : List String) (m : Attributes α) :
    (ks.foldl (mergeAt r base as) m).get? k =
      if k ∈ ks then (merged? r base as k).or (m.get? k) else m.get? k := by
  induction ks generalizing m with
  | nil => simp
  | cons k' ks ih =>
    rw [List.foldl_cons, ih, get?_mergeAt]
    -- Merging the same name again changes nothing.
    by_cases hk : k = k'
    · subst hk
      cases merged? r base as k <;> simp
    · simp [hk]

omit [Scalar α] in
theorem mem_allKeys_iff : k ∈ (allKeys as).toList ↔ valuesAt k as ≠ [] := by
  rw [← NameSet.mem_def, allKeys, NameSet.mem_ofList, List.mem_flatMap, ne_eq,
    List.eq_nil_iff_forall_not_mem, not_forall_not]
  simp only [Dict.mem_keys_iff, Option.isSome_iff_exists, mem_valuesAt]
  exact ⟨fun ⟨a, ha, v, hv⟩ => ⟨v, a, ha, hv⟩, fun ⟨v, a, ha, hv⟩ => ⟨a, ha, v, hv⟩⟩

/-- What nobody else has stays, and anything else is merged. -/
theorem get?_merge : (base.merge r as).get? k =
    if valuesAt k as = [] then base.get? k else merged? r base as k := by
  simp only [merge, get?_foldl_mergeAt, mem_allKeys_iff, ite_not]
  split_ifs with h
  · rfl
  · rw [merged?]
    split
    · rename_i hnil
      exact absurd (List.append_eq_nil_iff.1 hnil).2 h
    · rfl

/-- After merging there is the value of the first attributes if nobody else has one, and
    else the values as one. -/
theorem get?_merge_cases (r : RuleSet α) (base : Attributes α) (as : List (Attributes α))
    (k : String) :
    (valuesAt k as = [] ∧ (base.merge r as).get? k = base.get? k) ∨
      ∃ v vs, (base.get? k).toList ++ valuesAt k as = v :: vs ∧
        (base.merge r as).get? k = some (.merge (r.mergeMode k) v vs) := by
  by_cases hnil : valuesAt k as = []
  · exact .inl ⟨hnil, by rw [get?_merge, if_pos hnil]⟩
  · right
    obtain ⟨v, vs, hvs⟩ := List.exists_cons_of_ne_nil
      (List.append_ne_nil_of_right_ne_nil (base.get? k).toList hnil)
    exact ⟨v, vs, hvs, by rw [get?_merge, if_neg hnil, merged?, hvs]⟩

/-! ### Names after merging -/

/-- A name of one of the values is one of the attributes. -/
theorem exists_mem_names_iff {x : String} :
    (∃ w ∈ (base.get? k).toList ++ valuesAt k as, x ∈ w.names) ↔
      x ∈ base.names k ∨ ∃ a ∈ as, x ∈ a.names k := by
  simp only [List.mem_append, Option.mem_toList, mem_valuesAt, or_and_right,
    exists_or, mem_names_iff]
  refine or_congr_right ⟨?_, ?_⟩
  · rintro ⟨w, ⟨a, ha, hw⟩, hx⟩
    exact ⟨a, ha, w, hw, hx⟩
  · rintro ⟨a, ha, w, hw, hx⟩
    exact ⟨w, ⟨a, ha, hw⟩, hx⟩

/-- If all attributes have names under `k`, a name of all values is one of all
    attributes. -/
theorem forall_mem_names_iff {x y : String} (hbase : y ∈ base.names k)
    (has : ∀ a ∈ as, y ∈ a.names k) :
    (∀ w ∈ (base.get? k).toList ++ valuesAt k as, x ∈ w.names) ↔
      x ∈ base.names k ∧ ∀ a ∈ as, x ∈ a.names k := by
  simp only [List.mem_append, Option.mem_toList, mem_valuesAt]
  constructor
  · intro h
    refine ⟨?_, fun a ha => ?_⟩
    · obtain ⟨v, hv, _⟩ := mem_names_iff.1 hbase
      exact mem_names_iff.2 ⟨v, hv, h v (.inl hv)⟩
    · obtain ⟨v, hv, _⟩ := mem_names_iff.1 (has a ha)
      exact mem_names_iff.2 ⟨v, hv, h v (.inr ⟨a, ha, hv⟩)⟩
  · rintro ⟨hx, hall⟩ w (hw | ⟨a, ha, hw⟩)
    · obtain ⟨v, hv, hxv⟩ := mem_names_iff.1 hx
      obtain rfl : v = w := Option.some_inj.1 (hv.symm.trans hw)
      exact hxv
    · obtain ⟨v, hv, hxv⟩ := mem_names_iff.1 (hall a ha)
      obtain rfl : v = w := Option.some_inj.1 (hv.symm.trans hw)
      exact hxv

/-- The names after merging are those of a value that is merged, or those of the
    first attributes if nobody else has a value. -/
theorem names_merge_cases (r : RuleSet α) (base : Attributes α) (as : List (Attributes α))
    (k : String) :
    ((base.get? k).toList ++ valuesAt k as = (base.get? k).toList ∧
        (base.merge r as).names k = base.names k) ∨
      ∃ v vs, (base.get? k).toList ++ valuesAt k as = v :: vs ∧
        (base.merge r as).names k = (Value.merge (r.mergeMode k) v vs).names := by
  refine (get?_merge_cases r base as k).imp (fun ⟨hnil, hget⟩ => ?_) fun ⟨v, vs, hvs, hget⟩ => ?_
  · rw [names, hget, hnil]
    exact ⟨List.append_nil _, rfl⟩
  · refine ⟨v, vs, hvs, ?_⟩
    rw [names, hget]
    rfl

variable [Scalar.Visible α] {x : String}

/-- What is united has the names of all attributes. -/
theorem mem_names_merge_of_union (h : r.mergeMode k = .union) :
    x ∈ (base.merge r as).names k ↔ x ∈ base.names k ∨ ∃ a ∈ as, x ∈ a.names k := by
  rw [← exists_mem_names_iff]
  rcases names_merge_cases r base as k with ⟨hvalues, hnames⟩ | ⟨v, vs, hvalues, hnames⟩
  · rw [hnames, hvalues, mem_names_iff]
    simp
  · rw [hnames, hvalues, h, Value.mem_names_merge_union]

/-- What is narrowed has the names that all attributes share, if they share some. -/
theorem mem_names_merge_of_intersect (h : r.mergeMode k = .intersect) {y : String}
    (hbase : y ∈ base.names k) (has : ∀ a ∈ as, y ∈ a.names k) :
    x ∈ (base.merge r as).names k ↔ x ∈ base.names k ∧ ∀ a ∈ as, x ∈ a.names k := by
  rw [← forall_mem_names_iff hbase has]
  rcases names_merge_cases r base as k with ⟨hvalues, hnames⟩ | ⟨v, vs, hvalues, hnames⟩
  · obtain ⟨v, hv, _⟩ := mem_names_iff.1 hbase
    rw [hnames, hvalues, mem_names_iff]
    simp [hv]
  · rw [hnames, hvalues, h, Value.mem_names_merge_intersect]
    exact ⟨y, hvalues ▸ (forall_mem_names_iff hbase has).2 ⟨hbase, has⟩⟩

/-- What is narrowed has no names that nobody had. -/
theorem exists_of_mem_names_merge (h : r.mergeMode k = .intersect)
    (hx : x ∈ (base.merge r as).names k) : x ∈ base.names k ∨ ∃ a ∈ as, x ∈ a.names k := by
  rcases names_merge_cases r base as k with ⟨_, hnames⟩ | ⟨v, vs, hvalues, hnames⟩
  · exact .inl (hnames ▸ hx)
  · rw [← exists_mem_names_iff, hvalues]
    rw [hnames, h] at hx
    exact ⟨v, List.mem_cons_self, Value.mem_of_mem_names_merge_intersect hx⟩

/-- What is narrowed keeps some of the names of the first attributes, if these have
    some. -/
theorem narrows_merge (h : r.mergeMode k = .intersect) (hbase : ∃ y, y ∈ base.names k) :
    (∃ y, y ∈ (base.merge r as).names k) ∧
      ∀ x ∈ (base.merge r as).names k, x ∈ base.names k := by
  rcases names_merge_cases r base as k with ⟨_, hnames⟩ | ⟨v, vs, hvalues, hnames⟩
  · rw [hnames]
    exact ⟨hbase, fun _ => id⟩
  · -- The first value is that of the first attributes.
    obtain ⟨w, hw, _⟩ := mem_names_iff.1 hbase.choose_spec
    rw [hw, Option.toList_some, List.singleton_append, List.cons.injEq] at hvalues
    have hv : base.names k = v.names := by
      rw [names, hw, hvalues.1]
      rfl
    rw [hnames, h, hv]
    exact ⟨Value.exists_mem_names_merge_intersect (hv ▸ hbase),
      fun _ => Value.mem_of_mem_names_merge_intersect⟩

end Attributes

/-! ## Attributes of tickets -/

theorem Ticket.isBlank_of_mem_optionNames [Scalar.Visible α] {t : Ticket α} {k x : String}
    (hx : x ∈ t.optionNames k) : isBlank x = false := by
  rw [optionNames] at hx
  split at hx
  · exact Value.isBlank_of_mem_names hx
  · obtain hx | ⟨m, _, hx⟩ := NameSet.mem_foldl_union.1 hx
    · exact absurd hx (NameSet.not_mem_empty x)
    · exact Attributes.isBlank_of_mem_names hx

namespace RuleSet

theorem get?_liftKey (t : Ticket α) (a : Attributes α) (k' k : String) :
    (liftKey t a k').get? k =
      if k = k' ∧ a.get? k = none ∧ (t.optionNames k).isEmpty = false then
        some (.ofNames (t.optionNames k))
      else a.get? k := by
  rw [liftKey]
  by_cases hk : k = k'
  · subst hk
    rw [Dict.contains]
    split_ifs <;> simp_all
  · split_ifs <;> simp_all

/-- What is lifted are the names of members, where the party has no value. -/
theorem get?_foldl_liftKey (t : Ticket α) (ks : List String) (a : Attributes α) (k : String) :
    (ks.foldl (liftKey t) a).get? k =
      if k ∈ ks ∧ a.get? k = none ∧ (t.optionNames k).isEmpty = false then
        some (.ofNames (t.optionNames k))
      else a.get? k := by
  induction ks generalizing a with
  | nil => simp
  | cons k' ks ih =>
    rw [List.foldl_cons, ih, get?_liftKey]
    by_cases hk : k = k'
    · subst hk
      split_ifs <;> simp_all
    · simp [hk]

/-- Under a name that counts for parties, the attributes of a ticket have the names
    that it offers. -/
theorem names_ticketAttributes [Scalar.Visible α] (r : RuleSet α) (t : Ticket α) {k : String}
    (hk : k ∈ r.liftedKeys) (hblocked : k ≠ Key.blockedPlayers) :
    (r.ticketAttributes t).names k = t.optionNames k := by
  have hget : (r.ticketAttributes t).get? k =
      (r.liftedKeys.foldl (liftKey t) t.attributes).get? k := by
    rw [ticketAttributes]
    split_ifs
    · rfl
    · exact (Dict.get?_insert ..).trans (if_neg hblocked)
  rw [Attributes.names, hget, get?_foldl_liftKey]
  split_ifs with h
  · rw [Option.map_some, Option.getD_some, Value.names_ofNames]
    exact fun _ hx => Ticket.isBlank_of_mem_optionNames hx
  · cases hv : t.attributes.get? k with
    | some v => simp [Ticket.optionNames, hv]
    | none =>
      have hempty : (t.optionNames k).isEmpty = true := by simpa [hk, hv] using h
      rw [NameSet.isEmpty_iff.1 hempty]
      rfl

/-! ## Attributes of sessions -/

omit [Scalar α] in
/-- How an attribute is merged depends on the options alone. -/
theorem mergeMode_congr {r r' : RuleSet α} (h : r.options = r'.options) :
    r.mergeMode = r'.mergeMode := by
  funext k
  simp only [mergeMode, optionKind?, h]

theorem ticketAttributes_congr {r r' : RuleSet α} (h : r.options = r'.options) :
    r.ticketAttributes = r'.ticketAttributes := by
  funext t
  simp only [ticketAttributes, liftedKeys, h]

theorem merge_congr {r r' : RuleSet α} (h : r.options = r'.options) (a : Attributes α)
    (as : List (Attributes α)) : a.merge r as = a.merge r' as := by
  have hat : Attributes.mergeAt r a as = Attributes.mergeAt r' a as := by
    funext m k
    rw [Attributes.mergeAt, Attributes.mergeAt, mergeMode_congr h]
  rw [Attributes.merge, Attributes.merge, hat]

theorem sessionAttributes_congr {r r' : RuleSet α} (h : r.options = r'.options)
    (t : Ticket α) (ts : List (Ticket α)) :
    r.sessionAttributes t ts = r'.sessionAttributes t ts := by
  rw [sessionAttributes, sessionAttributes, ticketAttributes_congr h, merge_congr h]

/-- Attributes are those of tickets, merged: of the tickets that a session is formed
    of, and of each one that joins it. -/
inductive Records (r : RuleSet α) : Attributes α → List (Ticket α) → Prop
  | formed (t : Ticket α) (ts : List (Ticket α)) : Records r (r.sessionAttributes t ts) (t :: ts)
  | joined {a : Attributes α} {ts : List (Ticket α)} (h : Records r a ts) (t : Ticket α) :
    Records r (a.merge r [r.ticketAttributes t]) (ts ++ [t])

namespace Records

theorem congr {r r' : RuleSet α} {a : Attributes α} {ts : List (Ticket α)} (h : r.Records a ts)
    (hr : r.options = r'.options) : r'.Records a ts := by
  induction h with
  | formed t ts =>
    rw [sessionAttributes_congr hr]
    exact .formed t ts
  | joined _ t ih =>
    rw [merge_congr hr, ticketAttributes_congr hr]
    exact ih.joined t

variable [Scalar.Visible α] {r : RuleSet α} {a : Attributes α} {ts : List (Ticket α)}
  {k x : String}

theorem mem_names_of_union (h : r.Records a ts) (hk : k ∈ r.liftedKeys)
    (hblocked : k ≠ Key.blockedPlayers) (hmode : r.mergeMode k = .union) :
    x ∈ a.names k ↔ ∃ t ∈ ts, x ∈ t.optionNames k := by
  induction h with
  | formed t ts =>
    rw [sessionAttributes, Attributes.mem_names_merge_of_union hmode]
    simp [r.names_ticketAttributes _ hk hblocked]
  | joined _ t ih =>
    rw [Attributes.mem_names_merge_of_union hmode, ih]
    simp [r.names_ticketAttributes _ hk hblocked, or_and_right, exists_or]

theorem mem_names_of_intersect (h : r.Records a ts) (hk : k ∈ r.liftedKeys)
    (hblocked : k ≠ Key.blockedPlayers) (hmode : r.mergeMode k = .intersect)
    (hshared : ∃ y, ∀ t ∈ ts, y ∈ t.optionNames k) :
    x ∈ a.names k ↔ ∀ t ∈ ts, x ∈ t.optionNames k := by
  obtain ⟨y, hy⟩ := hshared
  induction h generalizing x with
  | formed t ts =>
    rw [List.forall_mem_cons] at hy
    rw [sessionAttributes, Attributes.mem_names_merge_of_intersect hmode (y := y)]
    · simp [r.names_ticketAttributes _ hk hblocked]
    · rw [r.names_ticketAttributes t hk hblocked]
      exact hy.1
    · simpa [r.names_ticketAttributes _ hk hblocked] using hy.2
  | joined h t ih =>
    rw [List.forall_mem_append] at hy
    rw [Attributes.mem_names_merge_of_intersect hmode (y := y), ih hy.1]
    · simp [r.names_ticketAttributes _ hk hblocked, or_imp, forall_and]
    · exact (ih hy.1).2 hy.1
    · simpa [r.names_ticketAttributes _ hk hblocked] using hy.2

/-- What is narrowed has no names that no ticket offers. -/
theorem exists_of_mem_names (h : r.Records a ts) (hk : k ∈ r.liftedKeys)
    (hblocked : k ≠ Key.blockedPlayers) (hmode : r.mergeMode k = .intersect)
    (hx : x ∈ a.names k) : ∃ t ∈ ts, x ∈ t.optionNames k := by
  induction h with
  | formed t ts =>
    have := Attributes.exists_of_mem_names_merge hmode hx
    simpa [r.names_ticketAttributes _ hk hblocked] using this
  | joined _ t ih =>
    rcases Attributes.exists_of_mem_names_merge hmode hx with hx | hx
    · exact (ih hx).imp fun u hu => ⟨List.mem_append_left _ hu.1, hu.2⟩
    · refine ⟨t, List.mem_append_right _ (List.mem_singleton_self t), ?_⟩
      simpa [r.names_ticketAttributes _ hk hblocked] using hx

omit [Scalar.Visible α] in
theorem head?_isSome (h : r.Records a ts) : ts.head?.isSome = true := by
  cases h with
  | formed t ts => rfl
  | joined _ t => simp

/-- What is narrowed has some of the names of the first ticket and no others, if that
    one offers some. -/
theorem narrows_head (h : r.Records a ts) (hk : k ∈ r.liftedKeys)
    (hblocked : k ≠ Key.blockedPlayers) (hmode : r.mergeMode k = .intersect) {t : Ticket α}
    (ht : ts.head? = some t) (hoffers : ∃ y, y ∈ t.optionNames k) :
    (∃ y, y ∈ a.names k) ∧ ∀ x ∈ a.names k, x ∈ t.optionNames k := by
  induction h with
  | formed u us =>
    obtain rfl : u = t := Option.some_inj.1 ht
    rw [← r.names_ticketAttributes u hk hblocked] at hoffers ⊢
    exact Attributes.narrows_merge hmode hoffers
  | @joined a us h u ih =>
    obtain ⟨v, hv⟩ := Option.isSome_iff_exists.1 h.head?_isSome
    rw [List.head?_append, hv, Option.some_or] at ht
    obtain ⟨hsome, hsubset⟩ := ih (hv.trans ht)
    obtain ⟨hmerged, hmerged_subset⟩ := Attributes.narrows_merge hmode hsome
    exact ⟨hmerged, fun x hx => hsubset x (hmerged_subset x hx)⟩

end Records

end RuleSet

end Matchmaking
