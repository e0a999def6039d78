import Matchmaking.Json.Reader
import Matchmaking.Proofs.Json.Token

/-!
# Written values are read back

A value is written as the text of its tokens (`Json.spells_render`), and its tokens make that
value, whatever lists and objects are open around it (`Json.Progress.builds_tokens`). So a value that
can be written is read as it is (`Json.readAsWritten?_render`). The names of its fields are
distinct and its lists and objects are not too deep, so that it is settled and held as it is, too
(`Json.read?_render`).

What a scalar is written as is up to the caller. It is taken to be a word that is read as that
scalar, for the scalars that have one (`Json.Spelling`).
-/

namespace Matchmaking

namespace Json

variable {α : Type} {number : α → String} {finite : α → Prop} {room : Nat} {j : Json α}

/-- A way to write the finite ones among the scalars, so that they are read back. That a word
    denotes the scalar of which it is the spelling is granted, as numbers of JSON have it: a
    reader of doubles that does its best but does not round exactly may miss the last bit of
    one, such as that of the mean 271/3. -/
structure Spelling [Scalar α] (number : α → String) (finite : α → Prop) : Prop where
  /-- A scalar is written as a word. -/
  isWord : ∀ x, finite x → ∀ c ∈ (number x).toList, isWordChar c = true
  /-- The word denotes the scalar. -/
  denotes : ∀ x, finite x → word? (number x).toList = some (.real x)

/-- A value that can be written, of at most `room` lists and objects around one another: its
    whole numbers fit words, its scalars are finite, and the fields of an object have different
    names. -/
inductive Writable (finite : α → Prop) : Nat → Json α → Prop
  | null {room : Nat} : Writable finite room .null
  | bool {room : Nat} (b : Bool) : Writable finite room (.bool b)
  | int {room : Nat} {n : Int} (hlow : -(Word.half : Int) ≤ n) (hhigh : n < Word.size) :
    Writable finite room (.int n)
  | real {room : Nat} {x : α} (h : finite x) : Writable finite room (.real x)
  | str {room : Nat} (s : String) : Writable finite room (.str s)
  | arr {room : Nat} {items : List (Json α)} (h : ∀ j ∈ items, Writable finite room j) :
    Writable finite (room + 1) (.arr items)
  | obj {room : Nat} {fields : List (String × Json α)} (hnames : (fields.map (·.1)).Nodup)
    (h : ∀ f ∈ fields, Writable finite room f.2) : Writable finite (room + 1) (.obj fields)

/-! ## The tokens of a value -/

mutual

/-- The tokens of a value. -/
def tokens : Json α → List (Token α)
  | .str s => [.text (some s)]
  | .arr [] => [.mark '[', .mark ']']
  | .arr (j :: js) => .mark '[' :: (tokens j ++ (itemTokens js ++ [.mark ']']))
  | .obj [] => [.mark '\x7b', .mark '\x7d']
  | .obj ((k, j) :: fs) =>
    .mark '\x7b' :: .text (some k) :: .mark ':' ::
      (tokens j ++ (fieldTokens fs ++ [.mark '\x7d']))
  | j => [.atom j]

/-- The tokens of the items after the first of a list. -/
def itemTokens : List (Json α) → List (Token α)
  | [] => []
  | j :: js => .mark ',' :: (tokens j ++ itemTokens js)

/-- The tokens of the fields after the first of an object. -/
def fieldTokens : List (String × Json α) → List (Token α)
  | [] => []
  | (k, j) :: fs => .mark ',' :: .text (some k) :: .mark ':' :: (tokens j ++ fieldTokens fs)

end

/-! ## From texts to tokens -/

section Scan

variable [Scalar α] (number : α → String) (depth : Nat)

omit [Scalar α] in
theorem toList_renderItems_cons (j : Json α) (js : List (Json α)) :
    (renderItems number depth (j :: js)).toList =
      ',' :: ((line depth).toList ++ ((renderAt number depth j).toList ++
        (renderItems number depth js).toList)) := by
  simp [renderItems]

omit [Scalar α] in
theorem toList_renderFields_cons (k : String) (j : Json α) (fs : List (String × Json α)) :
    (renderFields number depth ((k, j) :: fs)).toList =
      ',' :: ((line depth).toList ++ ((quote k).toList ++ (':' :: ' ' ::
        ((renderAt number depth j).toList ++ (renderFields number depth fs).toList)))) := by
  simp [renderFields]

omit [Scalar α] in
theorem toList_renderAt_arr (j : Json α) (js : List (Json α)) :
    (renderAt number depth (.arr (j :: js))).toList =
      '[' :: ((line (depth + 1)).toList ++ ((renderAt number (depth + 1) j).toList ++
        ((renderItems number (depth + 1) js).toList ++ ((line depth).toList ++ [']'])))) := by
  simp [renderAt]

omit [Scalar α] in
theorem toList_renderAt_obj (k : String) (j : Json α) (fs : List (String × Json α)) :
    (renderAt number depth (.obj ((k, j) :: fs))).toList =
      '\x7b' :: ((line (depth + 1)).toList ++ ((quote k).toList ++ (':' :: ' ' ::
        ((renderAt number (depth + 1) j).toList ++
          ((renderFields number (depth + 1) fs).toList ++ ((line depth).toList ++ ['\x7d'])))))) := by
  simp [renderAt]

variable {number depth}

omit [Scalar α] in
theorem endsWord_renderItems (js : List (Json α)) {v : List Char} (hv : EndsWord v) :
    EndsWord ((renderItems number depth js).toList ++ v) := by
  cases js with
  | nil => exact hv
  | cons j js =>
    rw [toList_renderItems_cons]
    exact endsWord_cons rfl

omit [Scalar α] in
theorem endsWord_renderFields (fs : List (String × Json α)) {v : List Char} (hv : EndsWord v) :
    EndsWord ((renderFields number depth fs).toList ++ v) := by
  cases fs with
  | nil => exact hv
  | cons f fs =>
    rw [toList_renderFields_cons]
    exact endsWord_cons rfl

/-- The items after the first, and what follows them. -/
theorem spells_renderItems {js : List (Json α)} {v : List Char} {vs : List (Token α)}
    (h : ∀ j ∈ js, Spells (renderAt number depth j).toList (tokens j)) (hv : Spells v vs)
    (hends : EndsWord v) :
    Spells ((renderItems number depth js).toList ++ v) (itemTokens js ++ vs) := by
  induction js with
  | nil => exact hv
  | cons j js ih =>
    obtain ⟨hj, hjs⟩ := List.forall_mem_cons.1 h
    rw [toList_renderItems_cons, itemTokens]
    simp only [List.cons_append, List.append_assoc]
    exact Spells.mark_cons rfl (Spells.line_append depth
      (hj.append (ih hjs) (endsWord_renderItems js hends)))

/-- The fields after the first, and what follows them. -/
theorem spells_renderFields {fs : List (String × Json α)} {v : List Char} {vs : List (Token α)}
    (h : ∀ f ∈ fs, Spells (renderAt number depth f.2).toList (tokens f.2)) (hv : Spells v vs)
    (hends : EndsWord v) :
    Spells ((renderFields number depth fs).toList ++ v) (fieldTokens fs ++ vs) := by
  induction fs with
  | nil => exact hv
  | cons f fs ih =>
    obtain ⟨hf, hfs⟩ := List.forall_mem_cons.1 h
    rw [toList_renderFields_cons, fieldTokens]
    simp only [List.cons_append, List.append_assoc]
    exact Spells.mark_cons rfl (Spells.line_append depth (Spells.quote_append _
      (Spells.mark_cons rfl (Spells.gap_cons rfl
        (hf.append (ih hfs) (endsWord_renderFields fs hends))))))

/-- A value is written as the text of its tokens. -/
theorem spells_render (h : Spelling number finite) (hj : Writable finite room j) (depth : Nat) :
    Spells (renderAt number depth j).toList (tokens j) := by
  induction hj generalizing depth with
  | null =>
    rw [renderAt]
    exact spells_word (List.all_eq_true.1 (by decide)) rfl
  | bool b =>
    rw [renderAt]
    cases b with
    | false => exact spells_word (u := "false".toList) (List.all_eq_true.1 (by decide)) rfl
    | true => exact spells_word (u := "true".toList) (List.all_eq_true.1 (by decide)) rfl
  | int hlow hhigh => exact spells_word (fun _ => isWordChar_of_mem_toString) (word?_int hlow hhigh)
  | real hx => exact spells_word (h.isWord _ hx) (h.denotes _ hx)
  | str s =>
    have hquote := Spells.quote_append s (spells_nil (α := α))
    rwa [List.append_nil] at hquote
  | @arr _ items _ ih =>
    cases items with
    | nil =>
      rw [renderAt, tokens]
      exact Spells.mark_cons (c := '[') rfl (Spells.mark_cons (c := ']') rfl spells_nil)
    | cons j js =>
      obtain ⟨hj, hjs⟩ := List.forall_mem_cons.1 ih
      rw [toList_renderAt_arr, tokens]
      have hclose : Spells ((line depth).toList ++ [']']) [(.mark ']' : Token α)] :=
        Spells.line_append depth (Spells.mark_cons rfl spells_nil)
      have hends : EndsWord ((line depth).toList ++ [']']) := endsWord_line depth
      exact Spells.mark_cons rfl (Spells.line_append _ ((hj (depth + 1)).append
        (spells_renderItems (fun j hj => hjs j hj (depth + 1)) hclose hends)
        (endsWord_renderItems js hends)))
  | @obj _ fields _ _ ih =>
    cases fields with
    | nil =>
      rw [renderAt, tokens]
      exact Spells.mark_cons (c := '\x7b') rfl (Spells.mark_cons (c := '\x7d') rfl spells_nil)
    | cons f fs =>
      obtain ⟨hf, hfs⟩ := List.forall_mem_cons.1 ih
      rw [toList_renderAt_obj, tokens]
      have hclose : Spells ((line depth).toList ++ ['\x7d']) [(.mark '\x7d' : Token α)] :=
        Spells.line_append depth (Spells.mark_cons rfl spells_nil)
      have hends : EndsWord ((line depth).toList ++ ['\x7d']) := endsWord_line depth
      exact Spells.mark_cons rfl (Spells.line_append _ (Spells.quote_append _
        (Spells.mark_cons rfl (Spells.gap_cons rfl ((hf (depth + 1)).append
          (spells_renderFields (fun f hf => hfs f hf (depth + 1)) hclose hends)
          (endsWord_renderFields fs hends))))))

end Scan

/-! ## From tokens to values -/

namespace Progress

variable {stack : List (Open α)} {rest us : List (Token α)}

/-- Tokens that make a value where one may come, whatever is open and whatever follows. -/
def Builds (us : List (Token α)) (j : Json α) : Prop :=
  ∀ stack rest, steps? ⟨stack, .value⟩ (us ++ rest) = steps? (push j stack) rest

theorem steps?_cons {p q : Progress α} {t : Token α} (h : p.step? t = some q) :
    steps? p (t :: rest) = steps? q rest := by
  rw [steps?, h]

/-- No value begins with the end of a list. -/
theorem tokens_eq_cons (j : Json α) : ∃ t us, tokens j = t :: us ∧ t ≠ .mark ']' := by
  cases j with
  | arr items =>
    cases items with
    | nil => exact ⟨_, _, rfl, by simp⟩
    | cons j js => exact ⟨_, _, by rw [tokens], by simp⟩
  | obj fields =>
    cases fields with
    | nil => exact ⟨_, _, rfl, by simp⟩
    | cons f fs => exact ⟨_, _, by rw [tokens], by simp⟩
  | null | bool _ | int _ | real _ | str _ | beyond => exact ⟨_, _, rfl, nofun⟩

/-- The first item of a list is made as any value. -/
theorem steps?_valueOrEnd (j : Json α) :
    steps? ⟨stack, .valueOrEnd⟩ (tokens j ++ rest) = steps? ⟨stack, .value⟩ (tokens j ++ rest) := by
  obtain ⟨t, us, htokens, ht⟩ := tokens_eq_cons j
  have hstep : step? ⟨stack, .valueOrEnd⟩ t = step? ⟨stack, .value⟩ t := by
    simp only [step?]
  rw [htokens, List.cons_append, steps?, steps?, hstep]

theorem steps?_items {js done : List (Json α)} (h : ∀ j ∈ js, Builds (tokens j) j) :
    steps? ⟨.list done :: stack, .more⟩ (itemTokens js ++ (.mark ']' :: rest)) =
      steps? (push (.arr (done.reverse ++ js)) stack) rest := by
  induction js generalizing done with
  | nil =>
    rw [List.append_nil]
    exact steps?_cons rfl
  | cons j js ih =>
    obtain ⟨hj, hjs⟩ := List.forall_mem_cons.1 h
    rw [itemTokens, List.cons_append, List.append_assoc, steps?_cons rfl, hj]
    show steps? ⟨.list (j :: done) :: stack, .more⟩ _ = _
    rw [ih hjs, List.reverse_cons, List.append_assoc, List.singleton_append]

theorem steps?_fields {fs done : List (String × Json α)} {name : Option String}
    (h : ∀ f ∈ fs, Builds (tokens f.2) f.2) :
    steps? ⟨.object (some done) name :: stack, .more⟩
        (fieldTokens fs ++ (.mark '\x7d' :: rest)) =
      steps? (push (.obj (done.reverse ++ fs)) stack) rest := by
  induction fs generalizing done name with
  | nil =>
    rw [List.append_nil]
    exact steps?_cons rfl
  | cons f fs ih =>
    obtain ⟨hf, hfs⟩ := List.forall_mem_cons.1 h
    rw [fieldTokens]
    simp only [List.cons_append, List.append_assoc]
    -- A comma, the name and a colon stand before the value.
    rw [steps?_cons rfl, steps?_cons rfl, steps?_cons rfl, hf]
    show steps? ⟨.object (some (f :: done)) (some f.1) :: stack, .more⟩ _ = _
    rw [ih hfs, List.reverse_cons, List.append_assoc, List.singleton_append]

/-- The tokens of a value make it. -/
theorem builds_tokens (hj : Writable finite room j) : Builds (tokens j) j := fun stack rest => by
  -- The items of a list are made inside of it, so that what is open has to be general.
  induction hj generalizing stack rest with
  | null | bool _ | int _ _ | real _ | str _ => exact steps?_cons rfl
  | @arr _ items _ ih =>
    cases items with
    | nil => exact (steps?_cons rfl).trans (steps?_cons rfl)
    | cons j js =>
      obtain ⟨hj, hjs⟩ := List.forall_mem_cons.1 ih
      rw [tokens]
      simp only [List.cons_append, List.append_assoc, List.nil_append]
      rw [steps?_cons rfl, steps?_valueOrEnd, hj]
      exact steps?_items hjs
  | @obj _ fields _ _ ih =>
    cases fields with
    | nil => exact (steps?_cons rfl).trans (steps?_cons rfl)
    | cons f fs =>
      obtain ⟨hf, hfs⟩ := List.forall_mem_cons.1 ih
      rw [tokens]
      simp only [List.cons_append, List.append_assoc, List.nil_append]
      rw [steps?_cons rfl, steps?_cons rfl, steps?_cons rfl, hf]
      exact steps?_fields hfs

end Progress

/-! ## From texts to values -/

variable [Scalar α]

/-- A value that can be written is read as it is. -/
theorem readAsWritten?_render (h : Spelling number finite) (hj : Writable finite room j) :
    readAsWritten? (j.render number) = some j := by
  have htokens : tokens? (j.render number) = some (tokens j) :=
    (spells_render h hj 0).scan?_eq_some
  have hsteps := Progress.builds_tokens hj [] []
  rw [List.append_nil] at hsteps
  rw [readAsWritten?, htokens, Option.bind_eq_bind, Option.bind_some, hsteps]
  rfl

/-! ## Values as they are held -/

section Settle

omit [Scalar α]

theorem areHeld_of_forall {js : List (Json α)} (h : ∀ j ∈ js, isHeld room j = true) :
    areHeld room js = true := by
  induction js with
  | nil => rfl
  | cons j js ih =>
    obtain ⟨hj, hjs⟩ := List.forall_mem_cons.1 h
    rw [areHeld, hj, ih hjs, Bool.and_self]

theorem areFieldsHeld_of_forall {fs : List (String × Json α)}
    (h : ∀ f ∈ fs, isHeld room f.2 = true) : areFieldsHeld room fs = true := by
  induction fs with
  | nil => rfl
  | cons f fs ih =>
    obtain ⟨hf, hfs⟩ := List.forall_mem_cons.1 h
    rw [areFieldsHeld, hf, ih hfs, Bool.and_self]

theorem Writable.isHeld (hj : Writable finite room j) {most : Nat} (h : room ≤ most) :
    isHeld most j = true := by
  induction hj generalizing most with
  | arr _ ih =>
    cases most with
    | zero => cases h
    | succ most =>
      exact areHeld_of_forall fun j hj => ih j hj (Nat.le_of_succ_le_succ h)
  | obj _ _ ih =>
    cases most with
    | zero => cases h
    | succ most =>
      exact areFieldsHeld_of_forall fun f hf => ih f hf (Nat.le_of_succ_le_succ h)
  | _ => cases most <;> rfl

theorem settleItems_eq_self {js : List (Json α)} (h : ∀ j ∈ js, settle j = j) :
    settleItems js = js := by
  induction js with
  | nil => rfl
  | cons j js ih =>
    obtain ⟨hj, hjs⟩ := List.forall_mem_cons.1 h
    rw [settleItems, hj, ih hjs]

theorem setField_of_not_mem {k : String} {v : Json α} {fs : List (String × Json α)}
    (h : k ∉ fs.map (·.1)) : setField k v fs = fs ++ [(k, v)] := by
  induction fs with
  | nil => rfl
  | cons f fs ih =>
    rw [List.map_cons, List.mem_cons, not_or] at h
    rw [setField, if_neg (Ne.symm h.1), ih h.2, List.cons_append]

theorem settleFields_eq_append {before fs : List (String × Json α)}
    (h : ∀ f ∈ fs, settle f.2 = f.2) (hnames : ((before ++ fs).map (·.1)).Nodup) :
    settleFields before fs = before ++ fs := by
  induction fs generalizing before with
  | nil => rw [settleFields, List.append_nil]
  | cons f fs ih =>
    obtain ⟨hf, hfs⟩ := List.forall_mem_cons.1 h
    have hnot : f.1 ∉ before.map (·.1) := fun hmem => by
      rw [List.map_append, List.map_cons, List.nodup_append] at hnames
      exact hnames.2.2 _ hmem _ List.mem_cons_self rfl
    rw [settleFields, hf, setField_of_not_mem hnot, ih hfs (by simpa using hnames),
      List.append_assoc, List.singleton_append]

theorem Writable.settle_eq_self (hj : Writable finite room j) : settle j = j := by
  induction hj with
  | arr _ ih => rw [settle, settleItems_eq_self ih]
  | obj hnames _ ih =>
    rw [← List.nil_append (List.map _ _), ← List.map_nil, ← List.map_append] at hnames
    rw [settle, settleFields_eq_append ih hnames, List.nil_append]
  | _ => rfl

end Settle

/-- A value that can be written and is not too deep is held as it is. -/
theorem read?_render (h : Spelling number finite) (hj : Writable finite room j)
    (hroom : room ≤ maxDepth) : read? (j.render number) = some j := by
  rw [read?, readAsWritten?_render h hj, Option.bind_eq_bind, Option.bind_some,
    hj.isHeld hroom, hj.settle_eq_self]
  rfl

end Json

end Matchmaking
