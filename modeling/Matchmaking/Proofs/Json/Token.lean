import Matchmaking.Json.Printer
import Matchmaking.Json.Token
import Matchmaking.Proofs.Numeral

/-!
# Texts of tokens

A text spells some tokens if these are what the scanner makes of it, whatever it has seen before
and whatever follows that does not go on with a word (`Json.Spells`). The pieces of a written
value are put before what spells the rest: blanks and marks (`Json.Spells.line_append`,
`Json.Spells.mark_cons`), quoted texts, of which every character is read back from what it is written
as (`Json.scan?_quoteChar`, `Json.Spells.quote_append`), and words, which end where the rest begins
(`Json.spells_word`, `Json.Spells.append`). Whole numbers are such words (`Json.word?_int`).
-/

namespace Matchmaking

namespace Json

variable {α : Type} [Scalar α] {ts us vs : List (Token α)} {u v cs : List Char}

/-! ## Where words end -/

/-- No character of a word stands at the head of the characters. -/
def EndsWord (cs : List Char) : Prop := ∀ c ∈ cs.head?, isWordChar c = false

theorem endsWord_nil : EndsWord [] := fun _ h => nomatch h

theorem endsWord_cons {c : Char} (h : isWordChar c = false) : EndsWord (c :: cs) :=
  fun _ hd => Option.some.inj hd ▸ h

theorem EndsWord.append (hv : EndsWord v) (hcs : EndsWord cs) : EndsWord (v ++ cs) := by
  cases v with
  | nil => exact hcs
  | cons c v => exact hv

/-- A text of which the scanner makes some tokens. -/
def Spells (u : List Char) (us : List (Token α)) : Prop :=
  ∀ ts cs, EndsWord cs → scan? .outside ts (u ++ cs) = scan? .outside (us.reverse ++ ts) cs

theorem spells_nil : Spells [] ([] : List (Token α)) := fun _ _ _ => rfl

theorem Spells.append (hu : Spells u us) (hv : Spells v vs) (hends : EndsWord v) :
    Spells (u ++ v) (us ++ vs) := fun ts cs hcs => by
  rw [List.append_assoc, hu ts (v ++ cs) (hends.append hcs), hv _ cs hcs, List.reverse_append,
    List.append_assoc]

/-- What is spelled by a whole text. -/
theorem Spells.scan?_eq_some (hu : Spells u us) : scan? .outside [] u = some us := by
  have hscan := hu [] [] endsWord_nil
  rw [List.append_nil, List.append_nil] at hscan
  rw [hscan]
  exact congrArg some (List.reverse_reverse us)

/-! ## One character -/

section Step

variable {c : Char} {done : List Char} {codes : List Nat} {left value digit : Nat}

/-- The scanner goes on where a character takes it. -/
theorem scan?_cons (place : Place) (ts : List (Token α)) (c : Char) (cs : List Char) :
    scan? place ts (c :: cs) = (advance? ts place c).bind fun next => scan? next.1 next.2 cs := by
  rw [scan?]
  cases advance? ts place c <;> rfl

theorem scan?_outside_cons {next : Place × List (Token α)} (h : start? ts c = some next) :
    scan? .outside ts (c :: cs) = scan? next.1 next.2 cs := by
  rw [scan?_cons]
  show (start? ts c).bind _ = _
  rw [h, Option.bind_some]

theorem advance?_word (h : isWordChar c = true) :
    advance? ts (.word done) c = some (.word (c :: done), ts) := if_pos h

theorem advance?_word_end {j : Json α} (h : isWordChar c = false)
    (hword : word? done.reverse = some j) :
    advance? ts (.word done) c = advance? (.atom j :: ts) .outside c := by
  show (if isWordChar c = true then _ else (word? done.reverse).bind _) = _
  rw [if_neg (Bool.eq_false_iff.1 h), hword]
  rfl

theorem advance?_quoted (hquote : c ≠ '"') (hbackslash : c ≠ '\\') (hprintable : ¬ c.toNat < 32) :
    advance? ts (.quoted codes) c = some (.quoted (c.toNat :: codes), ts) :=
  (if_neg hquote).trans ((if_neg hbackslash).trans (if_neg hprintable))

theorem advance?_unit (h : Radix.digit? 16 c = some digit) :
    advance? ts (.unit codes left value) c =
      some (if left = 1 then .quoted ((16 * value + digit) :: codes)
        else .unit codes (left - 1) (16 * value + digit), ts) := by
  show (Radix.digit? 16 c).bind _ = _
  rw [h, Option.bind_some]
  split <;> rfl

omit [Scalar α] in
theorem start?_of_isGap (h : isGap c = true) : start? ts c = some (.outside, ts) := if_pos h

omit [Scalar α] in
theorem start?_of_isMark (h : isMark c = true) : start? ts c = some (.outside, .mark c :: ts) := by
  have hgap : isGap c = false := by
    simp only [isMark, Bool.or_eq_true, beq_iff_eq] at h
    rcases h with ((((rfl | rfl) | rfl) | rfl) | rfl) | rfl <;> rfl
  exact (if_neg (Bool.eq_false_iff.1 hgap)).trans (if_pos h)

omit [Scalar α] in
theorem start?_of_isWordChar (h : isWordChar c = true) : start? ts c = some (.word [c], ts) := by
  have hgap : isGap c = false := Bool.eq_false_iff.2 fun hgap => by
    simp only [isGap, Bool.or_eq_true, beq_iff_eq] at hgap
    rcases hgap with ((rfl | rfl) | rfl) | rfl <;> exact absurd h (by decide)
  have hmark : isMark c = false := Bool.eq_false_iff.2 fun hmark => by
    simp only [isMark, Bool.or_eq_true, beq_iff_eq] at hmark
    rcases hmark with ((((rfl | rfl) | rfl) | rfl) | rfl) | rfl <;> exact absurd h (by decide)
  have hquote : c ≠ '"' := by
    rintro rfl
    exact absurd h (by decide)
  exact (if_neg (Bool.eq_false_iff.1 hgap)).trans ((if_neg (Bool.eq_false_iff.1 hmark)).trans
    ((if_neg hquote).trans (if_pos h)))

end Step

/-! ## Blanks and marks -/

theorem Spells.mark_cons {c : Char} (hc : isMark c = true) (hv : Spells v vs) :
    Spells (c :: v) (.mark c :: vs) := fun ts cs hcs => by
  rw [List.cons_append, scan?_outside_cons (start?_of_isMark hc), hv _ cs hcs, List.reverse_cons,
    List.append_assoc]
  rfl

theorem Spells.gap_cons {c : Char} (hc : isGap c = true) (hv : Spells v vs) :
    Spells (c :: v) vs := fun ts cs hcs => by
  rw [List.cons_append, scan?_outside_cons (start?_of_isGap hc)]
  exact hv ts cs hcs

theorem Spells.line_append (depth : Nat) (hv : Spells v vs) : Spells ((line depth).toList ++ v) vs := by
  have hspaces (n : Nat) : Spells (List.replicate n ' ' ++ v) vs := by
    induction n with
    | zero => exact hv
    | succ n ih => exact Spells.gap_cons rfl ih
  rw [line, String.toList_ofList]
  exact Spells.gap_cons rfl (hspaces (2 * depth))

theorem endsWord_line (depth : Nat) : EndsWord ((line depth).toList ++ v) := by
  rw [line, String.toList_ofList]
  exact endsWord_cons rfl

/-! ## Words -/

theorem scan?_word {done : List Char} (h : ∀ c ∈ u, isWordChar c = true) :
    scan? (.word done) ts (u ++ cs) = scan? (.word (u.reverse ++ done)) ts cs := by
  induction u generalizing done with
  | nil => rfl
  | cons c u ih =>
    obtain ⟨hc, hu⟩ := List.forall_mem_cons.1 h
    rw [List.cons_append, scan?_cons, advance?_word hc, Option.bind_some, ih hu, List.reverse_cons,
      List.append_assoc, List.singleton_append]

/-- A word ends where no character of a word follows. -/
theorem scan?_word_end {done : List Char} {j : Json α} (hword : word? done.reverse = some j)
    (hcs : EndsWord cs) : scan? (.word done) ts cs = scan? .outside (.atom j :: ts) cs := by
  cases cs with
  | nil =>
    show (word? done.reverse).map (fun v => (Token.atom v :: ts).reverse) = _
    rw [hword]
    rfl
  | cons c cs =>
    rw [scan?_cons, scan?_cons, advance?_word_end (hcs c rfl) hword]

theorem spells_word {j : Json α} (h : ∀ c ∈ u, isWordChar c = true) (hword : word? u = some j) :
    Spells u [.atom j] := fun ts cs hcs => by
  cases u with
  | nil => cases hword
  | cons c u =>
    obtain ⟨hc, hu⟩ := List.forall_mem_cons.1 h
    have hdone : word? (u.reverse ++ [c]).reverse = some j := by
      rw [List.reverse_append, List.reverse_reverse, List.reverse_singleton, List.singleton_append,
        hword]
    rw [List.cons_append, scan?_outside_cons (start?_of_isWordChar hc), scan?_word hu,
      scan?_word_end hdone hcs]
    rfl

/-! ## Quoted texts -/

theorem digit?_digitChar : ∀ d < 16, Radix.digit? 16 (Nat.digitChar d) = some d := by decide

/-- A control character is written in the digits of its code point. -/
theorem scan?_controlDigits {done : List Nat} {n : Nat} (h : n < 256) :
    scan? (.quoted done) ts ('\\' :: 'u' :: '0' :: '0' :: controlDigits n ++ cs) =
      scan? (.quoted (n :: done)) ts cs := by
  have hhigh := digit?_digitChar (n / 16) (by omega)
  have hlow := digit?_digitChar (n % 16) (by omega)
  have hzero : Radix.digit? 16 '0' = some 0 := rfl
  have hvalue : 16 * (n / 16) + n % 16 = n := Nat.div_add_mod n 16
  show scan? (.unit done 4 0) ts ('0' :: '0' :: Nat.digitChar (n / 16) :: Nat.digitChar (n % 16) ::
    cs) = _
  simp [scan?_cons, advance?_unit hzero, advance?_unit hhigh, advance?_unit hlow, hvalue]

/-- What a character of a quoted text is written as is read as it. -/
theorem scan?_quoteChar {done : List Nat} (c : Char) :
    scan? (.quoted done) ts (quoteChar c ++ cs) = scan? (.quoted (c.toNat :: done)) ts cs := by
  unfold quoteChar
  split
  case h_8 hquote hbackslash _ _ _ _ _ =>
    split
    · rename_i hcontrol
      exact scan?_controlDigits (Nat.lt_trans hcontrol (by decide))
    · rename_i hprintable
      rw [List.singleton_append, scan?_cons, advance?_quoted hquote hbackslash hprintable,
        Option.bind_some]
  all_goals rfl

theorem scan?_quoteChars {done : List Nat} (s : List Char) :
    scan? (.quoted done) ts (s.flatMap quoteChar ++ '"' :: cs) =
      scan? .outside (.text (textOf ((s.map Char.toNat).reverse ++ done)) :: ts) cs := by
  induction s generalizing done with
  | nil => rfl
  | cons c s ih =>
    rw [List.flatMap_cons, List.append_assoc, scan?_quoteChar, ih, List.map_cons, List.reverse_cons,
      List.append_assoc]
    rfl

/-- A character is no half of a pair. -/
theorem isFirstHalf_toNat (c : Char) : isFirstHalf c.toNat = false := by
  have hvalid : c.toNat < 0xD800 ∨ 0xDFFF < c.toNat ∧ c.toNat < 0x110000 := c.valid
  simp only [isFirstHalf, Bool.and_eq_false_iff, decide_eq_false_iff_not]
  omega

theorem isSecondHalf_toNat (c : Char) : isSecondHalf c.toNat = false := by
  have hvalid : c.toNat < 0xD800 ∨ 0xDFFF < c.toNat ∧ c.toNat < 0x110000 := c.valid
  simp only [isSecondHalf, Bool.and_eq_false_iff, decide_eq_false_iff_not]
  omega

theorem characters?_toNat (s : List Char) : characters? (s.map Char.toNat) = some s := by
  induction s with
  | nil => rfl
  | cons c s ih =>
    cases s with
    | nil =>
      rw [List.map_singleton, characters?, isFirstHalf_toNat, isSecondHalf_toNat, Char.ofNat_toNat]
      rfl
    | cons d s =>
      rw [List.map_cons] at ih
      rw [List.map_cons, List.map_cons, characters?, isFirstHalf_toNat, isSecondHalf_toNat, ih,
        Char.ofNat_toNat]
      rfl

theorem Spells.quote_append (s : String) (hv : Spells v vs) :
    Spells ((quote s).toList ++ v) (.text (some s) :: vs) := fun ts cs hcs => by
  have htext : textOf ((s.toList.map Char.toNat).reverse ++ []) = some s := by
    rw [textOf, List.append_nil, List.reverse_reverse, characters?_toNat, Option.map_some,
      String.ofList_toList]
  rw [quote, String.toList_ofList]
  simp only [List.append_assoc, List.cons_append]
  show scan? (.quoted []) ts (s.toList.flatMap quoteChar ++ '"' :: (v ++ cs)) = _
  rw [scan?_quoteChars, htext, hv _ cs hcs, List.reverse_cons, List.append_assoc]
  rfl

/-! ## Whole numbers -/

/-- The sign of a whole number, if it is written. -/
def signOf (n : Int) : Option Char := if n < 0 then some '-' else none

theorem toList_toString (n : Int) :
    (toString n).toList = (signOf n).toList ++ Nat.toDigits 10 n.natAbs := by
  rw [Int.toString_eq_repr, signOf]
  cases n with
  | ofNat n =>
    show n.repr.toList = (if (n : Int) < 0 then some '-' else none).toList ++ Nat.toDigits 10 n
    rw [Nat.repr_eq_ofList_toDigits, String.toList_ofList, if_neg (Int.not_lt.2 (Int.natCast_nonneg n))]
    rfl
  | negSucc n =>
    show ("-" ++ (n + 1).repr).toList = _ ++ Nat.toDigits 10 (n + 1)
    rw [String.toList_append, Nat.repr_eq_ofList_toDigits, String.toList_ofList (l := Nat.toDigits _ _),
      if_pos (Int.negSucc_lt_zero n)]
    rfl

theorem signOf_eq (n : Int) : signOf n = none ∨ signOf n = some '-' := by
  rw [signOf]
  split
  · exact .inr rfl
  · exact .inl rfl

/-- A whole number is written in digits, and a minus sign. -/
theorem mem_toString {n : Int} {c : Char} (h : c ∈ (toString n).toList) :
    c.isDigit = true ∨ c = '-' := by
  rw [toList_toString, List.mem_append] at h
  rcases h with h | h
  · obtain hsign | hsign := signOf_eq n
    · rw [hsign] at h
      cases h
    · rw [hsign] at h
      exact .inr (List.mem_singleton.1 h)
  · exact .inl (Numeral.isDigit_of_mem_toDigits h)

theorem isWordChar_of_mem_toString {n : Int} {c : Char} (h : c ∈ (toString n).toList) :
    isWordChar c = true := by
  rcases mem_toString h with h | rfl
  · simp [isWordChar, Char.isAlphanum, h]
  · rfl

/-- What has a letter is no whole number. -/
theorem toString_ne {n : Int} {s : String}
    (h : s.toList.any (fun c => !c.isDigit && c != '-') = true) : toString n ≠ s := by
  rintro rfl
  obtain ⟨c, hc, hletter⟩ := List.any_eq_true.1 h
  rw [Bool.and_eq_true, Bool.not_eq_true', bne_iff_ne] at hletter
  rcases mem_toString hc with hdigit | hminus
  · rw [hletter.1] at hdigit
    cases hdigit
  · exact hletter.2 hminus

/-- The numeral that a whole number is written as. -/
def numeralOf (n : Int) : Numeral := ⟨signOf n, Nat.toDigits 10 n.natAbs, none, none⟩

theorem scan_toString (n : Int) : Numeral.scan (toString n).toList = (numeralOf n, []) := by
  rw [toList_toString]
  exact Numeral.scan_digits _ (signOf_eq n) fun _ => Numeral.isDigit_of_mem_toDigits

theorem isStrict_numeralOf (n : Int) : (numeralOf n).isStrict = true := by
  have hne : (Nat.toDigits 10 n.natAbs).isEmpty = false :=
    List.isEmpty_eq_false_iff.2 Nat.toDigits_ne_nil
  have hstrict := Numeral.toDigits_strict n.natAbs
  rw [← bne_iff_ne, ← beq_iff_eq (b := 1), ← Bool.or_eq_true] at hstrict
  obtain hsign | hsign := signOf_eq n <;>
    simp only [Numeral.isStrict, Numeral.isPlain, numeralOf, hsign, hne, hstrict] <;> rfl

theorem number_numeralOf {n : Int} (hlow : -(Word.half : Int) ≤ n) (hhigh : n < Word.size) :
    number (numeralOf n) = (.int n : Json α) := by
  have hvalue : Numeral.value (Nat.toDigits 10 n.natAbs ++ []) = n.natAbs := by
    rw [List.append_nil, Numeral.value_toDigits]
  have hnegative : (signOf n == some '-') = decide (n < 0) := by
    rw [signOf]
    split <;> simp_all
  have hwhole : (if n < 0 then -(n.natAbs : Int) else n.natAbs) = n := by
    split <;> omega
  have hzero : (decide (n < 0) && n.natAbs == 0) = false := by
    rw [Bool.and_eq_false_iff, decide_eq_false_iff_not, beq_eq_false_iff_ne]
    omega
  simp only [number, numeralOf, Numeral.toDecimal, Numeral.isWhole, Numeral.exponentValue,
    Option.getD_none, hvalue, hnegative, decide_eq_true_eq, Option.isNone_none, hwhole, hzero, hlow,
    hhigh, decide_true, Bool.not_false, Bool.and_self, if_true]

/-- A whole number that fits a word is read as itself. -/
theorem word?_int {n : Int} (hlow : -(Word.half : Int) ≤ n) (hhigh : n < Word.size) :
    word? (toString n).toList = some (.int n : Json α) := by
  have hnames : ∀ s ∈ ["null", "true", "false"], toString n ≠ s := by
    intro s hs
    refine toString_ne ?_
    revert s
    decide
  unfold word?
  rw [String.ofList_toList]
  split
  case h_4 =>
    rw [scan_toString]
    simp only [isStrict_numeralOf, if_true, number_numeralOf hlow hhigh]
  all_goals exact absurd ‹_› (hnames _ (by simp))

end Json

end Matchmaking
