import Mathlib.Data.List.Basic
import Matchmaking.Attribute
import Matchmaking.Number.Double

/-!
# Values as sets of names

The view of a value as a set of names leaves out blank texts, and the text of a
number is not blank (`Scalar.Visible`). So the names of a value are not blank
(`Value.isBlank_of_mem_names`), and a set of such names is the same set again when
it is written as a value and read back (`Value.names_ofNames`).
-/

namespace Matchmaking

/-! ## Texts of numbers -/

/-- The text of a scalar is not blank. -/
class Scalar.Visible (α : Type) [Scalar α] : Prop where
  isBlank_text : ∀ x : α, isBlank (Scalar.text x) = false

theorem isBlank_of_mem {s : String} {c : Char} (hc : c ∈ s.toList) (h : isBlankChar c = false) :
    isBlank s = false := by
  simp only [isBlank, List.all_eq_false]
  exact ⟨c, hc, by simp [h]⟩

theorem isBlankChar_of_isDigit {c : Char} (h : c.isDigit = true) : isBlankChar c = false := by
  simp only [Char.isDigit, Bool.and_eq_true, decide_eq_true_eq, UInt32.le_iff_toNat_le] at h
  have hc : c.toNat = c.val.toNat := rfl
  have h0 : '0'.val.toNat = 48 := rfl
  have h9 : '9'.val.toNat = 57 := rfl
  simp only [isBlankChar, blankRanges, List.any_cons, List.any_nil, Bool.or_eq_false_iff,
    Bool.and_eq_false_iff, decide_eq_false_iff_not, beq_eq_false_iff_ne]
  grind

/-- A positional decimal has a digit. -/
theorem exists_isDigit_positional (d : Nat) (k : Int) :
    ∃ c ∈ positional d k, c.isDigit = true := by
  have hdigits : ∃ c ∈ Nat.toDigits 10 d, c.isDigit = true := by
    obtain ⟨c, hc⟩ := List.exists_mem_of_ne_nil _ (Nat.toDigits_ne_nil (n := d) (b := 10))
    exact ⟨c, hc, Nat.isDigit_of_mem_toDigits (by decide) (by decide) hc⟩
  simp only [positional]
  split_ifs
  · obtain ⟨c, hc, h⟩ := hdigits
    exact ⟨c, List.mem_append_left _ hc, h⟩
  · -- The digits stand before and after the point.
    obtain ⟨c, hc, h⟩ := hdigits
    rw [← List.take_append_drop ((Nat.toDigits 10 d).length - (-k).toNat) (Nat.toDigits 10 d)] at hc
    refine ⟨c, ?_, h⟩
    rcases List.mem_append.1 hc with hc | hc
    · exact List.mem_append_left _ hc
    · exact List.mem_append_right _ (List.mem_cons_of_mem _ hc)
  · exact ⟨'0', List.mem_append_left _ List.mem_cons_self, rfl⟩

namespace Double

theorem isBlank_signed (x : Float) {s : String} (h : isBlank s = false) :
    isBlank (signed x s) = false := by
  rw [signed]
  split_ifs
  · exact isBlank_of_mem (c := '-') (by simp) (by decide)
  · exact h

theorem isBlank_text (x : Float) : isBlank (text x) = false := by
  rw [text]
  split_ifs
  · exact isBlank_signed x (by decide)
  · rcases shortest x with ⟨d, k⟩
    obtain ⟨c, hc, h⟩ := exists_isDigit_positional d k
    refine isBlank_signed x (isBlank_of_mem ?_ (isBlankChar_of_isDigit h))
    rwa [String.toList_ofList]
  · exact isBlank_signed x (by decide)
  · decide

end Double

instance : Scalar.Visible Float := ⟨Double.isBlank_text⟩

/-! ## Names of values -/

namespace Value

variable {α : Type} [Scalar α]

theorem names_ofNames {s : NameSet} (h : ∀ x ∈ s, isBlank x = false) :
    (ofNames s : Value α).names = s := by
  refine NameSet.ext fun x => ?_
  simp only [ofNames, names, NameSet.mem_ofList, List.mem_filter, Bool.not_eq_true']
  exact and_iff_left_of_imp (h x)

variable [Scalar.Visible α]

theorem isBlank_of_mem_names {v : Value α} {x : String} (hx : x ∈ v.names) :
    isBlank x = false := by
  cases v with
  | bool b =>
    rw [names, NameSet.mem_ofList, List.mem_singleton] at hx
    rw [hx]
    cases b <;> decide
  | number y =>
    rw [names, NameSet.mem_ofList, List.mem_singleton] at hx
    rw [hx]
    exact Scalar.Visible.isBlank_text y
  | text s =>
    simp only [names, NameSet.mem_ofList, List.mem_filter, Bool.not_eq_true'] at hx
    exact hx.2
  | list items =>
    simp only [names, NameSet.mem_ofList, List.mem_filter, Bool.not_eq_true'] at hx
    exact hx.2

end Value

/-- There are no names where there is no value. -/
theorem Attributes.names_eq_empty {α : Type} [Scalar α] {a : Attributes α} {k : String}
    (h : k ∉ a.keys) : a.names k = ∅ := by
  cases hget : a.get? k with
  | none => rw [names, hget, Option.map_none, Option.getD_none]
  | some v => exact absurd (List.mem_map_of_mem (Dict.get?_eq_some_iff.1 hget)) h

theorem Attributes.isBlank_of_mem_names {α : Type} [Scalar α] [Scalar.Visible α]
    {a : Attributes α} {k x : String} (hx : x ∈ a.names k) : isBlank x = false := by
  rw [names] at hx
  cases h : a.get? k with
  | none => simp [h] at hx
  | some v =>
    rw [h] at hx
    exact Value.isBlank_of_mem_names hx

end Matchmaking
