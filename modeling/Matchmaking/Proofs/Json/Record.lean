import Mathlib.Data.List.Nodup
import Matchmaking.Json.Record
import Matchmaking.Proofs.Dict
import Matchmaking.Proofs.Instant.Text
import Matchmaking.Proofs.Json.Text

/-!
# Records are read back

A value is the image of what is read of it, and it can be written (`Json.Image`). So are the
texts, counts, scalars and instants that records are made of, lists and dictionaries of such
values (`Json.Image.list`, `Json.Image.dict`), and objects of which the parts are read back
(`Json.Image.record`): an object whose fields have different names has each of them as a part,
where it is required or has a default, and where it was left out because it is missing.
-/

namespace Matchmaking

namespace Json

variable {α β : Type} {finite : α → Prop} {room : Nat} {read? : Json α → Option β}
  {write : β → Json α} {j : Json α} {x : β}

/-- A value that is read as something, and can be written. -/
structure Image (finite : α → Prop) (room : Nat) (read? : Json α → Option β) (j : Json α)
    (x : β) : Prop where
  /-- It is read as that. -/
  reads : read? j = some x
  /-- It can be written. -/
  writable : Writable finite room j

/-! ## Simple values -/

theorem text?_str (s : String) : text? (.str s : Json α) = some s := rfl

theorem bool?_bool (b : Bool) : bool? (.bool b : Json α) = some b := rfl

theorem scalar?_real [Scalar α] (x : α) : scalar? (.real x) = some x := rfl

theorem count?_ofNat {n : Nat} (h : n < Word.size) : count? (ofNat n : Json α) = some n := by
  have hrange : (0 : Int) ≤ n ∧ (n : Int) < Word.size := by omega
  rw [ofNat, count?, if_pos hrange]
  rfl

theorem latency?_ofNat (l : Latency) : latency? (ofNat l.toNat : Json α) = some l := by
  rw [latency?, count?_ofNat l.toNat_lt, Option.map_some, UInt64.ofNat_toNat]

theorem intBetween?_int {low high n : Int} (h : low ≤ n ∧ n ≤ high) :
    intBetween? low high (.int n : Json α) = some n := if_pos h

theorem instant?_ofInstant {a : Instant} (h : a.HasFourDigits) :
    instant? (ofInstant a : Json α) = some a := by
  rw [instant?, ofInstant, text?, Option.bind_some, h.read?_text]

theorem oneOf?_str {names : List (String × β)} {s : String} (h : names.lookup s = some x) :
    oneOf? names (.str s : Json α) = some x := h

theorem Writable.count {n : Nat} (h : n < Word.size) : Writable finite room (ofNat n) := by
  refine .int ?_ (by omega)
  rw [Word.half]
  omega

theorem Writable.latency (l : Latency) : Writable finite room (ofNat l.toNat) :=
  .count l.toNat_lt

/-! ## Lists and dictionaries -/

theorem readAll?_map {xs : List β} (h : ∀ x ∈ xs, read? (write x) = some x) :
    readAll? read? (xs.map write) = some xs := by
  induction xs with
  | nil => rfl
  | cons x xs ih =>
    obtain ⟨hx, hxs⟩ := List.forall_mem_cons.1 h
    rw [List.map_cons, readAll?, hx, ih hxs]
    rfl

theorem Image.list {xs : List β} (h : ∀ x ∈ xs, Image finite room read? (write x) x) :
    Image finite (room + 1) (list? read?) (ofList write xs) xs where
  reads := readAll?_map fun x hx => (h x hx).reads
  writable := .arr (List.forall_mem_map.2 fun x hx => (h x hx).writable)

theorem Image.texts (ss : List String) :
    Image finite (room + 1) (list? text?) (texts ss) ss :=
  Image.list fun s _ => ⟨rfl, .str s⟩

theorem readFields?_map {es : List (String × β)} (h : ∀ e ∈ es, read? (write e.2) = some e.2) :
    readFields? read? (es.map fun e => (e.1, write e.2)) = some es := by
  induction es with
  | nil => rfl
  | cons e es ih =>
    obtain ⟨he, hes⟩ := List.forall_mem_cons.1 h
    rw [List.map_cons, readFields?, he, ih hes]
    rfl

theorem Image.dict {d : Dict β} (h : d.All fun x => Image finite room read? (write x) x) :
    Image finite (room + 1) (dict? read?) (ofDict write d) d where
  reads := by
    show (readFields? read? (d.toList.map fun e => (e.1, write e.2))).map Dict.ofList = some d
    rw [readFields?_map fun e he => (h e he).reads, Option.map_some, d.ofList_toList]
  writable := by
    refine .obj ?_ (List.forall_mem_map.2 fun e he => (h e he).writable)
    show ((d.toList.map fun e => (e.1, write e.2)).map (·.1)).Nodup
    rw [List.map_map]
    exact d.nodup_keys

/-! ## Objects -/

/-- Fields of different names are given once. -/
theorem givenOnce_of_nodup {names : List String} {fields : List (String × Json α)}
    (h : (fields.map (·.1)).Nodup) : givenOnce names fields = true := by
  refine List.all_eq_true.2 fun k _ => decide_eq_true ?_
  rw [← List.countP_eq_length_filter]
  have hcount := List.nodup_iff_count_le_one.1 h k
  rwa [List.count, List.countP_map] at hcount

/-- An object of which the parts are read as the parts of a record. -/
theorem Image.record {names : List String} {make : Parts α → Option β}
    {fields : List (String × Json α)} (hnames : (fields.map (·.1)).Nodup)
    (hreads : make (fun k => getField k fields) = some x)
    (hfields : ∀ f ∈ fields, Writable finite room f.2) :
    Image finite (room + 1) (fun j => (j.parts? names).bind make) (.obj fields) x where
  reads := by
    rw [parts?, if_pos (givenOnce_of_nodup hnames), Option.bind_some]
    exact hreads
  writable := .obj hnames hfields

namespace Parts

variable {γ : Type} {p : Parts α} {k : String} {make : β → Option γ} {y : γ}

/-- A part that must be there, and those after it. -/
theorem required_bind (hp : p k = some j) (hread : read? j = some x) (hrest : make x = some y) :
    (p.required k read?).bind make = some y := by
  rw [required, hp, Option.bind_some, hread, Option.bind_some, hrest]

/-- A part that might be missing and is there, and those after it. -/
theorem default_bind {v : β} (hp : p k = some j) (hread : read? j = some x)
    (hrest : make x = some y) : (p.default k v read?).bind make = some y := by
  have hpart : p.default k v read? = some x := by
    rw [default, hp]
    exact hread
  rw [hpart, Option.bind_some, hrest]

/-- A part that is left out if it is missing, and those after it. -/
theorem optional_bind {o : Option β} {make : Option β → Option γ} (hp : p k = o.map write)
    (hread : ∀ x ∈ o, read? (write x) = some x) (hnull : ∀ x, write x ≠ .null)
    (hrest : make o = some y) : (p.optional k read?).bind make = some y := by
  have hpart : p.optional k read? = some o := by
    rw [optional, hp]
    cases o with
    | none => rfl
    | some x =>
      rw [Option.map_some]
      split
      case h_1 hnone => cases hnone
      case h_2 hj => exact absurd (Option.some.inj hj) (hnull x)
      case h_3 hj => rw [← Option.some.inj hj, hread x rfl, Option.map_some]
  rw [hpart, Option.bind_some, hrest]

theorem optionalText_bind {o : Option String} {make : Option String → Option γ}
    (hp : p k = o.map .str) (hrest : make o = some y) : (p.optional k text?).bind make = some y :=
  optional_bind hp (fun s _ => text?_str s) (fun _ h => by cases h) hrest

end Parts

/-! ## Fields -/

@[simp]
theorem getField_nil (k : String) : getField k ([] : List (String × β)) = none := rfl

@[simp]
theorem getField_cons (k y : String) (w : β) (fs : List (String × β)) :
    getField k ((y, w) :: fs) = if y = k then some w else getField k fs := by
  rw [getField, List.find?_cons]
  by_cases h : y = k
  · rw [if_pos h, beq_iff_eq.2 h]
    rfl
  · rw [if_neg h, beq_eq_false_iff_ne.2 h]
    rfl

/-- A field that may be left out. -/
@[simp]
theorem getField_optionalField_append (k y : String) (o : Option β) (fs : List (String × Json α)) :
    getField k (optionalField y write o ++ fs) =
      if y = k then (o.map write).or (getField k fs) else getField k fs := by
  cases o with
  | none => simp [optionalField]
  | some x => simp [optionalField]

@[simp]
theorem getField_optionalField (k y : String) (o : Option β) :
    getField k (optionalField y write o) = if y = k then o.map write else none := by
  cases o with
  | none => simp [optionalField]
  | some x => simp [optionalField]

@[simp]
theorem forall_mem_optionalField {y : String} {o : Option β} {p : String × Json α → Prop} :
    (∀ f ∈ optionalField y write o, p f) ↔ ∀ x ∈ o, p (y, write x) := by
  cases o <;> simp [optionalField]

end Json

end Matchmaking
