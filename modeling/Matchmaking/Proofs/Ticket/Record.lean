import Matchmaking.Proofs.Json.Record
import Matchmaking.Ticket.Record

/-!
# Tickets are read back

A value of an attribute is read as one of its own kind (`Value.image`): what is written of a
number, a text, a truth value or a list is none of the other kinds. So attributes, members and
tickets are read back (`Attributes.image`, `Member.image`, `Ticket.image`), if the priority of a
ticket and the year in which it entered the queue are such as can be written
(`Ticket.Writable`).
-/

namespace Matchmaking

open Json (Image Parts Writable)

variable {α : Type} [Scalar α] {finite : α → Prop} {room : Nat}

namespace Value

/-- A value is finite if it is no number, or a finite one. -/
def IsFinite (finite : α → Prop) : Value α → Prop
  | number x => finite x
  | _ => True

theorem image {v : Value α} (h : v.IsFinite finite) :
    Image finite (room + 1) ofJson? v.toJson v := by
  cases v with
  | bool b => exact ⟨rfl, .bool b⟩
  | number x => exact ⟨rfl, .real h⟩
  | text s => exact ⟨rfl, .str s⟩
  | list items =>
    have hitems : Image finite (room + 1) _ _ items := .texts items
    refine ⟨?_, hitems.writable⟩
    show (Json.readAll? Json.text? (items.map .str)).map list = some (list items)
    rw [show Json.readAll? Json.text? (items.map .str) = some items from hitems.reads,
      Option.map_some]

end Value

theorem Attributes.image {a : Attributes α} (h : a.All (Value.IsFinite finite)) :
    Image finite (room + 2) ofJson? a.toJson a :=
  Image.dict fun e he => Value.image (h e he)

namespace Member

theorem image {m : Member α} (h : m.attributes.All (Value.IsFinite finite)) :
    Image finite (room + 3) ofJson? m.toJson m := by
  have hattributes : Image finite (room + 2) _ _ _ := Attributes.image h
  refine Image.record ?names ?reads ?fields
  case names => cases m.assignedRole <;> cases m.roleFlexed <;> simp [Json.optionalField]
  case reads =>
    refine Parts.required_bind (by simp) (Json.text?_str m.id) ?_
    refine Parts.default_bind (by simp) hattributes.reads ?_
    refine Parts.optionalText_bind (o := m.assignedRole) ?_ ?_
    · cases m.roleFlexed <;> simp
    · obtain ⟨id, attributes, role, flexed⟩ := m
      cases flexed <;> simp [Parts.default, Json.bool?]
  case fields =>
    have hflexed : ∀ f ∈ if m.roleFlexed then [("role_flexed", .bool true)] else [],
        Writable finite (room + 2) f.2 := by
      cases m.roleFlexed <;> simp [Writable.bool]
    simp only [List.forall_mem_append, List.forall_mem_cons, Json.forall_mem_optionalField]
    exact ⟨⟨⟨.str _, hattributes.writable, List.forall_mem_nil _⟩, fun r _ => .str r⟩, hflexed⟩

end Member

namespace Ticket

/-- A ticket that can be written. -/
structure Writable (finite : α → Prop) (t : Ticket α) : Prop where
  /-- What is known of its members is. -/
  members : ∀ m ∈ t.members, m.attributes.All (Value.IsFinite finite)
  /-- What is known of its party is. -/
  attributes : t.attributes.All (Value.IsFinite finite)
  /-- Its priority is a signed half word. -/
  priority : priorityRange.1 ≤ t.priority ∧ t.priority ≤ priorityRange.2
  /-- It entered the queue in a year of four digits. -/
  createdAt : t.createdAt.HasFourDigits

theorem image {t : Ticket α} (h : t.Writable finite) :
    Image finite (room + 5) ofJson? t.toJson t := by
  have hmembers : Image finite (room + 4) _ _ t.members :=
    .list fun m hm => Member.image (h.members m hm)
  have hattributes : Image finite (room + 4) _ _ _ := Attributes.image h.attributes
  have hlatencies : Image finite (room + 4) (Json.dict? Json.latency?)
      (Json.ofDict (fun l => Json.ofNat l.toNat) t.latencies) t.latencies :=
    Image.dict fun e _ => ⟨Json.latency?_ofNat e.2, .latency e.2⟩
  have hexcluded : Image finite (room + 4) _ _ t.excluded := .texts t.excluded
  have hpriority : Json.Writable finite (room + 4) (.int t.priority) := by
    obtain ⟨hlow, hhigh⟩ := h.priority
    exact .int (Int.le_trans (by decide) hlow) (Int.lt_of_le_of_lt hhigh (by decide))
  refine Image.record ?names ?reads ?fields
  case names => simp
  case reads =>
    refine Parts.required_bind (by simp) (Json.text?_str t.id) ?_
    refine Parts.default_bind (by simp) (Json.text?_str t.channel) ?_
    refine Parts.required_bind (by simp) (Json.text?_str t.partyId) ?_
    refine Parts.required_bind (by simp) hmembers.reads ?_
    refine Parts.default_bind (by simp) hattributes.reads ?_
    refine Parts.default_bind (by simp) (Json.intBetween?_int h.priority) ?_
    refine Parts.required_bind (by simp) (Json.instant?_ofInstant h.createdAt) ?_
    refine Parts.default_bind (by simp) hlatencies.reads ?_
    exact Parts.default_bind (by simp) hexcluded.reads rfl
  case fields =>
    simp only [List.forall_mem_cons]
    exact ⟨.str _, .str _, .str _, hmembers.writable, hattributes.writable, hpriority, .str _,
      hlatencies.writable, hexcluded.writable, List.forall_mem_nil _⟩

end Ticket

end Matchmaking
