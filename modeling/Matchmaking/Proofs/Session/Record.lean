import Matchmaking.Proofs.Ticket.Record
import Matchmaking.Session.Record

/-!
# Sessions are read back

A session is read back with its teams, their parties and the means over its players
(`Party.image`, `Alliance.image`, `RunningMean.image`, `Session.image`), and so is a session that
waits for more players (`OpenSession.image`). What is missing, such as the ticket of players who
came with none, is not written, and is missing again.
-/

namespace Matchmaking

open Json (Image Parts)

variable {α : Type} [Scalar α] {finite : α → Prop} {room : Nat}

namespace Party

/-- A party that can be written. -/
structure Writable (finite : α → Prop) (p : Party α) : Prop where
  /-- What is known of its members is. -/
  members : ∀ m ∈ p.members, m.attributes.All (Value.IsFinite finite)
  /-- What is known of the party is. -/
  attributes : p.attributes.All (Value.IsFinite finite)

theorem image {p : Party α} (h : p.Writable finite) :
    Image finite (room + 5) ofJson? p.toJson p := by
  have hmembers : Image finite (room + 4) _ _ p.members :=
    .list fun m hm => Member.image (h.members m hm)
  have hattributes : Image finite (room + 4) _ _ _ := Attributes.image h.attributes
  refine Image.record ?names ?reads ?fields
  case names => cases p.ticketId <;> simp [Json.optionalField]
  case reads =>
    refine Parts.required_bind (by simp) (Json.text?_str p.id) ?_
    refine Parts.optionalText_bind (o := p.ticketId) (by simp) ?_
    refine Parts.required_bind (by simp) hmembers.reads ?_
    exact Parts.default_bind (by simp) hattributes.reads rfl
  case fields =>
    simp only [List.forall_mem_append, List.forall_mem_cons, Json.forall_mem_optionalField]
    exact ⟨⟨⟨.str _, List.forall_mem_nil _⟩, fun s _ => .str s⟩, hmembers.writable,
      hattributes.writable, List.forall_mem_nil _⟩

end Party

namespace Alliance

theorem image {a : Alliance α} (h : ∀ p ∈ a.parties, p.Writable finite) :
    Image finite (room + 7) ofJson? a.toJson a := by
  have hparties : Image finite (room + 6) _ _ a.parties := .list fun p hp => Party.image (h p hp)
  refine Image.record ?names ?reads ?fields
  case names => simp
  case reads =>
    refine Parts.required_bind (by simp) (Json.text?_str a.teamId) ?_
    exact Parts.default_bind (by simp) hparties.reads rfl
  case fields =>
    simp only [List.forall_mem_cons]
    exact ⟨.str _, hparties.writable, List.forall_mem_nil _⟩

end Alliance

namespace RunningMean

/-- A mean that can be written: a finite one over players that a word counts. -/
structure Writable (finite : α → Prop) (m : RunningMean α) : Prop where
  /-- The mean. -/
  value : finite m.value
  /-- The number of players. -/
  players : m.players < Word.size

theorem image {m : RunningMean α} (h : m.Writable finite) :
    Image finite (room + 1) ofJson? m.toJson m := by
  refine Image.record ?names ?reads ?fields
  case names => simp
  case reads =>
    refine Parts.required_bind (by simp) (Json.scalar?_real m.value) ?_
    exact Parts.required_bind (by simp) (Json.count?_ofNat h.players) rfl
  case fields =>
    simp only [List.forall_mem_cons]
    exact ⟨.real h.value, .count h.players, List.forall_mem_nil _⟩

end RunningMean

theorem Status.lookup_name (status : Status) : names.lookup status.name = some status := by
  cases status <;> rfl

namespace Session

/-- A session that can be written. -/
structure Writable (finite : α → Prop) (s : Session α) : Prop where
  /-- The parties of its teams are. -/
  parties : ∀ a ∈ s.alliances, ∀ p ∈ a.parties, p.Writable finite
  /-- What is known of all parties together is. -/
  attributes : s.attributes.All (Value.IsFinite finite)
  /-- Its means are. -/
  means : s.means.All (RunningMean.Writable finite)
  /-- What a party must have to join is. -/
  criteria : s.criteria.All (Value.IsFinite finite)
  /-- Its priority is a signed half word. -/
  priority : Ticket.priorityRange.1 ≤ s.priority ∧ s.priority ≤ Ticket.priorityRange.2
  /-- The first of its tickets entered the queue in a year of four digits. -/
  createdAt : s.createdAt.HasFourDigits

theorem image {s : Session α} (h : s.Writable finite) :
    Image finite (room + 9) ofJson? s.toJson s := by
  have halliances : Image finite (room + 8) _ _ s.alliances :=
    .list fun a ha => Alliance.image (h.parties a ha)
  have hattributes : Image finite (room + 8) _ _ _ := Attributes.image h.attributes
  have hmeans : Image finite (room + 8) _ _ s.means :=
    .dict fun e he => RunningMean.image (h.means e he)
  have hcriteria : Image finite (room + 8) _ _ _ := Attributes.image h.criteria
  have hpriority : Json.Writable finite (room + 8) (.int s.priority) := by
    obtain ⟨hlow, hhigh⟩ := h.priority
    exact .int (Int.le_trans (by decide) hlow) (Int.lt_of_le_of_lt hhigh (by decide))
  refine Image.record ?names ?reads ?fields
  case names => cases s.mode <;> cases s.region <;> simp [Json.optionalField]
  case reads =>
    refine Parts.required_bind (by simp) (Json.text?_str s.id) ?_
    refine Parts.default_bind (by simp) (Json.text?_str s.channel) ?_
    refine Parts.optionalText_bind (o := s.mode) (by simp) ?_
    refine Parts.optionalText_bind (o := s.region) (by simp) ?_
    refine Parts.default_bind (by simp) halliances.reads ?_
    refine Parts.default_bind (by simp) hattributes.reads ?_
    refine Parts.default_bind (by simp) hmeans.reads ?_
    refine Parts.default_bind (by simp) hcriteria.reads ?_
    refine Parts.default_bind (by simp) (Json.intBetween?_int h.priority) ?_
    refine Parts.required_bind (by simp) (Json.instant?_ofInstant h.createdAt) ?_
    refine Parts.required_bind (by simp) (Json.oneOf?_str s.status.lookup_name) ?_
    exact Parts.default_bind (by simp) (Json.bool?_bool s.joinable) rfl
  case fields =>
    simp only [List.forall_mem_append, List.forall_mem_cons, Json.forall_mem_optionalField]
    exact ⟨⟨⟨⟨.str _, .str _, List.forall_mem_nil _⟩, fun m _ => .str m⟩, fun r _ => .str r⟩,
      halliances.writable, hattributes.writable, hmeans.writable, hcriteria.writable, hpriority,
      .str _, .str _, .bool _, List.forall_mem_nil _⟩

end Session

theorem OpenSession.image {o : OpenSession α} (h : o.session.Writable finite) :
    Image finite (room + 10) ofJson? o.toJson o := by
  have hsession : Image finite (room + 9) _ _ o.session := Session.image h
  refine Image.record ?names ?reads ?fields
  case names => simp
  case reads =>
    refine Parts.required_bind (by simp) (Json.text?_str o.ticketId) ?_
    exact Parts.required_bind (by simp) hsession.reads rfl
  case fields =>
    simp only [List.forall_mem_cons]
    exact ⟨.str _, hsession.writable, List.forall_mem_nil _⟩

end Matchmaking
