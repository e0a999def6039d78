import Matchmaking.Ticket

/-!
# Tickets in JSON

Reading and writing of members and tickets. What is written has all parts,
except that a member's given role and its flexed mark are left out when they
are not set.
-/

namespace Matchmaking

variable {α : Type} [Scalar α]

namespace Member

/-- A member as a record. -/
def ofJson? (j : Json α) : Option (Member α) := do
  let p ← j.parts? ["user_id", "extra_attributes", "assigned_role", "role_flexed"]
  return {
    id := ← p.required "user_id" Json.text?
    attributes := ← p.default "extra_attributes" ∅ Attributes.ofJson?
    assignedRole := ← p.optional "assigned_role" Json.text?
    roleFlexed := ← p.default "role_flexed" false Json.bool? }

/-- The record of a member. -/
def toJson (m : Member α) : Json α :=
  .obj <|
    [("user_id", .str m.id), ("extra_attributes", m.attributes.toJson)] ++
      Json.optionalField "assigned_role" .str m.assignedRole ++
      if m.roleFlexed then [("role_flexed", .bool true)] else []

end Member

namespace Ticket

/-- The least and the greatest priority. -/
def priorityRange : Int × Int := (-2147483648, 2147483647)

/-- A ticket as a record. -/
def ofJson? (j : Json α) : Option (Ticket α) := do
  let p ← j.parts? ["ticket_id", "channel", "party_id", "party_members", "party_attributes",
    "priority", "created_at", "latencies", "excluded_sessions"]
  return {
    id := ← p.required "ticket_id" Json.text?
    channel := ← p.default "channel" "" Json.text?
    partyId := ← p.required "party_id" Json.text?
    members := ← p.required "party_members" (Json.list? Member.ofJson?)
    attributes := ← p.default "party_attributes" ∅ Attributes.ofJson?
    priority := ← p.default "priority" 0 (Json.intBetween? priorityRange.1 priorityRange.2)
    createdAt := ← p.required "created_at" Json.instant?
    latencies := ← p.default "latencies" ∅ (Json.dict? Json.latency?)
    excluded := ← p.default "excluded_sessions" [] (Json.list? Json.text?) }

/-- The record of a ticket. -/
def toJson (t : Ticket α) : Json α :=
  .obj [("ticket_id", .str t.id), ("channel", .str t.channel), ("party_id", .str t.partyId),
    ("party_members", Json.ofList Member.toJson t.members),
    ("party_attributes", t.attributes.toJson), ("priority", .int t.priority),
    ("created_at", Json.ofInstant t.createdAt),
    ("latencies", Json.ofDict (fun l => Json.ofNat l.toNat) t.latencies),
    ("excluded_sessions", Json.texts t.excluded)]

end Ticket

end Matchmaking
