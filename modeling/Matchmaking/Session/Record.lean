import Matchmaking.Session
import Matchmaking.Ticket.Record

/-!
# Sessions in JSON

Reading and writing of parties, alliances, sessions and open sessions, and
writing of proposals. Optional parts are left out when they are missing.
-/

namespace Matchmaking

variable {α : Type} [Scalar α]

namespace Party

/-- A party as a record. -/
def ofJson? (j : Json α) : Option (Party α) := do
  let p ← j.parts? ["party_id", "ticket_id", "party_members", "party_attributes"]
  return {
    id := ← p.required "party_id" Json.text?
    ticketId := ← p.optional "ticket_id" Json.text?
    members := ← p.required "party_members" (Json.list? Member.ofJson?)
    attributes := ← p.default "party_attributes" ∅ Attributes.ofJson? }

/-- The record of a party. -/
def toJson (p : Party α) : Json α :=
  .obj <|
    [("party_id", .str p.id)] ++ Json.optionalField "ticket_id" .str p.ticketId ++
      [("party_members", Json.ofList Member.toJson p.members),
        ("party_attributes", p.attributes.toJson)]

end Party

namespace Alliance

/-- A team as a record. -/
def ofJson? (j : Json α) : Option (Alliance α) := do
  let p ← j.parts? ["team_id", "parties"]
  return {
    teamId := ← p.required "team_id" Json.text?
    parties := ← p.default "parties" [] (Json.list? Party.ofJson?) }

/-- The record of a team. -/
def toJson (a : Alliance α) : Json α :=
  .obj [("team_id", .str a.teamId), ("parties", Json.ofList Party.toJson a.parties)]

end Alliance

namespace RunningMean

/-- A running mean as a record. -/
def ofJson? (j : Json α) : Option (RunningMean α) := do
  let p ← j.parts? ["value", "players"]
  return { value := ← p.required "value" Json.scalar?, players := ← p.required "players" Json.count? }

/-- The record of a running mean. -/
def toJson (m : RunningMean α) : Json α :=
  .obj [("value", .real m.value), ("players", Json.ofNat m.players)]

end RunningMean

namespace Session

/-- A session as a record. -/
def ofJson? (j : Json α) : Option (Session α) := do
  let p ← j.parts? ["match_id", "channel", "sub_game_mode", "region", "alliances",
    "party_attributes", "matching_attributes", "additional_criteria", "priority", "created_at",
    "status", "joinable"]
  return {
    id := ← p.required "match_id" Json.text?
    channel := ← p.default "channel" "" Json.text?
    mode := ← p.optional "sub_game_mode" Json.text?
    region := ← p.optional "region" Json.text?
    alliances := ← p.default "alliances" [] (Json.list? Alliance.ofJson?)
    attributes := ← p.default "party_attributes" ∅ Attributes.ofJson?
    means := ← p.default "matching_attributes" ∅ (Json.dict? RunningMean.ofJson?)
    criteria := ← p.default "additional_criteria" ∅ Attributes.ofJson?
    priority := ← p.default "priority" 0
      (Json.intBetween? Ticket.priorityRange.1 Ticket.priorityRange.2)
    createdAt := ← p.required "created_at" Json.instant?
    status := ← p.required "status" (Json.oneOf? Status.names)
    joinable := ← p.default "joinable" false Json.bool? }

/-- The record of a session. -/
def toJson (s : Session α) : Json α :=
  .obj <|
    [("match_id", .str s.id), ("channel", .str s.channel)] ++
      Json.optionalField "sub_game_mode" .str s.mode ++
      Json.optionalField "region" .str s.region ++
      [("alliances", Json.ofList Alliance.toJson s.alliances),
        ("party_attributes", s.attributes.toJson),
        ("matching_attributes", Json.ofDict RunningMean.toJson s.means),
        ("additional_criteria", s.criteria.toJson), ("priority", .int s.priority),
        ("created_at", Json.ofInstant s.createdAt), ("status", .str s.status.name),
        ("joinable", .bool s.joinable)]

end Session

namespace OpenSession

/-- An open session as a record. -/
def ofJson? (j : Json α) : Option (OpenSession α) := do
  let p ← j.parts? ["ticket_id", "session"]
  return {
    ticketId := ← p.required "ticket_id" Json.text?
    session := ← p.required "session" Session.ofJson? }

/-- The record of an open session. -/
def toJson (o : OpenSession α) : Json α :=
  .obj [("ticket_id", .str o.ticketId), ("session", o.session.toJson)]

end OpenSession

namespace Proposal

/-- The record of a proposal. -/
def toJson (p : Proposal α) : Json α :=
  .obj [("backfill_ticket_id", .str p.openTicketId), ("match_id", .str p.sessionId),
    ("added_tickets", Json.texts p.added), ("alliances", Json.ofList Alliance.toJson p.alliances),
    ("status", .str p.status.name), ("created_at", Json.ofInstant p.createdAt)]

end Proposal

end Matchmaking
