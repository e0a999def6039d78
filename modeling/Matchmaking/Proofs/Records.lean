import Mathlib.Tactic.NormNum
import Matchmaking.Number.Rational
import Matchmaking.Proofs.Rules.Load
import Matchmaking.Proofs.Session.Record

/-!
# Records survive

Tickets, sessions, open sessions and rule sets are written as records, and what is written is
read back: of the value of the record, and of its text (`Json.Survives`). The parts of a record
are read where they were written (`Ticket.image`, `Session.image`, `OpenSession.image`,
`RuleSet.image`), and a written value is read as it is (`Json.readAsWritten?_render`,
`Json.read?_render`). Of a rule set it is not written whether its defaults were filled in. They
are filled in once more when it is loaded, and stay as they are (`RuleSet.load_toJson`).
-/

namespace Matchmaking

namespace Json

variable {α β : Type} [Scalar α] {number : α → String} {finite : α → Prop}

/-- What is read of a written value. -/
structure Survives (number : α → String) (read? : Json α → Option β) (j : Json α) (x : β) :
    Prop where
  /-- It is read of the value. -/
  value : read? j = some x
  /-- It is read of the text of the value. -/
  text : (readAsWritten? (j.render number)).bind read? = some x
  /-- It is read of the text once that is held as a value. -/
  held : (Json.read? (j.render number)).bind read? = some x

theorem Image.survives {room : Nat} {read? : Json α → Option β} {j : Json α} {x : β}
    (himage : Image finite room read? j x) (hroom : room ≤ maxDepth)
    (h : Spelling number finite) : Survives number read? j x where
  value := himage.reads
  text := by rw [readAsWritten?_render h himage.writable, Option.bind_some, himage.reads]
  held := by rw [read?_render h himage.writable hroom, Option.bind_some, himage.reads]

/-- Whatever can be written is read back, and a rule set that was loaded is loaded again. -/
theorem records_survive (h : Spelling number finite) :
    (∀ t : Ticket α, t.Writable finite → Survives number Ticket.ofJson? t.toJson t) ∧
    (∀ s : Session α, s.Writable finite → Survives number Session.ofJson? s.toJson s) ∧
    (∀ o : OpenSession α, o.session.Writable finite →
      Survives number OpenSession.ofJson? o.toJson o) ∧
    (∀ r : RuleSet α, r.Writable finite →
      Survives number RuleSet.ofJson? r.toJson { r with defaultsApplied := false }) ∧
    ∀ (j : Json α) (r : RuleSet α), RuleSet.load j = .ok r →
      RuleSet.load r.toJson = .ok r ∧
      (r.Writable finite →
        (Json.read? (r.toJson.render number)).map RuleSet.load = some (.ok r)) := by
  refine ⟨fun t ht => ?ticket, fun s hs => ?session, fun o ho => ?openSession,
    fun r hr => ?rules, fun j r hload => ⟨RuleSet.load_toJson hload, fun hr => ?loaded⟩⟩
  case ticket =>
    have himage : Image finite 5 _ _ t := Ticket.image ht
    exact himage.survives (by decide) h
  case session =>
    have himage : Image finite 9 _ _ s := Session.image hs
    exact himage.survives (by decide) h
  case openSession =>
    have himage : Image finite 10 _ _ o := OpenSession.image ho
    exact himage.survives (by decide) h
  case rules =>
    have himage : Image finite 8 _ _ _ := RuleSet.image hr
    exact himage.survives (by decide) h
  case loaded =>
    have himage : Image finite 8 _ _ _ := RuleSet.image hr
    rw [read?_render h himage.writable (by decide), Option.map_some, RuleSet.load_toJson hload]

/-! ### A tournament -/

/-- The numbers of a tournament, and how they are written. -/
def scores : List (Rat × String) := [(1, "1.0"), (3 / 2, "1.5"), (1000, "1000.0")]

/-- The text of a number of a tournament. -/
def scoreText (x : Rat) : String := (scores.lookup x).getD "null"

/-- A number of a tournament. -/
def IsScore (x : Rat) : Prop := x ∈ scores.map (·.1)

instance (x : Rat) : Decidable (IsScore x) := inferInstanceAs (Decidable (x ∈ _))

theorem word?_scoreText {x : Rat} (text : String) (d : Decimal) (htext : scoreText x = text)
    (hword : word? text.toList = some (.real d.toRat)) (hd : d.toRat = x) :
    word? (scoreText x).toList = some (.real x) := by
  rw [htext, hword, hd]

theorem spelling_scoreText : Spelling scoreText IsScore where
  isWord x hx := List.all_eq_true.1 (by
    revert x
    simp only [IsScore, scores, List.map_cons, List.map_nil, List.forall_mem_cons]
    decide +kernel)
  denotes := by
    simp only [IsScore, scores, List.map_cons, List.map_nil, List.forall_mem_cons]
    refine ⟨?one, ?half, ?thousand, nofun⟩
    case one =>
      exact word?_scoreText "1.0" ⟨false, 10, -1⟩ (by decide +kernel) rfl
        (by norm_num [Decimal.toRat])
    case half =>
      exact word?_scoreText "1.5" ⟨false, 15, -1⟩ (by decide +kernel) rfl
        (by norm_num [Decimal.toRat])
    case thousand =>
      exact word?_scoreText "1000.0" ⟨false, 10000, -1⟩ (by decide +kernel) rfl
        (by norm_num [Decimal.toRat])

/-- The ticket of a player who entered in a leap second. -/
def entrant : Ticket Rat where
  id := "t-1"
  channel := "chess"
  partyId := "p-1"
  members := [{ (Member.ofId "ann" : Member Rat) with
    attributes := Dict.ofList [("rating", .number 1000), ("role", .list ["white", "black"])]
    roleFlexed := true }]
  attributes := Dict.ofList [("title", .text "a \"master\""), ("rated", .bool true)]
  priority := -1
  createdAt := ⟨1483228799, 1500000000, by decide, by decide⟩
  latencies := Dict.ofList [("eu", 20)]
  excluded := ["m-0"]

/-- The session that the player is in. -/
def pairing : Session Rat where
  id := "m-1"
  channel := "chess"
  mode := some "blitz"
  region := none
  alliances := [⟨"team-0", [.ofTicket entrant, .external [.ofId "bob"]]⟩]
  attributes := entrant.attributes
  means := Dict.ofList [("rating", ⟨3 / 2, 2⟩)]
  criteria := ∅
  priority := -1
  createdAt := entrant.createdAt
  status := .forming
  joinable := true

/-- The rules of the tournament, as they are written. -/
def tournamentRecord : Json Rat :=
  .obj [
    ("alliance", .obj [("min_number", .int 2), ("max_number", .int 0),
      ("player_min_number", .int 0), ("player_max_number", .int 1)]),
    ("matching_rule", .arr [.obj [("attribute", .str "rating"), ("reference", .real 1000)]])]

/-- The rules of the tournament. -/
def tournament : RuleSet Rat :=
  { RuleSet.ofAlliance (.ofBounds ⟨2, 2, 1, 1⟩) with
    distances := [⟨"rating", 1000, some 1, none⟩]
    defaultsApplied := true }

theorem entrant_writable : entrant.Writable IsScore where
  members := by
    have hrating : IsScore 1000 := by decide +kernel
    refine List.forall_mem_singleton.2 (Dict.all_ofList ?_)
    exact List.forall_mem_cons.2 ⟨hrating, List.forall_mem_singleton.2 trivial⟩
  attributes :=
    Dict.all_ofList (List.forall_mem_cons.2 ⟨trivial, List.forall_mem_singleton.2 trivial⟩)
  priority := by decide
  createdAt := by decide +kernel

theorem pairing_writable : pairing.Writable IsScore where
  parties := by
    have hann : (Party.ofTicket entrant).Writable IsScore :=
      ⟨entrant_writable.members, entrant_writable.attributes⟩
    have hbob : (Party.external [.ofId "bob"]).Writable IsScore :=
      ⟨List.forall_mem_singleton.2 (Dict.all_empty _), Dict.all_empty _⟩
    exact List.forall_mem_singleton.2 (List.forall_mem_cons.2
      ⟨hann, List.forall_mem_singleton.2 hbob⟩)
  attributes := entrant_writable.attributes
  means := Dict.all_ofList (List.forall_mem_singleton.2 ⟨by decide +kernel, by decide⟩)
  criteria := Dict.all_empty _
  priority := by decide
  createdAt := entrant_writable.createdAt

theorem tournament_load : RuleSet.load tournamentRecord = .ok tournament := rfl

theorem tournament_writable : tournament.Writable IsScore where
  alliance := ⟨⟨by decide, by decide, by decide, by decide⟩, nofun⟩
  distances := List.forall_mem_singleton.2 ⟨by decide +kernel, by decide +kernel, nofun⟩
  flexing := nofun
  allianceFlexing := nofun
  modes := Dict.all_empty _

/-- A ticket, a session, an open session and the rules of the tournament survive, and the rules
    are loaded again of their own text. -/
theorem tournament_survives :
    Survives scoreText Ticket.ofJson? entrant.toJson entrant ∧
    Survives scoreText Session.ofJson? pairing.toJson pairing ∧
    Survives scoreText OpenSession.ofJson? (OpenSession.mk "b-1" pairing).toJson
      ⟨"b-1", pairing⟩ ∧
    Survives scoreText RuleSet.ofJson? tournament.toJson
      { tournament with defaultsApplied := false } ∧
    RuleSet.load tournament.toJson = .ok tournament ∧
    (Json.read? (tournament.toJson.render scoreText)).map RuleSet.load = some (.ok tournament) := by
  obtain ⟨htickets, hsessions, hopen, hrules, hloaded⟩ := records_survive spelling_scoreText
  obtain ⟨hagain, htext⟩ := hloaded tournamentRecord tournament tournament_load
  exact ⟨htickets entrant entrant_writable, hsessions pairing pairing_writable,
    hopen ⟨"b-1", pairing⟩ pairing_writable, hrules tournament tournament_writable, hagain,
    htext tournament_writable⟩

end Json

end Matchmaking
