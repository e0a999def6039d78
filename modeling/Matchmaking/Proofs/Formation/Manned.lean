import Matchmaking.Proofs.Formation.Shape
import Matchmaking.Proofs.Rules.Load

/-!
# Teams without players

A rule set that is loaded asks for a player on every team, in whatever mode: a least
size that is not given is one (`RuleSet.minSize_ne_zero_of_load`). What replaces the
bounds in time is taken as it is. So a team of a new session is without players only
while bounds are in force that replace others and ask for none
(`Formation.run_manned`), and then it can be (`Formation.parade_unmanned`).
-/

namespace Matchmaking

variable {α : Type}

theorem Bounds.withDefaults_minSize_ne_zero (b : Bounds) : b.withDefaults.minSize ≠ 0 := by
  show (if b.minSize = 0 then 1 else b.minSize) ≠ 0
  split_ifs with h
  · exact Nat.one_ne_zero
  · exact h

namespace RuleSet

variable [Scalar α] {r : RuleSet α}

/-- The defaults of all shapes are filled in. -/
theorem allianceFor_withDefaults (h : r.defaultsApplied = false) (mode : Option String) :
    r.withDefaults.allianceFor mode = (r.allianceFor mode).withDefaults := by
  have hmode : r.withDefaults.mode? mode =
      (r.mode? mode).map fun m => { m with alliance := m.alliance.withDefaults } := by
    cases mode with
    | none => rfl
    | some name =>
      rw [withDefaults, h, if_neg Bool.false_ne_true]
      exact Dict.get?_map _ _ name
  have halliance : r.withDefaults.alliance = r.alliance.withDefaults := by
    rw [withDefaults, h, if_neg Bool.false_ne_true]
  rw [allianceFor, allianceFor, hmode, halliance]
  cases r.mode? mode <;> rfl

/-- A rule set that is loaded asks for a player on every team, before anything
    replaces its bounds. -/
theorem minSize_ne_zero_of_load {j : Json α} (h : load j = .ok r) (mode : Option String) :
    (r.allianceFor mode).bounds.minSize ≠ 0 := by
  obtain ⟨r₀, hread, rfl, -⟩ := exists_of_load h
  rw [allianceFor_withDefaults (onlyReads j r₀ hread).2]
  exact Bounds.withDefaults_minSize_ne_zero _

omit [Scalar α] in
/-- Where no player is asked for, other bounds than the first ones are in force. -/
theorem exists_inForce?_of_minSize_eq_zero {mode : Option String} {anchor now : Instant}
    (hr : (r.allianceFor mode).bounds.minSize ≠ 0)
    (h : (r.allianceAt anchor now mode).1.bounds.minSize = 0) :
    ∃ g, inForce? AllianceFlexing.duration anchor now (r.allianceFlexingFor mode) = some g ∧
      g.bounds.minSize = 0 := by
  rw [allianceAt, AllianceRule.flexedAt] at h
  split at h
  · rename_i g hg
    exact ⟨g, hg, h⟩
  · exact absurd h hr

end RuleSet

namespace Session

variable {s : Session α}

theorem mem_teamSizes {a : Alliance α} (ha : a ∈ s.alliances) : a.members.length ∈ s.teamSizes :=
  List.mem_map.2 ⟨a, ha, (length_flatMap_eq_total Party.members a.parties).symm⟩

/-- A session with a founder has a team. -/
theorem alliances_ne_nil_of_founder? {ts : List (Ticket α)} {t : Ticket α}
    (h : s.founder? ts = some t) : s.alliances ≠ [] := by
  intro hs
  have ht : s.ticketIds.contains t.id = true :=
    List.find?_some (p := fun t : Ticket α => s.ticketIds.contains t.id) h
  rw [ticketIds, parties, hs] at ht
  cases ht

end Session

namespace Formation

variable [Scalar α] {f : Formation α} {ts : List (Ticket α)} {s : Session α}

/-- A new session has a team, and a team of it is without players only if bounds are in
    force for its founder that replace the first ones and ask for no player. -/
theorem run_manned {j : Json α} (hr : RuleSet.load j = .ok f.rules) (budget : Budget)
    (hid : (ts.map (·.id)).Nodup) (hs : s ∈ (f.run budget ts).sessions) :
    s.alliances ≠ [] ∧ ∃ t, s.founder? ts = some t ∧ ∀ a ∈ s.alliances, a.members = [] →
      ∃ g, inForce? AllianceFlexing.duration t.createdAt f.now
          (f.rules.allianceFlexingFor s.mode) = some g ∧ g.bounds.minSize = 0 := by
  obtain ⟨t, ht, hconforms⟩ := (forms_of_mem_run hid hs).conforms hid
  refine ⟨Session.alliances_ne_nil_of_founder? ht, t, ht, fun a ha hempty => ?_⟩
  have hsize := (hconforms.allows.sizes _ (Session.mem_teamSizes ha)).1
  rw [hempty] at hsize
  exact RuleSet.exists_inForce?_of_minSize_eq_zero (RuleSet.minSize_ne_zero_of_load hr s.mode)
    (Nat.le_zero.1 hsize)

/-! ### A parade -/

/-- The rules of a parade of two teams of one, of which after ten seconds one is enough,
    and may be without players. -/
def paradeRecord : Json Float :=
  .obj [
    ("alliance", .obj [("min_number", .int 2), ("max_number", .int 2),
      ("player_min_number", .int 1), ("player_max_number", .int 1)]),
    ("alliance_flexing_rule", .arr [.obj [("duration", .int 10), ("min_number", .int 1),
      ("max_number", .int 2), ("player_min_number", .int 0), ("player_max_number", .int 1)]])]

/-- The parade, after a minute. -/
def parade : Formation Float where
  rules := { RuleSet.ofAlliance (.ofBounds ⟨2, 2, 1, 1⟩) with
    allianceFlexing := [⟨10, ⟨1, 2, 0, 1⟩⟩]
    defaultsApplied := true }
  channel := "parade"
  now := .ofNanos (60 * Instant.second)
  cap := 1

theorem parade_load : RuleSet.load paradeRecord = .ok parade.rules := rfl

/-- The first team has the player, and the other one has none. -/
theorem parade_session : ∃ s ∈ (parade.run .unlimited [duelist "a" []]).sessions,
    ∃ a ∈ s.alliances, a.members = [] := by
  rw [run_unlimited_sessions (by decide) (by decide +kernel) (by decide +kernel)]
  decide +kernel

theorem parade_manned : ∃ s ∈ (parade.run .unlimited [duelist "a" []]).sessions,
    s.alliances ≠ [] ∧ ∃ t, s.founder? [duelist "a" []] = some t ∧
      ∀ a ∈ s.alliances, a.members = [] →
        ∃ g, inForce? AllianceFlexing.duration t.createdAt parade.now
            (parade.rules.allianceFlexingFor s.mode) = some g ∧ g.bounds.minSize = 0 := by
  obtain ⟨s, hs, -⟩ := parade_session
  exact ⟨s, hs, run_manned parade_load .unlimited (by decide) hs⟩

/-- A player who waits for a minute meets a team without players. -/
theorem parade_unmanned : RuleSet.load paradeRecord = .ok parade.rules ∧
    ([duelist "a" []].map (·.id)).Nodup ∧ (∀ t ∈ [duelist "a" []], t.members ≠ []) ∧
      ∃ s ∈ (parade.run .unlimited [duelist "a" []]).sessions, ∃ a ∈ s.alliances,
        a.members = [] :=
  ⟨parade_load, by decide, by decide, parade_session⟩

end Formation

end Matchmaking
