import Matchmaking.Proofs.Rules.Record

/-!
# Rule sets are loaded again

What is read of a record can be written again, as a count is only read of a number that fits a
word (`Json.OnlyReads`, `RuleSet.onlyReads`). Defaults that were filled in are not filled in again
(`RuleSet.withDefaults_again`). So a rule set that was loaded is loaded again, as the same one, of
its own record (`RuleSet.load_toJson`).
-/

namespace Matchmaking

variable {α β : Type}

namespace Json

variable {p q : β → Prop} {read? : Json α → Option β} {j : Json α} {x : β}

/-! ## What is read -/

/-- Whatever is read has a property. -/
def OnlyReads (read? : Json α → Option β) (p : β → Prop) : Prop := ∀ j x, read? j = some x → p x

theorem onlyReads_count : OnlyReads (count? : Json α → Option Nat) (· < Word.size) := by
  intro j n h
  cases j with
  | int i =>
    rw [count?] at h
    split at h
    · cases h
      omega
    · cases h
  | _ => cases h

theorem onlyReads_readAll {js : List (Json α)} {xs : List β} (hread : OnlyReads read? p)
    (h : readAll? read? js = some xs) : ∀ x ∈ xs, p x := by
  induction js generalizing xs with
  | nil =>
    cases h
    exact List.forall_mem_nil _
  | cons j js ih =>
    rw [readAll?] at h
    split at h
    · rename_i x hx
      obtain ⟨rest, hrest, rfl⟩ := Option.map_eq_some_iff.1 h
      exact List.forall_mem_cons.2 ⟨hread j x hx, ih hrest⟩
    · cases h

theorem OnlyReads.list (hread : OnlyReads read? p) :
    OnlyReads (list? read?) fun xs => ∀ x ∈ xs, p x := by
  intro j xs h
  cases j with
  | arr items => exact onlyReads_readAll hread h
  | _ => cases h

theorem onlyReads_readFields {fs : List (String × Json α)} {es : List (String × β)}
    (hread : OnlyReads read? p) (h : readFields? read? fs = some es) : ∀ e ∈ es, p e.2 := by
  induction fs generalizing es with
  | nil =>
    cases h
    exact List.forall_mem_nil _
  | cons f fs ih =>
    rw [readFields?] at h
    split at h
    · rename_i x hx
      obtain ⟨rest, hrest, rfl⟩ := Option.map_eq_some_iff.1 h
      exact List.forall_mem_cons.2 ⟨hread f.2 x hx, ih hrest⟩
    · cases h

theorem OnlyReads.dict (hread : OnlyReads read? p) : OnlyReads (dict? read?) (Dict.All p) := by
  intro j d h
  cases j with
  | obj fields =>
    obtain ⟨es, hes, rfl⟩ := Option.map_eq_some_iff.1 h
    exact Dict.all_ofList (onlyReads_readFields hread hes)
  | _ => cases h

section Parts

variable {parts : Parts α} {k : String}

theorem OnlyReads.required (hread : OnlyReads read? p) (h : parts.required k read? = some x) :
    p x := by
  obtain ⟨j, -, hj⟩ := Option.bind_eq_some_iff.1 h
  exact hread j x hj

theorem OnlyReads.default {v : β} (hread : OnlyReads read? p) (hv : p v)
    (h : parts.default k v read? = some x) : p x := by
  rw [Parts.default] at h
  split at h
  · cases h
    exact hv
  · exact hread _ x h

theorem OnlyReads.optional {o : Option β} (hread : OnlyReads read? p)
    (h : parts.optional k read? = some o) : ∀ x ∈ o, p x := by
  rw [Parts.optional] at h
  split at h
  · cases h
    rintro x ⟨⟩
  · cases h
    rintro x ⟨⟩
  · obtain ⟨y, hy, rfl⟩ := Option.map_eq_some_iff.1 h
    rintro x ⟨⟩
    exact hread _ _ hy

end Parts

end Json

open Json (Image OnlyReads Parts)

/-! ## What is read can be written -/

theorem Role.onlyReads : OnlyReads (ofJson? : Json α → Option Role) Writable := by
  intro j r h
  -- The record and the name of the role are read before its bounds.
  obtain ⟨_, -, h⟩ := Option.bind_eq_some_iff.1 h
  obtain ⟨_, -, h⟩ := Option.bind_eq_some_iff.1 h
  obtain ⟨_, hmin, h⟩ := Option.bind_eq_some_iff.1 h
  obtain ⟨_, hmax, h⟩ := Option.bind_eq_some_iff.1 h
  cases h
  exact ⟨Json.onlyReads_count.default (by decide) hmin,
    Json.onlyReads_count.required hmax⟩

theorem RoleCombination.onlyReads :
    OnlyReads (ofJson? : Json α → Option RoleCombination) Writable := by
  intro j c h
  obtain ⟨_, -, h⟩ := Option.bind_eq_some_iff.1 h
  obtain ⟨_, -, h⟩ := Option.bind_eq_some_iff.1 h
  obtain ⟨_, -, h⟩ := Option.bind_eq_some_iff.1 h
  obtain ⟨_, hteams, h⟩ := Option.bind_eq_some_iff.1 h
  obtain ⟨_, -, h⟩ := Option.bind_eq_some_iff.1 h
  obtain ⟨_, hseconds, h⟩ := Option.bind_eq_some_iff.1 h
  obtain ⟨_, hplayers, h⟩ := Option.bind_eq_some_iff.1 h
  cases h
  exact ⟨Role.onlyReads.list.list.default (List.forall_mem_nil _) hteams,
    Json.onlyReads_count.default (by decide) hseconds,
    Json.onlyReads_count.default (by decide) hplayers⟩

theorem Bounds.writable_of_ofParts? {p : Parts α} {b : Bounds} (h : ofParts? p = some b) :
    b.Writable := by
  obtain ⟨_, hminTeams, h⟩ := Option.bind_eq_some_iff.1 h
  obtain ⟨_, hmaxTeams, h⟩ := Option.bind_eq_some_iff.1 h
  obtain ⟨_, hminSize, h⟩ := Option.bind_eq_some_iff.1 h
  obtain ⟨_, hmaxSize, h⟩ := Option.bind_eq_some_iff.1 h
  cases h
  exact ⟨Json.onlyReads_count.required hminTeams,
    Json.onlyReads_count.required hmaxTeams,
    Json.onlyReads_count.required hminSize,
    Json.onlyReads_count.required hmaxSize⟩

theorem AllianceRule.onlyReads : OnlyReads (ofJson? : Json α → Option AllianceRule) Writable := by
  intro j a h
  obtain ⟨_, -, h⟩ := Option.bind_eq_some_iff.1 h
  obtain ⟨_, hbounds, h⟩ := Option.bind_eq_some_iff.1 h
  obtain ⟨_, hcombination, h⟩ := Option.bind_eq_some_iff.1 h
  cases h
  exact ⟨Bounds.writable_of_ofParts? hbounds,
    RoleCombination.onlyReads.optional hcombination⟩

theorem AllianceFlexing.onlyReads :
    OnlyReads (ofJson? : Json α → Option AllianceFlexing) Writable := by
  intro j f h
  obtain ⟨_, -, h⟩ := Option.bind_eq_some_iff.1 h
  obtain ⟨_, hduration, h⟩ := Option.bind_eq_some_iff.1 h
  obtain ⟨_, hbounds, h⟩ := Option.bind_eq_some_iff.1 h
  cases h
  exact ⟨Json.onlyReads_count.required hduration, Bounds.writable_of_ofParts? hbounds⟩

theorem Mode.onlyReads : OnlyReads (ofJson? : Json α → Option Mode) Writable := by
  intro j m h
  obtain ⟨_, -, h⟩ := Option.bind_eq_some_iff.1 h
  obtain ⟨_, halliance, h⟩ := Option.bind_eq_some_iff.1 h
  obtain ⟨_, hflexing, h⟩ := Option.bind_eq_some_iff.1 h
  cases h
  exact ⟨AllianceRule.onlyReads.required halliance,
    AllianceFlexing.onlyReads.list.default (List.forall_mem_nil _) hflexing⟩

variable [Scalar α]

omit [Scalar α] in
/-- Any scalar will do. -/
theorem DistanceRule.writable (d : DistanceRule α) : d.Writable fun _ => True :=
  ⟨trivial, fun _ _ => trivial, fun _ _ => trivial⟩

theorem FlexingRule.onlyReads :
    OnlyReads (ofJson? : Json α → Option (FlexingRule α)) (Writable fun _ => True) := by
  intro j f h
  obtain ⟨_, -, h⟩ := Option.bind_eq_some_iff.1 h
  obtain ⟨_, -, h⟩ := Option.bind_eq_some_iff.1 h
  obtain ⟨_, hduration, h⟩ := Option.bind_eq_some_iff.1 h
  obtain ⟨_, -, h⟩ := Option.bind_eq_some_iff.1 h
  obtain ⟨_, -, h⟩ := Option.bind_eq_some_iff.1 h
  cases h
  exact ⟨Json.onlyReads_count.required hduration, trivial⟩

namespace RuleSet

variable {r : RuleSet α} {j : Json α}

/-- A rule set that is read can be written, and its defaults are not filled in. -/
theorem onlyReads : OnlyReads (ofJson? : Json α → Option (RuleSet α))
    fun r => r.Writable (fun _ => True) ∧ r.defaultsApplied = false := by
  intro j r h
  obtain ⟨_, -, h⟩ := Option.bind_eq_some_iff.1 h
  obtain ⟨_, halliance, h⟩ := Option.bind_eq_some_iff.1 h
  obtain ⟨_, -, h⟩ := Option.bind_eq_some_iff.1 h
  obtain ⟨_, hflexing, h⟩ := Option.bind_eq_some_iff.1 h
  obtain ⟨_, hallianceFlexing, h⟩ := Option.bind_eq_some_iff.1 h
  -- The options, the regions and the policy are of any kind.
  iterate 6 obtain ⟨_, -, h⟩ := Option.bind_eq_some_iff.1 h
  obtain ⟨_, hmodes, h⟩ := Option.bind_eq_some_iff.1 h
  iterate 3 obtain ⟨_, -, h⟩ := Option.bind_eq_some_iff.1 h
  cases h
  exact ⟨⟨AllianceRule.onlyReads.required halliance, fun d _ => d.writable,
    FlexingRule.onlyReads.list.default (List.forall_mem_nil _) hflexing,
    AllianceFlexing.onlyReads.list.default (List.forall_mem_nil _) hallianceFlexing,
    Mode.onlyReads.dict.default (Dict.all_empty _) hmodes⟩, rfl⟩

end RuleSet

/-! ## Defaults -/

theorem Bounds.withDefaults_withDefaults (b : Bounds) :
    b.withDefaults.withDefaults = b.withDefaults := by
  simp only [withDefaults, Bounds.mk.injEq]
  split_ifs <;> simp_all

theorem Bounds.Writable.withDefaults {b : Bounds} (h : b.Writable) : b.withDefaults.Writable := by
  obtain ⟨hminTeams, hmaxTeams, hminSize, hmaxSize⟩ := h
  have hone : 1 < Word.size := by decide
  constructor <;> simp only [Bounds.withDefaults] <;> split_ifs <;> assumption

theorem AllianceRule.withDefaults_withDefaults (a : AllianceRule) :
    a.withDefaults.withDefaults = a.withDefaults := by
  rw [withDefaults, withDefaults, Bounds.withDefaults_withDefaults]

theorem AllianceRule.Writable.withDefaults {a : AllianceRule} (h : a.Writable) :
    a.withDefaults.Writable := ⟨h.bounds.withDefaults, h.combination⟩

namespace RuleSet

variable {r : RuleSet α} {j : Json α}

/-- Defaults that were filled in are not filled in again. -/
theorem withDefaults_again (h : r.defaultsApplied = false) :
    withDefaults { r.withDefaults with defaultsApplied := false } = r.withDefaults := by
  simp only [withDefaults, h, Bool.false_eq_true, if_false]
  simp only [mk.injEq, AllianceRule.withDefaults_withDefaults, List.map_map, true_and, and_true]
  -- The weights that were filled in are given, the second time.
  refine ⟨?distances, ?modes⟩
  case distances => rfl
  case modes =>
    refine Dict.ext fun k => ?_
    simp only [Dict.get?_map, Option.map_map, Function.comp_def,
      AllianceRule.withDefaults_withDefaults]

theorem Writable.withDefaults (h : r.Writable fun _ => True) :
    r.withDefaults.Writable fun _ => True := by
  rw [RuleSet.withDefaults]
  split
  · exact h
  · exact ⟨h.alliance.withDefaults, fun d _ => d.writable, h.flexing, h.allianceFlexing,
      h.modes.map fun m hm => ⟨hm.alliance.withDefaults, hm.flexing⟩⟩

/-- A rule set that is loaded is one that is read, with its defaults, and has no fault. -/
theorem exists_of_load (h : load j = .ok r) :
    ∃ r₀, ofJson? j = some r₀ ∧ r = r₀.withDefaults ∧ r.fault? = none := by
  rw [load] at h
  split at h
  · cases h
  · rename_i r₀ hr₀
    rw [resolve] at h
    split at h
    · cases h
      exact ⟨r₀, hr₀, rfl, by assumption⟩
    · cases h

/-- A rule set that is loaded can be written. -/
theorem writable_of_load (h : load j = .ok r) : r.Writable fun _ => True := by
  obtain ⟨r₀, hread, rfl, -⟩ := exists_of_load h
  exact (onlyReads j r₀ hread).1.withDefaults

/-- A rule set that is loaded is loaded again of its own record. -/
theorem load_toJson (h : load j = .ok r) : load r.toJson = .ok r := by
  have himage : Image (fun _ => True) 8 _ _ _ := image (writable_of_load h)
  obtain ⟨r₀, hr₀, rfl, hfault⟩ := exists_of_load h
  have hagain := withDefaults_again (onlyReads j r₀ hr₀).2
  rw [load, himage.reads]
  simp only [resolve]
  rw [hagain, hfault]

end RuleSet

end Matchmaking
