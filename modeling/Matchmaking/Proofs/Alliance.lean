import Mathlib.Data.List.Basic
import Matchmaking.Rules.Alliance

/-!
# Teams that fit a shape

The check of a shape goes through the teams of a match and stops at the first
fault. It finds none exactly when the numbers of teams and players are within
the bounds (`Bounds.Allows`) and nobody meets a player whom the policy keeps away
(`BlockPolicy.Admits`): `AllianceRule.teamsFault?_eq_none_iff`.

Whether a match of a shape can be searched for at all is a matter of its numbers
(`Bounds.Fits`).
-/

namespace Matchmaking

/-- Teams of such sizes are within the bounds. -/
structure Bounds.Allows (b : Bounds) (sizes : List Nat) : Prop where
  minTeams_le : b.minTeams ≤ sizes.length
  le_maxTeams : sizes.length ≤ b.maxTeams
  sizes : ∀ n ∈ sizes, b.minSize ≤ n ∧ n ≤ b.maxSize

/-- The least and the greatest number of players of a match are words. -/
structure Bounds.Counts (b : Bounds) : Prop where
  least : b.minPlayers < Word.size
  most : b.maxPlayers < Word.size

/-- The numbers of a shape fit: the players of its matches can be counted, and there can be
    room for their teams. -/
structure Bounds.Fits (b : Bounds) : Prop extends b.Counts where
  teams : b.maxTeams ≤ greatestTeams

instance (b : Bounds) : Decidable b.Fits :=
  decidable_of_iff (b.minPlayers < Word.size ∧ b.maxPlayers < Word.size ∧
    b.maxTeams ≤ Bounds.greatestTeams) ⟨fun h => ⟨⟨h.1, h.2.1⟩, h.2.2⟩,
      fun h => ⟨h.least, h.most, h.teams⟩⟩

theorem Bounds.searchFailure?_eq_none_iff {b : Bounds} :
    b.searchFailure? = none ↔ b.maxPlayers < Word.size ∧ b.maxTeams ≤ greatestTeams := by
  rw [searchFailure?]
  split_ifs with hplayers hteams
  · exact iff_of_false nofun fun h => Nat.not_lt.2 hplayers h.1
  · exact iff_of_false nofun fun h => Nat.not_lt.2 h.2 hteams
  · exact iff_of_true rfl ⟨Nat.lt_of_not_le hplayers, Nat.le_of_not_lt hteams⟩

theorem Bounds.Fits.searchFailure?_eq_none {b : Bounds} (h : b.Fits) : b.searchFailure? = none :=
  Bounds.searchFailure?_eq_none_iff.2 ⟨h.most, h.teams⟩

/-- A search does not break off for want of a count. -/
theorem Bounds.Counts.searchFailure?_ne {b : Bounds} (h : b.Counts) :
    b.searchFailure? ≠ some .overflow := by
  rw [searchFailure?, if_neg (Nat.not_le.2 h.most)]
  split_ifs <;> nofun

theorem Bounds.sizeFault?_eq_none_iff {b : Bounds} {i : Nat} {ts : List TeamSummary} :
    b.sizeFault? i ts = none ↔ ∀ t ∈ ts, b.minSize ≤ t.players ∧ t.players ≤ b.maxSize := by
  induction ts generalizing i with
  | nil => simp [sizeFault?]
  | cons t ts ih =>
    rw [sizeFault?, List.forall_mem_cons]
    split_ifs with h
    · rw [ih, and_iff_right h]
    · simp [h]

namespace BlockPolicy

/-- Players of teams may meet: under a policy that matters, nobody has a player
    on the team, or in the match, whom someone on the team blocks. -/
def Admits : BlockPolicy → List TeamSummary → Prop
  | canMatch, _ => True
  | otherTeam, ts => ∀ t ∈ ts, ∀ x ∈ t.userIds, x ∉ t.blocked
  | cannotMatch, ts => ∀ t ∈ ts, ∀ u ∈ ts, ∀ x ∈ u.userIds, x ∉ t.blocked

theorem teammateFault?_eq_none_iff {i : Nat} {ts : List TeamSummary} :
    teammateFault? i ts = none ↔ ∀ t ∈ ts, t.blocked.disjoint t.userIds = true := by
  induction ts generalizing i with
  | nil => simp [teammateFault?]
  | cons t ts ih =>
    rw [teammateFault?, List.forall_mem_cons]
    split_ifs with h
    · rw [ih, and_iff_right h]
    · simp [h]

theorem matchFault?_eq_none_iff {users : NameSet} {i : Nat} {ts : List TeamSummary} :
    matchFault? users i ts = none ↔ ∀ t ∈ ts, t.blocked.disjoint users = true := by
  induction ts generalizing i with
  | nil => simp [matchFault?]
  | cons t ts ih =>
    rw [matchFault?, List.forall_mem_cons]
    split_ifs with h
    · rw [ih, and_iff_right h]
    · simp [h]

theorem teamsFault?_eq_none_iff {policy : BlockPolicy} {ts : List TeamSummary} :
    policy.teamsFault? ts = none ↔ policy.Admits ts := by
  cases policy with
  | canMatch => simp [teamsFault?, Admits]
  | otherTeam =>
    simp only [teamsFault?, Admits, teammateFault?_eq_none_iff, NameSet.disjoint_iff]
    exact forall₂_congr fun t _ => ⟨fun h x hx hb => h x hb hx, fun h x hb hx => h x hx hb⟩
  | cannotMatch =>
    simp only [teamsFault?, Admits, matchFault?_eq_none_iff, NameSet.disjoint_iff,
      NameSet.mem_foldl_union, NameSet.not_mem_empty, false_or, not_exists, not_and]
    exact forall₂_congr fun t _ =>
      ⟨fun h u hu x hx hb => h x hb u hu hx, fun h x hb u hu hx => h u hu x hx hb⟩

end BlockPolicy

/-- Teams fit a shape exactly when they are within its bounds and their players
    may meet. -/
theorem AllianceRule.teamsFault?_eq_none_iff {a : AllianceRule} {policy : BlockPolicy}
    {ts : List TeamSummary} :
    a.teamsFault? policy ts = none ↔ a.bounds.Allows (ts.map (·.players)) ∧ policy.Admits ts := by
  rw [teamsFault?]
  split_ifs with h
  · refine iff_of_false nofun fun ⟨hb, _⟩ => ?_
    have := hb.minTeams_le
    have := hb.le_maxTeams
    rw [List.length_map] at *
    omega
  · rw [Option.or_eq_none_iff, Bounds.sizeFault?_eq_none_iff, BlockPolicy.teamsFault?_eq_none_iff]
    refine and_congr_left fun _ => ⟨fun hs => ⟨?_, ?_, by simpa using hs⟩, fun hb => ?_⟩
    · rw [List.length_map]
      omega
    · rw [List.length_map]
      omega
    · simpa using hb.sizes

end Matchmaking
