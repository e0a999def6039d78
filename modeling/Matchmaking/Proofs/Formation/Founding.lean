import Mathlib.Data.List.Pairwise
import Matchmaking.Proofs.Accord
import Matchmaking.Proofs.Formation.Conservation
import Matchmaking.Proofs.Formation.Shape
import Matchmaking.Proofs.Merge

/-!
# How sessions are founded

A session is founded by its pivot and by others that were found for it
(`Formation.Founds`, `Formation.Forms.founds`): these are the tickets that it seats,
its attributes are theirs, merged, and what they offer is in accord. So every ticket
of a session plays with the platforms of every other one.
-/

namespace Matchmaking

variable {α : Type} [Scalar α]

theorem Accord.nil (kind? : String → Option OptionKind) (narrowing : Bool) (o : Offer) :
    Accord kind? narrowing o [] where
  platforms := fun _ _ => List.pairwise_singleton _ _
  unique := fun _ _ => List.pairwise_singleton _ _
  any := fun _ _ _ hy => ⟨_, hy, List.forall_mem_nil _⟩
  all := fun _ _ _ => List.forall_mem_nil _

namespace Formation

variable {f : Formation α} {ts : List (Ticket α)} {s : Session α}

/-- A session is founded by a pivot, the first of a part of the queue, and others of
    that part. -/
structure Founds (f : Formation α) (queue : List (Ticket α)) (s : Session α) (pivot : Ticket α)
    (others : List (Ticket α)) (teams : List (List (Ticket α))) : Prop where
  seats : s.Seats teams
  perm : (pivot :: others).Perm teams.flatten
  first : ∃ rest, (pivot :: rest).Sublist queue ∧ teams.flatten.Subperm (pivot :: rest)
  attributes : s.attributes = f.rules.sessionAttributes pivot others
  accord : Accord f.rules.optionKind? f.rules.narrowAny pivot.optionNames
    (others.map (·.optionNames))

/-- The tickets of a match, looked up in the queue, are those that its teams seat. -/
theorem Teams.ticketsOf {pivot : Ticket α} {a : Attempt} {rest : List (Ticket α)} {m : Assembly}
    {teams : List (List (Ticket α))} (h : f.Teams pivot a (pivot :: rest) m teams)
    (hpool : ((pivot :: rest).map (·.id)).Nodup) :
    Formation.ticketsOf (pivot :: rest) m.tickets = teams.flatten := by
  have hids : m.tickets = teams.flatten.map (·.id) := by
    rw [Assembly.tickets, List.flatMap_def, h.tickets, List.map_flatten]
  rw [hids, ticketsOf_ids hpool h.subperm.subset]

theorem Forms.founds {queue : List (Ticket α)} (hid : (queue.map (·.id)).Nodup)
    (h : f.Forms queue s) : ∃ pivot others teams, f.Founds queue s pivot others teams := by
  cases h with
  | @round pivot rest a m hsub _ hm =>
    obtain ⟨teams, hteams⟩ := assembly?_teams hm
    have hpool : ((pivot :: rest).map (·.id)).Nodup := hid.sublist (hsub.map _)
    have hnodup : (teams.flatten.map (·.id)).Nodup := by
      obtain ⟨l, hl, hlsub⟩ := hteams.subperm
      exact (hl.map _).nodup_iff.1 (hpool.sublist (hlsub.map _))
    have hperm : (pivot :: Ticket.without [pivot.id] teams.flatten).Perm teams.flatten :=
      Ticket.append_without_perm hnodup (List.singleton_subperm_iff.2 hteams.pivot_mem)
    refine ⟨pivot, Ticket.without [pivot.id] teams.flatten, teams, ?_, hperm, ?_, ?_, ?_⟩
    · exact f.session_seats pivot a hpool hteams.tickets hteams.subperm.subset
    · exact ⟨rest, hsub, hteams.subperm⟩
    · rw [session, Teams.ticketsOf hteams hpool]
      exact RuleSet.sessionAttributes_congr rfl _ _
    · -- The others are candidates, and these are in accord with the pivot.
      obtain ⟨l, hl, hlsub⟩ := (List.subperm_cons pivot).1 (hperm.subperm.trans hteams.known)
      exact ((f.search pivot a).run_accord (Ticket.without [pivot.id] (pivot :: rest))).subperm
        ⟨l.map (·.optionNames), hl.map _, hlsub.map _⟩
  | @solo t _ ht _ =>
    exact ⟨t, [], [[t]], f.soloSession_seats t, .refl _,
      ⟨[], List.singleton_sublist.2 ht, .refl _⟩, rfl, .nil _ _ _⟩

/-- Where parties say with which platforms they play, every ticket of a session plays
    with the platforms of every other one. -/
theorem run_respects_platforms (f : Formation α) (budget : Budget) (hid : (ts.map (·.id)).Nodup)
    (hs : s ∈ (f.run budget ts).sessions)
    (hkind : f.rules.optionKind? Key.crossPlatform = some .any) (hn : f.rules.narrowAny = true)
    {t u : Ticket α} (ht : t ∈ ts) (hu : u ∈ ts) (hts : t.id ∈ s.ticketIds)
    (hus : u.id ∈ s.ticketIds) (htu : t ≠ u) :
    (Platforms.of u.optionNames).accepts (t.optionNames Key.currentPlatform) = true := by
  obtain ⟨pivot, others, teams, hfounds⟩ := (forms_of_mem_run hid hs).founds (queue_nodup hid)
  obtain ⟨rest, hrest, hteams⟩ := hfounds.first
  have hqueue : teams.flatten ⊆ f.queue ts := fun v hv => hrest.subset (hteams.subset hv)
  obtain ⟨t', ht', htt'⟩ := exists_seated hid hfounds.seats hqueue ht hts
  obtain ⟨u', hu', huu'⟩ := exists_seated hid hfounds.seats hqueue hu hus
  -- The tickets as they are seated are different ones as well.
  have hne : t' ≠ u' := by
    rintro rfl
    exact htu (Ticket.eq_of_id_eq hid ht hu (Ticket.id_congr (htt'.symm.trans huu')))
  have hpairs : (pivot :: others).Pairwise fun v w =>
      Offer.Compatible v.optionNames w.optionNames :=
    List.pairwise_map.1 (hfounds.accord.platforms hkind hn)
  have : Std.Symm fun v w : Ticket α => Offer.Compatible v.optionNames w.optionNames :=
    ⟨fun _ _ => Platforms.Compatible.symm⟩
  have hcompatible := hpairs.forall (hfounds.perm.mem_iff.2 ht') (hfounds.perm.mem_iff.2 hu') hne
  rw [← Ticket.optionNames_congr htt', ← Ticket.optionNames_congr huu']
  exact hcompatible.right

/-! ### Platforms of three players -/

/-- Matches of two or three players, each a team of its own, who say with which
    platforms they play. -/
def crossplay : Formation Float where
  rules := { RuleSet.ofAlliance (.ofBounds ⟨2, 3, 1, 1⟩) with
    options := [⟨Key.crossPlatform, .any⟩]
    autoBackfill := true }
  channel := "crossplay"
  now := .ofNanos 0
  cap := 1

/-- The ticket of a player who offers names. -/
def gamer (id : String) (names : List (String × List String)) : Ticket Float where
  id := id
  channel := "crossplay"
  partyId := id
  members := [.ofId id]
  attributes := Dict.ofList (names.map fun e => (e.1, .list e.2))
  priority := 0
  createdAt := .ofNanos 0
  latencies := ∅
  excluded := []

/-- The ticket of a player with the platforms that it plays on and those that it
    desires. -/
def crossPlayer (id : String) (current desired : List String) : Ticket Float :=
  gamer id [(Key.currentPlatform, current), (Key.crossPlatform, desired)]

/-- A player who says only where it plays. -/
def settler : Ticket Float := crossPlayer "a" ["pc"] []

/-- A player on the same platform who would also play with another. -/
def rover : Ticket Float := crossPlayer "b" ["pc"] ["pc", "xbox"]

theorem crossplay_session : ∃ s ∈ (crossplay.run .unlimited [settler, rover]).sessions,
    s.ticketIds = ["a", "b"] := by
  rw [run_unlimited_sessions (by decide) (by decide +kernel) (by decide +kernel)]
  decide +kernel

theorem crossplay_respects_platforms :
    crossplay.rules.optionKind? Key.crossPlatform = some .any ∧ crossplay.rules.narrowAny = true ∧
    ∃ s ∈ (crossplay.run .unlimited [settler, rover]).sessions,
      settler.id ∈ s.ticketIds ∧ rover.id ∈ s.ticketIds ∧
      (Platforms.of rover.optionNames).accepts (settler.optionNames Key.currentPlatform) = true := by
  obtain ⟨s, hs, hids⟩ := crossplay_session
  have hid : ([settler, rover].map (·.id)).Nodup := by decide
  have hkind : crossplay.rules.optionKind? Key.crossPlatform = some .any := by decide
  have hsettler : settler.id ∈ s.ticketIds := by simp [hids, settler, crossPlayer, gamer]
  have hrover : rover.id ∈ s.ticketIds := by simp [hids, rover, crossPlayer, gamer]
  have hne : settler ≠ rover := fun h => absurd (congrArg Ticket.id h) (by decide)
  exact ⟨hkind, rfl, s, hs, hsettler, hrover,
    run_respects_platforms crossplay .unlimited hid hs hkind rfl List.mem_cons_self
      (List.mem_cons_of_mem _ List.mem_cons_self) hsettler hrover hne⟩

end Formation

end Matchmaking
