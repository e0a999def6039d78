import Mathlib.Data.List.Nodup
import Matchmaking.Assembly
import Matchmaking.Proofs.Alliance
import Matchmaking.Proofs.Packing

/-!
# Who is in an assembly

Whatever order an assembly comes from, its teams are made of the pivot and of
tickets that fit it, none of them twice, and fit the shape
(`Assembler.assemble?_seats`).
-/

namespace Matchmaking

theorem filterMap_getElem?_subset {β : Type} (xs : List β) (is : List Nat) :
    is.filterMap (xs.toArray[·]?) ⊆ xs := fun x hx => by
  obtain ⟨i, _, hi⟩ := List.mem_filterMap.1 hx
  exact List.mem_of_getElem? (by simpa using hi)

variable {α : Type} [Scalar α]

/-- What the check of a shape sees of a team of tickets. -/
def TeamSummary.ofTickets (ts : List (Ticket α)) : TeamSummary where
  players := Ticket.totalPlayers ts
  userIds := ts.foldl (fun s t => s.union t.userIds) ∅
  blocked := ts.foldl (fun s t => s.union t.blocked) ∅

theorem TeamSummary.mem_userIds_ofTickets {ts : List (Ticket α)} {x : String} :
    x ∈ (ofTickets ts).userIds ↔ ∃ t ∈ ts, x ∈ t.userIds := by
  simp [ofTickets, NameSet.mem_foldl_union]

theorem TeamSummary.mem_blocked_ofTickets {ts : List (Ticket α)} {x : String} :
    x ∈ (ofTickets ts).blocked ↔ ∃ t ∈ ts, x ∈ t.blocked := by
  simp [ofTickets, NameSet.mem_foldl_union]

namespace BlockPolicy

variable {teams : List (List (Ticket α))} {t u : Ticket α} {x : String}

/-- On a team, nobody blocks a teammate. -/
theorem not_mem_blocked_of_otherTeam (h : otherTeam.Admits (teams.map .ofTickets))
    {team : List (Ticket α)} (hteam : team ∈ teams) (ht : t ∈ team) (hu : u ∈ team)
    (hx : x ∈ u.userIds) : x ∉ t.blocked := by
  intro hblocked
  refine h _ (List.mem_map_of_mem hteam) x ?_ ?_
  · exact TeamSummary.mem_userIds_ofTickets.2 ⟨u, hu, hx⟩
  · exact TeamSummary.mem_blocked_ofTickets.2 ⟨t, ht, hblocked⟩

/-- In a match, nobody blocks another player. -/
theorem not_mem_blocked_of_cannotMatch (h : cannotMatch.Admits (teams.map .ofTickets))
    (ht : t ∈ teams.flatten) (hu : u ∈ teams.flatten) (hx : x ∈ u.userIds) : x ∉ t.blocked := by
  intro hblocked
  obtain ⟨team, hteam, ht⟩ := List.mem_flatten.1 ht
  obtain ⟨team', hteam', hu⟩ := List.mem_flatten.1 hu
  refine h _ (List.mem_map_of_mem hteam) _ (List.mem_map_of_mem hteam') x ?_ ?_
  · exact TeamSummary.mem_userIds_ofTickets.2 ⟨u, hu, hx⟩
  · exact TeamSummary.mem_blocked_ofTickets.2 ⟨t, ht, hblocked⟩

/-- Under a policy that matters, nobody blocks a teammate. -/
theorem not_mem_blocked_of_teammate {policy : BlockPolicy}
    (h : policy.Admits (teams.map .ofTickets)) (hpolicy : policy ≠ canMatch)
    {team : List (Ticket α)} (hteam : team ∈ teams) (ht : t ∈ team) (hu : u ∈ team)
    (hx : x ∈ u.userIds) : x ∉ t.blocked := by
  cases policy with
  | canMatch => exact absurd rfl hpolicy
  | otherTeam => exact not_mem_blocked_of_otherTeam h hteam ht hu hx
  | cannotMatch =>
    exact not_mem_blocked_of_cannotMatch h (List.mem_flatten_of_mem hteam ht)
      (List.mem_flatten_of_mem hteam hu) hx

end BlockPolicy

namespace Entrant

theorem eq_of_mem_ofList {ts : List (Ticket α)} {e : Entrant α} (he : e ∈ ofList ts) :
    e = of e.index e.ticket := by
  obtain ⟨i, hi, rfl⟩ := List.mem_mapIdx.1 he
  rfl

theorem map_ticket_ofList (ts : List (Ticket α)) : (ofList ts).map (·.ticket) = ts := by
  refine List.ext_getElem (by simp [ofList]) fun i hi _ => ?_
  simp [ofList, of]

theorem summary_eq_ofTickets {es : List (Entrant α)} (hes : ∀ e ∈ es, e = of e.index e.ticket) :
    summary es = .ofTickets (es.map (·.ticket)) := by
  have husers : ∀ s : NameSet, es.foldl (fun s e => s.union e.users) s =
      es.foldl (fun s e => s.union e.ticket.userIds) s := fun s =>
    List.foldl_ext _ _ _ fun s e he => by rw [congrArg Entrant.users (hes e he)]; rfl
  have hblocked : ∀ s : NameSet, es.foldl (fun s e => s.union e.blocked) s =
      es.foldl (fun s e => s.union e.ticket.blocked) s := fun s =>
    List.foldl_ext _ _ _ fun s e he => by rw [congrArg Entrant.blocked (hes e he)]; rfl
  simp only [summary, TeamSummary.ofTickets, List.foldl_map, Ticket.totalPlayers, total_map,
    husers, hblocked]

end Entrant

/-- The larger one of two assemblies is one of them. -/
theorem Assembly.larger_cases (a : Assembly) (best : Option Assembly) :
    a.larger best = a ∨ best = some (a.larger best) := by
  cases best with
  | none => exact .inl rfl
  | some b =>
    simp only [larger]
    split_ifs
    · exact .inl rfl
    · exact .inr rfl

namespace Assembler

variable {m : Assembler}

omit [Scalar α] in
/-- What a search over orders ends with is the packing of an order, or what it
    began with. -/
theorem packed?_of_searchOrders {entrants : Array (Entrant α)} {canFill : Bool} {n : Nat}
    {o : Orderings} {best : Option Assembly} {a : Assembly}
    (h : m.searchOrders entrants canFill n o best = some a) :
    best = some a ∨ ∃ order, m.packed? entrants order = some a := by
  induction n generalizing o best with
  | zero => exact .inl h
  | succ n ih =>
    rw [searchOrders] at h
    split at h
    · exact .inl h
    · rename_i order rest _
      split at h
      · exact ih h
      · rename_i a' ha'
        split_ifs at h with hdone
        · exact .inr ⟨order, ha'.trans h⟩
        · rcases ih h with hbest | hlater
          · -- The best one so far is the new one or the one before.
            rcases a'.larger_cases best with hnew | hold
            · exact .inr ⟨order, by rw [ha', ← hbest, hnew]⟩
            · exact .inl (hold.trans hbest)
          · exact .inr hlater

/-- The teams of an assembly, as tickets: the pivot and tickets of a list, none of
    them twice, in teams that fit the shape. -/
structure Seats (m : Assembler) (pivot : Ticket α) (ts : List (Ticket α)) (a : Assembly)
    (teams : List (List (Ticket α))) : Prop where
  tickets : a.teams.map (·.tickets) = teams.map (·.map (·.id))
  players : a.teams.map (·.players) = teams.map Ticket.totalPlayers
  known : teams.flatten.Subperm (pivot :: ts)
  pivot_mem : pivot ∈ teams.flatten
  allows : m.packing.rule.bounds.Allows (teams.map Ticket.totalPlayers)
  admits : m.packing.policy.Admits (teams.map TeamSummary.ofTickets)

/-- What is known of the teams of a packing and of their entrants is known of an assembly:
    it has the plans of drafts, and seats the tickets of their entrants. -/
theorem packed?_keeps {K K' : Nat → TeamDraft → List (Entrant α) → Prop}
    (hkeeps : m.packing.Keeps K K') (hholds : ∀ {team d es}, K' team d es → d.Holds es)
    {pivot : Ticket α} {ts : List (Ticket α)} {order : List Nat} {a : Assembly}
    (h : m.packed? (Entrant.ofList (pivot :: ts)).toArray order = some a) :
    ∃ ds seats, a.teams = ds.map (·.finish) ∧ Packing.Seated K' 0 ds seats ∧
      m.Seats pivot ts a (seats.map (·.map (·.ticket))) := by
  obtain ⟨plans, hpack, rfl⟩ := Option.map_eq_some_iff.1 h
  obtain ⟨ds, seats, rfl, hseats, hknown, hnodup, hzero, hfits⟩ :=
    Packing.pack?_keeps hkeeps hpack
  have hteams : List.Forall₂ TeamDraft.Holds ds seats := hseats.forall₂ hholds
  have hofList : seats.flatten ⊆ Entrant.ofList (pivot :: ts) :=
    List.Subset.trans hknown (filterMap_getElem?_subset _ _)
  -- Entrants with different numbers are different places of the list.
  have hsub : (seats.flatten.map (·.ticket)).Subperm (pivot :: ts) := by
    obtain ⟨es, hperm, hsub⟩ := (List.Nodup.of_map _ hnodup).subperm hofList
    rw [← Entrant.map_ticket_ofList (pivot :: ts)]
    exact ⟨es.map (·.ticket), hperm.map _, hsub.map _⟩
  have hsummary : ds.map (·.summary) = (seats.map (·.map (·.ticket))).map .ofTickets := by
    rw [TeamDraft.summary_of_holds hteams, List.map_map]
    refine List.map_congr_left fun es hes => Entrant.summary_eq_ofTickets fun e he => ?_
    exact Entrant.eq_of_mem_ofList (hofList (List.mem_flatten_of_mem hes he))
  have hplayers := congrArg (List.map TeamSummary.players) hsummary
  rw [hsummary, AllianceRule.teamsFault?_eq_none_iff, List.map_map] at hfits
  refine ⟨ds, seats, rfl, hseats, ?_, ?_, ?_, ?_, ?_, hfits.2⟩
  · rw [List.map_map, List.map_map]
    exact (TeamDraft.tickets_of_holds hteams).trans (by simp [Function.comp_def])
  · rw [List.map_map, List.map_map] at hplayers
    rw [List.map_map]
    exact hplayers
  · simpa [List.map_flatten] using hsub
  · obtain ⟨e, he, hindex⟩ := hzero
    obtain ⟨i, hi, rfl⟩ := List.mem_mapIdx.1 (hofList he)
    obtain rfl : i = 0 := hindex
    rw [← List.map_flatten]
    exact List.mem_map.2 ⟨_, he, rfl⟩
  · exact hfits.1

theorem packed?_of_assemble? {pivot : Ticket α} {ts : List (Ticket α)} {a : Assembly}
    (h : m.assemble? pivot ts = some a) :
    ∃ order, m.packed? (Entrant.ofList (pivot :: ts)).toArray order = some a := by
  obtain hbest | horder := packed?_of_searchOrders h
  · cases hbest
  · exact horder

theorem assemble?_seats {pivot : Ticket α} {ts : List (Ticket α)} {a : Assembly}
    (h : m.assemble? pivot ts = some a) : ∃ teams, m.Seats pivot ts a teams := by
  obtain ⟨order, horder⟩ := packed?_of_assemble? h
  obtain ⟨_, seats, _, _, hseats⟩ := packed?_keeps m.packing.keeps_holds id horder
  exact ⟨_, hseats⟩

end Assembler

end Matchmaking
