import Matchmaking.Number.Rational
import Matchmaking.Proofs.Assembly

/-!
# Who is left out

Greedy packing offers the entrants of an order to a team one after the other, to some
teams twice, and does not come back to those whom a team has turned away
(`Packing.TurnsAway`). Nor need it: without roles, a team that takes another entrant turns
them away once more (`Packing.TurnsAway.push`). So a team that has been filled up to the
greatest size turns away everybody who has no place then (`Packing.fill_sates`), and all the
more when fewer are without a place. The entrants of a team that is closed again had no
place before it was opened, and no team is filled after it.

`Packing.pack?_maximal` says so of all teams of a packing.
-/

namespace Matchmaking

variable {α : Type}

/-- Two parties are at odds if one of them blocks a player of the other. -/
def Ticket.AtOdds [Scalar α] (t u : Ticket α) : Prop :=
  (∃ x ∈ t.blocked, x ∈ u.userIds) ∨ ∃ x ∈ u.blocked, x ∈ t.userIds

namespace Packing

variable {p : Packing} {d d' : TeamDraft} {ds : List TeamDraft} {e e' : Entrant α}
  {order : List (Entrant α)} {placed placed' : List Nat}

/-! ## Teams that turn entrants away -/

/-- A team turns an entrant away who does not fit in size, or who blocks or is blocked. -/
def TurnsAway (p : Packing) (d : TeamDraft) (e : Entrant α) : Prop :=
  p.rule.bounds.maxSize < d.players + e.ticket.players ∨ p.clashes d e = true

/-- Without roles, nobody else is turned away. -/
theorem add?_eq_none_iff (htally : d.tally = none) : p.add? d e = none ↔ p.TurnsAway d e := by
  rw [add?, htally, TurnsAway]
  split_ifs with hsize hclash
  · exact iff_of_true rfl (.inl hsize)
  · exact iff_of_true rfl (.inr hclash)
  · exact iff_of_false not_false (not_or.2 ⟨hsize, hclash⟩)

theorem eq_push_of_add? (htally : d.tally = none) (h : p.add? d e = some d') : d' = d.push e := by
  rw [add?, htally] at h
  split_ifs at h
  exact (Option.some_inj.1 h).symm

/-- Whom a team turns away it turns away with one entrant more. -/
theorem TurnsAway.push (h : p.TurnsAway d e) (e' : Entrant α) : p.TurnsAway (d.push e') e := by
  refine h.imp (fun hsize => ?_) fun hclash => ?_
  · exact Nat.lt_of_lt_of_le hsize (Nat.add_le_add_right (Nat.le_add_right _ _) _)
  · obtain ⟨hpolicy, hblocks⟩ := clashes_iff.1 hclash
    refine clashes_iff.2 ⟨hpolicy, hblocks.imp ?_ ?_⟩
    · rintro ⟨x, hx, hxe⟩
      exact ⟨x, NameSet.mem_union.2 (.inl hx), hxe⟩
    · rintro ⟨x, hxe, hx⟩
      exact ⟨x, hxe, NameSet.mem_union.2 (.inl hx)⟩

/-! ## Filling teams up -/

theorem subset_fill (p : Packing) (size : Nat) (es : List (Entrant α)) (d : TeamDraft)
    (placed : List Nat) : placed ⊆ (p.fill size es d placed).2 :=
  (fill_keeps_draft (Q := fun _ => True) (fun _ _ => trivial) size es trivial placed).2

/-- A team without roles that is filled turns those away whom it turned away before. -/
theorem TurnsAway.fill (htally : d.tally = none) (h : p.TurnsAway d e) (size : Nat)
    (es : List (Entrant α)) (placed : List Nat) : p.TurnsAway (p.fill size es d placed).1 e := by
  have hstep : ∀ {d d'} {e' : Entrant α}, d.tally = none ∧ p.TurnsAway d e →
      p.add? d e' = some d' → d'.tally = none ∧ p.TurnsAway d' e := by
    rintro d d' e' ⟨htally, h⟩ hadd
    rw [eq_push_of_add? htally hadd]
    exact ⟨htally, h.push e'⟩
  exact (fill_keeps_draft hstep size es ⟨htally, h⟩ placed).1.2

/-- A team is sated if it turns away every entrant of an order that has players, but no
    place. -/
def Sated (p : Packing) (order : List (Entrant α)) (placed : List Nat) (d : TeamDraft) : Prop :=
  ∀ e ∈ order, e.index ∉ placed → 0 < e.ticket.players → p.TurnsAway d e

theorem Sated.mono (h : p.Sated order placed d) (hsub : placed ⊆ placed') :
    p.Sated order placed' d :=
  fun e he hfresh => h e he fun hplaced => hfresh (hsub hplaced)

/-- A team without roles that is filled up to the greatest size is sated. -/
theorem fill_sates (htally : d.tally = none) (es : List (Entrant α)) (placed : List Nat) :
    p.Sated es (p.fill p.rule.bounds.maxSize es d placed).2
      (p.fill p.rule.bounds.maxSize es d placed).1 := by
  induction es generalizing d placed with
  | nil => exact List.forall_mem_nil _
  | cons e es ih =>
    rw [fill]
    split_ifs with hreaches hplaced
    · -- The team is full, and an entrant with players is one too many.
      intro e _ _ hplayers
      have hfull : p.rule.bounds.maxSize ≤ d.players :=
        of_decide_eq_true (Bool.and_eq_true_iff.1 hreaches).1
      exact .inl (Nat.lt_of_le_of_lt hfull (Nat.lt_add_of_pos_right hplayers))
    · have hsub := subset_fill p p.rule.bounds.maxSize es d placed
      exact List.forall_mem_cons.2
        ⟨fun hfresh => absurd (hsub (List.contains_iff_mem.1 hplaced)) hfresh, ih htally placed⟩
    · cases hadd : p.add? d e with
      | none =>
        -- Whom the team turns away now it turns away when it is full.
        have hturns := TurnsAway.fill htally ((add?_eq_none_iff htally).1 hadd)
          p.rule.bounds.maxSize es placed
        exact List.forall_mem_cons.2 ⟨fun _ _ => hturns, ih htally placed⟩
      | some d' =>
        obtain rfl := eq_push_of_add? htally hadd
        have hsub := subset_fill p p.rule.bounds.maxSize es (d.push e) (e.index :: placed)
        have hrest : p.Sated es _ _ := ih (d := d.push e) htally (e.index :: placed)
        exact List.forall_mem_cons.2
          ⟨fun hfresh => absurd (hsub List.mem_cons_self) hfresh, hrest⟩

/-! ## Teams one after the other -/

theorem subset_topUp (p : Packing) (order : List (Entrant α)) (ds : List TeamDraft)
    (placed : List Nat) : placed ⊆ (p.topUp order ds placed).2 := by
  induction ds generalizing placed with
  | nil => exact List.Subset.refl _
  | cons d ds ih =>
    exact List.Subset.trans (subset_fill p p.rule.bounds.maxSize order d placed) (ih _)

/-- Teams without roles are sated once all of them are filled up. -/
theorem topUp_sates (htally : ∀ d ∈ ds, d.tally = none) (order : List (Entrant α))
    (placed : List Nat) :
    ∀ d ∈ (p.topUp order ds placed).1, p.Sated order (p.topUp order ds placed).2 d := by
  induction ds generalizing placed with
  | nil => exact List.forall_mem_nil _
  | cons d ds ih =>
    obtain ⟨hd, hds⟩ := List.forall_mem_cons.1 htally
    have hfirst := fill_sates hd order placed (p := p)
    -- Those who find a place in a later team are no longer offered to the first one.
    exact List.forall_mem_cons.2 ⟨hfirst.mono (subset_topUp p order ds _), ih hds _⟩

/-- Without roles, further teams are sated: what a team that is closed again gives back
    had no place before it. -/
theorem furtherTeams_sates (hmode : p.mode = .normal) (order : List (Entrant α)) (n team : Nat)
    (placed : List Nat) : ∀ d ∈ (p.furtherTeams order n team placed).1,
      p.Sated order (p.furtherTeams order n team placed).2 d := by
  induction n generalizing team placed with
  | zero => exact List.forall_mem_nil _
  | succ n ih =>
    rcases hnew : p.newTeam p.rule.bounds.maxSize order team placed with ⟨d, placed₁⟩
    have hsated := fill_sates (p := p) (d := .new (p.rule.tally? p.mode team))
      (by rw [hmode]; rfl) order placed
    rw [newTeam] at hnew
    rw [hnew] at hsated
    simp only [furtherTeams, newTeam, hnew]
    by_cases hreaches : d.reaches p.rule.bounds.minSize = true
    · obtain ⟨_, _, hplaces⟩ := furtherTeams_keeps p.keeps_holds order n (team + 1) placed₁
      rw [if_pos hreaches]
      exact List.forall_mem_cons.2 ⟨hsated.mono hplaces.subset, ih _ _⟩
    · rw [if_neg hreaches]
      exact List.forall_mem_nil _

/-- Without roles, no team has any. -/
theorem keeps_plain (hmode : p.mode = .normal) :
    p.Keeps (fun _ d (_ : List (Entrant α)) => d.tally = none) fun _ d _ => d.tally = none where
  new _ := by rw [hmode]; rfl
  add htally hadd := by rw [eq_push_of_add? htally hadd]; exact htally
  satisfied htally _ := htally
  add_satisfied htally hadd := by rw [eq_push_of_add? htally hadd]; exact htally

/-- Without roles, all teams that entrants are put into are sated. -/
theorem drafts?_sates (hmode : p.mode = .normal) (h : p.drafts? order = some (ds, placed)) :
    ∀ d ∈ ds, p.Sated order placed d := by
  obtain ⟨⟨first, placed₁⟩, hfirst, heq⟩ := Option.map_eq_some_iff.1 h
  cases heq
  obtain ⟨seats, hseats, -⟩ := firstTeams?_keeps (keeps_plain hmode) hfirst
  have hplain : ∀ d ∈ first, d.tally = none := by
    have hboth : List.Forall₂ (fun d _ => d.tally = none ∧ True) first seats :=
      hseats.forall₂ fun htally => ⟨htally, trivial⟩
    exact ((List.forall₂_and_left first seats).1 hboth).1
  obtain ⟨_, _, hplaces⟩ := furtherTeams_keeps p.keeps_holds order
    (p.rule.bounds.maxTeams - (p.topUp order first placed₁).1.length)
    (p.topUp order first placed₁).1.length (p.topUp order first placed₁).2
  refine List.forall_mem_append.2 ⟨fun d hd => ?_, furtherTeams_sates hmode order _ _ _⟩
  exact (topUp_sates hplain order placed₁ d hd).mono hplaces.subset

/-! ## Packings -/

/-- Who is seated by a packing: its teams are made of entrants of the order, and whoever is
    none of them has no place. -/
structure Seating (p : Packing) (order : List (Entrant α)) (plans : List TeamPlan)
    (seats : List (List (Entrant α))) : Prop where
  known : seats.flatten ⊆ order
  nodup : (seats.flatten.map (·.index)).Nodup
  packed : ∃ ds placed, p.drafts? order = some (ds, placed) ∧ plans = ds.map (·.finish) ∧
    List.Forall₂ TeamDraft.Holds ds seats ∧ placed.Perm (seats.flatten.map (·.index))

theorem exists_seating {plans : List TeamPlan} (h : p.pack? order = some plans) :
    ∃ seats, p.Seating order plans seats := by
  rw [pack?] at h
  split at h
  · cases h
  · rename_i ds placed hdrafts
    split_ifs at h
    obtain ⟨seats, hseats, hplaces⟩ := drafts?_keeps p.keeps_holds hdrafts
    have hperm : placed.Perm (seats.flatten.map (·.index)) := by simpa using hplaces.perm
    exact ⟨seats, hplaces.known, hperm.nodup_iff.1 (hplaces.nodup .nil), ds, placed, hdrafts,
      (Option.some_inj.1 h).symm, hseats.forall₂ id, hperm⟩

/-- A party cannot join a team that is planned: it is too large for what is left of the team,
    or, under a policy that matters, it is at odds with a party of the team. -/
def Refuses [Scalar α] (p : Packing) (plan : TeamPlan) (team : List (Entrant α)) (t : Ticket α) :
    Prop :=
  p.rule.bounds.maxSize < plan.players + t.players ∨
    p.policy ≠ .canMatch ∧ ∃ u ∈ team, u.ticket.AtOdds t

/-- Whom a team of tickets turns away cannot join it. -/
theorem refuses_of_turnsAway [Scalar α] {team : List (Entrant α)} (hteam : d.Holds team)
    (hof : ∀ u ∈ team, u = .of u.index u.ticket) (he : e = .of e.index e.ticket)
    (h : p.TurnsAway d e) : p.Refuses d.finish team e.ticket := by
  refine h.imp_right fun hclash => ?_
  rw [he] at hclash
  obtain ⟨hpolicy, ⟨x, hx, hxe⟩ | ⟨x, hxe, hx⟩⟩ := clashes_iff.1 hclash
  · obtain ⟨u, hu, hxu⟩ := hteam.mem_blocked.1 hx
    rw [hof u hu] at hxu
    exact ⟨hpolicy, u, hu, .inl ⟨x, hxu, hxe⟩⟩
  · obtain ⟨u, hu, hxu⟩ := hteam.mem_users.1 hx
    rw [hof u hu] at hxu
    exact ⟨hpolicy, u, hu, .inr ⟨x, hxe, hxu⟩⟩

/-- Greedy packing is maximal. If tickets, in whatever order of their numbers, are packed
    into teams without roles, no party with players that is left out could join one of the
    teams. -/
theorem pack?_maximal [Scalar α] {ts : List (Ticket α)} {numbers : List Nat}
    {plans : List TeamPlan} (hmode : p.mode = .normal)
    (hnumbers : numbers.Perm (List.range ts.length))
    (hpack : p.pack? (numbers.filterMap ((Entrant.ofList ts).toArray[·]?)) = some plans) :
    ∃ seats, p.Seating (numbers.filterMap ((Entrant.ofList ts).toArray[·]?)) plans seats ∧
      List.Forall₂ (fun plan team =>
        plan.tickets = team.map (·.ticket.id) ∧ plan.players = total (·.ticket.players) team ∧
        ∀ e ∈ Entrant.ofList ts, e.index ∉ seats.flatten.map (·.index) → 0 < e.ticket.players →
          p.Refuses plan team e.ticket) plans seats := by
  obtain ⟨seats, hseating⟩ := exists_seating hpack
  refine ⟨seats, hseating, ?_⟩
  obtain ⟨hknown, -, ds, placed, hdrafts, rfl, hholds, hplaced⟩ := hseating
  have hofList : seats.flatten ⊆ Entrant.ofList ts :=
    List.Subset.trans hknown (filterMap_getElem?_subset _ _)
  rw [List.forall₂_map_left_iff, List.forall₂_iff_zip] at *
  refine ⟨hholds.1, fun {d team} hmem => ?_⟩
  obtain ⟨hd, hteam⟩ := List.of_mem_zip hmem
  have hown := hholds.2 hmem
  refine ⟨hown.tickets, hown.players_eq, fun e he hleft hplayers => ?_⟩
  -- The order has everybody in it, and the team turns away those who have no place.
  have horder : e ∈ numbers.filterMap ((Entrant.ofList ts).toArray[·]?) := by
    obtain ⟨i, hi, rfl⟩ := List.mem_mapIdx.1 he
    refine List.mem_filterMap.2 ⟨i, hnumbers.mem_iff.2 (List.mem_range.2 hi), ?_⟩
    simp [Entrant.ofList, hi]
  have hturns := drafts?_sates hmode hdrafts d hd e horder
    (fun hplace => hleft (hplaced.mem_iff.1 hplace)) hplayers
  exact refuses_of_turnsAway hown
    (fun u hu => Entrant.eq_of_mem_ofList (hofList (List.mem_flatten_of_mem hteam hu)))
    (Entrant.eq_of_mem_ofList he) hturns

/-! ### A skirmish -/

/-- One team of three players at most, who do not block a teammate. -/
def skirmish : Packing := ⟨.ofBounds ⟨1, 1, 1, 3⟩, .otherTeam, .normal⟩

/-- The ticket of a party that blocks others. -/
def squad (id : String) (users blocked : List String) : Ticket Rat where
  id := id
  channel := "skirmish"
  partyId := id
  members := users.map .ofId
  attributes := .ofList [(Key.blockedPlayers, .list blocked)]
  priority := 0
  createdAt := .ofNanos 0
  latencies := ∅
  excluded := []

/-- The second party is too large for the first one, the third one is blocked by it. -/
def squads : List (Ticket Rat) :=
  [squad "a" ["ann"] ["cid"], squad "b" ["ben", "bob", "bud"] [], squad "c" ["cid"] []]

/-- The first party keeps its team for itself. -/
theorem skirmish_maximal : skirmish.mode = .normal ∧ [0, 2, 1].Perm (List.range squads.length) ∧
    ∃ plans,
      skirmish.pack? ([0, 2, 1].filterMap ((Entrant.ofList squads).toArray[·]?)) = some plans ∧
      plans.map (·.tickets) = [["a"]] ∧
      ∃ seats,
        skirmish.Seating ([0, 2, 1].filterMap ((Entrant.ofList squads).toArray[·]?)) plans seats ∧
        List.Forall₂ (fun plan team =>
          plan.tickets = team.map (·.ticket.id) ∧ plan.players = total (·.ticket.players) team ∧
          ∀ e ∈ Entrant.ofList squads, e.index ∉ seats.flatten.map (·.index) →
            0 < e.ticket.players → skirmish.Refuses plan team e.ticket) plans seats := by
  have hnumbers : [0, 2, 1].Perm (List.range squads.length) := by decide
  have htickets : (skirmish.pack?
      ([0, 2, 1].filterMap ((Entrant.ofList squads).toArray[·]?))).map (·.map (·.tickets)) =
        some [["a"]] := by decide +kernel
  obtain ⟨plans, hpack, hplans⟩ := Option.map_eq_some_iff.1 htickets
  exact ⟨rfl, hnumbers, plans, hpack, hplans, pack?_maximal rfl hnumbers hpack⟩

end Packing

end Matchmaking
