import Mathlib.Data.List.Induction
import Matchmaking.Proofs.Formation.Round

/-!
# Teams that are ready

Greedy packing leaves teams as they are if parties come team by team: as many teams
as a match has, each of the size that all teams have, and of parties that may meet
(`Packing.Ready`). Every team is then filled by its own parties, in their order,
and by no others, as it is full after the last of them (`Packing.fill_team`), and
the parties of earlier teams are passed over (`Packing.fill_append_of_placed`).

The order in which parties come is the first one that is packed. So if the pivot and
the tickets that fit it come in ready teams, the match is these teams, however few
orders may be packed (`Assembler.assemble?_of_ready`).
-/

namespace Matchmaking

variable {α : Type}

/-! ## Lists -/

/-- A list is what it has at its places. -/
theorem filterMap_getElem?_range {β : Type} (xs : List β) :
    (List.range xs.length).filterMap (xs.toArray[·]?) = xs := by
  have htake : ∀ n, (List.range n).filterMap (xs.toArray[·]?) = xs.take n := fun n => by
    induction n with
    | zero => rfl
    | succ n ih =>
      rw [List.range_succ, List.filterMap_append, ih, List.take_add_one]
      cases h : xs[n]? <;> simp [h]
  rw [htake, List.take_length]

/-- A list can be cut where an image of it is. -/
theorem exists_flatten_of_map {β γ : Type} {f : β → γ} {xs : List β} {yss : List (List γ)}
    {rest : List γ} (h : xs.map f = yss.flatten ++ rest) :
    ∃ (xss : List (List β)) (rest' : List β),
      xs = xss.flatten ++ rest' ∧ xss.map (·.map f) = yss := by
  induction yss generalizing xs with
  | nil => exact ⟨[], xs, rfl, rfl⟩
  | cons ys yss ih =>
    rw [List.flatten_cons, List.append_assoc] at h
    obtain ⟨us, vs, rfl, hus, hvs⟩ := List.map_eq_append_iff.1 h
    obtain ⟨xss, rest', rfl, hxss⟩ := ih hvs
    exact ⟨us :: xss, rest', by simp, by rw [List.map_cons, hus, hxss]⟩

namespace Entrant

variable [Scalar α]

theorem nodup_index_ofList (ts : List (Ticket α)) : ((ofList ts).map (·.index)).Nodup := by
  have : (ofList ts).map (·.index) = List.range ts.length :=
    List.ext_getElem (by simp [ofList]) fun i hi _ => by simp [ofList, of]
  exact this ▸ List.nodup_range

/-- The first of some tickets has the number zero. -/
theorem exists_ofList_cons (t : Ticket α) (ts : List (Ticket α)) :
    ∃ es, ofList (t :: ts) = of 0 t :: es := ⟨_, List.mapIdx_cons⟩

end Entrant

/-! ## Drafts without roles -/

/-- The draft of a team of entrants, without roles. -/
def TeamDraft.ofEntrants (es : List (Entrant α)) : TeamDraft := es.foldl push (.new none)

namespace TeamDraft

theorem ofEntrants_concat (es : List (Entrant α)) (e : Entrant α) :
    ofEntrants (es ++ [e]) = (ofEntrants es).push e := List.foldl_concat _ _ _ _

theorem ofEntrants_holds (es : List (Entrant α)) : (ofEntrants es).Holds es := by
  induction es using List.reverseRecOn with
  | nil => exact holds_new none
  | append_singleton es e ih => exact ofEntrants_concat es e ▸ ih.push e

theorem ofEntrants_tally (es : List (Entrant α)) : (ofEntrants es).tally = none := by
  induction es using List.reverseRecOn with
  | nil => rfl
  | append_singleton es e ih => exact ofEntrants_concat es e ▸ ih

theorem ofEntrants_players (es : List (Entrant α)) :
    (ofEntrants es).players = total (·.ticket.players) es := (ofEntrants_holds es).players_eq

theorem ofEntrants_reaches {es : List (Entrant α)} {size : Nat} :
    (ofEntrants es).reaches size = true ↔ size ≤ total (·.ticket.players) es := by
  simp [reaches, isSatisfied, ofEntrants_tally, ofEntrants_players]

end TeamDraft

/-! ## Filling a team that is ready -/

namespace Packing

variable {p : Packing} {size : Nat} {team rest : List (Entrant α)} {placed : List Nat}

/-- Entrants are at peace if, under a policy that matters on a team, nobody blocks
    another. -/
def Peace (p : Packing) (es : List (Entrant α)) : Prop :=
  p.policy ≠ .canMatch → ∀ e ∈ es, ∀ e' ∈ es, ∀ x ∈ e'.users, x ∉ e.blocked

theorem clashes_eq_false {es before : List (Entrant α)} (h : p.Peace es) (hbefore : before ⊆ es)
    {e : Entrant α} (he : e ∈ es) : p.clashes (.ofEntrants before) e = false := by
  refine Bool.eq_false_iff.2 fun hclash => ?_
  obtain ⟨hpolicy, ⟨x, hx, hxe⟩ | ⟨x, hxe, hx⟩⟩ := clashes_iff.1 hclash
  · obtain ⟨e', he', hx⟩ := (TeamDraft.ofEntrants_holds before).mem_blocked.1 hx
    exact h hpolicy e' (hbefore he') e he x hxe hx
  · obtain ⟨e', he', hx⟩ := (TeamDraft.ofEntrants_holds before).mem_users.1 hx
    exact h hpolicy e he e' (hbefore he') x hx hxe

theorem add?_ofEntrants {before : List (Entrant α)} {e : Entrant α}
    (hpeace : p.Peace (before ++ [e]))
    (hsize : total (·.ticket.players) before + e.ticket.players ≤ p.rule.bounds.maxSize) :
    p.add? (.ofEntrants before) e = some (.ofEntrants (before ++ [e])) := by
  have hclash : p.clashes (.ofEntrants before) e = false :=
    clashes_eq_false hpeace (List.subset_append_left _ _) (by simp)
  rw [add?, TeamDraft.ofEntrants_players, if_neg (by omega), if_neg (by simp [hclash]),
    TeamDraft.ofEntrants_tally, TeamDraft.ofEntrants_concat]

/-- Those who have a place are passed over. -/
theorem fill_append_of_placed {es : List (Entrant α)} (hes : ∀ e ∈ es, e.index ∈ placed)
    (d : TeamDraft) : p.fill size (es ++ rest) d placed = p.fill size rest d placed := by
  by_cases hr : d.reaches size = true
  · rw [fill_of_reaches hr, fill_of_reaches hr]
  · induction es with
    | nil => rfl
    | cons e es ih =>
      obtain ⟨he, hes⟩ := List.forall_mem_cons.1 hes
      rw [List.cons_append, fill, if_neg hr, if_pos (List.contains_iff_mem.2 he)]
      exact ih hes

/-- A team of a size is filled by its own entrants, and by no others. -/
theorem fill_team (before : List (Entrant α)) (hmax : size ≤ p.rule.bounds.maxSize)
    (hsize : total (·.ticket.players) (before ++ team) = size)
    (hmanned : ∀ e ∈ team, 0 < e.ticket.players) (hpeace : p.Peace (before ++ team))
    (hfresh : ∀ e ∈ team, e.index ∉ placed) (hnodup : (team.map (·.index)).Nodup) :
    p.fill size (team ++ rest) (.ofEntrants before) placed =
      (.ofEntrants (before ++ team), (team.map (·.index)).reverse ++ placed) := by
  -- The induction is on the part of the team that has no place yet.
  induction team generalizing before placed with
  | nil =>
    rw [List.append_nil] at hsize
    rw [fill_of_reaches (TeamDraft.ofEntrants_reaches.2 (Nat.le_of_eq hsize.symm))]
    simp
  | cons e team ih =>
    obtain ⟨he, hmanned⟩ := List.forall_mem_cons.1 hmanned
    obtain ⟨hnew, hfresh⟩ := List.forall_mem_cons.1 hfresh
    obtain ⟨hindex, hnodup⟩ := List.nodup_cons.1 hnodup
    have hplayers : total (·.ticket.players) before + e.ticket.players +
        total (·.ticket.players) team = size := by simpa [Nat.add_assoc] using hsize
    rw [List.append_cons before e team] at hsize hpeace ⊢
    have hadd : p.add? (.ofEntrants before) e = some (.ofEntrants (before ++ [e])) := by
      refine add?_ofEntrants (fun hpolicy e₁ he₁ e₂ he₂ => ?_) (by omega)
      exact hpeace hpolicy e₁ (List.mem_append_left _ he₁) e₂ (List.mem_append_left _ he₂)
    have hfresh' : ∀ e' ∈ team, e'.index ∉ e.index :: placed := fun e' he' => by
      rw [List.mem_cons, not_or]
      exact ⟨fun h => hindex (List.mem_map.2 ⟨e', he', h⟩), hfresh e' he'⟩
    have hopen : ¬(TeamDraft.ofEntrants before).reaches size = true := by
      rw [TeamDraft.ofEntrants_reaches]
      omega
    rw [List.cons_append, fill, if_neg hopen, if_neg (by simpa using hnew), hadd]
    refine (ih _ hsize hmanned hpeace hfresh' hnodup).trans ?_
    simp

/-! ## Packing teams that are ready -/

/-- The teams that there must be are filled one after the other, if each of them has
    the size that it must have. -/
theorem firstTeams?_teams (before : List (Entrant α)) {order : List (Entrant α)}
    {seats : List (List (Entrant α))} (horder : order = before ++ (seats.flatten ++ rest))
    (hmode : p.mode = .normal) (hmax : p.rule.bounds.minSize ≤ p.rule.bounds.maxSize)
    (hsize : ∀ team ∈ seats, total (·.ticket.players) team = p.rule.bounds.minSize)
    (hmanned : ∀ team ∈ seats, ∀ e ∈ team, 0 < e.ticket.players)
    (hpeace : ∀ team ∈ seats, p.Peace team) (hbefore : ∀ e ∈ before, e.index ∈ placed)
    (hfresh : ∀ e ∈ seats.flatten, e.index ∉ placed)
    (hnodup : (seats.flatten.map (·.index)).Nodup) (i : Nat) :
    p.firstTeams? order seats.length i placed =
      some (seats.map .ofEntrants, (seats.flatten.map (·.index)).reverse ++ placed) := by
  induction seats generalizing before placed i with
  | nil => rfl
  | cons team seats ih =>
    rw [List.forall_mem_cons] at hsize hmanned hpeace
    rw [List.flatten_cons, List.append_assoc, ← List.append_assoc] at horder
    rw [List.flatten_cons, List.forall_mem_append] at hfresh
    rw [List.flatten_cons, List.map_append, List.nodup_append] at hnodup
    have hnew : p.newTeam p.rule.bounds.minSize order i placed =
        (.ofEntrants team, (team.map (·.index)).reverse ++ placed) := by
      have htally : p.rule.tally? p.mode i = none := by rw [hmode]; rfl
      rw [newTeam, htally, horder, List.append_assoc, fill_append_of_placed hbefore]
      exact fill_team [] hmax hsize.1 hmanned.1 hpeace.1 hfresh.1 hnodup.1
    have hreaches : (TeamDraft.ofEntrants team).reaches p.rule.bounds.minSize = true :=
      TeamDraft.ofEntrants_reaches.2 (Nat.le_of_eq hsize.1.symm)
    -- The team goes to those who have a place, before the teams after it.
    have hplaced : ∀ e ∈ before ++ team, e.index ∈ (team.map (·.index)).reverse ++ placed := by
      intro e he
      rcases List.mem_append.1 he with he | he
      · exact List.mem_append_right _ (hbefore e he)
      · exact List.mem_append_left _ (List.mem_reverse.2 (List.mem_map_of_mem he))
    have hlater : ∀ e ∈ seats.flatten, e.index ∉ (team.map (·.index)).reverse ++ placed := by
      intro e he hmem
      rcases List.mem_append.1 hmem with hmem | hmem
      · exact hnodup.2.2 _ (List.mem_reverse.1 hmem) _ (List.mem_map_of_mem he) rfl
      · exact hfresh.2 e he hmem
    have hrest := ih _ horder hsize.2 hmanned.2 hpeace.2 hplaced hlater hnodup.2.1 (i + 1)
    simp only [List.length_cons, firstTeams?, hnew, if_pos hreaches, hrest]
    simp

/-- Full teams stay as they are. -/
theorem topUp_of_full (p : Packing) (order : List (Entrant α)) {ds : List TeamDraft}
    (h : ∀ d ∈ ds, d.reaches p.rule.bounds.maxSize = true) (placed : List Nat) :
    p.topUp order ds placed = (ds, placed) := by
  induction ds with
  | nil => rfl
  | cons d ds ih =>
    obtain ⟨hd, hds⟩ := List.forall_mem_cons.1 h
    simp only [topUp, fill_of_reaches hd, ih hds]

variable [Scalar α]

/-- Teams are ready: there are as many as a match has, each of the size that teams
    have, and made of parties of players who may meet. -/
structure Ready (p : Packing) (teams : List (List (Ticket α))) : Prop where
  mode : p.mode = .normal
  minTeams : p.rule.bounds.minTeams = teams.length
  maxTeams : p.rule.bounds.maxTeams = teams.length
  minSize : p.rule.bounds.minSize = p.rule.bounds.maxSize
  full : ∀ team ∈ teams, Ticket.totalPlayers team = p.rule.bounds.maxSize
  manned : ∀ t ∈ teams.flatten, 0 < t.players
  admits : p.policy.Admits (teams.map TeamSummary.ofTickets)

/-- Entrants that come in ready teams are packed into these teams. -/
theorem pack?_of_ready {seats : List (List (Entrant α))}
    (h : p.Ready (seats.map (·.map (·.ticket))))
    (hof : ∀ e ∈ seats.flatten, e = .of e.index e.ticket)
    (hnodup : (seats.flatten.map (·.index)).Nodup) (hzero : ∃ e ∈ seats.flatten, e.index = 0)
    (rest : List (Entrant α)) :
    p.pack? (seats.flatten ++ rest) =
      some (seats.map fun es => (TeamDraft.ofEntrants es).finish) := by
  have hmin : p.rule.bounds.minTeams = seats.length := h.minTeams.trans (List.length_map _)
  have hmax : p.rule.bounds.maxTeams = seats.length := h.maxTeams.trans (List.length_map _)
  have hsize : ∀ team ∈ seats, total (·.ticket.players) team = p.rule.bounds.maxSize :=
    fun team hteam => (total_map _ _ _).symm.trans (h.full _ (List.mem_map_of_mem hteam))
  have hsummary : seats.map Entrant.summary =
      (seats.map (·.map (·.ticket))).map TeamSummary.ofTickets := by
    rw [List.map_map]
    exact List.map_congr_left fun team hteam => Entrant.summary_eq_ofTickets fun e he =>
      hof e (List.mem_flatten_of_mem hteam he)
  have hpeace : ∀ team ∈ seats, p.Peace team := fun team hteam hpolicy e he e' he' => by
    rw [hof e (List.mem_flatten_of_mem hteam he), hof e' (List.mem_flatten_of_mem hteam he')]
    intro x hx
    exact BlockPolicy.not_mem_blocked_of_teammate h.admits hpolicy (List.mem_map_of_mem hteam)
      (List.mem_map_of_mem he) (List.mem_map_of_mem he') hx
  have hmanned : ∀ team ∈ seats, ∀ e ∈ team, 0 < e.ticket.players := fun team hteam e he =>
    h.manned _ (List.mem_flatten_of_mem (List.mem_map_of_mem hteam) (List.mem_map_of_mem he))
  have hfirst : p.firstTeams? (seats.flatten ++ rest) p.rule.bounds.minTeams 0 [] =
      some (seats.map .ofEntrants, (seats.flatten.map (·.index)).reverse ++ []) := by
    rw [hmin]
    exact firstTeams?_teams [] rfl h.mode (Nat.le_of_eq h.minSize)
      (fun team hteam => (hsize team hteam).trans h.minSize.symm) hmanned hpeace
      (List.forall_mem_nil _) (fun _ _ => List.not_mem_nil) hnodup 0
  have hdrafts : p.drafts? (seats.flatten ++ rest) =
      some (seats.map .ofEntrants, (seats.flatten.map (·.index)).reverse) := by
    have hfull : ∀ d ∈ seats.map TeamDraft.ofEntrants, d.reaches p.rule.bounds.maxSize = true :=
      List.forall_mem_map.2 fun team hteam =>
        TeamDraft.ofEntrants_reaches.2 (Nat.le_of_eq (hsize team hteam).symm)
    simp only [drafts?, hfirst, Option.map_some, List.append_nil, topUp_of_full p _ hfull]
    simp [hmax, furtherTeams]
  have hfits : p.rule.teamsFault? p.policy
      ((seats.map TeamDraft.ofEntrants).map (·.summary)) = none := by
    have hseats : (seats.map TeamDraft.ofEntrants).map (·.summary) =
        (seats.map (·.map (·.ticket))).map TeamSummary.ofTickets := by
      rw [← hsummary, List.map_map]
      exact List.map_congr_left fun team _ => (TeamDraft.ofEntrants_holds team).summary
    rw [hseats, AllianceRule.teamsFault?_eq_none_iff]
    refine ⟨⟨?_, ?_, ?_⟩, h.admits⟩
    · simp [hmin]
    · simp [hmax]
    · intro n hn
      rw [List.map_map] at hn
      obtain ⟨team, hteam, rfl⟩ := List.mem_map.1 hn
      have hteam := h.full team hteam
      exact ⟨Nat.le_of_eq (h.minSize.trans hteam.symm), Nat.le_of_eq hteam⟩
  have hpivot : (seats.flatten.map (·.index)).reverse.contains 0 = true := by
    rw [List.contains_iff_mem, List.mem_reverse]
    exact List.mem_map.2 hzero
  simp only [pack?, hdrafts]
  rw [if_pos ⟨hpivot, hfits⟩, List.map_map]
  rfl

end Packing

/-! ## Assembling teams that are ready -/

namespace Assembler

variable [Scalar α] {m : Assembler}

omit [Scalar α] in
/-- The first order is the one in which parties come. -/
theorem exists_next?_new (length pinned : Nat) :
    ∃ o, (Orderings.new length pinned).next? = some (List.range length, o) := by
  have hrotations : (Orderings.new length pinned).rotations <
      max (Orderings.new length pinned).tailLength 1 :=
    Nat.lt_of_lt_of_le Nat.zero_lt_one (Nat.le_max_right _ _)
  rw [Orderings.next?, if_pos hrotations]
  refine ⟨_, congrArg some (Prod.ext ?_ rfl)⟩
  have hle : min pinned length ≤ length := Nat.min_le_right _ _
  have happend := List.range'_append_1 (s := 0) (m := min pinned length)
    (n := length - min pinned length)
  rw [Nat.zero_add, Nat.add_sub_cancel' hle] at happend
  simpa [Orderings.new, Orderings.fixed, Orderings.tail, Orderings.tailLength, rotate,
    List.range_eq_range'] using happend

/-- A full match of parties in the order in which they come is the one that is
    taken. -/
theorem assemble?_eq_of_pack? {pivot : Ticket α} {ts : List (Ticket α)} {a : Assembly}
    (h : m.packing.pack? (Entrant.ofList (pivot :: ts)) = some a.teams)
    (hfull : a.isFull m.packing.rule.bounds = true) : m.assemble? pivot ts = some a := by
  obtain ⟨o, ho⟩ := exists_next?_new (ts.length + 1) (pinned ts)
  have hcap : max m.cap 1 = (max m.cap 1 - 1) + 1 := by omega
  have hlength : ts.length + 1 = (Entrant.ofList (pivot :: ts)).length := by
    simp [Entrant.ofList]
  have hpacked : m.packed? (Entrant.ofList (pivot :: ts)).toArray (List.range (ts.length + 1)) =
      some a := by
    rw [packed?, hlength, filterMap_getElem?_range, h]
    rfl
  rw [assemble?, hcap, searchOrders, ho]
  simp [hpacked, hfull]

/-- The pivot and tickets that come in ready teams make a match of these teams, and
    it is full. -/
theorem assemble?_of_ready {pivot : Ticket α} {ts rest : List (Ticket α)}
    {teams : List (List (Ticket α))} (h : m.packing.Ready teams)
    (hts : pivot :: ts = teams.flatten ++ rest) (hne : teams.flatten ≠ []) :
    ∃ a, m.assemble? pivot ts = some a ∧ a.isFull m.packing.rule.bounds = true ∧
      a.teams.map (·.tickets) = teams.map (·.map (·.id)) := by
  -- Entrants are cut in teams where their tickets are.
  obtain ⟨seats, others, hlist, rfl⟩ := exists_flatten_of_map
    ((Entrant.map_ticket_ofList (pivot :: ts)).trans hts)
  have hof : ∀ e ∈ seats.flatten, e = .of e.index e.ticket := fun e he =>
    Entrant.eq_of_mem_ofList (hlist ▸ List.mem_append_left others he)
  have hnodup : (seats.flatten.map (·.index)).Nodup := by
    have hall := Entrant.nodup_index_ofList (pivot :: ts)
    rw [hlist, List.map_append] at hall
    exact (List.nodup_append.1 hall).1
  have hzero : ∃ e ∈ seats.flatten, e.index = 0 := by
    obtain ⟨later, hfirst⟩ := Entrant.exists_ofList_cons pivot ts
    rw [hfirst] at hlist
    cases hseats : seats.flatten with
    | nil => exact absurd (by rw [← List.map_flatten, hseats]; rfl) hne
    | cons e es =>
      rw [hseats] at hlist
      exact ⟨e, List.mem_cons_self, (List.cons.inj hlist).1 ▸ rfl⟩
  have hpack := Packing.pack?_of_ready h hof hnodup hzero others
  rw [← hlist] at hpack
  have hfull : (Assembly.mk (seats.map fun es => (TeamDraft.ofEntrants es).finish)).isFull
      m.packing.rule.bounds = true := by
    simp only [Assembly.isFull, Bool.and_eq_true, decide_eq_true_eq, List.all_eq_true]
    refine ⟨by simp [h.maxTeams], List.forall_mem_map.2 fun team hteam => ?_⟩
    have hsize := h.full _ (List.mem_map_of_mem hteam)
    rw [Ticket.totalPlayers, total_map] at hsize
    exact (TeamDraft.ofEntrants_players team).trans hsize
  refine ⟨_, assemble?_eq_of_pack? hpack hfull, hfull, ?_⟩
  rw [List.map_map, List.map_map]
  refine List.map_congr_left fun team _ => ?_
  exact (TeamDraft.ofEntrants_holds team).tickets.trans (List.map_map).symm

end Assembler

/-! ## The session of teams that are ready -/

namespace Formation

variable [Scalar α] {f : Formation α} {pivot : Ticket α} {rest others : List (Ticket α)}
  {a : Attempt} {teams : List (List (Ticket α))}

/-- If a pivot and its candidates come in teams that are ready, their session seats
    these teams, and nobody else may join it. -/
theorem attempt?_of_ready (hid : ((pivot :: rest).map (·.id)).Nodup)
    (h : (Assembler.of (f.allianceAt pivot a.mode) f.rules.blockPolicy f.cap).packing.Ready teams)
    (hcandidates : pivot :: f.candidates pivot a (pivot :: rest) = teams.flatten ++ others)
    (hne : teams.flatten ≠ []) :
    ∃ s, f.attempt? pivot (pivot :: rest) a = some s ∧ s.Seats teams ∧ s.status = .satisfied := by
  obtain ⟨m, hm, hfull, htickets⟩ := Assembler.assemble?_of_ready h hcandidates hne
  have hassembly : f.assembly? pivot a (pivot :: rest) = some m := by
    have hlength : m.teams.length = teams.length := by
      simpa using congrArg List.length htickets
    refine Option.filter_eq_some_iff.2 ⟨hm, decide_eq_true ?_⟩
    exact Nat.le_of_eq (h.minTeams.trans hlength.symm)
  have hknown : teams.flatten ⊆ pivot :: rest := by
    intro t ht
    have ht : t ∈ pivot :: f.candidates pivot a (pivot :: rest) :=
      hcandidates ▸ List.mem_append_left others ht
    exact List.cons_subset_cons _ (f.candidates_subperm pivot a rest).subset ht
  refine ⟨f.session pivot a (pivot :: rest) m, by rw [attempt?, hassembly]; rfl,
    f.session_seats pivot a hid htickets hknown, ?_⟩
  exact if_pos hfull

end Formation

end Matchmaking
