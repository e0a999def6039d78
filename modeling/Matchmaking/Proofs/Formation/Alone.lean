import Matchmaking.Proofs.Formation.Bystander
import Matchmaking.Proofs.Formation.EarlyStop
import Matchmaking.Proofs.Formation.ReadyTeams
import Matchmaking.Proofs.Merge

/-!
# Players alone

Where every match is a single player, a run does not search: each ticket of one player is
a match as it is. Rounds on the same queue give a ticket the match that its own team
makes, in the first of its regions, if it has a region and the team takes it
(`Formation.rounds_alone`): a team of one takes the first entrant that fits
(`Packing.fill_one`), the pivot comes first, and who else is a candidate is no matter
(`Assembler.assemble?_alone`).

So the two agree exactly where no ticket of one player has regions to choose from, blocks
itself, or is given a role (`Formation.run_eq_rounds_iff`).
-/

namespace Matchmaking

variable {α : Type}

/-- What does not depend on an entry is found at the first one, or nowhere. -/
theorem findSome?_map_eq {β γ δ : Type} (o : Option γ) (g : β → γ → δ) (xs : List β) :
    (xs.findSome? fun x => o.map (g x)) = xs.head?.bind fun x => o.map (g x) := by
  cases o with
  | none => cases xs <;> simp
  | some y => cases xs <;> rfl

/-- Only the first of some tickets has the number zero. -/
theorem Entrant.eq_of_index_eq_zero [Scalar α] {e : Entrant α} {t : Ticket α} {ts : List (Ticket α)}
    (he : e ∈ ofList (t :: ts)) (hzero : e.index = 0) : e = of 0 t := by
  obtain ⟨i, hi, rfl⟩ := List.mem_mapIdx.1 he
  obtain rfl : i = 0 := hzero
  rfl

/-! ## Teams of one -/

namespace Packing

variable {p : Packing} {e : Entrant α} {es order : List (Entrant α)} {d : TeamDraft}

/-- The team of an entrant alone, if it makes a match. -/
def alone? (p : Packing) (e : Entrant α) : Option TeamDraft :=
  (p.add? (.new (p.rule.tally? p.mode 0)) e).filter fun d =>
    d.reaches 1 && decide (p.rule.teamsFault? p.policy [d.summary] = none)

theorem add?_players_le {d' : TeamDraft} (h : p.add? d e = some d') :
    d.players + e.ticket.players ≤ p.rule.bounds.maxSize := by
  rw [add?] at h
  split_ifs at h with hsize
  exact Nat.le_of_not_lt hsize

/-- A new team with an entrant has its ticket and its players. -/
theorem holds_of_add?_new {tally : Option RoleTally} (h : p.add? (.new tally) e = some d) :
    d.Holds [e] := (TeamDraft.holds_new tally).add? h

theorem players_of_add?_new {tally : Option RoleTally} (h : p.add? (.new tally) e = some d) :
    d.players = e.ticket.players :=
  (holds_of_add?_new h).players_eq.trans (Nat.add_zero _)

/-- A team of one has one player. -/
theorem players_of_alone? (hmax : p.rule.bounds.maxSize = 1) (he : 0 < e.ticket.players)
    (hd : p.alone? e = some d) : d.players = 1 ∧ e.ticket.players = 1 := by
  have hadd := (Option.filter_eq_some_iff.1 hd).1
  have hplayers : d.players = e.ticket.players := players_of_add?_new hadd
  have hsize : 0 + e.ticket.players ≤ p.rule.bounds.maxSize := add?_players_le hadd
  omega

/-- Nobody has a place in a team that has its greatest size. -/
theorem fill_of_full (hfull : d.players = p.rule.bounds.maxSize)
    (hmanned : ∀ e ∈ es, 0 < e.ticket.players) (size : Nat) (placed : List Nat) :
    p.fill size es d placed = (d, placed) := by
  induction es with
  | nil => rfl
  | cons e es ih =>
    obtain ⟨he, hes⟩ := List.forall_mem_cons.1 hmanned
    have hadd : p.add? d e = none := by
      rw [add?, if_pos]
      omega
    rw [fill, hadd]
    split_ifs
    · rfl
    · exact ih hes
    · exact ih hes

/-- A team of one takes the first entrant that fits. -/
theorem fill_one (hmax : p.rule.bounds.maxSize = 1) (tally : Option RoleTally)
    (hmanned : ∀ e ∈ es, 0 < e.ticket.players) :
    p.fill 1 es (.new tally) [] =
      (es.findSome? fun e => (p.add? (.new tally) e).map fun d => (d, [e.index])).getD
        (.new tally, []) := by
  induction es with
  | nil => rfl
  | cons e es ih =>
    obtain ⟨he, hes⟩ := List.forall_mem_cons.1 hmanned
    have hempty : ¬(TeamDraft.new tally).reaches 1 = true := by
      simp [TeamDraft.reaches, TeamDraft.new]
    rw [fill, if_neg hempty, if_neg (by simp), List.findSome?_cons]
    cases hadd : p.add? (.new tally) e with
    | none => exact ih hes
    | some d =>
      have hsize := add?_players_le hadd
      have hplayers := players_of_add?_new hadd
      have hnew : (TeamDraft.new tally).players = 0 := rfl
      exact fill_of_full (by omega) hes 1 [e.index]

/-- Where there is one team of one, it is filled once. -/
theorem drafts?_one (hone : p.rule.bounds = ⟨1, 1, 1, 1⟩) (order : List (Entrant α)) :
    p.drafts? order =
      if (p.newTeam 1 order 0 []).1.reaches 1 then
        some ([(p.newTeam 1 order 0 []).1], (p.newTeam 1 order 0 []).2)
      else none := by
  simp only [drafts?, hone, firstTeams?]
  split_ifs with hreaches
  · simp [topUp, hone, fill_of_reaches hreaches, furtherTeams]
  · rfl

/-- Then a packing is the first entrant that fits, if it is the pivot and its team makes a
    match. -/
theorem pack?_one (hone : p.rule.bounds = ⟨1, 1, 1, 1⟩)
    (hmanned : ∀ e ∈ order, 0 < e.ticket.players) :
    p.pack? order =
      (order.findSome? fun e =>
          (p.add? (.new (p.rule.tally? p.mode 0)) e).map fun d => (d, [e.index])).bind
        fun (d, placed) =>
          if d.reaches 1 ∧ placed.contains 0 ∧ p.rule.teamsFault? p.policy [d.summary] = none then
            some [d.finish]
          else none := by
  have hteam : p.newTeam 1 order 0 [] = _ :=
    fill_one (congrArg Bounds.maxSize hone) (p.rule.tally? p.mode 0) hmanned
  rw [pack?, drafts?_one hone, hteam]
  cases order.findSome? _ with
  | none => rfl
  | some found =>
    obtain ⟨d, placed⟩ := found
    rw [Option.getD_some, Option.bind_some]
    by_cases hreaches : d.reaches 1 = true
    · simp [hreaches]
    · simp [hreaches]

/-- The pivot comes first: if its team makes a match alone, this is the packing. -/
theorem pack?_of_alone? (hone : p.rule.bounds = ⟨1, 1, 1, 1⟩)
    (hmanned : ∀ e' ∈ e :: es, 0 < e'.ticket.players) (he : e.index = 0)
    (hd : p.alone? e = some d) : p.pack? (e :: es) = some [d.finish] := by
  obtain ⟨hadd, hmatch⟩ := Option.filter_eq_some_iff.1 hd
  rw [Bool.and_eq_true, decide_eq_true_eq] at hmatch
  rw [pack?_one hone hmanned, List.findSome?_cons, hadd, Option.map_some, Option.bind_some, he]
  exact if_pos ⟨hmatch.1, rfl, hmatch.2⟩

/-- Whatever order is packed, the packing is the team of the pivot alone. -/
theorem alone?_of_pack? (hone : p.rule.bounds = ⟨1, 1, 1, 1⟩)
    (hmanned : ∀ e' ∈ order, 0 < e'.ticket.players)
    (hpivot : ∀ e' ∈ order, e'.index = 0 → e' = e) {plans : List TeamPlan}
    (h : p.pack? order = some plans) : ∃ d, p.alone? e = some d := by
  rw [pack?_one hone hmanned] at h
  obtain ⟨⟨d, placed⟩, hfound, h⟩ := Option.bind_eq_some_iff.1 h
  obtain ⟨e', he', hfits⟩ := List.exists_of_findSome?_eq_some hfound
  obtain ⟨d', hadd, heq⟩ := Option.map_eq_some_iff.1 hfits
  obtain ⟨rfl, rfl⟩ := Prod.mk.inj heq
  dsimp only at h
  split_ifs at h with hmatch
  obtain ⟨hreaches, hindex, hfault⟩ := hmatch
  have hzero : e'.index = 0 := (List.mem_singleton.1 (List.contains_iff_mem.1 hindex)).symm
  obtain rfl := hpivot e' he' hzero
  refine ⟨d', Option.filter_eq_some_iff.2 ⟨hadd, ?_⟩⟩
  rw [hreaches, Bool.true_and, decide_eq_true_eq]
  exact hfault

end Packing

/-! ## Matches of one -/

namespace Assembler

variable [Scalar α] {m : Assembler} {pivot : Ticket α} {ts : List (Ticket α)}

/-- Where a match is a single player, it is the team of the pivot alone, whoever else is
    there. -/
theorem assemble?_alone (hone : m.packing.rule.bounds = ⟨1, 1, 1, 1⟩)
    (hmanned : ∀ t ∈ pivot :: ts, 0 < t.players) :
    m.assemble? pivot ts =
      (m.packing.alone? (Entrant.of 0 pivot)).map fun d => ⟨[d.finish]⟩ := by
  have hentrants : ∀ e ∈ Entrant.ofList (pivot :: ts), 0 < e.ticket.players := fun e he =>
    hmanned e.ticket (Entrant.map_ticket_ofList (pivot :: ts) ▸ List.mem_map_of_mem he)
  cases halone : m.packing.alone? (Entrant.of 0 pivot) with
  | some d =>
    obtain ⟨es, hes⟩ := Entrant.exists_ofList_cons pivot ts
    refine assemble?_eq_of_pack? ?_ ?_
    · rw [hes] at hentrants ⊢
      exact Packing.pack?_of_alone? hone hentrants rfl halone
    · have hplayers : d.finish.players = 1 := (Packing.players_of_alone?
        (congrArg Bounds.maxSize hone) (hmanned pivot List.mem_cons_self) halone).1
      rw [hone]
      simp [Assembly.isFull, hplayers]
  | none =>
    by_contra hsome
    obtain ⟨a, ha⟩ := Option.ne_none_iff_exists'.1 hsome
    obtain hbest | ⟨order, horder⟩ := packed?_of_searchOrders ha
    · cases hbest
    · obtain ⟨plans, hpack, _⟩ := Option.map_eq_some_iff.1 horder
      have hknown := filterMap_getElem?_subset (Entrant.ofList (pivot :: ts)) order
      obtain ⟨d, hd⟩ := Packing.alone?_of_pack? hone (fun e he => hentrants e (hknown he))
        (fun e he hzero => Entrant.eq_of_index_eq_zero (hknown he) hzero) hpack
      cases halone.symm.trans hd

end Assembler

/-! ## Rounds of single players -/

variable [Scalar α]

namespace Formation

variable {f : Formation α} {pivot t : Ticket α} {rest queue ts : List (Ticket α)}
  {region : Option String} {d : TeamDraft}

/-- The team of a ticket alone, if it makes a match. -/
def teamAlone? (f : Formation α) (t : Ticket α) : Option TeamDraft :=
  (Assembler.of f.rules.alliance f.rules.blockPolicy f.cap).packing.alone? (Entrant.of 0 t)

/-- The session of a ticket alone, in a region, with the roles that its team gives. -/
def sessionAlone (f : Formation α) (t : Ticket α) (region : Option String) (d : TeamDraft) :
    Session α :=
  { f.soloSession t with
    region := region
    alliances := [(Alliance.new (Alliance.teamName 0)).addParty
      ((Party.ofTicket t).assignRoles d.finalRoles)] }

/-- The session of a ticket alone, if it has one: in the first of its regions. -/
def sessionAlone? (f : Formation α) (t : Ticket α) : Option (Session α) :=
  (f.rules.regions t f.now).head?.bind fun region =>
    (f.teamAlone? t).map (f.sessionAlone t region)

omit [Scalar α] in
theorem isSinglePlayer_iff : f.isSinglePlayer = true ↔
    f.rules.alliance.bounds = ⟨1, 1, 1, 1⟩ ∧ f.rules.allianceFlexing = [] ∧ f.rules.modes = ∅ := by
  have hmodes : f.rules.modes.isEmpty = true ↔ f.rules.modes = ∅ := by
    obtain ⟨entries, hsorted⟩ := f.rules.modes
    cases entries with
    | nil => exact iff_of_true rfl rfl
    | cons e es => exact iff_of_false Bool.false_ne_true fun h => by cases h
  rw [isSinglePlayer, Bool.and_eq_true, Bool.and_eq_true, Bounds.isSinglePlayer, decide_eq_true_eq,
    List.isEmpty_iff, hmodes, and_assoc]

omit [Scalar α] in
theorem allianceAt_of_isSinglePlayer (hf : f.isSinglePlayer = true) (pivot : Ticket α) :
    f.allianceAt pivot none = f.rules.alliance := by
  show (f.rules.alliance.flexedAt f.rules.allianceFlexing pivot.createdAt f.now).1 = _
  rw [(isSinglePlayer_iff.1 hf).2.1]
  rfl

theorem tickets_of_teamAlone? (hd : f.teamAlone? t = some d) : d.tickets = [t.id] :=
  (Packing.holds_of_add?_new (Option.filter_eq_some_iff.1 hd).1).tickets

theorem players_of_teamAlone? (hf : f.isSinglePlayer = true) (ht : 0 < t.players)
    (hd : f.teamAlone? t = some d) : d.players = 1 ∧ t.players = 1 :=
  Packing.players_of_alone? (congrArg Bounds.maxSize (isSinglePlayer_iff.1 hf).1) ht hd

/-- In any region the match of a pivot is its team alone. -/
theorem assembly?_alone (hf : f.isSinglePlayer = true)
    (hmanned : ∀ t ∈ pivot :: rest, 0 < t.players) (region : Option String) :
    f.assembly? pivot ⟨none, region⟩ (pivot :: rest) =
      (f.teamAlone? pivot).map fun d => ⟨[d.finish]⟩ := by
  have hcandidates : ∀ t ∈ pivot :: f.candidates pivot ⟨none, region⟩ (pivot :: rest),
      0 < t.players := by
    refine List.forall_mem_cons.2 ⟨hmanned pivot List.mem_cons_self, fun t ht => ?_⟩
    exact hmanned t (List.mem_cons_of_mem _ ((f.candidates_subperm _ _ _).subset ht))
  have hone : f.rules.alliance.bounds = ⟨1, 1, 1, 1⟩ := (isSinglePlayer_iff.1 hf).1
  rw [assembly?, allianceAt_of_isSinglePlayer hf,
    Assembler.assemble?_alone (m := .of f.rules.alliance f.rules.blockPolicy f.cap) hone hcandidates,
    teamAlone?, hone]
  cases Packing.alone? _ (Entrant.of 0 pivot) <;> rfl

theorem session_alone (hf : f.isSinglePlayer = true) (hpivot : 0 < pivot.players)
    (hid : ((pivot :: rest).map (·.id)).Nodup) (hd : f.teamAlone? pivot = some d) :
    f.session pivot ⟨none, region⟩ (pivot :: rest) ⟨[d.finish]⟩ =
      f.sessionAlone pivot region d := by
  have hteam : [pivot] ⊆ pivot :: rest := by simp
  have hpool : ticketsOf (pivot :: rest) [pivot.id] = [pivot] := ticketsOf_ids hid hteam
  have htickets : d.finish.tickets = [pivot.id] := tickets_of_teamAlone? hd
  have hmatched : ticketsOf (pivot :: rest) (Assembly.mk [d.finish]).tickets = [pivot] := by
    rw [Assembly.tickets, List.flatMap_singleton, htickets, hpool]
  have hothers : Ticket.without [pivot.id] [pivot] = [] :=
    Ticket.without_cons_of_mem (List.mem_singleton_self _) []
  have hfull : (Assembly.mk [d.finish]).isFull (f.allianceAt pivot none).bounds = true := by
    have hplayers : d.finish.players = 1 := (players_of_teamAlone? hf hpivot hd).1
    rw [allianceAt_of_isSinglePlayer hf, (isSinglePlayer_iff.1 hf).1, Assembly.isFull]
    simp [hplayers]
  have hmeans : (f.activeRules pivot none).means [pivot] = f.rules.means [pivot] :=
    f.rules.means_flexedAt pivot.createdAt f.now _
  have hattributes : (f.activeRules pivot none).sessionAttributes pivot [] =
      f.rules.sessionAttributes pivot [] := RuleSet.sessionAttributes_congr rfl _ _
  have halliance : alliance (pivot :: rest) 0 d.finish =
      (Alliance.new (Alliance.teamName 0)).addParty
        ((Party.ofTicket pivot).assignRoles d.finalRoles) := by
    rw [alliance, htickets, hpool]
    rfl
  have hactive : (f.activeRules pivot none).alliance = f.allianceAt pivot none := rfl
  simp only [session, hmatched, hothers, hactive, hfull, hmeans, hattributes, sessionAlone]
  rw [List.mapIdx_cons, List.mapIdx_nil, halliance]
  rfl

/-- So a pivot has the session of its ticket alone. -/
theorem sessionFor?_alone (hf : f.isSinglePlayer = true)
    (hmanned : ∀ t ∈ pivot :: rest, 0 < t.players) (hid : ((pivot :: rest).map (·.id)).Nodup) :
    f.sessionFor? pivot (pivot :: rest) = f.sessionAlone? pivot := by
  have hattempts : f.attempts pivot =
      (f.rules.regions pivot f.now).map fun region => ⟨none, region⟩ := by
    rw [attempts, modes_eq_of_empty (isSinglePlayer_iff.1 hf).2.2, List.flatMap_singleton]
  have hattempt : ∀ region, f.attempt? pivot (pivot :: rest) ⟨none, region⟩ =
      (f.teamAlone? pivot).map (f.sessionAlone pivot region) := fun region => by
    rw [attempt?, assembly?_alone hf hmanned, Option.map_map]
    cases hd : f.teamAlone? pivot with
    | none => rfl
    | some d => exact congrArg some (session_alone hf (hmanned pivot List.mem_cons_self) hid hd)
  rw [sessionFor?, hattempts, List.findSome?_map, sessionAlone?, ← findSome?_map_eq]
  exact congrArg (List.findSome? · _) (funext hattempt)

theorem sessionAlone?_eq_some_iff {s : Session α} : f.sessionAlone? t = some s ↔
    ∃ region d, (f.rules.regions t f.now).head? = some region ∧ f.teamAlone? t = some d ∧
      f.sessionAlone t region d = s := by
  simp only [sessionAlone?, Option.bind_eq_some_iff, Option.map_eq_some_iff, exists_and_left]

theorem ticketIds_of_sessionAlone? {s : Session α} (h : f.sessionAlone? t = some s) :
    s.ticketIds = [t.id] := by
  obtain ⟨region, d, _, _, rfl⟩ := sessionAlone?_eq_some_iff.1 h
  rfl

/-- A ticket of more players has no session alone. -/
theorem sessionAlone?_eq_none (hf : f.isSinglePlayer = true) (ht : 0 < t.players)
    (hone : t.players ≠ 1) : f.sessionAlone? t = none := by
  by_contra hsome
  obtain ⟨s, hs⟩ := Option.ne_none_iff_exists'.1 hsome
  obtain ⟨region, d, _, hd, _⟩ := sessionAlone?_eq_some_iff.1 hs
  exact hone (players_of_teamAlone? hf ht hd).2

/-- Rounds of single players come to their end. -/
theorem rounds_failure_alone (hf : f.isSinglePlayer = true) (hid : (queue.map (·.id)).Nodup) :
    (f.rounds .unlimited queue).failure = none := by
  obtain ⟨hbounds, hflexing, hmodes⟩ := isSinglePlayer_iff.1 hf
  refine rounds_failure ?_ .unlimited hid
  rw [RuleSet.allBounds_eq hflexing hmodes, hbounds]
  exact List.forall_mem_singleton.2 (by decide)

/-- Rounds of single players give every ticket the session that it has alone. -/
theorem rounds_alone (hf : f.isSinglePlayer = true) (hmanned : ∀ t ∈ queue, 0 < t.players)
    (hid : (queue.map (·.id)).Nodup) :
    (f.rounds .unlimited queue).sessions = queue.filterMap f.sessionAlone? := by
  rw [(rounds_eq_idealRounds hid (rounds_failure_alone hf hid)).1]
  induction queue with
  | nil => rw [idealRounds]; rfl
  | cons pivot rest ih =>
    have hrest := ih (List.forall_mem_cons.1 hmanned).2 (List.nodup_cons.1 hid).2
    have hfound := sessionFor?_alone hf hmanned hid
    cases hs : f.sessionAlone? pivot with
    | none =>
      rw [idealRounds_cons_of_none hid (hfound.trans hs), List.filterMap_cons, hs]
      exact hrest
    | some s =>
      rw [idealRounds_cons_of_some (hfound.trans hs), ticketIds_of_sessionAlone? hs,
        Ticket.without_head hid, List.filterMap_cons, hs]
      exact congrArg (s :: ·) hrest

/-! ## Runs and rounds -/

/-- A ticket plays alone as it is: it has no regions to choose from, it may meet itself,
    and the team takes it with the roles that it has. -/
structure PlaysAlone (f : Formation α) (t : Ticket α) : Prop where
  regions : f.rules.latencyLimit? t f.now = none
  blocks : f.rules.blockPolicy ≠ .canMatch → ∀ x ∈ t.userIds, x ∉ t.blocked
  roles : ∃ d, (Assembler.of f.rules.alliance f.rules.blockPolicy f.cap).packing.add?
      (.new (f.rules.alliance.tally? f.rules.alliance.roleMode 0)) (Entrant.of 0 t) = some d ∧
    d.isSatisfied = true ∧ (Party.ofTicket t).assignRoles d.finalRoles = .ofTicket t

/-- A player is a match alone if the team takes them and they do not block themselves. -/
theorem teamAlone?_eq_some_iff (hf : f.isSinglePlayer = true) (ht : t.players = 1) :
    f.teamAlone? t = some d ↔
      (Assembler.of f.rules.alliance f.rules.blockPolicy f.cap).packing.add?
          (.new (f.rules.alliance.tally? f.rules.alliance.roleMode 0)) (Entrant.of 0 t) = some d ∧
        d.isSatisfied = true ∧
        (f.rules.blockPolicy ≠ .canMatch → ∀ x ∈ t.userIds, x ∉ t.blocked) := by
  refine Option.filter_eq_some_iff.trans (and_congr_right fun hadd => ?_)
  have hplayers : d.players = 1 := (Packing.players_of_add?_new hadd).trans ht
  have hsummary : d.summary = TeamSummary.ofTickets [t] :=
    (Packing.holds_of_add?_new hadd).summary
  have hreaches : d.reaches 1 = d.isSatisfied := by simp [TeamDraft.reaches, hplayers]
  have hbounds : f.rules.alliance.bounds.Allows [d.players] := by
    rw [(isSinglePlayer_iff.1 hf).1, hplayers]
    exact ⟨by simp, by simp, by simp⟩
  have hadmits : f.rules.blockPolicy.Admits [d.summary] ↔
      (f.rules.blockPolicy ≠ .canMatch → ∀ x ∈ t.userIds, x ∉ t.blocked) := by
    rw [hsummary]
    cases f.rules.blockPolicy <;>
      simp [BlockPolicy.Admits, TeamSummary.mem_userIds_ofTickets,
        TeamSummary.mem_blocked_ofTickets]
  rw [hreaches, Bool.and_eq_true, decide_eq_true_eq]
  refine and_congr_right fun _ => ?_
  refine AllianceRule.teamsFault?_eq_none_iff.trans ?_
  rw [List.map_singleton]
  exact (and_iff_right hbounds).trans hadmits

theorem sessionAlone?_eq_soloSession_iff (hf : f.isSinglePlayer = true) (ht : t.players = 1) :
    f.sessionAlone? t = some (f.soloSession t) ↔ f.PlaysAlone t := by
  have hhead : (f.rules.regions t f.now).head? = some none ↔
      f.rules.latencyLimit? t f.now = none := by
    rw [RuleSet.regions]
    cases f.rules.latencyLimit? t f.now with
    | none => simp
    | some limit => simp
  constructor
  · intro h
    obtain ⟨region, d, hregion, hd, hsame⟩ := sessionAlone?_eq_some_iff.1 h
    obtain rfl : region = none := congrArg Session.region hsame
    have hparty : (Party.ofTicket t).assignRoles d.finalRoles = .ofTicket t := by
      have := congrArg Session.parties hsame
      simpa [sessionAlone, soloSession, Session.parties, Alliance.addParty, Alliance.new] using this
    obtain ⟨hadd, hsatisfied, hblocks⟩ := (teamAlone?_eq_some_iff hf ht).1 hd
    exact ⟨hhead.1 hregion, hblocks, d, hadd, hsatisfied, hparty⟩
  · rintro ⟨hregions, hblocks, d, hadd, hsatisfied, hparty⟩
    have hd := (teamAlone?_eq_some_iff hf ht).2 ⟨hadd, hsatisfied, hblocks⟩
    refine sessionAlone?_eq_some_iff.2 ⟨none, d, hhead.2 hregions, hd, ?_⟩
    rw [sessionAlone, hparty]
    rfl

/-- Nobody looks at the time where every match is a single player. -/
theorem run_alone (hf : f.isSinglePlayer = true) (budget : Budget) (ts : List (Ticket α)) :
    (f.run budget ts).sessions =
      ((f.queue ts).filter fun t => t.players = 1).map f.soloSession := by
  rw [← solos_sessions, run, form, hf]
  rfl

theorem run_failure_alone (hf : f.isSinglePlayer = true) (budget : Budget)
    (ts : List (Ticket α)) : (f.run budget ts).failure = none := by
  rw [run, form, if_pos hf]
  exact f.solos_failure _

/-- Where matches are single players, a run forms a session of every ticket of one player
    as it is, and rounds give every ticket the session that it has alone. These are the
    same sessions just if every ticket of one player plays alone as it is. -/
theorem run_eq_rounds_iff (hf : f.isSinglePlayer = true) (hid : (ts.map (·.id)).Nodup)
    (hfault : ∀ t ∈ ts, t.fault? = none) :
    (f.run .unlimited ts).sessions =
        ((f.queue ts).filter fun t => t.players = 1).map f.soloSession ∧
      (f.rounds .unlimited (f.queue ts)).sessions = (f.queue ts).filterMap f.sessionAlone? ∧
      ((f.run .unlimited ts).sessions = (f.rounds .unlimited (f.queue ts)).sessions ↔
        ∀ t ∈ f.queue ts, t.players = 1 → f.PlaysAlone t) := by
  have hmanned : ∀ t ∈ f.queue ts, 0 < t.players := by
    intro t ht
    obtain ⟨u, hu, htu⟩ := exists_of_mem_queue ht
    exact Ticket.players_pos_of_fault?_eq_none ((Ticket.fault?_congr htu).trans (hfault u hu))
  have hrounds := rounds_alone hf hmanned (queue_nodup hid)
  refine ⟨run_alone hf .unlimited ts, hrounds, ?_⟩
  rw [run_alone hf .unlimited ts, hrounds]
  constructor
  · intro hsame t ht hone
    have hmem : f.soloSession t ∈ (f.queue ts).filterMap f.sessionAlone? :=
      hsame ▸ List.mem_map_of_mem (List.mem_filter.2 ⟨ht, by simpa using hone⟩)
    obtain ⟨u, hu, hsession⟩ := List.mem_filterMap.1 hmem
    -- The session tells which ticket it is of.
    have hids : [t.id] = [u.id] := ticketIds_of_sessionAlone? hsession
    obtain rfl : t = u := Ticket.eq_of_id_eq (queue_nodup hid) ht hu (List.singleton_inj.1 hids)
    exact (sessionAlone?_eq_soloSession_iff hf hone).1 hsession
  · intro hplays
    rw [← List.filterMap_eq_map, ← List.filterMap_eq_filter, List.filterMap_filterMap]
    refine List.filterMap_congr fun t ht => ?_
    by_cases hone : t.players = 1
    · rw [(sessionAlone?_eq_soloSession_iff hf hone).2 (hplays t ht hone)]
      simp [hone]
    · rw [sessionAlone?_eq_none hf (hmanned t ht) hone]
      simp [hone]

/-! ### Practice -/

/-- Matches of a single player, who may be asked for a role, in regions that may matter. -/
def practice (combination : Option RoleCombination) (region : RegionRule) : Formation Float where
  rules := { RuleSet.ofAlliance ⟨⟨1, 1, 1, 1⟩, combination⟩ with region := region }
  channel := "practice"
  now := .ofNanos 0
  cap := 1

/-- A team of one tank. -/
def oneTank : RoleCombination where
  active := true
  unique := false
  teams := [[⟨"tank", 1, 1⟩]]
  flexing := false
  flexSeconds := 0
  flexPlayers := 0

/-- The ticket of a player who measured one region. -/
def trainee (id : String) : Ticket Float :=
  { duelist id [] with latencies := .ofList [("eu", 20)] }

/-- Two players practise, each alone, where no region matters. -/
theorem practice_eq_rounds :
    (practice none .unlimited).isSinglePlayer = true ∧
      ([trainee "a", trainee "b"].map (·.id)).Nodup ∧
      (∀ t ∈ [trainee "a", trainee "b"], t.fault? = none) ∧
      ((practice none .unlimited).run .unlimited [trainee "a", trainee "b"]).sessions =
        ((practice none .unlimited).rounds .unlimited
          ((practice none .unlimited).queue [trainee "a", trainee "b"])).sessions := by
  have hf : (practice none .unlimited).isSinglePlayer = true := by decide
  have hid : ([trainee "a", trainee "b"].map (·.id)).Nodup := by decide
  have hfault : ∀ t ∈ [trainee "a", trainee "b"], t.fault? = none := by decide
  refine ⟨hf, hid, hfault, (run_eq_rounds_iff hf hid hfault).2.2.2 fun t ht _ => ?_⟩
  have hqueue : (practice none .unlimited).queue [trainee "a", trainee "b"] =
      [trainee "a", trainee "b"] := Ticket.sortQueue_eq_self (by decide +kernel)
  rw [hqueue] at ht
  obtain rfl | rfl : t = trainee "a" ∨ t = trainee "b" := by simpa using ht
  · exact ⟨rfl, fun _ => by decide, _, rfl, rfl, rfl⟩
  · exact ⟨rfl, fun _ => by decide, _, rfl, rfl, rfl⟩

/-- Where a region matters the match of a round is played in it, where roles are asked for
    the player has one in it, and players who block themselves have no match in a round. -/
theorem practice_differs :
    ((practice none ⟨0, 0, 50, 0⟩).isSinglePlayer = true ∧
      (practice none ⟨0, 0, 50, 0⟩).rules.fault? = none ∧
      ((practice none ⟨0, 0, 50, 0⟩).run .unlimited [trainee "a"]).sessions.map (·.region) =
        [none] ∧
      ((practice none ⟨0, 0, 50, 0⟩).rounds .unlimited
        ((practice none ⟨0, 0, 50, 0⟩).queue [trainee "a"])).sessions.map (·.region) =
          [some "eu"]) ∧
    ((practice oneTank .unlimited).isSinglePlayer = true ∧
      (practice oneTank .unlimited).rules.fault? = none ∧
      ((practice oneTank .unlimited).run .unlimited [trainee "a"]).sessions.map
        (·.members.map (·.assignedRole)) = [[none]] ∧
      ((practice oneTank .unlimited).rounds .unlimited
        ((practice oneTank .unlimited).queue [trainee "a"])).sessions.map
          (·.members.map (·.assignedRole)) = [[some "tank"]]) ∧
    ((practice none .unlimited).isSinglePlayer = true ∧
      (practice none .unlimited).rules.fault? = none ∧
      ((practice none .unlimited).run .unlimited [duelist "a" ["a"]]).sessions.map
        (·.ticketIds) = [["a"]] ∧
      ((practice none .unlimited).rounds .unlimited
        ((practice none .unlimited).queue [duelist "a" ["a"]])).sessions.map
          (·.ticketIds) = []) := by
  refine ⟨⟨?_, ?_, ?_, ?_⟩, ⟨?_, ?_, ?_, ?_⟩, ⟨?_, ?_, ?_, ?_⟩⟩ <;> decide +kernel

end Formation

end Matchmaking
