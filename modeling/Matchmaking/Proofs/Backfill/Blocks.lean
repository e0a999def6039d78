import Matchmaking.Proofs.Backfill.Life
import Matchmaking.Proofs.Formation.Round

/-!
# Whom a ticket meets that joins

A ticket that joins an open session has no player of the session, nor of another ticket
that joins, and it keeps the peace as the policy has it. Where players who block one
another do not meet, the search keeps them apart, and it knows all whom the session and
those that it found block (`Search.run_peace`). Where they may meet as opponents only the
placement does, team by team: what a team has got by the time holds of what is put there
later, so it holds of every pair (`Backfill.Peaceful`, `Backfill.Fills.peaceful`).

Both are said of the parties of the session as it is then (`Backfill.Meets`), those that
were there and those that joined in the same turn.
-/

namespace Matchmaking

variable {α : Type}

/-! ## Parties -/

namespace Party

@[simp] theorem userIds_bare (p : Party α) : p.bare.userIds = p.userIds := by
  rw [userIds, userIds, bare_member_ids]

/-- Whom a party blocks is no matter of roles. -/
@[simp] theorem blocked_bare [Scalar α] (p : Party α) : p.bare.blocked = p.blocked := by
  rw [blocked, blocked, blockedBy, blockedBy, bare, List.foldl_map]
  rfl

theorem IsOf.bare_eq {p : Party α} {t : Ticket α} (h : p.IsOf t) :
    p.bare = (Party.ofTicket t).bare := by
  obtain ⟨roles, rfl⟩ := h
  exact bare_assignRoles roles _

theorem IsOf.ticketId {p : Party α} {t : Ticket α} (h : p.IsOf t) : p.ticketId = some t.id := by
  obtain ⟨roles, rfl⟩ := h
  rfl

/-- What two parties have to do with each other, whatever roles their members take. -/
structure Between (R : Party α → Party α → Prop) : Prop where
  symm : ∀ {p q : Party α}, R p q → R q p
  of_bare : ∀ {p p' q : Party α}, p.bare = p'.bare → R p q → R p' q

/-- Two parties have no player in common. -/
def Apart (p q : Party α) : Prop := ∀ x ∈ p.userIds, x ∉ q.userIds

theorem between_apart : Between (@Apart α) where
  symm := fun h x hx hx' => h x hx' hx
  of_bare := fun {p p' q} hbare h => by rwa [Apart, ← p'.userIds_bare, ← hbare, userIds_bare]

theorem between_ticketId_ne : Between fun p q : Party α => q.ticketId ≠ p.ticketId where
  symm := Ne.symm
  of_bare := fun {p p' q} hbare h => by rwa [← p'.bare_ticketId, ← hbare, bare_ticketId]

variable [Scalar α]

/-- Two parties block no player of each other. -/
structure AtPeace (p q : Party α) : Prop where
  left : ∀ x ∈ p.userIds, x ∉ q.blocked
  right : ∀ x ∈ p.blocked, x ∉ q.userIds

theorem AtPeace.symm {p q : Party α} (h : p.AtPeace q) : q.AtPeace p :=
  ⟨fun x hx hx' => h.right x hx' hx, fun x hx hx' => h.left x hx' hx⟩

theorem between_atPeace : Between (@AtPeace α _) where
  symm := AtPeace.symm
  of_bare := fun {p p' q} hbare h => by
    refine ⟨fun x hx => h.left x ?_, fun x hx => h.right x ?_⟩
    · rwa [← userIds_bare, hbare, userIds_bare]
    · rwa [← blocked_bare, hbare, blocked_bare]

end Party

section Tickets

variable {ps : List (Party α)} {ts : List (Ticket α)}

theorem Party.exists_ticket (h : List.Forall₂ IsOf ps ts) : ∀ q ∈ ps, ∃ u ∈ ts, q.IsOf u := by
  induction h with
  | nil => exact List.forall_mem_nil _
  | @cons p t ps ts hp _ ih =>
    refine List.forall_mem_cons.2 ⟨⟨t, List.mem_cons_self, hp⟩, fun q hq => ?_⟩
    obtain ⟨u, hu, hqu⟩ := ih q hq
    exact ⟨u, List.mem_cons_of_mem _ hu, hqu⟩

/-- Of parties of tickets one is that of a ticket, and the others are those of the other
    tickets. -/
theorem Party.exists_perm_cons (h : List.Forall₂ IsOf ps ts) {t : Ticket α} (ht : t ∈ ts) :
    ∃ p qs us, ps.Perm (p :: qs) ∧ ts.Perm (t :: us) ∧ p.IsOf t ∧ List.Forall₂ IsOf qs us := by
  induction h with
  | nil => cases ht
  | @cons p u ps ts hp hrest ih =>
    rcases List.mem_cons.1 ht with rfl | ht
    · exact ⟨p, ps, ts, .refl _, .refl _, hp, hrest⟩
    · obtain ⟨p', qs, us, hps, hts, hp', hqs⟩ := ih ht
      exact ⟨p', p :: qs, u :: us, (hps.cons p).trans (.swap p' p qs),
        (hts.cons u).trans (.swap t u us), hp', .cons hp hqs⟩

/-- Among the parties of a session that gained tickets is one of each of them; the others
    were there before or are of the other tickets. -/
theorem Session.Gains.exists_party {s s' : Session α} (h : s.Gains s' ts) {t : Ticket α}
    (ht : t ∈ ts) :
    ∃ p others us, s'.parties.Perm (p :: others) ∧ p.IsOf t ∧ ts.Perm (t :: us) ∧
      ∀ q ∈ others, q ∈ s.parties ∨ ∃ u ∈ us, q.IsOf u := by
  obtain ⟨ps, hparties, hps⟩ := h.parties
  obtain ⟨p, qs, us, hperm, hts, hp, hqs⟩ := Party.exists_perm_cons hps ht
  refine ⟨p, s.parties ++ qs, us, ?_, hp, hts, fun q hq => ?_⟩
  · exact (hparties.trans (hperm.append_left s.parties)).trans List.perm_middle
  · exact (List.mem_append.1 hq).imp_right (Party.exists_ticket hqs q)

end Tickets

section Members

theorem Alliance.mem_userIds {a : Alliance α} {x : String} :
    x ∈ a.userIds ↔ ∃ p ∈ a.parties, x ∈ p.userIds := by
  simp only [userIds, Party.userIds, NameSet.mem_ofList, members, List.map_flatMap,
    List.mem_flatMap]

theorem Session.mem_userIds {s : Session α} {x : String} :
    x ∈ s.userIds ↔ ∃ p ∈ s.parties, x ∈ p.userIds := by
  simp only [userIds, Party.userIds, NameSet.mem_ofList, members_eq_flatMap, List.map_flatMap,
    List.mem_flatMap]

variable [Scalar α]

theorem Alliance.mem_blocked {a : Alliance α} {x : String} :
    x ∈ a.blocked ↔ ∃ p ∈ a.parties, x ∈ p.blocked := by
  simp [blocked, NameSet.mem_foldl_union]

theorem Session.mem_blocked {s : Session α} {x : String} :
    x ∈ s.blocked ↔ x ∈ s.attributes.names Key.blockedPlayers ∨ ∃ p ∈ s.parties, x ∈ p.blocked := by
  simp only [blocked, NameSet.mem_foldl_union, Alliance.mem_blocked, parties, List.mem_flatMap]
  grind

end Members

/-! ## What the search finds -/

namespace Search

variable [Scalar α] {s : Search α}

/-- A ticket that is found is not one of the pivot. -/
theorem run_fresh (s : Search α) (ts : List (Ticket α)) :
    ∀ t ∈ (s.run ts).map (·.ticket), t.id ∉ s.pivot.ticketIds := by
  intro t ht hmem
  have hfresh := s.run_overlaps ts t ht
  simp [Collection.overlaps, start, NameSet.contains_iff.2 hmem] at hfresh

/-- Where players who block one another do not meet, a ticket that is found and the pivot do
    not block each other, and no two tickets that are found do. -/
theorem run_peace (hpolicy : s.active.blockPolicy = .cannotMatch) (ts : List (Ticket α)) :
    (∀ t ∈ (s.run ts).map (·.ticket),
      (∀ x ∈ t.blocked, x ∉ s.pivot.userIds) ∧ ∀ x ∈ t.userIds, x ∉ s.pivot.blocked) ∧
    ((s.run ts).map (·.ticket)).Pairwise fun t u =>
      (Party.ofTicket t).AtPeace (.ofTicket u) := by
  have hfits : ∀ (c : Collection) (t : Ticket α), s.Fits c t →
      (∀ x ∈ t.blocked, x ∉ c.users) ∧ ∀ x ∈ t.userIds, x ∉ c.blocked := by
    intro c t h
    have := h.users
    simp only [acceptsUsers, hpolicy, ne_eq, not_true_eq_false, decide_false, Bool.false_or,
      Bool.and_eq_true, NameSet.disjoint_iff] at this
    exact ⟨this.1, fun x hx hx' => this.2 x hx' hx⟩
  have hcollect : ∀ (c : Collection) (t u : Ticket α),
      ((∀ x ∈ u.blocked, x ∉ (s.collect c t).users) ∧
        ∀ x ∈ u.userIds, x ∉ (s.collect c t).blocked) →
      ((∀ x ∈ u.blocked, x ∉ c.users) ∧ ∀ x ∈ u.userIds, x ∉ c.blocked) ∧
        (Party.ofTicket t).AtPeace (.ofTicket u) := by
    rintro c t u ⟨husers, hblocked⟩
    obtain ⟨_, _, hu, hb⟩ := s.collect_people c t
    simp only [hu, NameSet.mem_union, not_or] at husers
    simp only [hb, NameSet.mem_union, not_or] at hblocked
    refine ⟨⟨fun x hx => (husers x hx).1, fun x hx => (hblocked x hx).1⟩, .symm ⟨?_, ?_⟩⟩
    · exact fun x hx => (hblocked x hx).2
    · exact fun x hx => (husers x hx).2
  obtain ⟨hpivot, hpairs⟩ := accept_pairwise hfits hcollect s.start ts
  have hperm := s.run_perm_accept ts
  exact ⟨fun t ht => hpivot t (hperm.mem_iff.1 ht),
    (hperm.pairwise_iff Party.AtPeace.symm).2 hpairs⟩

end Search

/-! ## What a placement keeps -/

namespace Backfill

variable [Scalar α] {rules : RuleSet α} {s s' : Session α} {t : Ticket α} {ts : List (Ticket α)}
  {p : Placement}

/-- A new party is at peace with all others in its team. -/
def Peaceful (isNew : Party α → Prop) (s : Session α) : Prop :=
  ∀ a ∈ s.alliances, ∀ p ∈ a.parties, ∀ q ∈ a.parties, isNew p → p.ticketId ≠ q.ticketId →
    p.AtPeace q

/-- A team of a session that a ticket joined is a team of the session as it was, or the
    ticket is in it, behind a team that it may play in. -/
theorem mem_joined (h : place? rules t s = some p) {a' : Alliance α}
    (ha' : a' ∈ (joined s t p).alliances) :
    a' ∈ s.alliances ∨ ∃ qs party, a'.parties = qs ++ [party] ∧ party.IsOf t ∧
      (qs = [] ∨ ∃ a ∈ s.alliances, a.parties = qs) ∧
      (rules.blockPolicy = .otherTeam → ∀ q ∈ qs, q.AtPeace party) := by
  rcases place?_cases h with ⟨i, a, hteam, ha, _, hpeace⟩ | ⟨hteam, _⟩
  · simp only [joined, hteam, Session.addParty] at ha'
    obtain ⟨j, hj⟩ := List.getElem?_of_mem ha'
    rw [List.getElem?_modify] at hj
    obtain ⟨a₀, ha₀, rfl⟩ := Option.map_eq_some_iff.1 hj
    split_ifs with hij
    · obtain rfl : a = a₀ := Option.some_inj.1 (ha.symm.trans (hij ▸ ha₀))
      refine .inr ⟨a.parties, _, rfl, ⟨_, rfl⟩, .inr ⟨a, List.mem_of_getElem? ha, rfl⟩, ?_⟩
      intro hpolicy q hq
      obtain ⟨hleft, hright⟩ := hpeace hpolicy
      rw [NameSet.disjoint_iff] at hleft hright
      have hticket : (Party.ofTicket t).AtPeace q :=
        ⟨fun x hx hxq => hleft x (Alliance.mem_blocked.2 ⟨q, hq, hxq⟩) hx,
          fun x hx hxq => hright x hx (Alliance.mem_userIds.2 ⟨q, hq, hxq⟩)⟩
      exact (Party.between_atPeace.of_bare (Party.bare_assignRoles _ _).symm hticket).symm
    · exact .inl (List.mem_of_getElem? ha₀)
  · simp only [joined, hteam, Session.addAlliance, List.mem_append, List.mem_singleton] at ha'
    rcases ha' with ha' | rfl
    · exact .inl ha'
    · exact .inr ⟨[], _, rfl, ⟨_, rfl⟩, .inl rfl, fun _ => List.forall_mem_nil _⟩

theorem peaceful_joined {isNew : Party α → Prop} (hpolicy : rules.blockPolicy = .otherTeam)
    (h : place? rules t s = some p) (hs : Peaceful isNew s) : Peaceful isNew (joined s t p) := by
  intro a' ha' p₁ hp₁ p₂ hp₂ hnew hne
  rcases mem_joined h ha' with ha' | ⟨qs, party, hparties, _, hqs, hpeace⟩
  · exact hs a' ha' p₁ hp₁ p₂ hp₂ hnew hne
  · have hpeace := hpeace hpolicy
    rw [hparties, List.mem_append, List.mem_singleton] at hp₁ hp₂
    -- Either both were there, or one of them is the party that joined.
    rcases hp₁ with hp₁ | rfl <;> rcases hp₂ with hp₂ | rfl
    · rcases hqs with rfl | ⟨a, ha, rfl⟩
      · cases hp₁
      · exact hs a ha p₁ hp₁ p₂ hp₂ hnew hne
    · exact hpeace p₁ hp₁
    · exact (hpeace p₂ hp₂).symm
    · exact absurd rfl hne

/-- Each ticket that joins keeps the peace in its team. -/
theorem Fills.peaceful {isNew : Party α → Prop} (hpolicy : rules.blockPolicy = .otherTeam)
    (h : Fills rules s ts s') (hs : Peaceful isNew s) : Peaceful isNew s' := by
  induction h with
  | done s => exact hs
  | @join s s' t ts p hp _ ih =>
    refine ih fun a ha => ?_
    rw [Session.refresh_alliances] at ha
    exact peaceful_joined hpolicy hp hs a ha

/-- A party of a ticket meets the other parties of a session, after the ticket joined it:
    none of them is of the ticket too or has a player of it. Where players who block one
    another do not meet, the party is at peace with all of them, and no player of it was
    blocked by the session; where they may meet as opponents, with those in its team. -/
structure Meets (policy : BlockPolicy) (before after : Session α) (t : Ticket α) (p : Party α)
    (others : List (Party α)) : Prop where
  parties : after.parties.Perm (p :: others)
  isOf : p.IsOf t
  single : ∀ q ∈ others, q.ticketId ≠ some t.id
  apart : ∀ q ∈ others, p.Apart q
  peace : policy = .cannotMatch → ∀ q ∈ others, p.AtPeace q
  welcome : policy = .cannotMatch → ∀ x ∈ p.userIds, x ∉ before.attributes.names Key.blockedPlayers
  teamPeace : policy = .otherTeam → ∀ a ∈ after.alliances, p ∈ a.parties → ∀ q ∈ others,
    q ∈ a.parties → p.AtPeace q

/-! ## Whoever joins -/

variable {b : Backfill α} {pool : List (Ticket α)}

/-- A ticket that joins a session in its turn has a party there. What the ticket has to do
    with the parties of the session, and any two tickets that were found with each other,
    that party has to do with the others. -/
theorem Attends.exists_party {queue left : List (Ticket α)} (h : b.Attends s queue s' ts left)
    (hid : Ticket.Distinct queue) (ht : t ∈ ts) :
    t ∈ ((b.search s).run queue).map (·.ticket) ∧ ∃ p others, s'.parties.Perm (p :: others) ∧
      p.IsOf t ∧ ∀ {R : Party α → Party α → Prop}, Party.Between R →
        (∀ q ∈ s.parties, R (.ofTicket t) q) →
        (((b.search s).run queue).map (·.ticket)).Pairwise
          (fun t u => R (.ofTicket t) (.ofTicket u)) →
        ∀ q ∈ others, R p q := by
  have hfound := h.serves.subperm_found hid
  obtain ⟨p, others, us, hparties, hp, hus, hothers⟩ := h.serves.gains.exists_party ht
  refine ⟨hfound.subset ht, p, others, hparties, hp, fun {R} hR hpivot hpairs q hq => ?_⟩
  refine hR.of_bare hp.bare_eq.symm ?_
  rcases hothers q hq with hq | ⟨u, hu, hqu⟩
  · exact hpivot q hq
  · obtain ⟨l, hl, hsub⟩ := hfound
    have hjoined := ((hl.trans hus).pairwise_iff hR.symm).1 (hpairs.sublist hsub)
    have htu := (List.pairwise_cons.1 hjoined).1 u hu
    exact hR.symm (hR.of_bare hqu.bare_eq.symm (hR.symm htu))

/-- A ticket that joins a session in its turn, from tickets with ids of their own, meets
    the other parties as the policy has it. -/
theorem Attended.meets {f : Filling α} (h : b.Attended pool f) (hpool : Ticket.Distinct pool)
    (ht : t ∈ f.joined) :
    ∃ p others, Meets b.rules.blockPolicy f.before.session f.after.session t p others := by
  obtain ⟨queue, left, hqueue, hattends⟩ := h
  have hid : Ticket.Distinct queue := hpool.subperm hqueue
  obtain ⟨hfound, p, others, hparties, hp, hothers⟩ := hattends.exists_party hid ht
  have husers : ∀ x ∈ p.userIds, x ∈ t.userIds := fun x hx => by
    rwa [← p.userIds_bare, hp.bare_eq, Party.userIds_bare] at hx
  have hfresh : t.id ∉ f.before.session.ticketIds := fun hmem =>
    (b.search f.before.session).run_fresh queue t hfound (NameSet.mem_ofList.2 hmem)
  have hsingle : ∀ q ∈ others, q.ticketId ≠ p.ticketId := by
    refine hothers Party.between_ticketId_ne (fun q hq hqt => ?_) ?_
    · exact hfresh (List.mem_filterMap.2 ⟨q, hq, hqt⟩)
    · have := hid.subperm ((b.search f.before.session).run_subperm queue)
      exact (List.pairwise_map.1 this).imp fun hne heq => hne (Option.some_inj.1 heq).symm
  have hpeace := fun hpolicy : b.rules.blockPolicy = .cannotMatch =>
    Search.run_peace (s := b.search f.before.session) hpolicy queue
  refine ⟨p, others, hparties, hp, fun q hq => hp.ticketId ▸ hsingle q hq, ?_, fun hpolicy => ?_,
    fun hpolicy x hx hxb => ?_, fun hpolicy a ha hpa q hq hqa => ?_⟩
  · obtain ⟨hpivot, hapart⟩ := (b.search f.before.session).run_apart queue
    refine hothers Party.between_apart (fun q hq x hx hxq => ?_) hapart
    exact hpivot t hfound x hx (Session.mem_userIds.2 ⟨q, hq, hxq⟩)
  · obtain ⟨hpivot, hpairs⟩ := hpeace hpolicy
    obtain ⟨hblocks, hblocked⟩ := hpivot t hfound
    refine hothers Party.between_atPeace (fun q hq => ⟨fun x hx hxq => ?_, fun x hx hxq => ?_⟩) hpairs
    · exact hblocked x hx (Session.mem_blocked.2 (.inr ⟨q, hq, hxq⟩))
    · exact hblocks x hx (Session.mem_userIds.2 ⟨q, hq, hxq⟩)
  · obtain ⟨hpivot, _⟩ := hpeace hpolicy
    exact (hpivot t hfound).2 x (husers x hx) (Session.mem_blocked.2 (.inl hxb))
  · obtain ⟨m, hfills, hafter⟩ := hattends.fills
    -- A party is new if it is of a ticket that the session did not have.
    have hnobody : Peaceful (fun p => ∃ id, p.ticketId = some id ∧
        id ∉ f.before.session.ticketIds) f.before.session := by
      rintro a ha p hpa _ _ ⟨id, hid, hnew⟩
      exact absurd (List.mem_filterMap.2 ⟨p, List.mem_flatMap.2 ⟨a, ha, hpa⟩, hid⟩) hnew
    have hpolicy' : (b.activeRules f.before.session).blockPolicy = .otherTeam := hpolicy
    have hpeaceful := hfills.fills.peaceful hpolicy' hnobody
    rw [hafter, Session.refresh_alliances] at ha
    exact hpeaceful a ha p hpa q hqa ⟨t.id, hp.ticketId, hfresh⟩ (hsingle q hq).symm

/-- Every ticket that joins a session in a run meets the other parties as the policy has
    it, if the tickets have ids of their own. -/
theorem run_meets (b : Backfill α) (budget : Budget) (os : List (OpenSession α))
    (hpool : Ticket.Distinct pool) :
    ∃ fs, b.Accounts (b.run budget os pool) (sortBy OpenSession.rank os) pool fs ∧
      ∀ f ∈ fs, ∀ t ∈ f.joined, ∃ p others,
        Meets b.rules.blockPolicy f.before.session f.after.session t p others := by
  obtain ⟨fs, haccounts, hattended⟩ := b.run_accounts budget os pool
  refine ⟨fs, haccounts, fun f hf t ht => ?_⟩
  rcases hattended f hf with h | ⟨_, o, rfl⟩
  · exact h.meets hpool ht
  · cases ht

/-! ### A duel that is open -/

/-- Open duels are filled under the same rules. -/
def duelFilling : Backfill Float := ⟨Formation.duel.rules, Formation.duel.now⟩

/-- A player who does not want to meet another one waits for an opponent. -/
def openDuel : OpenSession Float where
  ticketId := "open"
  session := { Formation.duel.soloSession (Formation.duelist "a" ["b"]) with
    id := "m"
    status := .forming
    joinable := true }

theorem duel_meets : Ticket.Distinct [Formation.duelist "b" [], Formation.duelist "c" []] ∧
    (duelFilling.run .unlimited [openDuel]
      [Formation.duelist "b" [], Formation.duelist "c" []]).proposals.map (·.added) = [["c"]] ∧
    ∃ fs, duelFilling.Accounts (duelFilling.run .unlimited [openDuel]
        [Formation.duelist "b" [], Formation.duelist "c" []])
        (sortBy OpenSession.rank [openDuel])
        [Formation.duelist "b" [], Formation.duelist "c" []] fs ∧
      ∀ f ∈ fs, ∀ t ∈ f.joined, ∃ p others,
        Meets .cannotMatch f.before.session f.after.session t p others :=
  ⟨by decide, by decide +kernel, duelFilling.run_meets .unlimited [openDuel] (by decide)⟩

end Backfill

end Matchmaking
