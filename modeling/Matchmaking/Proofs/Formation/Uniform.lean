import Mathlib.Data.List.Flatten
import Matchmaking.Proofs.Formation.EarlyStop
import Matchmaking.Proofs.Formation.Listing
import Matchmaking.Proofs.Formation.ReadyTeams
import Matchmaking.Proofs.Relisting

/-!
# Queues of strangers

Under rules that ask for so many teams of so many players and nothing else, a queue
of single players of whom nothing is known is cut into matches in the order of
service, and what does not fill a match is left. No pivot is dropped
(`Formation.run_cuts`).

Any two such tickets fit each other, at one cost, so the candidates of a pivot are
the rest of the queue as it stands (`Formation.candidates_of_strangers`). So its match
is the front of the queue, in teams that are ready, as long as there are enough
players, and there is none if there are not.

That is so if the run comes to its end. It breaks off where the players of a match are
no word, however many tickets there are, and where there can be no room for the teams of a
match that there would be players enough for.
-/

namespace Matchmaking

variable {α : Type}

/-! ## Pieces of a list -/

/-- The first pieces of a list, each of a size, one after the other. -/
def pieces {β : Type} : Nat → Nat → List β → List (List β)
  | 0, _, _ => []
  | n + 1, size, xs => xs.take size :: pieces n size (xs.drop size)

section Pieces

variable {β : Type} {n size : Nat} {xs : List β}

theorem length_pieces : (pieces n size xs).length = n := by
  induction n generalizing xs with
  | zero => rfl
  | succ n ih => rw [pieces, List.length_cons, ih]

theorem flatten_pieces : (pieces n size xs).flatten = xs.take (n * size) := by
  induction n generalizing xs with
  | zero => simp [pieces]
  | succ n ih => rw [pieces, List.flatten_cons, ih, Nat.succ_mul, Nat.add_comm, List.take_add]

theorem length_of_mem_pieces (h : n * size ≤ xs.length) {ys : List β}
    (hys : ys ∈ pieces n size xs) : ys.length = size := by
  induction n generalizing xs with
  | zero => cases hys
  | succ n ih =>
    rw [Nat.succ_mul] at h
    rcases List.mem_cons.1 hys with rfl | hys
    · rw [List.length_take]
      omega
    · refine ih ?_ hys
      rw [List.length_drop]
      omega

end Pieces

/-! ## Queues that are cut -/

/-- A queue is cut into matches of `k` teams of `m` players, in order: there are as
    many as there are players for, what is left does not fill one more, and nothing is
    searched for in vain. -/
structure Formed.Cuts (r : Formed α) (k m : Nat) (queue : List (Ticket α)) : Prop where
  length : r.sessions.length = queue.length / (k * m)
  satisfied : ∀ s ∈ r.sessions, s.status = .satisfied ∧ s.teamSizes = List.replicate k m
  tickets : ∀ i s, r.sessions[i]? = some s →
    s.ticketIds = ((queue.drop (i * (k * m))).take (k * m)).map (·.id)
  unmatched : r.unmatched = queue.drop (queue.length - queue.length % (k * m))
  dropped : r.dropped = 0

namespace Formed.Cuts

variable {r r' : Formed α} {k m : Nat} {queue : List (Ticket α)}

/-- Who gave up a role does not matter. -/
theorem congr (h : r.Cuts k m queue) (hsessions : r'.sessions = r.sessions)
    (hunmatched : r'.unmatched = r.unmatched) (hdropped : r'.dropped = r.dropped) :
    r'.Cuts k m queue where
  length := hsessions ▸ h.length
  satisfied := hsessions ▸ h.satisfied
  tickets := hsessions ▸ h.tickets
  unmatched := hunmatched ▸ h.unmatched
  dropped := hdropped ▸ h.dropped

/-- A queue without enough players for a match is left. -/
theorem leave (h : queue.length < k * m) : (Formed.leave queue).Cuts k m queue where
  length := (Nat.div_eq_of_lt h).symm
  satisfied := List.forall_mem_nil _
  tickets := fun _ _ hs => nomatch hs
  unmatched := by rw [Nat.mod_eq_of_lt h, Nat.sub_self]; rfl
  dropped := rfl

/-- The first match is the front of the queue, and the others are those of what comes
    after it. -/
theorem emit {s : Session α} (hpos : 0 < k * m) (henough : k * m ≤ queue.length)
    (h : r.Cuts k m (queue.drop (k * m))) (hstatus : s.status = .satisfied)
    (hsizes : s.teamSizes = List.replicate k m)
    (hids : s.ticketIds = (queue.take (k * m)).map (·.id)) : (r.emit s).Cuts k m queue := by
  have hdiv : queue.length / (k * m) = (queue.length - k * m) / (k * m) + 1 :=
    Nat.div_eq_sub_div hpos henough
  have hmod : queue.length % (k * m) = (queue.length - k * m) % (k * m) :=
    Nat.mod_eq_sub_mod henough
  refine ⟨?_, ?_, ?_, ?_, h.dropped⟩
  · rw [hdiv, ← List.length_drop]
    exact congrArg (· + 1) h.length
  · exact List.forall_mem_cons.2 ⟨⟨hstatus, hsizes⟩, h.satisfied⟩
  · intro i s' hs'
    cases i with
    | zero =>
      obtain rfl : s = s' := Option.some_inj.1 hs'
      rw [hids, Nat.zero_mul, List.drop_zero]
    | succ i => rw [h.tickets i s' hs', List.drop_drop, Nat.succ_mul, Nat.add_comm]
  · have hle := Nat.mod_le (queue.length - k * m) (k * m)
    have hplace : k * m + (queue.length - k * m - (queue.length - k * m) % (k * m)) =
        queue.length - queue.length % (k * m) := by omega
    have hrest := h.unmatched
    rw [List.length_drop, List.drop_drop, hplace] at hrest
    exact hrest

end Formed.Cuts

/-! ## Strangers -/

namespace Ticket

/-- Nothing is known of a ticket and its players. -/
structure IsBlank (t : Ticket α) : Prop where
  ticket : t.attributes = ∅
  members : ∀ m ∈ t.members, m.attributes = ∅

/-- Tickets are those of single players who have nothing in common, and of whom
    nothing is known. -/
structure Strangers (ts : List (Ticket α)) : Prop where
  ids : (ts.map (·.id)).Nodup
  parties : (ts.map (·.partyId)).Nodup
  users : (ts.flatMap fun t => t.members.map (·.id)).Nodup
  single : ∀ t ∈ ts, t.players = 1
  blank : ∀ t ∈ ts, t.IsBlank

theorem Strangers.sublist {ts us : List (Ticket α)} (h : Strangers us) (hsub : ts.Sublist us) :
    Strangers ts where
  ids := h.ids.sublist (hsub.map _)
  parties := h.parties.sublist (hsub.map _)
  users := h.users.sublist (hsub.flatMap _)
  single := fun t ht => h.single t (hsub.subset ht)
  blank := fun t ht => h.blank t (hsub.subset ht)

theorem Strangers.perm {ts us : List (Ticket α)} (h : Strangers us) (hperm : ts.Perm us) :
    Strangers ts where
  ids := (hperm.map _).nodup_iff.2 h.ids
  parties := (hperm.map _).nodup_iff.2 h.parties
  users := (hperm.flatMap_right _).nodup_iff.2 h.users
  single := fun t ht => h.single t (hperm.subset ht)
  blank := fun t ht => h.blank t (hperm.subset ht)

theorem Strangers.apart {ts : List (Ticket α)} (h : Strangers ts) : ts.Pairwise Apart :=
  (List.nodup_flatMap.1 h.users).2.imp fun hdisjoint _ hx hy =>
    hdisjoint (NameSet.mem_ofList.1 hx) (NameSet.mem_ofList.1 hy)

theorem totalPlayers_eq_length {ts : List (Ticket α)} (h : ∀ t ∈ ts, t.players = 1) :
    totalPlayers ts = ts.length := by
  induction ts with
  | nil => rfl
  | cons t ts ih =>
    obtain ⟨ht, hts⟩ := List.forall_mem_cons.1 h
    have hrest : total players ts = ts.length := ih hts
    rw [totalPlayers, total_cons, ht, hrest, List.length_cons, Nat.add_comm]

/-- The front of a queue is taken out by its ids. -/
theorem without_take {ts : List (Ticket α)} (hid : (ts.map (·.id)).Nodup) (n : Nat) :
    without ((ts.take n).map (·.id)) ts = ts.drop n := by
  rw [← List.take_append_drop n ts, List.map_append, List.nodup_append] at hid
  obtain ⟨_, _, hapart⟩ := hid
  have hfront : without ((ts.take n).map (·.id)) (ts.take n) = [] :=
    List.filter_eq_nil_iff.2 fun t ht => by
      simpa using List.mem_map_of_mem (f := (·.id)) ht
  have hback : without ((ts.take n).map (·.id)) (ts.drop n) = ts.drop n :=
    without_eq_self fun t ht hmem => hapart _ hmem _ (List.mem_map_of_mem ht) rfl
  calc without ((ts.take n).map (·.id)) ts
    _ = without ((ts.take n).map (·.id)) (ts.take n ++ ts.drop n) := by rw [List.take_append_drop]
    _ = without ((ts.take n).map (·.id)) (ts.take n) ++
        without ((ts.take n).map (·.id)) (ts.drop n) := List.filter_append _ _
    _ = ts.drop n := by rw [hfront, hback, List.nil_append]

variable [Scalar α]

theorem IsBlank.blocked {t : Ticket α} (h : t.IsBlank) : t.blocked = ∅ := by
  refine NameSet.ext fun x => ?_
  simp only [Ticket.blocked, blockedBy, NameSet.mem_foldl_union, Attributes.names, h.ticket,
    Dict.get?_empty, Option.map_none, Option.getD_none, NameSet.not_mem_empty, false_or, iff_false,
    not_exists, not_and]
  intro m hm
  simp [Member.blocked, Attributes.names, h.members m hm]

end Ticket

variable [Scalar α]

/-- Where nobody blocks anyone, all may meet. -/
theorem BlockPolicy.admits_of_blocked_empty (policy : BlockPolicy) {teams : List (List (Ticket α))}
    (h : ∀ t ∈ teams.flatten, t.blocked = ∅) : policy.Admits (teams.map TeamSummary.ofTickets) := by
  have hblocked : ∀ team ∈ teams.map TeamSummary.ofTickets, ∀ x, x ∉ team.blocked := by
    intro summary hsummary x hx
    obtain ⟨team, hteam, rfl⟩ := List.mem_map.1 hsummary
    obtain ⟨t, ht, hx⟩ := TeamSummary.mem_blocked_ofTickets.1 hx
    rw [h t (List.mem_flatten_of_mem hteam ht)] at hx
    exact NameSet.not_mem_empty x hx
  cases policy with
  | canMatch => trivial
  | otherTeam => exact fun t ht x _ => hblocked t ht x
  | cannotMatch => exact fun t ht _ _ x _ => hblocked t ht x

/-! ## Searches that ask for nothing -/

/-- The search for anybody, under rules that only ask for a shape. -/
def Search.forAnybody (a : AllianceRule) (pivot : Ticket α) (now : Instant) : Search α where
  source := .ofAlliance a
  active := .ofAlliance a
  pivot := .ticket pivot
  region := none
  mode := none
  now := now

namespace Search

variable {a : AllianceRule} {pivot : Ticket α} {now : Instant} {c : Collection} {t : Ticket α}

/-- A ticket of which nothing is known fits if it is a new one. -/
theorem fits_forAnybody (hpivot : pivot.IsBlank) (ht : t.IsBlank) (hfresh : c.overlaps t = false)
    (hblocked : c.blocked = ∅) : (forAnybody a pivot now).Fits c t where
  fresh := hfresh
  session := rfl
  mode := by
    refine NameSet.isEmpty_iff.2 (NameSet.ext fun x => ?_)
    simp [forAnybody, RuleSet.ofAlliance, Dict.contains]
  near := List.forall_mem_nil _
  platforms := rfl
  options := List.forall_mem_nil _
  attributes := by
    have hkeys : pivot.attributes.keys ++ t.attributes.keys = [] := by
      rw [hpivot.ticket, ht.ticket]
      rfl
    simp only [attributeRefusal?, forAnybody, RuleSet.ofAlliance, Pivot.attributes, hkeys]
    rfl
  users := acceptsUsers_iff.2 fun _ => by
    rw [ht.blocked, hblocked]
    exact ⟨fun x hx => absurd hx (NameSet.not_mem_empty x),
      fun x hx => absurd hx (NameSet.not_mem_empty x)⟩
  region := rfl
  criteria := rfl

/-- Whoever fits is taken at one cost. -/
theorem found?_forAnybody : (forAnybody a pivot now).found? t =
    some ⟨t, Scalar.ofNat 0 + Scalar.ofNat 0, none⟩ := rfl

/-- Strangers fit a pivot who is one of them. -/
theorem fits_start_forAnybody {rest : List (Ticket α)} (h : Ticket.Strangers (pivot :: rest)) :
    ∀ t ∈ rest, (forAnybody a pivot now).Fits (forAnybody a pivot now).start t := by
  intro t ht
  have hpivot := h.blank pivot List.mem_cons_self
  refine fits_forAnybody hpivot (h.blank t (List.mem_cons_of_mem _ ht)) ?_ hpivot.blocked
  have hids := (List.nodup_cons.1 h.ids).1
  have hparties := (List.nodup_cons.1 h.parties).1
  have hapart : pivot.Apart t := List.rel_of_pairwise_cons h.apart ht
  refine Collection.overlaps_eq_false_iff.2 ⟨fun hmem => hids ?_, fun hmem => hparties ?_, ?_⟩
  · have hid : t.id = pivot.id := by simpa using NameSet.mem_ofList.1 hmem
    exact List.mem_map.2 ⟨t, ht, hid⟩
  · have hparty : t.partyId = pivot.partyId := by simpa using NameSet.mem_ofList.1 hmem
    exact List.mem_map.2 ⟨t, ht, hparty⟩
  · exact fun x hx hx' => hapart x hx' hx

/-- No stranger matters to another. -/
theorem independent_of_strangers {ts : List (Ticket α)} (h : Ticket.Strangers ts) :
    ts.Pairwise (RuleSet.ofAlliance a : RuleSet α).Independent := by
  have hids : ts.Pairwise fun t u => t.id ≠ u.id := List.pairwise_map.1 h.ids
  refine (hids.and h.apart).imp_of_mem fun {t u} ht hu htu => ⟨htu.1, htu.2, nofun, ?_, ?_, ?_⟩
  · exact fun o ho => absurd ho List.not_mem_nil
  · exact fun _ o ho => absurd ho List.not_mem_nil
  · rw [(h.blank t ht).blocked, (h.blank u hu).blocked]
    exact fun _ => ⟨fun x hx => absurd hx (NameSet.not_mem_empty x),
      fun x hx => absurd hx (NameSet.not_mem_empty x)⟩

/-- If all fit at first and none of them matters to another, all are accepted. -/
theorem accept_of_independent {s : Search α} {ts : List (Ticket α)} (hfits : ∀ t ∈ ts, s.Fits c t)
    (hts : ts.Pairwise s.active.Independent) : (s.accept c ts).1.map (·.ticket) = ts := by
  induction ts generalizing c with
  | nil => rfl
  | cons t ts ih =>
    obtain ⟨ht, hfits⟩ := List.forall_mem_cons.1 hfits
    obtain ⟨hindependent, hts⟩ := List.pairwise_cons.1 hts
    obtain ⟨found, hfound⟩ := ht.exists_found
    have hticket : found.ticket = t := ticket_of_evaluate (evaluate_eq_ok_iff.2 ⟨ht, hfound⟩)
    rw [accept_cons_of_fits ht hfound, List.map_cons, hticket]
    exact congrArg (t :: ·) (ih (fun u hu => ht.collect (hfits u hu) (hindependent u hu)) hts)

/-- The candidates of a stranger are all others, as they come. -/
theorem run_forAnybody {rest : List (Ticket α)} (h : Ticket.Strangers (pivot :: rest))
    (hsorted : rest.Pairwise fun t u => (Ticket.rank t u).isLE = true) :
    ((forAnybody a pivot now).run rest).map (·.ticket) = rest := by
  set s : Search α := forAnybody a pivot now
  have haccept : (s.accept s.start rest).1.map (·.ticket) = rest :=
    accept_of_independent (fits_start_forAnybody h)
      (independent_of_strangers (h.sublist (List.sublist_cons_self _ _)))
  have hscore : ∀ t found, s.found? t = some found →
      found.score = Scalar.ofNat 0 + Scalar.ofNat 0 := fun t found hfound =>
    congrArg Found.score (Option.some_inj.1 (hfound.symm.trans found?_forAnybody))
  rw [run_eq_accept rfl hscore hsorted, haccept]

end Search

/-! ## Rounds -/

namespace Formation

variable {f : Formation α} {k m : Nat} {pivot : Ticket α} {rest : List (Ticket α)}

/-- All that matches are asked for is to have `k` teams of `m` players. -/
def IsUniform (f : Formation α) (k m : Nat) : Prop := f.rules = .ofAlliance (.ofBounds ⟨k, k, m, m⟩)

namespace IsUniform

omit [Scalar α] in
theorem allianceAt (h : f.IsUniform k m) (pivot : Ticket α) :
    f.allianceAt pivot none = .ofBounds ⟨k, k, m, m⟩ := by
  rw [Formation.allianceAt, h]
  rfl

omit [Scalar α] in
theorem search (h : f.IsUniform k m) (pivot : Ticket α) :
    f.search pivot ⟨none, none⟩ = .forAnybody (.ofBounds ⟨k, k, m, m⟩) pivot f.now := by
  rw [Formation.search, activeRules, h.allianceAt, h]
  rfl

theorem attempts (h : f.IsUniform k m) (pivot : Ticket α) : f.attempts pivot = [⟨none, none⟩] := by
  have hmodes : f.rules.modes = ∅ := congrArg RuleSet.modes h
  rw [Formation.attempts, modes_eq_of_empty hmodes, h]
  rfl

omit [Scalar α] in
theorem allBounds (h : f.IsUniform k m) : f.rules.allBounds = [⟨k, k, m, m⟩] := by
  rw [h]
  rfl

omit [Scalar α] in
theorem minPlayers (h : f.IsUniform k m) : f.rules.minPlayers = k * m := by
  rw [h]
  rfl

omit [Scalar α] in
theorem countsLeast_iff (h : f.IsUniform k m) :
    f.rules.countsLeast = true ↔ k * m < Word.size := by
  rw [RuleSet.countsLeast, h.allBounds, List.all_cons, List.all_nil, Bool.and_true,
    decide_eq_true_iff]
  rfl

theorem minPlayersFor (h : f.IsUniform k m) (pivot : Ticket α) :
    f.minPlayersFor pivot = k * m := by
  rw [Formation.minPlayersFor, h.attempts, List.map_singleton, h.allianceAt]
  rfl

end IsUniform

theorem candidates_of_strangers (hf : f.IsUniform k m) (h : Ticket.Strangers (pivot :: rest))
    (hsorted : (pivot :: rest).Pairwise fun t u => (Ticket.rank t u).isLE = true) :
    f.candidates pivot ⟨none, none⟩ (pivot :: rest) = rest := by
  rw [candidates, Ticket.without_cons_of_mem (List.mem_singleton_self _),
    Ticket.without_head h.ids, hf.search]
  exact Search.run_forAnybody h hsorted.of_cons

/-- As long as there are enough players, the front of the queue is a match. -/
theorem sessionFor?_of_strangers (hf : f.IsUniform k m) (hk : 1 ≤ k) (hm : 1 ≤ m)
    (h : Ticket.Strangers (pivot :: rest))
    (hsorted : (pivot :: rest).Pairwise fun t u => (Ticket.rank t u).isLE = true)
    (henough : k * m ≤ (pivot :: rest).length) :
    ∃ s, f.sessionFor? pivot (pivot :: rest) = some s ∧ s.Seats (pieces k m (pivot :: rest)) ∧
      s.status = .satisfied := by
  have hfront : (pieces k m (pivot :: rest)).flatten ⊆ pivot :: rest := by
    rw [flatten_pieces]
    exact List.take_subset _ _
  have hready : (Assembler.of (f.allianceAt pivot none) f.rules.blockPolicy f.cap).packing.Ready
      (pieces k m (pivot :: rest)) := by
    rw [hf.allianceAt]
    refine ⟨rfl, length_pieces.symm, length_pieces.symm, rfl, ?_, ?_, ?_⟩
    · intro team hteam
      have hone : ∀ t ∈ team, t.players = 1 := fun t ht =>
        h.single t (hfront (List.mem_flatten_of_mem hteam ht))
      exact (Ticket.totalPlayers_eq_length hone).trans (length_of_mem_pieces henough hteam)
    · intro t ht
      rw [h.single t (hfront ht)]
      exact Nat.zero_lt_one
    · exact BlockPolicy.admits_of_blocked_empty _ fun t ht => (h.blank t (hfront ht)).blocked
  have hcandidates : pivot :: f.candidates pivot ⟨none, none⟩ (pivot :: rest) =
      (pieces k m (pivot :: rest)).flatten ++ (pivot :: rest).drop (k * m) := by
    rw [candidates_of_strangers hf h hsorted, flatten_pieces, List.take_append_drop]
  have hne : (pieces k m (pivot :: rest)).flatten ≠ [] := by
    have hpos : 0 < k * m := Nat.mul_pos hk hm
    rw [flatten_pieces, Ne, List.take_eq_nil_iff]
    simp [Nat.ne_zero_of_lt hpos]
  obtain ⟨s, hs, hseats, hstatus⟩ := attempt?_of_ready h.ids hready hcandidates hne
  refine ⟨s, ?_, hseats, hstatus⟩
  rw [sessionFor?, hf.attempts, List.findSome?_singleton, hs]

/-- A match has enough players. -/
theorem le_length_of_sessionFor? (hf : f.IsUniform k m) (hone : ∀ t ∈ pivot :: rest, t.players = 1)
    {s : Session α} (h : f.sessionFor? pivot (pivot :: rest) = some s) :
    k * m ≤ (pivot :: rest).length := by
  obtain ⟨a, ha, asm, hasm, _⟩ := exists_of_sessionFor? h
  obtain ⟨teams, hteams⟩ := assembly?_teams hasm
  rw [hf.attempts, List.mem_singleton] at ha
  have hplayers := hteams.minPlayers_le_totalPlayers
  rw [ha, hf.allianceAt, Ticket.totalPlayers_eq_length hone] at hplayers
  exact hplayers

/-- No pivot is dropped, as there is a match for it if there are players enough for one. -/
theorem not_drops (hf : f.IsUniform k m) (hk : 1 ≤ k) (hm : 1 ≤ m)
    (h : Ticket.Strangers (pivot :: rest))
    (hsorted : (pivot :: rest).Pairwise fun t u => (Ticket.rank t u).isLE = true)
    (henough : f.rules.minPlayers ≤ Ticket.totalPlayers (pivot :: rest)) :
    ¬(Ticket.totalPlayers (pivot :: rest) < f.minPlayersFor pivot ∨
      f.sessionFor pivot (pivot :: rest) = .ok none) := by
  rw [hf.minPlayers] at henough
  rw [hf.minPlayersFor, or_iff_right (Nat.not_lt.2 henough)]
  intro hnone
  rw [Ticket.totalPlayers_eq_length h.single] at henough
  obtain ⟨s, hs, _⟩ := sessionFor?_of_strangers hf hk hm h hsorted henough
  rw [sessionFor?_of_ok hnone] at hs
  cases hs

/-- Rounds that come to their end cut the queue. -/
theorem rounds_cuts (hf : f.IsUniform k m) (hk : 1 ≤ k) (hm : 1 ≤ m) {queue : List (Ticket α)}
    (h : Ticket.Strangers queue)
    (hsorted : queue.Pairwise fun t u => (Ticket.rank t u).isLE = true)
    (hends : (f.rounds .unlimited queue).failure = none) :
    (f.rounds .unlimited queue).Cuts k m queue := by
  -- What is left after a round is a part of the queue, so the premises go with the induction.
  suffices Ticket.Strangers queue → queue.Pairwise (fun t u => (Ticket.rank t u).isLE = true) →
      (f.rounds .unlimited queue).failure = none → (f.rounds .unlimited queue).Cuts k m queue from
    this h hsorted hends
  refine rounds_induction (f := f) .unlimited (motive := fun queue r =>
    Ticket.Strangers queue → queue.Pairwise (fun t u => (Ticket.rank t u).isLE = true) →
      r.failure = none → r.Cuts k m queue) ?leave ?late ?broken ?drop ?emit h.ids
  case leave =>
    intro queue hfew h _ _
    refine .leave ?_
    rcases hfew with rfl | hfew
    · exact Nat.mul_pos hk hm
    · rwa [hf.minPlayers, Ticket.totalPlayers_eq_length h.single] at hfew
  case late => exact fun h => absurd rfl h
  case broken => exact fun _ _ _ _ _ _ => nofun
  case drop =>
    exact fun pivot rest _ _ hmin hnone _ h hsorted _ =>
      absurd hnone (not_drops hf hk hm h hsorted hmin)
  case emit =>
    intro pivot rest s _ _ _ hs ih h hsorted hends
    have hs := sessionFor?_of_ok hs
    have henough := le_length_of_sessionFor? hf h.single hs
    obtain ⟨s', hs', hseats, hstatus⟩ := sessionFor?_of_strangers hf hk hm h hsorted henough
    obtain rfl : s = s' := Option.some_inj.1 (hs.symm.trans hs')
    have hids : s.ticketIds = ((pivot :: rest).take (k * m)).map (·.id) := by
      rw [hseats.ticketIds, flatten_pieces]
    have hleft : Ticket.without s.ticketIds rest = (pivot :: rest).drop (k * m) := by
      have hpivot : pivot.id ∈ s.ticketIds := by
        obtain ⟨n, hn⟩ := Nat.exists_eq_succ_of_ne_zero (Nat.ne_zero_of_lt (Nat.mul_pos hk hm))
        rw [hids, hn, List.take_succ_cons]
        exact List.mem_cons_self
      rw [← Ticket.without_cons_of_mem hpivot, hids, Ticket.without_take h.ids]
    have hsizes : s.teamSizes = List.replicate k m := by
      rw [hseats.teamSizes, List.eq_replicate_iff, List.length_map]
      refine ⟨length_pieces, List.forall_mem_map.2 fun team hteam => ?_⟩
      have hfront : team ⊆ pivot :: rest := fun t ht =>
        List.take_subset _ _ (flatten_pieces ▸ List.mem_flatten_of_mem hteam ht)
      rw [Ticket.totalPlayers_eq_length fun t ht => h.single t (hfront ht)]
      exact length_of_mem_pieces henough hteam
    rw [hleft] at ih
    exact (ih (h.sublist (List.drop_sublist _ _)) hsorted.drop hends).emit (Nat.mul_pos hk hm)
      henough hstatus hsizes hids

/-- Rounds come to their end just if the players of a match are a word and its teams have room,
    unless there are too few tickets for a search, or none at all. -/
theorem rounds_failure_iff (hf : f.IsUniform k m) (hk : 1 ≤ k) (hm : 1 ≤ m)
    {queue : List (Ticket α)} (h : Ticket.Strangers queue)
    (hsorted : queue.Pairwise fun t u => (Ticket.rank t u).isLE = true) :
    (f.rounds .unlimited queue).failure = none ↔
      queue = [] ∨ k * m < Word.size ∧ (k ≤ Bounds.greatestTeams ∨ queue.length < k * m) := by
  constructor
  · intro hends
    cases queue with
    | nil => exact .inl rfl
    | cons pivot rest =>
      refine .inr ?_
      have hround := rounds_cons (f := f) Budget.read?_unlimited h.ids
      generalize f.rounds .unlimited (pivot :: rest) = r at hround hends
      cases hround with
      | broken => cases hends
      | leave hcounts hmin =>
        rw [hf.minPlayers, Ticket.totalPlayers_eq_length h.single] at hmin
        exact ⟨hf.countsLeast_iff.1 hcounts, .inr hmin⟩
      | drop _ hmin hnone => exact absurd hnone (not_drops hf hk hm h hsorted hmin)
      | emit hcounts _ _ hs =>
        obtain ⟨a, ha, hattempt⟩ := exists_attempt_of_sessionFor hs
        have hshape := (attempt_eq_ok_iff.1 hattempt).1
        rw [hf.attempts, List.mem_singleton] at ha
        rw [ha, hf.allianceAt] at hshape
        exact ⟨hf.countsLeast_iff.1 hcounts, .inl (Bounds.searchFailure?_eq_none_iff.1 hshape).2⟩
  · rintro (rfl | ⟨hword, hroom | hfew⟩)
    · rw [rounds]
      rfl
    · refine rounds_failure ?_ .unlimited h.ids
      rw [hf.allBounds]
      exact List.forall_mem_singleton.2 ⟨⟨hword, hword⟩, hroom⟩
    · refine rounds_failure_of_few (hf.countsLeast_iff.2 hword) ?_
      rwa [hf.minPlayers, Ticket.totalPlayers_eq_length h.single]

/-- A queue of single players is cut into matches of one. -/
theorem solos_cuts (f : Formation α) {queue : List (Ticket α)} (h : ∀ t ∈ queue, t.players = 1) :
    (f.solos queue).Cuts 1 1 queue := by
  induction queue with
  | nil => exact .leave Nat.zero_lt_one
  | cons t queue ih =>
    obtain ⟨ht, hqueue⟩ := List.forall_mem_cons.1 h
    rw [solos, if_pos ht]
    refine .emit Nat.zero_lt_one (Nat.succ_pos _) (ih hqueue) rfl ?_ rfl
    rw [(f.soloSession_seats t).teamSizes]
    simp [Ticket.totalPlayers, ht]

/-- A run over a queue of strangers that comes to its end cuts it into matches in the order of
    service. It comes to its end just if the players of a match are a word and its teams have
    room, unless there are too few tickets for a search, or none at all. -/
theorem run_cuts (hf : f.rules = .ofAlliance (.ofBounds ⟨k, k, m, m⟩)) (hk : 1 ≤ k) (hm : 1 ≤ m)
    {ts : List (Ticket α)} (h : Ticket.Strangers ts) :
    ((f.run .unlimited ts).failure = none →
      (f.run .unlimited ts).Cuts k m (Ticket.sortQueue ts)) ∧
    ((f.run .unlimited ts).failure = none ↔
      ts = [] ∨ k * m < Word.size ∧ (k ≤ Bounds.greatestTeams ∨ ts.length < k * m)) := by
  have hroles : f.rules.roleFlexing? = none := by rw [hf]; rfl
  have hperm := Ticket.sortQueue_perm ts
  have hqueue : Ticket.Strangers (Ticket.sortQueue ts) := h.perm hperm
  rw [run, form, RuleSet.flexRoles_eq_self hroles]
  split_ifs with hsingle
  · have hone : k = 1 ∧ m = 1 := by
      simp only [isSinglePlayer, hf, Bool.and_eq_true] at hsingle
      have hbounds := of_decide_eq_true hsingle.1.1
      cases hbounds
      exact ⟨rfl, rfl⟩
    obtain ⟨rfl, rfl⟩ := hone
    refine ⟨fun _ => (f.solos_cuts hqueue.single).congr rfl rfl rfl, iff_of_true ?_ ?_⟩
    · exact f.solos_failure _
    · exact .inr ⟨by decide, .inl (by decide)⟩
  · have hsorted := Ticket.pairwise_sortQueue ts
    refine ⟨fun hends => (rounds_cuts hf hk hm hqueue hsorted hends).congr rfl rfl rfl, ?_⟩
    refine (rounds_failure_iff hf hk hm hqueue hsorted).trans ?_
    rw [hperm.length_eq, ← List.length_eq_zero_iff, hperm.length_eq, List.length_eq_zero_iff]

/-- A player of whom nothing is known. -/
def stranger (id : String) : Ticket Float where
  id := id
  channel := "duel"
  partyId := id
  members := [.ofId id]
  attributes := ∅
  priority := 0
  createdAt := .ofNanos 0
  latencies := ∅
  excluded := []

theorem strangers_of_nodup (ids : List String) (h : ids.Nodup) :
    Ticket.Strangers (ids.map stranger) where
  ids := by simpa [stranger, Function.comp_def] using h
  parties := by simpa [stranger, Function.comp_def] using h
  users := by simpa [stranger, Member.ofId, List.flatMap_map] using h
  single := List.forall_mem_map.2 fun _ _ => rfl
  blank := List.forall_mem_map.2 fun _ _ => ⟨rfl, fun _ hm => List.mem_singleton.1 hm ▸ rfl⟩

/-- Of five players two pairs are formed, and nobody is dropped. -/
theorem duel_cuts :
    (duel.run .unlimited (["e", "d", "c", "b", "a"].map stranger)).sessions.length = 2 ∧
    (duel.run .unlimited (["e", "d", "c", "b", "a"].map stranger)).dropped = 0 := by
  obtain ⟨hcuts, hends⟩ := run_cuts (f := duel) rfl (Nat.le_succ 1) (Nat.le_refl 1)
    (strangers_of_nodup ["e", "d", "c", "b", "a"] (by decide))
  have hcuts := hcuts (hends.2 (.inr ⟨by decide, .inl (by decide)⟩))
  refine ⟨hcuts.length.trans ?_, hcuts.dropped⟩
  rw [(Ticket.sortQueue_perm _).length_eq]
  rfl

/-- Matches of two teams that have as many players together as there are words. -/
def crowd : Formation Float where
  rules := .ofAlliance (.ofBounds ⟨2, 2, 9223372036854775808, 9223372036854775808⟩)
  channel := "crowd"
  now := .ofNanos 0
  cap := 1

/-- The players of such a match cannot be counted, so that the run breaks off instead of leaving
    a single player. -/
theorem crowd_breaks_off : crowd.rules.fault? = none ∧ Ticket.Strangers [stranger "a"] ∧
    (crowd.run .unlimited [stranger "a"]).failure = some .overflow :=
  ⟨by decide, strangers_of_nodup ["a"] (by decide), by decide +kernel⟩

end Formation

end Matchmaking
