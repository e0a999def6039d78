import Mathlib.Data.List.MinMax
import Mathlib.Data.List.ReduceOption
import Matchmaking.Proofs.Formation.Listing
import Matchmaking.Proofs.Waiting
import Matchmaking.Rules.Record

/-!
# Giving up roles in time

The members who give up their roles are members in places that had roles of their own
(`RoleFlexing.mem_candidates`), no place being taken twice, so as many members are
flexed as are chosen (`RoleFlexing.flexedCount_mark`). What the rations allow depends
on the waiting times and not on the roles (`RoleFlexing.allowance_congr`), so whoever
asks again at the same time finds the rations used up or nobody left
(`RoleFlexing.chosen_mark`).

Asked time after time, no more members are flexed than the rations of one of the times
allow (`RuleSet.flexedCount_flexRolesOver_le`). These are the rations of the last time,
as the oldest ticket does not grow younger, except where a leap second is counted in its
age at an earlier time and no longer at the last one.

Nobody gives up a role before the interval is over (`RuleSet.isDue_of_flexed`). The
interval is read as a signed word, though, and one that is too long for that is negative,
so that everybody has waited for it (`Formation.eternity_flexes`).
-/

namespace Matchmaking

variable {α : Type}

/-- Whoever gave up its roles has none of its own. -/
theorem Member.primaryRole?_eq_none {m : Member α} (h : m.roleFlexed = true) :
    m.primaryRole? = none := by
  rw [primaryRole?, roles, if_pos h]
  rfl

namespace RoleFlexing

/-! ## Members in their places -/

/-- The member at a place of a list of tickets. -/
def memberAt? (ts : List (Ticket α)) (i j : Nat) : Option (Member α) :=
  ts[i]?.bind fun t => t.members[j]?

/-- What is taken from the members of a list of tickets, one after the other. -/
def gather {β : Type} (take : Nat → Nat → Ticket α → Member α → Option β)
    (ts : List (Ticket α)) : List β :=
  (ts.mapIdx fun i t => (t.members.mapIdx fun j m => take i j t m).reduceOption).flatten

section Gather

variable {β : Type} {take : Nat → Nat → Ticket α → Member α → Option β} {ts : List (Ticket α)}

theorem mem_reduceOption_mapIdx {γ : Type} {f : Nat → γ → Option β} {xs : List γ} {b : β} :
    b ∈ (xs.mapIdx f).reduceOption ↔ ∃ j x, xs[j]? = some x ∧ f j x = some b := by
  rw [List.reduceOption_mem_iff, List.mem_mapIdx]
  constructor
  · rintro ⟨j, hj, h⟩
    exact ⟨j, xs[j], List.getElem?_eq_getElem hj, h⟩
  · rintro ⟨j, x, hx, h⟩
    obtain ⟨hj, rfl⟩ := List.getElem?_eq_some_iff.1 hx
    exact ⟨j, hj, h⟩

theorem mem_gather {b : β} : b ∈ gather take ts ↔
    ∃ i j t m, ts[i]? = some t ∧ t.members[j]? = some m ∧ take i j t m = some b := by
  simp only [gather, List.mem_flatten, List.mem_mapIdx]
  constructor
  · rintro ⟨_, ⟨i, hi, rfl⟩, hb⟩
    obtain ⟨j, m, hm, h⟩ := mem_reduceOption_mapIdx.1 hb
    exact ⟨i, j, ts[i], m, List.getElem?_eq_getElem hi, hm, h⟩
  · rintro ⟨i, j, t, m, ht, hm, h⟩
    obtain ⟨hi, rfl⟩ := List.getElem?_eq_some_iff.1 ht
    exact ⟨_, ⟨i, hi, rfl⟩, mem_reduceOption_mapIdx.2 ⟨j, m, hm, h⟩⟩

/-- What is taken with its place is taken once. -/
theorem nodup_gather {place : β → Nat × Nat}
    (h : ∀ i j t m b, take i j t m = some b → place b = (i, j)) :
    ((gather take ts).map place).Nodup := by
  refine List.pairwise_map.2 (List.pairwise_flatten.2 ⟨fun bs hbs => ?_, ?_⟩)
  · -- within a ticket
    obtain ⟨i, hi, rfl⟩ := List.mem_mapIdx.1 hbs
    refine List.pairwise_filterMap.2 (List.pairwise_iff_getElem.2 fun j k hj hk hjk => ?_)
    simp only [List.getElem_mapIdx, id_eq]
    intro b hb c hc hplace
    rw [h _ _ _ _ _ hb, h _ _ _ _ _ hc] at hplace
    exact Nat.ne_of_lt hjk (Prod.mk.inj hplace).2
  · -- between two tickets
    refine List.pairwise_iff_getElem.2 fun i k hi hk hik => ?_
    simp only [List.getElem_mapIdx]
    intro b hb c hc hplace
    obtain ⟨j, m, _, hb⟩ := mem_reduceOption_mapIdx.1 hb
    obtain ⟨l, n, _, hc⟩ := mem_reduceOption_mapIdx.1 hc
    rw [h _ _ _ _ _ hb, h _ _ _ _ _ hc] at hplace
    exact Nat.ne_of_lt hik (Prod.mk.inj hplace).1

end Gather

/-- The places of the members who gave up their roles. -/
def flexedPlaces (ts : List (Ticket α)) : List (Nat × Nat) :=
  gather (fun i j _ m => if m.roleFlexed then some (i, j) else none) ts

theorem mem_flexedPlaces {ts : List (Ticket α)} {p : Nat × Nat} :
    p ∈ flexedPlaces ts ↔ ∃ m, memberAt? ts p.1 p.2 = some m ∧ m.roleFlexed = true := by
  rw [flexedPlaces, mem_gather]
  constructor
  · rintro ⟨i, j, t, m, ht, hm, h⟩
    split_ifs at h with hflexed
    cases h
    exact ⟨m, Option.bind_eq_some_iff.2 ⟨t, ht, hm⟩, hflexed⟩
  · rintro ⟨m, hat, hflexed⟩
    obtain ⟨t, ht, hm⟩ := Option.bind_eq_some_iff.1 hat
    exact ⟨p.1, p.2, t, m, ht, hm, by rw [if_pos hflexed]⟩

theorem nodup_flexedPlaces (ts : List (Ticket α)) : (flexedPlaces ts).Nodup := by
  have hnodup : ((flexedPlaces ts).map id).Nodup := by
    refine nodup_gather ?_
    intro i j _ m p hp
    split_ifs at hp
    exact (Option.some_inj.1 hp).symm
  rwa [List.map_id] at hnodup

theorem length_reduceOption_mapIdx {β γ : Type} (p : γ → Bool) (tag : Nat → β) (xs : List γ) :
    ((xs.mapIdx fun j x => if p x then some (tag j) else none).reduceOption).length =
      xs.countP p := by
  induction xs generalizing tag with
  | nil => rfl
  | cons x xs ih =>
    rw [List.mapIdx_cons, List.countP_cons]
    split_ifs
    · rw [List.reduceOption_cons_of_some, List.length_cons, ih]
    · rw [List.reduceOption_cons_of_none, ih, Nat.add_zero]

/-- Who gave up its roles is counted in its place. -/
theorem length_flexedPlaces (ts : List (Ticket α)) :
    (flexedPlaces ts).length = flexedCount ts := by
  -- the tickets of the rest of a list have other places than alone
  suffices h : ∀ places : Nat → Nat → Nat × Nat,
      ((ts.mapIdx fun i t => (t.members.mapIdx fun j m =>
        if m.roleFlexed then some (places i j) else none).reduceOption).flatten).length =
        flexedCount ts from h Prod.mk
  intro places
  induction ts generalizing places with
  | nil => rfl
  | cons t ts ih =>
    rw [List.mapIdx_cons, List.flatten_cons, List.length_append,
      length_reduceOption_mapIdx (fun m : Member α => m.roleFlexed), ih fun i => places (i + 1)]
    exact List.countP_append.symm

/-! ## Marking -/

/-- The place of a candidate. -/
def Candidate.place (c : Candidate) : Nat × Nat := (c.ticket, c.member)

/-- Only those who are chosen give up their roles. -/
theorem memberAt?_mark (cs : List Candidate) (ts : List (Ticket α)) (i j : Nat) :
    memberAt? (mark cs ts) i j = (memberAt? ts i j).map fun m =>
      if (i, j) ∈ cs.map Candidate.place then { m with roleFlexed := true } else m := by
  have hmem : (cs.any fun c => c.ticket == i && c.member == j) = true ↔
      (i, j) ∈ cs.map Candidate.place := by
    simp [Candidate.place]
  simp only [memberAt?, mark, List.getElem?_mapIdx, ← hmem]
  cases ts[i]? with
  | none => rfl
  | some t => exact List.getElem?_mapIdx

/-- A member who gave up its roles keeps it so. -/
theorem memberAt?_mark_of_flexed {cs : List Candidate} {ts : List (Ticket α)} {i j : Nat}
    {m : Member α} (hat : memberAt? ts i j = some m) (hm : m.roleFlexed = true) :
    memberAt? (mark cs ts) i j = some m := by
  have hself : { m with roleFlexed := true } = m := by rw [← hm]
  rw [memberAt?_mark, hat, Option.map_some, hself, ite_self]

/-- If members are chosen, they have given up their roles, besides those who did before. -/
theorem mem_flexedPlaces_mark {cs : List Candidate} {ts : List (Ticket α)}
    (hcs : ∀ c ∈ cs, ∃ m, memberAt? ts c.ticket c.member = some m) {p : Nat × Nat} :
    p ∈ flexedPlaces (mark cs ts) ↔ p ∈ flexedPlaces ts ∨ p ∈ cs.map Candidate.place := by
  rw [mem_flexedPlaces, mem_flexedPlaces, memberAt?_mark]
  constructor
  · rintro ⟨m', hm', hflexed⟩
    obtain ⟨m, hm, rfl⟩ := Option.map_eq_some_iff.1 hm'
    by_cases hp : p ∈ cs.map Candidate.place
    · exact .inr hp
    · rw [if_neg hp] at hflexed
      exact .inl ⟨m, hm, hflexed⟩
  · rintro (⟨m, hm, hflexed⟩ | hp)
    · refine ⟨_, Option.map_eq_some_iff.2 ⟨m, hm, rfl⟩, ?_⟩
      split_ifs
      · rfl
      · exact hflexed
    · obtain ⟨c, hc, rfl⟩ := List.mem_map.1 hp
      obtain ⟨m, hm⟩ := hcs c hc
      exact ⟨_, Option.map_eq_some_iff.2 ⟨m, hm, rfl⟩, by rw [if_pos hp]⟩

/-- If members with roles of their own are chosen, and none of them twice, then as many more have
    given up their roles. -/
theorem flexedCount_mark {cs : List Candidate} {ts : List (Ticket α)}
    (hnodup : (cs.map Candidate.place).Nodup)
    (hcs : ∀ c ∈ cs, ∃ m, memberAt? ts c.ticket c.member = some m ∧ m.roleFlexed = false) :
    flexedCount (mark cs ts) = flexedCount ts + cs.length := by
  have hdisjoint : (flexedPlaces ts ++ cs.map Candidate.place).Nodup := by
    refine List.nodup_append.2 ⟨nodup_flexedPlaces ts, hnodup, ?_⟩
    rintro _ hp _ hq rfl
    obtain ⟨c, hc, rfl⟩ := List.mem_map.1 hq
    obtain ⟨m, hm, hown⟩ := hcs c hc
    obtain ⟨m', hm', hflexed⟩ := mem_flexedPlaces.1 hp
    obtain rfl : m = m' := Option.some_inj.1 (hm.symm.trans hm')
    rw [hown] at hflexed
    cases hflexed
  have hperm : (flexedPlaces (mark cs ts)).Perm (flexedPlaces ts ++ cs.map Candidate.place) := by
    refine (List.perm_ext_iff_of_nodup (nodup_flexedPlaces _) hdisjoint).2 ?_
    intro p
    rw [List.mem_append, mem_flexedPlaces_mark]
    intro c hc
    obtain ⟨m, hm, _⟩ := hcs c hc
    exact ⟨m, hm⟩
  rw [← length_flexedPlaces, hperm.length_eq, List.length_append, length_flexedPlaces,
    List.length_map]

/-! ## Candidates -/

variable {f : RoleFlexing} {now : Instant} {ts : List (Ticket α)} {c : Candidate}

theorem candidates_perm (f : RoleFlexing) (now : Instant) (ts : List (Ticket α)) :
    (f.candidates now ts).Perm (gather (fun i j t m =>
      if f.isDue now t then
        m.primaryRole?.map fun role => ⟨f.deficit ts role, role, t.createdAt, i, j⟩
      else none) ts) := by
  have hnone (ms : List (Member α)) :
      (ms.mapIdx fun _ _ => (none : Option Candidate)).reduceOption = [] := by
    rw [List.eq_nil_iff_forall_not_mem]
    intro c hc
    obtain ⟨_, _, _, h⟩ := mem_reduceOption_mapIdx.1 hc
    cases h
  refine (sortBy_perm _ _).trans (.of_eq ?_)
  rw [gather]
  congr 2
  funext i t
  rw [candidatesOf]
  split_ifs with hdue
  · rfl
  · exact (hnone t.members).symm

/-- The candidates are the members of the tickets that are due who have roles of their own. -/
theorem mem_candidates : c ∈ f.candidates now ts ↔
    ∃ t m, ts[c.ticket]? = some t ∧ t.members[c.member]? = some m ∧ f.isDue now t = true ∧
      m.primaryRole? = some c.role ∧ c.deficit = f.deficit ts c.role ∧
      c.createdAt = t.createdAt := by
  rw [(candidates_perm f now ts).mem_iff, mem_gather]
  constructor
  · rintro ⟨i, j, t, m, ht, hm, h⟩
    split_ifs at h with hdue
    obtain ⟨role, hrole, rfl⟩ := Option.map_eq_some_iff.1 h
    exact ⟨t, m, ht, hm, hdue, hrole, rfl, rfl⟩
  · obtain ⟨deficit, role, createdAt, i, j⟩ := c
    rintro ⟨t, m, ht, hm, hdue, hrole, hdeficit, hcreated⟩
    refine ⟨i, j, t, m, ht, hm, ?_⟩
    rw [if_pos hdue, hrole, Option.map_some, ← hdeficit, ← hcreated]

theorem nodup_candidates (f : RoleFlexing) (now : Instant) (ts : List (Ticket α)) :
    ((f.candidates now ts).map Candidate.place).Nodup := by
  refine ((candidates_perm f now ts).map _).nodup_iff.2 (nodup_gather fun i j t m b hb => ?_)
  split_ifs at hb
  obtain ⟨_, _, rfl⟩ := Option.map_eq_some_iff.1 hb
  rfl

theorem chosen_eq (f : RoleFlexing) (now : Instant) (ts : List (Ticket α)) :
    f.chosen now ts = (f.candidates now ts).take (f.budget now ts) := by
  simp only [chosen]
  split_ifs with h
  · rw [h, List.take_zero]
  · rfl

theorem chosen_sublist (f : RoleFlexing) (now : Instant) (ts : List (Ticket α)) :
    (f.chosen now ts).Sublist (f.candidates now ts) :=
  chosen_eq f now ts ▸ List.take_sublist _ _

theorem length_chosen_le (f : RoleFlexing) (now : Instant) (ts : List (Ticket α)) :
    (f.chosen now ts).length ≤ f.budget now ts :=
  chosen_eq f now ts ▸ List.length_take_le _ _

/-- As many have given up their roles as were chosen. -/
theorem flexedCount_mark_chosen (f : RoleFlexing) (now : Instant) (ts : List (Ticket α)) :
    flexedCount (mark (f.chosen now ts) ts) = flexedCount ts + (f.chosen now ts).length := by
  have hsub := chosen_sublist f now ts
  refine flexedCount_mark ((nodup_candidates f now ts).sublist (hsub.map _)) fun c hc => ?_
  obtain ⟨t, m, ht, hm, _, hrole, _⟩ := mem_candidates.1 (hsub.subset hc)
  refine ⟨m, Option.bind_eq_some_iff.2 ⟨t, ht, hm⟩, ?_⟩
  by_contra hflexed
  rw [Member.primaryRole?_eq_none (Bool.not_eq_false _ ▸ hflexed)] at hrole
  cases hrole

/-! ## Rations -/

/-- How many members the rations of a time allow to have given up their roles. -/
def allowance (f : RoleFlexing) (now : Instant) (ts : List (Ticket α)) : Nat :=
  match ((ts.filter (f.isDue now)).map (·.ageSeconds now)).max? with
  | none => 0
  | some age => Word.wrap (f.combination.flexPlayers * Word.unsigned (age.tdiv f.interval))

theorem budget_eq (f : RoleFlexing) (now : Instant) (ts : List (Ticket α)) :
    f.budget now ts = f.allowance now ts - flexedCount ts := by
  rw [budget, allowance]
  cases ((ts.filter (f.isDue now)).map (·.ageSeconds now)).max? with
  | none => exact (Nat.zero_sub _).symm
  | some age => rfl

/-- The rations do not depend on who gave up its roles. -/
theorem allowance_congr {us : List (Ticket α)}
    (h : us.map Ticket.unflexed = ts.map Ticket.unflexed) :
    f.allowance now us = f.allowance now ts := by
  have hunflexed (ts : List (Ticket α)) : (ts.filter (f.isDue now)).map (·.ageSeconds now) =
      ((ts.map Ticket.unflexed).filter (f.isDue now)).map (·.ageSeconds now) := by
    rw [List.filter_map, List.map_map]
    rfl
  rw [allowance, allowance, hunflexed, h, ← hunflexed]

theorem isDue_congr {t u : Ticket α} (h : t.unflexed = u.unflexed) :
    f.isDue now t = f.isDue now u := by
  rw [isDue, isDue, Ticket.ageSeconds, Ticket.ageSeconds, Ticket.createdAt_congr h]

/-- Once all candidates gave up their roles, nobody has one to give up. -/
theorem candidates_mark (f : RoleFlexing) (now : Instant) (ts : List (Ticket α)) :
    f.candidates now (mark (f.candidates now ts) ts) = [] := by
  rw [List.eq_nil_iff_forall_not_mem]
  intro c hc
  obtain ⟨t', m', ht', hm', hdue', hrole', _⟩ := mem_candidates.1 hc
  have hat' : memberAt? (mark (f.candidates now ts) ts) c.ticket c.member = some m' :=
    Option.bind_eq_some_iff.2 ⟨t', ht', hm'⟩
  rw [memberAt?_mark] at hat'
  obtain ⟨m, hat, rfl⟩ := Option.map_eq_some_iff.1 hat'
  obtain ⟨t, ht, hm⟩ := Option.bind_eq_some_iff.1 hat
  split_ifs at hrole' with hplace
  · rw [Member.primaryRole?_eq_none rfl] at hrole'
    cases hrole'
  · -- the member had its role before, and so was a candidate
    have hunflexed := congrArg (·[c.ticket]?) (mark_unflexed (f.candidates now ts) ts)
    simp only [List.getElem?_map, ht, ht', Option.map_some, Option.some_inj] at hunflexed
    exact hplace (List.mem_map.2 ⟨⟨f.deficit ts c.role, c.role, t.createdAt, c.ticket, c.member⟩,
      mem_candidates.2 ⟨t, m, ht, hm, isDue_congr hunflexed ▸ hdue', hrole', rfl, rfl⟩, rfl⟩)

/-- After those who are chosen gave up their roles, nobody is chosen. Either the rations are
    used up, or nobody has a role to give up. -/
theorem chosen_mark (f : RoleFlexing) (now : Instant) (ts : List (Ticket α)) :
    f.chosen now (mark (f.chosen now ts) ts) = [] := by
  have hbudget : f.budget now (mark (f.chosen now ts) ts) =
      f.budget now ts - (f.chosen now ts).length := by
    rw [budget_eq, allowance_congr (mark_unflexed _ ts), flexedCount_mark_chosen, budget_eq,
      Nat.sub_sub]
  rw [chosen_eq, hbudget]
  rcases Nat.le_total (f.budget now ts) (f.candidates now ts).length with hle | hle
  · rw [chosen_eq f now ts, List.length_take, Nat.min_eq_left hle, Nat.sub_self, List.take_zero]
  · have hall : f.chosen now ts = f.candidates now ts := by
      rw [chosen_eq, List.take_of_length_le hle]
    rw [hall, candidates_mark, List.take_nil]

/-- After a choice, no more have given up their roles than before it, or than the rations
    allow. -/
theorem flexedCount_mark_chosen_le (f : RoleFlexing) (now : Instant) (ts : List (Ticket α)) :
    flexedCount (mark (f.chosen now ts) ts) ≤ max (flexedCount ts) (f.allowance now ts) := by
  have hle := length_chosen_le f now ts
  rw [budget_eq] at hle
  rw [flexedCount_mark_chosen]
  omega

/-! ### The age of the oldest ticket -/

/-- How long the oldest ticket has waited, in whole seconds. -/
def oldestAge (now : Instant) (ts : List (Ticket α)) : Int :=
  ((ts.map (·.ageSeconds now)).max?).getD 0

/-- The players of the rations for the full intervals that the oldest ticket has waited. -/
def ration (f : RoleFlexing) (now : Instant) (ts : List (Ticket α)) : Nat :=
  f.combination.flexPlayers * ((oldestAge now ts).toNat / f.combination.flexSeconds)

theorem ageSeconds_le_oldestAge {t : Ticket α} (ht : t ∈ ts) (now : Instant) :
    t.ageSeconds now ≤ oldestAge now ts := by
  have hmem : t.ageSeconds now ∈ ts.map (·.ageSeconds now) := List.mem_map_of_mem ht
  rcases hmax : (ts.map (·.ageSeconds now)).max? with _ | age
  · exact absurd (List.max?_eq_none_iff.1 hmax) (List.ne_nil_of_mem hmem)
  · rw [oldestAge, hmax, Option.getD_some]
    exact (List.max?_eq_some_iff.1 hmax).2 _ hmem

theorem exists_oldestAge (h : ts ≠ []) (now : Instant) :
    ∃ t ∈ ts, t.ageSeconds now = oldestAge now ts := by
  rcases hmax : (ts.map (·.ageSeconds now)).max? with _ | age
  · exact absurd (List.map_eq_nil_iff.1 (List.max?_eq_none_iff.1 hmax)) h
  · obtain ⟨t, ht, hage⟩ := List.mem_map.1 (List.max?_mem hmax)
    exact ⟨t, ht, by rw [hage, oldestAge, hmax, Option.getD_some]⟩

/-- The oldest ticket does not grow younger, but for leap seconds. -/
theorem exists_leap_of_oldestAge_lt {before : Instant} (hle : before ≤ now)
    (h : oldestAge now ts < oldestAge before ts) :
    ∃ t ∈ ts, t.createdAt.isLeap = true ∨ before.isLeap = true ∨ now.isLeap = true := by
  have hne : ts ≠ [] := by
    rintro rfl
    exact absurd h (Int.lt_irrefl _)
  obtain ⟨t, ht, holdest⟩ := exists_oldestAge hne before
  refine ⟨t, ht, ?_⟩
  by_contra hleap
  simp only [not_or, Bool.not_eq_true] at hleap
  have hgrows : t.ageSeconds before ≤ t.ageSeconds now :=
    Instant.secondsSince_le hle hleap.1 hleap.2.1 hleap.2.2
  have hbound := ageSeconds_le_oldestAge ht now
  omega

/-- The older the oldest ticket, the more rations there are. -/
theorem ration_le_ration {later : Instant} (h : oldestAge now ts ≤ oldestAge later ts) :
    f.ration now ts ≤ f.ration later ts :=
  Nat.mul_le_mul_left _ (Nat.div_le_div_right (Int.toNat_le_toNat h))

theorem interval_eq (h : f.combination.flexSeconds < Word.half) :
    f.interval = f.combination.flexSeconds := Word.signed_of_lt h

/-- The rations are those of the full intervals, at most, unless the interval is too long for a
    signed word. -/
theorem allowance_le_ration (h : f.combination.flexSeconds < Word.half) (now : Instant)
    (ts : List (Ticket α)) : f.allowance now ts ≤ f.ration now ts := by
  rw [allowance]
  split
  · exact Nat.zero_le _
  · rename_i age hmax
    obtain ⟨t, ht, rfl⟩ := List.mem_map.1 (List.max?_mem hmax)
    obtain ⟨ht, hdue⟩ := List.mem_filter.1 ht
    have hpos : 0 ≤ t.ageSeconds now := by
      rw [isDue, decide_eq_true_eq, interval_eq h] at hdue
      omega
    have hcount : Word.unsigned ((t.ageSeconds now).tdiv f.interval) ≤
        (oldestAge now ts).toNat / f.combination.flexSeconds := by
      obtain ⟨age, hage⟩ := Int.eq_ofNat_of_zero_le hpos
      have hle : age ≤ (oldestAge now ts).toNat := by
        have := ageSeconds_le_oldestAge ht now
        omega
      rw [hage, interval_eq h, ← Int.ofNat_tdiv]
      exact Nat.le_trans (Nat.mod_le _ _) (Nat.div_le_div_right hle)
    exact Nat.le_trans (Nat.mod_le _ _) (Nat.mul_le_mul_left _ hcount)

end RoleFlexing

namespace RuleSet

variable [Scalar α] {r : RuleSet α} {f : RoleFlexing} {rate : α} {now : Instant}
  {ts : List (Ticket α)}

theorem flexingMembers_eq (h : r.roleFlexing? = some (f, rate)) (now : Instant)
    (ts : List (Ticket α)) : r.flexingMembers now ts = f.chosen now ts := by
  rw [flexingMembers, h]

/-! ## One choice -/

/-- What becomes of some tickets when members give up their roles. -/
structure GivesUp (r : RuleSet α) (now : Instant) (ts us : List (Ticket α)) : Prop where
  /-- Nothing else about the tickets changes. -/
  unflexed : us.map Ticket.unflexed = ts.map Ticket.unflexed
  /-- Whoever gave up its roles before keeps it so. -/
  kept : ∀ i j m, RoleFlexing.memberAt? ts i j = some m → m.roleFlexed = true →
    RoleFlexing.memberAt? us i j = some m
  /-- The answer is how many more have given up their roles. -/
  counted : RoleFlexing.flexedCount us = RoleFlexing.flexedCount ts + r.flexedNow now ts
  /-- At the same time nobody else gives up its roles. -/
  settled : r.flexedNow now us = 0 ∧ r.flexRoles now us = us

theorem flexRoles_givesUp (r : RuleSet α) (now : Instant) (ts : List (Ticket α)) :
    r.GivesUp now ts (r.flexRoles now ts) := by
  have hcounted : RoleFlexing.flexedCount (r.flexRoles now ts) =
      RoleFlexing.flexedCount ts + r.flexedNow now ts := by
    rcases hflexing : r.roleFlexing? with _ | ⟨f, rate⟩
    · rw [flexRoles_eq_self hflexing, flexedNow_eq_zero hflexing, Nat.add_zero]
    · rw [flexRoles, flexedNow, flexingMembers_eq hflexing]
      exact f.flexedCount_mark_chosen now ts
  have hsettled : r.flexingMembers now (r.flexRoles now ts) = [] := by
    rcases hflexing : r.roleFlexing? with _ | ⟨f, rate⟩
    · exact flexingMembers_eq_nil hflexing _ _
    · rw [flexingMembers_eq hflexing, flexRoles, flexingMembers_eq hflexing]
      exact f.chosen_mark now ts
  refine ⟨r.flexRoles_unflexed now ts, ?_, hcounted, ?_, ?_⟩
  · intro i j m hat hm
    exact RoleFlexing.memberAt?_mark_of_flexed hat hm
  · rw [flexedNow, hsettled, List.length_nil]
  · rw [flexRoles, hsettled, RoleFlexing.mark_nil]

/-- Who gives up its roles has waited for the interval. So it has waited for the seconds of the
    rules, unless these are too many for a signed word. -/
theorem isDue_of_flexed {i j : Nat} {m m' : Member α}
    (hm : RoleFlexing.memberAt? ts i j = some m) (hbefore : m.roleFlexed = false)
    (hm' : RoleFlexing.memberAt? (r.flexRoles now ts) i j = some m')
    (hafter : m'.roleFlexed = true) :
    ∃ f rate t, r.roleFlexing? = some (f, rate) ∧ ts[i]? = some t ∧ t.members[j]? = some m ∧
      f.interval ≤ t.ageSeconds now ∧
      (f.combination.flexSeconds < Word.half →
        (f.combination.flexSeconds : Int) ≤ t.ageSeconds now) := by
  rw [flexRoles, RoleFlexing.memberAt?_mark, hm, Option.map_some, Option.some_inj] at hm'
  have hplace : (i, j) ∈ (r.flexingMembers now ts).map RoleFlexing.Candidate.place := by
    by_contra hplace
    rw [if_neg hplace] at hm'
    rw [hm', hafter] at hbefore
    cases hbefore
  rcases hflexing : r.roleFlexing? with _ | ⟨f, rate⟩
  · rw [flexingMembers_eq_nil hflexing] at hplace
    cases hplace
  · rw [flexingMembers_eq hflexing] at hplace
    obtain ⟨c, hc, hplace⟩ := List.mem_map.1 hplace
    obtain ⟨rfl, rfl⟩ := Prod.mk.inj hplace
    obtain ⟨t, n, ht, hn, hdue, _⟩ :=
      RoleFlexing.mem_candidates.1 ((f.chosen_sublist now ts).subset hc)
    have hwaited : f.interval ≤ t.ageSeconds now := of_decide_eq_true hdue
    have hmember : t.members[c.member]? = some m := by
      rw [← hm, RoleFlexing.memberAt?, ht, Option.bind_some]
    refine ⟨f, rate, t, rfl, ht, hmember, hwaited, ?_⟩
    intro hhalf
    rwa [RoleFlexing.interval_eq hhalf] at hwaited

/-! ## Choices in time -/

/-- The tickets once their members gave up roles at each of some times. -/
def flexRolesOver (r : RuleSet α) (times : List Instant) (ts : List (Ticket α)) :
    List (Ticket α) :=
  times.foldl (fun ts now => r.flexRoles now ts) ts

theorem flexRolesOver_concat (r : RuleSet α) (times : List Instant) (now : Instant)
    (ts : List (Ticket α)) :
    r.flexRolesOver (times ++ [now]) ts = r.flexRoles now (r.flexRolesOver times ts) := by
  rw [flexRolesOver, List.foldl_append]
  rfl

theorem flexRolesOver_unflexed (r : RuleSet α) (times : List Instant) (ts : List (Ticket α)) :
    (r.flexRolesOver times ts).map Ticket.unflexed = ts.map Ticket.unflexed := by
  induction times generalizing ts with
  | nil => rfl
  | cons now times ih => exact (ih _).trans (r.flexRoles_unflexed now ts)

theorem flexRolesOver_eq_self (h : r.roleFlexing? = none) (times : List Instant)
    (ts : List (Ticket α)) : r.flexRolesOver times ts = ts := by
  induction times generalizing ts with
  | nil => rfl
  | cons now times ih => exact (ih _).trans (flexRoles_eq_self h now ts)

/-- No more have given up their roles than before all choices, or than the rations allow at the
    time at which they allow most. -/
theorem flexedCount_flexRolesOver_le (h : r.roleFlexing? = some (f, rate)) {times : List Instant}
    {n : Nat} (hn : ∀ now ∈ times, f.allowance now ts ≤ n) :
    RoleFlexing.flexedCount (r.flexRolesOver times ts) ≤ max (RoleFlexing.flexedCount ts) n := by
  induction times using List.reverseRecOn with
  | nil => exact Nat.le_max_left _ _
  | append_singleton times now ih =>
    have hbefore := ih (fun now hnow => hn now (List.mem_append_left _ hnow))
    have hstep := RoleFlexing.flexedCount_mark_chosen_le f now (r.flexRolesOver times ts)
    rw [RoleFlexing.allowance_congr (r.flexRolesOver_unflexed times ts)] at hstep
    have hnow := hn now (List.mem_append_right _ (List.mem_singleton_self now))
    rw [flexRolesOver_concat, flexRoles, flexingMembers_eq h]
    omega

/-- No more have given up their roles than before all choices, or than the rations of one of the
    times. -/
theorem exists_ration (h : r.roleFlexing? = some (f, rate))
    (hhalf : f.combination.flexSeconds < Word.half) (times : List Instant) (now : Instant)
    (ts : List (Ticket α)) : ∃ time ∈ now :: times,
      RoleFlexing.flexedCount (r.flexRolesOver (times ++ [now]) ts) ≤
        max (RoleFlexing.flexedCount ts) (f.ration time ts) ∧
      f.ration now ts ≤ f.ration time ts := by
  rcases hmost : (now :: times).argmax (f.ration · ts) with _ | time
  · cases List.argmax_eq_none.1 hmost
  · have hle : ∀ before ∈ now :: times, f.ration before ts ≤ f.ration time ts := by
      intro before hbefore
      exact List.le_of_mem_argmax hbefore hmost
    refine ⟨time, List.argmax_mem hmost, ?_, hle now List.mem_cons_self⟩
    refine flexedCount_flexRolesOver_le h ?_
    intro before hbefore
    have hmem : before ∈ now :: times := (List.perm_append_singleton now times).mem_iff.1 hbefore
    exact Nat.le_trans (RoleFlexing.allowance_le_ration hhalf before ts) (hle before hmem)

end RuleSet

namespace Formation

/-! ### A watch -/

/-- Members of a watch have roles, and one of them gives up its own for each so many seconds. -/
def watchRoles (seconds : Nat) : RoleCombination := ⟨true, false, [], true, seconds, 1⟩

/-- Matches of one against one between members of a watch. -/
def watch (seconds : Nat) : RuleSet Rat :=
  { RuleSet.ofAlliance ⟨⟨2, 2, 1, 1⟩, some (watchRoles seconds)⟩ with defaultsApplied := true }

/-- How they give up their roles. -/
def relief (seconds : Nat) : RoleFlexing :=
  ⟨none, ⟨⟨2, 2, 1, 1⟩, some (watchRoles seconds)⟩, watchRoles seconds⟩

/-- A guard, who gave up this role or not. -/
def guard (flexed : Bool) : Member Rat :=
  ⟨"g", .ofList [(Key.role, .text "guard")], none, flexed⟩

/-- The ticket of a guard who comes in the last minute of 2016. -/
def guards (flexed : Bool) : List (Ticket Rat) :=
  [{ latecomer "g" [] with members := [guard flexed] }]

/-- So many seconds after the guard came. -/
def onWatch (seconds : Nat) : Instant := .ofNanos ((1483228740 + seconds) * 1000000000 + 500000000)

theorem watch_waits :
    RoleFlexing.memberAt? (guards false) 0 0 = some (guard false) ∧
    (guard false).roleFlexed = false ∧
    RoleFlexing.memberAt? ((watch 60).flexRoles (onWatch 60) (guards false)) 0 0 =
      some (guard true) ∧ (guard true).roleFlexed = true ∧
    ∃ f rate t, (watch 60).roleFlexing? = some (f, rate) ∧ (guards false)[0]? = some t ∧
      t.members[0]? = some (guard false) ∧ f.interval ≤ t.ageSeconds (onWatch 60) ∧
      (f.combination.flexSeconds < Word.half →
        (f.combination.flexSeconds : Int) ≤ t.ageSeconds (onWatch 60)) := by
  have hmember : RoleFlexing.memberAt? (guards false) 0 0 = some (guard false) := rfl
  have hflexed : RoleFlexing.memberAt? ((watch 60).flexRoles (onWatch 60) (guards false)) 0 0 =
      some (guard true) := by decide +kernel
  exact ⟨hmember, rfl, hflexed, rfl, RuleSet.isDue_of_flexed hmember rfl hflexed rfl⟩

/-- The rules of a watch that nobody leaves before the greatest word of seconds. -/
def eternityRecord : Json Rat :=
  .obj [
    ("alliance", .obj [("min_number", .int 2), ("max_number", .int 2),
      ("player_min_number", .int 1), ("player_max_number", .int 1),
      ("combination", .obj [("has_combination", .bool true), ("role_flexing_enable", .bool true),
        ("role_flexing_second", .int 18446744073709551615), ("role_flexing_player", .int 1)])])]

theorem eternity_load : RuleSet.load eternityRecord = .ok (watch (Word.size - 1)) := by
  decide +kernel

/-- The interval of the endless watch is negative as a signed word. So the guard gives up its role
    when it has waited for five seconds. -/
theorem eternity_flexes : RuleSet.load eternityRecord = .ok (watch (Word.size - 1)) ∧
    (watch (Word.size - 1)).roleFlexing?.map (·.1) = some (relief (Word.size - 1)) ∧
    RoleFlexing.memberAt? (guards false) 0 0 = some (guard false) ∧
    RoleFlexing.memberAt? ((watch (Word.size - 1)).flexRoles (onWatch 5) (guards false)) 0 0 =
      some (guard true) ∧
    ∀ t ∈ guards false,
      t.ageSeconds (onWatch 5) < (relief (Word.size - 1)).combination.flexSeconds :=
  ⟨eternity_load, by decide +kernel⟩

end Formation

end Matchmaking
