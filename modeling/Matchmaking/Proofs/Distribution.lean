import Matchmaking.Proofs.RoleTally

/-!
# The best that open members can do

A team is asked to take members and parties, one after the other
(`RoleTally.Request`). It takes whom it has room for, and who is refused leaves it as it is
(`RoleTally.answer`): a party is refused if one of its members does not fit beside those
before it, and then none of them comes (`RoleTally.assignAll?_eq_none_iff`).

Whatever a team is asked, there are no more open members than its roles have room for
(`RoleTally.Sound`, preserved by every answer: `RoleTally.Sound.answer`). So each of them is
given a role, one after the other and always the scarcest role first. That this is as good
as any other way to spread them over the roles (`RoleTally.Spreads`) is counted by what the
roles are short of: who is open makes up for one missing member at most
(`RoleTally.Spreads.shortfall_le`), and nobody makes up for less
(`RoleTally.isSatisfied_iff_le`).
-/

namespace Matchmaking

variable {α : Type}

namespace RoleTally

variable {t t' : RoleTally} {m : Member α} {ms : List (Member α)} {slot : Slot} {slots : List Slot}
  {roles : List Role} {q : Role}

/-! ## Teams that are asked -/

/-- What a team is asked. -/
inductive Request (α : Type) where
  /-- To take a member. -/
  | member (m : Member α)
  /-- To take a party as a whole. -/
  | party (ms : List (Member α))

/-- What the members take, if the team takes them, and the team then. -/
def answer (t : RoleTally) : Request α → Option (List Slot) × RoleTally
  | .member m =>
    match t.assign? m with
    | some (slot, t') => (some [slot], t')
    | none => (none, t)
  | .party ms =>
    match t.assignAll? ms with
    | some (slots, t') => (some slots, t')
    | none => (none, t)

/-- The team after some requests. -/
def after (t : RoleTally) (rs : List (Request α)) : RoleTally :=
  rs.foldl (fun t r => (t.answer r).2) t

/-- What a team is that takes those whom it is asked to take, as one party. -/
theorem answer_eq_some {r : Request α} (h : (t.answer r).1 = some slots) :
    ∃ ms : List (Member α), t.assignAll? ms = some (slots, (t.answer r).2) := by
  cases r with
  | member m =>
    cases hassign : t.assign? m with
    | none =>
      rw [answer, hassign] at h
      cases h
    | some found =>
      rw [answer, hassign] at h ⊢
      cases h
      exact ⟨[m], by rw [assignAll?, hassign]; rfl⟩
  | party ms =>
    cases hassign : t.assignAll? ms with
    | none =>
      rw [answer, hassign] at h
      cases h
    | some found =>
      rw [answer, hassign] at h ⊢
      cases h
      exact ⟨ms, hassign⟩

/-- Who is refused leaves the team as it is. -/
theorem answer_eq_none {r : Request α} (h : (t.answer r).1 = none) : (t.answer r).2 = t := by
  cases r with
  | member m =>
    rw [answer] at h ⊢
    cases hassign : t.assign? m with
    | none => rfl
    | some found =>
      rw [hassign] at h
      cases h
  | party ms =>
    rw [answer] at h ⊢
    cases hassign : t.assignAll? ms with
    | none => rfl
    | some found =>
      rw [hassign] at h
      cases h

theorem answer_party_eq_none_iff : (t.answer (.party ms)).1 = none ↔ t.assignAll? ms = none := by
  rw [answer]
  cases t.assignAll? ms with
  | none => exact iff_of_true rfl rfl
  | some found => exact iff_of_false (fun h => nomatch h) fun h => nomatch h

/-- A party is refused if a member of it is, once those before it are in the team. -/
theorem assignAll?_eq_none_iff : t.assignAll? ms = none ↔
    ∃ before m after slots t', ms = before ++ m :: after ∧
      t.assignAll? before = some (slots, t') ∧ t'.assign? m = none := by
  constructor
  · intro h
    induction ms generalizing t with
    | nil => cases h
    | cons m ms ih =>
      rw [assignAll?] at h
      cases hassign : t.assign? m with
      | none => exact ⟨[], m, ms, [], t, rfl, rfl, hassign⟩
      | some found =>
        obtain ⟨slot, t₁⟩ := found
        rw [hassign] at h
        dsimp only at h
        cases hrest : t₁.assignAll? ms with
        | some found =>
          rw [hrest] at h
          cases h
        | none =>
          obtain ⟨before, m', after, slots, t', rfl, hbefore, hm'⟩ := ih hrest
          refine ⟨m :: before, m', after, slot :: slots, t', rfl, ?_, hm'⟩
          rw [assignAll?, hassign]
          dsimp only
          rw [hbefore]
  · rintro ⟨before, m, after, slots, t', rfl, hbefore, hm⟩
    induction before generalizing t slots with
    | nil =>
      cases hbefore
      rw [List.nil_append, assignAll?, hm]
    | cons m' before ih =>
      obtain ⟨slot, t₁, rest, hassign, hrest, rfl⟩ := assignAll?_cons hbefore
      rw [List.cons_append, assignAll?, hassign]
      dsimp only
      rw [ih rest hrest]

/-! ## What every answer preserves -/

/-- What holds of a team, whatever it was asked. -/
structure Sound (t : RoleTally) : Prop where
  /-- Its roles are those of a rule set without a fault. -/
  proper : Role.Proper t.quotas
  /-- No role is taken by more members than may take it. -/
  within : ∀ q ∈ t.quotas, taken t.counts q.name ≤ q.max
  /-- Nobody has a role that the team does not have. -/
  known : ∀ name, taken t.counts name ≠ 0 → ∃ q ∈ t.quotas, q.name = name
  /-- There is room for all open members. -/
  room : t.pending ≤ t.space

theorem sound_new (h : Role.Proper roles) (unique : Bool) : (new roles unique).Sound where
  proper := by
    cases unique with
    | false => exact h
    | true => exact h.single
  within _ _ := Nat.zero_le _
  known _ h := absurd rfl h
  room := Nat.zero_le _

theorem Takes.sound (h : t.Takes m slot t') (ht : t.Sound) (hspace : t.pending < t.space) :
    t'.Sound where
  proper := h.quotas_eq ▸ ht.proper
  within q hq := by
    rw [h.quotas_eq] at hq
    exact Nat.le_trans (h.taken_le ht.proper hq) (Nat.max_le.2 ⟨ht.within q hq, Nat.le_refl _⟩)
  known name htaken := by
    rw [h.quotas_eq]
    cases h with
    | @role q hq _ _ =>
      by_cases hname : name = q.name
      · exact ⟨q, hq, hname.symm⟩
      · rw [taken_take_of_ne hname] at htaken
        exact ht.known name htaken
    | any _ => exact ht.known name htaken
  room := h.pending_le ht.proper hspace

theorem Sound.assignAll (ht : t.Sound) (h : t.assignAll? ms = some (slots, t')) : t'.Sound := by
  induction ms generalizing t slots with
  | nil =>
    cases h
    exact ht
  | cons m ms ih =>
    obtain ⟨slot, t₁, rest, hassign, hrest, rfl⟩ := assignAll?_cons h
    obtain ⟨hspace, htakes⟩ := takes_of_assign? hassign
    exact ih (htakes.sound ht hspace) hrest

theorem Sound.answer (ht : t.Sound) (r : Request α) : (t.answer r).2.Sound := by
  cases hanswer : (t.answer r).1 with
  | none =>
    rw [answer_eq_none hanswer]
    exact ht
  | some slots =>
    obtain ⟨ms, hassign⟩ := answer_eq_some hanswer
    exact ht.assignAll hassign

theorem quotas_answer (t : RoleTally) (r : Request α) : (t.answer r).2.quotas = t.quotas := by
  cases hanswer : (t.answer r).1 with
  | none => rw [answer_eq_none hanswer]
  | some slots =>
    obtain ⟨ms, hassign⟩ := answer_eq_some hanswer
    exact (deals_of_assignAll? hassign).quotas_eq

theorem Sound.after (ht : t.Sound) (rs : List (Request α)) : (t.after rs).Sound := by
  induction rs generalizing t with
  | nil => exact ht
  | cons r rs ih => exact ih (ht.answer r)

theorem quotas_after (t : RoleTally) (rs : List (Request α)) : (t.after rs).quotas = t.quotas := by
  induction rs generalizing t with
  | nil => rfl
  | cons r rs ih => exact (ih (t.answer r).2).trans (t.quotas_answer r)

/-! ## Ways to spread open members -/

/-- The open members are given roles, one of the team's roles each, and no role is given to
    more members than may take it. -/
structure Spreads (t : RoleTally) (given : List String) : Prop where
  /-- Every open member is given one. -/
  all : given.length = t.pending
  /-- It is a role of the team. -/
  known : ∀ name ∈ given, ∃ q ∈ t.quotas, q.name = name
  /-- It has room for them beside those who took it. -/
  within : ∀ q ∈ t.quotas, taken t.counts q.name + given.count q.name ≤ q.max

/-- Every role has the members that it must have, with those who are given it. -/
def Fills (t : RoleTally) (given : List String) : Prop :=
  ∀ q ∈ t.quotas, q.min ≤ taken t.counts q.name + given.count q.name

/-- The roles that a team gives its open members are a way to spread them. -/
theorem Sound.spreads_resolve (ht : t.Sound) : t.Spreads t.resolve where
  all := length_resolve ht.proper ht.room
  known _ := mem_resolveFrom
  within q hq := Nat.le_trans (taken_add_count_resolve_le ht.proper hq)
    (Nat.max_le.2 ⟨ht.within q hq, Nat.le_refl _⟩)

/-- One member makes up for one missing member at most. -/
theorem shortfall_le_take_succ (want : Role → Nat) (counts : Dict Nat) (name : String)
    {quotas : List Role} (hnames : (quotas.map (·.name)).Nodup) :
    shortfall want counts quotas ≤ shortfall want (take counts name) quotas + 1 := by
  induction quotas with
  | nil => exact Nat.zero_le _
  | cons q quotas ih =>
    obtain ⟨hq, hnames⟩ := List.nodup_cons.1 hnames
    rw [shortfall, shortfall, total_cons, total_cons]
    by_cases hname : name = q.name
    · -- The roles behind it have other names.
      replace hq : name ∉ quotas.map (·.name) := hname ▸ hq
      have hrest := shortfall_take_of_not_mem want counts hq
      rw [shortfall, shortfall] at hrest
      rw [hrest, hname, taken_take_self]
      omega
    · have hrest := ih hnames
      rw [shortfall, shortfall] at hrest
      rw [taken_take_of_ne (Ne.symm hname)]
      omega

theorem shortfall_le_foldl_take (want : Role → Nat) (counts : Dict Nat) (given : List String)
    {quotas : List Role} (hnames : (quotas.map (·.name)).Nodup) :
    shortfall want counts quotas ≤
      shortfall want (given.foldl take counts) quotas + given.length := by
  induction given generalizing counts with
  | nil => exact Nat.le_refl _
  | cons name given ih =>
    have hfirst := shortfall_le_take_succ want counts name hnames
    have hrest := ih (take counts name)
    rw [List.foldl_cons, List.length_cons]
    omega

/-- So roles that have what they must have, with those who are given them, are short of no more
    members than there are open ones. -/
theorem Spreads.shortfall_le {given : List String} (h : t.Spreads given) (hfills : t.Fills given)
    (hnames : (t.quotas.map (·.name)).Nodup) :
    shortfall Role.min t.counts t.quotas ≤ t.pending := by
  have hzero : shortfall Role.min (given.foldl take t.counts) t.quotas = 0 := by
    refine shortfall_eq_zero_iff.2 fun q hq => ?_
    rw [taken_foldl_take]
    exact hfills q hq
  have hle := shortfall_le_foldl_take Role.min t.counts given hnames
  rwa [hzero, Nat.zero_add, h.all] at hle

/-! ## The best way -/

/-- The members of a role, and those who are open, are few enough to be counted in signed
    words. -/
def Few (t : RoleTally) : Prop :=
  ∀ q ∈ t.quotas, taken t.counts q.name + t.pending < Word.half

/-- Then this holds of all names. -/
theorem Sound.few (ht : t.Sound) (hfew : t.Few) (name : String) :
    taken t.counts name + t.pending < Word.half := by
  by_cases hzero : taken t.counts name = 0
  · -- Without roles there are no open members.
    have hroom := ht.room
    rw [space] at hroom
    cases hquotas : t.quotas with
    | nil =>
      rw [hquotas] at hroom
      rw [hzero, Nat.eq_zero_of_le_zero hroom]
      decide
    | cons q quotas =>
      have hq := hfew q (hquotas ▸ List.mem_cons_self)
      omega
  · obtain ⟨q, hq, rfl⟩ := ht.known name hzero
    exact hfew q hq

/-- A team has the members that it must have if there is a way to spread its open members by
    which it has. -/
theorem Sound.isSatisfied_iff_exists_spreads (ht : t.Sound) (hfew : t.Few) :
    t.isSatisfied = true ↔ ∃ given, t.Spreads given ∧ t.Fills given := by
  constructor
  · intro h
    refine ⟨t.resolve, ht.spreads_resolve, fun q hq => ?_⟩
    rw [← taken_finalCounts]
    exact shortfall_eq_zero_iff.1 (isSatisfied_iff.1 h) q hq
  · rintro ⟨given, hspreads, hfills⟩
    have hmin : ∀ q ∈ t.quotas, q.min < Word.half := fun q hq => by
      have hle := List.count_le_length (a := q.name) (l := given)
      have hq₁ := hfills q hq
      have hq₂ := hfew q hq
      rw [hspreads.all] at hle
      omega
    exact (isSatisfied_iff_le ht.proper ht.room hmin (ht.few hfew)).2
      (hspreads.shortfall_le hfills ht.proper.names)

/-- A team that has the members it must have keeps them when others come. -/
theorem Sound.isSatisfied_answer (ht : t.Sound) {r : Request α} (hfew : (t.answer r).2.Few)
    (h : t.isSatisfied = true) : (t.answer r).2.isSatisfied = true := by
  cases hanswer : (t.answer r).1 with
  | none =>
    rw [answer_eq_none hanswer]
    exact h
  | some slots =>
    obtain ⟨ms, hassign⟩ := answer_eq_some hanswer
    exact isSatisfied_of_assignAll? ht.proper hassign ((ht.answer r).few hfew) h

/-- What a team does with its open members, and with those who ask to come. -/
structure Resolves (α : Type) (t : RoleTally) : Prop where
  /-- Each open member is given a role that has room. -/
  spreads : t.Spreads t.resolve
  /-- No way to give them roles is better. -/
  best : t.Few → (t.isSatisfied = true ↔ ∃ given, t.Spreads given ∧ t.Fills given)
  /-- Nobody who comes makes it worse. -/
  stays : ∀ r : Request α, (t.answer r).1.isSome = true → (t.answer r).2.Few →
    t.isSatisfied = true → (t.answer r).2.isSatisfied = true
  /-- Who is refused changes nothing. -/
  refused : ∀ r : Request α, (t.answer r).1 = none → (t.answer r).2 = t
  /-- A party is refused if a member of it is, once those before it are in the team. -/
  whole : ∀ ms : List (Member α), (t.answer (.party ms)).1 = none ↔
    ∃ before m after slots t', ms = before ++ m :: after ∧
      t.assignAll? before = some (slots, t') ∧ t'.assign? m = none

/-- The roles of a crew. -/
def crew : List Role := [⟨"tank", 1, 1⟩, ⟨"healer", 1, 2⟩, ⟨"dps", 1, 3⟩]

/-- A member with roles of its own, or none. -/
def hand (id : String) (roles : List String) : Member Rat :=
  { (Member.ofId id : Member Rat) with attributes := .ofList [(Key.role, .list roles)] }

/-- Those who ask to come, the last two of whom both want a role that one may take. -/
def hands : List (Request Rat) :=
  [.member (hand "a" ["dps"]), .party [hand "b" ["healer"], hand "c" []],
    .party [hand "d" ["tank"], hand "e" ["tank"]]]

theorem crew_proper : Role.Proper crew := ⟨by decide, by decide⟩

end RoleTally

end Matchmaking
