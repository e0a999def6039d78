import Mathlib.Data.List.Forall2
import Mathlib.Data.List.ReduceOption
import Matchmaking.Backfill
import Matchmaking.Proofs.Merge
import Matchmaking.Proofs.Seating

/-!
# How a session grows

A session that is filled keeps its teams and their parties, in order, and the
parties that are new are those of the tickets that joined it
(`Session.Gains`). Each ticket joins by one step, a party in a team or in a new
one (`Backfill.gains_add`), and a filling is a chain of such steps
(`Backfill.Fills`). What a session records after them is what was recorded, merged with
what the tickets ask for (`Backfill.Fills.records`).
-/

namespace Matchmaking

variable {α : Type}

/-! ## Growing -/

/-- A party is that of a ticket, but for roles that its members were given. -/
def Party.IsOf (p : Party α) (t : Ticket α) : Prop :=
  ∃ roles, p = (Party.ofTicket t).assignRoles roles

/-- A team kept its parties, and may have got further ones behind them. -/
structure Alliance.Grows (a a' : Alliance α) : Prop where
  teamId : a'.teamId = a.teamId
  parties : a.parties <+: a'.parties

/-- A session gained tickets: it is the same session with the same teams at their
    places, and its new parties, in these or in new teams, are those of the
    tickets. -/
structure Session.Gains (s s' : Session α) (ts : List (Ticket α)) : Prop where
  id : s'.id = s.id
  channel : s'.channel = s.channel
  mode : s'.mode = s.mode
  region : s'.region = s.region
  criteria : s'.criteria = s.criteria
  createdAt : s'.createdAt = s.createdAt
  teams : ∀ {i : Nat} {a : Alliance α}, s.alliances[i]? = some a →
    ∃ a', s'.alliances[i]? = some a' ∧ a.Grows a'
  parties : ∃ ps, s'.parties.Perm (s.parties ++ ps) ∧ List.Forall₂ Party.IsOf ps ts

theorem Alliance.Grows.refl (a : Alliance α) : a.Grows a := ⟨rfl, List.prefix_rfl⟩

theorem Alliance.Grows.trans {a a' a'' : Alliance α} (h : a.Grows a') (h' : a'.Grows a'') :
    a.Grows a'' :=
  ⟨h'.teamId.trans h.teamId, h.parties.trans h'.parties⟩

theorem Alliance.grows_addParty (a : Alliance α) (p : Party α) : a.Grows (a.addParty p) :=
  ⟨rfl, List.prefix_append _ _⟩

namespace Session.Gains

variable {s s' s'' : Session α} {ts ts' : List (Ticket α)}

theorem refl (s : Session α) : s.Gains s [] :=
  ⟨rfl, rfl, rfl, rfl, rfl, rfl, fun {_ a} h => ⟨a, h, .refl a⟩, [], by simp, .nil⟩

theorem trans (h : s.Gains s' ts) (h' : s'.Gains s'' ts') : s.Gains s'' (ts ++ ts') where
  id := h'.id.trans h.id
  channel := h'.channel.trans h.channel
  mode := h'.mode.trans h.mode
  region := h'.region.trans h.region
  criteria := h'.criteria.trans h.criteria
  createdAt := h'.createdAt.trans h.createdAt
  teams := fun ha => by
    obtain ⟨a', ha', hgrows⟩ := h.teams ha
    obtain ⟨a'', ha'', hgrows'⟩ := h'.teams ha'
    exact ⟨a'', ha'', hgrows.trans hgrows'⟩
  parties := by
    obtain ⟨ps, hperm, hps⟩ := h.parties
    obtain ⟨ps', hperm', hps'⟩ := h'.parties
    refine ⟨ps ++ ps', hperm'.trans ?_, List.rel_append hps hps'⟩
    rw [← List.append_assoc]
    exact hperm.append_right ps'

/-- The tickets of a session that gained some are those that it had and those. -/
theorem ticketIds (h : s.Gains s' ts) : s'.ticketIds.Perm (s.ticketIds ++ ts.map (·.id)) := by
  obtain ⟨ps, hperm, hps⟩ := h.parties
  have hids : ps.filterMap (·.ticketId) = ts.map (·.id) := by
    clear hperm h
    induction hps with
    | nil => rfl
    | cons hp _ ih =>
      obtain ⟨roles, rfl⟩ := hp
      exact congrArg (_ :: ·) ih
  rw [← hids, Session.ticketIds, Session.ticketIds, ← List.filterMap_append]
  exact hperm.filterMap _

end Session.Gains

namespace Session

/-- The stage of a session is no matter of who is in it. -/
theorem gains_refresh (s : Session α) (b : Bounds) (gained : Bool) :
    s.Gains (s.refresh b gained) [] := by
  rw [refresh]
  split_ifs <;>
    exact ⟨rfl, rfl, rfl, rfl, rfl, rfl, fun {_ a} h => ⟨a, h, .refl a⟩, [],
      List.append_nil _ ▸ .refl _, .nil⟩

@[simp] theorem refresh_attributes (s : Session α) (b : Bounds) (gained : Bool) :
    (s.refresh b gained).attributes = s.attributes := by
  rw [refresh]
  split_ifs <;> rfl

theorem gains_addParty {s : Session α} {i : Nat} (hi : i < s.alliances.length) {p : Party α}
    {t : Ticket α} (hp : p.IsOf t) : s.Gains (s.addParty i p) [t] where
  id := rfl
  channel := rfl
  mode := rfl
  region := rfl
  criteria := rfl
  createdAt := rfl
  teams := fun {j a} ha => by
    rw [addParty, List.getElem?_modify, ha]
    by_cases hij : i = j
    · exact ⟨_, by simp [hij], a.grows_addParty p⟩
    · exact ⟨a, by simp [hij], .refl a⟩
  parties := by
    refine ⟨[p], ?_, .cons hp .nil⟩
    -- The party stands behind those of its team, and before those of later teams.
    have hteams :
        s.alliances = s.alliances.take i ++ s.alliances[i] :: s.alliances.drop (i + 1) := by
      rw [List.getElem_cons_drop, List.take_append_drop]
    have hparties : s.parties = (s.alliances.take i).flatMap (·.parties) ++
        (s.alliances[i].parties ++ (s.alliances.drop (i + 1)).flatMap (·.parties)) := by
      rw [Session.parties, ← List.flatMap_cons, ← List.flatMap_append, ← hteams]
    rw [hparties, Session.parties, addParty, List.modify_eq_take_cons_drop hi, List.flatMap_append,
      List.flatMap_cons, Alliance.addParty, List.append_assoc, List.append_assoc, List.append_assoc]
    exact .append_left _ (.append_left _ List.perm_append_comm)

theorem gains_addAlliance (s : Session α) (teamId : String) {p : Party α} {t : Ticket α}
    (hp : p.IsOf t) : s.Gains (s.addAlliance ((Alliance.new teamId).addParty p)) [t] where
  id := rfl
  channel := rfl
  mode := rfl
  region := rfl
  criteria := rfl
  createdAt := rfl
  teams := fun {i a} ha => by
    obtain ⟨hi, _⟩ := List.getElem?_eq_some_iff.1 ha
    exact ⟨a, (List.getElem?_append_left hi).trans ha, .refl a⟩
  parties := ⟨[p], by simp [Session.parties, addAlliance, Alliance.addParty, Alliance.new],
    .cons hp .nil⟩

end Session

namespace Backfill

variable [Scalar α] {rules : RuleSet α} {s s' : Session α} {t : Ticket α} {p : Placement}

/-! ## One ticket joins -/

theorem placeIn?_team {i : Nat} {a : Alliance α} (h : placeIn? rules t i a = some p) :
    p.team = some i := by
  simp only [placeIn?] at h
  split_ifs at h
  obtain ⟨_, _, rfl⟩ := Option.map_eq_some_iff.1 h
  rfl

omit [Scalar α] in
theorem placeNew?_team (h : placeNew? rules t s = some p) : p.team = none := by
  simp only [placeNew?] at h
  split_ifs at h
  obtain ⟨_, _, rfl⟩ := Option.map_eq_some_iff.1 h
  rfl

/-- A ticket is placed in a team of the session or in a new one. -/
theorem placeIn?_or_placeNew?_of_place? (h : place? rules t s = some p) :
    (∃ i a, s.alliances[i]? = some a ∧ placeIn? rules t i a = some p) ∨
      placeNew? rules t s = some p := by
  simp only [place?] at h
  split at h
  · rename_i q hq
    obtain rfl := Option.some_inj.1 h
    obtain ⟨i, hi, heq⟩ :=
      List.mem_mapIdx.1 (List.reduceOption_mem_iff.1 (mem_of_firstGreatest? hq))
    obtain ⟨q', hq', heq⟩ := Option.map_eq_some_iff.1 heq
    obtain ⟨_, rfl⟩ := Prod.mk.inj heq
    exact .inl ⟨i, _, List.getElem?_eq_getElem hi, hq'⟩
  · exact .inr h

/-- The team that a ticket is placed in is one of the session. -/
theorem place?_team_lt (h : place? rules t s = some p) {i : Nat} (hi : p.team = some i) :
    i < s.alliances.length := by
  rcases placeIn?_or_placeNew?_of_place? h with ⟨j, a, ha, hp⟩ | hp
  · rw [placeIn?_team hp, Option.some_inj] at hi
    exact hi ▸ (List.getElem?_eq_some_iff.1 ha).1
  · rw [placeNew?_team hp] at hi
    cases hi

omit [Scalar α] in
theorem gains_joined (h : ∀ {i : Nat}, p.team = some i → i < s.alliances.length) :
    s.Gains (joined s t p) [t] := by
  rw [joined]
  split
  · rename_i hi
    exact Session.gains_addParty (h hi) ⟨_, rfl⟩
  · exact Session.gains_addAlliance s _ ⟨_, rfl⟩

theorem gains_add (h : place? rules t s = some p) : s.Gains (add rules s t p) [t] := by
  -- Means and attributes are no matter of who is in a session.
  have hgains := gains_joined (t := t) fun {_} hi => place?_team_lt h hi
  exact ⟨hgains.id, hgains.channel, hgains.mode, hgains.region, hgains.criteria, hgains.createdAt,
    hgains.teams, hgains.parties⟩

/-! ## A session is filled -/

/-- Tickets join a session one after the other, each where it has a place. -/
inductive Fills (rules : RuleSet α) : Session α → List (Ticket α) → Session α → Prop
  | done (s : Session α) : Fills rules s [] s
  | join {s s' : Session α} {t : Ticket α} {ts : List (Ticket α)} {p : Placement}
    (hp : place? rules t s = some p)
    (h : Fills rules ((add rules s t p).refresh rules.alliance.bounds true) ts s') :
    Fills rules s (t :: ts) s'

theorem Fills.gains {ts : List (Ticket α)} (h : Fills rules s ts s') : s.Gains s' ts := by
  induction h with
  | done s => exact .refl s
  | join hp _ ih => exact ((gains_add hp).trans (Session.gains_refresh _ _ _)).trans ih

/-- The attributes of a session that is filled are those of its tickets before and
    of those that joined. -/
theorem Fills.records {ts us : List (Ticket α)} (h : Fills rules s ts s')
    (hs : rules.Records s.attributes us) : rules.Records s'.attributes (us ++ ts) := by
  induction h generalizing us with
  | done s => rwa [List.append_nil]
  | @join s s' t ts p hp _ ih =>
    rw [List.append_cons]
    refine ih ?_
    rw [Session.refresh_attributes]
    exact hs.joined t

omit [Scalar α] in
theorem takeTicket?_eq_some {id : String} {pool rest : List (Ticket α)}
    (h : takeTicket? id pool = some (t, rest)) : t.id = id ∧ (t :: rest).Perm pool := by
  induction pool generalizing rest with
  | nil => cases h
  | cons u pool ih =>
    rw [takeTicket?] at h
    split_ifs at h with hid
    · obtain ⟨rfl, rfl⟩ := Prod.mk.inj (Option.some_inj.1 h)
      exact ⟨hid, .refl _⟩
    · obtain ⟨⟨t', rest'⟩, hrest, heq⟩ := Option.map_eq_some_iff.1 h
      obtain ⟨rfl, rfl⟩ := Prod.mk.inj heq
      obtain ⟨ht, hperm⟩ := ih hrest
      exact ⟨ht, (List.Perm.swap u t' rest').trans (hperm.cons u)⟩

end Backfill

end Matchmaking
