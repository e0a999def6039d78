import Mathlib.Data.List.Induction
import Mathlib.Data.List.Nodup
import Matchmaking.Session

/-!
# Teams from lists of players

A team is made from a list of players, one after the other. What becomes of a player is
decided by the first ticket that has the player (`Alliance.ticketOf?`): the player joins
the party of that ticket id, or founds it (`Alliance.place_cases`), and is an external
player if there is no such ticket. A player who comes again changes nothing.

What every player preserves is that each party has exactly those who came with its
ticket id, in the order in which they came (`Alliance.Places`,
`Alliance.Places.placeUser`). So a party can be told from the list, and no player is in
two of them (`Alliance.ofUsers_isRoster`).
-/

namespace Matchmaking

variable {α : Type}

/-! ## Names in the order in which they first come -/

theorem eraseDups_concat (xs : List String) (x : String) :
    (xs ++ [x]).eraseDups = if x ∈ xs then xs.eraseDups else xs.eraseDups ++ [x] := by
  rw [List.eraseDups_append, List.removeAll]
  split_ifs with hx
  · simp [hx]
  · simp [hx, List.eraseDups_cons]

theorem nodup_eraseDups (xs : List String) : xs.eraseDups.Nodup := by
  induction xs using List.reverseRecOn with
  | nil => exact .nil
  | append_singleton xs x ih =>
    rw [eraseDups_concat]
    split_ifs with hx
    · exact ih
    · exact List.nodup_append.2 ⟨ih, List.nodup_singleton x, by
        rintro y hy z hz rfl
        exact hx (List.mem_singleton.1 hz ▸ List.mem_eraseDups.1 hy)⟩

namespace Alliance

variable {tickets : List (Ticket α)} {x : String} {xs : List String}

/-! ## With which ticket a player comes -/

/-- The first ticket that has a player. -/
def ticketOf? (tickets : List (Ticket α)) (x : String) : Option (Ticket α) :=
  tickets.find? fun t => t.userIds.contains x

/-- The id of the first ticket that has a player. -/
def ticketIdOf? (tickets : List (Ticket α)) (x : String) : Option String :=
  (ticketOf? tickets x).map (·.id)

theorem ticketIdOf?_eq_none_iff : ticketIdOf? tickets x = none ↔ ticketOf? tickets x = none :=
  Option.map_eq_none_iff

/-- The owner of a player is the first ticket that has the player, and the player in it. -/
theorem ticketOf?_of_owner? {t : Ticket α} {m : Member α}
    (h : owner? x tickets = some (t, m)) :
    ticketOf? tickets x = some t ∧ m ∈ t.members ∧ m.id = x := by
  induction tickets with
  | nil => cases h
  | cons u tickets ih =>
    rw [owner?] at h
    split at h
    · rename_i m' hm'
      obtain ⟨rfl, rfl⟩ := Prod.mk.inj (Option.some_inj.1 h)
      have hmem := List.mem_of_find?_eq_some hm'
      have hid : m'.id = x := by simpa using List.find?_some hm'
      refine ⟨List.find?_cons_of_pos ?_, hmem, hid⟩
      exact NameSet.contains_iff.2 (NameSet.mem_ofList.2 (hid ▸ List.mem_map_of_mem hmem))
    · rename_i hnone
      obtain ⟨hticket, hm⟩ := ih h
      refine ⟨(List.find?_cons_of_neg fun hx => ?_).trans hticket, hm⟩
      obtain ⟨m', hm', rfl⟩ := List.mem_map.1 (NameSet.mem_ofList.1 (NameSet.contains_iff.1 hx))
      exact List.find?_eq_none.1 hnone m' hm' (beq_self_eq_true _)

theorem ticketOf?_of_owner?_eq_none (h : owner? x tickets = none) :
    ticketOf? tickets x = none := by
  induction tickets with
  | nil => rfl
  | cons u tickets ih =>
    rw [owner?] at h
    split at h
    · cases h
    · rename_i hnone
      refine (List.find?_cons_of_neg fun hx => ?_).trans (ih h)
      obtain ⟨m', hm', rfl⟩ := List.mem_map.1 (NameSet.mem_ofList.1 (NameSet.contains_iff.1 hx))
      exact List.find?_eq_none.1 hnone m' hm' (beq_self_eq_true _)

/-! ## One player -/

/-- A member of a ticket joins the party of the ticket, or founds it behind the others. -/
theorem place_cases (t : Ticket α) (m : Member α) (ps : List (Party α)) :
    (∃ before p after, ps = before ++ p :: after ∧ p.ticketId = some t.id ∧
      place t m ps = before ++ { p with members := p.members ++ [m] } :: after) ∨
    ((∀ p ∈ ps, p.ticketId ≠ some t.id) ∧
      place t m ps = ps ++ [{ Party.ofTicket t with members := [m] }]) := by
  induction ps with
  | nil => exact .inr ⟨List.forall_mem_nil _, rfl⟩
  | cons p ps ih =>
    rw [place]
    split_ifs with hp
    · exact .inl ⟨[], p, ps, rfl, hp, rfl⟩
    · rcases ih with ⟨before, q, after, rfl, hq, hplace⟩ | ⟨hnone, hplace⟩
      · exact .inl ⟨p :: before, q, after, rfl, hq, congrArg (p :: ·) hplace⟩
      · exact .inr ⟨List.forall_mem_cons.2 ⟨hp, hnone⟩, congrArg (p :: ·) hplace⟩

/-- A party has those players of a list who come with its ticket id, in the order of the
    list and as their tickets have them. All else it has from the ticket of the first one. -/
structure HasItsOwn (tickets : List (Ticket α)) (xs : List String) (p : Party α) : Prop where
  ids : p.members.map (·.id) = xs.filter fun x => ticketIdOf? tickets x = p.ticketId
  founder : ∃ t m ms, p = { Party.ofTicket t with members := m :: ms } ∧
    ticketOf? tickets m.id = some t
  members : ∀ m ∈ p.members, ∃ t, ticketOf? tickets m.id = some t ∧ m ∈ t.members

/-- The players of a list, none of whom comes twice, are placed: in the parties of their
    tickets, one for each ticket id, or among the external ones. -/
structure Places (tickets : List (Ticket α)) (xs : List String)
    (acc : Alliance α × List (Member α)) : Prop where
  parties : ∀ p ∈ acc.1.parties, HasItsOwn tickets xs p
  single : (acc.1.parties.map (·.ticketId)).Nodup
  placed : ∀ x ∈ xs, ticketIdOf? tickets x ≠ none →
    ticketIdOf? tickets x ∈ acc.1.parties.map (·.ticketId)
  external : acc.2 = (xs.filter fun x => ticketIdOf? tickets x = none).map Member.ofId

/-- A player who comes with another ticket is no matter to a party. -/
theorem HasItsOwn.concat_of_ne {p : Party α} (h : HasItsOwn tickets xs p)
    (hx : ticketIdOf? tickets x ≠ p.ticketId) : HasItsOwn tickets (xs ++ [x]) p := by
  refine ⟨?_, h.founder, h.members⟩
  rw [h.ids, List.filter_append, List.filter_cons_of_neg (by simpa using hx), List.filter_nil,
    List.append_nil]

/-- A member of a ticket joins the party of the ticket id. -/
theorem HasItsOwn.concat {p : Party α} {t : Ticket α} {m : Member α}
    (h : HasItsOwn tickets xs p) (hticket : ticketOf? tickets m.id = some t)
    (hm : m ∈ t.members) (hp : p.ticketId = some t.id) :
    HasItsOwn tickets (xs ++ [m.id]) { p with members := p.members ++ [m] } := by
  obtain ⟨t₀, m₀, ms, hparty, hfirst⟩ := h.founder
  refine ⟨?_, ⟨t₀, m₀, ms ++ [m], ?_, hfirst⟩, fun m' hm' => ?_⟩
  · have hkey : ticketIdOf? tickets m.id = p.ticketId := by
      rw [ticketIdOf?, hticket, Option.map_some, hp]
    simp [h.ids, hkey]
  · rw [hparty]
    rfl
  · rcases List.mem_append.1 hm' with hm' | hm'
    · exact h.members m' hm'
    · exact List.mem_singleton.1 hm' ▸ ⟨t, hticket, hm⟩

/-- A member of a ticket founds the party of the ticket id, if nobody came with it before. -/
theorem hasItsOwn_found {t : Ticket α} {m : Member α} (hticket : ticketOf? tickets m.id = some t)
    (hm : m ∈ t.members) (hnobody : ∀ x ∈ xs, ticketIdOf? tickets x ≠ some t.id) :
    HasItsOwn tickets (xs ++ [m.id]) { Party.ofTicket t with members := [m] } := by
  refine ⟨?_, ⟨t, m, [], rfl, hticket⟩, fun m' hm' => ?_⟩
  · have hkey : ticketIdOf? tickets m.id = some t.id := by
      rw [ticketIdOf?, hticket, Option.map_some]
    have hbefore : (xs.filter fun x => ticketIdOf? tickets x = some t.id) = [] :=
      List.filter_eq_nil_iff.2 fun x hx hxt => hnobody x hx (of_decide_eq_true hxt)
    show [m.id] = (xs ++ [m.id]).filter fun x => ticketIdOf? tickets x = some t.id
    rw [List.filter_append, hbefore]
    simp [hkey]
  · exact List.mem_singleton.1 hm' ▸ ⟨t, hticket, hm⟩

namespace Places

variable {acc : Alliance α × List (Member α)}

/-- Those who are placed are those who came. -/
theorem seen_iff (h : Places tickets xs acc) :
    (acc.1.hasUser x || acc.2.any fun m => m.id == x) = true ↔ x ∈ xs := by
  rw [Bool.or_eq_true, hasUser, List.any_eq_true, List.any_eq_true, h.external]
  simp only [beq_iff_eq]
  constructor
  · rintro (⟨m, hm, rfl⟩ | ⟨m, hm, rfl⟩)
    · obtain ⟨p, hp, hmp⟩ := List.mem_flatMap.1 hm
      have hmem : m.id ∈ p.members.map (·.id) := List.mem_map_of_mem hmp
      rw [(h.parties p hp).ids] at hmem
      exact List.mem_of_mem_filter hmem
    · obtain ⟨y, hy, rfl⟩ := List.mem_map.1 hm
      exact List.mem_of_mem_filter hy
  · intro hx
    by_cases hkey : ticketIdOf? tickets x = none
    · exact .inr ⟨.ofId x, List.mem_map_of_mem (List.mem_filter.2 ⟨hx, by simpa using hkey⟩), rfl⟩
    · obtain ⟨p, hp, hpk⟩ := List.mem_map.1 (h.placed x hx hkey)
      have hmem : x ∈ p.members.map (·.id) := by
        rw [(h.parties p hp).ids, List.mem_filter]
        exact ⟨hx, by simp [hpk]⟩
      obtain ⟨m, hm, hmx⟩ := List.mem_map.1 hmem
      exact .inl ⟨m, List.mem_flatMap.2 ⟨p, hp, hm⟩, hmx⟩

theorem start (tickets : List (Ticket α)) (teamId : String) :
    Places tickets [] (new teamId, []) :=
  ⟨List.forall_mem_nil _, .nil, List.forall_mem_nil _, rfl⟩

/-- A player of no ticket is external. -/
theorem concat_external {a : Alliance α} {external : List (Member α)}
    (h : Places tickets xs (a, external)) (hx : owner? x tickets = none) :
    Places tickets (xs ++ [x]) (a, external ++ [.ofId x]) := by
  have hkey : ticketIdOf? tickets x = none :=
    ticketIdOf?_eq_none_iff.2 (ticketOf?_of_owner?_eq_none hx)
  refine ⟨fun p hp => ?_, h.single, fun y hy hne => ?_, ?_⟩
  · obtain ⟨t, m, ms, hparty, _⟩ := (h.parties p hp).founder
    refine (h.parties p hp).concat_of_ne fun heq => ?_
    rw [hkey, hparty] at heq
    cases heq
  · rcases List.mem_append.1 hy with hy | hy
    · exact h.placed y hy hne
    · exact absurd (List.mem_singleton.1 hy ▸ hkey) hne
  · rw [List.filter_append, List.map_append, ← h.external]
    simp [hkey]

/-- A member of a ticket joins the party of the ticket id, or founds it. -/
theorem concat_place {a : Alliance α} {external : List (Member α)} {t : Ticket α} {m : Member α}
    (h : Places tickets xs (a, external)) (hx : owner? x tickets = some (t, m)) :
    Places tickets (xs ++ [x]) ({ a with parties := place t m a.parties }, external) := by
  obtain ⟨hticket, hm, rfl⟩ := ticketOf?_of_owner? hx
  have hkey : ticketIdOf? tickets m.id = some t.id := by rw [ticketIdOf?, hticket, Option.map_some]
  have hothers : ∀ p ∈ a.parties, p.ticketId ≠ some t.id → HasItsOwn tickets (xs ++ [m.id]) p :=
    fun p hp hne => (h.parties p hp).concat_of_ne (hkey ▸ hne.symm)
  have hexternal : external =
      ((xs ++ [m.id]).filter fun y => ticketIdOf? tickets y = none).map Member.ofId := by
    rw [List.filter_append, List.map_append, ← h.external]
    simp [hkey]
  -- Whoever came before still has a party, and there is one of this ticket id now.
  have hplaced : ∀ {ids : List (Option String)}, a.parties.map (·.ticketId) ⊆ ids →
      some t.id ∈ ids → ∀ y ∈ xs ++ [m.id], ticketIdOf? tickets y ≠ none →
        ticketIdOf? tickets y ∈ ids := by
    intro ids hids hid y hy hne
    rcases List.mem_append.1 hy with hy | hy
    · exact hids (h.placed y hy hne)
    · rw [List.mem_singleton.1 hy, hkey]
      exact hid
  rcases place_cases t m a.parties with ⟨before, p, after, hps, hp, hplace⟩ | ⟨hnone, hplace⟩
  · have hids : (place t m a.parties).map (·.ticketId) = a.parties.map (·.ticketId) := by
      rw [hplace, hps, List.map_append, List.map_cons, List.map_append, List.map_cons]
    have hmem : p ∈ a.parties := hps ▸ List.mem_append_right before List.mem_cons_self
    refine ⟨fun q hq => ?_, hids ▸ h.single, hplaced (hids ▸ List.Subset.refl _)
      (hids ▸ hp ▸ List.mem_map_of_mem hmem), hexternal⟩
    have hsingle := List.pairwise_map.1 h.single
    rw [hps, List.pairwise_append, List.pairwise_cons] at hsingle
    obtain ⟨-, ⟨hafter, -⟩, hbefore⟩ := hsingle
    rw [hps] at hothers
    rw [hplace] at hq
    rcases List.mem_append.1 hq with hq | hq
    · exact hothers q (List.mem_append_left _ hq) (hp ▸ hbefore q hq p List.mem_cons_self)
    rcases List.mem_cons.1 hq with rfl | hq
    · exact (h.parties p hmem).concat hticket hm hp
    · exact hothers q (List.mem_append_right _ (List.mem_cons_of_mem p hq))
        (hp ▸ (hafter q hq).symm)
  · have hids : (place t m a.parties).map (·.ticketId) =
        a.parties.map (·.ticketId) ++ [some t.id] := by
      rw [hplace, List.map_append]
      rfl
    have hnew : some t.id ∉ a.parties.map (·.ticketId) := fun hmem => by
      obtain ⟨p, hp, hpt⟩ := List.mem_map.1 hmem
      exact hnone p hp hpt
    refine ⟨fun q hq => ?_, hids ▸ ?_, hplaced (hids ▸ List.subset_append_left _ _)
      (hids ▸ List.mem_append_right _ (List.mem_singleton_self _)), hexternal⟩
    · rw [hplace] at hq
      rcases List.mem_append.1 hq with hq | hq
      · exact hothers q hq (hnone q hq)
      · rw [List.mem_singleton.1 hq]
        exact hasItsOwn_found hticket hm fun y hy hyt =>
          hnew (hyt ▸ h.placed y hy (hyt ▸ Option.some_ne_none _))
    · exact List.nodup_append.2 ⟨h.single, List.nodup_singleton _, fun k hk k' hk' heq =>
        hnew (List.mem_singleton.1 hk' ▸ heq ▸ hk)⟩

/-- A player who is placed changes nothing, and any other is placed. -/
theorem placeUser {acc : Alliance α × List (Member α)} {users : List String}
    (h : Places tickets users.eraseDups acc) (x : String) :
    Places tickets (users ++ [x]).eraseDups (Alliance.placeUser tickets acc x) := by
  obtain ⟨a, external⟩ := acc
  have hseen := h.seen_iff (x := x)
  rw [List.mem_eraseDups] at hseen
  rw [eraseDups_concat, Alliance.placeUser]
  by_cases hx : x ∈ users
  · rw [if_pos hx, if_pos (hseen.2 hx)]
    exact h
  · rw [if_neg hx, if_neg (mt hseen.1 hx)]
    split
    · exact h.concat_place ‹_›
    · rename_i hnone
      exact h.concat_external hnone

theorem ofUsers (tickets : List (Ticket α)) (teamId : String) (users : List String) :
    Places tickets users.eraseDups (users.foldl (Alliance.placeUser tickets) (new teamId, [])) := by
  induction users using List.reverseRecOn with
  | nil => exact start tickets teamId
  | append_singleton users x ih =>
    rw [List.foldl_concat]
    exact ih.placeUser x

end Places

/-! ## The whole team -/

/-- Those of a list of players who come with no ticket, as a party if there is anyone. -/
def strangers (tickets : List (Ticket α)) (users : List String) : List (Party α) :=
  if ∀ x ∈ users, ticketIdOf? tickets x ≠ none then []
  else [.external ((users.eraseDups.filter fun x => ticketIdOf? tickets x = none).map .ofId)]

/-- A team has the players of a list: every player once, those of a ticket in the party of
    the first ticket id that they come with, and the others in an external party behind all
    parties of tickets. -/
structure IsRoster (users : List String) (tickets : List (Ticket α)) (a : Alliance α) : Prop where
  /-- Nobody is a member twice. -/
  nodup : (a.members.map (·.id)).Nodup
  /-- The members are the players of the list. -/
  mem_iff : ∀ x, x ∈ a.members.map (·.id) ↔ x ∈ users
  /-- There are as many members as players. -/
  players : a.players = (NameSet.ofList users).size
  /-- A player of a ticket is in a party of the id of the first one. -/
  placed : ∀ x ∈ users, ∀ t, ticketOf? tickets x = some t →
    ∃ p ∈ a.parties, p.ticketId = some t.id ∧ x ∈ p.members.map (·.id)
  /-- No two parties have one ticket id, and one of them at most has none. -/
  single : (a.parties.map (·.ticketId)).Nodup
  /-- No party is empty. -/
  nonempty : ∀ p ∈ a.parties, p.members ≠ []
  /-- Parties of tickets come first, each with those who come with its ticket id, in the
      order of the list. Then comes the party of those who come with no ticket, if there are
      some. -/
  parties : ∃ known, (∀ p ∈ known, p.isExternal = false ∧ HasItsOwn tickets users.eraseDups p) ∧
    a.parties = known ++ strangers tickets users

theorem HasItsOwn.ticketId_ne_none {p : Party α} (h : HasItsOwn tickets xs p) :
    p.ticketId ≠ none := by
  obtain ⟨t, m, ms, rfl, _⟩ := h.founder
  exact Option.some_ne_none t.id

theorem HasItsOwn.nonempty {p : Party α} (h : HasItsOwn tickets xs p) : p.members ≠ [] := by
  obtain ⟨t, m, ms, rfl, _⟩ := h.founder
  exact List.cons_ne_nil m ms

/-- The party of those who come with no ticket has no ticket id, and has them. -/
theorem of_mem_strangers {users : List String} {p : Party α} (h : p ∈ strangers tickets users) :
    p.ticketId = none ∧ p.members ≠ [] ∧
      p.members.map (·.id) = users.eraseDups.filter fun x => ticketIdOf? tickets x = none := by
  rw [strangers] at h
  split_ifs at h with hall
  · cases h
  · obtain rfl := List.mem_singleton.1 h
    push Not at hall
    obtain ⟨x, hx, hnone⟩ := hall
    have hmem : x ∈ users.eraseDups.filter fun y => ticketIdOf? tickets y = none :=
      List.mem_filter.2 ⟨List.mem_eraseDups.2 hx, decide_eq_true hnone⟩
    refine ⟨rfl, List.ne_nil_of_mem (List.mem_map_of_mem hmem), ?_⟩
    rw [Party.external, List.map_map]
    exact List.map_id _

/-- Parties of different ticket ids share out those who come: nobody is in two of them. -/
theorem nodup_memberIds {ps : List (Party α)} (hxs : xs.Nodup)
    (hids : ∀ p ∈ ps, p.members.map (·.id) = xs.filter fun x => ticketIdOf? tickets x = p.ticketId)
    (hsingle : (ps.map (·.ticketId)).Nodup) :
    ((ps.flatMap (·.members)).map (·.id)).Nodup := by
  rw [List.map_flatMap, List.nodup_flatMap]
  refine ⟨fun p hp => hids p hp ▸ hxs.filter _, ?_⟩
  refine (List.pairwise_map.1 hsingle).imp_of_mem fun {p q} hp hq hne x hxp hxq => ?_
  beta_reduce at hxp hxq
  rw [hids p hp, List.mem_filter, decide_eq_true_eq] at hxp
  rw [hids q hq, List.mem_filter, decide_eq_true_eq] at hxq
  exact hne (hxp.2.symm.trans hxq.2)

/-- As many members as a list has players, if they are the players and nobody is one twice. -/
theorem players_eq_size {a : Alliance α} {users : List String}
    (hnodup : (a.members.map (·.id)).Nodup) (hmem : ∀ x, x ∈ a.members.map (·.id) ↔ x ∈ users) :
    a.players = (NameSet.ofList users).size := by
  have hset : NameSet.ofList users = NameSet.ofList (a.members.map (·.id)) :=
    NameSet.ext fun x => by rw [NameSet.mem_ofList, NameSet.mem_ofList, hmem x]
  rw [hset, NameSet.size_ofList hnodup, List.length_map]
  exact (length_flatMap_eq_total Party.members a.parties).symm

namespace Places

variable {a b : Alliance α} {external : List (Member α)} {users : List String}

/-- Every party has those who come with its ticket id, the strangers as well. -/
theorem ids (h : Places tickets users.eraseDups (a, external)) :
    ∀ p ∈ a.parties ++ strangers tickets users,
      p.members.map (·.id) = users.eraseDups.filter fun x => ticketIdOf? tickets x = p.ticketId := by
  intro p hp
  rcases List.mem_append.1 hp with hp | hp
  · exact (h.parties p hp).ids
  · obtain ⟨hid, -, hmembers⟩ := of_mem_strangers hp
    rw [hid, hmembers]

/-- Strangers have no ticket id, which no other party is without. -/
theorem nodup_ticketIds (h : Places tickets users.eraseDups (a, external)) :
    ((a.parties ++ strangers tickets users).map (·.ticketId)).Nodup := by
  rw [List.map_append]
  refine List.nodup_append.2 ⟨h.single, ?_, ?_⟩
  · rw [strangers]
    split_ifs
    · exact .nil
    · exact List.nodup_singleton _
  · rintro k hk k' hk' rfl
    obtain ⟨p, hp, rfl⟩ := List.mem_map.1 hk
    obtain ⟨q, hq, hqp⟩ := List.mem_map.1 hk'
    exact (h.parties p hp).ticketId_ne_none (hqp.symm.trans (of_mem_strangers hq).1)

/-- Whoever comes has a party of the ticket id. -/
theorem exists_party (h : Places tickets users.eraseDups (a, external)) (hx : x ∈ users) :
    ∃ p ∈ a.parties ++ strangers tickets users, p.ticketId = ticketIdOf? tickets x := by
  by_cases hkey : ticketIdOf? tickets x = none
  · have hsome : strangers tickets users ≠ [] := by
      rw [strangers, if_neg fun hall => hall x hx hkey]
      exact List.cons_ne_nil _ _
    obtain ⟨p, hp⟩ := List.exists_mem_of_ne_nil _ hsome
    exact ⟨p, List.mem_append_right _ hp, (of_mem_strangers hp).1.trans hkey.symm⟩
  · obtain ⟨p, hp, hpx⟩ := List.mem_map.1 (h.placed x (List.mem_eraseDups.2 hx) hkey)
    exact ⟨p, List.mem_append_left _ hp, hpx⟩

/-- With the party of those who come with no ticket behind the others, the team is whole. -/
theorem isRoster (h : Places tickets users.eraseDups (a, external))
    (hb : b.parties = a.parties ++ strangers tickets users) : IsRoster users tickets b := by
  have hids := h.ids
  have hsingle := h.nodup_ticketIds
  rw [← hb] at hids hsingle
  have hplaced : ∀ x ∈ users, ∃ p ∈ b.parties, p.ticketId = ticketIdOf? tickets x ∧
      x ∈ p.members.map (·.id) := by
    intro x hx
    obtain ⟨p, hp, hpx⟩ := h.exists_party hx
    rw [← hb] at hp
    refine ⟨p, hp, hpx, ?_⟩
    rw [hids p hp, List.mem_filter, decide_eq_true_eq]
    exact ⟨List.mem_eraseDups.2 hx, hpx.symm⟩
  have hnodup := nodup_memberIds (nodup_eraseDups users) hids hsingle
  have hmem : ∀ x, x ∈ b.members.map (·.id) ↔ x ∈ users := by
    intro x
    rw [members, List.map_flatMap, List.mem_flatMap]
    constructor
    · rintro ⟨p, hp, hxp⟩
      rw [hids p hp] at hxp
      exact List.mem_eraseDups.1 (List.mem_of_mem_filter hxp)
    · intro hx
      obtain ⟨p, hp, _, hxp⟩ := hplaced x hx
      exact ⟨p, hp, hxp⟩
  refine ⟨hnodup, hmem, players_eq_size hnodup hmem, fun x hx t ht => ?_, hsingle, ?_, ?_⟩
  · obtain ⟨p, hp, hpx, hxp⟩ := hplaced x hx
    exact ⟨p, hp, by rw [hpx, ticketIdOf?, ht, Option.map_some], hxp⟩
  · rw [hb]
    intro p hp
    rcases List.mem_append.1 hp with hp | hp
    · exact (h.parties p hp).nonempty
    · exact (of_mem_strangers hp).2.1
  · refine ⟨a.parties, fun p hp => ⟨?_, h.parties p hp⟩, hb⟩
    exact Option.isNone_eq_false_iff.2 (Option.isSome_iff_ne_none.2 (h.parties p hp).ticketId_ne_none)

end Places

/-- A team made from a list of players has the players of the list. -/
theorem ofUsers_isRoster (teamId : String) (users : List String) (tickets : List (Ticket α)) :
    IsRoster users tickets (ofUsers teamId users tickets) := by
  have hplaces := Places.ofUsers tickets teamId users
  rw [ofUsers]
  generalize users.foldl (placeUser tickets) (new teamId, []) = acc at hplaces ⊢
  obtain ⟨a, external⟩ := acc
  have hexternal : external = _ := hplaces.external
  have hnone : external = [] ↔ ∀ x ∈ users, ticketIdOf? tickets x ≠ none := by
    rw [hexternal, List.map_eq_nil_iff, List.filter_eq_nil_iff]
    simp only [List.mem_eraseDups, decide_eq_true_eq, ne_eq]
  show IsRoster users tickets (if external.isEmpty then a else a.addParty (.external external))
  refine hplaces.isRoster ?_
  rw [strangers, ← hexternal]
  by_cases hex : external = []
  · rw [if_pos (hnone.1 hex), if_pos (List.isEmpty_iff.2 hex), List.append_nil]
  · rw [if_neg (mt hnone.2 hex), if_neg (mt List.isEmpty_iff.1 hex), addParty]

end Alliance

end Matchmaking
