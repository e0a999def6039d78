import Mathlib.Data.List.Perm.Subperm
import Matchmaking.Proofs.Ticket
import Matchmaking.Session

/-!
# Tickets in a session

A session is made of parties, and a party that came with a ticket is that of the
ticket, whatever roles its members have (`Party.bare`). So what a session has
from its tickets is known from who sits where (`Session.Seats`): its ticket ids,
its players, and the sizes of its teams.
-/

namespace Matchmaking

variable {α : Type}

namespace Party

/-- The party without roles of its members. -/
def bare (p : Party α) : Party α := { p with members := p.members.map Member.bare }

@[simp] theorem bare_ticketId (p : Party α) : p.bare.ticketId = p.ticketId := rfl

@[simp] theorem bare_players (p : Party α) : p.bare.players = p.players := List.length_map _

@[simp] theorem bare_member_ids (p : Party α) :
    p.bare.members.map (·.id) = p.members.map (·.id) := List.map_map

@[simp] theorem bare_assignRoles (roles : Dict String) (p : Party α) :
    (p.assignRoles roles).bare = p.bare := by
  simp only [bare, assignRoles, List.map_map, Party.mk.injEq, true_and, and_true]
  refine List.map_congr_left fun m _ => ?_
  simp only [Function.comp_apply]
  split <;> rfl

/-- The party that a ticket has in a session, without roles of its members. -/
def ofBare (t : Ticket α) : Party α := (ofTicket t).bare

@[simp] theorem ofBare_unflexed (t : Ticket α) : ofBare t.unflexed = ofBare t := by
  simp only [ofBare, bare, ofTicket, Ticket.unflexed_bare_members]
  rfl

end Party

theorem Session.members_eq_flatMap (s : Session α) :
    s.members = s.parties.flatMap (·.members) := List.flatMap_assoc.symm

/-- The players of a session are counted team by team and party by party. -/
theorem Session.players_eq_length (s : Session α) : s.players = s.members.length := by
  rw [members, length_flatMap_eq_total]
  exact congrArg (total · s.alliances)
    (funext fun a => (length_flatMap_eq_total Party.members a.parties).symm)

/-- A team seats tickets: its parties are theirs, in order. -/
def Alliance.Seats (a : Alliance α) (team : List (Ticket α)) : Prop :=
  a.parties.map Party.bare = team.map Party.ofBare

/-- A session seats tickets, team by team. -/
def Session.Seats (s : Session α) (teams : List (List (Ticket α))) : Prop :=
  s.alliances.map (·.parties.map Party.bare) = teams.map (·.map Party.ofBare)

namespace Alliance.Seats

variable {a : Alliance α} {team : List (Ticket α)}

theorem member_ids (h : a.Seats team) :
    a.members.map (·.id) = team.flatMap fun t => t.members.map (·.id) := by
  have := congrArg (List.flatMap fun p => p.members.map (·.id)) h
  simp only [List.flatMap_map, Party.bare_member_ids] at this
  rw [members, List.map_flatMap, this]
  exact congrArg (List.flatMap · team) (funext fun t => Party.bare_member_ids (.ofTicket t))

theorem mem_userIds (h : a.Seats team) {x : String} :
    x ∈ a.userIds ↔ ∃ t ∈ team, x ∈ t.userIds := by
  simp only [userIds, Ticket.userIds, NameSet.mem_ofList, h.member_ids, List.mem_flatMap]

end Alliance.Seats

namespace Session.Seats

variable {s : Session α} {teams : List (List (Ticket α))}

/-- A team of a session seats one of the teams of tickets. -/
theorem alliance (h : s.Seats teams) {a : Alliance α} (ha : a ∈ s.alliances) :
    ∃ team ∈ teams, a.Seats team := by
  have : a.parties.map Party.bare ∈ teams.map (·.map Party.ofBare) := h ▸ List.mem_map_of_mem ha
  obtain ⟨team, hteam, heq⟩ := List.mem_map.1 this
  exact ⟨team, hteam, heq.symm⟩

/-- A whole session seats its tickets as one team would. -/
theorem parties (h : s.Seats teams) :
    s.parties.map Party.bare = teams.flatten.map Party.ofBare := by
  rw [Session.parties, List.map_flatMap, List.flatMap_def, h, List.map_flatten]

theorem party (h : s.Seats teams) {p : Party α} (hp : p ∈ s.parties) :
    ∃ t ∈ teams.flatten, p.bare = Party.ofBare t := by
  have : p.bare ∈ teams.flatten.map Party.ofBare := h.parties ▸ List.mem_map_of_mem hp
  obtain ⟨t, ht, heq⟩ := List.mem_map.1 this
  exact ⟨t, ht, heq.symm⟩

theorem ticketIds (h : s.Seats teams) : s.ticketIds = teams.flatten.map (·.id) := by
  have := congrArg (List.filterMap (·.ticketId)) h.parties
  simp only [List.filterMap_map, Function.comp_def, Party.bare_ticketId] at this
  rw [Session.ticketIds, this]
  exact congrFun List.filterMap_eq_map _

theorem member_ids (h : s.Seats teams) :
    s.members.map (·.id) = teams.flatten.flatMap fun t => t.members.map (·.id) := by
  have := congrArg (List.flatMap fun p => p.members.map (·.id)) h.parties
  simp only [List.flatMap_map, Party.bare_member_ids] at this
  rw [s.members_eq_flatMap, List.map_flatMap, this]
  exact congrArg (List.flatMap · teams.flatten)
    (funext fun t => Party.bare_member_ids (.ofTicket t))

theorem mem_userIds (h : s.Seats teams) {x : String} :
    x ∈ s.userIds ↔ ∃ t ∈ teams.flatten, x ∈ t.userIds := by
  simp only [Session.userIds, Ticket.userIds, NameSet.mem_ofList, h.member_ids, List.mem_flatMap]

theorem teamSizes (h : s.Seats teams) : s.teamSizes = teams.map Ticket.totalPlayers := by
  have := congrArg (List.map (total Party.players)) h
  simp only [List.map_map, Function.comp_def, total_map, Party.bare_players] at this
  exact this.trans (List.map_congr_left fun team _ =>
    congrArg (total · team) (funext fun t => Party.bare_players (.ofTicket t)))

end Session.Seats

end Matchmaking
