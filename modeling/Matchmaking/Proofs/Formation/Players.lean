import Mathlib.Data.List.Pairwise
import Matchmaking.Proofs.Formation.Round

/-!
# Who meets in a session

A ticket of the queue whose id a session has is one of those that it hosts
(`Formation.Hosts.exists_seated`), and as no two of these have a player in common
(`Formation.Hosts.apart`), a player of a session stands for one ticket only. So
tickets of a session do not share players, and what the policy says of teams holds
player by player.
-/

namespace Matchmaking

variable {α : Type}

instance : Std.Symm (@Ticket.Apart α) := ⟨fun _ _ => Ticket.Apart.symm⟩

theorem Ticket.eq_of_mem_userIds {ts : List (Ticket α)} (h : ts.Pairwise Apart) {t u : Ticket α}
    (ht : t ∈ ts) (hu : u ∈ ts) {x : String} (hxt : x ∈ t.userIds) (hxu : x ∈ u.userIds) :
    t = u := by
  by_contra hne
  exact h.forall ht hu hne x hxt hxu

/-- Players of one ticket differ, players of two tickets differ: players differ. -/
theorem Ticket.nodup_flatMap_members {ts : List (Ticket α)} (h : ts.Pairwise Apart)
    (hts : ∀ t ∈ ts, t.fault? = none) :
    (ts.flatMap fun t => t.members.map (·.id)).Nodup := by
  refine List.nodup_flatMap.2 ⟨fun t ht => nodup_of_fault?_eq_none (hts t ht), ?_⟩
  refine h.imp fun {t u} hapart x hxt hxu => ?_
  exact hapart x (NameSet.mem_ofList.2 hxt) (NameSet.mem_ofList.2 hxu)

/-- The player of a ticket of one. -/
theorem Ticket.eq_of_players_eq_one {t : Ticket α} (h : t.players = 1) {x y : String}
    (hx : x ∈ t.userIds) (hy : y ∈ t.userIds) : x = y := by
  obtain ⟨m, hm⟩ := List.length_eq_one_iff.1 h
  rw [userIds, NameSet.mem_ofList, hm, List.map_singleton, List.mem_singleton] at hx hy
  rw [hx, hy]

namespace Formation

variable [Scalar α] {f : Formation α} {ts : List (Ticket α)} {s : Session α}

namespace Hosts

variable {teams : List (List (Ticket α))}

theorem mem_queue {queue : List (Ticket α)} (h : f.Hosts queue s teams) {t : Ticket α}
    (ht : t ∈ teams.flatten) : t ∈ queue := h.subperm.subset ht

/-- A ticket whose id a session has is one that it hosts, but for roles. -/
theorem exists_seated (hid : (ts.map (·.id)).Nodup) (h : f.Hosts (f.queue ts) s teams)
    {t : Ticket α} (ht : t ∈ ts) (hs : t.id ∈ s.ticketIds) :
    ∃ u ∈ teams.flatten, u.unflexed = t.unflexed :=
  Formation.exists_seated hid h.seats h.subperm.subset ht hs

end Hosts

/-- Different tickets of a session have no player in common. So if no ticket has a
    player twice, the session counts every player once. -/
theorem run_players_distinct (f : Formation α) (budget : Budget) (hid : (ts.map (·.id)).Nodup)
    (hs : s ∈ (f.run budget ts).sessions) :
    (∀ t ∈ ts, ∀ u ∈ ts, t.id ∈ s.ticketIds → u.id ∈ s.ticketIds → t ≠ u → t.Apart u) ∧
      ((∀ t ∈ ts, t.fault? = none) → s.players = s.userIds.size) := by
  obtain ⟨teams, hosts⟩ := (forms_of_mem_run hid hs).hosts (queue_nodup hid)
  constructor
  · intro t ht u hu hts hus hne x hxt hxu
    obtain ⟨t', ht', htt'⟩ := hosts.exists_seated hid ht hts
    obtain ⟨u', hu', huu'⟩ := hosts.exists_seated hid hu hus
    rw [← Ticket.userIds_congr htt'] at hxt
    rw [← Ticket.userIds_congr huu'] at hxu
    -- The tickets that are hosted are one, so those that they came from are one.
    obtain rfl := Ticket.eq_of_mem_userIds hosts.apart ht' hu' hxt hxu
    exact hne (Ticket.eq_of_id_eq hid ht hu (Ticket.id_congr (htt'.symm.trans huu')))
  · intro hfault
    have hseated : ∀ t ∈ teams.flatten, t.fault? = none := by
      intro t ht
      obtain ⟨u, hu, htu⟩ := exists_of_mem_queue (hosts.mem_queue ht)
      rw [Ticket.fault?_congr htu]
      exact hfault u hu
    have hnodup : (s.members.map (·.id)).Nodup := by
      rw [hosts.seats.member_ids]
      exact Ticket.nodup_flatMap_members hosts.apart hseated
    rw [s.players_eq_length, Session.userIds, NameSet.size_ofList hnodup, List.length_map]

theorem duel_players_distinct : (duelist "a" ["b"]).Apart (duelist "c" []) ∧
    ∃ s ∈ (duel.run .unlimited duelists).sessions, s.players = s.userIds.size := by
  obtain ⟨s, hs, hids, _⟩ := duel_session
  obtain ⟨hapart, hplayers⟩ := run_players_distinct duel .unlimited (by decide) hs
  refine ⟨hapart _ (by simp [duelists]) _ (by simp [duelists]) ?_ ?_ ?_, s, hs, hplayers ?_⟩
  · simp [hids, duelist]
  · simp [hids, duelist]
  · exact fun h => absurd (congrArg Ticket.id h) (by decide)
  · decide +kernel

/-- Nobody meets a player whom the own ticket blocks, in the whole session or on
    the own team, as the policy has it. -/
theorem run_respects_blocks (f : Formation α) (budget : Budget) (hid : (ts.map (·.id)).Nodup)
    (hs : s ∈ (f.run budget ts).sessions) {t : Ticket α} (ht : t ∈ ts)
    (hts : t.id ∈ s.ticketIds) {u v : String} (hu : u ∈ t.userIds) (hv : v ∈ s.userIds)
    (huv : u ≠ v) :
    (f.rules.blockPolicy = .cannotMatch → v ∉ t.blocked) ∧
      (f.rules.blockPolicy = .otherTeam →
        ∀ a ∈ s.alliances, u ∈ a.userIds → v ∈ a.userIds → v ∉ t.blocked) := by
  obtain ⟨teams, hosts⟩ := (forms_of_mem_run hid hs).hosts (queue_nodup hid)
  obtain ⟨t', ht', htt'⟩ := hosts.exists_seated hid ht hts
  rw [← Ticket.userIds_congr htt'] at hu
  rw [← Ticket.blocked_congr htt']
  rcases hosts.admits with hadmits | ⟨w, rfl, hone⟩
  · constructor
    · intro hpolicy
      obtain ⟨w, hw, hvw⟩ := hosts.seats.mem_userIds.1 hv
      exact BlockPolicy.not_mem_blocked_of_cannotMatch (hpolicy ▸ hadmits) ht' hw hvw
    · intro hpolicy a ha hua hva
      obtain ⟨team, hteam, hseats⟩ := hosts.seats.alliance ha
      obtain ⟨t₁, ht₁, hut₁⟩ := hseats.mem_userIds.1 hua
      obtain ⟨w, hw, hvw⟩ := hseats.mem_userIds.1 hva
      -- The ticket of a player is on the team of the player.
      obtain rfl := Ticket.eq_of_mem_userIds hosts.apart ht' (List.mem_flatten_of_mem hteam ht₁)
        hu hut₁
      exact BlockPolicy.not_mem_blocked_of_otherTeam (hpolicy ▸ hadmits) hteam ht₁ hw hvw
  · -- There is nobody else to meet.
    obtain ⟨w', hw', hvw⟩ := hosts.seats.mem_userIds.1 hv
    obtain rfl : t' = w := by simpa using ht'
    obtain rfl : w' = t' := by simpa using hw'
    exact absurd (Ticket.eq_of_players_eq_one hone hu hvw) huv

theorem duel_respects_blocks : duel.rules.blockPolicy = .cannotMatch ∧
    ∃ s ∈ (duel.run .unlimited duelists).sessions,
      "c" ∈ s.userIds ∧ "c" ∉ (duelist "a" ["b"]).blocked := by
  obtain ⟨s, hs, hids, husers⟩ := duel_session
  have ha : "a" ∈ (duelist "a" ["b"]).userIds := NameSet.mem_ofList.2 (List.mem_singleton_self _)
  have hc : "c" ∈ s.userIds := by simp [husers]
  have hseated : (duelist "a" ["b"]).id ∈ s.ticketIds := by simp [hids, duelist]
  obtain ⟨hmatch, _⟩ := run_respects_blocks duel .unlimited (by decide) hs List.mem_cons_self
    hseated ha hc (by decide)
  exact ⟨rfl, s, hs, hc, hmatch rfl⟩

end Formation

end Matchmaking
