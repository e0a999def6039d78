import Mathlib.Algebra.BigOperators.Group.List.Basic
import Mathlib.Data.List.Induction
import Mathlib.Logic.Function.Iterate
import Matchmaking.Number.Rational
import Matchmaking.Proofs.Backfill.Life
import Matchmaking.Proofs.Flexing
import Matchmaking.Rules.Fault

/-!
# The means of a session

A session records the means of what its players are matched by: once over all tickets
when it is formed, and then ticket by ticket. In exact arithmetic, a running mean over
players that takes in more players is the mean over all of them (`RunningMean.absorb_weighted`).
So a session that is formed and filled under the same rules, in whatever runs, has the mean
over the players that it has (`Session.Averages`, `Formation.Course.means_exact`).

A ticket that joins is taken in once for every distance rule of an attribute
(`Backfill.get?_meansWith`), while a session is formed with each ticket once. So an
attribute must have one rule only; with two of them, every ticket that joins counts
twice (`Formation.scrim_counts_twice`).
-/

namespace Matchmaking

/-! ## Exact means -/

namespace RunningMean

variable {ws ws' : List (Rat × Nat)}

/-- The sum over players, so many for each of some numbers. -/
def sum (ws : List (Rat × Nat)) : Rat := (ws.map fun w => w.1 * (w.2 : Rat)).sum

/-- The mean over players, so many for each of some numbers. -/
def weighted (ws : List (Rat × Nat)) : RunningMean Rat where
  value := sum ws / (total Prod.snd ws : Nat)
  players := total Prod.snd ws

theorem sum_append (ws ws' : List (Rat × Nat)) : sum (ws ++ ws') = sum ws + sum ws' := by
  rw [sum, List.map_append, List.sum_append, sum, sum]

theorem sum_eq_zero_of_total (h : total Prod.snd ws = 0) : sum ws = 0 := by
  induction ws with
  | nil => rfl
  | cons w ws ih =>
    rw [total_cons, Nat.add_eq_zero_iff] at h
    rw [← List.singleton_append, sum_append, ih h.2, sum, List.map_singleton, List.sum_singleton,
      h.1, Nat.cast_zero, mul_zero, add_zero]

/-- Without players there is nothing to sum up. -/
theorem weighted_value_mul_players (ws : List (Rat × Nat)) :
    (weighted ws).value * ((weighted ws).players : Rat) = sum ws := by
  by_cases h : total Prod.snd ws = 0
  · have hnobody : (weighted ws).players = 0 := h
    rw [sum_eq_zero_of_total h, hnobody, Nat.cast_zero, mul_zero]
  · exact div_mul_cancel₀ _ (Nat.cast_ne_zero.2 h)

/-- The mean over players that takes in more players is the mean over all of them. -/
theorem absorb_weighted (ws : List (Rat × Nat)) (value : Rat) (players : Nat) :
    (weighted ws).absorb value players = weighted (ws ++ [(value, players)]) := by
  have htotal : total Prod.snd (ws ++ [(value, players)]) = total Prod.snd ws + players :=
    total_append _ _ _
  have hsum : sum (ws ++ [(value, players)]) =
      (weighted ws).value * ((weighted ws).players : Rat) + value * (players : Rat) := by
    rw [weighted_value_mul_players, sum_append]
    exact congrArg _ (List.sum_singleton)
  by_cases h : total Prod.snd ws + players = 0
  · -- Nobody is there, and nobody comes.
    have hnobody : total Prod.snd ws = 0 := (Nat.add_eq_zero_iff.1 h).1
    have hsame : (weighted ws).absorb value players = weighted ws := if_pos h
    rw [hsame, weighted, weighted, htotal, h, hnobody, Nat.cast_zero, div_zero, div_zero]
  · have htaken : (weighted ws).absorb value players =
        ⟨((weighted ws).value * ((weighted ws).players : Rat) + value * (players : Rat)) /
            (total Prod.snd ws + players : Nat), total Prod.snd ws + players⟩ := if_neg h
    rw [htaken, ← hsum, ← htotal]
    rfl

theorem weighted_congr (h : ws.Perm ws') : weighted ws = weighted ws' := by
  rw [weighted, weighted, sum, sum, (h.map _).sum_eq, total_eq_of_perm _ h]

end RunningMean

/-! ## What counts -/

/-- The number of a ticket, and for how many players it counts. -/
def Ticket.weight (k : String) (t : Ticket Rat) : Rat × Nat := (t.average k, t.players)

theorem Ticket.weight_unflexed (k : String) (t : Ticket Rat) :
    t.unflexed.weight k = t.weight k := by
  rw [weight, unflexed_average, weight]
  exact congrArg _ (List.length_map _)

/-- The number of a party, and for how many players it counts. -/
def Party.weight (k : String) (p : Party Rat) : Rat × Nat :=
  ((Scalar.mean? (p.members.filterMap fun m => m.attributes.scalar? k)).getD
    ((p.attributes.scalar? k).getD (Scalar.ofNat 0)), p.players)

/-- Roles are no matter. -/
@[simp] theorem Party.weight_bare (k : String) (p : Party Rat) : p.bare.weight k = p.weight k := by
  have hmembers : p.bare.members.filterMap (fun m => m.attributes.scalar? k) =
      p.members.filterMap fun m => m.attributes.scalar? k := List.filterMap_map
  rw [weight, hmembers, bare_players]
  rfl

theorem Party.weight_ofBare (k : String) (t : Ticket Rat) :
    (Party.ofBare t).weight k = t.weight k := weight_bare k (.ofTicket t)

theorem Party.IsOf.weight {p : Party Rat} {t : Ticket Rat} (h : p.IsOf t) (k : String) :
    p.weight k = t.weight k := by
  obtain ⟨roles, rfl⟩ := h
  rw [← weight_bare, bare_assignRoles]
  exact weight_ofBare k t

namespace Session

variable {s s' : Session Rat} {ts : List (Ticket Rat)}

/-- The numbers of the parties of a session. -/
def weights (s : Session Rat) (k : String) : List (Rat × Nat) := s.parties.map (Party.weight k)

theorem total_weights (s : Session Rat) (k : String) :
    total Prod.snd (s.weights k) = s.players := by
  rw [weights, total_map, parties, List.flatMap_def, total_flatten, total_map]
  rfl

theorem Seats.weights {teams : List (List (Ticket Rat))} (h : s.Seats teams) (k : String) :
    s.weights k = teams.flatten.map (Ticket.weight k) := by
  have hbare := congrArg (List.map (Party.weight k)) h.parties
  simp only [List.map_map, Function.comp_def, Party.weight_bare, Party.weight_ofBare] at hbare
  exact hbare

theorem Gains.weights (h : s.Gains s' ts) (k : String) :
    (s'.weights k).Perm (s.weights k ++ ts.map (Ticket.weight k)) := by
  obtain ⟨ps, hperm, hps⟩ := h.parties
  have hjoined : ps.map (Party.weight k) = ts.map (Ticket.weight k) := by
    clear hperm h
    induction hps with
    | nil => rfl
    | cons hp _ ih => rw [List.map_cons, List.map_cons, hp.weight, ih]
  rw [← hjoined, Session.weights, Session.weights, ← List.map_append]
  exact hperm.map _

/-- A session has recorded the mean over its players. -/
def Averages (s : Session Rat) (k : String) : Prop :=
  s.means.get? k = some (.weighted (s.weights k))

/-- The stage of a session is no matter of its means. -/
theorem averages_refresh (b : Bounds) (gained : Bool) (k : String) :
    (s.refresh b gained).Averages k ↔ s.Averages k := by
  rw [refresh]
  split_ifs <;> exact Iff.rfl

end Session

/-! ## A session is formed -/

/-- An entry that all entries of its name agree with is in the dictionary. -/
theorem Dict.get?_ofList_of_forall {β : Type} {es : List (String × β)} {k : String} {v : β}
    (hmem : (k, v) ∈ es) (hes : ∀ e ∈ es, e.1 = k → e.2 = v) : (ofList es).get? k = some v := by
  -- The induction is from the end of the list, as a later entry replaces an earlier one.
  induction es using List.reverseRecOn with
  | nil => cases hmem
  | append_singleton es e ih =>
    rw [ofList, List.foldl_append, List.foldl_cons, List.foldl_nil, get?_insert]
    split_ifs with hk
    · rw [hes e (List.mem_append_right _ (List.mem_singleton_self e)) hk.symm]
    · refine ih ?_ fun e' he' => hes e' (List.mem_append_left _ he')
      refine (List.mem_append.1 hmem).resolve_right fun he => hk ?_
      rw [← List.mem_singleton.1 he]

theorem RuleSet.get?_means {α : Type} [Scalar α] {r : RuleSet α} {k : String} (hk : k ∈ r.keys)
    (ts : List (Ticket α)) : (r.means ts).get? k = some (meanOver k ts) := by
  rw [means_eq_ofList_keys]
  refine Dict.get?_ofList_of_forall (List.mem_map_of_mem hk) fun e he heq => ?_
  obtain ⟨k', _, rfl⟩ := List.mem_map.1 he
  exact congrArg (meanOver · ts) heq

theorem RunningMean.foldl_absorb_weighted (k : String) (ws : List (Rat × Nat))
    (ts : List (Ticket Rat)) :
    ts.foldl (fun m t => m.absorb (t.average k) t.players) (weighted ws) =
      weighted (ws ++ ts.map (Ticket.weight k)) := by
  induction ts generalizing ws with
  | nil => rw [List.map_nil, List.append_nil, List.foldl_nil]
  | cons t ts ih =>
    rw [List.foldl_cons, absorb_weighted, ih, List.append_assoc]
    rfl

theorem RuleSet.meanOver_eq_weighted (k : String) (ts : List (Ticket Rat)) :
    meanOver k ts = .weighted (ts.map (Ticket.weight k)) := by
  have hnobody : (⟨Scalar.ofNat 0, 0⟩ : RunningMean Rat) = .weighted [] := by
    rw [RunningMean.weighted, RunningMean.sum, List.map_nil, List.sum_nil, zero_div]
    rfl
  rw [meanOver, hnobody, RunningMean.foldl_absorb_weighted, List.nil_append]

namespace Formation

variable {f : Formation Rat} {s : Session Rat} {k : String}

/-- A new session records the mean over its players of what they are matched by. -/
theorem Forms.averages {queue : List (Ticket Rat)} (hid : (queue.map (·.id)).Nodup)
    (h : f.Forms queue s) (hk : k ∈ f.rules.keys) : s.Averages k := by
  cases h with
  | @round pivot rest a m hsub _ hm =>
    obtain ⟨teams, hteams⟩ := assembly?_teams hm
    have hpool : ((pivot :: rest).map (·.id)).Nodup := hid.sublist (hsub.map _)
    have hseats := f.session_seats pivot a hpool hteams.tickets hteams.subperm.subset
    have hkeys : k ∈ (f.activeRules pivot a.mode).keys :=
      (f.rules.keys_flexedAt pivot.createdAt f.now).symm ▸ hk
    rw [Session.Averages, hseats.weights, ← RuleSet.meanOver_eq_weighted,
      ← Teams.ticketsOf hteams hpool]
    exact RuleSet.get?_means hkeys _
  | @solo t _ ht _ =>
    rw [Session.Averages, (f.soloSession_seats t).weights, ← RuleSet.meanOver_eq_weighted]
    exact RuleSet.get?_means hk _

end Formation

/-! ## A session is filled -/

namespace Backfill

section

variable {α : Type} [Scalar α]

/-- A ticket that joins is taken in once for every rule about an attribute. -/
theorem get?_meansWith (rules : RuleSet α) (s : Session α) (t : Ticket α) (k : String) :
    (meansWith rules s t).get? k =
      (fun m : Option (RunningMean α) =>
        some ((m.getD ⟨s.average k, s.players⟩).absorb (t.average k) t.players))^[rules.keys.count k]
          (s.means.get? k) := by
  rw [meansWith, RuleSet.keys]
  generalize s.means = means
  induction rules.distances generalizing means with
  | nil => rfl
  | cons d ds ih =>
    rw [List.foldl_cons, ih, List.map_cons, List.count_cons, Dict.update, Dict.get?_insert]
    by_cases hk : k = d.key
    · rw [if_pos hk, hk, beq_self_eq_true, if_pos rfl, Function.iterate_succ_apply]
    · rw [if_neg hk, if_neg (by simpa using Ne.symm hk), Nat.add_zero]

end

variable {b : Backfill Rat} {rules : RuleSet Rat} {s s' : Session Rat} {k : String}

/-- With one rule about an attribute, the mean over the players of a session is the mean
    over its players once a ticket has joined. -/
theorem averages_add {t : Ticket Rat} {p : Placement} (hk : rules.keys.count k = 1)
    (hp : place? rules t s = some p) (hs : s.Averages k) : (add rules s t p).Averages k := by
  have hweights := (gains_add hp).weights k
  have hmeans : (add rules s t p).means.get? k =
      some ((RunningMean.weighted (s.weights k)).absorb (t.average k) t.players) := by
    refine (get?_meansWith rules s t k).trans ?_
    rw [hk, Function.iterate_one, hs, Option.getD_some]
  rw [Session.Averages, hmeans, RunningMean.absorb_weighted, RunningMean.weighted_congr hweights]
  rfl

theorem Fills.averages {ts : List (Ticket Rat)} (h : Fills rules s ts s')
    (hk : rules.keys.count k = 1) (hs : s.Averages k) : s'.Averages k := by
  induction h with
  | done s => exact hs
  | join hp _ ih => exact ih ((Session.averages_refresh _ _ k).2 (averages_add hk hp hs))

/-- A run that fills open sessions keeps the means of each of them. -/
theorem run_averages (hk : b.rules.keys.count k = 1) (budget : Budget)
    (os : List (OpenSession Rat)) (pool : List (Ticket Rat)) :
    ∃ fs, b.Accounts (b.run budget os pool) (sortBy OpenSession.rank os) pool fs ∧
      ∀ f ∈ fs, f.before.session.Averages k → f.after.session.Averages k := by
  obtain ⟨fs, haccounts, hattended⟩ := b.run_accounts budget os pool
  refine ⟨fs, haccounts, fun f hf hs => ?_⟩
  rcases hattended f hf with ⟨_, _, _, hattends⟩ | ⟨_, o, rfl⟩
  · obtain ⟨m, hfills, hafter⟩ := hattends.fills
    have hkeys : (b.activeRules f.before.session).keys.count k = 1 :=
      (congrArg (List.count k) (b.rules.keys_flexedAt _ b.now)).trans hk
    rw [hafter, Session.averages_refresh]
    exact hfills.fills.averages hkeys hs
  · exact hs

end Backfill

/-! ## The course of a session -/

namespace Formation

/-- The course of a session, with its tickets: it is formed from tickets with ids of their
    own, gets an id, and is filled under the same rules in any number of runs. -/
inductive Course (f : Formation Rat) : Session Rat → List (Ticket Rat) → Prop
  | formed {budget : Budget} {ts : List (Ticket Rat)} {s : Session Rat} (id : String)
    (hid : Ticket.Distinct ts) (hs : s ∈ (f.run budget ts).sessions) :
    Course f { s with id := id } (s.ticketsIn ts)
  | filled {b : Backfill Rat} {pool ts joined : List (Ticket Rat)} {s s' : Session Rat}
    (h : Course f s ts) (hrules : b.rules = f.rules) (hext : b.Extends pool s s' joined) :
    Course f s' (ts ++ joined)

variable {f : Formation Rat} {s : Session Rat} {ts : List (Ticket Rat)} {k : String}

theorem Course.averages (h : f.Course s ts) (hk : f.rules.keys.count k = 1) : s.Averages k := by
  induction h with
  | formed id hid hs =>
    have hmem : k ∈ f.rules.keys := List.count_pos_iff.1 (hk ▸ Nat.one_pos)
    have haverages := (forms_of_mem_run hid hs).averages (queue_nodup hid) hmem
    exact haverages
  | @filled b _ _ _ _ _ _ hrules hext ih =>
    cases hext with
    | run hrun _ _ =>
      obtain ⟨fs, haccounts, hkeeps⟩ :=
        Backfill.run_averages (b := b) (hrules ▸ hk) _ _ _
      obtain ⟨filling, hfilling, rfl, rfl⟩ := haccounts.exists_filling hrun
      exact hkeeps filling hfilling ih

/-- The parties of a session are those of its tickets. -/
theorem Course.weights (h : f.Course s ts) (k : String) :
    (s.weights k).Perm (ts.map (Ticket.weight k)) := by
  induction h with
  | formed id hid hs =>
    obtain ⟨pivot, others, teams, hfounds⟩ := (forms_of_mem_run hid hs).founds (queue_nodup hid)
    have hunflexed := (hfounds.unflexed_perm hid).map (Ticket.weight k)
    simp only [List.map_map, Function.comp_def, Ticket.weight_unflexed] at hunflexed
    have hseats := hfounds.seats.weights k
    exact (hseats ▸ (hfounds.perm.symm.map _)).trans hunflexed
  | filled _ _ hext ih =>
    cases hext with
    | run _ _ hgains =>
      rw [List.map_append]
      exact (hgains.weights k).trans (ih.append_right _)

/-- In exact arithmetic, and with one rule about an attribute, the mean that a session has
    recorded is that over all players of its tickets. -/
theorem Course.means_exact (h : f.Course s ts) (hk : (f.rules.distances.map (·.key)).count k = 1) :
    s.players = Ticket.totalPlayers ts ∧
      s.means.get? k =
        some ⟨(ts.map fun t => t.average k * (t.players : Rat)).sum / (s.players : Rat),
          s.players⟩ := by
  have hplayers : s.players = Ticket.totalPlayers ts := by
    rw [← s.total_weights k, total_eq_of_perm _ (h.weights k), total_map]
    rfl
  refine ⟨hplayers, (h.averages hk).trans (congrArg some ?_)⟩
  rw [RunningMean.weighted_congr (h.weights k), RunningMean.weighted, RunningMean.sum,
    List.map_map, total_map, hplayers]
  rfl

/-! ### A scrim -/

/-- Matches of one or two players, each a team of its own, under rules about distances. -/
def scrim (distances : List (DistanceRule Rat)) : Formation Rat where
  rules := { RuleSet.ofAlliance (.ofBounds ⟨1, 2, 1, 1⟩) with
    distances := distances
    autoBackfill := true }
  channel := "scrim"
  now := .ofNanos 0
  cap := 1

/-- Players of a scrim are rated alike. -/
def scrimRule : DistanceRule Rat := ⟨"rating", 1000, none, none⟩

/-- The ticket of a player with a rating. -/
def contender (id : String) (rating : Rat) : Ticket Rat where
  id := id
  channel := "scrim"
  partyId := id
  members := [.ofId id]
  attributes := .ofList [("rating", .number rating)]
  priority := 0
  createdAt := .ofNanos 0
  latencies := ∅
  excluded := []

/-- A match is filled with a second player, and the mean is that of the two. -/
theorem scrim_means : ((scrim [scrimRule]).rules.distances.map (·.key)).count "rating" = 1 ∧
    ∃ s, (scrim [scrimRule]).Course s [contender "a" 1000, contender "b" 1600] ∧
      s.players = Ticket.totalPlayers [contender "a" 1000, contender "b" 1600] ∧
        s.means.get? "rating" =
          some ⟨([contender "a" 1000, contender "b" 1600].map fun t =>
            t.average "rating" * (t.players : Rat)).sum / (s.players : Rat), s.players⟩ := by
  have hk : ((scrim [scrimRule]).rules.distances.map (·.key)).count "rating" = 1 := by decide
  obtain ⟨s, hs, hids, hleft⟩ : ∃ s ∈ ((scrim [scrimRule]).run .unlimited
      [contender "a" 1000]).sessions, s.ticketIds = ["a"] ∧
        ((⟨(scrim [scrimRule]).rules, .ofNanos 0⟩ : Backfill Rat).run .unlimited
          [⟨"open", { s with id := "m" }⟩] [contender "b" 1600]).unmatched = [] := by
    rw [run_unlimited_sessions (by decide) (by decide +kernel) (by decide +kernel)]
    decide +kernel
  obtain ⟨s', hext⟩ := Backfill.exists_extends hleft
  have hticket : s.ticketsIn [contender "a" 1000] = [contender "a" 1000] := by
    rw [Session.ticketsIn, hids]
    decide
  have hformed : (scrim [scrimRule]).Course { s with id := "m" } [contender "a" 1000] :=
    hticket ▸ Course.formed "m" (by decide) hs
  have hcourse : (scrim [scrimRule]).Course s' [contender "a" 1000, contender "b" 1600] :=
    hformed.filled rfl hext
  exact ⟨hk, s', hcourse, hcourse.means_exact hk⟩

/-- With two rules about one attribute the second player counts twice. -/
theorem scrim_counts_twice : (scrim [scrimRule, scrimRule]).rules.fault? = none ∧
    ∃ s ∈ ((scrim [scrimRule, scrimRule]).run .unlimited [contender "a" 1000]).sessions,
      ∃ o ∈ ((⟨(scrim [scrimRule, scrimRule]).rules, .ofNanos 0⟩ : Backfill Rat).run .unlimited
          [⟨"open", { s with id := "m" }⟩] [contender "b" 1600]).sessions,
        o.session.ticketIds = ["a", "b"] ∧ o.session.players = 2 ∧
          o.session.means.get? "rating" = some ⟨1400, 3⟩ := by
  refine ⟨by decide +kernel, ?_⟩
  rw [run_unlimited_sessions (by decide) (by decide +kernel) (by decide +kernel)]
  decide +kernel

end Formation

end Matchmaking
