import Mathlib.Data.Prod.Lex
import Mathlib.Order.WellFounded
import Matchmaking.Proofs.Formation.Conservation

/-!
# The loop

Rounds are run by a loop that is at one of these stages: it selects a pivot, searches a
match for it in one attempt after the other, hands out the session of a match, is done, or
has broken off (`Formation.step`). Before a pivot is selected the loop looks at the clock.

What a step can do is said once (`Formation.Turn`, `Formation.turn_step`), and the rest
follows from it, turn by turn:

* the pool has tickets of different ids, the pivot of a search is its head and a session
  has a ticket of it (`Formation.Sound`);
* every turn comes closer to the end: the pool gets smaller, or the loop gets to a later
  stage, or there is one attempt less (`Process.rank`, `Formation.Turn.rank_lt`);
* no turn changes what the rounds will have come to in the end
  (`Formation.Turn.promise_eq`).

So the loop ends, and it ends with what rounds form. It breaks off where rounds do: not if
all numbers fit that it computes with, but else it may (`Formation.horde_never_done`).
-/

namespace Matchmaking

variable {α : Type}

/-! ## The machine -/

/-- What a loop does next. -/
inductive Stage (α : Type) where
  /-- It selects a pivot. -/
  | select
  /-- It searches a match for a pivot in the attempts that are untried. -/
  | search (pivot : Ticket α) (untried : List Attempt)
  /-- It hands out a session. -/
  | emit (s : Session α)
  /-- It does nothing any more. -/
  | done
  /-- It has broken off. -/
  | broken (e : Failure)

namespace Stage

/-- A loop at its end. -/
inductive IsEnd : Stage α → Prop
  | done : IsEnd .done
  | broken (e : Failure) : IsEnd (.broken e)

/-- What a loop comes to that does nothing with a pool any more. -/
def outcome (pool : List (Ticket α)) : Stage α → Formed α
  | .broken e => .broken e pool
  | _ => .leave pool

end Stage

/-- A loop under way. -/
structure Process (α : Type) where
  /-- What it does next. -/
  stage : Stage α
  /-- The tickets that have no place yet. -/
  pool : List (Ticket α)
  /-- What was formed, and the pivots that were dropped. -/
  formed : Formed α
  /-- The time that is left. -/
  time : Budget

namespace Formed

/-- A pivot is dropped. -/
def addDropped (r : Formed α) (pivot : Ticket α) : Formed α :=
  { r with unmatched := r.unmatched ++ [pivot], dropped := r.dropped + 1 }

/-- A session is formed. -/
def addSession (r : Formed α) (s : Session α) : Formed α :=
  { r with sessions := r.sessions ++ [s] }

/-- What was formed, and then what is formed later. Roles were given up before. -/
def append (r later : Formed α) : Formed α where
  sessions := r.sessions ++ later.sessions
  unmatched := r.unmatched ++ later.unmatched
  dropped := r.dropped + later.dropped
  flexed := r.flexed
  outOfBudget := r.outOfBudget || later.outOfBudget
  failure := later.failure

theorem addDropped_append (r later : Formed α) (pivot : Ticket α) :
    (r.addDropped pivot).append later = r.append (later.drop pivot) := by
  simp [append, addDropped, drop, Nat.add_assoc, Nat.add_comm 1]

theorem addSession_append (r later : Formed α) (s : Session α) :
    (r.addSession s).append later = r.append (later.emit s) := by
  simp [append, addSession, emit]

end Formed

/-- What a loop comes to at its end. -/
def Process.outcome (p : Process α) : Formed α := p.formed.append (p.stage.outcome p.pool)

namespace Formation

variable [Scalar α] (f : Formation α)

/-- The loop with the head of a pool as the pivot, unless the pool is too small for a
    match, or for one of the pivot. -/
def selectFrom (formed : Formed α) (time : Budget) : List (Ticket α) → Process α
  | [] => ⟨.done, [], formed, time⟩
  | pivot :: rest =>
    let players := Ticket.totalPlayers (pivot :: rest)
    if !f.rules.countsLeast then ⟨.broken .overflow, pivot :: rest, formed, time⟩
    else if players < f.rules.minPlayers then ⟨.done, pivot :: rest, formed, time⟩
    else if players < f.minPlayersFor pivot then ⟨.select, rest, formed.addDropped pivot, time⟩
    else ⟨.search pivot (f.attempts pivot), pivot :: rest, formed, time⟩

/-- One turn of the loop. -/
def step : Process α → Process α
  | ⟨.select, pool, formed, time⟩ =>
    if pool.isEmpty then ⟨.done, pool, formed, time⟩
    else
      match time.read? with
      | none => ⟨.done, pool, { formed with outOfBudget := true }, time⟩
      | some time => f.selectFrom formed time (Ticket.sortQueue pool)
  | ⟨.search pivot [], pool, formed, time⟩ =>
    ⟨.select, Ticket.without [pivot.id] pool, formed.addDropped pivot, time⟩
  | ⟨.search pivot (a :: untried), pool, formed, time⟩ =>
    match f.attempt pivot pool a with
    | .error e => ⟨.broken e, pool, formed, time⟩
    | .ok (some s) => ⟨.emit s, pool, formed, time⟩
    | .ok none => ⟨.search pivot untried, pool, formed, time⟩
  | ⟨.emit s, pool, formed, time⟩ =>
    ⟨.select, Ticket.without s.ticketIds pool, formed.addSession s, time⟩
  | ⟨.done, pool, formed, time⟩ => ⟨.done, pool, formed, time⟩
  | ⟨.broken e, pool, formed, time⟩ => ⟨.broken e, pool, formed, time⟩

/-- The loop at its start: roles were given up, and nothing was formed. -/
def start (budget : Budget) (ts : List (Ticket α)) : Process α where
  stage := .select
  pool := f.rules.flexRoles f.now ts
  formed := { Formed.leave [] with flexed := f.rules.flexedNow f.now ts }
  time := budget

/-- The loop after some turns. -/
def after (budget : Budget) (ts : List (Ticket α)) : Nat → Process α
  | 0 => f.start budget ts
  | n + 1 => f.step (after budget ts n)

/-! ## Turns -/

/-- What a turn can do. -/
inductive Turn (f : Formation α) : Process α → Process α → Prop
  /-- There is nobody left. -/
  | empty {formed : Formed α} {time : Budget} :
    Turn f ⟨.select, [], formed, time⟩ ⟨.done, [], formed, time⟩
  /-- There is no time left. -/
  | late {pool : List (Ticket α)} {formed : Formed α} : pool ≠ [] →
    Turn f ⟨.select, pool, formed, .spent⟩
      ⟨.done, pool, { formed with outOfBudget := true }, .spent⟩
  /-- A least number of players is no word. -/
  | uncounted {pool : List (Ticket α)} {pivot : Ticket α} {rest : List (Ticket α)}
    {formed : Formed α} {time time' : Budget} : time.read? = some time' →
    Ticket.sortQueue pool = pivot :: rest → f.rules.countsLeast = false →
    Turn f ⟨.select, pool, formed, time⟩ ⟨.broken .overflow, pivot :: rest, formed, time'⟩
  /-- There are too few players for any match. -/
  | few {pool : List (Ticket α)} {pivot : Ticket α} {rest : List (Ticket α)} {formed : Formed α}
    {time time' : Budget} : time.read? = some time' →
    Ticket.sortQueue pool = pivot :: rest → f.rules.countsLeast = true →
    Ticket.totalPlayers (pivot :: rest) < f.rules.minPlayers →
    Turn f ⟨.select, pool, formed, time⟩ ⟨.done, pivot :: rest, formed, time'⟩
  /-- There are too few players for a match of the pivot. -/
  | drop {pool : List (Ticket α)} {pivot : Ticket α} {rest : List (Ticket α)} {formed : Formed α}
    {time time' : Budget} : time.read? = some time' →
    Ticket.sortQueue pool = pivot :: rest → f.rules.countsLeast = true →
    f.rules.minPlayers ≤ Ticket.totalPlayers (pivot :: rest) →
    Ticket.totalPlayers (pivot :: rest) < f.minPlayersFor pivot →
    Turn f ⟨.select, pool, formed, time⟩ ⟨.select, rest, formed.addDropped pivot, time'⟩
  /-- A pivot is selected. -/
  | pivot {pool : List (Ticket α)} {pivot : Ticket α} {rest : List (Ticket α)} {formed : Formed α}
    {time time' : Budget} : time.read? = some time' →
    Ticket.sortQueue pool = pivot :: rest → f.rules.countsLeast = true →
    f.rules.minPlayers ≤ Ticket.totalPlayers (pivot :: rest) →
    f.minPlayersFor pivot ≤ Ticket.totalPlayers (pivot :: rest) →
    Turn f ⟨.select, pool, formed, time⟩
      ⟨.search pivot (f.attempts pivot), pivot :: rest, formed, time'⟩
  /-- No attempt is left for the pivot. -/
  | giveUp {pivot : Ticket α} {pool : List (Ticket α)} {formed : Formed α} {time : Budget} :
    Turn f ⟨.search pivot [], pool, formed, time⟩
      ⟨.select, Ticket.without [pivot.id] pool, formed.addDropped pivot, time⟩
  /-- An attempt breaks off. -/
  | fail {pivot : Ticket α} {a : Attempt} {untried : List Attempt} {pool : List (Ticket α)}
    {formed : Formed α} {time : Budget} {e : Failure} : f.attempt pivot pool a = .error e →
    Turn f ⟨.search pivot (a :: untried), pool, formed, time⟩ ⟨.broken e, pool, formed, time⟩
  /-- An attempt finds a match. -/
  | hit {pivot : Ticket α} {a : Attempt} {untried : List Attempt} {pool : List (Ticket α)}
    {formed : Formed α} {time : Budget} {s : Session α} :
    f.attempt pivot pool a = .ok (some s) →
    Turn f ⟨.search pivot (a :: untried), pool, formed, time⟩ ⟨.emit s, pool, formed, time⟩
  /-- An attempt finds no match. -/
  | miss {pivot : Ticket α} {a : Attempt} {untried : List Attempt} {pool : List (Ticket α)}
    {formed : Formed α} {time : Budget} : f.attempt pivot pool a = .ok none →
    Turn f ⟨.search pivot (a :: untried), pool, formed, time⟩
      ⟨.search pivot untried, pool, formed, time⟩
  /-- A session takes its tickets out of the pool. -/
  | emit {s : Session α} {pool : List (Ticket α)} {formed : Formed α} {time : Budget} :
    Turn f ⟨.emit s, pool, formed, time⟩
      ⟨.select, Ticket.without s.ticketIds pool, formed.addSession s, time⟩
  /-- The loop is at its end, and stays so. -/
  | rest {p : Process α} : p.stage.IsEnd → Turn f p p

variable {f}

theorem turn_step (f : Formation α) (p : Process α) : f.Turn p (f.step p) := by
  obtain ⟨stage, pool, formed, time⟩ := p
  cases stage with
  | select =>
    rw [step]
    split_ifs with hempty
    · obtain rfl := List.isEmpty_iff.1 hempty
      exact .empty
    · cases hread : time.read? with
      | none =>
        obtain rfl := Budget.eq_spent_of_read? hread
        exact .late fun hpool => hempty (List.isEmpty_iff.2 hpool)
      | some time' =>
        cases hsorted : Ticket.sortQueue pool with
        | nil =>
          -- Sorting loses nobody.
          have hpool := Ticket.sortQueue_perm pool
          rw [hsorted] at hpool
          exact absurd (List.isEmpty_iff.2 hpool.symm.eq_nil) hempty
        | cons pivot rest =>
          simp only [selectFrom]
          split_ifs with hcounts hmin hfew
          · exact .uncounted hread hsorted (by simpa using hcounts)
          · exact .few hread hsorted (by simpa using hcounts) hmin
          · exact .drop hread hsorted (by simpa using hcounts) (Nat.le_of_not_lt hmin) hfew
          · exact .pivot hread hsorted (by simpa using hcounts) (Nat.le_of_not_lt hmin)
              (Nat.le_of_not_lt hfew)
  | search pivot untried =>
    cases untried with
    | nil => exact .giveUp
    | cons a untried =>
      rw [step]
      split
      · exact .fail ‹_›
      · exact .hit ‹_›
      · exact .miss ‹_›
  | emit s => exact .emit
  | done => exact .rest .done
  | broken e => exact .rest (.broken e)

/-! ## What every turn keeps -/

/-- What is known of a loop that began with a number of tickets: the ids of the tickets
    of its pool are different, none of the tickets counts twice, the pivot of a search is
    the head of the pool, and a session has a ticket of it. -/
structure Sound (size : Nat) (p : Process α) : Prop where
  nodup : (p.pool.map (·.id)).Nodup
  count : p.formed.sessions.length + p.formed.dropped + p.pool.length ≤ size
  head : ∀ {pivot : Ticket α} {untried : List Attempt},
    p.stage = .search pivot untried → ∃ rest, p.pool = pivot :: rest
  emits : ∀ {s : Session α}, p.stage = .emit s → ∃ t ∈ p.pool, t.id ∈ s.ticketIds

variable {size : Nat} {p p' : Process α}

omit [Scalar α] in
theorem Sound.pivot_mem {pivot : Ticket α} {untried : List Attempt} (hp : Sound size p)
    (hstage : p.stage = .search pivot untried) : pivot ∈ p.pool := by
  obtain ⟨rest, hrest⟩ := hp.head hstage
  exact hrest ▸ List.mem_cons_self

/-- The pivot that was searched for is in the session that is found. -/
theorem Sound.pivot_id_mem {pivot : Ticket α} {untried : List Attempt} {a : Attempt}
    {s : Session α} (hp : Sound size p) (hstage : p.stage = .search pivot untried)
    (hs : f.attempt pivot p.pool a = .ok (some s)) : pivot.id ∈ s.ticketIds := by
  obtain ⟨rest, hrest⟩ := hp.head hstage
  have hid := hp.nodup
  rw [hrest] at hid hs
  exact pivot_mem_of_attempt? hid (attempt_eq_ok_iff.1 hs).2

omit [Scalar α] in
/-- A pool that is put in order loses nobody. -/
theorem Sound.sorted {pool : List (Ticket α)} {formed formed' : Formed α} {time time' : Budget}
    {stage stage' : Stage α} {pivot : Ticket α} {rest : List (Ticket α)}
    (hp : Sound size ⟨stage, pool, formed, time⟩) (hsorted : Ticket.sortQueue pool = pivot :: rest)
    (hformed : formed'.sessions.length + formed'.dropped = formed.sessions.length + formed.dropped)
    (hhead : ∀ {pivot' untried}, stage' = .search pivot' untried → pivot' = pivot)
    (hemit : ∀ {s}, stage' ≠ .emit s) : Sound size ⟨stage', pivot :: rest, formed', time'⟩ := by
  have hperm := Ticket.perm_of_sortQueue hsorted
  refine ⟨(hperm.map _).nodup_iff.2 hp.nodup, ?_, fun h => ⟨rest, ?_⟩, fun h => absurd h hemit⟩
  · have hcount := hp.count
    have hlength := hperm.length_eq
    simp only at hcount ⊢
    omega
  · rw [hhead h]

theorem Turn.sound (h : f.Turn p p') (hp : Sound size p) : Sound size p' := by
  have hcount := hp.count
  cases h with
  | empty => exact ⟨hp.nodup, hcount, nofun, nofun⟩
  | late => exact ⟨hp.nodup, hcount, nofun, nofun⟩
  | uncounted _ hsorted => exact hp.sorted hsorted rfl nofun nofun
  | few _ hsorted => exact hp.sorted hsorted rfl nofun nofun
  | drop _ hsorted =>
    have hperm := Ticket.perm_of_sortQueue hsorted
    have hlength := hperm.length_eq
    refine ⟨(List.nodup_cons.1 ((hperm.map _).nodup_iff.2 hp.nodup)).2, ?_, nofun, nofun⟩
    simp only [Formed.addDropped, List.length_cons] at hlength hcount ⊢
    omega
  | pivot _ hsorted =>
    refine hp.sorted hsorted rfl ?_ nofun
    rintro _ _ ⟨⟩
    rfl
  | @giveUp pivot pool formed =>
    have hshorter : (Ticket.without [pivot.id] pool).length < pool.length :=
      Ticket.length_without_lt (hp.pivot_mem rfl) (List.mem_singleton_self _)
    refine ⟨hp.nodup.sublist ((Ticket.without_sublist _ _).map _), ?_, nofun, nofun⟩
    simp only [Formed.addDropped] at hcount ⊢
    omega
  | fail => exact ⟨hp.nodup, hcount, nofun, nofun⟩
  | hit hs =>
    refine ⟨hp.nodup, hcount, nofun, ?_⟩
    rintro _ ⟨⟩
    exact ⟨_, hp.pivot_mem rfl, hp.pivot_id_mem rfl hs⟩
  | miss =>
    refine ⟨hp.nodup, hcount, ?_, nofun⟩
    rintro _ _ ⟨⟩
    exact hp.head rfl
  | @emit s pool formed =>
    obtain ⟨t, ht, hts⟩ := hp.emits rfl
    have hshorter : (Ticket.without s.ticketIds pool).length < pool.length :=
      Ticket.length_without_lt ht hts
    refine ⟨hp.nodup.sublist ((Ticket.without_sublist _ _).map _), ?_, nofun, nofun⟩
    simp only [Formed.addSession, List.length_append, List.length_singleton] at hcount ⊢
    omega
  | rest => exact hp

/-- A session that is handed out was searched for a pivot, and has it. -/
theorem Turn.exists_pivot (h : f.Turn p p') (hp : Sound size p) {s : Session α}
    (hemit : p'.stage = .emit s) :
    ∃ pivot untried, p.stage = .search pivot untried ∧ pivot.id ∈ s.ticketIds := by
  cases h with
  | hit hs =>
    cases hemit
    exact ⟨_, _, rfl, hp.pivot_id_mem rfl hs⟩
  | rest hend =>
    rw [hemit] at hend
    cases hend
  | _ => cases hemit

theorem Turn.eq_of_isEnd (h : f.Turn p p') (hp : p.stage.IsEnd) : p' = p := by
  cases h with
  | rest => rfl
  | _ => cases hp

/-- A loop breaks off at bounds that do not fit. -/
theorem Turn.exists_bounds (h : f.Turn p p') {e : Failure} (hp' : p'.stage = .broken e) :
    p.stage = .broken e ∨ ∃ b ∈ f.rules.allBounds, ¬b.Fits := by
  cases h with
  | @uncounted pool pivot rest _ _ _ _ _ hcounts =>
    have hbroken : f.BreaksOff pivot pool .overflow := .uncounted hcounts
    exact .inr hbroken.exists_bounds
  | fail he =>
    rw [attempt] at he
    split at he
    · exact .inr (exists_bounds_of_searchFailure? ‹_›)
    · cases he
  | rest => exact .inl hp'
  | _ => cases hp'

/-! ## Every turn comes closer to the end -/

end Formation

/-- How far a stage is from the end of its turn around the loop. -/
def Stage.rank : Stage α → ℕ ×ₗ ℕ
  | .select => toLex (2, 0)
  | .search _ untried => toLex (1, untried.length + 1)
  | .emit _ => toLex (1, 0)
  | .done => toLex (0, 0)
  | .broken _ => toLex (0, 0)

/-- How far a loop is from its end: by the size of its pool, then by its stage. -/
def Process.rank (p : Process α) : ℕ ×ₗ ℕ ×ₗ ℕ := toLex (p.pool.length, p.stage.rank)

theorem Process.rank_lt_of_length {p p' : Process α} (h : p'.pool.length < p.pool.length) :
    p'.rank < p.rank := Prod.Lex.toLex_lt_toLex.2 (.inl h)

theorem Process.rank_lt_of_stage {p p' : Process α} (h : p'.pool.length = p.pool.length)
    (hstage : p'.stage.rank < p.stage.rank) : p'.rank < p.rank :=
  Prod.Lex.toLex_lt_toLex.2 (.inr ⟨h, hstage⟩)

theorem Stage.rank_lt {a b c d : ℕ} (h : a < c ∨ a = c ∧ b < d) :
    (toLex (a, b) : ℕ ×ₗ ℕ) < toLex (c, d) := Prod.Lex.toLex_lt_toLex.2 h

namespace Formation

variable [Scalar α] {f : Formation α} {size : Nat} {p p' : Process α}

theorem Turn.rank_lt (h : f.Turn p p') (hp : Sound size p) (hstage : ¬p.stage.IsEnd) :
    p'.rank < p.rank := by
  cases h with
  | empty => exact Process.rank_lt_of_stage rfl (Stage.rank_lt (.inl (by decide)))
  | late => exact Process.rank_lt_of_stage rfl (Stage.rank_lt (.inl (by decide)))
  | uncounted _ hsorted =>
    have hperm := Ticket.perm_of_sortQueue hsorted
    exact Process.rank_lt_of_stage hperm.length_eq (Stage.rank_lt (.inl (by decide)))
  | few _ hsorted =>
    have hperm := Ticket.perm_of_sortQueue hsorted
    exact Process.rank_lt_of_stage hperm.length_eq (Stage.rank_lt (.inl (by decide)))
  | drop _ hsorted =>
    have hperm := Ticket.perm_of_sortQueue hsorted
    exact Process.rank_lt_of_length (Nat.lt_of_lt_of_eq (Nat.lt_succ_self _) hperm.length_eq)
  | pivot _ hsorted =>
    have hperm := Ticket.perm_of_sortQueue hsorted
    exact Process.rank_lt_of_stage hperm.length_eq (Stage.rank_lt (.inl (by decide)))
  | giveUp =>
    exact Process.rank_lt_of_length
      (Ticket.length_without_lt (hp.pivot_mem rfl) (List.mem_singleton_self _))
  | fail => exact Process.rank_lt_of_stage rfl (Stage.rank_lt (.inl (by decide)))
  | hit => exact Process.rank_lt_of_stage rfl (Stage.rank_lt (.inr ⟨rfl, Nat.succ_pos _⟩))
  | miss =>
    exact Process.rank_lt_of_stage rfl
      (Stage.rank_lt (.inr ⟨rfl, Nat.succ_lt_succ (Nat.lt_succ_self _)⟩))
  | emit =>
    obtain ⟨t, ht, hts⟩ := hp.emits rfl
    exact Process.rank_lt_of_length (Ticket.length_without_lt ht hts)
  | rest hend => exact absurd hend hstage

/-! ## What the loop comes to -/

/-- What rounds form of what a loop has left. -/
def left (f : Formation α) (time : Budget) (pool : List (Ticket α)) : Stage α → Formed α
  | .select => f.serve time pool
  | .search pivot untried =>
    match f.searchIn pivot pool untried with
    | .error e => .broken e pool
    | .ok none => (f.serve time (Ticket.without [pivot.id] pool)).drop pivot
    | .ok (some s) => (f.serve time (Ticket.without s.ticketIds pool)).emit s
  | .emit s => (f.serve time (Ticket.without s.ticketIds pool)).emit s
  | .done => .leave pool
  | .broken e => .broken e pool

/-- What was formed, and what rounds form of what is left. -/
def promise (f : Formation α) (p : Process α) : Formed α :=
  p.formed.append (f.left p.time p.pool p.stage)

/-- Rounds serve a queue that is in order, whether or not there is time. -/
theorem serve_eq_rounds {queue : List (Ticket α)} (hsorted : Ticket.sortQueue queue = queue)
    (time : Budget) : f.serve time queue = f.rounds time queue := by
  rcases f.serve_cases time queue with ⟨rfl, h⟩ | ⟨-, h⟩
  · rw [h]
    cases queue with
    | nil => rw [rounds]; rfl
    | cons t queue => rw [rounds]; rfl
  · rw [h, hsorted]

theorem serve_of_read {time time' : Budget} (h : time.read? = some time')
    (pool : List (Ticket α)) : f.serve time pool = f.rounds time (Ticket.sortQueue pool) := by
  rcases f.serve_cases time pool with ⟨rfl, -⟩ | ⟨-, hserve⟩
  · cases h
  · exact hserve

omit [Scalar α] in
/-- A part of a queue that is in order is in order. -/
theorem sortQueue_of_sublist {pool : List (Ticket α)} {queue part : List (Ticket α)}
    (h : Ticket.sortQueue pool = queue) (hpart : part.Sublist queue) :
    Ticket.sortQueue part = part :=
  Ticket.sortQueue_eq_self ((h ▸ Ticket.pairwise_sortQueue pool).sublist hpart)

/-- A turn is part of a round. -/
theorem Turn.promise_eq (h : f.Turn p p') (hp : Sound size p) : f.promise p' = f.promise p := by
  cases h with
  | @empty formed time =>
    simp only [promise, left]
    rw [serve_eq_rounds (Ticket.sortQueue_eq_self .nil), rounds]
  | @late pool formed hpool =>
    have hlate : (!pool.isEmpty) = true := by simpa using hpool
    simp [promise, left, serve, Formed.append, Formed.leave, hlate]
  | uncounted hread hsorted hcounts =>
    simp only [promise, left]
    rw [serve_of_read hread, hsorted, rounds]
    simp only [hread, hcounts]
    rfl
  | few hread hsorted hcounts hmin =>
    simp only [promise, left]
    rw [serve_of_read hread, hsorted, rounds]
    simp only [hread, hcounts, if_pos hmin]
    rfl
  | @drop pool pivot rest formed time time' hread hsorted hcounts hmin hfew =>
    have hrest := sortQueue_of_sublist hsorted (List.sublist_cons_self pivot rest)
    simp only [promise, left]
    rw [serve_eq_rounds hrest, serve_of_read hread, hsorted, Formed.addDropped_append, rounds]
    simp only [hread, hcounts, if_neg (Nat.not_lt.2 hmin), if_pos hfew]
    rfl
  | @pivot pool pivot rest formed time time' hread hsorted hcounts hmin hfew =>
    have hid : ((pivot :: rest).map (·.id)).Nodup :=
      ((Ticket.perm_of_sortQueue hsorted).map _).nodup_iff.2 hp.nodup
    have hwithout {ids : List String} (hids : pivot.id ∈ ids) :
        f.serve time' (Ticket.without ids (pivot :: rest)) =
          f.rounds time' (Ticket.without ids rest) := by
      rw [Ticket.without_cons_of_mem hids]
      exact serve_eq_rounds (sortQueue_of_sublist hsorted
        ((Ticket.without_sublist _ _).trans (List.sublist_cons_self _ _))) time'
    simp only [promise, left]
    rw [serve_of_read hread, hsorted, rounds]
    simp only [hread, hcounts, if_neg (Nat.not_lt.2 hmin), if_neg (Nat.not_lt.2 hfew), sessionFor]
    rcases f.searchIn_cases pivot (pivot :: rest) (f.attempts pivot) with ⟨s, hs, a, -, ha⟩ |
      ⟨hnone, -⟩ | ⟨e, he, -⟩
    · simp only [hs, hwithout (pivot_mem_of_attempt? hid (attempt_eq_ok_iff.1 ha).2)]
      rfl
    · simp only [hnone, hwithout (List.mem_singleton_self _)]
      rfl
    · simp only [he]
      rfl
  | giveUp => exact Formed.addDropped_append _ _ _
  | fail he => simp only [promise, left, searchIn, he]
  | hit hs => simp only [promise, left, searchIn, hs]
  | miss hnone => simp only [promise, left, searchIn, hnone]
  | emit => exact Formed.addSession_append _ _ _
  | rest => rfl

/-- As long as there is time, the loop is done only if there are too few players. -/
theorem Turn.few_of_done (h : f.Turn p p') (htime : p.time ≠ .spent) (hp : p.stage ≠ .done)
    (hp' : p'.stage = .done) :
    p'.pool = [] ∨ Ticket.totalPlayers p'.pool < f.rules.minPlayers := by
  cases h with
  | empty => exact .inl rfl
  | late => exact absurd rfl htime
  | few _ _ _ hmin => exact .inr hmin
  | rest => exact absurd hp' hp
  | _ => cases hp'

/-- Time that is never spent is not spent by a turn. -/
theorem Turn.unlimited (h : f.Turn p p') (hp : p.time = .unlimited) : p'.time = .unlimited := by
  have hread : ∀ {time time' : Budget}, time.read? = some time' → time = .unlimited →
      time' = .unlimited := fun hread htime =>
    Budget.unlimited_of_read? hread (fun _ => htime) rfl
  cases h with
  | uncounted h => exact hread h hp
  | few h => exact hread h hp
  | drop h => exact hread h hp
  | pivot h => exact hread h hp
  | _ => exact hp

/-! ## All turns -/

variable {budget : Budget} {ts : List (Ticket α)}

theorem turn_after (f : Formation α) (budget : Budget) (ts : List (Ticket α)) (n : Nat) :
    f.Turn (f.after budget ts n) (f.after budget ts (n + 1)) :=
  f.turn_step _

theorem sound_after (f : Formation α) (budget : Budget) (hid : (ts.map (·.id)).Nodup) (n : Nat) :
    Sound ts.length (f.after budget ts n) := by
  induction n with
  | zero =>
    have hids := f.rules.flexRoles_ids f.now ts
    refine ⟨hids ▸ hid, ?_, nofun, nofun⟩
    have hlength : (f.rules.flexRoles f.now ts).length = ts.length := by
      simpa using congrArg List.length hids
    simp [after, start, Formed.leave, hlength]
  | succ n ih => exact (f.turn_after budget ts n).sound ih

/-- A loop at its end stays as it is. -/
theorem after_of_isEnd {n : Nat} (h : (f.after budget ts n).stage.IsEnd) :
    f.after budget ts (n + 1) = f.after budget ts n := (f.turn_after budget ts n).eq_of_isEnd h

theorem rank_after_lt (f : Formation α) (budget : Budget) (hid : (ts.map (·.id)).Nodup)
    {i j : Nat} (hij : i < j) (hj : ¬(f.after budget ts j).stage.IsEnd) :
    (f.after budget ts j).rank < (f.after budget ts i).rank := by
  induction j with
  | zero => exact absurd hij (Nat.not_lt_zero i)
  | succ j ih =>
    have hnot : ¬(f.after budget ts j).stage.IsEnd := fun h => hj (after_of_isEnd h ▸ h)
    have hlt := (f.turn_after budget ts j).rank_lt (f.sound_after budget hid j) hnot
    rcases Nat.lt_succ_iff_lt_or_eq.1 hij with hij | rfl
    · exact hlt.trans (ih hij hnot)
    · exact hlt

/-- The loop keeps its promise. -/
theorem promise_after (f : Formation α) (budget : Budget) (hid : (ts.map (·.id)).Nodup)
    (hf : f.isSinglePlayer = false) (n : Nat) :
    f.promise (f.after budget ts n) = f.run budget ts := by
  induction n with
  | zero => simp [promise, after, start, left, Formed.append, Formed.leave, run, form, hf]
  | succ n ih =>
    exact ((f.turn_after budget ts n).promise_eq (f.sound_after budget hid n)).trans ih

/-- The sessions that a loop has formed so far are the first ones of those that it forms. -/
theorem sessions_after (f : Formation α) (budget : Budget) (hid : (ts.map (·.id)).Nodup)
    (hf : f.isSinglePlayer = false) (n : Nat) :
    (f.after budget ts n).formed.sessions <+: (f.run budget ts).sessions := by
  rw [← f.promise_after budget hid hf n]
  exact List.prefix_append _ _

/-- How a loop goes: it comes to an end, and breaks off only if some numbers do not fit; a
    session that it hands out has the pivot that was searched for, and so the pool gets
    smaller from one pivot to the next; sessions and dropped pivots are no more than the
    tickets; if there is always time and it does not break off it goes on until the players
    that are left are too few for any match; and in the end it has done all rounds. -/
structure Runs (f : Formation α) (budget : Budget) (ts : List (Ticket α)) : Prop where
  ends : ∃ n, (f.after budget ts n).stage.IsEnd
  completes : f.Fits ts → ∀ n e, (f.after budget ts n).stage ≠ .broken e
  emits : ∀ {n : Nat} {s : Session α}, (f.after budget ts (n + 1)).stage = .emit s →
    ∃ pivot untried, (f.after budget ts n).stage = .search pivot untried ∧ pivot.id ∈ s.ticketIds
  shrinks : ∀ {i j : Nat}, i < j → (f.after budget ts i).stage = .select →
    (f.after budget ts j).stage = .select →
    (f.after budget ts j).pool.length < (f.after budget ts i).pool.length
  count : ∀ n, (f.after budget ts n).formed.sessions.length +
    (f.after budget ts n).formed.dropped ≤ ts.length
  stops : budget = .unlimited → ∀ {n : Nat}, (f.after budget ts n).stage = .done →
    (f.after budget ts n).pool = [] ∨
      Ticket.totalPlayers (f.after budget ts n).pool < f.rules.minPlayers
  outcome : f.isSinglePlayer = false → ∀ {n : Nat}, (f.after budget ts n).stage.IsEnd →
    (f.after budget ts n).outcome = f.run budget ts

theorem loop_runs (f : Formation α) (budget : Budget) (hid : (ts.map (·.id)).Nodup) :
    f.Runs budget ts where
  ends := by
    -- Otherwise every turn would come closer to the end.
    by_contra hnever
    push Not at hnever
    obtain ⟨n, hn⟩ := WellFounded.not_rel_apply_succ (r := (· < ·))
      fun n => (f.after budget ts n).rank
    exact hn (f.rank_after_lt budget hid (Nat.lt_succ_self n) (hnever (n + 1)))
  completes := fun hfits n e hn => by
    induction n with
    | zero => cases hn
    | succ n ih =>
      rcases (f.turn_after budget ts n).exists_bounds hn with hbroken | ⟨b, hb, hnot⟩
      · exact ih hbroken
      · exact hnot (hfits.bounds b hb)
  emits := fun {n _} hs => (f.turn_after budget ts n).exists_pivot (f.sound_after budget hid n) hs
  shrinks := fun {i j} hij hi hj => by
    have hlt := f.rank_after_lt budget hid hij (by rw [hj]; nofun)
    rcases Prod.Lex.toLex_lt_toLex.1 hlt with h | ⟨_, h⟩
    · exact h
    · rw [hi, hj] at h
      exact absurd h (lt_irrefl _)
  count := fun n => (Nat.le_add_right _ _).trans (f.sound_after budget hid n).count
  stops := fun hbudget {n} hn => by
    have htime : ∀ n, (f.after budget ts n).time = .unlimited := fun n => by
      induction n with
      | zero => exact hbudget
      | succ n ih => exact (f.turn_after budget ts n).unlimited ih
    induction n with
    | zero => cases hn
    | succ n ih =>
      by_cases hdone : (f.after budget ts n).stage = .done
      · rw [after_of_isEnd (hdone ▸ .done)]
        exact ih hdone
      · exact (f.turn_after budget ts n).few_of_done (by rw [htime n]; nofun) hdone hn
  outcome := fun hf {n} hn => by
    rw [← f.promise_after budget hid hf n, promise, Process.outcome]
    cases hstage : (f.after budget ts n).stage with
    | done => rfl
    | broken e => rfl
    | _ => rw [hstage] at hn; cases hn

theorem duel_loop_runs : (duelists.map (·.id)).Nodup ∧
    ∃ n, (duel.after .unlimited duelists n).stage = .done ∧
      (duel.after .unlimited duelists n).outcome = duel.run .unlimited duelists := by
  have hid : (duelists.map (·.id)).Nodup := by decide
  have hruns := loop_runs duel .unlimited hid
  obtain ⟨n, hn⟩ := hruns.ends
  have houtcome := hruns.outcome (by decide) hn
  cases hstage : (duel.after .unlimited duelists n).stage with
  | done => exact ⟨hid, n, hstage, houtcome⟩
  | broken e => exact absurd hstage (hruns.completes (duel_fits duelists) n e)
  | _ => rw [hstage] at hn; cases hn

/-- The loop over a queue of one is never done if there is never room for the players that a
    match may have: it breaks off. -/
theorem horde_never_done : (horde 1152921504606846976).rules.fault? = none ∧
    ([duelist "a" []].map (·.id)).Nodup ∧
    ∀ n, ((horde 1152921504606846976).after .unlimited [duelist "a" []] n).stage ≠ .done := by
  have hid : ([duelist "a" []].map (·.id)).Nodup := by decide
  refine ⟨by decide, hid, fun n hn => ?_⟩
  have hpromise := promise_after (horde 1152921504606846976) .unlimited hid (by decide) n
  rw [promise, hn] at hpromise
  have hfailure : ((horde 1152921504606846976).run .unlimited [duelist "a" []]).failure =
      some .noRoom := by decide +kernel
  rw [← hpromise] at hfailure
  cases hfailure

end Formation

end Matchmaking
