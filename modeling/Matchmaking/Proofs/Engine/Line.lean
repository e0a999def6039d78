import Mathlib.Data.Prod.Lex
import Mathlib.Order.WellFounded
import Matchmaking.Number.Total
import Matchmaking.Proofs.Engine.Intake
import Matchmaking.Proofs.Interleaving

/-!
# A line of batches

Tickets are sent down an inlet and gathered into batches. Every batch is given to a task
of its own, which makes a run of it and then hands on the results of the run one by one;
all tasks share one queue of results that holds so many of them, and the results are
received from it in order (`Delivery.Step`). Nothing is said about which task goes on when,
nor about when a ticket is sent or a result is received, nor what a run of a batch is
(`Line.Yields`).

What every step preserves is an account of the batches and of their results: the tasks have
the batches of what was read, and what was handed on is an interleaving of what each task
has handed on of its run (`Delivery.Accounts`, `Delivery.Step.accounts`). So in the end the
results are an interleaving of those of the runs, one for each batch
(`Delivery.Accounts.interleaves`).

Every step after the last ticket was sent comes closer to the end (`Delivery.Step.rank_lt`),
and there is a step until the end is reached (`Delivery.exists_step`).
-/

namespace Matchmaking

/-- A line on which batches of tickets are turned into results. -/
structure Line (τ ρ : Type) where
  /-- The tickets of a batch. -/
  size : Nat
  /-- Whether room can be made for a batch. -/
  hasRoom : Bool
  /-- How many results may wait to be received. -/
  capacity : Nat
  /-- The results that a run of a batch may have, in order. -/
  Yields : List τ → List ρ → Prop

/-- The task that a batch is given to. -/
structure BatchRun (τ ρ : Type) where
  /-- The batch. -/
  batch : List τ
  /-- The results that are not handed on yet, once there has been a run. -/
  left? : Option (List ρ)
  deriving DecidableEq

/-- Whether every result of a task is handed on. -/
def BatchRun.isOver {τ ρ : Type} (t : BatchRun τ ρ) : Bool :=
  match t.left? with
  | some [] => true
  | _ => false

/-- What is on a line, and what was received. -/
structure Delivery (τ ρ : Type) where
  /-- The inlet of the tickets. -/
  tickets : Inlet τ
  /-- The tickets that were read, in order. -/
  read : List τ
  /-- The tickets that do not fill a batch yet. -/
  batch : List τ
  /-- Whether no ticket is read any more. -/
  isDone : Bool
  /-- The tasks, in the order in which they began. -/
  tasks : List (BatchRun τ ρ)
  /-- The results that wait to be received, in order. -/
  waiting : List ρ
  /-- The results that were received, in order. -/
  received : List ρ
  deriving DecidableEq

namespace Delivery

variable {τ ρ : Type} {l : Line τ ρ} {d e : Delivery τ ρ}

/-- Nothing was sent. -/
def start : Delivery τ ρ := ⟨.start, [], [], false, [], [], []⟩

/-- The tickets that were sent. -/
def sent (d : Delivery τ ρ) : List τ := d.read ++ d.tickets.pending

/-- Whether nothing more will be received. -/
def isOver (d : Delivery τ ρ) : Bool :=
  d.isDone && d.tasks.all BatchRun.isOver && d.waiting.isEmpty

/-- A ticket is read, which may fill a batch of `size`. -/
def gather (size : Nat) (d : Delivery τ ρ) (t : τ) : Delivery τ ρ :=
  if size ≤ d.batch.length + 1 then
    { d with read := d.read ++ [t], batch := [], tasks := d.tasks ++ [⟨d.batch ++ [t], none⟩] }
  else { d with read := d.read ++ [t], batch := d.batch ++ [t] }

/-- No ticket is read any more, and what is left is a batch. -/
def finish (d : Delivery τ ρ) : Delivery τ ρ :=
  { d with
    isDone := true
    batch := []
    tasks := d.tasks ++ if d.batch.isEmpty then [] else [⟨d.batch, none⟩] }

/-- What can happen next. -/
inductive Step (l : Line τ ρ) : Delivery τ ρ → Delivery τ ρ → Prop
  /-- A ticket is sent. -/
  | send (d : Delivery τ ρ) (t : τ) (h : d.tickets.isOpen = true) :
      Step l d { d with tickets.pending := d.tickets.pending ++ [t] }
  /-- No ticket is sent any more. -/
  | close (d : Delivery τ ρ) (h : d.tickets.isOpen = true) :
      Step l d { d with tickets.isOpen := false }
  /-- The first of the tickets that were sent is read. -/
  | gather (d : Delivery τ ρ) (t : τ) (ts : List τ) (hroom : l.hasRoom = true)
      (hdone : d.isDone = false) (h : d.tickets.pending = t :: ts) :
      Step l d { d.gather l.size t with tickets.pending := ts }
  /-- Everything is read, and no ticket will be sent. -/
  | finish (d : Delivery τ ρ) (hroom : l.hasRoom = true) (hdone : d.isDone = false)
      (h : d.tickets = .drained) : Step l d d.finish
  /-- There is no room for a batch. -/
  | fail (d : Delivery τ ρ) (hroom : l.hasRoom = false) (hdone : d.isDone = false) :
      Step l d { d with isDone := true }
  /-- A task makes a run of its batch. -/
  | run (d : Delivery τ ρ) (k : Nat) (b : List τ) (xs : List ρ)
      (h : d.tasks[k]? = some ⟨b, none⟩) (hxs : l.Yields b xs) :
      Step l d { d with tasks := d.tasks.set k ⟨b, some xs⟩ }
  /-- A task hands on its next result. -/
  | handOn (d : Delivery τ ρ) (k : Nat) (b : List τ) (x : ρ) (xs : List ρ)
      (h : d.tasks[k]? = some ⟨b, some (x :: xs)⟩) (hfree : d.waiting.length < l.capacity) :
      Step l d { d with tasks := d.tasks.set k ⟨b, some xs⟩, waiting := d.waiting ++ [x] }
  /-- The first of the results that wait is received. -/
  | receive (d : Delivery τ ρ) (x : ρ) (xs : List ρ) (h : d.waiting = x :: xs) :
      Step l d { d with waiting := xs, received := d.received ++ [x] }

/-- What can be after any number of steps. -/
def Reachable (l : Line τ ρ) (d : Delivery τ ρ) : Prop := Relation.ReflTransGen (Step l) start d

/-! ## What every step preserves -/

/-- The results that a task has handed on are the first ones of a run of its batch. -/
inductive HandedOn (l : Line τ ρ) : BatchRun τ ρ → List ρ → Prop
  /-- There was no run. -/
  | none (b : List τ) : HandedOn l ⟨b, none⟩ []
  /-- Some results of the run are left. -/
  | some {b : List τ} {handed left : List ρ} (h : l.Yields b (handed ++ left)) :
      HandedOn l ⟨b, some left⟩ handed

/-- An account of what was read and of what was handed on: the tasks have the batches of
    what was read, and what was handed on is an interleaving of what each task has handed
    on. Where there is no room nothing is read. -/
structure Accounts (l : Line τ ρ) (d : Delivery τ ρ) : Prop where
  short : d.batch.length < max l.size 1
  cut : d.isDone = false → ∀ ts,
    batches l.size (d.read ++ ts) = d.tasks.map (·.batch) ++ batches l.size (d.batch ++ ts)
  done : d.isDone = true → l.hasRoom = true →
    d.tickets = .drained ∧ batches l.size d.read = d.tasks.map (·.batch)
  stuck : l.hasRoom = false → d.read = [] ∧ d.tasks = []
  handed : ∃ parts, List.Forall₂ (HandedOn l) d.tasks parts ∧
    Interleaves parts (d.received ++ d.waiting)

theorem accounts_start (l : Line τ ρ) : (start : Delivery τ ρ).Accounts l where
  short := Nat.lt_of_lt_of_le Nat.zero_lt_one (Nat.le_max_right _ _)
  cut _ _ := rfl
  done h := Bool.noConfusion h
  stuck _ := ⟨rfl, rfl⟩
  handed := ⟨[], .nil, .nil (List.forall_mem_nil _)⟩

/-- A task that has begun has handed on nothing. -/
theorem handed_snoc {d : Delivery τ ρ} (b : List τ)
    (h : ∃ parts, List.Forall₂ (HandedOn l) d.tasks parts ∧
      Interleaves parts (d.received ++ d.waiting)) :
    ∃ parts, List.Forall₂ (HandedOn l) (d.tasks ++ [⟨b, none⟩]) parts ∧
      Interleaves parts (d.received ++ d.waiting) := by
  obtain ⟨parts, hparts, hinter⟩ := h
  exact ⟨parts ++ [[]], List.rel_append hparts (.cons (.none b) .nil), hinter.append_nil⟩

theorem Accounts.gather {t : τ} {ts : List τ} (h : d.Accounts l) (hroom : l.hasRoom = true)
    (hdone : d.isDone = false) :
    ({ d.gather l.size t with tickets.pending := ts } : Delivery τ ρ).Accounts l := by
  have hstuck : l.hasRoom = false → False := fun hno => by rw [hroom] at hno; cases hno
  have hshort := h.short
  rw [Delivery.gather]
  split_ifs with hfull
  · -- The batch is full.
    have hlength : (d.batch ++ [t]).length = max l.size 1 := by
      rw [List.length_append, List.length_singleton]
      omega
    refine ⟨(accounts_start l).short, fun _ us => ?_, fun hd => ?_, fun hno => (hstuck hno).elim,
      handed_snoc _ h.handed⟩
    · rw [List.append_assoc, h.cut hdone, ← List.append_assoc d.batch,
        batches_append_of_length hlength, List.map_append, List.append_assoc]
      rfl
    · exact absurd (hdone.symm.trans hd) (by decide)
  · refine ⟨?_, fun _ us => ?_, fun hd => ?_, fun hno => (hstuck hno).elim, h.handed⟩
    · rw [List.length_append, List.length_singleton]
      omega
    · rw [List.append_assoc, h.cut hdone, ← List.append_assoc d.batch]
    · exact absurd (hdone.symm.trans hd) (by decide)

theorem Accounts.finish (h : d.Accounts l) (hroom : l.hasRoom = true) (hdone : d.isDone = false)
    (hdrained : d.tickets = .drained) : d.finish.Accounts l := by
  have hstuck : l.hasRoom = false → False := fun hno => by rw [hroom] at hno; cases hno
  have hcut := h.cut hdone []
  rw [List.append_nil, List.append_nil] at hcut
  rw [Delivery.finish]
  cases hbatch : d.batch.isEmpty with
  | true =>
    obtain hnil := List.isEmpty_iff.1 hbatch
    rw [hnil, batches, List.append_nil] at hcut
    rw [if_pos rfl, List.append_nil]
    exact ⟨(accounts_start l).short, fun hd => Bool.noConfusion hd, fun _ _ => ⟨hdrained, hcut⟩,
      fun hno => (hstuck hno).elim, h.handed⟩
  | false =>
    have hne : d.batch ≠ [] := fun hnil => by rw [hnil] at hbatch; cases hbatch
    have hle : d.batch.length ≤ l.size := by
      have hshort := h.short
      have hpos := List.length_pos_iff.2 hne
      omega
    rw [batches_of_length_le hne hle] at hcut
    refine ⟨(accounts_start l).short, fun hd => Bool.noConfusion hd, fun _ _ => ⟨hdrained, ?_⟩,
      fun hno => (hstuck hno).elim, handed_snoc _ h.handed⟩
    rw [hcut, List.map_append]
    rfl

/-- Only what one task has handed on changes. -/
theorem handed_set {k : Nat} {t t' : BatchRun τ ρ} {tasks : List (BatchRun τ ρ)}
    {parts : List (List ρ)} (h : List.Forall₂ (HandedOn l) tasks parts) (ht : tasks[k]? = some t) :
    ∃ part, parts[k]? = some part ∧ HandedOn l t part ∧
      ∀ part', HandedOn l t' part' →
        List.Forall₂ (HandedOn l) (tasks.set k t') (parts.set k part') := by
  induction h generalizing k with
  | nil => cases ht
  | @cons u part us parts hu hrest ih =>
    cases k with
    | zero =>
      obtain rfl : u = t := Option.some.inj ht
      exact ⟨part, rfl, hu, fun part' h' => .cons h' hrest⟩
    | succ k =>
      obtain ⟨p, hp, hpt, hset⟩ := ih ht
      exact ⟨p, hp, hpt, fun part' h' => .cons hu (hset part' h')⟩

/-- The tasks have the same batches after one of them went on. -/
theorem map_batch_set {k : Nat} {b : List τ} {o o' : Option (List ρ)} {tasks : List (BatchRun τ ρ)}
    (h : tasks[k]? = some ⟨b, o⟩) :
    (tasks.set k ⟨b, o'⟩).map (·.batch) = tasks.map (·.batch) := by
  have hb : (tasks.map (·.batch))[k]? = some b := by
    rw [List.getElem?_map, h]
    rfl
  obtain ⟨hlt, hget⟩ := List.getElem?_eq_some_iff.1 hb
  rw [List.map_set]
  exact (congrArg _ hget.symm).trans (List.set_getElem_self hlt)

theorem Step.accounts (h : Step l d e) (hd : d.Accounts l) : e.Accounts l := by
  -- An inlet that is open is not drained.
  have hopen : d.tickets.isOpen = true → d.isDone = true → l.hasRoom = true → False :=
    fun hopen hdone hroom => Bool.false_ne_true
      ((Inlet.isOpen_eq_false_of_eq_drained (hd.done hdone hroom).1).symm.trans hopen)
  cases h with
  | send t h => exact { hd with done := fun hdone hroom => (hopen h hdone hroom).elim }
  | close h => exact { hd with done := fun hdone hroom => (hopen h hdone hroom).elim }
  | gather t ts hroom hdone h => exact hd.gather hroom hdone
  | finish hroom hdone h => exact hd.finish hroom hdone h
  | fail hroom hdone =>
    exact { hd with
      cut := fun h => Bool.noConfusion h
      done := fun _ h => absurd (hroom.symm.trans h) (by decide) }
  | run k b xs h hxs =>
    obtain ⟨parts, hparts, hinter⟩ := hd.handed
    obtain ⟨part, hpart, hnone, hset⟩ := handed_set hparts h
    cases hnone
    refine { hd with cut := ?_, done := ?_, stuck := ?_, handed := ⟨_, hset [] (.some hxs), ?_⟩ }
    · rw [map_batch_set h]
      exact hd.cut
    · rw [map_batch_set h]
      exact hd.done
    · exact fun hno => by rw [(hd.stuck hno).2] at h; cases h
    · -- Nothing was handed on of the run yet.
      obtain ⟨hlt, hget⟩ := List.getElem?_eq_some_iff.1 hpart
      rw [← hget, List.set_getElem_self hlt]
      exact hinter
  | handOn k b x xs h hfree =>
    obtain ⟨parts, hparts, hinter⟩ := hd.handed
    obtain ⟨part, hpart, hsome, hset⟩ := handed_set hparts h
    have hnext : l.Yields b ((part ++ [x]) ++ xs) := by
      cases hsome with
      | some hyields =>
        rw [List.append_assoc]
        exact hyields
    refine { hd with
      cut := ?_, done := ?_, stuck := ?_, handed := ⟨_, hset (part ++ [x]) (.some hnext), ?_⟩ }
    · rw [map_batch_set h]
      exact hd.cut
    · rw [map_batch_set h]
      exact hd.done
    · exact fun hno => by rw [(hd.stuck hno).2] at h; cases h
    · rw [← List.append_assoc]
      exact hinter.snoc hpart x
  | receive x xs h =>
    obtain ⟨parts, hparts, hinter⟩ := hd.handed
    refine { hd with handed := ⟨parts, hparts, ?_⟩ }
    rw [List.append_assoc, List.singleton_append, ← h]
    exact hinter

theorem Reachable.accounts (h : d.Reachable l) : d.Accounts l := by
  induction h with
  | refl => exact accounts_start l
  | tail _ hstep ih => exact hstep.accounts ih

/-! ## What is received -/

theorem isOver_iff : d.isOver = true ↔
    d.isDone = true ∧ (∀ t ∈ d.tasks, t.isOver = true) ∧ d.waiting = [] := by
  rw [isOver, Bool.and_eq_true, Bool.and_eq_true, List.all_eq_true, List.isEmpty_iff, and_assoc]

/-- A task that is over has handed on all of its run. -/
theorem HandedOn.yields {t : BatchRun τ ρ} {part : List ρ} (h : HandedOn l t part)
    (hover : t.isOver = true) : l.Yields t.batch part := by
  cases h with
  | none b => cases hover
  | @some b _ left h =>
    cases left with
    | nil => rwa [List.append_nil] at h
    | cons => cases hover

/-- In the end the results are an interleaving of those of a run of each batch. -/
theorem Accounts.interleaves (h : d.Accounts l) (hroom : l.hasRoom = true)
    (hover : d.isOver = true) :
    ∃ runs, List.Forall₂ l.Yields (batches l.size d.sent) runs ∧ Interleaves runs d.received := by
  obtain ⟨hdone, htasks, hwaiting⟩ := isOver_iff.1 hover
  obtain ⟨hdrained, hcut⟩ := h.done hdone hroom
  obtain ⟨parts, hparts, hinter⟩ := h.handed
  rw [hwaiting, List.append_nil] at hinter
  refine ⟨parts, ?_, hinter⟩
  rw [sent, hdrained, show (Inlet.drained : Inlet τ).pending = [] from rfl, List.append_nil, hcut,
    List.forall₂_map_left_iff]
  exact ((List.forall₂_and_left _ _).2 ⟨htasks, hparts⟩).imp fun t part h => h.2.yields h.1

theorem Accounts.received_eq_nil (h : d.Accounts l) (hroom : l.hasRoom = false) :
    d.received = [] := by
  obtain ⟨parts, hparts, hinter⟩ := h.handed
  rw [(h.stuck hroom).2] at hparts
  cases hparts
  exact (List.append_eq_nil_iff.1 hinter.eq_nil).1

/-- The tickets of the tasks were sent. -/
theorem Accounts.isPrefix_batches (h : d.Accounts l) :
    (d.tasks.flatMap (·.batch)).Sublist d.sent := by
  cases hroom : l.hasRoom with
  | false =>
    rw [(h.stuck hroom).2]
    exact List.nil_sublist _
  | true =>
    have hread : d.read = (d.tasks.map (·.batch)).flatten ++
        (if d.isDone then [] else batches l.size d.batch).flatten := by
      cases hdone : d.isDone with
      | true =>
        rw [← (h.done hdone hroom).2, flatten_batches, if_pos rfl, List.flatten_nil,
          List.append_nil]
      | false =>
        have hcut := congrArg List.flatten (h.cut hdone [])
        rwa [List.append_nil, List.append_nil, flatten_batches, List.flatten_append] at hcut
    rw [sent, hread, List.append_assoc, List.flatMap_def]
    exact List.sublist_append_left _ _

/-- Whatever is told of the results of a run from no ticket of the batch twice is told of
    what is received from no ticket twice. -/
theorem Accounts.received_subperm {ι : Type} (h : d.Accounts l) (key : τ → ι) (keys : ρ → List ι)
    (hyields : ∀ b xs, (b.map key).Nodup → l.Yields b xs →
      (xs.flatMap keys).Subperm (b.map key)) (hsent : (d.sent.map key).Nodup) :
    (d.received.flatMap keys).Subperm (d.sent.map key) := by
  have hnodup : ((d.tasks.flatMap (·.batch)).map key).Nodup :=
    hsent.sublist (h.isPrefix_batches.map _)
  obtain ⟨parts, hparts, hinter⟩ := h.handed
  have hhanded : (parts.flatten.flatMap keys).Subperm ((d.tasks.flatMap (·.batch)).map key) := by
    clear hinter
    revert hnodup
    generalize d.tasks = tasks at hparts
    induction hparts with
    | nil => exact fun _ => .refl _
    | @cons t part tasks parts ht _ ih =>
      rw [List.flatMap_cons, List.map_append, List.flatten_cons, List.flatMap_append]
      intro hnodup
      refine List.Subperm.append ?_ (ih (List.nodup_append.1 hnodup).2.1)
      cases ht with
      | none b => exact List.nil_subperm
      | @some b _ left hrun =>
        have hall := hyields b _ (List.nodup_append.1 hnodup).1 hrun
        rw [List.flatMap_append] at hall
        exact (List.sublist_append_left _ _).subperm.trans hall
  have hreceived : (d.received.flatMap keys).Subperm (parts.flatten.flatMap keys) := by
    refine .trans ?_ (hinter.perm.flatMap_right keys).subperm
    rw [List.flatMap_append]
    exact (List.sublist_append_left _ _).subperm
  exact (hreceived.trans hhanded).trans (h.isPrefix_batches.map _).subperm

/-! ## The end -/

/-- How much is still to be done once nothing is sent any more: tickets are to be read, then
    runs to be made, and then results to be handed on and received. -/
def rank (d : Delivery τ ρ) : ℕ ×ₗ ℕ ×ₗ ℕ :=
  toLex (d.tickets.pending.length + (!d.isDone).toNat, toLex (d.tasks.countP (·.left?.isNone),
    2 * total (·.left?.getD [] |>.length) d.tasks + d.waiting.length))

theorem rank_lt_of_reading (h : e.tickets.pending.length + (!e.isDone).toNat <
    d.tickets.pending.length + (!d.isDone).toNat) : e.rank < d.rank :=
  Prod.Lex.toLex_lt_toLex.2 (.inl h)

/-- A list in which one entry is another one. -/
theorem exists_set_eq {β : Type} {k : Nat} {x : β} {xs : List β} (h : xs[k]? = some x) :
    ∃ before after, xs = before ++ x :: after ∧ ∀ y, xs.set k y = before ++ y :: after := by
  obtain ⟨hlt, hget⟩ := List.getElem?_eq_some_iff.1 h
  refine ⟨xs.take k, xs.drop (k + 1), ?_, fun y => ?_⟩
  · rw [← hget, ← List.drop_eq_getElem_cons hlt, List.take_append_drop]
  · rw [List.set_eq_take_append_cons_drop, if_pos hlt]

/-- Once nothing is sent any more, every step comes closer to the end. -/
theorem Step.rank_lt (h : Step l d e) (hclosed : d.tickets.isOpen = false) :
    e.rank < d.rank ∧ e.tickets.isOpen = false := by
  cases h with
  | send t h => rw [hclosed] at h; cases h
  | close h => rw [hclosed] at h; cases h
  | gather t ts hroom hdone h =>
    refine ⟨rank_lt_of_reading ?_, ?_⟩
    · rw [h, List.length_cons, Delivery.gather]
      split_ifs <;> dsimp only <;> omega
    · rw [← hclosed, Delivery.gather]
      split_ifs <;> rfl
  | finish hroom hdone h =>
    refine ⟨rank_lt_of_reading ?_, hclosed⟩
    rw [hdone]
    exact Nat.lt_succ_self _
  | fail hroom hdone =>
    refine ⟨rank_lt_of_reading ?_, hclosed⟩
    rw [hdone]
    exact Nat.lt_succ_self _
  | run k b xs h hxs =>
    obtain ⟨before, after, htasks, hset⟩ := exists_set_eq h
    refine ⟨Prod.Lex.toLex_lt_toLex.2 (.inr ⟨rfl, Prod.Lex.toLex_lt_toLex.2 (.inl ?_)⟩), hclosed⟩
    dsimp only
    rw [hset, htasks]
    simp
  | handOn k b x xs h hfree =>
    obtain ⟨before, after, htasks, hset⟩ := exists_set_eq h
    refine ⟨Prod.Lex.toLex_lt_toLex.2
      (.inr ⟨rfl, Prod.Lex.toLex_lt_toLex.2 (.inr ⟨?_, ?_⟩)⟩), hclosed⟩
    · dsimp only
      rw [hset, htasks]
      simp
    · dsimp only
      rw [hset, htasks]
      simp only [total_append, total_cons, Option.getD_some, List.length_append, List.length_cons,
        List.length_nil]
      omega
  | receive x xs h =>
    refine ⟨Prod.Lex.toLex_lt_toLex.2
      (.inr ⟨rfl, Prod.Lex.toLex_lt_toLex.2 (.inr ⟨rfl, ?_⟩)⟩), hclosed⟩
    rw [h]
    exact Nat.lt_succ_self _

/-- There is a step until the end is reached. -/
theorem exists_step (hclosed : d.tickets.isOpen = false) (hcapacity : 0 < l.capacity)
    (hruns : ∀ b, ∃ xs, l.Yields b xs) (hover : d.isOver = false) : ∃ e, Step l d e := by
  cases hdone : d.isDone with
  | false =>
    cases hroom : l.hasRoom with
    | false => exact ⟨_, .fail d hroom hdone⟩
    | true =>
      cases hpending : d.tickets.pending with
      | nil => exact ⟨_, .finish d hroom hdone (Inlet.eq_drained hpending hclosed)⟩
      | cons t ts => exact ⟨_, .gather d t ts hroom hdone hpending⟩
  | true =>
    cases hwaiting : d.waiting with
    | cons x xs => exact ⟨_, .receive d x xs hwaiting⟩
    | nil =>
      obtain ⟨⟨b, left?⟩, ht, hbusy⟩ : ∃ t ∈ d.tasks, t.isOver = false := by
        by_contra hnone
        push Not at hnone
        exact Bool.false_ne_true (hover.symm.trans
          (isOver_iff.2 ⟨hdone, fun t ht => Bool.not_eq_false _ ▸ hnone t ht, hwaiting⟩))
      obtain ⟨k, hk⟩ := List.mem_iff_getElem?.1 ht
      match left?, hbusy with
      | none, _ =>
        obtain ⟨xs, hxs⟩ := hruns b
        exact ⟨_, .run d k b xs hk hxs⟩
      | some (x :: xs), _ =>
        exact ⟨_, .handOn d k b x xs hk (by rw [hwaiting]; exact hcapacity)⟩

/-- Once nothing is sent any more, only so many steps can be made. -/
theorem acc_step (hclosed : d.tickets.isOpen = false) : Acc (fun e d => Step l d e) d := by
  have hrank : WellFounded fun e d : Delivery τ ρ => e.rank < d.rank :=
    InvImage.wf rank wellFounded_lt
  induction d using hrank.induction with
  | _ d ih =>
    refine Acc.intro d fun e hstep => ?_
    obtain ⟨hlt, he⟩ := hstep.rank_lt hclosed
    exact ih e hlt he

/-- Once nothing is sent any more, steps lead to the end. -/
theorem exists_isOver (hclosed : d.tickets.isOpen = false) (hcapacity : 0 < l.capacity)
    (hruns : ∀ b, ∃ xs, l.Yields b xs) :
    ∃ e, Relation.ReflTransGen (Step l) d e ∧ e.isOver = true := by
  have hacc : Acc (fun e d => Step l d e) d := acc_step hclosed
  induction hacc with
  | intro d _ ih =>
    cases hover : d.isOver with
    | true => exact ⟨d, .refl, hover⟩
    | false =>
      obtain ⟨e, hstep⟩ := exists_step hclosed hcapacity hruns hover
      obtain ⟨k, hk, hend⟩ := ih e hstep (hstep.rank_lt hclosed).2
      exact ⟨k, .head hstep hk, hend⟩

end Delivery

end Matchmaking
