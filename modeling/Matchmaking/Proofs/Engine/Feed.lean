import Mathlib.Data.List.Flatten
import Mathlib.Data.List.Perm.Basic
import Mathlib.Data.List.Perm.Subperm
import Matchmaking.Engine.Feed

/-!
# What a feed serves

Tickets are cut into batches of a size, none of them empty, and all sessions are dealt
over the batches (`flatten_batches`, `deal_sessions`). So a feed keeps what comes until
it is served, and serves it once:

* `Feed.leftover_take`, `Feed.waiting_take`: what comes is kept behind what is there;
* `Feed.serve_tickets`, `Feed.serve_sessions`: what is served is no longer there;
* `Feed.rest_tickets`, `Feed.rest_sessions`: of what is left in the end, no ticket is
  served twice, and every session is served if there is a ticket at all.

The full batches of a feed are full, and the one that is being filled is not
(`Feed.Cut`). So whatever is served has a session, a ticket, and no more tickets than
a batch may have (`Batch.Fits`).
-/

namespace Matchmaking

variable {σ τ : Type}

/-! ## Cutting and dealing -/

theorem flatten_batches (size : Nat) (xs : List τ) : (batches size xs).flatten = xs := by
  induction xs using batches.induct size with
  | case1 => rw [batches]; rfl
  | case2 x xs ih => rw [batches, List.flatten_cons, ih, List.cons_append, List.take_append_drop]

theorem batches_eq_nil_iff {size : Nat} {xs : List τ} : batches size xs = [] ↔ xs = [] := by
  cases xs with
  | nil => rw [batches]; simp
  | cons x xs => rw [batches]; simp

theorem length_of_mem_batches {size : Nat} {xs b : List τ} (h : b ∈ batches size xs) :
    b ≠ [] ∧ b.length ≤ max size 1 := by
  induction xs using batches.induct size with
  | case1 => rw [batches] at h; cases h
  | case2 x xs ih =>
    rw [batches] at h
    rcases List.mem_cons.1 h with rfl | h
    · refine ⟨List.cons_ne_nil _ _, ?_⟩
      rw [List.length_cons, List.length_take]
      omega
    · exact ih h

theorem batches_append_of_length {size : Nat} {b : List τ} (h : b.length = max size 1)
    (ts : List τ) : batches size (b ++ ts) = b :: batches size ts := by
  cases b with
  | nil => exact absurd h (by rw [List.length_nil]; omega)
  | cons t b =>
    have hb : b.length = size - 1 := by
      rw [List.length_cons] at h
      omega
    rw [List.cons_append, batches, List.take_append_of_le_length (Nat.le_of_eq hb.symm),
      List.take_of_length_le (Nat.le_of_eq hb),
      List.drop_append_of_le_length (Nat.le_of_eq hb.symm),
      List.drop_of_length_le (Nat.le_of_eq hb), List.nil_append]

theorem batches_of_length_le {size : Nat} {b : List τ} (hne : b ≠ []) (h : b.length ≤ size) :
    batches size b = [b] := by
  cases b with
  | nil => exact absurd rfl hne
  | cons t b =>
    have hb : b.length ≤ size - 1 := by
      rw [List.length_cons] at h
      omega
    rw [batches, List.take_of_length_le hb, List.drop_of_length_le hb, batches]

theorem flatMap_range_ite {β : Type} (n k : Nat) (x : β) :
    ((List.range n).flatMap fun i => if k == i then [x] else []) = if k < n then [x] else [] := by
  induction n with
  | zero => rfl
  | succ n ih =>
    rw [List.range_succ, List.flatMap_append, ih, List.flatMap_singleton]
    grind

/-- Entries that are put into so many places, each into one, are all there. -/
theorem flatMap_filter_range_perm {β : Type} {n : Nat} (place : β → Nat) {xs : List β}
    (h : ∀ x ∈ xs, place x < n) :
    ((List.range n).flatMap fun i => xs.filter fun x => place x == i).Perm xs := by
  induction xs with
  | nil => simp
  | cons x xs ih =>
    obtain ⟨hx, hxs⟩ := List.forall_mem_cons.1 h
    have hfilter : ∀ i, (x :: xs).filter (fun y => place y == i) =
        (if place x == i then [x] else []) ++ xs.filter fun y => place y == i := fun i => by
      rw [List.filter_cons]
      split_ifs <;> rfl
    simp only [hfilter]
    refine (List.flatMap_append_perm _ _ _).symm.trans ?_
    rw [flatMap_range_ite, if_pos hx]
    exact (ih hxs).cons x

theorem flatMap_share_perm {count : Nat} (hcount : 0 < count) (xs : List σ) :
    ((List.range count).flatMap fun i => share count i xs).Perm xs := by
  have hplaces : ((List.range count).flatMap fun i =>
      xs.zipIdx.filter fun e => e.2 % count == i).Perm xs.zipIdx :=
    flatMap_filter_range_perm (fun e : σ × Nat => e.2 % count) fun _ _ => Nat.mod_lt _ hcount
  have hmap := hplaces.map (·.1)
  rw [List.map_flatMap] at hmap
  simpa [share] using hmap

/-- What is handed to a run: sessions, tickets, and no more tickets than a batch has. -/
structure Batch.Fits (size : Nat) (b : Batch σ τ) : Prop where
  sessions : b.sessions ≠ []
  tickets : b.tickets ≠ []
  length_le : b.tickets.length ≤ max size 1

/-- Batches without sessions have none to be counted. -/
theorem flatMap_sessions_filter (bs : List (Batch σ τ)) :
    (bs.filter fun b => !b.sessions.isEmpty).flatMap (·.sessions) = bs.flatMap (·.sessions) := by
  induction bs with
  | nil => rfl
  | cons b bs ih =>
    rw [List.filter_cons]
    split_ifs with hb
    · rw [List.flatMap_cons, List.flatMap_cons, ih]
    · have : b.sessions = [] := by simpa using hb
      rw [ih, List.flatMap_cons, this, List.nil_append]

theorem fits_of_mem_deal {size : Nat} {sessions : List σ} {tickets : List τ} {b : Batch σ τ}
    (h : b ∈ deal size sessions tickets) : b.Fits size := by
  obtain ⟨hb, hsessions⟩ := List.mem_filter.1 h
  obtain ⟨i, hi, rfl⟩ := List.mem_mapIdx.1 hb
  obtain ⟨hne, hle⟩ := length_of_mem_batches (List.getElem_mem hi)
  exact ⟨by simpa using hsessions, hne, hle⟩

theorem deal_tickets (size : Nat) (sessions : List σ) (tickets : List τ) :
    ((deal size sessions tickets).flatMap (·.tickets)).Sublist tickets := by
  have hsub : ((deal size sessions tickets).map (·.tickets)).Sublist (batches size tickets) := by
    have hcut : ((batches size tickets).mapIdx fun i ts =>
        (⟨share (batches size tickets).length i sessions, ts⟩ : Batch σ τ)).map (·.tickets) =
          batches size tickets := by
      refine List.ext_getElem (by simp) fun i hi _ => by simp
    exact hcut ▸ List.filter_sublist.map _
  have hflatten := hsub.flatten
  rwa [flatten_batches, ← List.flatMap_def] at hflatten

theorem deal_sessions {size : Nat} {sessions : List σ} {tickets : List τ} (h : tickets ≠ []) :
    ((deal size sessions tickets).flatMap (·.sessions)).Perm sessions := by
  have hcount : 0 < (batches size tickets).length :=
    List.length_pos_iff.2 (mt batches_eq_nil_iff.1 h)
  have hmap : ((batches size tickets).mapIdx fun i ts =>
      (⟨share (batches size tickets).length i sessions, ts⟩ : Batch σ τ)).map (·.sessions) =
        (List.range (batches size tickets).length).map fun i =>
          share (batches size tickets).length i sessions :=
    List.ext_getElem (by simp) fun i hi _ => by simp
  rw [deal, flatMap_sessions_filter, List.flatMap_def, hmap, ← List.flatMap_def]
  exact flatMap_share_perm hcount sessions

theorem deal_nil (size : Nat) (sessions : List σ) :
    deal size sessions ([] : List τ) = [] := by
  rw [deal, batches]
  rfl

/-! ## What comes -/

namespace Arrival

/-- The ticket that comes. -/
def ticket? : Arrival σ τ → Option τ
  | ticket t => some t
  | _ => none

/-- The session that comes. -/
def session? : Arrival σ τ → Option σ
  | session s => some s
  | _ => none

end Arrival

namespace Feed

variable {f : Feed σ τ} {size : Nat}

/-- The stream that something comes from is open. -/
def Hears (f : Feed σ τ) : Arrival σ τ → Prop
  | .ticket _ | .ticketsClosed => f.ticketsOpen = true
  | .session _ | .sessionsClosed => f.sessionsOpen = true

theorem leftover_addTicket (size : Nat) (f : Feed σ τ) (t : τ) :
    (f.addTicket size t).leftover = f.leftover ++ [t] := by
  rw [addTicket]
  split_ifs <;> simp [leftover]

theorem waiting_addTicket (size : Nat) (f : Feed σ τ) (t : τ) :
    (f.addTicket size t).waiting = f.waiting := by
  rw [addTicket]
  split_ifs <;> rfl

theorem addTicket_ticketsOpen (size : Nat) (f : Feed σ τ) (t : τ) :
    (f.addTicket size t).ticketsOpen = f.ticketsOpen := by
  rw [addTicket]
  split_ifs <;> rfl

theorem addTicket_sessionsOpen (size : Nat) (f : Feed σ τ) (t : τ) :
    (f.addTicket size t).sessionsOpen = f.sessionsOpen := by
  rw [addTicket]
  split_ifs <;> rfl

theorem leftover_take {a : Arrival σ τ} (h : f.Hears a) :
    (f.take size a).leftover = f.leftover ++ a.ticket?.toList := by
  cases a with
  | ticket t => rw [take, if_pos (show f.ticketsOpen = true from h), leftover_addTicket]; rfl
  | session s =>
    rw [take, if_pos (show f.sessionsOpen = true from h)]
    exact (List.append_nil _).symm
  | ticketsClosed => exact (List.append_nil _).symm
  | sessionsClosed => exact (List.append_nil _).symm

theorem waiting_take {a : Arrival σ τ} (h : f.Hears a) :
    (f.take size a).waiting = f.waiting ++ a.session?.toList := by
  cases a with
  | ticket t =>
    rw [take, if_pos (show f.ticketsOpen = true from h), waiting_addTicket]
    exact (List.append_nil _).symm
  | session s => rw [take, if_pos (show f.sessionsOpen = true from h)]; rfl
  | ticketsClosed => exact (List.append_nil _).symm
  | sessionsClosed => exact (List.append_nil _).symm

/-- The batches of a feed are cut to a size: the full ones have it, and the one that is
    being filled does not have it yet. -/
structure Cut (size : Nat) (f : Feed σ τ) : Prop where
  batch : f.batch.length < max size 1
  full : ∀ b ∈ f.full, b.length = max size 1

theorem cut_start (size : Nat) : (start : Feed σ τ).Cut size :=
  ⟨Nat.lt_of_lt_of_le Nat.zero_lt_one (Nat.le_max_right _ _), List.forall_mem_nil _⟩

theorem Cut.addTicket (h : f.Cut size) (t : τ) : (f.addTicket size t).Cut size := by
  have hbatch := h.batch
  rw [Feed.addTicket]
  split_ifs with hfull
  · refine ⟨Nat.lt_of_lt_of_le Nat.zero_lt_one (Nat.le_max_right _ _), ?_⟩
    refine List.forall_mem_cons.2 ⟨?_, h.full⟩
    rw [List.length_append, List.length_singleton]
    omega
  · refine ⟨?_, h.full⟩
    rw [List.length_append, List.length_singleton]
    omega

theorem Cut.take (h : f.Cut size) (a : Arrival σ τ) : (f.take size a).Cut size := by
  cases a with
  | ticket t =>
    rw [Feed.take]
    split_ifs
    · exact h.addTicket t
    · exact h
  | session s =>
    rw [Feed.take]
    split_ifs
    · exact ⟨h.batch, h.full⟩
    · exact h
  | ticketsClosed => exact ⟨h.batch, h.full⟩
  | sessionsClosed => exact ⟨h.batch, h.full⟩

/-! ## What is served -/

/-- Either nothing is served, or the last of the full batches with all sessions. -/
theorem serve_cases (f : Feed σ τ) :
    f.serve = ([], f) ∨ ∃ b bs, f.full = b :: bs ∧ f.waiting ≠ [] ∧
      f.serve = ([⟨f.waiting, b⟩], { f with full := bs, waiting := [] }) := by
  rw [serve]
  split
  · exact .inl rfl
  · rename_i b bs hfull
    split_ifs with hwaiting
    · exact .inl rfl
    · exact .inr ⟨b, bs, hfull, by simpa using hwaiting, rfl⟩

theorem Cut.serve (h : f.Cut size) : f.serve.2.Cut size := by
  rcases f.serve_cases with hserve | ⟨b, bs, hfull, _, hserve⟩
  · rw [hserve]
    exact h
  · rw [hserve]
    exact ⟨h.batch, fun c hc => h.full c (hfull ▸ List.mem_cons_of_mem b hc)⟩

theorem Cut.fits_serve (h : f.Cut size) : ∀ b ∈ f.serve.1, b.Fits size := by
  rcases f.serve_cases with hserve | ⟨b, bs, hfull, hwaiting, hserve⟩
  · rw [hserve]
    exact List.forall_mem_nil _
  · have hlength := h.full b (hfull ▸ List.mem_cons_self)
    rw [hserve, List.forall_mem_singleton]
    refine ⟨hwaiting, List.ne_nil_of_length_pos ?_, Nat.le_of_eq hlength⟩
    rw [hlength]
    exact Nat.lt_of_lt_of_le Nat.zero_lt_one (Nat.le_max_right _ _)

theorem serve_tickets (f : Feed σ τ) :
    (f.serve.1.flatMap (·.tickets) ++ f.serve.2.leftover).Perm f.leftover := by
  rcases f.serve_cases with hserve | ⟨b, bs, hfull, _, hserve⟩
  · rw [hserve]
    exact .refl _
  · -- The batch that is served came after those that are left.
    simp only [hserve, leftover, hfull, List.flatMap_singleton, List.reverse_cons,
      List.flatten_append, List.flatten_singleton, List.append_assoc]
    exact List.perm_append_comm_assoc _ _ _

theorem serve_sessions (f : Feed σ τ) :
    f.serve.1.flatMap (·.sessions) ++ f.serve.2.waiting = f.waiting := by
  rcases f.serve_cases with hserve | ⟨b, bs, _, _, hserve⟩
  · rw [hserve]
    rfl
  · rw [hserve]
    simp

theorem serve_streams (f : Feed σ τ) :
    f.serve.2.ticketsOpen = f.ticketsOpen ∧ f.serve.2.sessionsOpen = f.sessionsOpen := by
  rcases f.serve_cases with hserve | ⟨b, bs, _, _, hserve⟩ <;> rw [hserve] <;> exact ⟨rfl, rfl⟩

theorem rest_tickets (size : Nat) (f : Feed σ τ) :
    ((f.rest size).flatMap (·.tickets)).Sublist f.leftover := deal_tickets _ _ _

theorem rest_sessions (h : f.leftover ≠ []) :
    ((f.rest size).flatMap (·.sessions)).Perm f.waiting := deal_sessions h

theorem rest_of_leftover_eq_nil (h : f.leftover = []) : f.rest size = [] := by
  rw [rest, h, deal_nil]

end Feed

end Matchmaking
