import Matchmaking.Proofs.Backfill.Turns

/-!
# Every open session and every ticket has one place

What becomes of open sessions is a list of fillings (`Filling`): each session, the
tickets that joined it, and the session with them. The clock is read before each session,
and those that come after time is spent stay as they are. The others have their turns in
order, each with the tickets that those before it left, so every ticket joins one
session or is left (`Backfill.sessions_accounts`).

Seen from outside, a run returns every open session once and in order, and it loses
no ticket and uses none twice.
-/

namespace Matchmaking

variable {α : Type}

instance : Std.TransCmp (@OpenSession.rank α) :=
  inferInstanceAs (Std.TransCmp (compareLex
    (compareOn fun o : OpenSession α => o.session.createdAt.place) (compareOn (·.ticketId))))

/-- An open session before and after tickets joined it. -/
structure Filling (α : Type) where
  before : OpenSession α
  after : OpenSession α
  joined : List (Ticket α)
  ticketId : after.ticketId = before.ticketId
  gains : before.session.Gains after.session joined

namespace Filling

/-- Nobody joined. -/
def idle (o : OpenSession α) : Filling α := ⟨o, o, [], rfl, .refl o.session⟩

/-- Sessions are served in the same order with the tickets that joined them. -/
theorem rank_after (f g : Filling α) :
    OpenSession.rank f.after g.after = OpenSession.rank f.before g.before := by
  simp only [OpenSession.rank, compareLex, compareOn, f.ticketId, g.ticketId, f.gains.createdAt,
    g.gains.createdAt]

end Filling

namespace Backfill

variable [Scalar α] (b : Backfill α)

/-- The proposal for a session that was filled. -/
def proposalOf (f : Filling α) : Proposal α := b.proposal f.after (f.joined.map (·.id))

/-- What became of open sessions and of the tickets of a queue is accounted for by
    fillings: a ticket joined one of the sessions or is left, and there is a
    proposal for each session that a ticket joined. -/
structure Accounts (r : Backfilled α) (os : List (OpenSession α)) (pool : List (Ticket α))
    (fs : List (Filling α)) : Prop where
  before : fs.map (·.before) = os
  after : r.sessions = fs.map (·.after)
  tickets : (fs.flatMap (·.joined) ++ r.unmatched).Perm pool
  proposals : r.proposals = (fs.filter fun f => !f.joined.isEmpty).map b.proposalOf

omit [Scalar α] in
/-- Nobody joins sessions that nobody serves. -/
theorem accounts_idle (os : List (OpenSession α)) (pool : List (Ticket α)) (late : Bool) :
    b.Accounts ⟨[], os, pool, 0, late⟩ os pool (os.map .idle) where
  before := by simp [Filling.idle, Function.comp_def]
  after := by simp [Filling.idle, Function.comp_def]
  tickets := by
    have hnobody : (os.map Filling.idle).flatMap (·.joined) = [] := by simp [Filling.idle]
    rw [hnobody]
    exact .refl pool
  proposals := by simp [Filling.idle, List.filter_map]

omit [Scalar α] in
/-- A session is filled before others, which get what it leaves of the queue. -/
theorem Accounts.cons {b : Backfill α} {r rest : Backfilled α} {os : List (OpenSession α)}
    {fs : List (Filling α)} {pool left : List (Ticket α)} (h : b.Accounts rest os left fs)
    (f : Filling α) (hleft : (f.joined ++ left).Perm pool)
    (hsessions : r.sessions = f.after :: rest.sessions) (hunmatched : r.unmatched = rest.unmatched)
    (hproposals : r.proposals =
      if f.joined.isEmpty then rest.proposals else b.proposalOf f :: rest.proposals) :
    b.Accounts r (f.before :: os) pool (f :: fs) where
  before := congrArg (f.before :: ·) h.before
  after := by rw [hsessions, h.after, List.map_cons]
  tickets := by
    rw [hunmatched, List.flatMap_cons, List.append_assoc]
    exact (h.tickets.append_left f.joined).trans hleft
  proposals := by
    rw [hproposals, h.proposals, List.filter_cons]
    cases f.joined.isEmpty <;> rfl

omit [Scalar α] in
/-- There is a filling for every session, before and after. -/
theorem Accounts.exists_filling {b : Backfill α} {r : Backfilled α} {os : List (OpenSession α)}
    {pool : List (Ticket α)} {fs : List (Filling α)} {o o' : OpenSession α}
    (h : b.Accounts r os pool fs) (ho : (o, o') ∈ os.zip r.sessions) :
    ∃ f ∈ fs, f.before = o ∧ f.after = o' := by
  rw [← h.before, h.after, List.zip_map', List.mem_map] at ho
  obtain ⟨f, hf, heq⟩ := ho
  exact ⟨f, hf, Prod.mk.inj heq⟩

/-- A filling came about in a turn with some of the tickets of a queue. -/
def Attended (pool : List (Ticket α)) (f : Filling α) : Prop :=
  ∃ queue left, queue.Subperm pool ∧
    b.Attends f.before.session queue f.after.session f.joined left

/-- A filling came about from some of the tickets of a queue. -/
def Served (pool : List (Ticket α)) (f : Filling α) : Prop :=
  ∃ queue left, queue.Subperm pool ∧ b.Serves f.before.session queue f.after.session f.joined left

theorem Attended.of_subperm {b : Backfill α} {pool pool' : List (Ticket α)} {f : Filling α}
    (h : b.Attended pool f) (hpool : pool.Subperm pool') : b.Attended pool' f := by
  obtain ⟨queue, left, hqueue, hattends⟩ := h
  exact ⟨queue, left, hqueue.trans hpool, hattends⟩

theorem Attended.served {b : Backfill α} {pool : List (Ticket α)} {f : Filling α}
    (h : b.Attended pool f) : b.Served pool f := by
  obtain ⟨queue, left, hqueue, hattends⟩ := h
  exact ⟨queue, left, hqueue, hattends.serves⟩

/-- Each session has a turn with what is left by those before it, or stays as it is, which
    takes time that can be spent. -/
theorem sessions_accounts (time : Budget) (os : List (OpenSession α)) (pool : List (Ticket α)) :
    ∃ fs, b.Accounts (b.sessions time os pool) os pool fs ∧
      ∀ f ∈ fs, b.Attended pool f ∨ (time ≠ .unlimited ∧ ∃ o, f = .idle o) := by
  induction os generalizing time pool with
  | nil => exact ⟨[], ⟨rfl, rfl, .refl pool, rfl⟩, List.forall_mem_nil _⟩
  | cons o os ih =>
    rw [sessions]
    split
    · rename_i hlate
      refine ⟨_, b.accounts_idle (o :: os) pool true, fun f hf => .inr ⟨?_, ?_⟩⟩
      · rintro rfl
        cases hlate
      · obtain ⟨o', _, rfl⟩ := List.mem_map.1 hf
        exact ⟨o', rfl⟩
    · rename_i time' htime
      obtain ⟨ts, hadded, hattends⟩ := b.session_attends time' o.session pool
      -- Time that is never spent is not spent by a turn.
      have hunlimited : time = .unlimited → (b.session time' o.session pool).time = .unlimited := by
        rintro rfl
        obtain rfl : Budget.unlimited = time' := Option.some_inj.1 htime
        exact b.session_time _ _
      generalize b.session time' o.session pool = turn at hadded hattends hunlimited
      obtain ⟨s, added, left, time'', late⟩ := turn
      obtain rfl : added = ts.map (·.id) := hadded
      obtain ⟨fs, haccounts, hattended⟩ := ih time'' left
      let f : Filling α := ⟨o, { o with session := s }, ts, rfl, hattends.serves.gains⟩
      refine ⟨f :: fs, ?_, List.forall_mem_cons.2
        ⟨.inl ⟨pool, left, .refl _, hattends⟩, fun g hg => ?_⟩⟩
      · -- There is a proposal if a ticket joined.
        cases ts with
        | nil => exact haccounts.cons f hattends.left_perm rfl rfl rfl
        | cons t ts => exact haccounts.cons f hattends.left_perm rfl rfl rfl
      · have hleft : left.Subperm pool :=
          (List.sublist_append_right ts left).subperm.trans hattends.left_perm.subperm
        exact (hattended g hg).imp (Attended.of_subperm · hleft) fun ⟨htime'', hg⟩ =>
          ⟨fun h => htime'' (hunlimited h), hg⟩

theorem run_accounts (budget : Budget) (os : List (OpenSession α)) (pool : List (Ticket α)) :
    ∃ fs, b.Accounts (b.run budget os pool) (sortBy OpenSession.rank os) pool fs ∧
      ∀ f ∈ fs, b.Attended pool f ∨ (budget ≠ .unlimited ∧ ∃ o, f = .idle o) :=
  b.sessions_accounts budget _ pool

/-- A session of a run is served tickets of the queue, nobody if it has no turn. -/
theorem run_serves (budget : Budget) (os : List (OpenSession α)) (pool : List (Ticket α)) :
    ∃ fs, b.Accounts (b.run budget os pool) (sortBy OpenSession.rank os) pool fs ∧
      ∀ f ∈ fs, b.Served pool f := by
  obtain ⟨fs, haccounts, hattended⟩ := b.run_accounts budget os pool
  refine ⟨fs, haccounts, fun f hf => ?_⟩
  rcases hattended f hf with h | ⟨-, o, rfl⟩
  · exact h.served
  · exact ⟨pool, pool, .refl _, b.serves_nobody _ pool⟩

end Backfill

end Matchmaking
