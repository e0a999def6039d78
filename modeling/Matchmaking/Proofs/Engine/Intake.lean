import Mathlib.Logic.Relation
import Matchmaking.Proofs.Engine.Feed

/-!
# Tickets and sessions are served once

Tickets and sessions are sent, each kind down an inlet of its own, while a feed reads
from whichever inlet has something for it (`Intake.Step`): an inlet gives what was sent
in the order in which it was sent, and says that it is closed once it has given
everything. Nothing is said about which of the two the feed reads first, nor about when
something is sent.

What every step preserves is an account of what came: it is served, or it is kept
(`Intake.Accounts`, `Intake.Step.accounts`). So no ticket and no session is served
twice, and only sessions for which no ticket is left are not served in the end
(`Intake.serves_once`). Once nothing more is sent, the feed comes to its end
(`Intake.exists_isDone`).

All this is about a feed that has begun. Room for a batch is made before anything is read,
and where it cannot be made nothing is read and nobody is served; the engine tells these
cases apart (`Engine.backfillStream`).
-/

namespace Matchmaking

/-- What is sent to a feed: what it has not read yet, and whether more may be sent. -/
structure Inlet (β : Type) where
  /-- What was sent and is not read, in the order in which it was sent. -/
  pending : List β
  /-- Whether more may be sent. -/
  isOpen : Bool
  deriving DecidableEq

namespace Inlet

variable {β : Type}

/-- Nothing was sent. -/
def start : Inlet β := ⟨[], true⟩

/-- Nothing is sent any more, and everything is read. -/
def drained : Inlet β := ⟨[], false⟩

/-- How often a feed can still read from an inlet to which nothing is sent: it hears that
    the inlet is closed once. -/
def readings (l : Inlet β) (isHeard : Bool) : Nat := l.pending.length + isHeard.toNat

theorem eq_drained {l : Inlet β} (hpending : l.pending = []) (hclosed : l.isOpen = false) :
    l = drained := by
  cases l
  cases hpending
  cases hclosed
  rfl

theorem isOpen_eq_false_of_eq_drained {l : Inlet β} (h : l = drained) : l.isOpen = false := by
  rw [h]
  rfl

end Inlet

/-- A feed, the inlets that it reads from, and what happened so far. -/
structure Intake (σ τ : Type) where
  /-- The inlet of the tickets. -/
  tickets : Inlet τ
  /-- The inlet of the sessions. -/
  sessions : Inlet σ
  /-- What has come and is not served yet. -/
  feed : Feed σ τ
  /-- What has come, in order. -/
  arrivals : List (Arrival σ τ)
  /-- The batches that were served as things came, in order. -/
  served : List (Batch σ τ)
  /-- Whether the feed has come to its end, and what was left is dealt out. -/
  isDone : Bool
  deriving DecidableEq

namespace Intake

variable {σ τ : Type} {size : Nat} {i j : Intake σ τ}

/-- Nothing was sent. -/
def start : Intake σ τ := ⟨.start, .start, .start, [], [], false⟩

/-- The feed takes what comes, and serves what can be served. -/
def read (size : Nat) (i : Intake σ τ) (a : Arrival σ τ) : Intake σ τ :=
  let (served, feed) := (i.feed.take size a).serve
  { i with feed := feed, arrivals := i.arrivals ++ [a], served := i.served ++ served }

/-- What an inlet has for the feed, and the intake whose inlet has given it. -/
inductive Gives : Intake σ τ → Arrival σ τ → Intake σ τ → Prop
  /-- The first of the tickets that were sent. -/
  | ticket (i : Intake σ τ) (t : τ) (ts : List τ) (h : i.tickets.pending = t :: ts) :
      Gives i (.ticket t) { i with tickets.pending := ts }
  /-- The first of the sessions that were sent. -/
  | session (i : Intake σ τ) (s : σ) (ss : List σ) (h : i.sessions.pending = s :: ss) :
      Gives i (.session s) { i with sessions.pending := ss }
  /-- No ticket comes any more. -/
  | ticketsClosed (i : Intake σ τ) (h : i.tickets = .drained) : Gives i .ticketsClosed i
  /-- No session comes any more. -/
  | sessionsClosed (i : Intake σ τ) (h : i.sessions = .drained) : Gives i .sessionsClosed i

/-- What can happen next. -/
inductive Step (size : Nat) : Intake σ τ → Intake σ τ → Prop
  /-- A ticket is sent. -/
  | sendTicket (i : Intake σ τ) (t : τ) (h : i.tickets.isOpen = true) :
      Step size i { i with tickets.pending := i.tickets.pending ++ [t] }
  /-- A session is sent. -/
  | sendSession (i : Intake σ τ) (s : σ) (h : i.sessions.isOpen = true) :
      Step size i { i with sessions.pending := i.sessions.pending ++ [s] }
  /-- No ticket is sent any more. -/
  | closeTickets (i : Intake σ τ) (h : i.tickets.isOpen = true) :
      Step size i { i with tickets.isOpen := false }
  /-- No session is sent any more. -/
  | closeSessions (i : Intake σ τ) (h : i.sessions.isOpen = true) :
      Step size i { i with sessions.isOpen := false }
  /-- The feed reads what one of the inlets that it still listens to has for it. -/
  | receive (i j : Intake σ τ) (a : Arrival σ τ) (hdone : i.isDone = false)
      (hgoes : i.feed.isStopped = false) (hears : i.feed.Hears a) (hgives : i.Gives a j) :
      Step size i (j.read size a)
  /-- The feed stops, and deals out what is left. -/
  | stop (i : Intake σ τ) (hdone : i.isDone = false) (hstop : i.feed.isStopped = true) :
      Step size i { i with isDone := true }

/-- What can be after any number of steps. -/
def Reachable (size : Nat) (i : Intake σ τ) : Prop := Relation.ReflTransGen (Step size) start i

/-- The tickets that were sent. -/
def sentTickets (i : Intake σ τ) : List τ :=
  i.arrivals.filterMap Arrival.ticket? ++ i.tickets.pending

/-- The sessions that were sent. -/
def sentSessions (i : Intake σ τ) : List σ :=
  i.arrivals.filterMap Arrival.session? ++ i.sessions.pending

/-- The batches that are handed to a run: those that were served as things came, and in
    the end those of what was left. -/
def handed (size : Nat) (i : Intake σ τ) : List (Batch σ τ) :=
  i.served ++ if i.isDone then i.feed.rest size else []

/-! ## What every step preserves -/

/-- An account of what came: it is served, or it is kept. An inlet that the feed does
    not listen to any more has nothing left for it. -/
structure Accounts (size : Nat) (i : Intake σ τ) : Prop where
  cut : i.feed.Cut size
  fits : ∀ b ∈ i.served, b.Fits size
  tickets : (i.served.flatMap (·.tickets) ++ i.feed.leftover).Perm
    (i.arrivals.filterMap Arrival.ticket?)
  sessions : i.served.flatMap (·.sessions) ++ i.feed.waiting =
    i.arrivals.filterMap Arrival.session?
  ticketsClosed : i.feed.ticketsOpen = false → i.tickets = .drained
  sessionsClosed : i.feed.sessionsOpen = false → i.sessions = .drained
  stopped : i.isDone = true → i.feed.isStopped = true
  run : ∀ as, Feed.start.run size (i.arrivals ++ as) = i.served ++ i.feed.run size as

theorem accounts_start (size : Nat) : (start : Intake σ τ).Accounts size where
  cut := Feed.cut_start size
  fits := List.forall_mem_nil _
  tickets := .refl _
  sessions := rfl
  ticketsClosed h := Bool.noConfusion h
  sessionsClosed h := Bool.noConfusion h
  stopped h := Bool.noConfusion h
  run _ := rfl

/-- An inlet that gives something changes nothing else. -/
theorem Gives.frame {a : Arrival σ τ} (h : i.Gives a j) :
    j.feed = i.feed ∧ j.arrivals = i.arrivals ∧ j.served = i.served ∧ j.isDone = i.isDone := by
  cases h <;> exact ⟨rfl, rfl, rfl, rfl⟩

/-- A feed that takes what an inlet gives stops listening to the inlet only when it has
    nothing left. -/
theorem Accounts.closed_take {a : Arrival σ τ} (h : i.Accounts size) (hears : i.feed.Hears a)
    (hgives : i.Gives a j) :
    ((i.feed.take size a).ticketsOpen = false → j.tickets = .drained) ∧
      ((i.feed.take size a).sessionsOpen = false → j.sessions = .drained) := by
  cases hgives with
  | ticket t ts hpending =>
    have hopen : i.feed.ticketsOpen = true := hears
    rw [Feed.take, if_pos hopen, Feed.addTicket_ticketsOpen, Feed.addTicket_sessionsOpen, hopen]
    exact ⟨fun hclosed => Bool.noConfusion hclosed, h.sessionsClosed⟩
  | session s ss hpending =>
    have hopen : i.feed.sessionsOpen = true := hears
    rw [Feed.take, if_pos hopen]
    exact ⟨h.ticketsClosed, fun hclosed => absurd (hopen.symm.trans hclosed) (by decide)⟩
  | ticketsClosed hdrained => exact ⟨fun _ => hdrained, h.sessionsClosed⟩
  | sessionsClosed hdrained => exact ⟨h.ticketsClosed, fun _ => hdrained⟩

theorem Accounts.receive {a : Arrival σ τ} (h : i.Accounts size) (hdone : i.isDone = false)
    (hgoes : i.feed.isStopped = false) (hears : i.feed.Hears a) (hgives : i.Gives a j) :
    (j.read size a).Accounts size := by
  obtain ⟨hfeed, harrivals, hserved, hisDone⟩ := hgives.frame
  have hstreams := (i.feed.take size a).serve_streams
  have hclosed := h.closed_take hears hgives
  refine ⟨?cut, ?fits, ?tickets, ?sessions, ?ticketsClosed, ?sessionsClosed, ?stopped, ?run⟩ <;>
    simp only [read, hfeed, harrivals, hserved]
  case cut => exact (h.cut.take a).serve
  case fits =>
    intro b hb
    rcases List.mem_append.1 hb with hb | hb
    · exact h.fits b hb
    · exact (h.cut.take a).fits_serve b hb
  case tickets =>
    have hserve := (i.feed.take size a).serve_tickets
    rw [Feed.leftover_take hears] at hserve
    rw [List.flatMap_append, List.filterMap_append, List.append_assoc]
    refine (hserve.append_left _).trans ?_
    rw [← List.append_assoc]
    refine (h.tickets.append_right _).trans (.of_eq ?_)
    cases a <;> rfl
  case sessions =>
    have hserve := (i.feed.take size a).serve_sessions
    rw [Feed.waiting_take hears] at hserve
    rw [List.flatMap_append, List.filterMap_append, List.append_assoc, hserve,
      ← List.append_assoc, h.sessions]
    cases a <;> rfl
  case ticketsClosed => exact hstreams.1 ▸ hclosed.1
  case sessionsClosed => exact hstreams.2 ▸ hclosed.2
  case stopped => exact fun hj => absurd ((hisDone.trans hdone).symm.trans hj) (by decide)
  case run =>
    intro as
    have hstep : i.feed.run size (a :: as) = (i.feed.take size a).serve.1 ++
        (i.feed.take size a).serve.2.run size as := by
      rw [Feed.run, hgoes]
      rfl
    rw [List.append_assoc, List.singleton_append, h.run, hstep, List.append_assoc]

theorem Step.accounts (h : Step size i j) (hi : i.Accounts size) : j.Accounts size := by
  -- A feed still listens to an inlet that is open.
  have htickets : i.tickets.isOpen = true → i.feed.ticketsOpen = false → False := fun hopen hc =>
    Bool.false_ne_true
      ((Inlet.isOpen_eq_false_of_eq_drained (hi.ticketsClosed hc)).symm.trans hopen)
  have hsessions : i.sessions.isOpen = true → i.feed.sessionsOpen = false → False :=
    fun hopen hc => Bool.false_ne_true
      ((Inlet.isOpen_eq_false_of_eq_drained (hi.sessionsClosed hc)).symm.trans hopen)
  cases h with
  | sendTicket t hopen => exact { hi with ticketsClosed := fun hc => (htickets hopen hc).elim }
  | sendSession s hopen => exact { hi with sessionsClosed := fun hc => (hsessions hopen hc).elim }
  | closeTickets hopen => exact { hi with ticketsClosed := fun hc => (htickets hopen hc).elim }
  | closeSessions hopen => exact { hi with sessionsClosed := fun hc => (hsessions hopen hc).elim }
  | receive j a hdone hgoes hears hgives => exact hi.receive hdone hgoes hears hgives
  | stop hdone hstop => exact { hi with stopped := fun _ => hstop }

theorem Reachable.accounts (h : i.Reachable size) : i.Accounts size := by
  induction h with
  | refl => exact accounts_start size
  | tail _ hstep ih => exact hstep.accounts ih

/-! ## What is handed out -/

theorem Accounts.handed_fits (h : i.Accounts size) : ∀ b ∈ i.handed size, b.Fits size := by
  intro b hb
  rcases List.mem_append.1 hb with hb | hb
  · exact h.fits b hb
  · split_ifs at hb
    · exact fits_of_mem_deal hb
    · cases hb

theorem Accounts.handed_tickets (h : i.Accounts size) :
    ((i.handed size).flatMap (·.tickets)).Subperm i.sentTickets := by
  have hrest : ((if i.isDone then i.feed.rest size else []).flatMap (·.tickets)).Sublist
      i.feed.leftover := by
    split_ifs
    · exact i.feed.rest_tickets size
    · exact List.nil_sublist _
  rw [handed, List.flatMap_append]
  exact ((hrest.append_left _).subperm.trans h.tickets.subperm).trans
    (List.sublist_append_left _ _).subperm

/-- In the end the sessions that are not served are those for which no ticket is left. -/
theorem Accounts.exists_unserved (h : i.Accounts size) (hdone : i.isDone = true) :
    ∃ unserved, ((i.handed size).flatMap (·.sessions) ++ unserved).Perm i.sentSessions ∧
      (unserved ≠ [] → i.feed.ticketsOpen = false ∧ i.feed.sessionsOpen = false ∧
        ((i.handed size).flatMap (·.tickets)).Perm i.sentTickets) := by
  have hstopped := h.stopped hdone
  rw [Feed.isStopped, Bool.and_eq_true, Bool.not_eq_true', Bool.or_eq_true, Bool.not_eq_true',
    List.isEmpty_iff] at hstopped
  obtain ⟨hsessions, hend⟩ := hstopped
  have hsent : i.sentSessions = i.served.flatMap (·.sessions) ++ i.feed.waiting := by
    rw [sentSessions, h.sessionsClosed hsessions, h.sessions]
    exact List.append_nil _
  rw [handed, if_pos hdone, List.flatMap_append, List.flatMap_append, hsent]
  by_cases hleft : i.feed.leftover = []
  · -- No ticket is left, and every session that waits stays.
    rw [Feed.rest_of_leftover_eq_nil hleft]
    refine ⟨i.feed.waiting, .of_eq (by rw [List.flatMap_nil, List.append_nil]), fun hwaiting => ?_⟩
    have hclosed := hend.resolve_left hwaiting
    have hserved := h.tickets
    rw [hleft] at hserved
    refine ⟨hclosed, hsessions, ?_⟩
    rw [sentTickets, h.ticketsClosed hclosed]
    exact hserved.trans (.of_eq (List.append_nil _).symm)
  · -- Some ticket is left, and every session that waits is dealt out.
    refine ⟨[], ?_, fun hne => absurd rfl hne⟩
    rw [List.append_nil]
    exact (Feed.rest_sessions hleft).append_left _

theorem Accounts.handed_sessions (h : i.Accounts size) :
    ((i.handed size).flatMap (·.sessions)).Subperm i.sentSessions := by
  cases hdone : i.isDone with
  | true =>
    obtain ⟨unserved, hall, _⟩ := h.exists_unserved hdone
    exact (List.sublist_append_left _ _).subperm.trans hall.subperm
  | false =>
    rw [handed, hdone, if_neg Bool.false_ne_true, List.append_nil, sentSessions, ← h.sessions,
      List.append_assoc]
    exact (List.sublist_append_left _ _).subperm

/-! ## The end -/

/-- How much a feed can still read when nothing is sent any more, and its end. -/
def ahead (i : Intake σ τ) : Nat :=
  i.tickets.readings i.feed.ticketsOpen + i.sessions.readings i.feed.sessionsOpen +
    (!i.isDone).toNat

/-- A feed that goes on listens to an inlet, and a closed inlet has something for it. -/
theorem exists_gives (htickets : i.tickets.isOpen = false) (hsessions : i.sessions.isOpen = false)
    (hgoes : i.feed.isStopped = false) : ∃ a j, i.feed.Hears a ∧ i.Gives a j := by
  have hopen : i.feed.sessionsOpen = true ∨ i.feed.ticketsOpen = true := by
    rw [Feed.isStopped] at hgoes
    grind
  rcases hopen with hopen | hopen
  · cases hpending : i.sessions.pending with
    | nil =>
      exact ⟨.sessionsClosed, _, hopen, .sessionsClosed i (Inlet.eq_drained hpending hsessions)⟩
    | cons s ss => exact ⟨.session s, _, hopen, .session i s ss hpending⟩
  · cases hpending : i.tickets.pending with
    | nil =>
      exact ⟨.ticketsClosed, _, hopen, .ticketsClosed i (Inlet.eq_drained hpending htickets)⟩
    | cons t ts => exact ⟨.ticket t, _, hopen, .ticket i t ts hpending⟩

theorem Gives.isOpen {a : Arrival σ τ} (h : i.Gives a j) :
    j.tickets.isOpen = i.tickets.isOpen ∧ j.sessions.isOpen = i.sessions.isOpen := by
  cases h <;> exact ⟨rfl, rfl⟩

/-- What is read is no longer ahead. -/
theorem ahead_read_lt {a : Arrival σ τ} (hears : i.feed.Hears a) (hgives : i.Gives a j) :
    (j.read size a).ahead < i.ahead := by
  obtain ⟨htickets, hsessions⟩ := (i.feed.take size a).serve_streams
  obtain ⟨hfeed, -, -, hdone⟩ := hgives.frame
  simp only [ahead, read, Inlet.readings, hfeed, hdone, htickets, hsessions]
  cases hgives with
  | ticket t ts hpending =>
    have hopen : i.feed.ticketsOpen = true := hears
    rw [Feed.take, if_pos hopen, Feed.addTicket_ticketsOpen, Feed.addTicket_sessionsOpen, hpending,
      List.length_cons]
    dsimp only
    omega
  | session s ss hpending =>
    have hopen : i.feed.sessionsOpen = true := hears
    rw [Feed.take, if_pos hopen, hpending, List.length_cons]
    dsimp only
    omega
  | ticketsClosed _ =>
    have hopen : i.feed.ticketsOpen = true := hears
    rw [Feed.take, hopen, Bool.toNat_true, Bool.toNat_false]
    dsimp only
    omega
  | sessionsClosed _ =>
    have hopen : i.feed.sessionsOpen = true := hears
    rw [Feed.take, hopen, Bool.toNat_true, Bool.toNat_false]
    dsimp only
    omega

/-- Once nothing more is sent, the feed comes to its end. -/
theorem exists_isDone (size : Nat) (htickets : i.tickets.isOpen = false)
    (hsessions : i.sessions.isOpen = false) :
    ∃ j, Relation.ReflTransGen (Step size) i j ∧ j.isDone = true := by
  induction hn : i.ahead using Nat.strongRecOn generalizing i with
  | _ n ih =>
    cases hdone : i.isDone with
    | true => exact ⟨i, .refl, hdone⟩
    | false =>
      cases hgoes : i.feed.isStopped with
      | true => exact ⟨_, .single (.stop i hdone hgoes), rfl⟩
      | false =>
        obtain ⟨a, j, hears, hgives⟩ := exists_gives htickets hsessions hgoes
        obtain ⟨hjtickets, hjsessions⟩ := hgives.isOpen
        have hlt : (j.read size a).ahead < n := hn ▸ ahead_read_lt hears hgives
        obtain ⟨k, hk, hend⟩ := ih (i := j.read size a) _ hlt (hjtickets.trans htickets)
          (hjsessions.trans hsessions) rfl
        exact ⟨k, .head (.receive i j a hdone hgoes hears hgives) hk, hend⟩

/-- Tickets and sessions are served once: what is handed to the runs was sent, and nothing
    is handed to two of them. In the end every session is handed to a run, unless both
    streams are closed and no ticket is left for it. -/
structure ServesOnce (size : Nat) (i : Intake σ τ) : Prop where
  fits : ∀ b ∈ i.handed size, b.Fits size
  tickets : ((i.handed size).flatMap (·.tickets)).Subperm i.sentTickets
  sessions : ((i.handed size).flatMap (·.sessions)).Subperm i.sentSessions
  run : i.isDone = true → i.handed size = Feed.start.run size i.arrivals
  unserved : i.isDone = true → ∃ unserved,
    ((i.handed size).flatMap (·.sessions) ++ unserved).Perm i.sentSessions ∧
      (unserved ≠ [] → i.feed.ticketsOpen = false ∧ i.feed.sessionsOpen = false ∧
        ((i.handed size).flatMap (·.tickets)).Perm i.sentTickets)
  ends : i.tickets.isOpen = false → i.sessions.isOpen = false →
    ∃ j, Relation.ReflTransGen (Step size) i j ∧ j.isDone = true

theorem serves_once (h : i.Reachable size) : i.ServesOnce size where
  fits := h.accounts.handed_fits
  tickets := h.accounts.handed_tickets
  sessions := h.accounts.handed_sessions
  run hdone := by
    have hrun := h.accounts.run []
    rw [List.append_nil] at hrun
    rw [hrun, handed, if_pos hdone]
    rfl
  unserved := h.accounts.exists_unserved
  ends := exists_isDone size

/-- Two tickets fill a batch, and are served to the session that comes after them while
    more tickets may come. -/
theorem serves_once_full_batch :
    let i : Intake String Nat := ⟨.start, .drained, ⟨[], [], [], true, false⟩,
      [.ticket 1, .ticket 2, .session "s1", .sessionsClosed], [⟨["s1"], [1, 2]⟩], true⟩
    i.Reachable 2 ∧ i.ServesOnce 2 := by
  intro i
  have hreach : i.Reachable 2 := by
    refine .head (b := ⟨⟨[1], true⟩, .start, .start, [], [], false⟩)
      (.sendTicket _ 1 rfl) ?_
    refine .head (b := ⟨⟨[1, 2], true⟩, .start, .start, [], [], false⟩)
      (.sendTicket _ 2 rfl) ?_
    refine .head (b := ⟨⟨[2], true⟩, .start, ⟨[1], [], [], true, true⟩, [.ticket 1], [], false⟩)
      (.receive _ _ (.ticket 1) rfl rfl (by exact rfl) (.ticket _ 1 [2] rfl)) ?_
    refine .head (b := ⟨.start, .start, ⟨[], [[1, 2]], [], true, true⟩, [.ticket 1, .ticket 2], [],
        false⟩)
      (.receive _ _ (.ticket 2) rfl rfl (by exact rfl) (.ticket _ 2 [] rfl)) ?_
    refine .head (b := ⟨.start, ⟨["s1"], true⟩, ⟨[], [[1, 2]], [], true, true⟩,
        [.ticket 1, .ticket 2], [], false⟩)
      (.sendSession _ "s1" rfl) ?_
    refine .head (b := ⟨.start, .start, ⟨[], [], [], true, true⟩,
        [.ticket 1, .ticket 2, .session "s1"], [⟨["s1"], [1, 2]⟩], false⟩)
      (.receive _ _ (.session "s1") rfl rfl (by exact rfl) (.session _ "s1" [] rfl)) ?_
    refine .head (b := ⟨.start, .drained, ⟨[], [], [], true, true⟩,
        [.ticket 1, .ticket 2, .session "s1"], [⟨["s1"], [1, 2]⟩], false⟩)
      (.closeSessions _ rfl) ?_
    refine .head (b := { i with isDone := false })
      (.receive _ _ .sessionsClosed rfl rfl (by exact rfl) (.sessionsClosed _ rfl)) ?_
    exact .single (.stop _ rfl rfl)
  exact ⟨hreach, serves_once hreach⟩

end Intake

end Matchmaking
