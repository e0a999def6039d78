import Matchmaking.Engine.Batch

/-!
# Feeding open sessions

Tickets and open sessions come in two streams, in any order, until each of them
is closed. Tickets are gathered into batches. A full batch is served as soon as
a session waits, together with all sessions that wait. Once no session can come
any more and none waits, the feed stops; and when both streams are closed, what
is left is dealt out.

Of several full batches that wait, the last one is served first.

Whether room can be made for a batch is no matter of the feed: the engine asks for
it before anything comes, and does not begin where it cannot be made
(`Engine.backfillStream`).
-/

namespace Matchmaking

/-- What comes from the streams. -/
inductive Arrival (σ τ : Type) where
  /-- A ticket. -/
  | ticket (t : τ)
  /-- An open session. -/
  | session (s : σ)
  /-- No ticket comes any more. -/
  | ticketsClosed
  /-- No session comes any more. -/
  | sessionsClosed
  deriving DecidableEq

/-- What has come and is not served yet. -/
structure Feed (σ τ : Type) where
  /-- The tickets that do not fill a batch yet. -/
  batch : List τ
  /-- The full batches, the last one first. -/
  full : List (List τ)
  /-- The sessions. -/
  waiting : List σ
  /-- Whether tickets may come. -/
  ticketsOpen : Bool
  /-- Whether sessions may come. -/
  sessionsOpen : Bool
  deriving DecidableEq

namespace Feed

variable {σ τ : Type}

/-- Nothing has come. -/
def start : Feed σ τ := ⟨[], [], [], true, true⟩

/-- Whether nothing that comes matters any more. -/
def isStopped (f : Feed σ τ) : Bool :=
  !f.sessionsOpen && (f.waiting.isEmpty || !f.ticketsOpen)

/-- The feed with a ticket, which may fill a batch of `size`. -/
def addTicket (size : Nat) (f : Feed σ τ) (t : τ) : Feed σ τ :=
  if size ≤ f.batch.length + 1 then { f with batch := [], full := (f.batch ++ [t]) :: f.full }
  else { f with batch := f.batch ++ [t] }

/-- The feed with what comes. What comes from a closed stream is lost. -/
def take (size : Nat) (f : Feed σ τ) : Arrival σ τ → Feed σ τ
  | .ticket t => if f.ticketsOpen then f.addTicket size t else f
  | .session s => if f.sessionsOpen then { f with waiting := f.waiting ++ [s] } else f
  | .ticketsClosed => { f with ticketsOpen := false }
  | .sessionsClosed => { f with sessionsOpen := false }

/-- The batch that can be served, if there is one, and the feed without it. -/
def serve (f : Feed σ τ) : List (Batch σ τ) × Feed σ τ :=
  match f.full with
  | [] => ([], f)
  | b :: bs =>
    if f.waiting.isEmpty then ([], f)
    else ([⟨f.waiting, b⟩], { f with full := bs, waiting := [] })

/-- The tickets that are left, in the order in which they came. -/
def leftover (f : Feed σ τ) : List τ := f.full.reverse.flatten ++ f.batch

/-- The batches of what is left. -/
def rest (size : Nat) (f : Feed σ τ) : List (Batch σ τ) := deal size f.waiting f.leftover

/-- The batches that are served, in order, as things come; the streams are closed
    at the end. -/
def run (size : Nat) : Feed σ τ → List (Arrival σ τ) → List (Batch σ τ)
  | f, [] => f.rest size
  | f, a :: as =>
    if f.isStopped then f.rest size
    else
      let (served, f) := (f.take size a).serve
      served ++ run size f as

end Feed

end Matchmaking
