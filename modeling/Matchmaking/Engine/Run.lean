import Matchmaking.Engine.Feed
import Matchmaking.Metrics

/-!
# The engine

An engine serves one queue under its rules, at a time. Tickets are cut into
batches and new sessions are formed from each batch by itself; open sessions are
filled as they and the tickets come. Every run that comes to its end leaves its
record; one that breaks off leaves nothing, and the others go on.

How long a run finds time is up to the clock, which grants time to each run.
-/

namespace Matchmaking

variable {α : Type}

/-- The settings of an engine. -/
structure Settings where
  /-- The tickets of a batch. -/
  batchSize : Nat
  /-- The greatest number of orders to be packed for a match. -/
  cap : Nat
  /-- The nanoseconds that a run may take. -/
  timeBudget : Nat
  /-- How many results may wait to be fetched. -/
  buffer : Nat
  deriving DecidableEq

/-- An engine. -/
structure Engine (α : Type) where
  /-- Its settings. -/
  settings : Settings
  /-- The rules. -/
  rules : RuleSet α
  /-- The queue. -/
  channel : String
  /-- The time. -/
  now : Instant
  deriving DecidableEq

/-- The greatest number of tickets that room can be made for at once. -/
def Settings.greatestBatch : Nat := 50127021939428129

/-- The greatest number of results that can wait to be fetched. -/
def Settings.greatestBuffer : Nat := 2305843009213693951

/-- Whether room can be made for a batch. -/
def Settings.holdsBatch (s : Settings) : Bool := decide (s.batchSize ≤ greatestBatch)

/-- The time that a run finds when the clock grants it some: none if it may take
    none. -/
def Settings.budget (s : Settings) (granted : Budget) : Budget :=
  if s.timeBudget = 0 then .spent else granted

namespace Engine

/-- The tickets that are for the queue. -/
def ticketsFor (channel : String) (ts : List (Ticket α)) : List (Ticket α) :=
  ts.filter fun t => t.channel == channel

/-- The open sessions that are for the queue. -/
def sessionsFor (channel : String) (os : List (OpenSession α)) : List (OpenSession α) :=
  os.filter fun o => o.session.channel == channel

variable [Scalar α] (e : Engine α)

/-- What becomes of one batch of tickets. -/
def form (granted : Budget) (ts : List (Ticket α)) : Formed α :=
  (⟨e.rules, e.channel, e.now, e.settings.cap⟩ : Formation α).run (e.settings.budget granted) ts

/-- What becomes of the sessions and the tickets of one batch. -/
def backfill (granted : Budget) (b : Batch (OpenSession α) (Ticket α)) : Backfilled α :=
  (⟨e.rules, e.now⟩ : Backfill α).run (e.settings.budget granted) b.sessions b.tickets

/-- The sessions that are formed from a stream of tickets, batch by batch, and
    the records of the runs. -/
def formAll (granted : Nat → Budget) (ts : List (Ticket α)) :
    List (Session α) × List RunRecord :=
  let runs := (batches e.settings.batchSize ts).mapIdx fun i b => (b.length, e.form (granted i) b)
  (runs.flatMap fun r => r.2.handedOut, runs.filterMap fun r => RunRecord.ofFormed? r.1 r.2)

/-- The proposals for what comes from the streams of tickets and sessions, and
    the records of the runs. -/
def backfillAll (granted : Nat → Budget) (as : List (Arrival (OpenSession α) (Ticket α))) :
    List (Proposal α) × List RunRecord :=
  let runs := (Feed.start.run e.settings.batchSize as).mapIdx fun i b => e.backfill (granted i) b
  (runs.flatMap (·.proposals), runs.map .ofBackfilled)

/-! ### Streams

Room is made for a whole batch before anything is taken from a stream. Where it
cannot be made nothing is done. -/

/-- The sessions that a stream of tickets leads to, and the records of the runs. -/
def formStream (granted : Nat → Budget) (ts : List (Ticket α)) :
    List (Session α) × List RunRecord :=
  if e.settings.holdsBatch then e.formAll granted ts else ([], [])

/-- The proposals that streams of tickets and sessions lead to, and the records of
    the runs. -/
def backfillStream (granted : Nat → Budget) (as : List (Arrival (OpenSession α) (Ticket α))) :
    List (Proposal α) × List RunRecord :=
  if e.settings.holdsBatch then e.backfillAll granted as else ([], [])

end Engine

end Matchmaking
