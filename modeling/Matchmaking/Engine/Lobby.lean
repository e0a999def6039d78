import Matchmaking.Engine.Run

/-!
# Lobbies

A lobby keeps the tickets that wait and the sessions that are open from one run
to the next. The sessions that a run forms are numbered in the order in which
they are formed; those that are open wait for more players under a ticket of
their own, until they are full.
-/

namespace Matchmaking

/-- What waits between two runs. -/
structure Lobby (α : Type) where
  /-- The tickets. -/
  pool : List (Ticket α)
  /-- The open sessions. -/
  sessions : List (OpenSession α)
  /-- How many sessions have been formed. -/
  formed : Nat
  /-- The records of all runs, in order. -/
  records : List RunRecord
  deriving DecidableEq

namespace Lobby

variable {α : Type}

/-- Nothing waits. -/
def empty : Lobby α := ⟨[], [], 0, []⟩

/-- More tickets wait. -/
def add (l : Lobby α) (ts : List (Ticket α)) : Lobby α := { l with pool := l.pool ++ ts }

/-- The id of the session that is formed as the one of a number. -/
def sessionId (n : Nat) : String := "m" ++ toString n

/-- The ticket under which a session waits. -/
def openTicketId (session : String) : String := "b-" ++ session

/-- A session under the id of its number. -/
def numbered (n : Nat) (s : Session α) : Session α := { s with id := sessionId n }

/-- An open session under its ticket. -/
def waiting (s : Session α) : OpenSession α := ⟨openTicketId s.id, s⟩

variable [Scalar α]

/-- One run that forms sessions from all tickets. If it breaks off everybody waits
    on. -/
def form (e : Engine α) (granted : Budget) (l : Lobby α) : Formed α × Lobby α :=
  let f := e.form granted l.pool
  match RunRecord.ofFormed? l.pool.length f with
  | none => (f, l)
  | some record =>
    let numbered := f.sessions.mapIdx fun i s => numbered (l.formed + i) s
    (f,
      { pool := f.unmatched
        sessions := l.sessions ++ (numbered.filter (·.joinable)).map waiting
        formed := l.formed + f.sessions.length
        records := l.records ++ [record] })

/-- One run that fills all open sessions. -/
def backfill (e : Engine α) (granted : Budget) (l : Lobby α) : Backfilled α × Lobby α :=
  let b := e.backfill granted ⟨l.sessions, l.pool⟩
  (b,
    { l with
      pool := b.unmatched
      sessions := b.sessions.filter fun o => decide (o.session.status ≠ .satisfied)
      records := l.records ++ [.ofBackfilled b] })

end Lobby

end Matchmaking
