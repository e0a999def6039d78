/-!
# Batches

A stream of tickets is cut into batches, each of which is served by a run of its
own. What is left when streams end is cut into batches too, and the sessions
that still wait are dealt over them in turn.
-/

namespace Matchmaking

variable {σ τ : Type}

/-- A list cut into batches of `size`, of which the last one may be smaller. A
    size of zero counts as one. -/
def batches (size : Nat) : List τ → List (List τ)
  | [] => []
  | x :: xs => (x :: xs.take (size - 1)) :: batches size (xs.drop (size - 1))
termination_by xs => xs.length
decreasing_by simp only [List.length_drop, List.length_cons]; omega

/-- Every `count`-th entry of a list, from the one at `i` on. -/
def share (count i : Nat) (xs : List σ) : List σ :=
  (xs.zipIdx.filter fun e => e.2 % count == i).map (·.1)

/-- Sessions and the tickets to fill them from. -/
structure Batch (σ τ : Type) where
  /-- The sessions. -/
  sessions : List σ
  /-- The tickets. -/
  tickets : List τ
  deriving DecidableEq

/-- Tickets cut into batches, and sessions dealt over them in turn. A batch
    without sessions is left out. -/
def deal (size : Nat) (sessions : List σ) (tickets : List τ) : List (Batch σ τ) :=
  let cut := batches size tickets
  (cut.mapIdx fun i ts => ⟨share cut.length i sessions, ts⟩).filter fun b => !b.sessions.isEmpty

end Matchmaking
