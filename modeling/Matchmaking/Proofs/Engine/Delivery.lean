import Matchmaking.Engine.Run
import Matchmaking.Proofs.Engine.Line
import Matchmaking.Proofs.Formation.Alone

/-!
# How results are delivered

An engine forms sessions on a line of batches (`Engine.line`). Every run of a batch reads the
clock for itself, so it starts at a time of its own and may find time for all of its rounds,
for some of them or for none; one that breaks off has no results, and the others go on.

In the end the sessions are an interleaving of those of the runs, one for each batch
(`Engine.run_delivers`). Room is made for a whole batch before anything is read, though, and
where it cannot be made no session is ever handed on (`Engine.crowd_loses_results`).
-/

namespace Matchmaking

namespace Engine

variable {α : Type} [Scalar α] {e : Engine α} {times : Instant → Prop}
  {d : Delivery (Ticket α) (Session α)}

/-- The line on which sessions are formed. Every run reads the clock for itself: it starts at
    one of some times, and is granted time as the later readings have it. -/
def line (e : Engine α) (times : Instant → Prop) : Line (Ticket α) (Session α) where
  size := e.settings.batchSize
  hasRoom := e.settings.holdsBatch
  capacity := e.settings.buffer
  Yields b xs := ∃ now granted, times now ∧ xs = ({ e with now := now }.form granted b).handedOut

/-- The sessions of a run have no ticket twice, and only tickets of the batch. -/
theorem form_subperm (e : Engine α) (granted : Budget) {b : List (Ticket α)}
    (hid : (b.map (·.id)).Nodup) :
    ((e.form granted b).handedOut.flatMap Session.ticketIds).Subperm (b.map (·.id)) := by
  let f : Formation α := ⟨e.rules, e.channel, e.now, e.settings.cap⟩
  have hperm := (f.run_accounts (e.settings.budget granted) hid).ids_perm.trans (f.queue_ids_perm b)
  have hhanded := (e.form granted b).handedOut_sublist.flatMap Session.ticketIds
  exact hhanded.subperm.trans ((List.sublist_append_left _ _).subperm.trans hperm.subperm)

/-- Sessions are delivered: in the end those that are received are an interleaving of those
    of a run of each batch, each run's in their order, and they are the sessions of the stream
    if all runs start at one time. Of tickets with different ids none is in two sessions that
    are received. Where no room can be made for a batch nothing is received. Once nothing is
    sent any more, only so many steps can be made, and the end is where they lead. -/
structure Delivers (e : Engine α) (times : Instant → Prop)
    (d : Delivery (Ticket α) (Session α)) : Prop where
  interleaves : e.settings.holdsBatch = true → d.isOver = true →
    ∃ runs, List.Forall₂ (e.line times).Yields (batches e.settings.batchSize d.sent) runs ∧
      Interleaves runs d.received ∧ ∀ sessions ∈ runs, sessions.Sublist d.received
  stream : (∀ now, times now → now = e.now) → d.isOver = true →
    ∃ granted, d.received.Perm (e.formStream granted d.sent).1
  once : (d.sent.map (·.id)).Nodup → (d.received.flatMap Session.ticketIds).Nodup
  lost : e.settings.holdsBatch = false → d.received = []
  stops : d.tickets.isOpen = false → Acc (fun d' d => Delivery.Step (e.line times) d d') d
  ends : (∃ now, times now) → 0 < e.settings.buffer → d.tickets.isOpen = false →
    ∃ d', Relation.ReflTransGen (Delivery.Step (e.line times)) d d' ∧ d'.isOver = true

/-- Where all runs start at one time, the runs of the batches are those of the stream. -/
theorem exists_formAll_eq (htimes : ∀ now, times now → now = e.now) {ts : List (Ticket α)}
    {runs : List (List (Session α))}
    (h : List.Forall₂ (e.line times).Yields (batches e.settings.batchSize ts) runs) :
    ∃ granted, (e.formAll granted ts).1 = runs.flatten := by
  have hruns : ∀ (bs : List (List (Ticket α))) (xss : List (List (Session α))),
      List.Forall₂ (e.line times).Yields bs xss → ∃ granted : Nat → Budget,
        ((bs.mapIdx fun i b => (b.length, e.form (granted i) b)).map fun r => r.2.handedOut) =
          xss := by
    intro bs xss h
    induction h with
    | nil => exact ⟨fun _ => .unlimited, rfl⟩
    | @cons b xs bs xss hb _ ih =>
      obtain ⟨now, first, hnow, rfl⟩ := hb
      obtain ⟨granted, rfl⟩ := ih
      -- The first run has its own grant, and those of the others stand behind it.
      refine ⟨fun i => Nat.casesOn i first granted, ?_⟩
      rw [htimes now hnow, List.mapIdx_cons, List.map_cons]
      rfl
  obtain ⟨granted, hgranted⟩ := hruns _ _ h
  refine ⟨granted, ?_⟩
  rw [← hgranted, ← List.flatMap_def]
  rfl

/-- What an engine delivers, however its runs take turns. -/
theorem run_delivers (h : d.Reachable (e.line times)) : e.Delivers times d where
  interleaves hroom hover := by
    obtain ⟨runs, hruns, hinter⟩ := h.accounts.interleaves hroom hover
    exact ⟨runs, hruns, hinter, hinter.sublist⟩
  stream htimes hover := by
    cases hroom : e.settings.holdsBatch with
    | true =>
      obtain ⟨runs, hruns, hinter⟩ := h.accounts.interleaves hroom hover
      obtain ⟨granted, hgranted⟩ := exists_formAll_eq htimes hruns
      refine ⟨granted, ?_⟩
      rw [formStream, if_pos hroom, hgranted]
      exact hinter.perm
    | false =>
      refine ⟨fun _ => .unlimited, ?_⟩
      rw [h.accounts.received_eq_nil hroom, formStream, hroom]
      exact .refl _
  once hid := by
    have hsub := h.accounts.received_subperm (·.id) Session.ticketIds (fun b xs hb hxs => by
      obtain ⟨now, granted, _, rfl⟩ := hxs
      exact form_subperm _ granted hb) hid
    obtain ⟨ids, hperm, hids⟩ := hsub
    exact hperm.nodup_iff.1 (hid.sublist hids)
  lost := h.accounts.received_eq_nil
  stops := Delivery.acc_step
  ends htimes hbuffer hclosed :=
    Delivery.exists_isOver hclosed hbuffer fun b =>
      htimes.elim fun now hnow => ⟨_, now, .unlimited, hnow, rfl⟩

/-! ### A drill -/

/-- An engine for players who practise alone, with batches of a size. -/
def drill (batchSize : Nat) : Engine Float where
  settings := ⟨batchSize, 1, 1, 1⟩
  rules := (Formation.practice none .unlimited).rules
  channel := "practice"
  now := .ofNanos 0

/-- The session of a player who practises. -/
def drillSession (id : String) : Session Float :=
  (Formation.practice none .unlimited).soloSession (Formation.trainee id)

theorem drill_handsOut (batchSize : Nat) (granted : Budget) (id : String) :
    ((drill batchSize).form granted [Formation.trainee id]).handedOut = [drillSession id] := by
  have hf : (Formation.practice none .unlimited).isSinglePlayer = true := by decide
  have hqueue : (Formation.practice none .unlimited).queue [Formation.trainee id] =
      [Formation.trainee id] := Ticket.sortQueue_eq_self (List.pairwise_singleton _ _)
  have hends : ((drill batchSize).form granted [Formation.trainee id]).failure = none :=
    Formation.run_failure_alone hf _ _
  have hrun := Formation.run_alone hf ((drill batchSize).settings.budget granted)
    [Formation.trainee id]
  rw [hqueue] at hrun
  rw [Formed.handedOut_eq hends]
  exact hrun

theorem drill_yields (batchSize : Nat) (id : String) :
    ((drill batchSize).line (· = .ofNanos 0)).Yields [Formation.trainee id] [drillSession id] :=
  ⟨.ofNanos 0, .unlimited, rfl, (drill_handsOut batchSize .unlimited id).symm⟩

/-- The player who came second is served first. -/
theorem drill_delivers :
    let d : Delivery (Ticket Float) (Session Float) :=
      ⟨.drained, [Formation.trainee "a", Formation.trainee "b"], [], true,
        [⟨[Formation.trainee "a"], some []⟩, ⟨[Formation.trainee "b"], some []⟩], [],
        [drillSession "b", drillSession "a"]⟩
    d.Reachable ((drill 1).line (· = .ofNanos 0)) ∧ (drill 1).Delivers (· = .ofNanos 0) d := by
  intro d
  have hreach : d.Reachable ((drill 1).line (· = .ofNanos 0)) := by
    refine .head (.send .start (Formation.trainee "a") rfl) ?_
    refine .head (.send _ (Formation.trainee "b") rfl) ?_
    refine .head (.close _ rfl) ?_
    refine .head (.gather _ (Formation.trainee "a") [Formation.trainee "b"] rfl rfl rfl) ?_
    refine .head (.gather _ (Formation.trainee "b") [] rfl rfl rfl) ?_
    refine .head (.finish _ rfl rfl rfl) ?_
    refine .head (.run _ 1 _ _ rfl (drill_yields 1 "b")) ?_
    refine .head (.handOn _ 1 _ _ _ rfl (by decide)) ?_
    refine .head (.receive _ _ _ rfl) ?_
    refine .head (.run _ 0 _ _ rfl (drill_yields 1 "a")) ?_
    refine .head (.handOn _ 0 _ _ _ rfl (by decide)) ?_
    exact .head (.receive _ _ _ rfl) .refl
  exact ⟨hreach, run_delivers hreach⟩

/-- Room can be made for no batch of the greatest size that can be asked for. The player
    who waits is lost, and the session of a run is not delivered. -/
theorem crowd_loses_results :
    let e := drill 18446744073709551615
    ∃ d : Delivery (Ticket Float) (Session Float), d.Reachable (e.line (· = .ofNanos 0)) ∧
      d.isOver = true ∧ d.sent = [Formation.trainee "a"] ∧ d.received = [] ∧
      ¬∃ runs, List.Forall₂ (e.line (· = .ofNanos 0)).Yields
        (batches e.settings.batchSize d.sent) runs ∧ Interleaves runs d.received := by
  refine ⟨⟨⟨[Formation.trainee "a"], false⟩, [], [], true, [], [], []⟩, ?_, rfl, rfl, rfl, ?_⟩
  · refine .head (.send .start (Formation.trainee "a") rfl) ?_
    refine .head (.close _ rfl) ?_
    exact .head (.fail _ rfl rfl) .refl
  · rintro ⟨runs, hruns, hinter⟩
    rw [show Delivery.sent _ = [Formation.trainee "a"] from rfl,
      batches_of_length_le (List.cons_ne_nil _ _) (by decide)] at hruns
    obtain ⟨xs, _, hxs, hnil, rfl⟩ := List.forall₂_cons_left_iff.1 hruns
    obtain rfl := List.forall₂_nil_left_iff.1 hnil
    -- The run has the session of the player.
    obtain ⟨now, granted, rfl, rfl⟩ := hxs
    have hperm := hinter.perm.length_eq
    rw [List.flatten_singleton] at hperm
    exact absurd (hperm.trans (congrArg List.length
      (drill_handsOut 18446744073709551615 granted "a"))) (by decide)

end Engine

end Matchmaking
