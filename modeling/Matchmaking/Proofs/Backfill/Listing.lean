import Matchmaking.Proofs.Backfill.Options
import Matchmaking.Proofs.Relisting

/-!
# The order of listing of open sessions and tickets

Open sessions are put in order before they are filled, so it is no matter how they are
listed. Tickets are not: a ticket that is looked at first may keep a later one out that
would be served before it. But tickets that are independent may be listed in any order:
every search finds the same of them (`Search.run_eq_of_relists`), and a ticket that is
found is taken out of the queue by its id (`Backfill.fill_of_perm`).
-/

namespace Matchmaking

variable {α : Type}

theorem OpenSession.ticketId_eq_of_rank_eq {o o' : OpenSession α} (h : rank o o' = .eq) :
    o.ticketId = o'.ticketId := by
  simp only [rank, compareLex, Ordering.then_eq_eq] at h
  exact Std.LawfulEqOrd.eq_of_compare h.2

namespace Ticket

variable {pool pool' : List (Ticket α)}

/-- Where ids are different it is no matter where a ticket is listed. -/
theorem find?_id_eq_of_perm (hid : (pool.map (·.id)).Nodup) (h : pool.Perm pool') (id : String) :
    (pool.find? fun t => t.id == id) = pool'.find? fun t => t.id == id := by
  cases hfind : pool'.find? fun t => t.id == id with
  | none =>
    rw [List.find?_eq_none] at hfind ⊢
    exact fun t ht => hfind t (h.mem_iff.1 ht)
  | some t =>
    have ht : t ∈ pool := h.mem_iff.2 (List.mem_of_find?_eq_some hfind)
    obtain rfl : t.id = id := by simpa using List.find?_some hfind
    exact find?_id_eq_some hid ht

theorem without_cons (id : String) (ids : List String) (pool : List (Ticket α)) :
    without (id :: ids) pool = without ids (without [id] pool) := by
  simp only [without, List.filter_filter]
  refine List.filter_congr fun t _ => ?_
  simp [Bool.and_comm]

theorem without_nil (pool : List (Ticket α)) : without [] pool = pool :=
  without_eq_self fun _ _ => List.not_mem_nil

theorem nodup_without (hid : (pool.map (·.id)).Nodup) (ids : List String) :
    ((without ids pool).map (·.id)).Nodup :=
  hid.sublist ((without_sublist ids pool).map _)

end Ticket

namespace Backfill

variable [Scalar α] {b : Backfill α} {rules : RuleSet α} {pool pool' : List (Ticket α)}

omit [Scalar α] in
/-- Where ids are different a ticket is taken out by its id. -/
theorem takeTicket?_eq (hid : (pool.map (·.id)).Nodup) (id : String) :
    takeTicket? id pool =
      (pool.find? fun t => t.id == id).map fun t => (t, Ticket.without [id] pool) := by
  induction pool with
  | nil => rfl
  | cons t pool ih =>
    rw [takeTicket?]
    by_cases ht : t.id = id
    · subst ht
      rw [if_pos rfl, List.find?_cons_of_pos (by simp), Option.map_some,
        Ticket.without_cons_of_mem (List.mem_singleton_self _), Ticket.without_head hid]
    · have hwithout : Ticket.without [id] (t :: pool) = t :: Ticket.without [id] pool :=
        List.filter_cons_of_pos (by simpa using ht)
      rw [if_neg ht, ih (List.nodup_cons.1 hid).2, List.find?_cons_of_neg (by simpa using ht),
        hwithout, Option.map_map]
      rfl

/-- A session is filled in the same way from the same tickets, in whatever order, and
    those that joined it leave the queue. -/
theorem fill_of_perm (rules : RuleSet α) (time : Budget) (ids : List String) (s : Session α)
    (hid : (pool.map (·.id)).Nodup) (h : pool.Perm pool') :
    fill rules time ids s pool =
      { fill rules time ids s pool' with
        left := Ticket.without (fill rules time ids s pool').added pool } := by
  induction ids generalizing time s pool pool' with
  | nil => simp only [fill, Ticket.without_nil]
  | cons id ids ih =>
    have hid' : (pool'.map (·.id)).Nodup := (h.map _).nodup_iff.1 hid
    rw [fill, fill]
    cases time.read? with
    | none => simp only [Ticket.without_nil]
    | some time =>
      dsimp only
      rw [takeTicket?_eq hid, takeTicket?_eq hid', Ticket.find?_id_eq_of_perm hid h]
      cases hfind : pool'.find? fun t => t.id == id with
      | none => exact ih time s hid h
      | some t =>
        obtain rfl : t.id = id := by simpa using List.find?_some hfind
        simp only [Option.map_some]
        cases place? rules t s with
        | none => exact ih time s hid h
        | some p =>
          dsimp only
          split_ifs
          · rfl
          · have hrest : (Ticket.without [t.id] pool).Perm (Ticket.without [t.id] pool') :=
              h.filter _
            rw [ih time _ (Ticket.nodup_without hid [t.id]) hrest]
            simp only [← Ticket.without_cons t.id]

/-- A session is filled in the same way from queues that differ by independent tickets, and
    those that joined it leave the queue. -/
theorem session_of_relists (b : Backfill α) (time : Budget) (s : Session α)
    (hid : (pool.map (·.id)).Nodup) (h : Relists b.rules.Independent pool pool') :
    b.session time s pool =
      { b.session time s pool' with
        left := Ticket.without (b.session time s pool').added pool } := by
  simp only [session]
  split_ifs
  · simp only [Ticket.without_nil]
  · -- The rules in force have the options and the policy of the rules.
    have hactive : Relists (b.search s).active.Independent pool pool' :=
      h.mono fun t u htu => ⟨htu.id, htu.apart, htu.platforms, htu.unique, htu.any, htu.blocked⟩
    rw [Search.run_eq_of_relists hid hactive]
    exact fill_of_perm _ _ _ _ hid h.perm

end Backfill

/-- Two runs came to the same: the same proposals and sessions, and the same tickets are
    left, in whatever order. -/
structure Backfilled.Same (r r' : Backfilled α) : Prop where
  proposals : r.proposals = r'.proposals
  sessions : r.sessions = r'.sessions
  unmatched : r.unmatched.Perm r'.unmatched
  satisfied : r.satisfied = r'.satisfied
  outOfBudget : r.outOfBudget = r'.outOfBudget

namespace Backfill

variable [Scalar α] {b : Backfill α} {os os' : List (OpenSession α)} {ts us : List (Ticket α)}

theorem sessions_of_relists (b : Backfill α) (time : Budget) (os : List (OpenSession α))
    (hid : (ts.map (·.id)).Nodup) (h : Relists b.rules.Independent ts us) :
    (b.sessions time os ts).Same (b.sessions time os us) := by
  induction os generalizing time ts us with
  | nil => exact ⟨rfl, rfl, h.perm, rfl, rfl⟩
  | cons o os ih =>
    rw [sessions, sessions]
    cases time.read? with
    | none => exact ⟨rfl, rfl, h.perm, rfl, rfl⟩
    | some time =>
      have hid' : (us.map (·.id)).Nodup := (h.perm.map _).nodup_iff.1 hid
      have hus := b.session_of_relists time o.session hid' (.refl us)
      dsimp only
      rw [b.session_of_relists time o.session hid h]
      generalize b.session time o.session us = turn at hus
      obtain ⟨s, added, left, later, late⟩ := turn
      obtain rfl : left = Ticket.without added us := congrArg TurnResult.left hus
      have hrest := ih later (hid.sublist ((Ticket.without_sublist added ts).map _)) (h.filter _)
      dsimp only
      by_cases hempty : added.isEmpty = true
      · rw [if_pos hempty, if_pos hempty]
        exact ⟨hrest.proposals, congrArg (_ :: ·) hrest.sessions, hrest.unmatched,
          hrest.satisfied, congrArg (late || ·) hrest.outOfBudget⟩
      · rw [if_neg hempty, if_neg hempty]
        exact ⟨congrArg (_ :: ·) hrest.proposals, congrArg (_ :: ·) hrest.sessions,
          hrest.unmatched, congrArg (· + _) hrest.satisfied,
          congrArg (late || ·) hrest.outOfBudget⟩

/-- Open sessions with tickets of their own that they wait under, listed in any order, and
    tickets with ids of their own, listed in any order that keeps the places of those that
    are not independent: the same tickets join the same sessions, whenever time is spent. -/
theorem run_same_of_perm (b : Backfill α) (budget : Budget)
    (hos : (os.map (·.ticketId)).Nodup) (hperm : os.Perm os')
    (hid : (ts.map (·.id)).Nodup) (h : ts.Perm us)
    (horder : ∀ t u, [t, u].Sublist ts → ¬b.rules.Independent t u → [t, u].Sublist us) :
    (b.run budget os ts).Same (b.run budget os' us) := by
  have hsorted : sortBy OpenSession.rank os = sortBy OpenSession.rank os' :=
    sortBy_eq_of_perm hperm fun o ho o' ho' heq =>
      List.inj_on_of_nodup_map hos ho ho' (OpenSession.ticketId_eq_of_rank_eq heq)
  have hrelists : Relists b.rules.Independent ts us :=
    .of_perm (List.Nodup.of_map _ hid) h horder
  rw [run, run, hsorted]
  exact b.sessions_of_relists budget _ hid hrelists

/-! ### Listed heroes -/

/-- A match of one player with a hero, open to another one with another hero. -/
def openDraft (id player name : String) : OpenSession Float where
  ticketId := id
  session := { Formation.draft.soloSession (Formation.hero player player name) with
    id := id
    status := .forming
    joinable := true }

/-- Two players have the same hero, and the second one is to be served first. -/
def bob : Ticket Float := Formation.hero "b" "bob" "mage"

def cat : Ticket Float := { Formation.hero "c" "cat" "mage" with priority := 1 }

/-- A third player has another hero. -/
def dan : Ticket Float := Formation.hero "d" "dan" "knight"

theorem draft_same_of_perm :
    (Formation.draftFilling.run .unlimited
        [openDraft "m" "ann" "rogue", openDraft "n" "eve" "rogue"] [bob, cat, dan]).Same
      (Formation.draftFilling.run .unlimited
        [openDraft "n" "eve" "rogue", openDraft "m" "ann" "rogue"] [dan, bob, cat]) := by
  refine run_same_of_perm _ .unlimited (by decide) (.swap _ _ _) (by decide) ?_
    fun t u htu hnot => ?_
  · exact ((List.Perm.swap dan cat []).cons bob).trans (.swap dan bob [cat])
  · -- Only the two mages are not independent.
    have hbob : Formation.draftFilling.rules.Independent bob dan := by decide +kernel
    have hcat : Formation.draftFilling.rules.Independent cat dan := by decide +kernel
    have hpairs : t = cat ∧ u = dan ∨ t = bob ∧ (u = dan ∨ u = cat) := by
      simpa [List.sublist_cons_iff] using htu
    rcases hpairs with ⟨rfl, rfl⟩ | ⟨rfl, rfl | rfl⟩
    · exact absurd hcat hnot
    · exact absurd hbob hnot
    · exact List.sublist_cons_self dan [bob, cat]

/-- Of two players with the same hero the one that is listed first joins, even if the other
    one is to be served first. -/
theorem draft_listing_matters : ([bob, cat].map (·.id)).Nodup ∧ [bob, cat].Perm [cat, bob] ∧
    bob.priority < cat.priority ∧
    (Formation.draftFilling.run .unlimited [openDraft "m" "ann" "rogue"]
      [bob, cat]).proposals.map (·.added) = [["b"]] ∧
    ¬(Formation.draftFilling.run .unlimited [openDraft "m" "ann" "rogue"] [bob, cat]).Same
      (Formation.draftFilling.run .unlimited [openDraft "m" "ann" "rogue"] [cat, bob]) := by
  have hbob : (Formation.draftFilling.run .unlimited [openDraft "m" "ann" "rogue"]
      [bob, cat]).proposals.map (·.added) = [["b"]] := by decide +kernel
  have hcat : (Formation.draftFilling.run .unlimited [openDraft "m" "ann" "rogue"]
      [cat, bob]).proposals.map (·.added) = [["c"]] := by decide +kernel
  refine ⟨by decide, .swap _ _ _, by decide, hbob, fun hsame => ?_⟩
  rw [hsame.proposals, hcat] at hbob
  exact absurd hbob (by decide)

end Backfill

end Matchmaking
