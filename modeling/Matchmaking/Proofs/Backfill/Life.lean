import Matchmaking.Proofs.Backfill.Conservation
import Matchmaking.Proofs.Formation.Founding

/-!
# The life of a session

A session is formed in a run over a queue, gets an id, and is extended by runs that
fill open sessions, with tickets of other queues (`Formation.Life`). Where no queue
has two tickets of one id, the tickets that join in a run were found for the session
(`Backfill.Extends.accord`), so in its whole life tickets gather around the one that
founded it: those that join are in accord with the attributes that the session has by
then, and these are the attributes of its tickets, merged (`RuleSet.Gathers`,
`Formation.Life.gathers`).
-/

namespace Matchmaking

variable {α : Type}

namespace Ticket

/-- No two tickets have the same id. -/
def Distinct (ts : List (Ticket α)) : Prop := (ts.map (·.id)).Nodup

instance (ts : List (Ticket α)) : Decidable (Distinct ts) :=
  inferInstanceAs (Decidable (ts.map (·.id)).Nodup)

theorem Distinct.subperm {ts us : List (Ticket α)} (h : Distinct us) (hts : ts.Subperm us) :
    Distinct ts := by
  obtain ⟨l, hl, hsub⟩ := hts
  exact (hl.map _).nodup_iff.1 (List.Nodup.sublist (hsub.map _) h)

/-- Tickets of a queue are the same if their ids are. -/
theorem Distinct.perm_of_ids {queue ts us : List (Ticket α)} (h : Distinct queue)
    (hts : ts.Subperm queue) (hus : us.Subperm queue)
    (hids : (ts.map (·.id)).Perm (us.map (·.id))) :
    ts.Perm us := by
  have hmem : ∀ {vs ws : List (Ticket α)}, vs.Subperm queue → ws.Subperm queue →
      (vs.map (·.id)).Perm (ws.map (·.id)) → ∀ t ∈ vs, t ∈ ws := by
    intro vs ws hvs hws hids t ht
    obtain ⟨u, hu, hut⟩ := List.mem_map.1 (hids.mem_iff.1 (List.mem_map_of_mem ht))
    exact eq_of_id_eq h (hws.subset hu) (hvs.subset ht) hut ▸ hu
  refine (List.perm_ext_iff_of_nodup (h.subperm hts).of_map (h.subperm hus).of_map).2 fun t => ?_
  exact ⟨hmem hts hus hids t, hmem hus hts hids.symm t⟩

end Ticket

variable [Scalar α]

namespace Backfill

variable {b : Backfill α} {pool : List (Ticket α)} {s s' : Session α} {ts : List (Ticket α)}

/-- The tickets that join a session were found for it. -/
theorem Serves.subperm_found {left : List (Ticket α)} (h : b.Serves s pool s' ts left)
    (hpool : Ticket.Distinct pool) : ts.Subperm (((b.search s).run pool).map (·.ticket)) := by
  have hts : ts.Subperm pool :=
    (List.sublist_append_left ts left).subperm.trans h.left_perm.subperm
  have hfound : (((b.search s).run pool).map (·.ticket)).Subperm pool :=
    (b.search s).run_subperm pool
  refine (hpool.subperm hts).of_map.subperm fun t ht => ?_
  -- A ticket of its id was found, and that is the ticket.
  obtain ⟨found, hmem, hid⟩ := List.mem_map.1 (h.found.subset (List.mem_map_of_mem ht))
  have hticket : found.ticket ∈ ((b.search s).run pool).map (·.ticket) := List.mem_map_of_mem hmem
  exact Ticket.eq_of_id_eq hpool (hfound.subset hticket) (hts.subset ht) hid ▸ hticket

/-- In a run that fills open sessions, tickets of a queue join an open session. -/
inductive Extends (b : Backfill α) (pool : List (Ticket α)) :
    Session α → Session α → List (Ticket α) → Prop
  | run {budget : Budget} {os : List (OpenSession α)} {o o' : OpenSession α}
    {ts : List (Ticket α)} :
    (o, o') ∈ (sortBy OpenSession.rank os).zip (b.run budget os pool).sessions →
      ts.Subperm pool → o.session.Gains o'.session ts → Extends b pool o.session o'.session ts

/-- What becomes of a session in a run is that it is served, from what others left. -/
theorem Extends.serves (h : b.Extends pool s s' ts) (hpool : Ticket.Distinct pool) :
    ∃ queue us left, Ticket.Distinct queue ∧ b.Serves s queue s' us left ∧ us.Perm ts := by
  cases h with
  | @run budget os o o' ts hrun hts hgains =>
    obtain ⟨fs, haccounts, hserved⟩ := b.run_serves budget os pool
    obtain ⟨f, hf, rfl, rfl⟩ := haccounts.exists_filling hrun
    obtain ⟨queue, left, hqueue, hserves⟩ := hserved f hf
    refine ⟨queue, f.joined, left, hpool.subperm hqueue, hserves, ?_⟩
    -- Tickets are known by their ids, and those are the ids that the session gained.
    have hids : (f.joined.map (·.id)).Perm (ts.map (·.id)) :=
      (List.perm_append_left_iff _).1 (hserves.gains.ticketIds.symm.trans hgains.ticketIds)
    have hsub : f.joined.Subperm queue :=
      (List.sublist_append_left f.joined left).subperm.trans hserves.left_perm.subperm
    exact hpool.perm_of_ids (hsub.trans hqueue) hts hids

/-- Tickets that join a session in a run are in accord with its attributes. -/
theorem Extends.accord (h : b.Extends pool s s' ts) (hpool : Ticket.Distinct pool) :
    Accord b.rules.optionKind? b.rules.narrowAny s.attributes.names (ts.map (·.optionNames)) := by
  obtain ⟨queue, us, left, hqueue, hserves, hus⟩ := h.serves hpool
  obtain ⟨l, hl, hsub⟩ := hserves.subperm_found hqueue
  exact ((b.search s).run_accord queue).subperm
    ⟨l.map (·.optionNames), (hl.trans hus).map _, hsub.map _⟩

/-- If one ticket only is not left by a run that fills one session, it joined that. -/
theorem exists_extends {o : OpenSession α} {t : Ticket α} {rest : List (Ticket α)}
    (h : (b.run .unlimited [o] (t :: rest)).unmatched = rest) :
    ∃ s', b.Extends (t :: rest) o.session s' [t] := by
  obtain ⟨fs, haccounts, _⟩ := b.run_accounts .unlimited [o] (t :: rest)
  have hone : sortBy OpenSession.rank [o] = [o] := List.mergeSort_singleton o
  have hbefore := haccounts.before
  rw [hone] at hbefore
  obtain ⟨f, rfl, rfl⟩ := List.map_eq_singleton_iff.1 hbefore
  have htickets := haccounts.tickets
  rw [List.flatMap_singleton, h, ← List.singleton_append] at htickets
  have hjoined : f.joined = [t] :=
    List.perm_singleton.1 ((List.perm_append_right_iff rest).1 htickets)
  have hrun : (f.before, f.after) ∈
      (sortBy OpenSession.rank [f.before]).zip
        (b.run .unlimited [f.before] (t :: rest)).sessions := by
    rw [hone, haccounts.after]
    exact List.mem_singleton_self _
  exact ⟨f.after.session, .run hrun (List.singleton_subperm_iff.2 List.mem_cons_self)
    (hjoined ▸ f.gains)⟩

end Backfill

/-- Tickets gather around a pivot: first others that are in accord with it, and then
    tickets that are in accord with the attributes at the time. These are the
    attributes of all tickets, merged. -/
inductive RuleSet.Gathers (r : RuleSet α) (pivot : Ticket α) :
    Attributes α → List (Ticket α) → Prop
  | founded {a : Attributes α} {others : List (Ticket α)} (hrecords : r.Records a (pivot :: others))
    (haccord : Accord r.optionKind? r.narrowAny pivot.optionNames (others.map (·.optionNames))) :
    Gathers r pivot a (pivot :: others)
  | joined {a a' : Attributes α} {ts us : List (Ticket α)} (h : Gathers r pivot a ts)
    (hrecords : r.Records a' (ts ++ us))
    (haccord : Accord r.optionKind? r.narrowAny a.names (us.map (·.optionNames))) :
    Gathers r pivot a' (ts ++ us)

theorem RuleSet.Gathers.records {r : RuleSet α} {pivot : Ticket α} {a : Attributes α}
    {ts : List (Ticket α)} (h : r.Gathers pivot a ts) : r.Records a ts := by
  cases h with
  | founded hrecords _ => exact hrecords
  | joined _ hrecords _ => exact hrecords

theorem RuleSet.Gathers.head?_eq {r : RuleSet α} {pivot : Ticket α} {a : Attributes α}
    {ts : List (Ticket α)} (h : r.Gathers pivot a ts) : ts.head? = some pivot := by
  induction h with
  | founded _ _ => rfl
  | joined _ _ _ ih => rw [List.head?_append, ih, Option.some_or]

/-- The tickets of a session, looked up in a queue. -/
def Session.ticketsIn (s : Session α) (ts : List (Ticket α)) : List (Ticket α) :=
  ts.filter fun t => s.ticketIds.contains t.id

namespace Formation

/-- The life of a session, with the ticket that founded it and all its tickets: it is
    formed from a queue whose tickets have ids of their own, and then extended under
    the same rules with tickets of queues of a kind. -/
inductive Life (f : Formation α) (kind : List (Ticket α) → Prop) (founder : Ticket α) :
    Session α → List (Ticket α) → Prop
  | formed {budget : Budget} {ts : List (Ticket α)} {s : Session α} (id : String) :
    Ticket.Distinct ts → s ∈ (f.run budget ts).sessions → s.founder? ts = some founder →
      Life f kind founder { s with id := id } (s.ticketsIn ts)
  | extended {b : Backfill α} {pool : List (Ticket α)} {s s' : Session α}
    {ts joined : List (Ticket α)} : Life f kind founder s ts → b.rules = f.rules → kind pool →
      b.Extends pool s s' joined → Life f kind founder s' (ts ++ joined)

variable {f : Formation α} {founder : Ticket α} {s : Session α} {ts : List (Ticket α)}

/-- A session that has all tickets of a queue that is in order is founded by the first
    of them. -/
theorem Life.formed_all {kind : List (Ticket α) → Prop} {budget : Budget}
    (hid : Ticket.Distinct (founder :: ts))
    (hsorted : (founder :: ts).Pairwise fun t u => (Ticket.rank t u).isLE = true)
    (hs : s ∈ (f.run budget (founder :: ts)).sessions)
    (hids : s.ticketIds = (founder :: ts).map (·.id)) (id : String) :
    f.Life kind founder { s with id := id } (founder :: ts) := by
  have hall : s.ticketsIn (founder :: ts) = founder :: ts :=
    List.filter_eq_self.2 fun t ht => by
      rw [hids, List.contains_iff_mem]
      exact List.mem_map_of_mem ht
  have hfounder : s.founder? (founder :: ts) = some founder :=
    Session.founder?_cons hsorted (hids ▸ List.mem_cons_self)
  exact hall ▸ .formed id hid hs hfounder

/-- Such a session has been extended, if a run that fills it leaves all but the first
    ticket of a queue. -/
theorem Life.exists_extended (kind : List (Ticket α) → Prop) {budget : Budget} {b : Backfill α}
    {t : Ticket α} {rest : List (Ticket α)} {o id : String}
    (hid : Ticket.Distinct (founder :: ts))
    (hsorted : (founder :: ts).Pairwise fun t u => (Ticket.rank t u).isLE = true)
    (h : ∃ s ∈ (f.run budget (founder :: ts)).sessions, s.ticketIds = (founder :: ts).map (·.id) ∧
      (b.run .unlimited [⟨o, { s with id := id }⟩] (t :: rest)).unmatched = rest) :
    ∃ s s', f.Life kind founder s (founder :: ts) ∧ b.Extends (t :: rest) s s' [t] := by
  obtain ⟨s, hs, hids, hleft⟩ := h
  obtain ⟨s', hext⟩ := Backfill.exists_extends hleft
  exact ⟨_, s', .formed_all hid hsorted hs hids id, hext⟩

/-- The tickets that a session seats are those that it has of the queue, but for roles. -/
theorem seated_unflexed_perm (hid : Ticket.Distinct ts) {teams : List (List (Ticket α))}
    (hseats : s.Seats teams) (hsub : teams.flatten.Subperm (f.queue ts)) :
    (teams.flatten.map Ticket.unflexed).Perm ((s.ticketsIn ts).map Ticket.unflexed) := by
  -- Tickets have ids of their own, whatever their roles.
  have hnodup : ∀ {us : List (Ticket α)}, Ticket.Distinct us → (us.map Ticket.unflexed).Nodup := by
    intro us hus
    refine List.Nodup.of_map (·.id) ?_
    rw [List.map_map]
    exact hus
  refine (List.perm_ext_iff_of_nodup ?_ ?_).2 fun v => ?_
  · exact hnodup (Ticket.Distinct.subperm (queue_nodup hid) hsub)
  · exact hnodup (hid.subperm List.filter_sublist.subperm)
  · simp only [List.mem_map, Session.ticketsIn, List.mem_filter, List.contains_iff_mem]
    constructor
    · rintro ⟨u, hu, rfl⟩
      obtain ⟨w, hw, huw⟩ := exists_of_mem_queue (hsub.subset hu)
      refine ⟨w, ⟨hw, ?_⟩, huw.symm⟩
      rw [← Ticket.id_congr huw, hseats.ticketIds]
      exact List.mem_map_of_mem hu
    · rintro ⟨w, ⟨hw, hws⟩, rfl⟩
      exact exists_seated hid hseats hsub.subset hw hws

/-- The tickets that a session is founded by are those that it has of the queue, but
    for roles. -/
theorem Founds.unflexed_perm (hid : Ticket.Distinct ts) {pivot : Ticket α}
    {others : List (Ticket α)} {teams : List (List (Ticket α))}
    (h : f.Founds (f.queue ts) s pivot others teams) :
    ((pivot :: others).map Ticket.unflexed).Perm ((s.ticketsIn ts).map Ticket.unflexed) := by
  obtain ⟨rest, hrest, hteams⟩ := h.first
  exact (h.perm.map _).trans (seated_unflexed_perm hid h.seats (hteams.trans hrest.subperm))

theorem Founds.gathers {queue others : List (Ticket α)} {pivot : Ticket α}
    {teams : List (List (Ticket α))} (h : f.Founds queue s pivot others teams) :
    f.rules.Gathers pivot s.attributes (pivot :: others) :=
  .founded (h.attributes ▸ .formed pivot others) h.accord

/-- In the life of a session tickets gather around its founder: they are the tickets
    of the session, but for roles. -/
theorem Life.gathers (h : f.Life Ticket.Distinct founder s ts) :
    ∃ pivot us, f.rules.Gathers pivot s.attributes us ∧
      pivot.unflexed = founder.unflexed ∧
      (us.map Ticket.unflexed).Perm (ts.map Ticket.unflexed) := by
  induction h with
  | @formed budget ts s id hid hs hfounder =>
    obtain ⟨pivot, others, teams, hfounds⟩ := (forms_of_mem_run hid hs).founds (queue_nodup hid)
    obtain ⟨rest, hrest, hteams⟩ := hfounds.first
    obtain ⟨t, ht, htp⟩ := founder?_eq_some hid hrest hfounds.seats hteams.subset
      (hfounds.perm.mem_iff.1 List.mem_cons_self)
    obtain rfl : t = founder := Option.some_inj.1 (ht.symm.trans hfounder)
    exact ⟨pivot, pivot :: others, hfounds.gathers, htp.symm, hfounds.unflexed_perm hid⟩
  | @extended b pool s s' ts joined _ hrules hpool hext ih =>
    obtain ⟨pivot, us, hgathers, hpivot, hperm⟩ := ih
    obtain ⟨queue, vs, left, hqueue, hserves, hvs⟩ := hext.serves hpool
    have hrecords : f.rules.Records s'.attributes (us ++ vs) :=
      hrules ▸ hserves.records (hrules ▸ hgathers.records)
    refine ⟨pivot, us ++ vs, hgathers.joined hrecords ?_, hpivot, ?_⟩
    · exact hrules ▸ (hext.accord hpool).subperm (hvs.map _).subperm
    · rw [List.map_append, List.map_append]
      exact hperm.append (hvs.map _)

/-- What holds of all that is offered does not depend on who offers it. -/
theorem forall_offers_iff {ts us : List (Ticket α)}
    (h : (ts.map (·.optionNames)).Perm (us.map (·.optionNames))) (P : Offer → Prop) :
    (∀ t ∈ ts, P t.optionNames) ↔ ∀ u ∈ us, P u.optionNames := by
  have hoffers : ∀ vs : List (Ticket α),
      (∀ v ∈ vs, P v.optionNames) ↔ ∀ o ∈ vs.map (·.optionNames), P o := fun vs =>
    List.forall_mem_map.symm
  rw [hoffers, hoffers]
  exact forall_congr' fun o => imp_congr_left h.mem_iff

/-- So what the tickets of a session offer is what those offer that gathered. -/
theorem Life.gathers_offers (h : f.Life Ticket.Distinct founder s ts) :
    ∃ pivot us, f.rules.Gathers pivot s.attributes us ∧ pivot.optionNames = founder.optionNames ∧
      (us.map (·.optionNames)).Perm (ts.map (·.optionNames)) := by
  obtain ⟨pivot, us, hgathers, hpivot, hperm⟩ := h.gathers
  refine ⟨pivot, us, hgathers, Ticket.optionNames_congr hpivot, ?_⟩
  simpa [Function.comp_def] using hperm.map (·.optionNames)

end Formation

end Matchmaking
