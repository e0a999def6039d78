import Matchmaking.Proofs.Backfill.Capacity
import Matchmaking.Proofs.Backfill.Life
import Matchmaking.Proofs.Formation.Shape
import Matchmaking.Rules.Fault

/-!
# Sessions that are closed

A session is closed when it has all the teams and players that the bounds in force
allow. Nobody looks at its stage later: a run that fills open sessions asks anew whether
the session is full, under the bounds that are in force for it by then. So a session that
was closed stays as it is through all runs at whose times the bounds allow no more teams
and no larger ones (`Backfill.closed_stays`). That a turn of a full session adds nobody
(`Backfill.Attended.eq_of_full`) makes the step of the induction over these runs
(`Session.Lasts`).

Bounds that allow more by the time open a session again. So do tickets for a session
that was said to be closed and is not full (`Formation.relay_reopens`).
-/

namespace Matchmaking

variable {α : Type}

/-- Bounds allow all the teams and all the sizes that others allow. -/
structure Bounds.Covers (b c : Bounds) : Prop where
  teams : c.maxTeams ≤ b.maxTeams
  size : c.maxSize ≤ b.maxSize

instance (b c : Bounds) : Decidable (b.Covers c) :=
  decidable_of_iff (c.maxTeams ≤ b.maxTeams ∧ c.maxSize ≤ b.maxSize)
    ⟨fun h => ⟨h.1, h.2⟩, fun h => ⟨h.teams, h.size⟩⟩

namespace Session

/-- A session that is full is full under bounds that allow no more. -/
theorem isSatisfied_of_covers {s : Session α} {b c : Bounds} (h : s.isSatisfied b = true)
    (hcovers : b.Covers c) : s.isSatisfied c = true := by
  rw [isSatisfied_iff] at h ⊢
  obtain ⟨hteams, hsizes⟩ := h
  exact ⟨Nat.le_trans hcovers.teams hteams, fun n hn => Nat.le_trans hcovers.size (hsizes n hn)⟩

theorem isSatisfied_congr {s s' : Session α} (h : s'.alliances = s.alliances) (b : Bounds) :
    s'.isSatisfied b = s.isSatisfied b := by
  rw [isSatisfied, h, isSatisfied]

/-- A session is closed at bounds: it is full under them, and its stage says so. -/
structure Closed (s : Session α) (b : Bounds) : Prop where
  full : s.isSatisfied b = true
  status : s.status = .satisfied

end Session

variable [Scalar α]

namespace Backfill

variable {b : Backfill α}

/-- Nobody joins a session that is full when its turn comes. -/
theorem Attended.eq_of_full {pool : List (Ticket α)} {f : Filling α} (h : b.Attended pool f)
    (hfull : f.before.session.isSatisfied (b.bounds f.before.session) = true) :
    f.joined = [] ∧ f.after.session.alliances = f.before.session.alliances ∧
      f.after.session.status = .satisfied := by
  obtain ⟨queue, left, _, hattends⟩ := h
  obtain ⟨m, hfills, hafter⟩ := hattends.fills
  generalize hjoined : f.joined = ts at hfills
  cases hfills with
  | done =>
    have hclosed : f.after.session =
        { f.before.session with status := .satisfied, joinable := false } :=
      hafter.trans (if_pos hfull)
    rw [hclosed]
    exact ⟨rfl, rfl, rfl⟩
  | join hopen => exact absurd (hfull.symm.trans hopen) (by decide)

/-- In a run, a session that is closed at bounds that allow all that is in force for it
    stays as it is, and nobody joins it. -/
theorem run_closed (b : Backfill α) (c : Bounds) (budget : Budget)
    (os : List (OpenSession α)) (pool : List (Ticket α)) :
    ∃ fs, b.Accounts (b.run budget os pool) (sortBy OpenSession.rank os) pool fs ∧
      ∀ f ∈ fs, f.before.session.Closed c → c.Covers (b.bounds f.before.session) →
        f.joined = [] ∧ f.after.session.alliances = f.before.session.alliances ∧
          f.after.session.status = .satisfied := by
  obtain ⟨fs, haccounts, hattended⟩ := b.run_accounts budget os pool
  refine ⟨fs, haccounts, fun f hf hclosed hcovers => ?_⟩
  rcases hattended f hf with h | ⟨_, o, rfl⟩
  · exact h.eq_of_full (Session.isSatisfied_of_covers hclosed.full hcovers)
  · exact ⟨rfl, rfl, hclosed.status⟩

end Backfill

namespace Session

/-- A session gets closed, at the bounds in force: it is formed full from tickets with ids
    of their own, whatever id it is given then, or it is full when a run that fills open
    sessions leaves it. -/
inductive Closes : Bounds → Session α → Prop
  | formed {f : Formation α} {budget : Budget} {ts : List (Ticket α)} {s : Session α}
    {t : Ticket α} (id : String)
    (hid : Ticket.Distinct ts) (hs : s ∈ (f.run budget ts).sessions)
    (ht : s.founder? ts = some t) (hclosed : s.status = .satisfied) :
    Closes (f.rules.allianceAt t.createdAt f.now s.mode).1.bounds { s with id := id }
  | filled {b : Backfill α} {budget : Budget} {os : List (OpenSession α)} {pool : List (Ticket α)}
    {o : OpenSession α} (ho : o ∈ (b.run budget os pool).sessions)
    (hclosed : o.session.status = .satisfied)
    (hfull : o.session.isSatisfied (b.bounds o.session) = true) :
    Closes (b.bounds o.session) o.session

/-- What a session has become in runs that fill open sessions, any number of them, each at
    a time when no more is in force for it than bounds allow. -/
inductive Lasts (c : Bounds) (s : Session α) : Session α → Prop
  | refl : Lasts c s s
  | run {b : Backfill α} {budget : Budget} {os : List (OpenSession α)} {pool : List (Ticket α)}
    {o o' : OpenSession α} (h : Lasts c s o.session) (hcovers : c.Covers (b.bounds o.session))
    (hrun : (o, o') ∈ (sortBy OpenSession.rank os).zip (b.run budget os pool).sessions) :
    Lasts c s o'.session

variable {c : Bounds} {s s' : Session α}

theorem Closes.closed (h : Closes c s) : s.Closed c := by
  cases h with
  | @formed f _ ts s t id hid hs ht hclosed =>
    obtain ⟨u, hu, hconforms⟩ := (Formation.forms_of_mem_run hid hs).conforms hid
    obtain rfl : u = t := Option.some_inj.1 (hu.symm.trans ht)
    refine ⟨?_, hclosed⟩
    show s.isSatisfied _ = true
    -- A new session is closed only if it is full.
    by_contra hroom
    have hstatus := hconforms.status
    rw [if_neg hroom, hclosed] at hstatus
    cases hstatus
  | filled _ hclosed hfull => exact ⟨hfull, hclosed⟩

/-- A closed session stays closed, with the teams that it has. -/
theorem Lasts.closed (h : Lasts c s s') (hs : s.Closed c) :
    s'.alliances = s.alliances ∧ s'.Closed c := by
  induction h with
  | refl => exact ⟨rfl, hs⟩
  | @run b budget os pool o o' _ hcovers hrun ih =>
    obtain ⟨halliances, hclosed⟩ := ih
    obtain ⟨fs, haccounts, hstays⟩ := b.run_closed c budget os pool
    obtain ⟨f, hf, rfl, rfl⟩ := haccounts.exists_filling hrun
    obtain ⟨_, hsame, hstatus⟩ := hstays f hf hclosed hcovers
    exact ⟨hsame.trans halliances,
      (isSatisfied_congr hsame c).trans hclosed.full, hstatus⟩

end Session

namespace Backfill

/-- A session that was closed at bounds, and has since been through runs at whose times
    these allowed all that was in force for it, has another such run: nobody joins it, so
    there is no proposal for it, and it is closed with the teams that it had at first. -/
theorem closed_stays {c : Bounds} {s : Session α} (hs : s.Closes c) (b : Backfill α)
    (budget : Budget) (os : List (OpenSession α)) (pool : List (Ticket α)) :
    ∃ fs, b.Accounts (b.run budget os pool) (sortBy OpenSession.rank os) pool fs ∧
      ∀ f ∈ fs, s.Lasts c f.before.session → c.Covers (b.bounds f.before.session) →
        f.joined = [] ∧ f.after.session.alliances = s.alliances ∧
          f.after.session.status = .satisfied := by
  obtain ⟨fs, haccounts, hstays⟩ := b.run_closed c budget os pool
  refine ⟨fs, haccounts, fun f hf hlasts hcovers => ?_⟩
  obtain ⟨halliances, hclosed⟩ := hlasts.closed hs.closed
  obtain ⟨hnobody, hsame, hstatus⟩ := hstays f hf hclosed hcovers
  exact ⟨hnobody, hsame.trans halliances, hstatus⟩

end Backfill

namespace Formation

/-! ### A relay -/

/-- Matches of one against one that may have a third team after half a minute. -/
def relay : Formation Float where
  rules := { RuleSet.ofAlliance (.ofBounds ⟨2, 2, 1, 1⟩) with
    allianceFlexing := [⟨30, ⟨2, 3, 1, 1⟩⟩]
    autoBackfill := true }
  channel := "relay"
  now := .ofNanos 0
  cap := 1

/-- Open matches are filled under the same rules some seconds later. -/
def relayFilling (seconds : Nat) : Backfill Float :=
  ⟨relay.rules, .ofNanos (seconds * Instant.second)⟩

/-- Two players meet. For ten seconds no more is in force for their match. -/
theorem relay_session :
    ∃ s ∈ (relay.run .unlimited [duelist "a" [], duelist "b" []]).sessions,
      s.status = .satisfied ∧
      s.ticketIds = ["a", "b"] ∧
      (relay.rules.allianceAt (duelist "a" []).createdAt relay.now s.mode).1.bounds.Covers
        ((relayFilling 10).bounds s) ∧
      ((relayFilling 60).run .unlimited [⟨"open", { s with id := "m" }⟩]
        [duelist "c" []]).proposals.map (·.added) = [["c"]] := by
  rw [run_unlimited_sessions (by decide) (by decide +kernel) (by decide +kernel)]
  decide +kernel

theorem relay_stays :
    ∃ s ∈ (relay.run .unlimited [duelist "a" [], duelist "b" []]).sessions, ∃ fs,
      (relayFilling 10).Accounts
        ((relayFilling 10).run .unlimited [⟨"open", { s with id := "m" }⟩] [duelist "c" []])
        (sortBy OpenSession.rank [⟨"open", { s with id := "m" }⟩]) [duelist "c" []] fs ∧
      ∀ f ∈ fs, f.joined = [] ∧ f.after.session.alliances = s.alliances ∧
        f.after.session.status = .satisfied := by
  obtain ⟨s, hs, hclosed, hids, hcovers, _⟩ := relay_session
  have ht : s.founder? [duelist "a" [], duelist "b" []] = some (duelist "a" []) :=
    Session.founder?_cons (by decide +kernel) (hids ▸ List.mem_cons_self)
  obtain ⟨fs, haccounts, hstays⟩ := Backfill.closed_stays
    (.formed "m" (by decide) hs ht hclosed) (relayFilling 10) .unlimited
    [⟨"open", { s with id := "m" }⟩] [duelist "c" []]
  refine ⟨s, hs, fs, haccounts, fun f hf => ?_⟩
  -- There is one session only.
  have hmem : f.before ∈ sortBy OpenSession.rank [⟨"open", { s with id := "m" }⟩] :=
    haccounts.before ▸ List.mem_map_of_mem hf
  have hbefore : f.before = ⟨"open", { s with id := "m" }⟩ :=
    List.mem_singleton.1 ((sortBy_perm _ _).mem_iff.1 hmem)
  exact hstays f hf (hbefore ▸ .refl) (hbefore ▸ hcovers)

/-- A match of one against one that is said to be closed before the second player came. -/
def waiting : OpenSession Float where
  ticketId := "open"
  session := { relay.soloSession (duelist "a" []) with id := "m" }

/-- A party of two, and two parties of one ticket id, the first of which has a player in
    common with it. -/
def relayParties : List (Ticket Float) :=
  [{ duelist "a" [] with members := [.ofId "a", .ofId "b"] },
    { duelist "x" [] with members := [.ofId "a"] },
    { duelist "x" [] with partyId := "y", members := [.ofId "c", .ofId "d"] }]

/-- Matches of two against two. -/
def pairs : Formation Float := { relay with rules := .ofAlliance (.ofBounds ⟨2, 2, 2, 2⟩) }

/-- Somebody may join a match at the stage of closed ones: later, when more teams are in
    force for it, even if it was full; if a run that fills open sessions left it at that
    stage though it was not full; and if it was formed from tickets of one id. -/
theorem relay_reopens : relay.rules.fault? = none ∧ pairs.rules.fault? = none ∧
    (∃ s ∈ (relay.run .unlimited [duelist "a" [], duelist "b" []]).sessions,
      s.status = .satisfied ∧
      ((relayFilling 60).run .unlimited [⟨"open", { s with id := "m" }⟩]
        [duelist "c" []]).proposals.map (·.added) = [["c"]]) ∧
    (∃ o ∈ ((relayFilling 0).run .unlimited [waiting] []).sessions,
      o.session.status = .satisfied ∧
      ((relayFilling 10).run .unlimited [o] [duelist "c" []]).proposals.map (·.added) = [["c"]]) ∧
    ∃ s ∈ (pairs.run .unlimited relayParties).sessions, s.status = .satisfied ∧
      ((⟨pairs.rules, pairs.now⟩ : Backfill Float).run .unlimited [⟨"open", { s with id := "m" }⟩]
        [duelist "e" []]).proposals.map (·.added) = [["e"]] := by
  refine ⟨by decide +kernel, by decide +kernel, ?_, by decide +kernel, ?_⟩
  · obtain ⟨s, hs, hclosed, _, _, hjoined⟩ := relay_session
    exact ⟨s, hs, hclosed, hjoined⟩
  · rw [run_unlimited_sessions (by decide) (by decide +kernel) (by decide +kernel)]
    decide +kernel

end Formation

end Matchmaking
