import Mathlib.Data.List.Forall2
import Mathlib.Data.List.Perm.Subperm
import Matchmaking.Packing

/-!
# Who has a place

Packing moves entrants from an order into teams and keeps the numbers of those
who have a place. What a team looks like is then known from its entrants alone
(`TeamDraft.Holds`), and the numbers are those of the entrants of all teams, each
of them once (`Places`): filling a team, opening one and closing the last one
again only give places to entrants that had none.

Whatever else is known of a team and its entrants is kept as well, if an empty team
has it and adding an entrant keeps it (`Packing.Keeps`).

* `Packing.fill_keeps`, `Packing.firstTeams?_keeps`, `Packing.topUp_keeps`,
  `Packing.furtherTeams_keeps`: what each step does to teams and numbers;
* `Packing.pack?_keeps`: the plans of a packing are those of teams of entrants
  of the order, the one with the number zero among them, that pass the check of
  the shape.
-/

namespace Matchmaking

variable {α : Type}

/-- What the check of a shape sees of a team of entrants. -/
def Entrant.summary (es : List (Entrant α)) : TeamSummary where
  players := total (·.ticket.players) es
  userIds := es.foldl (fun s e => s.union e.users) ∅
  blocked := es.foldl (fun s e => s.union e.blocked) ∅

theorem Entrant.summary_concat (es : List (Entrant α)) (e : Entrant α) :
    summary (es ++ [e]) =
      ⟨(summary es).players + e.ticket.players, (summary es).userIds.union e.users,
        (summary es).blocked.union e.blocked⟩ := by
  simp [summary]

/-! ## Drafts -/

namespace TeamDraft

/-- A draft holds entrants, in order: its tickets, players and block list are
    theirs. -/
structure Holds (d : TeamDraft) (es : List (Entrant α)) : Prop where
  tickets : d.tickets = es.map (·.ticket.id)
  summary : d.summary = Entrant.summary es

theorem holds_new (tally : Option RoleTally) : (new tally).Holds ([] : List (Entrant α)) :=
  ⟨rfl, rfl⟩

theorem Holds.push {d : TeamDraft} {es : List (Entrant α)} (h : d.Holds es) (e : Entrant α) :
    (d.push e).Holds (es ++ [e]) where
  tickets := by rw [List.map_append, ← h.tickets]; rfl
  summary := by rw [Entrant.summary_concat, ← h.summary]; rfl

theorem Holds.players_eq {d : TeamDraft} {es : List (Entrant α)} (h : d.Holds es) :
    d.players = total (·.ticket.players) es := congrArg TeamSummary.players h.summary

theorem Holds.mem_users {d : TeamDraft} {es : List (Entrant α)} (h : d.Holds es) {x : String} :
    x ∈ d.users ↔ ∃ e ∈ es, x ∈ e.users := by
  have : d.users = (Entrant.summary es).userIds := congrArg TeamSummary.userIds h.summary
  simp [this, Entrant.summary, NameSet.mem_foldl_union]

theorem Holds.mem_blocked {d : TeamDraft} {es : List (Entrant α)} (h : d.Holds es) {x : String} :
    x ∈ d.blocked ↔ ∃ e ∈ es, x ∈ e.blocked := by
  have : d.blocked = (Entrant.summary es).blocked := congrArg TeamSummary.blocked h.summary
  simp [this, Entrant.summary, NameSet.mem_foldl_union]

/-- Roles are no matter of who is in a team. -/
theorem Holds.note {d : TeamDraft} {es : List (Entrant α)} (h : d.Holds es)
    (taken : List (Member α × Slot)) : (d.note taken).Holds es := by
  induction taken generalizing d with
  | nil => exact h
  | cons x taken ih =>
    obtain ⟨m, slot⟩ := x
    cases slot with
    | role name => exact ih ⟨h.tickets, h.summary⟩
    | any => exact ih ⟨h.tickets, h.summary⟩

theorem Holds.add? {p : Packing} {d d' : TeamDraft} {e : Entrant α} {es : List (Entrant α)}
    (h : d.Holds es) (hd : p.add? d e = some d') : d'.Holds (es ++ [e]) := by
  rw [Packing.add?] at hd
  split_ifs at hd
  split at hd
  · cases hd
    exact h.push e
  · obtain ⟨⟨slots, t⟩, _, rfl⟩ := Option.map_eq_some_iff.1 hd
    exact Holds.push (Holds.note (d := { d with tally := some t }) ⟨h.tickets, h.summary⟩ _) e

theorem tickets_of_holds {ds : List TeamDraft} {seats : List (List (Entrant α))}
    (h : List.Forall₂ Holds ds seats) :
    ds.map (·.tickets) = seats.map (·.map (·.ticket.id)) := by
  induction h with
  | nil => rfl
  | cons hd _ ih => rw [List.map_cons, List.map_cons, hd.tickets, ih]

theorem summary_of_holds {ds : List TeamDraft} {seats : List (List (Entrant α))}
    (h : List.Forall₂ Holds ds seats) : ds.map (·.summary) = seats.map Entrant.summary := by
  induction h with
  | nil => rfl
  | cons hd _ ih => rw [List.map_cons, List.map_cons, hd.summary, ih]

end TeamDraft

/-! ## Places -/

/-- Entrants of an order get places: their numbers come to those who have one,
    and nobody has two. -/
structure Places (order added : List (Entrant α)) (placed placed' : List Nat) : Prop where
  known : added ⊆ order
  perm : placed'.Perm (added.map (·.index) ++ placed)
  nodup : placed.Nodup → placed'.Nodup

namespace Places

variable {order added added' : List (Entrant α)} {placed placed' placed'' : List Nat}

theorem refl (order : List (Entrant α)) (placed : List Nat) : Places order [] placed placed :=
  ⟨List.nil_subset _, .refl _, id⟩

theorem single {e : Entrant α} (he : e ∈ order) (hp : e.index ∉ placed) :
    Places order [e] placed (e.index :: placed) :=
  ⟨by simpa using he, .refl _, fun h => List.nodup_cons.2 ⟨hp, h⟩⟩

theorem trans (h : Places order added placed placed') (h' : Places order added' placed' placed'') :
    Places order (added ++ added') placed placed'' where
  known := List.append_subset.2 ⟨h.known, h'.known⟩
  perm := by
    refine h'.perm.trans ((h.perm.append_left _).trans ?_)
    rw [List.map_append, List.append_assoc]
    exact List.perm_append_comm_assoc _ _ _
  nodup := fun hp => h'.nodup (h.nodup hp)

theorem congr (h : Places order added placed placed') (hp : added.Perm added') :
    Places order added' placed placed' :=
  ⟨fun _ he => h.known (hp.mem_iff.2 he), h.perm.trans ((hp.map _).append_right _), h.nodup⟩

/-- Nobody loses a place. -/
theorem subset (h : Places order added placed placed') : placed ⊆ placed' :=
  fun _ hi => h.perm.mem_iff.2 (List.mem_append_right _ hi)

end Places

namespace Packing

variable {p : Packing}

theorem clashes_iff {d : TeamDraft} {e : Entrant α} : p.clashes d e = true ↔
    p.policy ≠ .canMatch ∧ ((∃ x ∈ d.blocked, x ∈ e.users) ∨ ∃ x ∈ e.blocked, x ∈ d.users) := by
  rw [clashes, Bool.and_eq_true, decide_eq_true_iff, Bool.not_eq_true', ← Bool.not_eq_true,
    Bool.and_eq_true, NameSet.disjoint_iff, NameSet.disjoint_iff, not_and_or]
  simp only [not_forall, not_not, exists_prop]

/-! ## What packing keeps -/

/-- What is known of a team at a place and of its entrants: `K` from the beginning on, and
    `K'` as soon as the team has the members that its roles must have. -/
structure Keeps (p : Packing) (K K' : Nat → TeamDraft → List (Entrant α) → Prop) : Prop where
  new : ∀ team, K team (.new (p.rule.tally? p.mode team)) []
  add : ∀ {team d d' e es}, K team d es → p.add? d e = some d' → K team d' (es ++ [e])
  satisfied : ∀ {team d es}, K team d es → d.isSatisfied = true → K' team d es
  add_satisfied : ∀ {team d d' e es}, K' team d es → p.add? d e = some d' → K' team d' (es ++ [e])

/-- Teams are made of their entrants, at all places. -/
theorem keeps_holds (p : Packing) :
    p.Keeps (fun _ d (es : List (Entrant α)) => d.Holds es) fun _ d es => d.Holds es where
  new _ := TeamDraft.holds_new _
  add h hadd := h.add? hadd
  satisfied h _ := h
  add_satisfied h hadd := h.add? hadd

/-- The same is known of all teams from a place on. -/
def Seated (K : Nat → TeamDraft → List (Entrant α) → Prop) (team : Nat) (ds : List TeamDraft)
    (seats : List (List (Entrant α))) : Prop :=
  List.Forall₂ (fun d es => K d.2 d.1 es) (ds.zipIdx team) seats

section Keeping

variable {K K' : Nat → TeamDraft → List (Entrant α) → Prop} {team : Nat} {ds : List TeamDraft}
  {seats : List (List (Entrant α))}

theorem Seated.cons {d : TeamDraft} {es : List (Entrant α)} (hd : K team d es)
    (h : Seated K (team + 1) ds seats) : Seated K team (d :: ds) (es :: seats) :=
  List.Forall₂.cons hd h

theorem Seated.append {ds' : List TeamDraft} {seats' : List (List (Entrant α))}
    (h : Seated K team ds seats) (h' : Seated K (team + ds.length) ds' seats') :
    Seated K team (ds ++ ds') (seats ++ seats') := by
  rw [Seated, List.zipIdx_append]
  exact List.rel_append h h'

/-- What is known at every place is known of all teams. -/
theorem Seated.forall₂ {Q : TeamDraft → List (Entrant α) → Prop}
    (hQ : ∀ {team d es}, K team d es → Q d es) (h : Seated K team ds seats) :
    List.Forall₂ Q ds seats := by
  rw [← List.zipIdx_map_fst team ds, List.forall₂_map_left_iff]
  exact h.imp fun _ _ => hQ

/-- What is known of the team at a place. -/
theorem Seated.of_getElem? {i : Nat} {d : TeamDraft} {es : List (Entrant α)}
    (h : Seated K 0 ds seats) (hd : ds[i]? = some d) (hes : seats[i]? = some es) : K i d es := by
  have hzip : (ds.zipIdx 0)[i]? = some (d, i) := by
    rw [List.getElem?_zipIdx, hd, Option.map_some, Nat.zero_add]
  obtain ⟨hi, hget⟩ := List.getElem?_eq_some_iff.1 hzip
  obtain ⟨hi', hget'⟩ := List.getElem?_eq_some_iff.1 hes
  have hboth := h.get hi hi'
  rw [List.get_eq_getElem, List.get_eq_getElem, hget, hget'] at hboth
  exact hboth

/-- A team that has its size is left as it is. -/
theorem fill_of_reaches {size : Nat} {d : TeamDraft} {placed : List Nat}
    (h : d.reaches size = true) (es : List (Entrant α)) :
    p.fill size es d placed = (d, placed) := by
  cases es with
  | nil => rfl
  | cons e es => rw [fill, if_pos h]

/-- Filling a team adds entrants that had no place. -/
theorem fill_keeps {Q : TeamDraft → List (Entrant α) → Prop}
    (hadd : ∀ {d d' e es}, Q d es → p.add? d e = some d' → Q d' (es ++ [e])) (size : Nat)
    {order es : List (Entrant α)} (hes : es ⊆ order) {d : TeamDraft} {own : List (Entrant α)}
    (hd : Q d own) (placed : List Nat) :
    ∃ added, Q (p.fill size es d placed).1 (own ++ added) ∧
      Places order added placed (p.fill size es d placed).2 := by
  -- The induction is on what is left of the order, which itself stays.
  induction es generalizing d own placed with
  | nil => exact ⟨[], by simpa [fill] using hd, .refl _ _⟩
  | cons e es ih =>
    obtain ⟨he, hes⟩ := List.cons_subset.1 hes
    rw [fill]
    split_ifs with hr hp
    · exact ⟨[], by simpa using hd, .refl _ _⟩
    · exact ih hes hd placed
    · cases ha : p.add? d e with
      | none => exact ih hes hd placed
      | some d' =>
        -- The entrant is the last of its team, and its number the newest.
        obtain ⟨added, hteam, hplaces⟩ := ih hes (hadd hd ha) (e.index :: placed)
        have hnew : e.index ∉ placed := by simpa using hp
        exact ⟨e :: added, by simpa using hteam, (Places.single he hnew).trans hplaces⟩

/-- What is known of a team alone stays known while it is filled, and nobody loses a place. -/
theorem fill_keeps_draft {Q : TeamDraft → Prop}
    (hadd : ∀ {d d'} {e : Entrant α}, Q d → p.add? d e = some d' → Q d') (size : Nat)
    (es : List (Entrant α)) {d : TeamDraft} (hd : Q d) (placed : List Nat) :
    Q (p.fill size es d placed).1 ∧ placed ⊆ (p.fill size es d placed).2 := by
  obtain ⟨_, hkept, hplaces⟩ := @fill_keeps α p (fun d _ => Q d) (fun hd h => hadd hd h) size
    es es (List.Subset.refl es) d [] hd placed
  exact ⟨hkept, hplaces.subset⟩

theorem newTeam_keeps (h : p.Keeps K K') {size : Nat} {order : List (Entrant α)}
    {placed placed' : List Nat} {d : TeamDraft}
    (hnew : p.newTeam size order team placed = (d, placed')) :
    ∃ added, K team d added ∧ Places order added placed placed' := by
  have hfill := fill_keeps (Q := K team) h.add size (List.Subset.refl order) (h.new team) placed
  rw [newTeam] at hnew
  simpa [hnew] using hfill

theorem isSatisfied_of_reaches {d : TeamDraft} {size : Nat} (h : d.reaches size = true) :
    d.isSatisfied = true :=
  (Bool.and_eq_true_iff.1 h).2

/-- The teams that there must be are made of entrants that had no place. -/
theorem firstTeams?_keeps (h : p.Keeps K K') {order : List (Entrant α)} {n : Nat}
    {placed placed' : List Nat} (hfirst : p.firstTeams? order n team placed = some (ds, placed')) :
    ∃ seats, Seated K' team ds seats ∧ Places order seats.flatten placed placed' := by
  induction n generalizing team placed ds with
  | zero =>
    cases hfirst
    exact ⟨[], .nil, .refl _ _⟩
  | succ n ih =>
    rcases hnew : p.newTeam p.rule.bounds.minSize order team placed with ⟨d, placed₁⟩
    obtain ⟨added, hteam, hplaces⟩ := newTeam_keeps h hnew
    simp only [firstTeams?, hnew] at hfirst
    split_ifs at hfirst with hreaches
    obtain ⟨⟨ds, _⟩, hrest, heq⟩ := Option.map_eq_some_iff.1 hfirst
    cases heq
    obtain ⟨seats, hseats, hplaces'⟩ := ih hrest
    have hd := h.satisfied hteam (isSatisfied_of_reaches hreaches)
    exact ⟨added :: seats, hseats.cons hd, hplaces.trans hplaces'⟩

/-- Teams that are filled up keep their entrants and take some that had no
    place. -/
theorem topUp_keeps (h : p.Keeps K K') (order : List (Entrant α)) (hds : Seated K' team ds seats)
    (placed : List Nat) :
    ∃ seats' added, Seated K' team (p.topUp order ds placed).1 seats' ∧
      seats'.flatten.Perm (seats.flatten ++ added) ∧
      Places order added placed (p.topUp order ds placed).2 := by
  induction ds generalizing team seats placed with
  | nil =>
    obtain rfl := List.forall₂_nil_left_iff.1 hds
    exact ⟨[], [], .nil, .refl _, .refl _ _⟩
  | cons d ds ih =>
    rw [Seated, List.zipIdx_cons, List.forall₂_cons_left_iff] at hds
    obtain ⟨own, rest, hd, hrest, rfl⟩ := hds
    obtain ⟨added, hteam, hplaces⟩ := fill_keeps (Q := K' team) h.add_satisfied
      p.rule.bounds.maxSize (List.Subset.refl order) hd placed
    obtain ⟨seats', added', hseats, hperm, hplaces'⟩ :=
      ih hrest (p.fill p.rule.bounds.maxSize order d placed).2
    refine ⟨(own ++ added) :: seats', added ++ added', hseats.cons hteam, ?_,
      hplaces.trans hplaces'⟩
    -- What the first team takes comes before what the others had.
    simp only [List.flatten_cons, List.append_assoc]
    refine List.Perm.append_left _ ((hperm.append_left _).trans ?_)
    exact List.perm_append_comm_assoc _ _ _

/-- Further teams are made of entrants that had no place; those of the last one,
    if it is closed again, have none after all. -/
theorem furtherTeams_keeps (h : p.Keeps K K') (order : List (Entrant α)) (n team : Nat)
    (placed : List Nat) :
    ∃ seats, Seated K' team (p.furtherTeams order n team placed).1 seats ∧
      Places order seats.flatten placed (p.furtherTeams order n team placed).2 := by
  induction n generalizing team placed with
  | zero => exact ⟨[], .nil, .refl _ _⟩
  | succ n ih =>
    rcases hnew : p.newTeam p.rule.bounds.maxSize order team placed with ⟨d, placed₁⟩
    obtain ⟨added, hteam, hplaces⟩ := newTeam_keeps h hnew
    simp only [furtherTeams, hnew]
    split_ifs with hreaches
    · obtain ⟨seats, hseats, hplaces'⟩ := ih (team + 1) placed₁
      have hd := h.satisfied hteam (isSatisfied_of_reaches hreaches)
      exact ⟨added :: seats, hseats.cons hd, hplaces.trans hplaces'⟩
    · -- A team that is closed again leaves the numbers as they were before it.
      exact ⟨[], .nil, .refl _ _⟩

theorem drafts?_keeps (h : p.Keeps K K') {order : List (Entrant α)} {placed : List Nat}
    (hdrafts : p.drafts? order = some (ds, placed)) :
    ∃ seats, Seated K' 0 ds seats ∧ Places order seats.flatten [] placed := by
  obtain ⟨⟨first, placed₁⟩, hfirst, heq⟩ := Option.map_eq_some_iff.1 hdrafts
  cases heq
  -- The teams that there must be, the same teams filled up, and further ones.
  obtain ⟨seats₁, hseats₁, hplaces₁⟩ := firstTeams?_keeps h hfirst
  obtain ⟨seats₂, added, hseats₂, hperm, hplaces₂⟩ := topUp_keeps h order hseats₁ placed₁
  obtain ⟨seats₃, hseats₃, hplaces₃⟩ :=
    furtherTeams_keeps h order (p.rule.bounds.maxTeams - (p.topUp order first placed₁).1.length)
      (p.topUp order first placed₁).1.length (p.topUp order first placed₁).2
  refine ⟨seats₂ ++ seats₃, hseats₂.append ((Nat.zero_add _).symm ▸ hseats₃), ?_⟩
  rw [List.flatten_append]
  exact ((hplaces₁.trans hplaces₂).congr hperm.symm).trans hplaces₃

/-- A packing makes its plans of teams of entrants of the order, none of whom has
    two places and one of whom has the number zero, and these teams pass the
    check of the shape. -/
theorem pack?_keeps (h : p.Keeps K K') {order : List (Entrant α)} {plans : List TeamPlan}
    (hpack : p.pack? order = some plans) :
    ∃ ds seats, plans = ds.map (·.finish) ∧ Seated K' 0 ds seats ∧
      seats.flatten ⊆ order ∧ (seats.flatten.map (·.index)).Nodup ∧
      (∃ e ∈ seats.flatten, e.index = 0) ∧
      p.rule.teamsFault? p.policy (ds.map (·.summary)) = none := by
  rw [pack?] at hpack
  split at hpack
  · cases hpack
  · rename_i ds placed hdrafts
    obtain ⟨seats, hseats, hplaces⟩ := drafts?_keeps h hdrafts
    split_ifs at hpack with hok
    cases hpack
    -- The numbers are checked for the pivot, the seats are what they stand for.
    have hplaced : placed.Perm (seats.flatten.map (·.index)) := by simpa using hplaces.perm
    exact ⟨ds, seats, rfl, hseats, hplaces.known, hplaced.nodup_iff.1 (hplaces.nodup .nil),
      List.mem_map.1 (hplaced.mem_iff.1 (List.contains_iff_mem.1 hok.1)), hok.2⟩

end Keeping

end Packing

end Matchmaking
