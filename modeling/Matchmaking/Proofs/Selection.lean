import Matchmaking.Number.Rational
import Matchmaking.Proofs.Assembly
import Matchmaking.Proofs.Orderings

/-!
# Which packing is taken

An assembler looks at the packings of its orders one after the other
(`Assembler.packings`). The first one that settles it is taken, and if there is none, the
largest one (`Assembler.choose`).

With players enough to fill a match, only a full packing settles it. A packing is full if and
only if it has as many players as a packing may have (`Assembler.players_of_packed?`), so
that in the end the first one of the largest packings is taken, whether the search has gone
on to its end or not (`Assembler.firstLargest_choose`). And a greater cap adds packings
behind those that there were: `Assembler.assemble?_improves`.

For a greatest size of zero this needs that there are no packings
(`Packing.pack?_eq_none`).
-/

namespace Matchmaking

variable {α : Type}

/-! ## Teams of nobody -/

namespace Packing

variable {p : Packing} {d d' : TeamDraft} {order : List (Entrant α)} {placed : List Nat}

/-- A team of nobody takes parties of nobody only, who make no difference to its roles. -/
theorem idle_of_add? (hmax : p.rule.bounds.maxSize = 0) {e : Entrant α}
    (h : p.add? d e = some d') : d'.players = 0 ∧ d'.tally = d.tally := by
  rw [add?] at h
  split_ifs at h with hsize
  have hmembers : e.ticket.members = [] := List.length_eq_zero_iff.1 (by
    have : e.ticket.members.length = e.ticket.players := rfl
    omega)
  cases htally : d.tally with
  | none =>
    rw [htally] at h
    obtain rfl := Option.some_inj.1 h
    have : d.players + e.ticket.players = 0 := by omega
    exact ⟨this, htally⟩
  | some t =>
    rw [htally, hmembers] at h
    obtain rfl := Option.some_inj.1 h
    have : d.players + e.ticket.players = 0 := by omega
    exact ⟨this, rfl⟩

/-- If a new team of nobody has the members that its roles must have in the end, it has them
    at once, and takes nobody. -/
theorem newTeam_idle (hmax : p.rule.bounds.maxSize = 0) {size team : Nat} {placed' : List Nat}
    (hnew : p.newTeam size order team placed = (d, placed')) (hreaches : d.reaches size = true) :
    placed' = placed := by
  have hstep : ∀ {d d'} {e : Entrant α}, d.players = 0 ∧ d.tally = p.rule.tally? p.mode team →
      p.add? d e = some d' → d'.players = 0 ∧ d'.tally = p.rule.tally? p.mode team :=
    fun hd hadd => (idle_of_add? hmax hadd).imp_right fun htally => htally.trans hd.2
  obtain ⟨⟨hplayers, htally⟩, -⟩ := fill_keeps_draft hstep size order
    (d := .new (p.rule.tally? p.mode team)) ⟨rfl, rfl⟩ placed
  rw [newTeam] at hnew
  rw [hnew] at hplayers htally
  -- The team is filled already when it is opened.
  have hempty : (TeamDraft.new (p.rule.tally? p.mode team)).reaches size = true := by
    rwa [TeamDraft.reaches, TeamDraft.isSatisfied, hplayers, htally] at hreaches
  rw [fill_of_reaches hempty] at hnew
  exact (congrArg Prod.snd hnew).symm

theorem firstTeams?_idle (hmax : p.rule.bounds.maxSize = 0) {n team : Nat} {ds : List TeamDraft}
    {placed' : List Nat} (h : p.firstTeams? order n team placed = some (ds, placed')) :
    placed' = placed ∧ ∀ d ∈ ds, d.isSatisfied = true := by
  induction n generalizing team placed ds with
  | zero =>
    cases h
    exact ⟨rfl, nofun⟩
  | succ n ih =>
    rcases hnew : p.newTeam p.rule.bounds.minSize order team placed with ⟨d, placed₁⟩
    simp only [firstTeams?, hnew] at h
    split_ifs at h with hreaches
    obtain ⟨⟨ds, _⟩, hrest, heq⟩ := Option.map_eq_some_iff.1 h
    cases heq
    obtain ⟨rfl, hds⟩ := ih hrest
    exact ⟨newTeam_idle hmax hnew hreaches,
      List.forall_mem_cons.2 ⟨isSatisfied_of_reaches hreaches, hds⟩⟩

theorem topUp_idle (hmax : p.rule.bounds.maxSize = 0) {ds : List TeamDraft}
    (hds : ∀ d ∈ ds, d.isSatisfied = true) (placed : List Nat) :
    (p.topUp order ds placed).2 = placed := by
  induction ds with
  | nil => rfl
  | cons d ds ih =>
    obtain ⟨hd, hds⟩ := List.forall_mem_cons.1 hds
    have hreaches : d.reaches p.rule.bounds.maxSize = true := by simp [TeamDraft.reaches, hmax, hd]
    simp only [topUp, fill_of_reaches hreaches, ih hds]

theorem furtherTeams_idle (hmax : p.rule.bounds.maxSize = 0) (n team : Nat) (placed : List Nat) :
    (p.furtherTeams order n team placed).2 = placed := by
  induction n generalizing team placed with
  | zero => rfl
  | succ n ih =>
    rcases hnew : p.newTeam p.rule.bounds.maxSize order team placed with ⟨d, placed₁⟩
    simp only [furtherTeams, hnew]
    split_ifs with hreaches
    · have hfilled : d.reaches p.rule.bounds.maxSize = true := by
        simp [TeamDraft.reaches, hmax, isSatisfied_of_reaches hreaches]
      exact (ih _ _).trans (newTeam_idle hmax hnew hfilled)
    · rfl

/-- Teams of nobody have no place for the pivot. -/
theorem pack?_eq_none (hmax : p.rule.bounds.maxSize = 0) (order : List (Entrant α)) :
    p.pack? order = none := by
  rw [pack?]
  split
  · rfl
  · rename_i ds placed hdrafts
    obtain ⟨⟨first, placed₁⟩, hfirst, heq⟩ := Option.map_eq_some_iff.1 hdrafts
    cases heq
    obtain ⟨rfl, hsatisfied⟩ := firstTeams?_idle hmax hfirst
    rw [furtherTeams_idle hmax, topUp_idle hmax hsatisfied]
    exact if_neg fun h => Bool.false_ne_true h.1

end Packing

namespace Assembler

variable [Scalar α] {m : Assembler}

/-- The packings of the orders that may be packed. -/
def packings (m : Assembler) (pivot : Ticket α) (ts : List (Ticket α)) : List Assembly :=
  ((Orderings.new (ts.length + 1) (pinned ts)).take (max m.cap 1)).filterMap
    (m.packed? (Entrant.ofList (pivot :: ts)).toArray)

/-! ## Which packing is taken -/

/-- Whether a packing is taken without looking further. -/
def settles (b : Bounds) (canFill : Bool) (a : Assembly) : Bool := a.isFull b || !canFill

/-- The packing that is taken of some, with the best one before them. -/
def choose (b : Bounds) (canFill : Bool) : List Assembly → Option Assembly → Option Assembly
  | [], best => best
  | a :: as, best =>
    if settles b canFill a then some a else choose b canFill as (some (a.larger best))

omit [Scalar α] in
theorem searchOrders_eq_choose (entrants : Array (Entrant α)) (canFill : Bool) (n : Nat)
    (o : Orderings) (best : Option Assembly) :
    m.searchOrders entrants canFill n o best =
      choose m.packing.rule.bounds canFill ((o.take n).filterMap (m.packed? entrants)) best := by
  induction n generalizing o best with
  | zero => rfl
  | succ n ih =>
    rw [searchOrders, Orderings.take]
    cases o.next? with
    | none => rfl
    | some next =>
      obtain ⟨order, rest⟩ := next
      cases hpacked : m.packed? entrants order with
      | none => simp only [List.filterMap_cons_none hpacked, hpacked, ih]
      | some a =>
        simp only [List.filterMap_cons_some hpacked, hpacked, ih, choose]
        rfl

theorem assemble?_eq_choose (m : Assembler) (pivot : Ticket α) (ts : List (Ticket α)) :
    m.assemble? pivot ts =
      choose m.packing.rule.bounds (m.canFill (pivot :: ts)) (m.packings pivot ts) none :=
  searchOrders_eq_choose _ _ _ _ _

section Choose

variable {b : Bounds} {canFill : Bool} {seen zs rest : List Assembly} {a a' : Assembly}
  {best : Option Assembly}

/-- Packings that came before, none of which was taken, and the largest one of them. -/
def Passed (b : Bounds) (canFill : Bool) (seen : List Assembly) (best : Option Assembly) : Prop :=
  ∀ a ∈ seen, settles b canFill a = false ∧ ∃ c, best = some c ∧ a.players ≤ c.players

theorem players_le_larger (a : Assembly) (best : Option Assembly) :
    a.players ≤ (a.larger best).players ∧
      ∀ c, best = some c → c.players ≤ (a.larger best).players := by
  cases best with
  | none => exact ⟨Nat.le_refl _, nofun⟩
  | some c =>
    simp only [Assembly.larger, Option.some_inj, forall_eq']
    split_ifs <;> omega

theorem Passed.cons (h : Passed b canFill seen best) (ha : settles b canFill a = false) :
    Passed b canFill (a :: seen) (some (a.larger best)) := by
  obtain ⟨hnew, hold⟩ := players_le_larger a best
  refine List.forall_mem_cons.2 ⟨⟨ha, _, rfl, hnew⟩, fun a' ha' => ?_⟩
  obtain ⟨hsettles, c, hc, hle⟩ := h a' ha'
  exact ⟨hsettles, _, rfl, Nat.le_trans hle (hold c hc)⟩

/-- A packing that came before is no larger than the best one. -/
theorem Passed.larger (h : Passed b canFill seen best) (ha : a ∈ seen) :
    some (a.larger best) = best := by
  obtain ⟨_, c, rfl, hle⟩ := h a ha
  exact congrArg some (if_neg (Nat.not_lt.2 hle))

/-- The first packing that settles it is taken. -/
theorem choose_append_of_settles (h : ∃ a ∈ zs, settles b canFill a = true) (rest : List Assembly)
    (best : Option Assembly) :
    choose b canFill (zs ++ rest) best = choose b canFill zs best := by
  induction zs generalizing best with
  | nil => simp at h
  | cons a zs ih =>
    rw [List.cons_append, choose, choose]
    split_ifs with ha
    · rfl
    · refine ih ?_ _
      simpa [ha] using h

theorem choose_append (h : ∀ a ∈ zs, settles b canFill a = false) (rest : List Assembly)
    (best : Option Assembly) :
    choose b canFill (zs ++ rest) best = choose b canFill rest (choose b canFill zs best) := by
  induction zs generalizing best with
  | nil => rfl
  | cons a zs ih =>
    obtain ⟨ha, hzs⟩ := List.forall_mem_cons.1 h
    rw [List.cons_append, choose, choose, if_neg (by simp [ha]), if_neg (by simp [ha]), ih hzs]

/-- If nothing settles it, the largest packing is taken. -/
theorem passed_choose (h : ∀ a ∈ zs, settles b canFill a = false)
    (hseen : Passed b canFill seen best) :
    Passed b canFill (zs ++ seen) (choose b canFill zs best) := by
  induction zs generalizing seen best with
  | nil => exact hseen
  | cons a zs ih =>
    obtain ⟨ha, hzs⟩ := List.forall_mem_cons.1 h
    rw [choose, if_neg (by simp [ha])]
    intro x hx
    exact ih hzs (hseen.cons ha) x (List.perm_middle.symm.subset hx)

/-- What is taken settles it, was the best one before, or is larger than that. -/
theorem choose_cases (h : choose b canFill zs (some a') = some a) :
    settles b canFill a = true ∨ a = a' ∨ a'.players < a.players := by
  induction zs generalizing a' with
  | nil => exact .inr (.inl (Option.some_inj.1 h).symm)
  | cons c zs ih =>
    rw [choose] at h
    split_ifs at h with hc
    · exact .inl (Option.some_inj.1 h ▸ hc)
    · refine (ih h).imp_right fun hcases => ?_
      simp only [Assembly.larger] at hcases
      split_ifs at hcases with hlt
      · rcases hcases with rfl | hcases
        · exact .inr hlt
        · exact .inr (Nat.lt_trans hlt hcases)
      · exact hcases

/-- What is taken of some packings is taken of the first ones of these if it is one of
    them. -/
theorem choose_of_append (h : choose b canFill (zs ++ rest) none = some a) (ha : a ∈ zs) :
    choose b canFill zs none = some a := by
  by_cases hsettles : ∃ c ∈ zs, settles b canFill c = true
  · rwa [choose_append_of_settles hsettles] at h
  · have hnone : ∀ c ∈ zs, settles b canFill c = false := fun c hc =>
      Bool.eq_false_iff.2 fun hc' => hsettles ⟨c, hc, hc'⟩
    have hfirst : Passed b canFill [] none := nofun
    obtain ⟨hopen, c, hc, hle⟩ := passed_choose hnone hfirst a (List.mem_append_left _ ha)
    rw [choose_append hnone, hc] at h
    rcases choose_cases h with hyes | rfl | hlt
    · rw [hopen] at hyes
      cases hyes
    · exact hc
    · exact absurd hlt (Nat.not_lt.2 hle)

theorem eq_nil_of_choose_eq_none (h : choose b canFill zs best = none) : zs = [] := by
  induction zs generalizing best with
  | nil => rfl
  | cons a zs ih =>
    rw [choose] at h
    split_ifs at h
    -- Something is taken of what comes after it, or else it would be the best one.
    obtain rfl := ih h
    cases h

/-- With players enough for a full match, the first packing is taken if it is full or
    none is full or larger. -/
theorem choose_true_cons (h : a.isFull b = true ∨
      ∀ c ∈ zs, c.isFull b = false ∧ c.players ≤ a.players) :
    choose b true (a :: zs) none = some a := by
  by_cases ha : a.isFull b = true
  · exact if_pos (by simp [settles, ha])
  · have hzs := h.resolve_left ha
    refine (if_neg (by simp [settles, ha])).trans ?_
    rw [Assembly.larger]
    clear h
    induction zs with
    | nil => rfl
    | cons c zs ih =>
      obtain ⟨⟨hc, hle⟩, hzs⟩ := List.forall_mem_cons.1 hzs
      rw [choose, if_neg (by simp [settles, hc]), Assembly.larger, if_neg (Nat.not_lt.2 hle)]
      exact ih hzs

end Choose

/-! ## The largest packing -/

/-- A packing is the first one of the largest of some; of none there is none. -/
def FirstLargest (as : List Assembly) : Option Assembly → Prop
  | none => as = []
  | some a => ∃ before after, as = before ++ a :: after ∧
      (∀ c ∈ before, c.players < a.players) ∧ ∀ c ∈ after, c.players ≤ a.players

section FirstLargest

variable {b : Bounds} {as seen zs : List Assembly} {a c : Assembly} {best : Option Assembly}

theorem FirstLargest.le (h : FirstLargest as (some a)) (hc : c ∈ as) : c.players ≤ a.players := by
  obtain ⟨before, after, rfl, hbefore, hafter⟩ := h
  rcases List.mem_append.1 hc with hc | hc
  · exact Nat.le_of_lt (hbefore c hc)
  · rcases List.mem_cons.1 hc with rfl | hc
    · exact Nat.le_refl _
    · exact hafter c hc

theorem FirstLargest.mem (h : FirstLargest as (some a)) : a ∈ as := by
  obtain ⟨before, after, rfl, -, -⟩ := h
  simp

/-- With one packing more, the larger one is the first one of the largest. -/
theorem FirstLargest.concat (h : FirstLargest seen best) (c : Assembly) :
    FirstLargest (seen ++ [c]) (some (c.larger best)) := by
  cases best with
  | none =>
    obtain rfl : seen = [] := h
    exact ⟨[], [], rfl, nofun, nofun⟩
  | some a =>
    by_cases hlt : a.players < c.players
    · rw [Assembly.larger, if_pos hlt]
      exact ⟨seen, [], rfl, fun x hx => Nat.lt_of_le_of_lt (h.le hx) hlt, nofun⟩
    · obtain ⟨before, after, rfl, hbefore, hafter⟩ := h
      rw [Assembly.larger, if_neg hlt]
      refine ⟨before, after ++ [c], by simp, hbefore, List.forall_mem_append.2 ⟨hafter, ?_⟩⟩
      simpa using Nat.not_lt.1 hlt

/-- With players enough to fill a match, what is taken of some packings is the first one of
    the largest, if exactly the largest ones that there may be are full. -/
theorem firstLargest_choose (most : Nat) (hseen : FirstLargest seen best)
    (hopen : ∀ c ∈ seen, c.isFull b = false)
    (hmost : ∀ c ∈ seen ++ zs, c.players ≤ most ∧ (c.isFull b = true ↔ c.players = most)) :
    FirstLargest (seen ++ zs) (choose b true zs best) := by
  induction zs generalizing seen best with
  | nil => simpa [choose] using hseen
  | cons c zs ih =>
    rw [choose]
    split_ifs with hc
    · -- Nothing before is full, and nothing behind is larger than what is full.
      have hfull : c.players = most :=
        ((hmost c (by simp)).2).1 (by simpa [settles] using hc)
      refine ⟨seen, zs, rfl, fun x hx => ?_, fun x hx => ?_⟩
      · obtain ⟨hle, hiff⟩ := hmost x (List.mem_append_left _ hx)
        have hne : x.players ≠ most := fun heq =>
          Bool.false_ne_true ((hopen x hx).symm.trans (hiff.2 heq))
        exact hfull ▸ Nat.lt_of_le_of_ne hle hne
      · exact hfull ▸ (hmost x (by simp [hx])).1
    · have hnot : c.isFull b = false := by simpa [settles] using hc
      rw [List.append_cons] at hmost ⊢
      refine ih (hseen.concat c) (List.forall_mem_append.2 ⟨hopen, by simpa using hnot⟩) hmost

end FirstLargest

/-- A packing has no more players than there may be, and exactly as many if it is full. -/
theorem players_of_packed? {pivot : Ticket α} {ts : List (Ticket α)} {order : List Nat}
    {a : Assembly} (h : m.packed? (Entrant.ofList (pivot :: ts)).toArray order = some a) :
    a.players ≤ m.packing.rule.bounds.maxTeams * m.packing.rule.bounds.maxSize ∧
      (a.isFull m.packing.rule.bounds = true ↔
        a.players = m.packing.rule.bounds.maxTeams * m.packing.rule.bounds.maxSize) := by
  obtain ⟨_, seats, _, _, hseats⟩ := packed?_keeps m.packing.keeps_holds id h
  have hpos : 0 < m.packing.rule.bounds.maxSize := by
    rcases Nat.eq_zero_or_pos m.packing.rule.bounds.maxSize with hmax | hpos
    · rw [packed?, Packing.pack?_eq_none hmax] at h
      cases h
    · exact hpos
  have hlength : a.teams.length ≤ m.packing.rule.bounds.maxTeams := by
    have := hseats.allows.le_maxTeams
    rwa [← hseats.players, List.length_map] at this
  have hsizes : ∀ t ∈ a.teams, t.players ≤ m.packing.rule.bounds.maxSize := fun t ht =>
    (hseats.allows.sizes t.players (hseats.players ▸ List.mem_map_of_mem ht)).2
  have hle := total_le_length_mul hsizes
  have hmul := Nat.mul_le_mul_right m.packing.rule.bounds.maxSize hlength
  refine ⟨Nat.le_trans hle hmul, ?_⟩
  rw [Assembly.isFull, Bool.and_eq_true, decide_eq_true_iff, List.all_eq_true]
  simp only [decide_eq_true_iff]
  rw [← total_eq_length_mul_iff hsizes]
  constructor
  · rintro ⟨hteams, hall⟩
    rwa [hteams] at hall
  · intro hall
    have hteams : a.teams.length = m.packing.rule.bounds.maxTeams :=
      Nat.eq_of_mul_eq_mul_right hpos (Nat.le_antisymm hmul (hall ▸ hle))
    exact ⟨hteams, hteams ▸ hall⟩

/-! ## Greater caps -/

theorem packings_prefix (p : Packing) (pivot : Ticket α) (ts : List (Ticket α)) {a b : Nat}
    (hab : a ≤ b) : (mk p a).packings pivot ts <+: (mk p b).packings pivot ts :=
  (Orderings.take_prefix (max_le_max_right 1 hab) _).filterMap _

/-- With players enough to fill a match, the first one of the largest packings is taken. -/
theorem assemble?_firstLargest (m : Assembler) (pivot : Ticket α) (ts : List (Ticket α))
    (hfill : m.canFill (pivot :: ts) = true) :
    FirstLargest (m.packings pivot ts) (m.assemble? pivot ts) := by
  rw [assemble?_eq_choose, hfill]
  have hnone : FirstLargest [] none := rfl
  refine firstLargest_choose (m.packing.rule.bounds.maxTeams * m.packing.rule.bounds.maxSize)
    hnone nofun fun c hc => ?_
  obtain ⟨order, _, horder⟩ := List.mem_filterMap.1 hc
  exact players_of_packed? horder

theorem packings_eq_nil_iff (m : Assembler) (pivot : Ticket α) (ts : List (Ticket α)) :
    m.packings pivot ts = [] ↔ m.assemble? pivot ts = none := by
  rw [assemble?_eq_choose]
  exact ⟨fun h => by rw [h]; rfl, eq_nil_of_choose_eq_none⟩

/-- One team of two or three players. -/
def outing : Packing := ⟨.ofBounds ⟨1, 1, 2, 3⟩, .cannotMatch, .normal⟩

/-- The ticket of a party that goes out together. -/
def company (id : String) (users : List String) : Ticket Rat where
  id := id
  channel := "outing"
  partyId := id
  members := users.map .ofId
  attributes := ∅
  priority := 0
  createdAt := .ofNanos 0
  latencies := ∅
  excluded := []

/-- The first two parties leave no room for the third one. -/
def companies : List (Ticket Rat) :=
  [company "a" ["ann"], company "b" ["ben"], company "c" ["cid", "cora"]]

end Assembler

end Matchmaking
