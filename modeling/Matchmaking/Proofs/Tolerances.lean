import Mathlib.Data.List.Nodup
import Matchmaking.Instant.Calendar
import Matchmaking.Proofs.Waiting

/-!
# Tolerances in force

The tolerance of an attribute is looked up for whoever waits, pivot or ticket, and it
does not shrink in time (`RuleSet.tolerance?_grows`), whatever the order of what replaces
it and however long the durations are. A clock that cuts long durations off, and knows no
instant after the last date that is written, tells the same (`isOverdueBy_written`).

A pivot is held to the rules in force, each of which has a tolerance of its own, and a
ticket to the tolerance that is looked up. The two are the same where the rules about an
attribute have one tolerance or it is replaced, and only there
(`RuleSet.tolerances_agree_iff`). So they are with one rule for each attribute
(`RuleSet.uniformAt_of_nodup`).
-/

namespace Matchmaking

variable {α : Type}

/-! ## Long durations -/

namespace Instant

/-- A longer span leads no less far. -/
theorem later_le_later (a : Instant) {s t : Int} (h : s ≤ t) : a.later s ≤ a.later t := by
  show (a.later s).place ≤ (a.later t).place
  have hnanos : a.nanos < 2000000000 := a.nanos_lt
  simp only [later, isLeap, decide_eq_true_eq]
  split_ifs <;> simp only [place, ofNanos, total] <;> simp only [second] at * <;> omega

/-- Whether an instant falls into a year of which dates are written. -/
def isWritten (a : Instant) : Bool := Date.isWritten (a.seconds / daySeconds + Date.epoch)

/-- The last instant of these years, in a leap second. -/
def lastWritten : Instant :=
  ⟨(Date.daysBeforeYear (Date.lastYear + 1) - Date.epoch) * daySeconds - 1, 2 * second - 1,
    by decide, by decide⟩

theorem seconds_of_isWritten {a : Instant} (h : a.isWritten = true) :
    -8334601228800 ≤ a.seconds ∧ a.seconds ≤ lastWritten.seconds := by
  have hfirst : Date.daysBeforeYear Date.firstYear = -95745764 := by decide
  have hlast : Date.daysBeforeYear (Date.lastYear + 1) = 95745765 := by decide
  simp only [isWritten, Date.isWritten, hfirst, hlast, Bool.and_eq_true, decide_eq_true_eq,
    lastWritten, daySeconds, Date.epoch] at h ⊢
  omega

theorem le_lastWritten {a : Instant} (h : a.isWritten = true) : a ≤ lastWritten := by
  show a.place ≤ lastWritten.place
  have hseconds : a.seconds ≤ lastWritten.seconds := (seconds_of_isWritten h).2
  have hnanos : a.nanos ≤ lastWritten.nanos := Nat.le_pred_of_lt a.nanos_lt
  simp only [place, second]
  omega

/-- The longest span that is counted, in seconds: that of a word of milliseconds. -/
def longestSpan : Nat := (2 ^ 63 - 1) / 1000

/-- The longest span leads from any instant beyond the last one. -/
theorem lastWritten_lt_later {a : Instant} (h : a.isWritten = true) :
    lastWritten < a.later (longestSpan * second) := by
  show lastWritten.place < (a.later _).place
  have hfirst := (seconds_of_isWritten h).1
  have hspan : longestSpan = 9223372036854775 := by decide
  have hnanos : a.nanos < 2000000000 := a.nanos_lt
  rw [show lastWritten.place = 16420533753599999999999 by decide]
  simp only [later, isLeap, decide_eq_true_eq]
  split_ifs <;> simp only [place, ofNanos, total] <;> simp only [second] at * <;> omega

end Instant

/-- Whether more than so many seconds have passed, on a clock that counts them up to a
    bound and knows no instant after the last one. -/
def isOverdueBy (bound : Nat) (last anchor now : Instant) (seconds : Nat) : Bool :=
  let threshold := anchor.later ((min seconds bound : Nat) * Instant.second)
  threshold ≤ last && threshold < now

/-- Up to its last instant a clock tells who is overdue, if its bound leads beyond it. -/
theorem isOverdueBy_eq {bound : Nat} {last anchor now : Instant} (hnow : now ≤ last)
    (hbound : last < anchor.later (bound * Instant.second)) (seconds : Nat) :
    isOverdueBy bound last anchor now seconds = isOverdue anchor now seconds := by
  have hlast {threshold : Instant} (h : threshold < now) : threshold ≤ last :=
    Int.le_trans (Int.le_of_lt h) hnow
  rw [isOverdueBy, isOverdue, Bool.eq_iff_iff, Bool.and_eq_true, decide_eq_true_eq,
    decide_eq_true_eq, decide_eq_true_eq, and_iff_right_of_imp hlast]
  rcases Nat.le_total seconds bound with hle | hle
  · rw [Nat.min_eq_left hle]
  · -- Neither of the two spans leads to an instant up to the last one.
    have hnever {n : Nat} (hn : bound ≤ n) : ¬anchor.later (n * Instant.second) < now := by
      intro h
      have hspan : (bound * Instant.second : Int) ≤ n * Instant.second :=
        Int.mul_le_mul_of_nonneg_right (Int.ofNat_le.2 hn) (by decide)
      exact Int.not_le.2 hbound (Int.le_trans (Instant.later_le_later anchor hspan) (hlast h))
    rw [Nat.min_eq_right hle]
    exact iff_of_false (hnever (Nat.le_refl _)) (hnever hle)

/-- Between instants that are written it is no matter that spans and dates are bounded. -/
theorem isOverdueBy_written {anchor now : Instant} (hanchor : anchor.isWritten = true)
    (hnow : now.isWritten = true) (seconds : Nat) :
    isOverdueBy Instant.longestSpan Instant.lastWritten anchor now seconds =
      isOverdue anchor now seconds :=
  isOverdueBy_eq (Instant.le_lastWritten hnow) (Instant.lastWritten_lt_later hanchor) seconds

/-! ## Tolerances in time -/

namespace RuleSet

variable [Scalar α] {r : RuleSet α} {anchor now now₀ now₁ : Instant} {key : String}

omit [Scalar α] in
theorem exists_distance? (hkey : key ∈ r.keys) : ∃ d, r.distance? key = some d :=
  Option.isSome_iff_exists.1 (distance?_isSome_iff.2 hkey)

omit [Scalar α] in
/-- What has been waited for is taken up: once a tolerance may be replaced, it is, by one
    for no shorter a wait. -/
theorem exists_tolerance?_of_isOverdue (hkey : key ∈ r.keys) {f : FlexingRule α}
    (hf : f ∈ r.flexing) (hfkey : f.key = key) (h : isOverdue anchor now f.duration = true) :
    ∃ g ∈ r.flexing, g.key = key ∧ f.duration ≤ g.duration ∧
      r.tolerance? anchor now key = some g.tolerance := by
  obtain ⟨d, hd⟩ := exists_distance? hkey
  have hmem : f ∈ r.flexing.filter fun f => f.key == key :=
    List.mem_filter.2 ⟨hf, by simpa using hfkey⟩
  obtain ⟨g, hg, hle⟩ := exists_inForce? hmem h
  have hflexing : r.flexing? anchor now key = some g := hg
  obtain ⟨hgmem, hgkey⟩ := mem_of_flexing? hflexing
  refine ⟨g, hgmem, hgkey, hle, ?_⟩
  rw [tolerance?, hd, hflexing]
  rfl

/-- Under rules without a fault every attribute that they measure has a tolerance at all
    times, and it does not shrink in time. It stays or becomes one that is not less, and
    no tolerance for a longer wait is left behind. -/
theorem tolerance?_grows (hr : r.fault? = none) (hnow : now₀ ≤ now₁) (anchor : Instant)
    (hkey : key ∈ r.keys) :
    ∃ a b, r.tolerance? anchor now₀ key = some a ∧ r.tolerance? anchor now₁ key = some b ∧
      (b = a ∨ ¬b < a) ∧
      ∀ f ∈ r.flexing, f.key = key → isOverdue anchor now₁ f.duration = true →
        ∃ g ∈ r.flexing, g.key = key ∧ f.duration ≤ g.duration ∧ b = g.tolerance := by
  obtain ⟨d, hd⟩ := exists_distance? hkey
  have h₀ : r.tolerance? anchor now₀ key =
      some (((r.flexing? anchor now₀ key).map (·.tolerance)).getD d.tolerance) := by
    rw [tolerance?, hd, Option.map_some]
  obtain ⟨b, h₁, hgrows⟩ := tolerance?_later hr hnow h₀
  refine ⟨_, b, h₀, h₁, hgrows, fun f hf hfkey hover => ?_⟩
  obtain ⟨g, hg, hgkey, hle, htolerance⟩ := exists_tolerance?_of_isOverdue hkey hf hfkey hover
  exact ⟨g, hg, hgkey, hle, Option.some_inj.1 (h₁.symm.trans htolerance)⟩

/-! ### Patience in any order -/

/-- A tolerance that is replaced after ten seconds, by the last one for them, after
    thirty, and after so many that they never pass. -/
def stretch : RuleSet Rat :=
  { (ofAlliance (.ofBounds ⟨2, 2, 1, 1⟩) : RuleSet Rat) with
    distances := [⟨"level", 5, none, none⟩]
    flexing := [⟨18446744073709551615, "level", 90⟩, ⟨30, "level", 20⟩, ⟨10, "level", 10⟩,
      ⟨10, "level", 15⟩] }

theorem stretch_grows :
    stretch.fault? = none ∧
      Instant.ofNanos (11 * Instant.second) ≤ .ofNanos (31 * Instant.second) ∧
      "level" ∈ stretch.keys ∧
      ∃ a b, stretch.tolerance? (.ofNanos 0) (.ofNanos (11 * Instant.second)) "level" = some a ∧
        stretch.tolerance? (.ofNanos 0) (.ofNanos (31 * Instant.second)) "level" = some b ∧
        (b = a ∨ ¬b < a) ∧ a = 15 ∧ b = 20 := by
  have hr : stretch.fault? = none := by decide +kernel
  have hnow : Instant.ofNanos (11 * Instant.second) ≤ .ofNanos (31 * Instant.second) := by decide
  have hkey : "level" ∈ stretch.keys := by decide
  obtain ⟨a, b, ha, hb, hgrows, _⟩ := tolerance?_grows hr hnow (.ofNanos 0) hkey
  have ha' : stretch.tolerance? (.ofNanos 0) (.ofNanos (11 * Instant.second)) "level" =
      some 15 := by decide +kernel
  have hb' : stretch.tolerance? (.ofNanos 0) (.ofNanos (31 * Instant.second)) "level" =
      some 20 := by decide +kernel
  exact ⟨hr, hnow, hkey, a, b, ha, hb, hgrows, Option.some_inj.1 (ha.symm.trans ha'),
    Option.some_inj.1 (hb.symm.trans hb')⟩

/-! ## Tolerances of pivots and of tickets -/

/-- The rules about an attribute have one tolerance, unless it is replaced. -/
def UniformAt (r : RuleSet α) (anchor now : Instant) : Prop :=
  ∀ d ∈ r.distances, ∀ e ∈ r.distances, d.key = e.key → r.flexing? anchor now d.key = none →
    d.tolerance = e.tolerance

omit [Scalar α] in
theorem uniformAt_of_nodup (h : r.keys.Nodup) : r.UniformAt anchor now :=
  fun _ hd _ he hkey _ => congrArg _ (List.inj_on_of_nodup_map h hd he hkey)

omit [Scalar α] in
/-- Where the rules about an attribute have one tolerance, that of a rule in force is the
    one that is looked up. -/
theorem UniformAt.tolerance?_eq (h : r.UniformAt anchor now) {d : DistanceRule α}
    (hd : d ∈ r.distancesAt anchor now) : r.tolerance? anchor now d.key = some d.tolerance := by
  obtain ⟨e, he, rfl⟩ := List.mem_map.1 hd
  obtain ⟨first, hfirst⟩ := exists_distance? (r := r) (List.mem_map_of_mem he)
  cases hflexing : r.flexing? anchor now e.key with
  | some f => simp only [tolerance?, hfirst, hflexing, Option.map_some, Option.getD_some]
  | none =>
    have hkey : first.key = e.key := by simpa using List.find?_some hfirst
    have htolerance := h first (List.mem_of_find?_eq_some hfirst) e he hkey (hkey ▸ hflexing)
    simp only [tolerance?, hfirst, hflexing, Option.map_some, Option.map_none, Option.getD_none,
      htolerance]

omit [Scalar α] in
/-- The rules in force for a pivot have the tolerances that are looked up for a ticket
    that has waited for as long, and hold it to them, exactly if the rules about each
    attribute have one tolerance or it is replaced. -/
theorem tolerances_agree_iff (r : RuleSet α) (anchor now : Instant) :
    (∀ d ∈ (r.flexedAt anchor now).distances,
      r.tolerance? anchor now d.key = some d.tolerance ∧
        ∀ s : Search α, s.source = r → s.now = now → ∀ t : Ticket α, t.createdAt = anchor →
          s.toleranceOf d t = d.tolerance) ↔
      r.UniformAt anchor now := by
  constructor
  · intro hagree d hd e he hkey hnone
    have hlookup {d : DistanceRule α} (hd : d ∈ r.distances)
        (hnone : r.flexing? anchor now d.key = none) :
        r.tolerance? anchor now d.key = some d.tolerance :=
      (hagree d (List.mem_map.2 ⟨d, hd, by rw [hnone]⟩)).1
    have hsame := (hlookup hd hnone).symm.trans (hkey ▸ hlookup he (hkey ▸ hnone))
    exact Option.some_inj.1 hsame
  · rintro huniform d hd
    have hlookup := huniform.tolerance?_eq hd
    refine ⟨hlookup, ?_⟩
    rintro s rfl rfl t rfl
    rw [Search.toleranceOf, hlookup, Option.getD_some]

/-! ### Two rules about one attribute -/

/-- Players of a like level, and again of a like level. -/
def twofold : RuleSet Rat :=
  { (ofAlliance (.ofBounds ⟨2, 2, 1, 1⟩) : RuleSet Rat) with
    distances := [⟨"level", 100, none, none⟩, ⟨"level", 50, none, none⟩] }

/-- The pivot is held to both rules, and a ticket to the first one twice. -/
theorem twofold_disagrees : twofold.fault? = none ∧
    twofold.tolerance? (.ofNanos 0) (.ofNanos 0) "level" = some 100 ∧
    ∃ d ∈ (twofold.flexedAt (.ofNanos 0) (.ofNanos 0)).distances,
      d.key = "level" ∧ d.tolerance = 50 := by
  decide +kernel

end RuleSet

end Matchmaking
