/-!
# Instants

A point in time is a second of universal time, counted from the start of 1970,
and the nanoseconds into it. Days have 86400 seconds that are counted; a leap
second is not counted, but follows the last second of a minute as its second
half, from the nanosecond `second` on. So instants are ordered by their seconds
and then by their nanoseconds (`Instant.place`).

A span of time is a whole number of nanoseconds. Spans are added to an instant on
the line of counted seconds, on which a leap second lies beside a counted one,
the one after it or the one before it, depending on where the span leads
(`Instant.later`). The span between two instants is taken from their dates and
their times of day, and a leap second is part of it if the times of day lie on
both sides of it (`Instant.since`).

Waiting times are counted in whole seconds or milliseconds, cut off toward zero.
-/

namespace Matchmaking

namespace Instant

/-- The nanoseconds of a second. -/
def second : Nat := 1000000000

/-- The nanoseconds of a millisecond. -/
def millisecond : Nat := 1000000

/-- The seconds of a day. -/
def daySeconds : Nat := 86400

end Instant

/-- A point in time. -/
structure Instant where
  /-- The seconds since the start of 1970. -/
  seconds : Int
  /-- The nanoseconds into the second, and into the leap second after it. -/
  nanos : Nat
  /-- A leap second is no longer than others. -/
  nanos_lt : nanos < 2 * Instant.second
  /-- A leap second comes at the end of a minute. -/
  leap_at : Instant.second ≤ nanos → seconds % 60 = 59
  deriving DecidableEq

namespace Instant

/-- The instant so many nanoseconds after the start of 1970, in no leap second. -/
def ofNanos (n : Int) : Instant where
  seconds := n / second
  nanos := (n % second).toNat
  nanos_lt := by simp only [second]; omega
  leap_at := by simp only [second]; omega

instance : Inhabited Instant := ⟨ofNanos 0⟩

/-! ### Order -/

/-- The place of an instant among all, with room for a leap second after each
    second. -/
def place (a : Instant) : Int := a.seconds * (2 * second : Nat) + a.nanos

instance : LE Instant := ⟨fun a b => a.place ≤ b.place⟩
instance : LT Instant := ⟨fun a b => a.place < b.place⟩
instance (a b : Instant) : Decidable (a ≤ b) := inferInstanceAs (Decidable (a.place ≤ b.place))
instance (a b : Instant) : Decidable (a < b) := inferInstanceAs (Decidable (a.place < b.place))

/-- No two instants have one place. -/
theorem place_inj {a b : Instant} : a.place = b.place ↔ a = b := by
  refine ⟨fun h => ?_, fun h => h ▸ rfl⟩
  obtain ⟨s, n, hn, _⟩ := a
  obtain ⟨t, m, hm, _⟩ := b
  simp only [place, second] at h hn hm
  obtain rfl : s = t := by omega
  obtain rfl : n = m := by omega
  rfl

/-- The order of time. -/
def rank : Instant → Instant → Ordering := compareOn place

instance : Std.TransCmp rank := inferInstanceAs (Std.TransCmp (compareOn place))

/-- The earlier of two instants, the first if they are equal. -/
def earlier (a b : Instant) : Instant := if b < a then b else a

/-- The earliest of `a` and the instants of a list. -/
def earliest (a : Instant) (as : List Instant) : Instant := as.foldl earlier a

/-! ### Spans -/

/-- Whether an instant lies in a leap second. -/
def isLeap (a : Instant) : Bool := second ≤ a.nanos

/-- The nanoseconds from the start of 1970 to an instant on the line of counted
    seconds; those of a leap second go on into the second after it. -/
def total (a : Instant) : Int := a.seconds * second + a.nanos

/-- The instant so much later. From a leap second, a span of less than a second
    may lead to an instant in it or in the second before it. A longer one leads
    back as if the leap second were the second after it, and forth as if it were
    the second before it. -/
def later (a : Instant) (span : Int) : Instant :=
  if h : a.isLeap ∧ -(second : Int) < span then
    if h' : a.nanos + span < (2 * second : Nat) then
      { seconds := a.seconds
        nanos := (a.nanos + span).toNat
        nanos_lt := by omega
        leap_at := fun _ => a.leap_at (by simpa [isLeap] using h.1) }
    else ofNanos (a.total - second + span)
  else ofNanos (a.total + span)

/-- The seconds since the start of the day. -/
def timeOfDay (a : Instant) : Int := a.seconds % daySeconds

/-- The leap seconds that are counted in the time from `a` to `b`. -/
def leapSeconds (b a : Instant) : Int :=
  if a.isLeap && a.timeOfDay < b.timeOfDay then 1
  else if b.isLeap && b.timeOfDay < a.timeOfDay then -1
  else 0

/-- The time from `a` to `b`. -/
def since (b a : Instant) : Int := b.total - a.total + leapSeconds b a * second

/-- The whole seconds from `a` to `b`. -/
def secondsSince (b a : Instant) : Int := (b.since a).tdiv second

/-- The whole milliseconds from `a` to `b`. -/
def millisSince (b a : Instant) : Int := (b.since a).tdiv millisecond

end Instant

end Matchmaking
