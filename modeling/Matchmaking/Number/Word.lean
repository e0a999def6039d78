/-!
# Words

Rules and latencies are written in words of 64 bits. Counts in rules are kept as
natural numbers, and what the word arithmetic does to them is said where it can
be seen. Arithmetic is checked: where a number of players is a product of bounds
that is no word, a run breaks off (`Failure.overflow`).

The arithmetic of roles is told as it is without that check: there a product or a
sum of counts wraps around (`Word.wrap`), and a count read as a signed word is
negative from `Word.half` on (`Word.signed`). Where a sum, a product or a difference
of them does not fit, the check breaks a run off instead. What has to fit is told by
`RoleCombination.Fits` and `RoleFlexing.Fits`.

Latencies are words, and their sums and products stop at the largest word
(`Latency.add`, `Latency.mul`).
-/

namespace Matchmaking

namespace Word

/-- The number of words. -/
def size : Nat := 18446744073709551616

/-- The number of words that are not negative as signed ones. -/
def half : Nat := 9223372036854775808

/-- A count as a word keeps its remainder. -/
def wrap (n : Nat) : Nat := n % size

/-- A whole number read as a signed word. -/
def signed (i : Int) : Int := i.bmod size

/-- A signed word read as a count. -/
def unsigned (i : Int) : Nat := (i % size).toNat

theorem signed_of_lt {n : Nat} (h : n < half) : signed n = n := by
  simp only [half] at h
  simp only [signed, size, Int.bmod_def]
  omega

end Word

/-- Milliseconds of latency. -/
abbrev Latency := UInt64

namespace Latency

/-- The largest latency. -/
def greatest : Latency := UInt64.ofNat (Word.size - 1)

/-- The latency of so many milliseconds, or the largest one. -/
def clamp (n : Nat) : Latency := UInt64.ofNat (min n (Word.size - 1))

/-- The sum of two latencies, or the largest one. -/
def add (a b : Latency) : Latency := clamp (a.toNat + b.toNat)

/-- A latency so many times, or the largest one. -/
def mul (n : Nat) (a : Latency) : Latency := clamp (n * a.toNat)

theorem toNat_clamp (n : Nat) : (clamp n).toNat = min n (Word.size - 1) := by
  simp only [clamp, Word.size, UInt64.toNat_ofNat']
  omega

theorem toNat_add (a b : Latency) : (add a b).toNat = min (a.toNat + b.toNat) (Word.size - 1) :=
  toNat_clamp _

theorem toNat_mul (n : Nat) (a : Latency) :
    (mul n a).toNat = min (n * a.toNat) (Word.size - 1) :=
  toNat_clamp _

end Latency

end Matchmaking
