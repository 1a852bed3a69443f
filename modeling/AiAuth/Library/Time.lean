import Mathlib.Order.MinMax
import Mathlib.Data.Int.Order.Basic

/-!
# Instants and durations

Instants are integers, in nanoseconds since the Unix epoch, and durations are
nanoseconds. A difference of instants saturates at the ends of a signed 64-bit
duration.
-/
namespace AiAuth.Library.Time

abbrev second : ℤ := 1000000000
abbrev minute : ℤ := 60 * second

def minDuration : ℤ := -9223372036854775808
def maxDuration : ℤ := 9223372036854775807

/-- Whole seconds since the epoch, rounded down. -/
def unix (t : ℤ) : ℤ := t / second

/-- The instant at a whole second. -/
def ofUnix (s : ℤ) : ℤ := s * second

/-- The time elapsed from `u` to `t`. -/
def sub (t u : ℤ) : ℤ := max minDuration (min maxDuration (t - u))

/-- A duration with the other sign. The least one has none and stays as it is. -/
def neg (d : ℤ) : ℤ := if d = minDuration then d else -d

theorem neg_of_ne {d : ℤ} (h : d ≠ minDuration) : neg d = -d := if_neg h

theorem ofUnix_unix_le (t : ℤ) : ofUnix (unix t) ≤ t := by
  simp only [ofUnix, unix, second]
  omega

/-- Saturation does not move a difference across a bound inside the 64-bit range. -/
theorem lt_sub_iff {t u d : ℤ} (hd : minDuration ≤ d) (hd' : d < maxDuration) :
    d < sub t u ↔ d < t - u := by
  simp only [sub, lt_max_iff, lt_min_iff]
  omega

theorem sub_lt_iff {t u d : ℤ} (hd : minDuration < d) (hd' : d ≤ maxDuration) :
    sub t u < d ↔ t - u < d := by
  simp only [sub, max_lt_iff, min_lt_iff]
  omega

end AiAuth.Library.Time
