import Mathlib.Tactic

/-! Durations in nanoseconds, with the saturating addition of the standard library. A clock that accumulates spans of
time shows the time itself, cut at the longest duration. -/

namespace Arcen

abbrev Duration := Nat

def durationMax : Duration := (2 ^ 64 - 1) * 1000000000 + 999999999

def Duration.saturatingAdd (first second : Duration) : Duration := min (first + second) durationMax

/-- A span of time as a clock shows it. -/
def Duration.saturated (span : Duration) : Duration := min span durationMax

theorem Duration.saturatingAdd_saturated (span elapsed : Duration) :
    Duration.saturatingAdd (Duration.saturated span) elapsed = Duration.saturated (span + elapsed) := by
  have hmin : ∀ span elapsed maximum : Nat, min (min span maximum + elapsed) maximum = min (span + elapsed) maximum := by
    omega
  exact hmin span elapsed durationMax

/-- A bound below the maximum is reached by the clock when it is reached by the time. -/
theorem Duration.le_saturated_iff (hbd : bound < durationMax) (span : Duration) :
    bound ≤ Duration.saturated span ↔ bound ≤ span := Nat.le_min.trans (and_iff_left (Nat.le_of_lt hbd))

theorem Duration.saturated_le_iff (hbd : bound < durationMax) (span : Duration) :
    Duration.saturated span ≤ bound ↔ span ≤ bound := min_le_iff.trans (or_iff_left (Nat.not_le_of_lt hbd))

end Arcen
