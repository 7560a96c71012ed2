import Mathlib.Data.Int.Order.Basic
import Mathlib.Tactic.Ring

/-!
# Time

A `time.Time` in UTC is an integer, the number of nanoseconds since Go's zero
time at the start of the year one, so `IsZero` is `= 0` and
`Truncate(time.Minute)` rounds down to a multiple of the minute. A
`time.Duration` is an integer number of nanoseconds.
-/

namespace RelayLifeline

/-- `time.Minute`. -/
def minute : Int := 60000000000

/-- `t.UTC().Truncate(time.Minute)`. -/
def truncateMinute (t : Int) : Int := t - t % minute

theorem truncateMinute_le (t : Int) : truncateMinute t ≤ t := by
  unfold truncateMinute minute
  omega

@[simp] theorem truncateMinute_idem (t : Int) :
    truncateMinute (truncateMinute t) = truncateMinute t := by
  unfold truncateMinute minute
  omega

/-- A later time is in the same window, or in one that had not begun. -/
theorem truncateMinute_of_le {s t : Int} (h : s ≤ t) :
    truncateMinute t = truncateMinute s ∨ s < truncateMinute t := by
  unfold truncateMinute minute
  omega

/-- `time.Hour`. -/
def hour : Int := 3600000000000

/-- `t.UTC().Truncate(time.Hour)`. -/
def truncateHour (t : Int) : Int := t - t % hour

theorem truncateHour_mono {s t : Int} (h : s ≤ t) : truncateHour s ≤ truncateHour t := by
  unfold truncateHour hour
  omega

/-- What one call reads off the clock: the manager's own `m.now()` and the
journal's `time.Now()` when it stamps the entry the call appends. A wall clock
is past the first minute of the year one, so no window it opens is the zero
time. -/
structure Clock where
  now : Int
  stamp : Int
  started : minute ≤ now := by first | exact Int.le_refl minute | decide

/-- The minute window of a reading. -/
def Clock.window (clk : Clock) : Int := truncateMinute clk.now

@[simp] theorem Clock.truncateMinute_window (clk : Clock) :
    truncateMinute clk.window = clk.window := truncateMinute_idem clk.now

theorem Clock.window_le_now (clk : Clock) : clk.window ≤ clk.now := truncateMinute_le clk.now

theorem Clock.window_ne_zero (clk : Clock) : clk.window ≠ 0 := by
  have := clk.started
  unfold Clock.window truncateMinute minute at *
  omega

end RelayLifeline
