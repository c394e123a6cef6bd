import Mathlib.Data.Int.Order.Basic
import MysqlPlugin.Thread

namespace MysqlPlugin.Clock

/-- The milliseconds after which Thread::time starts anew. -/
def lap : Nat := 0x100000 * 1000

/-- A value of the arithmetic on ints; one outside of their range is undefined. -/
def toInt (value : Int) : Option Int :=
  if -2 ^ 31 ≤ value ∧ value < 2 ^ 31 then some value else none

def timeInt (instant : Nat) : Option Int :=
  (toInt (instant / 1000 &&& 0xFFFFF : Nat)).bind fun seconds =>
    (toInt (seconds * 1000)).bind fun milliseconds =>
      toInt ((instant % 1000 : Nat) + milliseconds)

def timeSpanInt (instant : Nat) (start : Int) : Option Int :=
  (timeInt instant).bind fun time =>
    (toInt (time - start)).bind fun duration =>
      if duration < 0 then (toInt (0x100000 * 1000)).bind fun turn => toInt (duration + turn)
      else some duration

theorem toInt_of_bounds {value : Int} (hl : -2 ^ 31 ≤ value) (hu : value < 2 ^ 31) :
    toInt value = some value :=
  if_pos ⟨hl, hu⟩

theorem seconds_eq (instant : Nat) : (instant / 1000 &&& 0xFFFFF) = instant / 1000 % 0x100000 :=
  Nat.and_two_pow_sub_one_eq_mod _ 20

theorem time_eq (instant : Nat) : Thread.time instant = (instant % lap : Nat) := by
  have hm : instant % lap = instant % 1000 + 1000 * (instant / 1000 % 0x100000) := by
    rw [lap, Nat.mul_comm, Nat.mod_mul]
  rw [Thread.time, seconds_eq, hm]
  omega

theorem time_nonneg (instant : Nat) : 0 ≤ Thread.time instant := by
  rw [time_eq]
  exact Int.natCast_nonneg _

theorem time_lt (instant : Nat) : Thread.time instant < lap := by
  rw [time_eq, Int.ofNat_lt]
  exact Nat.mod_lt _ (by decide)

theorem timeSpan_time {start instant : Nat} (h : start ≤ instant) :
    Thread.timeSpan instant (Thread.time start) = ((instant - start) % lap : Nat) := by
  simp only [Thread.timeSpan, time_eq, lap]
  split <;> omega

theorem timeSpan_time_le {start instant : Nat} (h : start ≤ instant) :
    Thread.timeSpan instant (Thread.time start) ≤ instant - start := by
  rw [timeSpan_time h, ← Int.ofNat_sub h, Int.ofNat_le]
  exact Nat.mod_le _ _

theorem timeInt_eq (instant : Nat) : timeInt instant = some (Thread.time instant) := by
  have hs := Nat.mod_lt (instant / 1000) (show 0x100000 > 0 by decide)
  have hm := Nat.mod_lt instant (show 1000 > 0 by decide)
  rw [timeInt, seconds_eq, Thread.time, seconds_eq]
  rw [toInt_of_bounds (by omega) (by omega), Option.bind_some,
    toInt_of_bounds (by omega) (by omega), Option.bind_some,
    toInt_of_bounds (by omega) (by omega)]

theorem timeSpanInt_eq {start : Int} (hl : 0 ≤ start) (hu : start < lap) (instant : Nat) :
    timeSpanInt instant start = some (Thread.timeSpan instant start) := by
  have htl := time_nonneg instant
  have htu := time_lt instant
  rw [lap] at hu htu
  rw [timeSpanInt, timeInt_eq, Option.bind_some, toInt_of_bounds (by omega) (by omega),
    Option.bind_some, Thread.timeSpan]
  split
  · rw [toInt_of_bounds (by decide) (by decide), Option.bind_some,
      toInt_of_bounds (by omega) (by omega)]
  · rfl

/-- Between two instants a span is what has passed, up to whole laps, and no value on
the way to it is too large for an int. -/
theorem clock_arithmetic {start instant : Nat} (h : start ≤ instant) :
    Thread.timeSpan instant (Thread.time start) = ((instant - start) % 1048576000 : Nat) ∧
      (instant - start < 1048576000 →
        Thread.timeSpan instant (Thread.time start) = (instant - start : Nat)) ∧
      0 ≤ Thread.timeSpan instant (Thread.time start) ∧
      Thread.timeSpan instant (Thread.time start) < 1048576000 ∧
      timeInt start = some (Thread.time start) ∧
      timeSpanInt instant (Thread.time start) =
        some (Thread.timeSpan instant (Thread.time start)) := by
  have hs : Thread.timeSpan instant (Thread.time start) = ((instant - start) % 1048576000 : Nat) :=
    timeSpan_time h
  have hlt := Nat.mod_lt (instant - start) (show 1048576000 > 0 by decide)
  refine ⟨hs, fun hn => ?_, ?_, ?_, timeInt_eq start,
    timeSpanInt_eq (time_nonneg start) (time_lt start) instant⟩
  · rw [hs, Nat.mod_eq_of_lt hn]
  · rw [hs]
    exact Int.natCast_nonneg _
  · rw [hs]
    exact Int.ofNat_lt.mpr hlt

theorem clock_arithmetic_wrap : Thread.timeSpan 1048576500 (Thread.time 1048575000) = 1500 := by
  have h := clock_arithmetic (show 1048575000 ≤ 1048576500 by decide)
  exact h.2.1 (by decide)

end MysqlPlugin.Clock
