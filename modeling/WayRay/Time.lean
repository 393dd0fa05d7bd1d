import Mathlib.Tactic.NormNum
import Mathlib.Data.Int.Bitwise

/-!
# Clocks, durations and `i64` casts

`Instant` is a reading of the monotonic clock in nanoseconds since the clock's origin, `Duration` a
span of at most `u64::MAX` whole seconds and a sub-second part, `Clock` the pair of readings
(`Instant::now()`, seconds of `SystemTime::now()` since the epoch) that one operation sees.

`asI64` and `asU64` are the two's-complement casts `x as i64` of a `u64` and `x as u64` of an `i64`.
-/

namespace WayRay

/-- `Instant`: nanoseconds since the origin of the monotonic clock. -/
abbrev Instant := ℕ

/-- Nanoseconds in a second. -/
def nanosPerSec : ℕ := 1000000000

/-- `Duration`: whole seconds (a `u64`) and the nanoseconds below a second. -/
structure Duration where
  secs : ℕ
  subsecNanos : ℕ
  secs_lt : secs < 2 ^ 64
  subsecNanos_lt : subsecNanos < nanosPerSec
deriving DecidableEq

namespace Duration

/-- `Duration::as_secs`. -/
def asSecs (d : Duration) : ℕ := d.secs

/-- The whole span in nanoseconds, the scale durations are compared on. -/
def asNanos (d : Duration) : ℕ := d.secs * nanosPerSec + d.subsecNanos

/-- `Duration::from_secs` (its argument is a `u64`). -/
def fromSecs (s : ℕ) : Duration := ⟨s % 2 ^ 64, 0, Nat.mod_lt _ (by norm_num), by decide⟩

@[simp] theorem asSecs_fromSecs {s : ℕ} (h : s < 2 ^ 64) : (fromSecs s).asSecs = s :=
  Nat.mod_eq_of_lt h

end Duration

/-- The clock readings one operation sees. -/
structure Clock where
  /-- `Instant::now()`. -/
  now : Instant
  /-- `SystemTime::now().duration_since(UNIX_EPOCH).as_secs()`. -/
  epoch : ℕ
deriving DecidableEq

/-- `t.elapsed()` in nanoseconds; the standard library saturates at zero. -/
def Instant.elapsed (t now : Instant) : ℕ := now - t

/-- `t.elapsed().as_secs()`. -/
def Instant.elapsedSecs (t now : Instant) : ℕ := Instant.elapsed t now / nanosPerSec

/-- `t.checked_sub(age)` for an age in whole seconds: `None` before the clock's origin. -/
def Instant.checkedSub (t : Instant) (age : ℕ) : Option Instant :=
  if age * nanosPerSec ≤ t then some (t - age * nanosPerSec) else none

theorem Instant.elapsedSecs_le_of_le {t t' : Instant} (h : t ≤ t') (now : Instant) :
    Instant.elapsedSecs t' now ≤ Instant.elapsedSecs t now :=
  Nat.div_le_div_right (Nat.sub_le_sub_left h now)

theorem Instant.getD_checkedSub_le (t : Instant) (age : ℕ) : (t.checkedSub age).getD t ≤ t := by
  unfold Instant.checkedSub
  split_ifs
  · rw [Option.getD_some]
    exact Nat.sub_le t _
  · rw [Option.getD_none]

/-! ### Casts -/

/-- `x as i64` for a `u64`. -/
def asI64 (x : ℕ) : ℤ := Int.bmod x (2 ^ 64)

/-- `x as u64` for an `i64`. -/
def asU64 (x : ℤ) : ℕ := (x % 2 ^ 64).toNat

/-- `a.saturating_sub(b)` on `i64`. -/
def saturatingSubI64 (a b : ℤ) : ℤ := max (-2 ^ 63) (min (2 ^ 63 - 1) (a - b))

theorem asI64_of_lt {x : ℕ} (h : x < 2 ^ 63) : asI64 x = x := by
  unfold asI64
  rw [Int.bmod_eq_emod_of_lt] <;> omega

theorem asI64_lt (x : ℕ) : asI64 x < 2 ^ 63 := by
  have h := Int.bmod_lt (x := x) (m := 2 ^ 64) (by norm_num)
  unfold asI64
  omega

theorem asU64_natCast {x : ℕ} (h : x < 2 ^ 64) : asU64 x = x := by
  unfold asU64
  omega

end WayRay
