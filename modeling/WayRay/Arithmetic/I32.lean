import Mathlib.Algebra.Order.Ring.Int

/-!
# Checked 32-bit arithmetic

The operations on 32-bit signed integers, on integers within their range: each gives the exact
result, or `none` where that is out of range.  Division rounds towards zero and has no result for
divisor zero.  `ofUsize` is the cast from an unsigned word, which wraps around.
-/

namespace I32

/-- The integers within the range. -/
def InRange (n : ℤ) : Prop := -2 ^ 31 ≤ n ∧ n < 2 ^ 31

instance (n : ℤ) : Decidable (InRange n) := inferInstanceAs (Decidable (_ ∧ _))

/-- An exact result; `none` where it overflows. -/
def checked (n : ℤ) : Option ℤ := if InRange n then some n else none

def add (a b : ℤ) : Option ℤ := checked (a + b)

def sub (a b : ℤ) : Option ℤ := checked (a - b)

def mul (a b : ℤ) : Option ℤ := checked (a * b)

def div (a b : ℤ) : Option ℤ := if b = 0 then none else checked (a.tdiv b)

def ofUsize (n : ℕ) : ℤ := (n : ℤ).bmod (2 ^ 32)

variable {a b n : ℤ}

theorem checked_of_inRange (h : InRange n) : checked n = some n := if_pos h

theorem checked_eq_some_iff {m : ℤ} : checked n = some m ↔ InRange n ∧ n = m := by
  unfold checked
  split_ifs with h
  · simp [h]
  · simp [h]

theorem add_eq_some_iff {m : ℤ} : add a b = some m ↔ InRange (a + b) ∧ a + b = m :=
  checked_eq_some_iff

theorem sub_eq_some_iff {m : ℤ} : sub a b = some m ↔ InRange (a - b) ∧ a - b = m :=
  checked_eq_some_iff

theorem mul_eq_some_iff {m : ℤ} : mul a b = some m ↔ InRange (a * b) ∧ a * b = m :=
  checked_eq_some_iff

theorem add_of_inRange (h : InRange (a + b)) : add a b = some (a + b) := if_pos h

theorem sub_of_inRange (h : InRange (a - b)) : sub a b = some (a - b) := if_pos h

theorem mul_of_inRange (h : InRange (a * b)) : mul a b = some (a * b) := if_pos h

/-- Numbers that are not negative are divided as usual. -/
theorem div_of_nonneg (ha : 0 ≤ a) (hb : 0 < b) (h : InRange a) : div a b = some (a / b) := by
  have hquotient : a.tdiv b = a / b := Int.tdiv_eq_ediv_of_nonneg ha
  have hlow : 0 ≤ a / b := Int.ediv_nonneg ha hb.le
  have hhigh : a / b ≤ a := Int.ediv_le_self b ha
  rw [div, if_neg hb.ne', hquotient]
  exact checked_of_inRange ⟨by omega, hhigh.trans_lt h.2⟩

/-- Small numbers are cast to themselves. -/
theorem ofUsize_of_lt {n : ℕ} (h : n < 2 ^ 31) : ofUsize n = n :=
  Int.bmod_eq_of_le (by omega) (by omega)

end I32
