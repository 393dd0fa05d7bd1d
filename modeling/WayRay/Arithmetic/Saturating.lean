import WayRay.Arithmetic.I32

/-!
# Saturating 32-bit arithmetic

Operations on 32-bit signed integers whose results are cut to the range instead of overflowing.
-/

namespace I32

/-- The number of the range that is nearest. -/
def saturate (n : ℤ) : ℤ := max (-2 ^ 31) (min n (2 ^ 31 - 1))

def satAdd (a b : ℤ) : ℤ := saturate (a + b)

def satSub (a b : ℤ) : ℤ := saturate (a - b)

variable {a b n : ℤ}

theorem inRange_satAdd (a b : ℤ) : InRange (satAdd a b) := by
  unfold satAdd saturate
  constructor <;> omega

theorem saturate_of_inRange (h : InRange n) : saturate n = n := by
  unfold saturate
  obtain ⟨hlow, hhigh⟩ := h
  omega

theorem satSub_of_inRange (h : InRange (a - b)) : satSub a b = a - b := saturate_of_inRange h

/-- To add a number that is not negative can only be cut from above. -/
theorem satAdd_of_nonneg (ha : InRange a) (hb : 0 ≤ b) :
    satAdd a b = min (a + b) (2 ^ 31 - 1) := by
  unfold satAdd saturate
  have := ha.1
  omega

end I32
