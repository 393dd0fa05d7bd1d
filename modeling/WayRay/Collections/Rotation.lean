import Mathlib.Data.List.Basic
import Mathlib.Data.List.Induction
import Mathlib.Logic.Function.Iterate

/-!
# Cycling a stack

`cycle` moves the last element of a list to the front.  As many cycles as a list has elements give
the list back (`iterate_cycle_length`), and on the way each element is the last one once, from the
end of the list to its beginning (`tops_length`).
-/

namespace Rotation

universe u

variable {α : Type u}

/-- Move the last element to the front. -/
def cycle (l : List α) : List α := l.getLast?.toList ++ l.dropLast

/-- The last elements before each of several cycles. -/
def tops : ℕ → List α → List (Option α)
  | 0, _ => []
  | k + 1, l => l.getLast? :: tops k (cycle l)

theorem cycle_concat (l : List α) (a : α) : cycle (l ++ [a]) = a :: l := by
  rw [cycle, List.getLast?_concat, List.dropLast_concat]
  rfl

theorem cycle_perm (l : List α) : (cycle l).Perm l := by
  rcases List.eq_nil_or_concat' l with rfl | ⟨lower, top, rfl⟩
  · exact List.Perm.refl _
  · rw [cycle_concat]
    exact (List.perm_append_singleton top lower).symm

/-- A list of fewer than two elements stays as it is. -/
theorem cycle_of_length_lt_two {l : List α} (h : l.length < 2) : cycle l = l :=
  match l, h with
  | [], _ => rfl
  | [_], _ => rfl

/-- Cycling as often as there are elements on top brings them to the bottom. -/
theorem iterate_cycle_append (lower upper : List α) :
    cycle^[upper.length] (lower ++ upper) = upper ++ lower := by
  induction upper using List.reverseRecOn generalizing lower with
  | nil => exact List.append_nil lower
  | append_singleton upper top ih =>
    rw [List.length_append, List.length_singleton, Function.iterate_succ_apply,
      ← List.append_assoc, cycle_concat, ← List.cons_append, ih, List.append_assoc]
    rfl

theorem iterate_cycle_length (l : List α) : cycle^[l.length] l = l := by
  have h := iterate_cycle_append [] l
  rwa [List.nil_append, List.append_nil] at h

theorem tops_append (lower upper : List α) :
    tops upper.length (lower ++ upper) = upper.reverse.map some := by
  induction upper using List.reverseRecOn generalizing lower with
  | nil => rfl
  | append_singleton upper top ih =>
    have hrest := ih (top :: lower)
    rw [List.length_append, List.length_singleton, tops, ← List.append_assoc,
      List.getLast?_concat, cycle_concat, ← List.cons_append, hrest, List.reverse_append]
    rfl

/-- Each element comes on top once, the last one first. -/
theorem tops_length (l : List α) : tops l.length l = l.reverse.map some := tops_append [] l

end Rotation
