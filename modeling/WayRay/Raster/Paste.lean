import Mathlib.Data.Set.Basic
import WayRay.Raster.Blit

/-!
# Pasting one raster onto another

`Pasted inside src stride dst stride' result` says that `result` is the raster `dst` with the cells
of `src` at the positions `inside`, a position being a row and a column.  It says nothing of how the
cells got there, which is why

* one paste after another is a paste at the positions of both (`Pasted.trans`),
* pasting again changes nothing (`Pasted.again`), and
* the positions determine the result (`Pasted.unique`), in whatever order they were pasted.

Everything is over an arbitrary type of cells and two strides.
-/

namespace Raster

universe u

variable {α : Type u}

/-- `result` holds the cells of `src` at the positions `inside` and those of `dst` elsewhere. -/
structure Pasted (inside : Set (ℕ × ℕ)) (src : List α) (stride : ℕ) (dst : List α) (stride' : ℕ)
    (result : List α) : Prop where
  length_eq : result.length = dst.length
  within : ∀ row col, col < stride' → (row, col) ∈ inside →
    result[row * stride' + col]? = src[row * stride + col]?
  without : ∀ row col, col < stride' → (row, col) ∉ inside →
    result[row * stride' + col]? = dst[row * stride' + col]?

variable {s t : Set (ℕ × ℕ)} {src dst mid result : List α} {stride stride' : ℕ}

theorem Pasted.empty : Pasted ∅ src stride dst stride' dst where
  length_eq := rfl
  within _ _ _ h := absurd h (Set.notMem_empty _)
  without _ _ _ _ := rfl

/-- One paste after another. -/
theorem Pasted.trans (h : Pasted s src stride dst stride' mid)
    (h' : Pasted t src stride mid stride' result) :
    Pasted (s ∪ t) src stride dst stride' result where
  length_eq := h'.length_eq.trans h.length_eq
  within row col hcol hin := by
    -- where both lie, the second puts the same cell again
    by_cases ht : (row, col) ∈ t
    · exact h'.within row col hcol ht
    · rw [h'.without row col hcol ht]
      exact h.within row col hcol (hin.resolve_right ht)
  without row col hcol hout := by
    rw [Set.mem_union, not_or] at hout
    rw [h'.without row col hcol hout.2, h.without row col hcol hout.1]

/-- Of the cells pasted already, none changes if it is pasted again. -/
theorem Pasted.again (h : Pasted s src stride dst stride' result) (hts : t ⊆ s) :
    Pasted t src stride result stride' result where
  length_eq := rfl
  within row col hcol hin := h.within row col hcol (hts hin)
  without _ _ _ _ := rfl

/-- Two rasters of whole rows with the same cells are the same. -/
theorem ext_of_cells {rows : ℕ} {xs ys : List α} (hxs : xs.length = stride * rows)
    (hys : ys.length = stride * rows)
    (h : ∀ row col, col < stride → xs[row * stride + col]? = ys[row * stride + col]?) :
    xs = ys := by
  rcases Nat.eq_zero_or_pos stride with rfl | hpos
  · rw [Nat.zero_mul] at hxs hys
    rw [List.eq_nil_of_length_eq_zero hxs, List.eq_nil_of_length_eq_zero hys]
  · apply List.ext_getElem?
    intro j
    have hcell := h (j / stride) (j % stride) (Nat.mod_lt j hpos)
    rwa [Nat.div_add_mod'] at hcell

/-- The positions determine what is pasted. -/
theorem Pasted.unique {rows : ℕ} {result' : List α} (hdst : dst.length = stride' * rows)
    (h : Pasted s src stride dst stride' result) (h' : Pasted s src stride dst stride' result') :
    result = result' := by
  refine ext_of_cells (h.length_eq.trans hdst) (h'.length_eq.trans hdst) fun row col hcol => ?_
  by_cases hin : (row, col) ∈ s
  · rw [h.within row col hcol hin, h'.within row col hcol hin]
  · rw [h.without row col hcol hin, h'.without row col hcol hin]

end Raster
