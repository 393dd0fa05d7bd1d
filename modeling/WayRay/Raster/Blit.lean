import Mathlib.Data.List.Basic
import Mathlib.Order.Nat
import Mathlib.Tactic.SplitIfs

/-!
# Rectangles of a row-major buffer

A raster is a flat list of cells in which row `row` begins at cell `row * stride`; a row may be
longer than what is shown of it.  `extract?` reads a rectangle out of a raster, line by line, and
`blit?` writes one into a raster.  Both fail where an access is out of bounds, as a slice does.

* `exists_blit` — what a raster holds after a blit: the data within the rectangle, and outside it
  what was there.
* `blit_extract` — a rectangle can be moved between two rasters of different strides.

Everything is over an arbitrary type of cells.
-/

namespace Raster

universe u

variable {α : Type u}

/-! ### Slices -/

/-- The slice of `len` cells from `start` on. -/
def slice? (xs : List α) (start len : ℕ) : Option (List α) :=
  if start + len ≤ xs.length then some ((xs.drop start).take len) else none

/-- Write a line over the cells from `start` on. -/
def overwrite? (xs : List α) (start : ℕ) (segment : List α) : Option (List α) :=
  if start + segment.length ≤ xs.length then
    some (xs.take start ++ segment ++ xs.drop (start + segment.length))
  else none

variable {xs ys segment : List α} {start len : ℕ}

theorem slice?_eq_some (h : start + len ≤ xs.length) :
    slice? xs start len = some ((xs.drop start).take len) :=
  if_pos h

theorem fits_of_slice (h : slice? xs start len = some segment) : start + len ≤ xs.length := by
  unfold slice? at h
  split_ifs at h with hfit
  exact hfit

theorem length_slice (h : slice? xs start len = some segment) : segment.length = len := by
  unfold slice? at h
  split_ifs at h with hfit
  rw [← Option.some.inj h, List.length_take, List.length_drop]
  omega

theorem getElem?_slice (h : slice? xs start len = some segment) {i : ℕ} (hi : i < len) :
    segment[i]? = xs[start + i]? := by
  unfold slice? at h
  split_ifs at h with hfit
  rw [← Option.some.inj h, List.getElem?_take_of_lt hi, List.getElem?_drop]

/-- Two slices of one length are equal if they agree cell by cell. -/
theorem slice?_congr {start' : ℕ} (hxs : start + len ≤ xs.length) (hys : start' + len ≤ ys.length)
    (h : ∀ i < len, xs[start + i]? = ys[start' + i]?) :
    slice? xs start len = slice? ys start' len := by
  have hx := slice?_eq_some hxs
  have hy := slice?_eq_some hys
  rw [hx, hy]
  congr 1
  apply List.ext_getElem?
  intro i
  by_cases hi : i < len
  · rw [getElem?_slice hx hi, getElem?_slice hy hi, h i hi]
  · have hlen : len ≤ i := not_lt.1 hi
    rw [List.getElem?_eq_none (by rw [length_slice hx]; exact hlen),
      List.getElem?_eq_none (by rw [length_slice hy]; exact hlen)]

theorem overwrite?_eq_some (h : start + segment.length ≤ xs.length) :
    overwrite? xs start segment =
      some (xs.take start ++ segment ++ xs.drop (start + segment.length)) :=
  if_pos h

theorem fits_of_overwrite (h : overwrite? xs start segment = some ys) :
    start + segment.length ≤ xs.length := by
  unfold overwrite? at h
  split_ifs at h with hfit
  exact hfit

theorem length_overwrite (h : overwrite? xs start segment = some ys) : ys.length = xs.length := by
  unfold overwrite? at h
  split_ifs at h with hfit
  rw [← Option.some.inj h]
  simp only [List.length_append, List.length_take, List.length_drop]
  omega

theorem getElem?_overwrite (h : overwrite? xs start segment = some ys) (j : ℕ) :
    ys[j]? = if start ≤ j ∧ j < start + segment.length then segment[j - start]? else xs[j]? := by
  unfold overwrite? at h
  split_ifs at h with hfit
  have htake : (xs.take start).length = start := by
    rw [List.length_take]
    omega
  rw [← Option.some.inj h, List.append_assoc]
  rcases lt_or_ge j start with hbefore | hfrom
  · rw [if_neg (by omega), List.getElem?_append_left (by omega), List.getElem?_take_of_lt hbefore]
  · rw [List.getElem?_append_right (by omega), htake]
    rcases lt_or_ge j (start + segment.length) with hwithin | hafter
    · rw [if_pos ⟨hfrom, hwithin⟩, List.getElem?_append_left (by omega)]
    · rw [if_neg (by omega), List.getElem?_append_right (by omega), List.getElem?_drop]
      congr 1
      omega

/-! ### Rectangles -/

/-- Read the rectangle of `h` lines of `w` cells whose first cell is cell `x` of row `y`. -/
def extract? (xs : List α) (stride x y w h : ℕ) : Option (List α) :=
  (List.range h).foldlM
    (fun data row => (slice? xs ((y + row) * stride + x) w).map fun segment => data ++ segment) []

/-- Write `data`, `h` lines of `w` cells, into the rectangle whose first cell is cell `x` of row
`y`. -/
def blit? (xs : List α) (stride x y w h : ℕ) (data : List α) : Option (List α) :=
  (List.range h).foldlM
    (fun xs row => (slice? data (row * w) w).bind fun segment =>
      overwrite? xs ((y + row) * stride + x) segment) xs

variable {stride x y w h : ℕ} {data : List α}

/-- The last line comes after the lines before it. -/
theorem extract?_succ :
    extract? xs stride x y w (h + 1) =
      (extract? xs stride x y w h).bind fun data =>
        (slice? xs ((y + h) * stride + x) w).map fun segment => data ++ segment := by
  unfold extract?
  rw [List.range_succ, List.foldlM_append]
  simp

theorem blit?_succ :
    blit? xs stride x y w (h + 1) data =
      (blit? xs stride x y w h data).bind fun ys =>
        (slice? data (h * w) w).bind fun segment =>
          overwrite? ys ((y + h) * stride + x) segment := by
  unfold blit?
  rw [List.range_succ, List.foldlM_append]
  simp

/-- A cell of a raster is in a line of the rectangle if its row and its column are. -/
theorem mem_line_iff {row₀ row col : ℕ} (hcol : col < stride) (hw : x + w ≤ stride) :
    row₀ * stride + x ≤ row * stride + col ∧ row * stride + col < row₀ * stride + x + w ↔
      row = row₀ ∧ x ≤ col ∧ col < x + w := by
  rcases lt_trichotomy row row₀ with hlt | rfl | hgt
  · have hrows : (row + 1) * stride ≤ row₀ * stride := Nat.mul_le_mul_right _ hlt
    rw [Nat.add_mul, Nat.one_mul] at hrows
    omega
  · omega
  · have hrows : (row₀ + 1) * stride ≤ row * stride := Nat.mul_le_mul_right _ hgt
    rw [Nat.add_mul, Nat.one_mul] at hrows
    omega

/-- The lines of a rectangle are within a raster if the last one is. -/
theorem lines_within_iff {last size : ℕ} :
    (∀ row < last + 1, (y + row) * stride + x + w ≤ size) ↔
      (y + last) * stride + x + w ≤ size := by
  refine ⟨fun h => h last (Nat.lt_succ_self last), fun h row hrow => ?_⟩
  have hrows : (y + row) * stride ≤ (y + last) * stride := Nat.mul_le_mul_right _ (by omega)
  omega

/-- A rectangle within the raster can be read, and its lines are slices of the raster. -/
theorem exists_extract (hfit : ∀ row < h, (y + row) * stride + x + w ≤ xs.length) :
    ∃ data, extract? xs stride x y w h = some data ∧ data.length = h * w ∧
      ∀ row < h, ∀ i < w, data[row * w + i]? = xs[(y + row) * stride + x + i]? := by
  induction h with
  | zero => exact ⟨[], rfl, by simp, fun row hrow => absurd hrow (Nat.not_lt_zero _)⟩
  | succ h ih =>
    obtain ⟨data, hdata, hlen, hcells⟩ := ih fun row hrow => hfit row (by omega)
    have hline := slice?_eq_some (hfit h (Nat.lt_succ_self h))
    refine ⟨data ++ (xs.drop ((y + h) * stride + x)).take w, ?_, ?_, ?_⟩
    · rw [extract?_succ, hdata, Option.bind_some, hline, Option.map_some]
    · rw [List.length_append, hlen, length_slice hline, Nat.add_mul, Nat.one_mul]
    · intro row hrow i hi
      rcases Nat.lt_succ_iff_lt_or_eq.1 hrow with hlt | rfl
      · have hrows : (row + 1) * w ≤ h * w := Nat.mul_le_mul_right _ hlt
        rw [Nat.add_mul, Nat.one_mul] at hrows
        rw [List.getElem?_append_left (by omega), hcells row hlt i hi]
      · rw [List.getElem?_append_right (by omega), hlen, Nat.add_sub_cancel_left,
          getElem?_slice hline hi]

/-- A rectangle can be read if and only if each of its lines lies within the raster. -/
theorem exists_extract_iff :
    (∃ data, extract? xs stride x y w h = some data) ↔
      ∀ row < h, (y + row) * stride + x + w ≤ xs.length := by
  refine ⟨?_, fun hfit => ?_⟩
  · rintro ⟨data, hdata⟩
    induction h generalizing data with
    | zero => exact fun row hrow => absurd hrow (Nat.not_lt_zero _)
    | succ h ih =>
      rw [extract?_succ, Option.bind_eq_some_iff] at hdata
      obtain ⟨before, hbefore, hlast⟩ := hdata
      obtain ⟨segment, hsegment, -⟩ := Option.map_eq_some_iff.mp hlast
      intro row hrow
      rcases Nat.lt_succ_iff_lt_or_eq.mp hrow with hlt | rfl
      · exact ih before hbefore row hlt
      · exact fits_of_slice hsegment
  · obtain ⟨data, hdata, -⟩ := exists_extract hfit
    exact ⟨data, hdata⟩

theorem length_blit (hys : blit? xs stride x y w h data = some ys) : ys.length = xs.length := by
  induction h generalizing ys with
  | zero => rw [Option.some.inj hys]
  | succ h ih =>
    rw [blit?_succ, Option.bind_eq_some_iff] at hys
    obtain ⟨before, hbefore, hlast⟩ := hys
    obtain ⟨segment, -, hover⟩ := Option.bind_eq_some_iff.mp hlast
    rw [length_overwrite hover, ih hbefore]

/-- A blit leaves the cells outside its lines as they are, also if a line is longer than its row. -/
theorem getElem?_blit_of_notMem (hys : blit? xs stride x y w h data = some ys) {j : ℕ}
    (hj : ∀ row < h, ¬ ((y + row) * stride + x ≤ j ∧ j < (y + row) * stride + x + w)) :
    ys[j]? = xs[j]? := by
  induction h generalizing ys with
  | zero => rw [Option.some.inj hys]
  | succ h ih =>
    rw [blit?_succ, Option.bind_eq_some_iff] at hys
    obtain ⟨before, hbefore, hlast⟩ := hys
    obtain ⟨segment, hsegment, hover⟩ := Option.bind_eq_some_iff.mp hlast
    rw [getElem?_overwrite hover, length_slice hsegment, if_neg (hj h (Nat.lt_succ_self h))]
    exact ih hbefore fun row hrow => hj row (Nat.lt_succ_of_lt hrow)

/-- Data can be written into a rectangle if and only if they have as many lines and each line of the
rectangle lies within the raster. -/
theorem exists_blit_iff :
    (∃ ys, blit? xs stride x y w h data = some ys) ↔
      ∀ row < h, row * w + w ≤ data.length ∧ (y + row) * stride + x + w ≤ xs.length := by
  induction h with
  | zero => exact iff_of_true ⟨xs, rfl⟩ fun row hrow => absurd hrow (Nat.not_lt_zero _)
  | succ h ih =>
    constructor
    · rintro ⟨ys, hys⟩
      rw [blit?_succ, Option.bind_eq_some_iff] at hys
      obtain ⟨before, hbefore, hlast⟩ := hys
      obtain ⟨segment, hsegment, hover⟩ := Option.bind_eq_some_iff.mp hlast
      have hfit := fits_of_overwrite hover
      rw [length_slice hsegment, length_blit hbefore] at hfit
      intro row hrow
      rcases Nat.lt_succ_iff_lt_or_eq.mp hrow with hlt | rfl
      · exact ih.mp ⟨before, hbefore⟩ row hlt
      · exact ⟨fits_of_slice hsegment, hfit⟩
    · intro hfit
      obtain ⟨before, hbefore⟩ := ih.mpr fun row hrow => hfit row (by omega)
      obtain ⟨hdata, hline⟩ := hfit h (Nat.lt_succ_self h)
      have hsegment := slice?_eq_some hdata
      have hroom : (y + h) * stride + x + ((data.drop (h * w)).take w).length ≤ before.length := by
        rw [length_slice hsegment, length_blit hbefore]
        exact hline
      exact ⟨_, by
        rw [blit?_succ, hbefore, Option.bind_some, hsegment, Option.bind_some,
          overwrite?_eq_some hroom]⟩

/-- **After a blit**, the raster holds the data within the rectangle, and elsewhere what it held. -/
theorem exists_blit (hw : x + w ≤ stride) (hdata : h * w ≤ data.length)
    (hfit : ∀ row < h, (y + row) * stride + x + w ≤ xs.length) :
    ∃ ys, blit? xs stride x y w h data = some ys ∧ ys.length = xs.length ∧
      ∀ row col, col < stride → ys[row * stride + col]? =
        if y ≤ row ∧ row < y + h ∧ x ≤ col ∧ col < x + w then data[(row - y) * w + (col - x)]?
        else xs[row * stride + col]? := by
  induction h with
  | zero =>
    refine ⟨xs, rfl, rfl, fun row col _ => ?_⟩
    rw [if_neg (by omega)]
  | succ h ih =>
    rw [Nat.add_mul, Nat.one_mul] at hdata
    obtain ⟨ys, hys, hlen, hcells⟩ := ih (by omega) fun row hrow => hfit row (by omega)
    have hline : slice? data (h * w) w = some ((data.drop (h * w)).take w) := slice?_eq_some hdata
    have hwlen := length_slice hline
    have hroom : (y + h) * stride + x + ((data.drop (h * w)).take w).length ≤ ys.length := by
      rw [hwlen, hlen]
      exact hfit h (Nat.lt_succ_self h)
    have hover := overwrite?_eq_some hroom
    refine ⟨_, ?_, (length_overwrite hover).trans hlen, ?_⟩
    · rw [blit?_succ, hys, Option.bind_some, hline, Option.bind_some, hover]
    · intro row col hcol
      rw [getElem?_overwrite hover, hwlen, hcells row col hcol]
      by_cases hin : row = y + h ∧ x ≤ col ∧ col < x + w
      · -- a cell of the line written last
        obtain ⟨rfl, hx, hxw⟩ := hin
        rw [if_pos ((mem_line_iff hcol hw).2 ⟨rfl, hx, hxw⟩), if_pos (by omega)]
        have hi : (y + h) * stride + col - ((y + h) * stride + x) = col - x := by omega
        rw [hi, getElem?_slice hline (by omega), Nat.add_sub_cancel_left]
      · rw [if_neg (fun hmem => hin ((mem_line_iff hcol hw).1 hmem))]
        by_cases hold : y ≤ row ∧ row < y + h ∧ x ≤ col ∧ col < x + w
        · rw [if_pos hold, if_pos (by omega)]
        · rw [if_neg hold, if_neg (by omega)]

/-- **A rectangle moved** from one raster to another: within it the target holds what the source
holds, elsewhere what it held. -/
theorem blit_extract {src : List α} (hsrc : ∀ row < h, (y + row) * stride + x + w ≤ src.length) :
    ∃ data, extract? src stride x y w h = some data ∧
      ∀ (dst : List α) (stride' : ℕ), x + w ≤ stride' →
        (∀ row < h, (y + row) * stride' + x + w ≤ dst.length) →
        ∃ dst', blit? dst stride' x y w h data = some dst' ∧ dst'.length = dst.length ∧
          ∀ row col, col < stride' → dst'[row * stride' + col]? =
            if y ≤ row ∧ row < y + h ∧ x ≤ col ∧ col < x + w then src[row * stride + col]?
            else dst[row * stride' + col]? := by
  obtain ⟨data, hextract, hlen, hdata⟩ := exists_extract hsrc
  refine ⟨data, hextract, fun dst stride' hw hdst => ?_⟩
  obtain ⟨dst', hblit, hlen', hcells⟩ := exists_blit hw hlen.ge hdst
  refine ⟨dst', hblit, hlen', fun row col hcol => ?_⟩
  rw [hcells row col hcol]
  split_ifs with hin
  · obtain ⟨hy, hyh, hx, hxw⟩ := hin
    rw [hdata (row - y) (by omega) (col - x) (by omega)]
    congr 1
    rw [Nat.add_sub_cancel' hy]
    omega
  · rfl

end Raster
