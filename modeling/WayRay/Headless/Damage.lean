import WayRay.Frames.RoundTrip
import WayRay.Headless.Frames

/-!
# Clamping the damage

`send_frame_to_network` clamps each damage rectangle to the output, in `i32` arithmetic, encodes it,
and drops the regions that come out empty.  `deltaRegions` is this for any output and any stride,
with every subtraction of `i32` and every offset of `usize` checked.

No arithmetic overflows (`encodeChecked_eq`, `clamp_eq_some`), but a rectangle to the right of the
output keeps its rows, and an empty slice must start within the buffer, too.  `deltaRegions_iff`
says for which rectangles the regions can be built; they then lie inside the output and cover all
that the rectangles have in common with it.
-/

namespace WayRay

open Encoding Raster

/-! ### Checked arithmetic -/

/-- `a - b` of `i32`; `none` where it overflows. -/
def subI32 (a b : ℤ) : Option ℤ :=
  if -2 ^ 31 ≤ a - b ∧ a - b < 2 ^ 31 then some (a - b) else none

theorem eq_sub_of_subI32 {a b d : ℤ} (h : subI32 a b = some d) : d = a - b := by
  unfold subI32 at h
  split_ifs at h
  exact (Option.some.inj h).symm

/-- The result of a `usize` operation; `none` where it overflows. -/
def usize (n : ℕ) : Option ℕ := if n < 2 ^ 64 then some n else none

theorem usize_of_lt {n : ℕ} (h : n < 2 ^ 64) : usize n = some n := if_pos h

theorem usize_of_le {n : ℕ} (h : 2 ^ 64 ≤ n) : usize n = none := if_neg (Nat.not_lt.mpr h)

/-! ### Building the regions -/

/-- The rectangle is one of `i32` coordinates. -/
structure Rect.IsI32 (r : Rect) : Prop where
  x_bounds : -2 ^ 31 ≤ r.x ∧ r.x < 2 ^ 31
  y_bounds : -2 ^ 31 ≤ r.y ∧ r.y < 2 ^ 31
  w_bounds : -2 ^ 31 ≤ r.w ∧ r.w < 2 ^ 31
  h_bounds : -2 ^ 31 ≤ r.h ∧ r.h < 2 ^ 31

/-- Clamp a rectangle to the output: the origin to the positive, the size to what is left of the
output from there. -/
def Rect.clamp (width height : ℤ) (r : Rect) : Option PixelRect :=
  (subI32 width (max r.x 0)).bind fun right =>
    (subI32 height (max r.y 0)).map fun bottom =>
      ⟨UInt32.ofNat (max r.x 0).toNat, UInt32.ofNat (max r.y 0).toNat,
        UInt32.ofNat (max (min r.w right) 0).toNat, UInt32.ofNat (max (min r.h bottom) 0).toNat⟩

/-- `encode_region` with its arithmetic checked. -/
def encodeChecked (zstd : Zstd) (pixels : Bytes) (stride : ℕ) (r : PixelRect) :
    Option DamageRegion :=
  (usize (r.width.toNat * bpp)).bind fun regionStride =>
    (usize (regionStride * r.height.toNat)).bind fun _ =>
      ((List.range r.height.toNat).foldlM
        (fun data row =>
          -- the parts of a sum are no larger than the sum
          (usize ((r.y.toNat + row) * stride + r.x.toNat * bpp)).bind fun srcOffset =>
            (usize (srcOffset + regionStride)).bind fun _ =>
              (slice? pixels srcOffset regionStride).map fun segment => data ++ segment)
        []).map fun data => ⟨r.x, r.y, r.width, r.height, zstd.encodeAll data⟩

/-- The regions of a delta frame. -/
def deltaRegions (zstd : Zstd) (width height : ℤ) (stride : ℕ) (pixels : Bytes)
    (rects : List Rect) : Option (List DamageRegion) :=
  (rects.mapM fun r : Rect => (r.clamp width height).bind (encodeChecked zstd pixels stride)).map
    fun regions => regions.filter fun r => 0 < r.width ∧ 0 < r.height

/-! ### Nothing overflows -/

/-- Offsets that would overflow lie outside the buffer anyway. -/
theorem encodeChecked_eq (zstd : Zstd) {pixels : Bytes} (hlen : pixels.length < 2 ^ 63) (stride : ℕ)
    {r : PixelRect} (hsize : r.width.toNat * bpp * r.height.toNat < 2 ^ 63) :
    encodeChecked zstd pixels stride r = encodePixels zstd pixels stride r := by
  have hwidth : usize (r.width.toNat * bpp) = some (r.width.toNat * bpp) := by
    have := r.width.toNat_lt
    exact usize_of_lt (by unfold bpp; omega)
  unfold encodeChecked
  rw [hwidth, Option.bind_some, usize_of_lt (by omega), Option.bind_some]
  unfold encodePixels encodeRegion extract?
  congr 2
  funext data row
  by_cases hoffset : (r.y.toNat + row) * stride + r.x.toNat * bpp + r.width.toNat * bpp < 2 ^ 64
  · rw [usize_of_lt (by omega), Option.bind_some, usize_of_lt hoffset, Option.bind_some]
  · have hslice : slice? pixels ((r.y.toNat + row) * stride + r.x.toNat * bpp)
        (r.width.toNat * bpp) = none := if_neg (by omega)
    rw [hslice, Option.map_none, Option.bind_eq_none_iff]
    intro srcOffset hsrc
    by_cases hsrcOffset : (r.y.toNat + row) * stride + r.x.toNat * bpp < 2 ^ 64
    · rw [usize_of_lt hsrcOffset, Option.some.injEq] at hsrc
      rw [← hsrc, usize_of_le (by omega), Option.bind_none]
    · rw [usize_of_le (by omega)] at hsrc
      exact absurd hsrc.symm (Option.some_ne_none srcOffset)

/-- Clamping a rectangle of `i32` coordinates to an output never overflows. -/
theorem Rect.clamp_eq_some {r : Rect} (hr : r.IsI32) {width height : ℕ} (hw : width < 2 ^ 31)
    (hh : height < 2 ^ 31) :
    ∃ p, r.clamp width height = some p ∧ (p.x.toNat : ℤ) = max r.x 0 ∧
      (p.y.toNat : ℤ) = max r.y 0 ∧ (p.width.toNat : ℤ) = max (min r.w (width - max r.x 0)) 0 ∧
      (p.height.toNat : ℤ) = max (min r.h (height - max r.y 0)) 0 := by
  obtain ⟨hx, hy, hrw, hrh⟩ := hr
  have hright : subI32 width (max r.x 0) = some (width - max r.x 0) := if_pos (by omega)
  have hbottom : subI32 height (max r.y 0) = some (height - max r.y 0) := if_pos (by omega)
  have hcast : ∀ {z : ℤ}, 0 ≤ z → z < 2 ^ 31 → ((UInt32.ofNat z.toNat).toNat : ℤ) = z := by
    intro z hz hlt
    rw [UInt32.toNat_ofNat']
    omega
  refine ⟨_, by rw [Rect.clamp, hright, Option.bind_some, hbottom, Option.map_some],
    hcast ?_ ?_, hcast ?_ ?_, hcast ?_ ?_, hcast ?_ ?_⟩ <;> omega

/-! ### One rectangle -/

/-- The last line of the rectangle that is left after clamping begins within the buffer. -/
def Rect.BeginsWithin (height stride : ℕ) (r : Rect) : Prop :=
  0 < r.h → max r.y 0 < height →
    (min (max r.y 0 + r.h) height - 1) * stride + max r.x 0 * bpp ≤ (stride * height : ℕ)

/-- The region contains the pixel at column `col` of row `row`. -/
def regionContains (g : DamageRegion) (row col : ℕ) : Prop :=
  g.y.toNat ≤ row ∧ row < g.y.toNat + g.height.toNat ∧
    g.x.toNat ≤ col ∧ col < g.x.toNat + g.width.toNat

section OneRect

variable {zstd : Zstd} {pixels : Bytes} {width height stride : ℕ} {r : Rect}

/-- A clamped rectangle can be encoded if and only if it begins within the buffer. -/
theorem exists_encodeClamped_iff (hr : r.IsI32) (hw : width < 2 ^ 31) (hh : height < 2 ^ 31)
    (hstride : width * bpp ≤ stride) (hpixels : pixels.length = stride * height)
    (hsize : stride * height < 2 ^ 63) :
    (∃ g, (r.clamp width height).bind (encodeChecked zstd pixels stride) = some g) ↔
      r.BeginsWithin height stride := by
  obtain ⟨p, hclamp, hx, hy, hpw, hph⟩ := Rect.clamp_eq_some hr hw hh
  have hregion : p.width.toNat * bpp * p.height.toNat ≤ stride * height := by
    refine Nat.mul_le_mul (le_trans (Nat.mul_le_mul_right _ ?_) hstride) ?_ <;> omega
  have hchecked := encodeChecked_eq zstd (hpixels ▸ hsize) stride (hregion.trans_lt hsize)
  rw [hclamp, Option.bind_some, hchecked]
  have hextract : (∃ g, encodePixels zstd pixels stride p = some g) ↔
      ∀ row < p.height.toNat,
        (p.y.toNat + row) * stride + p.x.toNat * bpp + p.width.toNat * bpp ≤ stride * height := by
    rw [← hpixels, ← exists_extract_iff]
    simp [encodePixels, encodeRegion, Option.map_eq_some_iff]
  rw [hextract]
  by_cases hrows : 0 < r.h ∧ max r.y 0 < height
  · -- the lines that are left end where the rectangle does, or the output
    obtain ⟨last, hlast⟩ : ∃ last, p.height.toNat = last + 1 :=
      Nat.exists_eq_succ_of_ne_zero (by omega)
    have hend : min (max r.y 0 + r.h) (height : ℤ) - 1 = ((p.y.toNat + last : ℕ) : ℤ) := by
      push_cast
      omega
    have hbegins : r.BeginsWithin height stride ↔
        (p.y.toNat + last) * stride + p.x.toNat * bpp ≤ stride * height := by
      unfold Rect.BeginsWithin
      rw [forall_prop_of_true hrows.1, forall_prop_of_true hrows.2, hend, ← hx]
      exact_mod_cast Iff.rfl
    rw [hbegins, hlast, lines_within_iff]
    by_cases hempty : p.width.toNat = 0
    · rw [hempty, Nat.zero_mul, Nat.add_zero]
    · -- a line with pixels ends within the output
      have hline : p.x.toNat * bpp + p.width.toNat * bpp ≤ stride := by
        refine le_trans ?_ hstride
        rw [← Nat.add_mul]
        exact Nat.mul_le_mul_right _ (by omega)
      have hwhole : (p.y.toNat + last) * stride + (p.x.toNat * bpp + p.width.toNat * bpp) ≤
          stride * height :=
        row_fits hline (by omega)
      exact iff_of_true (by omega) (by omega)
  · -- no line is left
    have hzero : p.height.toNat = 0 := by omega
    refine iff_of_true (fun row hrow => by omega) ?_
    exact fun hpos hlt => absurd ⟨hpos, hlt⟩ hrows

/-- What a clamped rectangle is encoded into lies inside the output, unless it is empty, and
contains all the pixels of the output that the rectangle contains. -/
theorem region_of_encodeClamped (hr : r.IsI32) (hw : width < 2 ^ 31) (hh : height < 2 ^ 31)
    {g : DamageRegion}
    (hg : (r.clamp width height).bind (encodeChecked zstd pixels stride) = some g) :
    (0 < g.width ∧ 0 < g.height →
      g.x.toNat + g.width.toNat ≤ width ∧ g.y.toNat + g.height.toNat ≤ height) ∧
    ∀ row < height, ∀ col < width, r.Contains row col →
      (0 < g.width ∧ 0 < g.height) ∧ regionContains g row col := by
  obtain ⟨p, hclamp, hx, hy, hpw, hph⟩ := Rect.clamp_eq_some hr hw hh
  rw [hclamp, Option.bind_some, encodeChecked, Option.bind_eq_some_iff] at hg
  obtain ⟨_, -, hg⟩ := hg
  obtain ⟨_, -, hg⟩ := Option.bind_eq_some_iff.mp hg
  obtain ⟨_, -, rfl⟩ := Option.map_eq_some_iff.mp hg
  simp only [UInt32.lt_iff_toNat_lt, UInt32.toNat_zero, regionContains]
  refine ⟨fun hkept => by omega, fun row hrow col hcol hin => ?_⟩
  unfold Rect.Contains at hin
  omega

end OneRect

/-! ### All rectangles -/

private theorem mapM_eq_some {α β : Type*} {f : α → Option β} {l : List α} {l' : List β}
    (h : l.mapM f = some l') :
    (∀ a ∈ l, ∃ b ∈ l', f a = some b) ∧ ∀ b ∈ l', ∃ a ∈ l, f a = some b := by
  induction l generalizing l' with
  | nil =>
    obtain rfl : [] = l' := Option.some.inj h
    simp
  | cons a l ih =>
    rw [List.mapM_cons, Option.bind_eq_bind, Option.bind_eq_some_iff] at h
    obtain ⟨b, hb, h⟩ := h
    rw [Option.bind_eq_bind, Option.bind_eq_some_iff] at h
    obtain ⟨rest, hrest, h⟩ := h
    obtain rfl := Option.some.inj h
    obtain ⟨hto, hfrom⟩ := ih hrest
    simp only [List.mem_cons, forall_eq_or_imp, exists_eq_or_imp]
    exact ⟨⟨Or.inl hb, fun a' ha' => Or.inr (hto a' ha')⟩,
      Or.inl hb, fun b' hb' => Or.inr (hfrom b' hb')⟩

private theorem exists_mapM_eq_some {α β : Type*} {f : α → Option β} {l : List α}
    (h : ∀ a ∈ l, ∃ b, f a = some b) : ∃ l', l.mapM f = some l' := by
  induction l with
  | nil => exact ⟨[], rfl⟩
  | cons a l ih =>
    obtain ⟨b, hb⟩ := h a List.mem_cons_self
    obtain ⟨l', hl'⟩ := ih fun a' ha' => h a' (List.mem_cons_of_mem a ha')
    exact ⟨b :: l', by rw [List.mapM_cons, hb, hl']; rfl⟩

/-- **Damage, exactly.**  For every output and every list of rectangles, the regions of a delta
frame can be built, without an overflow or a slice out of the pixel buffer, all lie inside the
output and cover all that the rectangles have in common with it, if and only if of each rectangle
that has lines left after clamping the last one begins within the buffer. -/
theorem deltaRegions_iff (zstd : Zstd) (width height stride : ℕ) (hw : width < 2 ^ 31)
    (hh : height < 2 ^ 31) (hstride : width * bpp ≤ stride) (hsize : stride * height < 2 ^ 63)
    (pixels : Bytes) (hpixels : pixels.length = stride * height) (rects : List Rect)
    (hrects : ∀ r ∈ rects, r.IsI32) :
    (∃ regions, deltaRegions zstd width height stride pixels rects = some regions ∧
      (∀ g ∈ regions, g.x.toNat + g.width.toNat ≤ width ∧ g.y.toNat + g.height.toNat ≤ height) ∧
      ∀ row < height, ∀ col < width, (∃ r ∈ rects, r.Contains row col) →
        ∃ g ∈ regions, regionContains g row col) ↔
      ∀ r ∈ rects, r.BeginsWithin height stride := by
  constructor
  · rintro ⟨regions, hregions, -⟩ r hr
    obtain ⟨all, hall, -⟩ := Option.map_eq_some_iff.mp hregions
    obtain ⟨g, -, hg⟩ := (mapM_eq_some hall).1 r hr
    exact (exists_encodeClamped_iff (hrects r hr) hw hh hstride hpixels hsize).mp ⟨g, hg⟩
  · intro hbegins
    have hencodes : ∀ r ∈ rects, ∃ g,
        (r.clamp width height).bind (encodeChecked zstd pixels stride) = some g := fun r hr =>
      (exists_encodeClamped_iff (hrects r hr) hw hh hstride hpixels hsize).mpr (hbegins r hr)
    obtain ⟨all, hall⟩ := exists_mapM_eq_some hencodes
    obtain ⟨hto, hfrom⟩ := mapM_eq_some hall
    refine ⟨_, Option.map_eq_some_iff.mpr ⟨all, hall, rfl⟩, fun g hg => ?_, ?_⟩
    · rw [List.mem_filter, decide_eq_true_eq] at hg
      obtain ⟨r, hr, hencode⟩ := hfrom g hg.1
      exact (region_of_encodeClamped (hrects r hr) hw hh hencode).1 hg.2
    · rintro row hrow col hcol ⟨r, hr, hin⟩
      obtain ⟨g, hg, hencode⟩ := hto r hr
      obtain ⟨hkept, hcontains⟩ :=
        (region_of_encodeClamped (hrects r hr) hw hh hencode).2 row hrow col hcol hin
      exact ⟨g, List.mem_filter.mpr ⟨hg, decide_eq_true hkept⟩, hcontains⟩

/-- **The regions the compositor sends** are these: its arithmetic may be left unchecked. -/
theorem encodeDamage_eq_deltaRegions (zstd : Zstd) (o : OutputMode) {pixels : Bytes}
    (hpixels : pixels.length = o.frameSize) (hsize : o.frameSize < 2 ^ 63) {rects : List Rect}
    (hrects : ∀ r ∈ rects, r.IsI32) :
    encodeDamage zstd o pixels rects =
      deltaRegions zstd o.width o.height o.stride pixels rects := by
  have hone : ∀ r ∈ rects, encodeRect zstd o pixels r =
      (r.clamp o.width o.height).bind (encodeChecked zstd pixels o.stride) := by
    intro r hr
    obtain ⟨p, hclamp, -, -, hpw, hph⟩ := Rect.clamp_eq_some (hrects r hr) o.width_lt o.height_lt
    have hregion : p.width.toNat * bpp * p.height.toNat ≤ o.frameSize := by
      refine Nat.mul_le_mul (le_trans (Nat.mul_le_mul_right _ ?_) o.stride_le) ?_ <;> omega
    rw [hclamp, Option.bind_some,
      encodeChecked_eq zstd (hpixels ▸ hsize) o.stride (hregion.trans_lt hsize)]
    obtain ⟨right, hright, hclamp⟩ := Option.bind_eq_some_iff.mp hclamp
    obtain ⟨bottom, hbottom, rfl⟩ := Option.map_eq_some_iff.mp hclamp
    rw [eq_sub_of_subI32 hright, eq_sub_of_subI32 hbottom]
    rfl
  rw [encodeDamage, deltaRegions]
  congr 1
  induction rects with
  | nil => rfl
  | cons r rects ih =>
    rw [List.mapM_cons, List.mapM_cons, hone r List.mem_cons_self,
      ih (fun r' hr' => hrects r' (List.mem_cons_of_mem r hr'))
        fun r' hr' => hone r' (List.mem_cons_of_mem r hr')]

/-- A rectangle that sticks out of the output on the left is cut off. -/
theorem deltaRegions_cutOff :
    ∃ regions, deltaRegions rawBlock 2 1 8 [1, 2, 3, 4, 5, 6, 7, 8] [⟨-1, 0, 2, 1⟩] =
        some regions ∧
      ∀ g ∈ regions, g.x.toNat + g.width.toNat ≤ 2 ∧ g.y.toNat + g.height.toNat ≤ 1 := by
  have hi32 : ∀ r ∈ [(⟨-1, 0, 2, 1⟩ : Rect)], r.IsI32 := by
    intro r hr
    rw [List.mem_singleton.mp hr]
    exact ⟨by decide, by decide, by decide, by decide⟩
  obtain ⟨regions, hregions, hinside, -⟩ :=
    (deltaRegions_iff rawBlock 2 1 8 (by decide) (by decide) (by decide) (by decide)
      [1, 2, 3, 4, 5, 6, 7, 8] rfl _ hi32).mpr (by
        intro r hr
        rw [List.mem_singleton.mp hr]
        unfold Rect.BeginsWithin
        decide)
  exact ⟨regions, hregions, hinside⟩

/-- **A slice out of bounds.**  On an output of 800 by 600 pixels, a rectangle far to the right of
it that touches its last line is clamped to an empty line, whose slice begins behind the buffer. -/
theorem empty_line_out_of_bounds :
    ¬ ∃ regions, deltaRegions rawBlock 800 600 3200 (List.replicate (3200 * 600) 0)
      [⟨5000, 599, 10, 10⟩] = some regions := by
  rintro ⟨regions, hregions⟩
  obtain ⟨all, hall, -⟩ := Option.map_eq_some_iff.mp hregions
  obtain ⟨g, -, hg⟩ := (mapM_eq_some hall).1 _ List.mem_cons_self
  have hi32 : (⟨5000, 599, 10, 10⟩ : Rect).IsI32 :=
    ⟨by decide, by decide, by decide, by decide⟩
  have hbegins := (exists_encodeClamped_iff hi32 (by decide) (by decide) (by decide)
    List.length_replicate (by decide)).mp ⟨g, hg⟩ (by decide) (by decide)
  exact absurd hbegins (by decide)

end WayRay
