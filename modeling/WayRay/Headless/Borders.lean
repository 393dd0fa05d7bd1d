import WayRay.Arithmetic.I32
import WayRay.Headless.Frames
import WayRay.Wm.Types
import Mathlib.Data.Set.Lattice
import Mathlib.Order.CompletePartialOrder

/-!
# Window borders

`border_rects` surrounds the geometry of a window with four bars; the top and the bottom one span
the corners.  `FormsRing` says that rectangles tile exactly what a geometry gains when it grows by
the width of the border on each side.

The bars form the ring whenever they can be computed (`formsRing_bars`).  But the width of a border
is the one of the wire, and any positive one is accepted: `borderRects_ring_iff` says for which the
sums stay within `i32`.
-/

namespace WayRay

/-- The four bars around a geometry, in the order top, bottom, left, right; `none` if an operation
overflows. -/
def borderRects (geometry : Rect) (width : ℤ) : Option (List Rect) := do
  let w := max width 0
  let left ← I32.sub geometry.x w
  let top ← I32.sub geometry.y w
  let twice ← I32.mul 2 w
  let span ← I32.add geometry.w twice
  let bottom ← I32.add geometry.y geometry.h
  let right ← I32.add geometry.x geometry.w
  return [⟨left, top, span, w⟩, ⟨left, bottom, span, w⟩, ⟨left, geometry.y, w, geometry.h⟩,
    ⟨right, geometry.y, w, geometry.h⟩]

namespace Rect

/-- The pixels of a rectangle. -/
def pixels (r : Rect) : Set (ℤ × ℤ) :=
  {p | r.x ≤ p.1 ∧ p.1 < r.x + r.w ∧ r.y ≤ p.2 ∧ p.2 < r.y + r.h}

/-- The rectangle with a margin on each side. -/
def grow (r : Rect) (margin : ℤ) : Rect :=
  ⟨r.x - margin, r.y - margin, r.w + 2 * margin, r.h + 2 * margin⟩

end Rect

/-- Rectangles that do not overlap each other or the geometry, and together are what the geometry
gains when it grows. -/
structure FormsRing (geometry : Rect) (width : ℤ) (rects : List Rect) : Prop where
  apart : rects.Pairwise fun r r' => Disjoint r.pixels r'.pixels
  outside : ∀ r ∈ rects, Disjoint r.pixels geometry.pixels
  union : (⋃ r ∈ rects, r.pixels) = (geometry.grow width).pixels \ geometry.pixels

/-- The bars, by exact arithmetic. -/
def bars (g : Rect) (w : ℤ) : List Rect :=
  [⟨g.x - w, g.y - w, g.w + 2 * w, w⟩, ⟨g.x - w, g.y + g.h, g.w + 2 * w, w⟩,
    ⟨g.x - w, g.y, w, g.h⟩, ⟨g.x + g.w, g.y, w, g.h⟩]

variable {g : Rect} {w : ℤ}

theorem mem_pixels {r : Rect} {p : ℤ × ℤ} :
    p ∈ r.pixels ↔ r.x ≤ p.1 ∧ p.1 < r.x + r.w ∧ r.y ≤ p.2 ∧ p.2 < r.y + r.h := Iff.rfl

theorem disjoint_pixels_iff {r r' : Rect} :
    Disjoint r.pixels r'.pixels ↔ ∀ p, p ∈ r.pixels → p ∉ r'.pixels :=
  Set.disjoint_left

/-- **The bars form the ring** around a geometry. -/
theorem formsRing_bars (hgw : 0 ≤ g.w) (hgh : 0 ≤ g.h) (hw : 0 ≤ w) : FormsRing g w (bars g w) where
  apart := by
    simp only [bars, List.pairwise_cons, List.mem_cons, List.not_mem_nil, or_false,
      forall_eq_or_imp, forall_eq, disjoint_pixels_iff, mem_pixels]
    refine ⟨⟨?_, ?_, ?_⟩, ⟨?_, ?_⟩, ?_, by simp⟩ <;> intro p hp hp' <;> omega
  outside r hr := by
    simp only [bars, List.mem_cons, List.not_mem_nil, or_false] at hr
    rcases hr with rfl | rfl | rfl | rfl <;>
      simp only [disjoint_pixels_iff, mem_pixels] <;> intro p hp hp' <;> omega
  union := by
    ext p
    simp only [bars, Set.mem_iUnion, exists_prop, List.mem_cons, List.not_mem_nil, or_false,
      exists_eq_or_imp, exists_eq_left, Set.mem_sdiff, mem_pixels, Rect.grow]
    omega

/-- No sum or product that the bars are computed from leaves `i32`. -/
structure BarsFit (g : Rect) (w : ℤ) : Prop where
  left : I32.InRange (g.x - w)
  top : I32.InRange (g.y - w)
  twice : I32.InRange (2 * w)
  span : I32.InRange (g.w + 2 * w)
  bottom : I32.InRange (g.y + g.h)
  right : I32.InRange (g.x + g.w)

theorem borderRects_of_barsFit (hw : 0 ≤ w) (h : BarsFit g w) :
    borderRects g w = some (bars g w) := by
  have hleft : I32.sub g.x w = some (g.x - w) := I32.sub_of_inRange h.left
  have htop : I32.sub g.y w = some (g.y - w) := I32.sub_of_inRange h.top
  have htwice : I32.mul 2 w = some (2 * w) := I32.mul_of_inRange h.twice
  have hspan : I32.add g.w (2 * w) = some (g.w + 2 * w) := I32.add_of_inRange h.span
  have hbottom : I32.add g.y g.h = some (g.y + g.h) := I32.add_of_inRange h.bottom
  have hright : I32.add g.x g.w = some (g.x + g.w) := I32.add_of_inRange h.right
  rw [borderRects, max_eq_left hw]
  simp only [hleft, htop, htwice, hspan, hbottom, hright, Option.bind_eq_bind, Option.bind_some]
  rfl

theorem barsFit_of_borderRects {rects : List Rect} (hw : 0 ≤ w)
    (h : borderRects g w = some rects) : BarsFit g w := by
  rw [borderRects, max_eq_left hw] at h
  simp only [Option.bind_eq_bind, Option.bind_eq_some_iff] at h
  obtain ⟨_, hleft, _, htop, twice, htwice, _, hspan, _, hbottom, _, hright, -⟩ := h
  obtain ⟨hproduct, rfl⟩ := I32.mul_eq_some_iff.mp htwice
  exact ⟨(I32.sub_eq_some_iff.mp hleft).1, (I32.sub_eq_some_iff.mp htop).1, hproduct,
    (I32.add_eq_some_iff.mp hspan).1, (I32.add_eq_some_iff.mp hbottom).1,
    (I32.add_eq_some_iff.mp hright).1⟩

/-- **Border rectangles**: for a geometry of a size that is not negative and with coordinates
within `2 ^ 16`, and a border that a request sets, the four bars are computed without overflow and
form the ring around the geometry if and only if the width of the window with both borders, and its
right and bottom edges, are within `i32`. -/
theorem borderRects_ring_iff {geometry : Rect}
    (hx : -2 ^ 16 ≤ geometry.x ∧ geometry.x ≤ 2 ^ 16)
    (hy : -2 ^ 16 ≤ geometry.y ∧ geometry.y ≤ 2 ^ 16) (hw : 0 ≤ geometry.w) (hh : 0 ≤ geometry.h)
    {red green blue alpha : UInt32} {width : ℤ} {spec : BorderSpec}
    (hspec : BorderSpec.fromProtocol red green blue alpha width = some spec) :
    (∃ rects, borderRects geometry spec.width = some rects ∧
        FormsRing geometry spec.width rects) ↔
      geometry.w + 2 * width < 2 ^ 31 ∧ geometry.x + geometry.w < 2 ^ 31 ∧
        geometry.y + geometry.h < 2 ^ 31 := by
  have hwidth : spec.width = width := by
    unfold BorderSpec.fromProtocol at hspec
    split_ifs at hspec
    rw [← Option.some.inj hspec]
  have hpos := spec.width_pos
  rw [hwidth] at hpos ⊢
  constructor
  · rintro ⟨rects, hrects, -⟩
    obtain ⟨-, -, -, hspan, hbottom, hright⟩ := barsFit_of_borderRects hpos.le hrects
    exact ⟨hspan.2, hright.2, hbottom.2⟩
  · rintro ⟨hspan, hright, hbottom⟩
    have hfit : BarsFit geometry width := by
      constructor <;> constructor <;> omega
    exact ⟨_, borderRects_of_barsFit hpos.le hfit, formsRing_bars hw hh hpos.le⟩

/-- A border of three pixels around a window. -/
theorem borderRects_ring_iff_three :
    (∃ rects, borderRects ⟨10, 20, 100, 50⟩ 3 = some rects ∧
        FormsRing ⟨10, 20, 100, 50⟩ 3 rects) ↔
      (100 : ℤ) + 2 * 3 < 2 ^ 31 ∧ (10 : ℤ) + 100 < 2 ^ 31 ∧ (20 : ℤ) + 50 < 2 ^ 31 :=
  have hspec : BorderSpec.fromProtocol 255 0 0 255 3 = some ⟨255, 0, 0, 255, 3, by decide⟩ := rfl
  @borderRects_ring_iff ⟨10, 20, 100, 50⟩ (by decide) (by decide) (by decide) (by decide)
    _ _ _ _ _ _ hspec

/-- A request can ask for a border that is too wide. -/
theorem not_borderRects_ring_wide :
    ∃ spec, BorderSpec.fromProtocol 255 0 0 255 (2 ^ 30) = some spec ∧
      ¬∃ rects, borderRects ⟨0, 0, 100, 50⟩ spec.width = some rects ∧
        FormsRing ⟨0, 0, 100, 50⟩ spec.width rects := by
  refine ⟨⟨255, 0, 0, 255, 2 ^ 30, by decide⟩, rfl, ?_⟩
  rintro ⟨rects, hrects, -⟩
  have htwice := (barsFit_of_borderRects (by decide) hrects).twice
  exact absurd htwice (by decide)

end WayRay
