import WayRay.Arithmetic.Saturating
import WayRay.Headless.Borders

/-!
# Rectangles

`utils/geometry.rs`: the rectangle operations of the renderer.  They saturate, so that the pixels of
a rectangle may reach beyond the edge it is computed with; this makes no difference inside a
rectangle that is `Bounded`, such as the output.

`intersection` and `subtractRects` are exact on the pixels (`mem_intersection`,
`subtractRects_spec`), subtracting keeps rectangles apart, and `merge` is the smallest rectangle
that contains two others.
-/

namespace WayRay

namespace Rect

instance (r : Rect) : DecidablePred (· ∈ r.pixels) := fun p =>
  inferInstanceAs (Decidable (r.x ≤ p.1 ∧ p.1 < r.x + r.w ∧ r.y ≤ p.2 ∧ p.2 < r.y + r.h))

/-! ### Operations -/

/-- The right edge. -/
def right (r : Rect) : ℤ := I32.satAdd r.x r.w

/-- The bottom edge. -/
def bottom (r : Rect) : ℤ := I32.satAdd r.y r.h

def fromExtremities (left top right bottom : ℤ) : Rect :=
  ⟨left, top, I32.satSub right left, I32.satSub bottom top⟩

def isEmpty (r : Rect) : Bool := r.w == 0 || r.h == 0

/-- Touching rectangles do not overlap. -/
def overlaps (r o : Rect) : Bool :=
  r.x < o.right && o.x < r.right && r.y < o.bottom && o.y < r.bottom

def containsRect (r o : Rect) : Bool :=
  r.x ≤ o.x && r.y ≤ o.y && o.right ≤ r.right && o.bottom ≤ r.bottom

def intersection (r o : Rect) : Option Rect :=
  if !r.overlaps o then none
  else some (fromExtremities (max r.x o.x) (max r.y o.y) (min r.right o.right)
    (min r.bottom o.bottom))

/-- The bounding box of the corners of two rectangles. -/
def merge (r o : Rect) : Rect :=
  fromExtremities (min (min r.x r.right) (min o.x o.right))
    (min (min r.y r.bottom) (min o.y o.bottom))
    (max (max r.x r.right) (max o.x o.right)) (max (max r.y r.bottom) (max o.y o.bottom))

/-- Move a rectangle; its size stays. -/
def translate (r : Rect) (dx dy : ℤ) : Rect :=
  { r with x := I32.satAdd r.x dx, y := I32.satAdd r.y dy }

/-- What is left of a rectangle around an intersection: above, left, right and below. -/
def around (item i : Rect) : List Rect :=
  [⟨item.x, item.y, item.w, I32.satSub i.y item.y⟩,
    ⟨item.x, i.y, I32.satSub i.x item.x, i.h⟩,
    ⟨i.right, i.y, I32.satSub item.right i.right, i.h⟩,
    ⟨item.x, i.bottom, item.w, I32.satSub item.bottom i.bottom⟩].filter fun r => !r.isEmpty

/-- Subtract one rectangle: those that it does not overlap stay in front of what is left of the
others. -/
def subtractRect (other : Rect) (rects : List Rect) : List Rect :=
  (rects.filter fun item => (item.intersection other).isNone) ++
    rects.flatMap fun item =>
      match item.intersection other with
      | none => []
      | some i => if other.containsRect item then [] else item.around i

/-- Subtract a set of rectangles from a set of rectangles. -/
def subtractRects (rects : List Rect) : List Rect → List Rect
  | [] => rects
  | other :: others =>
    -- nothing is left
    if rects.isEmpty then rects else subtractRects (subtractRect other rects) others

/-! ### Bounds -/

/-- The coordinates are 32-bit numbers, and the size is not negative. -/
structure Valid (r : Rect) : Prop where
  x_inRange : I32.InRange r.x
  y_inRange : I32.InRange r.y
  w_nonneg : 0 ≤ r.w
  h_nonneg : 0 ≤ r.h
  w_lt : r.w < 2 ^ 31
  h_lt : r.h < 2 ^ 31

/-- So are the coordinates of the right and bottom edges. -/
structure Bounded (r : Rect) : Prop extends Valid r where
  right_lt : r.x + r.w < 2 ^ 31
  bottom_lt : r.y + r.h < 2 ^ 31

/-- The rectangle lies inside another one. -/
structure Within (o r : Rect) : Prop where
  w_nonneg : 0 ≤ r.w
  h_nonneg : 0 ≤ r.h
  left_le : o.x ≤ r.x
  top_le : o.y ≤ r.y
  right_le : r.x + r.w ≤ o.x + o.w
  bottom_le : r.y + r.h ≤ o.y + o.h

variable {r o o' i item : Rect} {p : ℤ × ℤ}

theorem Within.refl (hw : 0 ≤ r.w) (hh : 0 ≤ r.h) : Within r r :=
  ⟨hw, hh, le_rfl, le_rfl, le_rfl, le_rfl⟩

theorem Within.trans (h : Within o o') (h' : Within o' r) : Within o r where
  w_nonneg := h'.w_nonneg
  h_nonneg := h'.h_nonneg
  left_le := h.left_le.trans h'.left_le
  top_le := h.top_le.trans h'.top_le
  right_le := h'.right_le.trans h.right_le
  bottom_le := h'.bottom_le.trans h.bottom_le

theorem Within.bounded (ho : o.Bounded) (h : Within o r) : r.Bounded := by
  obtain ⟨hw, hh, hleft, htop, hright, hbottom⟩ := h
  obtain ⟨⟨⟨hx, hx'⟩, ⟨hy, hy'⟩, how, hoh, how', hoh'⟩, hor, hob⟩ := ho
  refine ⟨⟨⟨?_, ?_⟩, ⟨?_, ?_⟩, hw, hh, ?_, ?_⟩, ?_, ?_⟩ <;> omega

theorem Within.mem (h : Within o r) (hp : p ∈ r.pixels) : p ∈ o.pixels := by
  obtain ⟨hw, hh, hleft, htop, hright, hbottom⟩ := h
  rw [mem_pixels] at hp ⊢
  omega

theorem Valid.right_eq (h : r.Valid) : r.right = min (r.x + r.w) (2 ^ 31 - 1) :=
  I32.satAdd_of_nonneg h.x_inRange h.w_nonneg

theorem Valid.bottom_eq (h : r.Valid) : r.bottom = min (r.y + r.h) (2 ^ 31 - 1) :=
  I32.satAdd_of_nonneg h.y_inRange h.h_nonneg

theorem Bounded.right_eq (h : r.Bounded) : r.right = r.x + r.w := by
  have := h.right_lt
  rw [h.toValid.right_eq]
  omega

theorem Bounded.bottom_eq (h : r.Bounded) : r.bottom = r.y + r.h := by
  have := h.bottom_lt
  rw [h.toValid.bottom_eq]
  omega

/-- A rectangle that starts in the origin. -/
theorem bounded_fromSize {w h : ℤ} (hw : 0 ≤ w) (hh : 0 ≤ h) (hw' : w < 2 ^ 31) (hh' : h < 2 ^ 31) :
    (Rect.mk 0 0 w h).Bounded := by
  have hzero : I32.InRange 0 := by constructor <;> decide
  refine ⟨⟨hzero, hzero, hw, hh, hw', hh'⟩, ?_, ?_⟩
  · dsimp only
    omega
  · dsimp only
    omega

/-! ### Intersections -/

theorem intersection_comm (r o : Rect) : r.intersection o = o.intersection r := by
  have hoverlaps : r.overlaps o = o.overlaps r := by
    rw [Bool.eq_iff_iff]
    simp only [overlaps, Bool.and_eq_true, decide_eq_true_eq]
    tauto
  unfold intersection
  rw [hoverlaps, max_comm r.x, max_comm r.y, min_comm r.right, min_comm r.bottom]

/-- An intersection is computed without saturating if one of the rectangles is bounded. -/
theorem eq_of_intersection (hr : r.Valid) (ho : o.Bounded) (h : r.intersection o = some i) :
    i = ⟨max r.x o.x, max r.y o.y, min (r.x + r.w) (o.x + o.w) - max r.x o.x,
        min (r.y + r.h) (o.y + o.h) - max r.y o.y⟩ ∧ 0 ≤ i.w ∧ 0 ≤ i.h := by
  unfold intersection at h
  split_ifs at h with hoverlaps
  obtain rfl := Option.some.inj h
  simp only [overlaps, Bool.not_eq_true', Bool.not_eq_false, Bool.and_eq_true,
    decide_eq_true_eq] at hoverlaps
  obtain ⟨⟨⟨hx, hx'⟩, hy⟩, hy'⟩ := hoverlaps
  simp only [hr.right_eq, ho.right_eq, hr.bottom_eq, ho.bottom_eq] at hx hx' hy hy' ⊢
  obtain ⟨⟨hrx, hrx'⟩, ⟨hry, hry'⟩, hrw, hrh, hrw', hrh'⟩ := hr
  obtain ⟨⟨⟨hox, hox'⟩, ⟨hoy, hoy'⟩, how, hoh, how', hoh'⟩, hor, hob⟩ := ho
  have hw : I32.satSub (min (min (r.x + r.w) (2 ^ 31 - 1)) (o.x + o.w)) (max r.x o.x) =
      min (r.x + r.w) (o.x + o.w) - max r.x o.x := by
    rw [I32.satSub_of_inRange ⟨by omega, by omega⟩]
    omega
  have hh : I32.satSub (min (min (r.y + r.h) (2 ^ 31 - 1)) (o.y + o.h)) (max r.y o.y) =
      min (r.y + r.h) (o.y + o.h) - max r.y o.y := by
    rw [I32.satSub_of_inRange ⟨by omega, by omega⟩]
    omega
  rw [fromExtremities, hw, hh]
  refine ⟨rfl, ?_, ?_⟩ <;> dsimp only <;> omega

/-- Rectangles that have no intersection have no pixel in common. -/
theorem notMem_of_intersection (hr : r.Valid) (ho : o.Bounded) (h : r.intersection o = none)
    (hp : p ∈ r.pixels) : p ∉ o.pixels := by
  intro hp'
  unfold intersection at h
  split_ifs at h with hoverlaps
  simp only [overlaps, Bool.not_eq_true', Bool.eq_false_iff, ne_eq, Bool.and_eq_true,
    decide_eq_true_eq, not_and_or, hr.right_eq, ho.right_eq, hr.bottom_eq, ho.bottom_eq]
    at hoverlaps
  rw [mem_pixels] at hp hp'
  have := ho.right_lt
  have := ho.bottom_lt
  omega

theorem within_of_intersection (hr : r.Valid) (ho : o.Bounded) (h : r.intersection o = some i) :
    Within o i ∧ Within r i := by
  obtain ⟨rfl, hw, hh⟩ := eq_of_intersection hr ho h
  dsimp only at hw hh
  constructor <;> constructor <;> dsimp only <;> omega

/-- **The pixels of an intersection.** -/
theorem mem_intersection (hr : r.Valid) (ho : o.Bounded) (h : r.intersection o = some i) :
    p ∈ i.pixels ↔ p ∈ r.pixels ∧ p ∈ o.pixels := by
  obtain ⟨rfl, hw, hh⟩ := eq_of_intersection hr ho h
  simp only [mem_pixels]
  omega

/-- Two rectangles inside a bounded one are merged to the smallest one that contains both. -/
theorem merge_eq (ho : o.Bounded) (hr : Within o r) (hi : Within o i) :
    r.merge i = ⟨min r.x i.x, min r.y i.y, max (r.x + r.w) (i.x + i.w) - min r.x i.x,
      max (r.y + r.h) (i.y + i.h) - min r.y i.y⟩ := by
  have hrb := hr.bounded ho
  have hib := hi.bounded ho
  obtain ⟨hrw, hrh, hrl, hrt, hrr, hrbot⟩ := hr
  obtain ⟨hiw, hih, hil, hit, hir, hibot⟩ := hi
  obtain ⟨⟨⟨hox, hox'⟩, ⟨hoy, hoy'⟩, how, hoh, how', hoh'⟩, hor, hob⟩ := ho
  simp only [merge, fromExtremities, hrb.right_eq, hrb.bottom_eq, hib.right_eq, hib.bottom_eq,
    Rect.mk.injEq]
  refine ⟨by omega, by omega, ?_, ?_⟩ <;> rw [I32.satSub_of_inRange ⟨by omega, by omega⟩] <;> omega

theorem within_merge (ho : o.Bounded) (hr : Within o r) (hi : Within o i) :
    Within (r.merge i) r ∧ Within (r.merge i) i := by
  rw [merge_eq ho hr hi]
  obtain ⟨hrw, hrh, hrl, hrt, hrr, hrb⟩ := hr
  obtain ⟨hiw, hih, hil, hit, hir, hib⟩ := hi
  refine ⟨⟨hrw, hrh, ?_, ?_, ?_, ?_⟩, ⟨hiw, hih, ?_, ?_, ?_, ?_⟩⟩ <;> dsimp only <;> omega

/-- What contains two rectangles contains the merged one. -/
theorem merge_within (ho : o.Bounded) (hr : Within o r) (hi : Within o i) (hr' : Within o' r)
    (hi' : Within o' i) : Within o' (r.merge i) := by
  rw [merge_eq ho hr hi]
  obtain ⟨hrw, hrh, hrl, hrt, hrr, hrb⟩ := hr'
  obtain ⟨hiw, hih, hil, hit, hir, hib⟩ := hi'
  constructor <;> dsimp only <;> omega

/-! ### Sets of rectangles -/

/-- The pixels of some rectangles. -/
def covered (rects : List Rect) : Set (ℤ × ℤ) := {p | ∃ r ∈ rects, p ∈ r.pixels}

/-- No two of the rectangles have a pixel in common. -/
def Apart (rects : List Rect) : Prop := rects.Pairwise fun r r' => Disjoint r.pixels r'.pixels

variable {rects rects' others : List Rect} {other : Rect}

theorem mem_covered : p ∈ covered rects ↔ ∃ r ∈ rects, p ∈ r.pixels := Iff.rfl

instance (rects : List Rect) : DecidablePred (· ∈ covered rects) := fun p =>
  inferInstanceAs (Decidable (∃ r ∈ rects, p ∈ r.pixels))

@[simp] theorem notMem_covered_nil : p ∉ covered [] := by simp [mem_covered]

@[simp] theorem mem_covered_cons :
    p ∈ covered (r :: rects) ↔ p ∈ r.pixels ∨ p ∈ covered rects := by
  simp [mem_covered]

@[simp] theorem mem_covered_append :
    p ∈ covered (rects ++ rects') ↔ p ∈ covered rects ∨ p ∈ covered rects' := by
  simp [mem_covered, or_and_right, exists_or]

/-! ### Cutting rectangles -/

/-- An intersection, whichever of the rectangles is bounded. -/
theorem intersection_spec (hr : r.Valid) (ho : o.Valid) (hbounded : r.Bounded ∨ o.Bounded) :
    (∀ i, r.intersection o = some i → Within o i ∧ Within r i) ∧
      ∀ p, (∃ i, r.intersection o = some i ∧ p ∈ i.pixels) ↔ p ∈ r.pixels ∧ p ∈ o.pixels := by
  wlog ho' : o.Bounded generalizing r o with hwlog
  · obtain ⟨hwithin, hmem⟩ := hwlog ho hr hbounded.symm (hbounded.resolve_right ho')
    rw [intersection_comm o r] at hwithin hmem
    exact ⟨fun i hi => (hwithin i hi).symm, fun p => (hmem p).trans and_comm⟩
  · refine ⟨fun i hi => within_of_intersection hr ho' hi, fun p => ?_⟩
    cases h : r.intersection o with
    | none =>
      refine iff_of_false (fun ⟨i, hi, _⟩ => absurd hi (by simp)) fun ⟨hp, hp'⟩ => ?_
      exact notMem_of_intersection hr ho' h hp hp'
    | some i =>
      rw [← mem_intersection hr ho' h]
      exact ⟨fun ⟨i', hi', hp⟩ => Option.some.inj hi' ▸ hp, fun hp => ⟨i, rfl, hp⟩⟩

/-- **Cutting rectangles** to another one. -/
theorem cut_spec (ho : o.Valid) (hrects : ∀ r ∈ rects, r.Valid)
    (hbounded : (∀ r ∈ rects, r.Bounded) ∨ o.Bounded) :
    (∀ i ∈ rects.filterMap fun r => r.intersection o, Within o i ∧ ∃ r ∈ rects, Within r i) ∧
      (Apart rects → Apart (rects.filterMap fun r => r.intersection o)) ∧
      ∀ p, p ∈ covered (rects.filterMap fun r => r.intersection o) ↔
        p ∈ covered rects ∧ p ∈ o.pixels := by
  have hspec : ∀ r ∈ rects, _ := fun r hr =>
    intersection_spec (hrects r hr) ho (hbounded.imp_left fun h => h r hr)
  refine ⟨fun i hi => ?_, fun hapart => ?_, fun p => ?_⟩
  · obtain ⟨r, hr, hi⟩ := List.mem_filterMap.mp hi
    obtain ⟨hin, hin'⟩ := (hspec r hr).1 i hi
    exact ⟨hin, r, hr, hin'⟩
  · refine List.pairwise_filterMap.mpr (List.Pairwise.imp_of_mem ?_ hapart)
    intro r r' hr hr' hdisjoint i hi i' hi'
    refine disjoint_pixels_iff.mpr fun p hp hp' => ?_
    exact disjoint_pixels_iff.mp hdisjoint p (((hspec r hr).2 p).mp ⟨i, hi, hp⟩).1
      (((hspec r' hr').2 p).mp ⟨i', hi', hp'⟩).1
  · constructor
    · rintro ⟨i, hi, hp⟩
      obtain ⟨r, hr, hi⟩ := List.mem_filterMap.mp hi
      obtain ⟨hin, hout⟩ := ((hspec r hr).2 p).mp ⟨i, hi, hp⟩
      exact ⟨⟨r, hr, hin⟩, hout⟩
    · rintro ⟨⟨r, hr, hin⟩, hout⟩
      obtain ⟨i, hi, hp⟩ := ((hspec r hr).2 p).mpr ⟨hin, hout⟩
      exact ⟨i, List.mem_filterMap.mpr ⟨r, hr, hi⟩, hp⟩

/-! ### Moving rectangles -/

theorem valid_translate (h : r.Valid) (dx dy : ℤ) : (r.translate dx dy).Valid where
  x_inRange := I32.inRange_satAdd r.x dx
  y_inRange := I32.inRange_satAdd r.y dy
  w_nonneg := h.w_nonneg
  h_nonneg := h.h_nonneg
  w_lt := h.w_lt
  h_lt := h.h_lt

variable {dx dy : ℤ}

/-- A rectangle that is moved keeps the pixels that are moved to a place in a bounded one. -/
theorem mem_translate (ho : o.Bounded) (hp : p ∈ o.pixels)
    (hmoved : (p.1 - dx, p.2 - dy) ∈ r.pixels) : p ∈ (r.translate dx dy).pixels := by
  obtain ⟨⟨⟨hox, -⟩, ⟨hoy, -⟩, -, -, -, -⟩, hor, hob⟩ := ho
  rw [mem_pixels] at hp hmoved ⊢
  simp only [translate, I32.satAdd, I32.saturate]
  omega

/-- Moved right and down, it has no other pixels in the bounded one. -/
theorem mem_of_translate (ho : o.Bounded) (hp : p ∈ o.pixels) (hx : 0 ≤ r.x) (hy : 0 ≤ r.y)
    (hdx : I32.InRange dx) (hdy : I32.InRange dy) (hmoved : p ∈ (r.translate dx dy).pixels) :
    (p.1 - dx, p.2 - dy) ∈ r.pixels := by
  obtain ⟨⟨⟨hox, -⟩, ⟨hoy, -⟩, -, -, -, -⟩, hor, hob⟩ := ho
  obtain ⟨hdx, -⟩ := hdx
  obtain ⟨hdy, -⟩ := hdy
  rw [mem_pixels] at hp hmoved ⊢
  simp only [translate, I32.satAdd, I32.saturate] at hmoved
  omega

/-! ### Subtracting -/

/-- An empty rectangle has no pixels. -/
theorem notMem_of_isEmpty (h : r.isEmpty = true) : p ∉ r.pixels := by
  simp only [isEmpty, Bool.or_eq_true, beq_iff_eq] at h
  rw [mem_pixels]
  omega

theorem mem_covered_filter_not_isEmpty :
    p ∈ covered (rects.filter fun r => !r.isEmpty) ↔ p ∈ covered rects := by
  simp only [mem_covered, List.mem_filter, Bool.not_eq_true']
  constructor
  · rintro ⟨r, ⟨hr, -⟩, hp⟩
    exact ⟨r, hr, hp⟩
  · rintro ⟨r, hr, hp⟩
    refine ⟨r, ⟨hr, Bool.eq_false_iff.mpr fun hempty => ?_⟩, hp⟩
    exact notMem_of_isEmpty hempty hp

/-- The rectangles around an intersection, computed without saturating. -/
theorem around_eq (hitem : item.Bounded) (hi : Within item i) :
    item.around i =
      ([⟨item.x, item.y, item.w, i.y - item.y⟩, ⟨item.x, i.y, i.x - item.x, i.h⟩,
        ⟨i.x + i.w, i.y, item.x + item.w - (i.x + i.w), i.h⟩,
        ⟨item.x, i.y + i.h, item.w, item.y + item.h - (i.y + i.h)⟩] : List Rect).filter
          fun r => !r.isEmpty := by
  have hib := hi.bounded hitem
  obtain ⟨hiw, hih, hil, hit, hir, hibot⟩ := hi
  obtain ⟨⟨⟨hx, hx'⟩, ⟨hy, hy'⟩, hw, hh, hw', hh'⟩, hr, hb⟩ := hitem
  have hitem : item.Bounded := ⟨⟨⟨hx, hx'⟩, ⟨hy, hy'⟩, hw, hh, hw', hh'⟩, hr, hb⟩
  rw [around, hitem.right_eq, hitem.bottom_eq, hib.right_eq, hib.bottom_eq,
    I32.satSub_of_inRange ⟨by omega, by omega⟩, I32.satSub_of_inRange ⟨by omega, by omega⟩,
    I32.satSub_of_inRange ⟨by omega, by omega⟩, I32.satSub_of_inRange ⟨by omega, by omega⟩]

theorem within_around (hitem : item.Bounded) (hi : Within item i) (hr : r ∈ item.around i) :
    Within item r := by
  rw [around_eq hitem hi] at hr
  have hr := (List.mem_filter.mp hr).1
  have hw := hitem.w_nonneg
  have hh := hitem.h_nonneg
  obtain ⟨hiw, hih, hil, hit, hir, hib⟩ := hi
  simp only [List.mem_cons, List.not_mem_nil, or_false] at hr
  rcases hr with rfl | rfl | rfl | rfl <;> constructor <;> dsimp only <;> omega

/-- They have the pixels of the rectangle that are not in the intersection. -/
theorem mem_covered_around (hitem : item.Bounded) (hi : Within item i) :
    p ∈ covered (item.around i) ↔ p ∈ item.pixels ∧ p ∉ i.pixels := by
  rw [around_eq hitem hi, mem_covered_filter_not_isEmpty]
  obtain ⟨hiw, hih, hil, hit, hir, hib⟩ := hi
  simp only [mem_covered_cons, notMem_covered_nil, or_false, mem_pixels]
  omega

theorem apart_around (hitem : item.Bounded) (hi : Within item i) : Apart (item.around i) := by
  rw [around_eq hitem hi]
  refine List.Pairwise.filter _ ?_
  obtain ⟨hiw, hih, hil, hit, hir, hib⟩ := hi
  simp only [List.pairwise_cons, List.mem_cons, List.not_mem_nil, or_false, forall_eq_or_imp,
    forall_eq, disjoint_pixels_iff, mem_pixels]
  refine ⟨⟨?_, ?_, ?_⟩, ⟨?_, ?_⟩, ?_, by simp⟩ <;> intro p hp hp' <;> omega

/-- What is left of one rectangle. -/
def remainder (other item : Rect) : List Rect :=
  match item.intersection other with
  | none => [item]
  | some i => if other.containsRect item then [] else item.around i

/-- A rectangle that contains another one contains its pixels. -/
theorem mem_of_containsRect (hr : r.Bounded) (ho : o.Bounded) (h : o.containsRect r = true)
    (hp : p ∈ r.pixels) : p ∈ o.pixels := by
  simp only [containsRect, Bool.and_eq_true, decide_eq_true_eq, hr.right_eq, hr.bottom_eq,
    ho.right_eq, ho.bottom_eq] at h
  rw [mem_pixels] at hp ⊢
  omega

theorem remainder_spec (hitem : item.Bounded) (ho : other.Bounded) :
    (∀ r ∈ remainder other item, Within item r) ∧ Apart (remainder other item) ∧
      ∀ p, p ∈ covered (remainder other item) ↔ p ∈ item.pixels ∧ p ∉ other.pixels := by
  unfold remainder
  cases h : item.intersection other with
  | none =>
    refine ⟨fun r hr => ?_, List.pairwise_singleton _ _, fun p => ?_⟩
    · rw [List.mem_singleton.mp hr]
      exact Within.refl hitem.w_nonneg hitem.h_nonneg
    · have hdisjoint : p ∈ item.pixels → p ∉ other.pixels :=
        notMem_of_intersection hitem.toValid ho h
      simp only [mem_covered_cons, notMem_covered_nil, or_false]
      tauto
  | some i =>
    have hi := (within_of_intersection hitem.toValid ho h).2
    have hmem : ∀ p, p ∈ i.pixels ↔ p ∈ item.pixels ∧ p ∈ other.pixels := fun p =>
      mem_intersection hitem.toValid ho h
    dsimp only
    split_ifs with hcontains
    · refine ⟨fun r hr => absurd hr List.not_mem_nil, List.Pairwise.nil, fun p => ?_⟩
      have := mem_of_containsRect (p := p) hitem ho hcontains
      simp only [notMem_covered_nil, false_iff]
      tauto
    · refine ⟨fun r hr => within_around hitem hi hr, apart_around hitem hi, fun p => ?_⟩
      rw [mem_covered_around hitem hi, hmem]
      tauto

/-- Up to their order, the rectangles are replaced by what is left of them. -/
theorem subtractRect_perm (other : Rect) (rects : List Rect) :
    (subtractRect other rects).Perm (rects.flatMap (remainder other)) := by
  induction rects with
  | nil => exact List.Perm.refl _
  | cons item rects ih =>
    unfold subtractRect at ih ⊢
    rw [List.flatMap_cons, List.flatMap_cons, List.filter_cons, remainder]
    cases h : item.intersection other with
    | none => simpa using ih
    | some i =>
      simp only [Option.isNone_some, Bool.false_eq_true, if_false]
      exact (List.perm_append_comm_assoc _ _ _).trans (ih.append_left _)

theorem mem_covered_of_perm (h : rects.Perm rects') : p ∈ covered rects ↔ p ∈ covered rects' := by
  simp only [mem_covered, h.mem_iff]

theorem apart_of_perm (h : rects.Perm rects') : Apart rects ↔ Apart rects' :=
  h.pairwise_iff fun hdisjoint => hdisjoint.symm

/-- Rectangles inside those that are apart are apart, if those inside the same one are. -/
theorem Apart.flatMap {f : Rect → List Rect} (h : Apart rects)
    (hwithin : ∀ item ∈ rects, ∀ r ∈ f item, Within item r)
    (hapart : ∀ item ∈ rects, Apart (f item)) : Apart (rects.flatMap f) := by
  refine List.pairwise_flatMap.mpr ⟨hapart, h.imp_of_mem ?_⟩
  intro item item' hitem hitem' hdisjoint r hr r' hr'
  refine disjoint_pixels_iff.mpr fun p hp hp' => ?_
  exact disjoint_pixels_iff.mp hdisjoint p ((hwithin item hitem r hr).mem hp)
    ((hwithin item' hitem' r' hr').mem hp')

theorem subtractRect_spec (hrects : ∀ item ∈ rects, item.Bounded) (ho : other.Bounded) :
    (∀ r ∈ subtractRect other rects, ∃ item ∈ rects, Within item r) ∧
      (Apart rects → Apart (subtractRect other rects)) ∧
      ∀ p, p ∈ covered (subtractRect other rects) ↔ p ∈ covered rects ∧ p ∉ other.pixels := by
  have hperm := subtractRect_perm other rects
  have hleft : ∀ item ∈ rects, _ := fun item hitem => remainder_spec (hrects item hitem) ho
  refine ⟨fun r hr => ?_, fun hapart => ?_, fun p => ?_⟩
  · obtain ⟨item, hitem, hr⟩ := List.mem_flatMap.mp (hperm.mem_iff.mp hr)
    exact ⟨item, hitem, (hleft item hitem).1 r hr⟩
  · exact (apart_of_perm hperm).mpr
      (hapart.flatMap (fun item hitem => (hleft item hitem).1)
        fun item hitem => (hleft item hitem).2.1)
  · rw [mem_covered_of_perm hperm]
    constructor
    · rintro ⟨r, hr, hp⟩
      obtain ⟨item, hitem, hr⟩ := List.mem_flatMap.mp hr
      obtain ⟨hin, hout⟩ := ((hleft item hitem).2.2 p).mp ⟨r, hr, hp⟩
      exact ⟨⟨item, hitem, hin⟩, hout⟩
    · rintro ⟨⟨item, hitem, hin⟩, hout⟩
      obtain ⟨r, hr, hp⟩ := ((hleft item hitem).2.2 p).mpr ⟨hin, hout⟩
      exact ⟨r, List.mem_flatMap.mpr ⟨item, hitem, hr⟩, hp⟩

/-- **Subtracting is exact**: what is left lies inside the rectangles, is apart if they are, and has
those of their pixels that are in none of the others. -/
theorem subtractRects_spec (hrects : ∀ item ∈ rects, item.Bounded)
    (hothers : ∀ other ∈ others, other.Bounded) :
    (∀ r ∈ subtractRects rects others, ∃ item ∈ rects, Within item r) ∧
      (Apart rects → Apart (subtractRects rects others)) ∧
      ∀ p, p ∈ covered (subtractRects rects others) ↔ p ∈ covered rects ∧ p ∉ covered others := by
  induction others generalizing rects with
  | nil =>
    refine ⟨fun r hr => ⟨r, hr, ?_⟩, id, fun p => (and_iff_left notMem_covered_nil).symm⟩
    exact Within.refl (hrects r hr).w_nonneg (hrects r hr).h_nonneg
  | cons other others ih =>
    rw [List.forall_mem_cons] at hothers
    unfold subtractRects
    split_ifs with hempty
    · rw [List.isEmpty_iff] at hempty
      subst hempty
      exact ⟨fun r hr => absurd hr List.not_mem_nil, id, fun p => by simp⟩
    · obtain ⟨hwithin, hapart, hmem⟩ := subtractRect_spec hrects hothers.1
      have hbounded : ∀ r ∈ subtractRect other rects, r.Bounded := by
        intro r hr
        obtain ⟨item, hitem, hin⟩ := hwithin r hr
        exact hin.bounded (hrects item hitem)
      obtain ⟨hwithin', hapart', hmem'⟩ := ih hbounded hothers.2
      refine ⟨fun r hr => ?_, fun h => hapart' (hapart h), fun p => ?_⟩
      · obtain ⟨item', hitem', hin'⟩ := hwithin' r hr
        obtain ⟨item, hitem, hin⟩ := hwithin item' hitem'
        exact ⟨item, hitem, hin.trans hin'⟩
      · rw [hmem', hmem, mem_covered_cons]
        tauto

end Rect

end WayRay
