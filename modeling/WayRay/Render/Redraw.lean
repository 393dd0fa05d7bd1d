import Mathlib.Algebra.Order.BigOperators.Group.List
import WayRay.Render.Tracker

/-!
# What is drawn

A frame drawn anew is the composite of all elements of its scene (`OutputFrame.composite`).
`draw_spec` says that drawing a frame in some damage gives its composite there and leaves the rest:
elements that are off the output or hidden are not missed, no pixel is painted twice by the same
element, and what is behind an opaque region may be left as it is.

`Sound` is what the renderer relies on of an element.
-/

namespace WayRay

open Rect Raster

variable {ι κ A C : Type}

/-! ### Scenes -/

namespace RenderElement

/-- What the renderer relies on of an element: its rectangles are ones, and its opaque regions lie
within it and let nothing show through. -/
structure Sound (e : RenderElement ι κ A C) : Prop where
  geometry_valid : e.geometry.Valid
  damage_valid : ∀ commit, ∀ r ∈ e.damageSince commit, r.Valid
  opaque_within : ∀ r ∈ e.opaqueRegions, Within ⟨0, 0, e.geometry.w, e.geometry.h⟩ r
  hides : ∀ q ∈ covered e.opaqueRegions, Hides e.draw q

/-- The element as a layer of the picture. -/
def layer (e : RenderElement ι κ A C) (p : ℤ × ℤ) (c : C) : C :=
  if p ∈ e.geometry.pixels then e.draw (e.toLocal p) c else c

variable {e : RenderElement ι κ A C} {p : ℤ × ℤ} {out : Rect}

theorem layer_of_mem (h : p ∈ e.geometry.pixels) (c : C) : e.layer p c = e.draw (e.toLocal p) c :=
  if_pos h

theorem layer_of_notMem (h : p ∉ e.geometry.pixels) (c : C) : e.layer p c = c := if_neg h

theorem toLocal_mem_iff :
    e.toLocal p ∈ (Rect.mk 0 0 e.geometry.w e.geometry.h).pixels ↔ p ∈ e.geometry.pixels := by
  simp only [mem_pixels, toLocal]
  omega

/-! ### Regions that are placed -/

theorem Sound.opaque_valid (h : e.Sound) : ∀ r ∈ e.opaqueRegions, r.Valid := by
  intro r hr
  obtain ⟨⟨-, -, hw, hh, hw', hh'⟩, -, hwithin, -⟩ := h
  exact ((hwithin r hr).bounded (bounded_fromSize hw hh hw' hh')).toValid

/-- Placed regions lie on the output. -/
theorem within_place (ho : out.Bounded) {regions : List Rect} (hregions : ∀ r ∈ regions, r.Valid) :
    ∀ i ∈ e.place out regions, Within out i := by
  intro i hi
  obtain ⟨r, hr, hi⟩ := List.mem_filterMap.mp hi
  exact (within_of_intersection (valid_translate (hregions r hr) _ _) ho hi).1

/-- A pixel on the output is in a placed region if it is in the region of the element. -/
theorem mem_covered_place (ho : out.Bounded) {regions : List Rect}
    (hregions : ∀ r ∈ regions, r.Valid) (hp : p ∈ out.pixels)
    (hlocal : e.toLocal p ∈ covered regions) : p ∈ covered (e.place out regions) := by
  obtain ⟨r, hr, hlocal⟩ := hlocal
  have hmoved : p ∈ (r.translate e.geometry.x e.geometry.y).pixels := mem_translate ho hp hlocal
  have hvalid := valid_translate (hregions r hr) e.geometry.x e.geometry.y
  obtain ⟨i, hi, hp⟩ := ((intersection_spec hvalid ho.toValid (Or.inr ho)).2 p).mpr ⟨hmoved, hp⟩
  exact ⟨i, List.mem_filterMap.mpr ⟨r, hr, hi⟩, hp⟩

/-- A pixel of an opaque region is one of the element, and nothing shows through. -/
theorem Sound.of_mem_opaqueRegions (h : e.Sound) (ho : out.Bounded)
    (hp : p ∈ covered (e.place out e.opaqueRegions)) :
    p ∈ e.geometry.pixels ∧ Hides e.layer p := by
  obtain ⟨i, hi, hp⟩ := hp
  obtain ⟨r, hr, hi⟩ := List.mem_filterMap.mp hi
  have hvalid := valid_translate (h.opaque_valid r hr) e.geometry.x e.geometry.y
  obtain ⟨hmoved, hout⟩ :=
    ((intersection_spec hvalid ho.toValid (Or.inr ho)).2 p).mp ⟨i, hi, hp⟩
  have hwithin := h.opaque_within r hr
  have hlocal : e.toLocal p ∈ r.pixels := mem_of_translate ho hout hwithin.left_le hwithin.top_le
    h.geometry_valid.x_inRange h.geometry_valid.y_inRange hmoved
  have hgeometry : p ∈ e.geometry.pixels := toLocal_mem_iff.mp (hwithin.mem hlocal)
  refine ⟨hgeometry, fun c c' => ?_⟩
  rw [layer_of_mem hgeometry, layer_of_mem hgeometry]
  exact h.hides _ ⟨r, hr, hlocal⟩ c c'

end RenderElement

namespace OutputFrame

/-- The picture of a scene. -/
def composite (frame : OutputFrame ι κ A C) : ℤ × ℤ → C :=
  Raster.composite frame.clearColor (frame.elements.map RenderElement.layer)

/-- A scene that can be rendered: the areas on the output are 32-bit numbers, and each element
occurs once. -/
structure Sound (frame : OutputFrame ι κ A C) : Prop where
  width_nonneg : 0 ≤ frame.size.1
  height_nonneg : 0 ≤ frame.size.2
  width_lt : frame.size.1 < 2 ^ 31
  height_lt : frame.size.2 < 2 ^ 31
  area_lt : frame.size.1 * frame.size.2 < 2 ^ 31
  elements : ∀ e ∈ frame.elements, e.Sound
  nodup : (frame.elements.map RenderElement.id).Nodup

theorem Sound.out_bounded {frame : OutputFrame ι κ A C} (h : frame.Sound) : frame.out.Bounded :=
  bounded_fromSize h.width_nonneg h.height_nonneg h.width_lt h.height_lt

end OutputFrame

namespace DamageTracker

variable {out : Rect} {front : List Rect} {e : RenderElement ι κ A C} {p : ℤ × ℤ}
  {elements rest : List (RenderElement ι κ A C)}

/-! ### Visible elements -/

/-- Rectangles of no area have no pixels. -/
theorem notMem_of_visibleArea {rects : List Rect} (hrects : ∀ r ∈ rects, 0 ≤ r.w ∧ 0 ≤ r.h)
    (h : visibleArea rects = 0) : p ∉ covered rects := by
  rintro ⟨r, hr, hp⟩
  have hnonneg : ∀ area ∈ rects.map fun item => item.w * item.h, (0 : ℤ) ≤ area := by
    intro area harea
    obtain ⟨item, hitem, rfl⟩ := List.mem_map.mp harea
    exact mul_nonneg (hrects item hitem).1 (hrects item hitem).2
  have hzero : r.w * r.h = 0 := by
    have hle := List.single_le_sum hnonneg _ (List.mem_map.mpr ⟨r, hr, rfl⟩)
    have := hnonneg _ (List.mem_map.mpr ⟨r, hr, rfl⟩)
    unfold visibleArea at h
    omega
  rw [mem_pixels] at hp
  rcases mul_eq_zero.mp hzero with hw | hh <;> omega

/-- A hidden element has no pixel that is not behind an opaque region. -/
theorem mem_front_of_hidden (ho : out.Bounded) (he : e.geometry.Valid)
    (hfront : ∀ r ∈ front, Within out r) {geometry : Rect}
    (hgeometry : e.geometry.intersection out = some geometry)
    (hhidden : visibleArea (subtractRects [geometry] front) = 0) (hp : p ∈ out.pixels)
    (hin : p ∈ e.geometry.pixels) : p ∈ covered front := by
  have hbounded : geometry.Bounded := ((within_of_intersection he ho hgeometry).1).bounded ho
  have hsingle : ∀ item ∈ [geometry], item.Bounded := fun item hitem =>
    List.mem_singleton.mp hitem ▸ hbounded
  obtain ⟨hwithin, -, hmem⟩ :=
    subtractRects_spec hsingle fun r hr => (hfront r hr).bounded ho
  by_contra hout
  have hleft := (hmem p).mpr ⟨⟨geometry, List.mem_singleton_self _,
    (mem_intersection he ho hgeometry).mpr ⟨hin, hp⟩⟩, hout⟩
  refine notMem_of_visibleArea (fun r hr => ?_) hhidden hleft
  obtain ⟨item, -, hin⟩ := hwithin r hr
  exact ⟨hin.w_nonneg, hin.h_nonneg⟩

/-- The cases of an element: it is left out, or drawn. -/
theorem visibleElements_cons (out : Rect) (front : List Rect) (e : RenderElement ι κ A C)
    (rest : List (RenderElement ι κ A C)) :
    ((e.geometry.intersection out = none ∨ ∃ geometry,
        e.geometry.intersection out = some geometry ∧
          visibleArea (subtractRects [geometry] front) = 0) ∧
      visibleElements out front (e :: rest) = visibleElements out front rest) ∨
    visibleElements out front (e :: rest) =
      ⟨e, front, e.place out e.opaqueRegions⟩ ::
        visibleElements out (front ++ e.place out e.opaqueRegions) rest := by
  rw [visibleElements]
  split
  · next hnone => exact Or.inl ⟨Or.inl hnone, rfl⟩
  · next geometry hsome =>
    split_ifs with hhidden
    · exact Or.inl ⟨Or.inr ⟨geometry, hsome, hhidden⟩, rfl⟩
    · exact Or.inr rfl

/-- An element that is left out paints nothing that is not behind an opaque region. -/
theorem layer_of_leftOut (ho : out.Bounded) (he : e.geometry.Valid)
    (hfront : ∀ r ∈ front, Within out r)
    (h : e.geometry.intersection out = none ∨ ∃ geometry,
      e.geometry.intersection out = some geometry ∧
        visibleArea (subtractRects [geometry] front) = 0)
    (hp : p ∈ out.pixels) (hout : p ∉ covered front) (c : C) : e.layer p c = c := by
  refine RenderElement.layer_of_notMem (fun hin => ?_) c
  rcases h with hnone | ⟨geometry, hsome, hhidden⟩
  · exact notMem_of_intersection he ho hnone hin hp
  · exact hout (mem_front_of_hidden ho he hfront hsome hhidden hp hin)

theorem within_front_place (ho : out.Bounded) (he : e.Sound) (hfront : ∀ r ∈ front, Within out r) :
    ∀ r ∈ front ++ e.place out e.opaqueRegions, Within out r := by
  intro r hr
  rcases List.mem_append.mp hr with hr | hr
  · exact hfront r hr
  · exact RenderElement.within_place ho he.opaque_valid r hr

/-- **The visible elements are enough**: a pixel that is not behind an opaque region has the color
that all elements compose. -/
theorem composite_visibleElements (ho : out.Bounded) (hsound : ∀ e ∈ elements, e.Sound)
    (hfront : ∀ r ∈ front, Within out r) (clearColor : C) (hp : p ∈ out.pixels)
    (hout : p ∉ covered front) :
    Raster.composite clearColor
        ((visibleElements out front elements).map fun v => v.element.layer) p =
      Raster.composite clearColor (elements.map RenderElement.layer) p := by
  induction elements generalizing front with
  | nil => rfl
  | cons e rest ih =>
    rw [List.forall_mem_cons] at hsound
    rcases visibleElements_cons out front e rest with ⟨hleft, hvisible⟩ | hvisible
    · rw [hvisible, ih hsound.2 hfront hout, List.map_cons, composite_cons,
        layer_of_leftOut ho hsound.1.geometry_valid hfront hleft hp hout]
    · rw [hvisible, List.map_cons, List.map_cons, composite_cons, composite_cons]
      by_cases hhidden : p ∈ covered (e.place out e.opaqueRegions)
      · exact (hsound.1.of_mem_opaqueRegions ho hhidden).2 _ _
      · rw [ih hsound.2 (within_front_place ho hsound.1 hfront)]
        rw [mem_covered_append, not_or]
        exact ⟨hout, hhidden⟩

/-! ### Drawing -/

section Draw

variable {damage : List Rect} {buffer : ℤ × ℤ → C} {v : VisibleElement ι κ A C}

/-- Painting in rectangles that are apart paints a pixel once. -/
theorem foldl_paint {rects : List Rect} (hapart : Apart rects) (q : ℤ × ℤ) (paint : C → C) (c : C) :
    rects.foldl (fun c d => if q ∈ d.pixels then paint c else c) c =
      if q ∈ covered rects then paint c else c := by
  induction rects generalizing c with
  | nil => rw [List.foldl_nil, if_neg notMem_covered_nil]
  | cons d rects ih =>
    obtain ⟨hd, hrest⟩ := List.pairwise_cons.mp hapart
    rw [List.foldl_cons, ih hrest]
    by_cases hq : q ∈ d.pixels
    · have hnot : q ∉ covered rects := by
        rintro ⟨d', hd', hq'⟩
        exact disjoint_pixels_iff.mp (hd d' hd') q hq hq'
      rw [if_pos hq, if_neg hnot, if_pos (mem_covered_cons.mpr (Or.inl hq))]
    · simp [hq]

/-- What is known of the damage that is drawn. -/
structure Drawable (out : Rect) (damage : List Rect) : Prop where
  within : ∀ r ∈ damage, Within out r
  apart : Apart damage

/-- The damage of an element, before it is moved to its position in the element. -/
theorem elementDamage_spec (ho : out.Bounded) (hdamage : Drawable out damage)
    (he : v.element.geometry.Valid) (hfront : ∀ r ∈ v.front, Within out r) :
    let rects := subtractRects (damage.filterMap fun d => d.intersection v.element.geometry) v.front
    (∀ r ∈ rects, Within v.element.geometry r) ∧ Apart rects ∧
      ∀ p, p ∈ covered rects ↔
        p ∈ covered damage ∧ p ∈ v.element.geometry.pixels ∧ p ∉ covered v.front := by
  intro rects
  have hbounded : ∀ d ∈ damage, d.Bounded := fun d hd => (hdamage.within d hd).bounded ho
  obtain ⟨hcut, hcutapart, hcutmem⟩ :=
    cut_spec he (fun d hd => (hbounded d hd).toValid) (Or.inl hbounded)
  have hcutbounded : ∀ i ∈ damage.filterMap fun d => d.intersection v.element.geometry,
      i.Bounded := by
    intro i hi
    obtain ⟨-, d, hd, hin⟩ := hcut i hi
    exact hin.bounded (hbounded d hd)
  obtain ⟨hwithin, hapart, hmem⟩ :=
    subtractRects_spec hcutbounded fun r hr => (hfront r hr).bounded ho
  refine ⟨fun r hr => ?_, hapart (hcutapart hdamage.apart), fun p => ?_⟩
  · obtain ⟨i, hi, hin⟩ := hwithin r hr
    exact (hcut i hi).1.trans hin
  · rw [hmem, hcutmem, and_assoc]

/-- Moved to their position in an element, rectangles inside it keep their pixels. -/
theorem mem_pixels_toLocal {g r : Rect} (hg : g.Valid) (hr : Within g r) :
    (p.1 - g.x, p.2 - g.y) ∈ (Rect.mk (I32.satSub r.x g.x) (I32.satSub r.y g.y) r.w r.h).pixels ↔
      p ∈ r.pixels := by
  obtain ⟨hw, hh, hl, ht, hright, hbottom⟩ := hr
  obtain ⟨⟨hx, hx'⟩, ⟨hy, hy'⟩, -, -, hgw, hgh⟩ := hg
  rw [I32.satSub_of_inRange ⟨by omega, by omega⟩, I32.satSub_of_inRange ⟨by omega, by omega⟩]
  simp only [mem_pixels]
  omega

/-- **An element is drawn** once in each damaged pixel in which it is not hidden. -/
theorem drawElement_apply (ho : out.Bounded) (hdamage : Drawable out damage)
    (he : v.element.geometry.Valid) (hfront : ∀ r ∈ v.front, Within out r) (p : ℤ × ℤ) :
    drawElement damage v buffer p =
      if p ∈ covered damage ∧ p ∉ covered v.front then v.element.layer p (buffer p)
      else buffer p := by
  obtain ⟨hwithin, hapart, hmem⟩ := elementDamage_spec ho hdamage he hfront
  have hfold : drawElement damage v buffer p =
      (subtractRects (damage.filterMap fun d => d.intersection v.element.geometry) v.front).foldl
        (fun c d => if p ∈ d.pixels then v.element.draw (v.element.toLocal p) c else c)
        (buffer p) := by
    unfold drawElement localDamage
    rw [List.foldl_map]
    refine List.foldl_ext _ _ _ fun c d hd => if_congr ?_ rfl rfl
    exact mem_pixels_toLocal he (hwithin d hd)
  rw [hfold, foldl_paint hapart]
  by_cases hin : p ∈ v.element.geometry.pixels
  · rw [RenderElement.layer_of_mem hin]
    exact if_congr ((hmem p).trans (by tauto)) rfl rfl
  · rw [RenderElement.layer_of_notMem hin, ite_self, if_neg]
    exact fun h => hin ((hmem p).mp h).2.1

/-- Elements that are drawn are of the scene, and the regions in front of them on the output. -/
theorem of_mem_visibleElements (ho : out.Bounded) (hsound : ∀ e ∈ elements, e.Sound)
    (hfront : ∀ r ∈ front, Within out r) (hv : v ∈ visibleElements out front elements) :
    v.element ∈ elements ∧ (∀ r ∈ v.front, Within out r) ∧
      ∀ r ∈ v.opaqueRegions, Within out r := by
  induction elements generalizing front with
  | nil => exact absurd hv List.not_mem_nil
  | cons e rest ih =>
    rw [List.forall_mem_cons] at hsound
    rcases visibleElements_cons out front e rest with ⟨-, hvisible⟩ | hvisible
    · obtain ⟨hin, hrest⟩ := ih hsound.2 hfront (hvisible ▸ hv)
      exact ⟨List.mem_cons_of_mem _ hin, hrest⟩
    · rw [hvisible] at hv
      rcases List.mem_cons.mp hv with rfl | hv
      · exact ⟨List.mem_cons_self, hfront,
          RenderElement.within_place ho hsound.1.opaque_valid⟩
      · obtain ⟨hin, hrest⟩ := ih hsound.2 (within_front_place ho hsound.1 hfront) hv
        exact ⟨List.mem_cons_of_mem _ hin, hrest⟩

/-- Drawing leaves what is not damaged. -/
theorem foldr_drawElement_of_notMem (ho : out.Bounded) (hdamage : Drawable out damage)
    {visible : List (VisibleElement ι κ A C)}
    (hvisible : ∀ v ∈ visible, v.element.geometry.Valid ∧ ∀ r ∈ v.front, Within out r)
    (hp : p ∉ covered damage) : visible.foldr (drawElement damage) buffer p = buffer p := by
  induction visible with
  | nil => rfl
  | cons v visible ih =>
    rw [List.forall_mem_cons] at hvisible
    rw [List.foldr_cons, drawElement_apply ho hdamage hvisible.1.1 hvisible.1.2,
      if_neg fun h => hp h.1, ih hvisible.2]

/-- The elements drawn over a buffer that is cleared but for the opaque regions compose the color of
each damaged pixel. -/
theorem foldr_drawElement_of_mem (ho : out.Bounded) (hdamage : Drawable out damage)
    (hsound : ∀ e ∈ elements, e.Sound) (hfront : ∀ r ∈ front, Within out r) {clearColor : C}
    (hp : p ∈ covered damage) (hout : p ∉ covered front)
    (hclear : p ∉ covered (opaqueRegions (visibleElements out front elements)) →
      buffer p = clearColor) :
    (visibleElements out front elements).foldr (drawElement damage) buffer p =
      Raster.composite clearColor
        ((visibleElements out front elements).map fun v => v.element.layer) p := by
  induction elements generalizing front with
  | nil => exact hclear notMem_covered_nil
  | cons e rest ih =>
    rw [List.forall_mem_cons] at hsound
    rcases visibleElements_cons out front e rest with ⟨-, hvisible⟩ | hvisible
    · rw [hvisible] at hclear ⊢
      exact ih hsound.2 hfront hout hclear
    · rw [hvisible] at hclear ⊢
      rw [List.foldr_cons, List.map_cons, composite_cons,
        drawElement_apply ho hdamage hsound.1.geometry_valid hfront, if_pos ⟨hp, hout⟩]
      by_cases hhidden : p ∈ covered (e.place out e.opaqueRegions)
      · exact (hsound.1.of_mem_opaqueRegions ho hhidden).2 _ _
      · have hrest : p ∉ covered (front ++ e.place out e.opaqueRegions) := by
          rw [mem_covered_append, not_or]
          exact ⟨hout, hhidden⟩
        rw [ih hsound.2 (within_front_place ho hsound.1 hfront) hrest fun hnot => hclear ?_]
        rw [opaqueRegions, List.flatMap_cons, mem_covered_append, not_or]
        exact ⟨hhidden, hnot⟩

/-- **Drawing a frame** in some damage gives its picture there and leaves the rest. -/
theorem draw_spec {frame : OutputFrame ι κ A C} (hsound : frame.Sound)
    (hdamage : Drawable frame.out damage) (buffer : ℤ × ℤ → C) (p : ℤ × ℤ) :
    draw damage frame buffer p = if p ∈ covered damage then frame.composite p else buffer p := by
  have ho := hsound.out_bounded
  have hvisible : ∀ v ∈ visibleElements frame.out [] frame.elements, _ := fun v hv =>
    of_mem_visibleElements ho hsound.elements (List.forall_mem_nil _) hv
  have hopaque : ∀ r ∈ opaqueRegions (visibleElements frame.out [] frame.elements),
      r.Bounded := by
    intro r hr
    obtain ⟨v, hv, hr⟩ := List.mem_flatMap.mp hr
    exact ((hvisible v hv).2.2 r hr).bounded ho
  obtain ⟨-, -, hmem⟩ := subtractRects_spec (fun d hd => (hdamage.within d hd).bounded ho) hopaque
  rw [draw]
  split_ifs with hp
  · have hin : p ∈ frame.out.pixels := by
      obtain ⟨d, hd, hp⟩ := hp
      exact (hdamage.within d hd).mem hp
    rw [foldr_drawElement_of_mem ho hdamage hsound.elements (List.forall_mem_nil _) hp
      notMem_covered_nil, composite_visibleElements ho hsound.elements (List.forall_mem_nil _)
      frame.clearColor hin notMem_covered_nil]
    · rfl
    · exact fun hnot => if_pos ((hmem p).mpr ⟨hp, hnot⟩)
  · rw [foldr_drawElement_of_notMem ho hdamage (fun v hv =>
      ⟨(hsound.elements _ (hvisible v hv).1).geometry_valid, (hvisible v hv).2.1⟩) hp]
    exact if_neg fun h => hp ((hmem p).mp h).1

end Draw

end DamageTracker

end WayRay
