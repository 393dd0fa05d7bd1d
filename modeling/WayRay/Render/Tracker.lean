import WayRay.Collections.HashMap
import WayRay.Raster.Layers
import WayRay.Render.Shaper

/-!
# The damage tracker

`damage/mod.rs`: `render_output` draws the elements of an output into a buffer that holds an earlier
frame.  From what it has recorded of the last frame it finds the damage, clears it and draws the
elements in it, from the last one to the first; what lies behind an opaque region is not drawn.

* `visibleElements` leaves out the elements that are off the output or hidden.
* `newDamage` is what has changed since the last frame, and `bufferDamage` adds what an older buffer
  has missed; `shapedDamage` cuts it to the output and shapes it.
* `draw` draws the visible elements in the damage.

The elements are those of a scene in front-to-back order, at the scale of the output.
-/

namespace WayRay

open Rect

/-! ### The output -/

/-- `Transform`, of an output. -/
inductive Transform where
  | normal
  | _90
  | _180
  | _270
  | flipped
  | flipped90
  | flipped180
  | flipped270
deriving DecidableEq

namespace Transform

def invert : Transform → Transform
  | normal => normal
  | flipped => flipped
  | _90 => _270
  | _180 => _180
  | _270 => _90
  | flipped90 => flipped270
  | flipped180 => flipped180
  | flipped270 => flipped90

def transformSize (t : Transform) (size : ℤ × ℤ) : ℤ × ℤ :=
  if t = _90 ∨ t = _270 ∨ t = flipped90 ∨ t = flipped270 then (size.2, size.1) else size

end Transform

/-! ### Elements -/

/-- `RenderElement`: what the renderer asks an element for.  The look is all but the geometry and
the place that an instance is compared by: its source, transform and alpha. -/
structure RenderElement (ι κ A C : Type) where
  id : ι
  currentCommit : κ
  look : A
  geometry : Rect
  damageSince : Option κ → List Rect
  opaqueRegions : List Rect
  /-- The color of a pixel of the element, over what is behind it. -/
  draw : ℤ × ℤ → C → C

/-- A scene, and the output that it is drawn on. -/
structure OutputFrame (ι κ A C : Type) where
  outputSize : ℤ × ℤ
  outputTransform : Transform
  elements : List (RenderElement ι κ A C)
  clearColor : C

/-- An element that is drawn, and the opaque regions in front of it. -/
structure VisibleElement (ι κ A C : Type) where
  element : RenderElement ι κ A C
  front : List Rect
  opaqueRegions : List Rect

/-- How an element was drawn in the last frame. -/
structure ElementInstanceState (A : Type) where
  lastLook : A
  lastGeometry : Rect
  lastZIndex : ℕ

structure ElementState (κ A : Type) where
  lastCommit : κ
  lastInstances : List (ElementInstanceState A)

/-- What the tracker has recorded. -/
structure RendererState (ι κ A C : Type) where
  transform : Option Transform
  size : Option (ℤ × ℤ)
  elements : HashMap ι (ElementState κ A)
  oldDamage : List (List Rect)
  opaqueRegions : List Rect
  clearColor : Option C

/-- Nothing is recorded at first, nor after an error. -/
def RendererState.default {ι κ A C : Type} : RendererState ι κ A C := ⟨none, none, ∅, [], [], none⟩

/-- What the renderer reports. -/
inductive RenderOutputResult where
  /-- Nothing was damaged. -/
  | skipped
  | rendered (damage : List Rect)
  | renderingError

def maxAge : ℕ := 4

variable {ι κ A C : Type}

namespace RenderElement

/-- The position in an element of a pixel of the output. -/
def toLocal (e : RenderElement ι κ A C) (p : ℤ × ℤ) : ℤ × ℤ :=
  (p.1 - e.geometry.x, p.2 - e.geometry.y)

/-- Move regions of an element to where it is, and cut them to the output. -/
def place (e : RenderElement ι κ A C) (out : Rect) (regions : List Rect) : List Rect :=
  regions.filterMap fun r => (r.translate e.geometry.x e.geometry.y).intersection out

end RenderElement

namespace OutputFrame

variable (frame : OutputFrame ι κ A C)

/-- The transform that the output is rendered with. -/
def transform : Transform := frame.outputTransform.invert

def size : ℤ × ℤ := frame.transform.transformSize frame.outputSize

/-- The geometry of the output. -/
def out : Rect := ⟨0, 0, frame.size.1, frame.size.2⟩

end OutputFrame

def ElementInstanceState.matches [BEq A] (s : ElementInstanceState A) (e : RenderElement ι κ A C)
    (zIndex : ℕ) : Bool :=
  s.lastLook == e.look && s.lastGeometry == e.geometry && s.lastZIndex == zIndex

def ElementState.instanceMatches [BEq A] (s : ElementState κ A) (e : RenderElement ι κ A C)
    (zIndex : ℕ) : Bool :=
  s.lastInstances.any fun i => i.matches e zIndex

/-- Where the element was drawn on the output. -/
def ElementState.lastGeometries (s : ElementState κ A) (out : Rect) : List Rect :=
  s.lastInstances.filterMap fun i => i.lastGeometry.intersection out

/-! ### Damage -/

namespace DamageTracker

def visibleArea (rects : List Rect) : ℤ := (rects.map fun item => item.w * item.h).sum

/-- The elements that are on the output and not hidden behind opaque regions. -/
def visibleElements (out : Rect) :
    List Rect → List (RenderElement ι κ A C) → List (VisibleElement ι κ A C)
  | _, [] => []
  | front, e :: rest =>
    match e.geometry.intersection out with
    | none => visibleElements out front rest
    | some geometry =>
      if visibleArea (subtractRects [geometry] front) = 0 then visibleElements out front rest
      else
        ⟨e, front, e.place out e.opaqueRegions⟩ ::
          visibleElements out (front ++ e.place out e.opaqueRegions) rest

/-- All opaque regions that are drawn. -/
def opaqueRegions (visible : List (VisibleElement ι κ A C)) : List Rect :=
  visible.flatMap VisibleElement.opaqueRegions

section NewDamage

variable [DecidableEq ι] [BEq A] [DecidableEq C] (last : RendererState ι κ A C)

/-- The damage that the elements report. -/
def elementDamage (out : Rect) (visible : List (VisibleElement ι κ A C)) : List Rect :=
  visible.flatMap fun v =>
    v.element.place out
      (v.element.damageSince ((last.elements.get v.element.id).map ElementState.lastCommit))

/-- Where the elements were that are drawn no more. -/
def goneDamage (out : Rect) (visible : List (VisibleElement ι κ A C)) : List Rect :=
  -- in the order of insertion
  (last.elements.toList.reverse.filter fun entry =>
    !visible.any fun v => v.element.id == entry.1).flatMap fun entry => entry.2.lastGeometries out

/-- Where the elements are and were that have moved or look different. -/
def movedDamage (out : Rect) (visible : List (VisibleElement ι κ A C)) : List Rect :=
  visible.zipIdx.flatMap fun (v, zIndex) =>
    match last.elements.get v.element.id with
    | none => (v.element.geometry.intersection out).toList
    | some s =>
      if s.instanceMatches v.element zIndex then []
      else (v.element.geometry.intersection out).toList ++ s.lastGeometries out

/-- The size, the transform and the clear color of the output are those of the last frame. -/
def sameOutput (frame : OutputFrame ι κ A C) : Bool :=
  last.size == some frame.size && last.transform == some frame.transform &&
    last.clearColor == some frame.clearColor

/-- What has changed since the last frame. -/
def newDamage (frame : OutputFrame ι κ A C) : List Rect :=
  let visible := visibleElements frame.out [] frame.elements
  if sameOutput last frame then
    elementDamage last frame.out visible ++ goneDamage last frame.out visible ++
      movedDamage last frame.out visible ++
      -- no longer covered by opaque regions
      subtractRects last.opaqueRegions (opaqueRegions visible)
  else [frame.out]

/-- A buffer of an age is recent enough if the damage since is known. -/
def recentEnough (age : ℕ) : Bool := age > 0 && last.oldDamage.length ≥ age

/-- The old damage that is kept. -/
def keptDamage (age : ℕ) : List (List Rect) :=
  last.oldDamage.take (if recentEnough last age then age else maxAge)

/-- What has to be drawn into a buffer of an age. -/
def bufferDamage (age : ℕ) (frame : OutputFrame ι κ A C) : List Rect :=
  if recentEnough last age then
    newDamage last frame ++ ((keptDamage last age).take (age - 1)).flatten
  else [frame.out]

/-- Cut the damage to the output and shape it. -/
def shapedDamage (sort : UnstableSort Rect) (nearAll : ℤ → ℤ → Bool) (age : ℕ)
    (frame : OutputFrame ι κ A C) : List Rect :=
  Shaper.shapeDamage sort nearAll
    ((bufferDamage last age frame).filterMap fun rect => rect.intersection frame.out)

end NewDamage

section Record

variable [DecidableEq ι]

/-- Record an instance of an element; the commit is that of its first one. -/
def recordInstance (map : HashMap ι (ElementState κ A)) (entry : VisibleElement ι κ A C × ℕ) :
    HashMap ι (ElementState κ A) :=
  let e := entry.1.element
  let instance' : ElementInstanceState A := ⟨e.look, e.geometry, entry.2⟩
  match map.get e.id with
  | some s => map.insert e.id { s with lastInstances := s.lastInstances ++ [instance'] }
  | none => map.insert e.id ⟨e.currentCommit, [instance']⟩

/-- Record a frame. -/
def record (frame : OutputFrame ι κ A C) (oldDamage : List (List Rect)) :
    RendererState ι κ A C :=
  let visible := visibleElements frame.out [] frame.elements
  { transform := some frame.transform
    size := some frame.size
    elements := visible.zipIdx.foldl recordInstance ∅
    oldDamage := oldDamage
    opaqueRegions := opaqueRegions visible
    clearColor := some frame.clearColor }

end Record

/-! ### Drawing -/

/-- `frame.clear`. -/
def clear (color : C) (damage : List Rect) (buffer : ℤ × ℤ → C) : ℤ × ℤ → C := fun p =>
  if p ∈ covered damage then color else buffer p

/-- The damage of an element that is not hidden, at its position in the element. -/
def localDamage (damage : List Rect) (v : VisibleElement ι κ A C) : List Rect :=
  (subtractRects (damage.filterMap fun d => d.intersection v.element.geometry) v.front).map fun d =>
    { d with
      x := I32.satSub d.x v.element.geometry.x
      y := I32.satSub d.y v.element.geometry.y }

/-- Draw an element in each rectangle of its damage. -/
def drawElement (damage : List Rect) (v : VisibleElement ι κ A C) (buffer : ℤ × ℤ → C) :
    ℤ × ℤ → C := fun p =>
  (localDamage damage v).foldl
    (fun c d =>
      if v.element.toLocal p ∈ d.pixels then v.element.draw (v.element.toLocal p) c else c)
    (buffer p)

/-- Draw a frame in the damage, from the last element to the first. -/
def draw (damage : List Rect) (frame : OutputFrame ι κ A C) (buffer : ℤ × ℤ → C) : ℤ × ℤ → C :=
  let visible := visibleElements frame.out [] frame.elements
  visible.foldr (drawElement damage)
    (clear frame.clearColor (subtractRects damage (opaqueRegions visible)) buffer)

/-- `render_output`: draw a frame into a buffer of an age.  A renderer that fails leaves the buffer
in some state, and nothing stays recorded. -/
def renderOutput [DecidableEq ι] [BEq A] [DecidableEq C] (sort : UnstableSort Rect)
    (nearAll : ℤ → ℤ → Bool) (last : RendererState ι κ A C) (age : ℕ)
    (frame : OutputFrame ι κ A C) (failure : Option (ℤ × ℤ → C)) (buffer : ℤ × ℤ → C) :
    RenderOutputResult × RendererState ι κ A C × (ℤ × ℤ → C) :=
  let damage := shapedDamage last sort nearAll age frame
  if damage.isEmpty then
    (.skipped, { last with oldDamage := keptDamage last age }, buffer)
  else
    match failure with
    | some garbled => (.renderingError, .default, garbled)
    | none =>
      (.rendered damage, record frame (newDamage last frame :: keptDamage last age),
        draw damage frame buffer)

end DamageTracker

end WayRay
