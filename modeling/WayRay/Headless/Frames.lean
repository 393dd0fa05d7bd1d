import WayRay.Headless.Compositor
import WayRay.Protocol.Encoding

/-!
# The frames the compositor sends

`send_frame_to_network`: after a render, the compositor sends the client what has changed, as
regions of absolute pixels, or the whole frame.

A frame that is the same as the last one sent is skipped unless a keyframe is due.  A keyframe is
due when a client has connected or asked for one, and after `keyframeInterval` delta frames.
-/

namespace WayRay

open Encoding

/-- The mode of the output, and the bytes of a row of the render buffer. -/
structure OutputMode where
  width : ℕ
  height : ℕ
  stride : ℕ
  width_pos : 0 < width
  width_lt : width < 2 ^ 31
  height_lt : height < 2 ^ 31
  stride_le : width * bpp ≤ stride

/-- The bytes of the render buffer. -/
def OutputMode.frameSize (o : OutputMode) : ℕ := o.stride * o.height

/-- A damage rectangle. -/
structure Rect where
  x : ℤ
  y : ℤ
  w : ℤ
  h : ℤ
deriving DecidableEq

/-- The rectangle lies inside the output. -/
structure Rect.Inside (o : OutputMode) (r : Rect) : Prop where
  x_nonneg : 0 ≤ r.x
  y_nonneg : 0 ≤ r.y
  w_nonneg : 0 ≤ r.w
  h_nonneg : 0 ≤ r.h
  right_le : r.x + r.w ≤ o.width
  bottom_le : r.y + r.h ≤ o.height

/-- The rectangle contains the pixel at column `col` of row `row`. -/
def Rect.Contains (r : Rect) (row col : ℕ) : Prop :=
  r.y ≤ row ∧ row < r.y + r.h ∧ r.x ≤ col ∧ col < r.x + r.w

/-- Maximum delta frames between keyframes. -/
def keyframeInterval : ℕ := 120

/-! ### Encoding a frame -/

/-- Encode a damage rectangle, clamped to the output. -/
def encodeRect (zstd : Zstd) (o : OutputMode) (pixels : Bytes) (r : Rect) : Option DamageRegion :=
  encodeRegion zstd pixels o.stride
    (UInt32.ofNat (max r.x 0).toNat)
    (UInt32.ofNat (max r.y 0).toNat)
    (UInt32.ofNat (max (min r.w (o.width - max r.x 0)) 0).toNat)
    (UInt32.ofNat (max (min r.h (o.height - max r.y 0)) 0).toNat)

/-- The whole frame as a single region. -/
def encodeFull (zstd : Zstd) (o : OutputMode) (pixels : Bytes) : Option (List DamageRegion) :=
  (encodeRegion zstd pixels o.stride 0 0 (UInt32.ofNat o.width) (UInt32.ofNat o.height)).map ([·])

/-- The damaged regions, without the empty ones. -/
def encodeDamage (zstd : Zstd) (o : OutputMode) (pixels : Bytes) (rects : List Rect) :
    Option (List DamageRegion) :=
  (rects.mapM (encodeRect zstd o pixels)).map
    fun regions => regions.filter fun r => 0 < r.width ∧ 0 < r.height

/-- The regions of a frame: the damage if the tracker reports any and no keyframe is due, else the
whole frame. -/
def encodeRegions (zstd : Zstd) (o : OutputMode) (forceKeyframe : Bool) (pixels : Bytes) :
    Option (List Rect) → Option (List DamageRegion)
  | some rects =>
    -- no rectangles at all do not mean that nothing has changed
    if !rects.isEmpty && !forceKeyframe then encodeDamage zstd o pixels rects
    else encodeFull zstd o pixels
  | none => encodeFull zstd o pixels

/-! ### Sending it -/

/-- The frame a render gives rise to, if it is not skipped; the frame state afterwards. -/
def FrameState.nextFrame (zstd : Zstd) (o : OutputMode) (f : FrameState) (pixels : Bytes)
    (damage : Option (List Rect)) : Option (FrameState × Option CompositorToNet) :=
  -- the padding of the rows is compared, too
  if !f.forceKeyframe && pixels == f.previousFrame then some (f, none)
  else
    let isKeyframe := f.forceKeyframe || decide (keyframeInterval ≤ f.framesSinceKeyframe)
    (encodeRegions zstd o isKeyframe pixels damage).bind fun regions =>
      (checksum pixels o.stride (o.width * bpp) o.height).map fun checksum =>
        let frame : FrameUpdate := ⟨UInt64.ofNat (f.frameSequence + 1), regions, checksum⟩
        ({ previousFrame := pixels
           frameSequence := f.frameSequence + 1
           forceKeyframe := false
           framesSinceKeyframe := if isKeyframe then 0 else f.framesSinceKeyframe + 1 },
          some (if isKeyframe then .sendKeyframe frame else .sendFrame frame))

namespace CalloopData

variable {S : Type}

/-- Send the frame to the network thread, unless that is gone. -/
def sendFrameToNetwork (zstd : Zstd) (o : OutputMode) (d : CalloopData S) (netAlive : Bool)
    (pixels : Bytes) (damage : Option (List Rect)) :
    Option (CalloopData S × Option CompositorToNet) :=
  (d.toFrameState.nextFrame zstd o pixels damage).map fun (frames, msg) =>
    match msg with
    | none => ({ d with toFrameState := frames }, none)
    | some msg =>
      if netAlive then ({ d with toFrameState := frames }, some msg)
      -- the frame counts as sent all the same
      else ({ d with toFrameState := frames, clientConnected := false }, none)

/-- A successful render: the frame is sent if a client is connected. -/
def renderHeadlessFrame (zstd : Zstd) (o : OutputMode) (d : CalloopData S) (netAlive : Bool)
    (pixels : Bytes) (damage : Option (List Rect)) :
    Option (CalloopData S × Option CompositorToNet) :=
  if d.clientConnected then d.sendFrameToNetwork zstd o netAlive pixels damage else some (d, none)

end CalloopData

end WayRay
