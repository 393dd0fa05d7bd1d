import WayRay.Protocol.Encoding

/-!
# The client's framebuffer

What `run_session_loop` does with a frame: it applies the regions to the framebuffer, and asks for a
keyframe if the checksum of the result is not the server's.
-/

namespace WayRay

open Encoding

/-- The framebuffer of a connection. -/
structure ClientScreen where
  framebuffer : Bytes
  stride : ℕ
  /-- A keyframe has been asked for and the screen has not agreed with the server since. -/
  keyframePending : Bool

namespace ClientScreen

/-- The checksum of the framebuffer; a stride of zero panics. -/
def localChecksum (c : ClientScreen) : Option UInt32 :=
  if c.stride = 0 then none
  else checksum c.framebuffer c.stride c.stride (c.framebuffer.length / c.stride)

/-- Apply damage regions to the persistent framebuffer. -/
def applyRegions (zstd : Zstd) (c : ClientScreen) (regions : List DamageRegion) :
    Option ClientScreen :=
  (regions.foldlM (fun framebuffer region => applyRegion zstd framebuffer c.stride region)
    c.framebuffer).map fun framebuffer => { c with framebuffer := framebuffer }

/-- Apply a frame; the answer says whether to request a keyframe. -/
def receiveFrame (zstd : Zstd) (c : ClientScreen) (update : FrameUpdate) :
    Option (ClientScreen × Bool) :=
  (c.applyRegions zstd update.regions).bind fun c =>
    c.localChecksum.map fun own =>
      if own = update.checksum then ({ c with keyframePending := false }, false)
      -- one request until a frame agrees again
      else ({ c with keyframePending := true }, !c.keyframePending)

end ClientScreen

end WayRay
