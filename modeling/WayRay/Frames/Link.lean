import WayRay.Client.Screen
import WayRay.Headless.Frames

/-!
# From the render loop to the screen

The compositor, the queue to the network thread, and the connection that takes frames off it and the
client that applies them.

`FrameSystem` is the state, `FrameEvent` what can happen: the compositor handles a network event,
renders or fails to; a connection begins or ends; the network thread takes the next message off the
queue, which is dropped while there is no connection, and while the connection has not seen its
keyframe.  Frames are delivered in order, so that taking one off the queue and applying it is one
step.
-/

namespace WayRay

open Encoding

/-- A connection, as far as frames go. -/
structure FrameConnection where
  keyframeSeen : Bool
  screen : ClientScreen
  /-- The last frame applied, with the pixels of the render it comes from. -/
  shown : Option (FrameUpdate × Bytes)

/-- The compositor, the queue and the connection. -/
structure FrameSystem (S : Type) where
  compositor : CalloopData S
  /-- The pixels of the last successful render. -/
  rendered : Option Bytes
  /-- The queue to the network thread; a frame goes with the pixels of its render. -/
  queue : List (CompositorToNet × Bytes)
  /-- All frames queued so far. -/
  sent : List CompositorToNet
  connection : Option FrameConnection
  /-- The server or the client has panicked over a frame. -/
  panicked : Bool

/-- What happens to frames, and to what they depend on. -/
inductive FrameEvent (S : Type) where
  /-- The compositor handles an event of the network thread. -/
  | net (env : Surroundings) (event : NetToCompositor)
  | netClosed
  | cleanup (cleanedAt prunedAt : Clock)
  /-- Wayland clients change the desktop. -/
  | dispatch (state : S)
  /-- The compositor queues a control message. -/
  | control (msg : ControlMessage)
  /-- A render succeeds; `netAlive` if the network thread is there. -/
  | render (pixels : Bytes) (damage : Option (List Rect)) (netAlive : Bool)
  | renderFailed
  /-- The network thread begins to serve a client, whose framebuffer has this content. -/
  | serve (framebuffer : Bytes)
  /-- The connection ends. -/
  | hangUp
  /-- The network thread takes the next message off the queue. -/
  | pop

namespace FrameSystem

variable {S : Type} (zstd : Zstd) (o : OutputMode) (desktop : Desktop S)

def render (s : FrameSystem S) (pixels : Bytes) (damage : Option (List Rect)) (netAlive : Bool) :
    FrameSystem S :=
  match s.compositor.renderHeadlessFrame zstd o netAlive pixels damage with
  | none => { s with panicked := true }
  | some (compositor, msg) =>
    { s with
      compositor := compositor
      rendered := some pixels
      queue := s.queue ++ msg.toList.map fun msg => (msg, pixels)
      sent := s.sent ++ msg.toList }

/-- The client applies a frame. -/
def applyFrame (s : FrameSystem S) (c : FrameConnection) (frame : FrameUpdate) (pixels : Bytes) :
    FrameSystem S :=
  match c.screen.receiveFrame zstd frame with
  | none => { s with panicked := true }
  | some (screen, _) => { s with connection := some ⟨true, screen, some (frame, pixels)⟩ }

/-- `check_compositor_commands` deals with a message; it forwards no frame before the keyframe of
the connection. -/
def forward (s : FrameSystem S) (c : FrameConnection) (pixels : Bytes) :
    CompositorToNet → FrameSystem S
  | .sendFrame frame => if c.keyframeSeen then applyFrame zstd s c frame pixels else s
  | .sendKeyframe frame => applyFrame zstd s c frame pixels
  | .sendControl _ | .sendAudio _ => s
  | .shutdown => { s with connection := none }

def pop (s : FrameSystem S) : FrameSystem S :=
  match s.queue with
  | [] => s
  | (msg, pixels) :: rest =>
    match s.connection with
    | none => { s with queue := rest }
    | some c => forward zstd { s with queue := rest } c pixels msg

def step (s : FrameSystem S) : FrameEvent S → FrameSystem S
  | .net env event => { s with compositor := (s.compositor.drainEvent desktop env event).2 }
  | .netClosed => { s with compositor := { s.compositor with clientConnected := false } }
  | .cleanup cleanedAt prunedAt =>
    { s with compositor := s.compositor.cleanupTick cleanedAt prunedAt }
  | .dispatch state => { s with compositor := { s.compositor with state := state } }
  | .control msg => { s with queue := s.queue ++ [(.sendControl msg, [])] }
  | .render pixels damage netAlive => s.render zstd o pixels damage netAlive
  | .renderFailed => s
  | .serve framebuffer =>
    { s with connection := some ⟨false, ⟨framebuffer, o.width * bpp, false⟩, none⟩ }
  | .hangUp => { s with connection := none }
  | .pop => s.pop zstd

def run (s : FrameSystem S) (events : List (FrameEvent S)) : FrameSystem S :=
  events.foldl (step zstd o desktop) s

/-- The system when the compositor enters its main loop. -/
def boot (state : S) (cluster : ClusterConfig) (peerRt launcherLinked : Bool)
    (stateDb : Option SessionTable) (clk : Clock)
    (find : Enumeration (SessionId × SessionRecord)) : FrameSystem S where
  compositor :=
    CalloopData.boot state ⟨List.replicate o.frameSize 0, 0, false, 0⟩ cluster peerRt launcherLinked
      stateDb clk find
  rendered := none
  queue := []
  sent := []
  connection := none
  panicked := false

end FrameSystem

end WayRay
