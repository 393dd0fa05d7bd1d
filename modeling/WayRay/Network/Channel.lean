import Mathlib.Data.Nat.Notation
import WayRay.Protocol.Messages

/-!
# Between the network thread and the compositor

The messages that the two threads exchange over their channels, and the capabilities of a client
that the network thread keeps with a connection.
-/

namespace WayRay

/-! ### To the compositor -/

/-- Resolved session binding, the compositor's answer to a connecting client it serves. -/
structure SessionBinding where
  sessionId : ℕ
  resumed : Bool
  token : String
deriving DecidableEq

/-- The compositor's decision for a connecting client. -/
inductive ConnectDecision where
  | bind (binding : SessionBinding)
  | redirect (serverId addr : String)
deriving DecidableEq

/-- Messages sent from the network thread to the compositor. -/
inductive NetToCompositor where
  | input (msg : InputMessage)
  | control (msg : ControlMessage)
  | clientConnected (hello : ClientHello) (remoteAddr : String)
  | clientDisconnected
deriving DecidableEq

/-- A message of the client. -/
def NetToCompositor.isRelayed : NetToCompositor → Bool
  | input _ | control _ => true
  | clientConnected _ _ | clientDisconnected => false

def NetToCompositor.isConnected : NetToCompositor → Bool
  | clientConnected _ _ => true
  | input _ | control _ | clientDisconnected => false

/-! ### To the network thread -/

/-- Messages sent from the compositor to the network thread. -/
inductive CompositorToNet where
  /-- An incremental frame update. -/
  | sendFrame (frame : FrameUpdate)
  /-- A full keyframe, which marks the start of the valid stream for a freshly connected client. -/
  | sendKeyframe (frame : FrameUpdate)
  | sendControl (msg : ControlMessage)
  | sendAudio (msg : AudioMessage)
  | shutdown
deriving DecidableEq

def CompositorToNet.isKeyframe : CompositorToNet → Bool
  | sendKeyframe _ => true
  | _ => false

/-- Capabilities advertised by a client in its hello. -/
structure ClientCapabilities where
  display : Bool
  clipboard : Bool
  audio : Bool
deriving DecidableEq

/-- Resolve an advertised capability list; unknown names are ignored. -/
def ClientCapabilities.fromAdvertised (advertised : List String) : ClientCapabilities where
  display := advertised.contains Caps.display
  clipboard := advertised.contains Caps.clipboard
  audio := advertised.contains Caps.audio

/-- Whether a control message is part of the clipboard sync. -/
def ControlMessage.isClipboard : ControlMessage → Bool
  | clipboardOffer _ | clipboardData _ => true
  | _ => false

end WayRay
