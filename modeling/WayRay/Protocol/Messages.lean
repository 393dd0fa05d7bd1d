/-!
# Wire protocol messages

The message types of the three channels of `wayray-protocol`: control (both directions), display
(server to client), input (client to server), and the audio stream the server may open.

Floating-point coordinates stand as their IEEE 754 bit patterns, which is how they travel.
-/

namespace WayRay

/-- A byte string. -/
abbrev Bytes := List UInt8

/-! ### Capabilities -/

namespace Caps

def display : String := "display"
def clipboard : String := "clipboard"
def audio : String := "audio"

end Caps

/-! ### Control channel -/

structure ClientHello where
  version : UInt32
  capabilities : List String
  /-- Session token for session lookup and creation; without one the server generates a token. -/
  token : Option String
deriving DecidableEq

structure ServerHello where
  version : UInt32
  sessionId : UInt64
  outputWidth : UInt32
  outputHeight : UInt32
  /-- Whether this is a resumed session or a new one. -/
  resumed : Bool
  token : String
deriving DecidableEq

/-- Session lifecycle state as seen by the client. -/
inductive SessionStatus where
  | creating
  | active
  | resuming
deriving DecidableEq

/-- Session-related control events sent by the server. -/
inductive SessionEvent where
  | stateChanged (sessionId : UInt64) (status : SessionStatus)
  | suspending (sessionId : UInt64)
  | destroyed (sessionId : UInt64)
  | resumed (sessionId : UInt64)
  | redirected (serverId addr : String)
deriving DecidableEq

/-- Answer to a `serverInfoRequest`: a server's load. -/
structure ServerInfoMsg where
  serverId : String
  activeSessions : UInt32
  capacity : UInt32
deriving DecidableEq

/-- Answer to a `sessionLookupRequest`: whether the server hosts a resumable session for the
token. -/
structure SessionLookupResponse where
  serverId : String
  hosts : Bool
deriving DecidableEq

inductive ProtocolErrorCode where
  | versionMismatch
  | other
deriving DecidableEq

structure ProtocolError where
  code : ProtocolErrorCode
  reason : String
deriving DecidableEq

structure ClipboardOffer where
  mimeTypes : List String
deriving DecidableEq

structure ClipboardData where
  mimeType : String
  data : Bytes
deriving DecidableEq

structure Ping where
  timestamp : UInt64
deriving DecidableEq

structure Pong where
  timestamp : UInt64
deriving DecidableEq

structure FrameAck where
  sequence : UInt64
deriving DecidableEq

inductive ControlMessage where
  | clientHello (hello : ClientHello)
  | serverHello (hello : ServerHello)
  | ping (ping : Ping)
  | pong (pong : Pong)
  | frameAck (ack : FrameAck)
  | sessionEvent (event : SessionEvent)
  | serverInfoRequest (auth : String)
  | serverInfo (info : ServerInfoMsg)
  | sessionLookupRequest (token auth : String)
  | sessionLookupResponse (response : SessionLookupResponse)
  | requestKeyframe
  | sessionRedirect (serverId addr : String)
  | protocolError (error : ProtocolError)
  | clipboardOffer (offer : ClipboardOffer)
  | clipboardData (data : ClipboardData)
deriving DecidableEq

/-! ### Clipboard payloads -/

/-- Maximum clipboard payload carried in a message. -/
def maxClipboardData : Nat := 1024 * 1024

/-- Whether a mime type designates plain text. -/
def isTextMime (mime : String) : Bool :=
  let lower := mime.toList.map Char.toLower
  "text/".toList.isPrefixOf lower || lower == "utf8_string".toList || lower == "string".toList ||
    lower == "text".toList

/-- Drop a split UTF-8 sequence from the end of a text, given in reverse. -/
def dropSplitSequence : List UInt8 → List UInt8
  | [] => []
  | last :: rest =>
    -- continuation bytes, then the leading byte of the sequence
    if last &&& 0xC0 = 0x80 then dropSplitSequence rest
    else if 0x80 ≤ last then rest
    else last :: rest

/-- Enforce the maximum on a clipboard payload.  Returns whether data was truncated, and the
data. -/
def capClipboardPayload (data : Bytes) (mime : String) : Bool × Bytes :=
  if data.length ≤ maxClipboardData then (false, data)
  else
    let data := data.take maxClipboardData
    (true, if isTextMime mime then (dropSplitSequence data.reverse).reverse else data)

/-! ### Display channel -/

/-- A rectangle of the frame with its compressed absolute pixels. -/
structure DamageRegion where
  x : UInt32
  y : UInt32
  width : UInt32
  height : UInt32
  data : Bytes
deriving DecidableEq

structure FrameUpdate where
  sequence : UInt64
  regions : List DamageRegion
  /-- Checksum of the server's full framebuffer after this frame. -/
  checksum : UInt32
deriving DecidableEq

inductive DisplayMessage where
  | frameUpdate (frame : FrameUpdate)
deriving DecidableEq

/-! ### Audio channel -/

inductive AudioCodec where
  | pcmS16Le
  | opus
deriving DecidableEq

structure AudioStart where
  sampleRate : UInt32
  channels : UInt8
  codec : AudioCodec
deriving DecidableEq

structure AudioChunk where
  ptsMicros : UInt64
  payload : Bytes
deriving DecidableEq

inductive AudioMessage where
  | start (start : AudioStart)
  | chunk (chunk : AudioChunk)
  | stop
deriving DecidableEq

/-! ### Input channel -/

inductive KeyState where
  | pressed
  | released
deriving DecidableEq

inductive ButtonState where
  | pressed
  | released
deriving DecidableEq

inductive Axis where
  | horizontal
  | vertical
deriving DecidableEq

structure KeyboardEvent where
  keycode : UInt32
  state : KeyState
  time : UInt32
deriving DecidableEq

structure PointerMotion where
  x : UInt64
  y : UInt64
  time : UInt32
deriving DecidableEq

structure PointerButton where
  button : UInt32
  state : ButtonState
  time : UInt32
deriving DecidableEq

structure PointerAxis where
  axis : Axis
  value : UInt64
  time : UInt32
deriving DecidableEq

inductive InputMessage where
  | keyboard (event : KeyboardEvent)
  | pointerMotion (event : PointerMotion)
  | pointerButton (event : PointerButton)
  | pointerAxis (event : PointerAxis)
deriving DecidableEq

end WayRay
