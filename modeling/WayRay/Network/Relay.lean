import Mathlib.Logic.Function.Basic
import WayRay.Network.Channel
import WayRay.Protocol.Codec

/-!
# The relay loop of a connection

The loop at the end of `serve_client`: a `select!` over accepting the client's input stream, reading
a control message, reading an input message and working off the compositor's queue.  When one branch
completes, the futures of the others are dropped and begin anew in the next turn.

* `Relay` is the state of the loop: the two receiving ends with their reads under way, the two
  channels to the compositor, and the three outgoing streams with the write under way.
* `RelayEvent` is what can happen between two states: bytes arrive, the compositor queues a message,
  or one of the branches is polled.  Branches are polled in any order.
* `completes` says which events complete a branch without ending the loop, and `nextTurn` is what
  that does to the other branches.
-/

namespace WayRay

open LengthPrefix

/-- The serialization of the four message types. -/
structure Codecs where
  control : Postcard ControlMessage
  input : Postcard InputMessage
  display : Postcard DisplayMessage
  audio : Postcard AudioMessage

/-- The serialization of a few small messages. -/
def Codecs.small : Codecs :=
  ⟨Postcard.smallAcks, Postcard.smallPresses, Postcard.smallFrames, Postcard.smallStops⟩

/-- The streams a connection writes to. -/
inductive OutStream where
  | control
  | display
  | audio
deriving DecidableEq

/-- The display and the audio stream are opened only for clients that asked for them. -/
def ClientCapabilities.opens (capabilities : ClientCapabilities) : OutStream → Bool
  | .control => true
  | .display => capabilities.display
  | .audio => capabilities.audio

/-- The streams a connection reads from. -/
inductive InStream where
  | control
  | input
deriving DecidableEq

/-- State of the relay loop. -/
structure Relay where
  capabilities : ClientCapabilities
  controlRecv : Receiver maxMessageSize
  inputRecv : Receiver maxMessageSize
  /-- The input stream has not been accepted yet. -/
  acceptingInput : Bool
  /-- What has been sent to the compositor. -/
  compositorTx : List NetToCompositor
  /-- The queue of the compositor's messages. -/
  compositorRx : List CompositorToNet
  /-- The messages taken off the queue so far. -/
  popped : List CompositorToNet
  keyframeSeen : Bool
  /-- The bytes each outgoing stream has accepted; none if the stream is not open. -/
  sends : OutStream → Option Bytes
  /-- The write under way, with the bytes not yet accepted. -/
  writing : Option (OutStream × Bytes)
  /-- `serve_client` has returned. -/
  ended : Bool

/-- What happens to a connection. -/
inductive RelayEvent where
  /-- The next `n` bytes arrive. -/
  | arrive (stream : InStream) (n : ℕ)
  /-- A receive stream is finished or reset. -/
  | finish (stream : InStream)
  /-- The compositor queues a message. -/
  | queue (msg : CompositorToNet)
  /-- `accept_uni` is done. -/
  | acceptInput (ok : Bool)
  | readControl
  | readInput
  /-- `check_compositor_commands` goes on: the write under way has `n` bytes accepted, or the next
  message is taken off the queue. -/
  | command (n : ℕ)
  /-- A write fails, or the compositor's end of the queue is gone. -/
  | fail

namespace Relay

/-! ### Writing -/

/-- Begin to write a message, unless its stream is not open. -/
def write (r : Relay) (stream : OutStream) (encoded : Option Bytes) : Relay :=
  match r.sends stream, encoded with
  -- the client did not ask for the stream: the message is dropped
  | none, _ => r
  | some _, some bytes => { r with writing := some (stream, bytes) }
  -- a message that does not serialize ends the connection
  | some _, none => { r with ended := true }

/-- Work off one message of the queue. -/
def forward (codecs : Codecs) (r : Relay) : CompositorToNet → Relay
  | .sendFrame frame =>
    -- before the keyframe of this connection, a frame is stale
    if r.keyframeSeen then r.write .display (codecs.display.encode (.frameUpdate frame)) else r
  | .sendKeyframe frame =>
    { r with keyframeSeen := true }.write .display (codecs.display.encode (.frameUpdate frame))
  | .sendControl msg =>
    if msg.isClipboard && !r.capabilities.clipboard then r
    else r.write .control (codecs.control.encode msg)
  | .sendAudio msg => r.write .audio (codecs.audio.encode msg)
  | .shutdown => { r with ended := true }

theorem write_eq (r : Relay) (stream : OutStream) (encoded : Option Bytes) :
    ∃ writing ended, r.write stream encoded = { r with writing := writing, ended := ended } := by
  unfold write
  split <;> exact ⟨_, _, rfl⟩

/-- Working off a message changes the gate, the write under way and whether the loop goes on. -/
theorem forward_eq (codecs : Codecs) (r : Relay) (msg : CompositorToNet) :
    ∃ seen writing ended, r.forward codecs msg =
      { r with keyframeSeen := seen, writing := writing, ended := ended } := by
  have hwrite : ∀ (r : Relay) stream encoded, ∃ seen writing ended, r.write stream encoded =
      { r with keyframeSeen := seen, writing := writing, ended := ended } := by
    intro r stream encoded
    obtain ⟨writing, ended, heq⟩ := r.write_eq stream encoded
    exact ⟨r.keyframeSeen, writing, ended, heq⟩
  cases msg with
  | sendFrame frame =>
    simp only [forward]
    split_ifs
    · exact hwrite _ _ _
    · exact ⟨_, _, _, rfl⟩
  | sendKeyframe frame =>
    obtain ⟨seen, writing, ended, heq⟩ := hwrite { r with keyframeSeen := true } .display
      (codecs.display.encode (.frameUpdate frame))
    exact ⟨seen, writing, ended, heq⟩
  | sendControl msg =>
    simp only [forward]
    split_ifs
    · exact ⟨_, _, _, rfl⟩
    · exact hwrite _ _ _
  | sendAudio msg => exact hwrite _ _ _
  | shutdown => exact ⟨_, _, _, rfl⟩

/-- The stream accepts up to `n` bytes of the write under way. -/
def accept (r : Relay) (stream : OutStream) (bytes : Bytes) (n : ℕ) : Relay :=
  { r with
    sends := Function.update r.sends stream ((r.sends stream).map (· ++ bytes.take n))
    writing := if bytes.length ≤ n then none else some (stream, bytes.drop n) }

/-- The next message is taken off the queue. -/
def taken (r : Relay) (msg : CompositorToNet) (rest : List CompositorToNet) : Relay :=
  { r with compositorRx := rest, popped := r.popped ++ [msg] }

/-- One step of `check_compositor_commands`. -/
def checkCompositorCommands (codecs : Codecs) (r : Relay) (n : ℕ) : Relay :=
  match r.writing with
  | some (stream, bytes) => r.accept stream bytes n
  | none =>
    match r.compositorRx with
    | [] => r
    -- popped before anything of it is written
    | msg :: rest => (r.taken msg rest).forward codecs msg

/-! ### The loop -/

/-- A branch has completed: the futures of the other branches are dropped. -/
def nextTurn (r : Relay) : Relay :=
  { r with
    controlRecv := r.controlRecv.cancel
    inputRecv := r.inputRecv.cancel
    writing := none }

def finishAccept (r : Relay) (ok : Bool) : Relay :=
  if !r.acceptingInput then r
  else if ok then { r with acceptingInput := false }.nextTurn
  else { r with ended := true }

def readControl (codecs : Codecs) (r : Relay) : Relay :=
  match r.controlRecv.poll codecs.control.decode with
  | (some (.ok ctrl), recv) =>
    { r with
      controlRecv := recv
      compositorTx := r.compositorTx ++ [NetToCompositor.control ctrl] }.nextTurn
  | (some (.error _), recv) => { r with controlRecv := recv, ended := true }
  | (none, recv) => { r with controlRecv := recv }

def readInput (codecs : Codecs) (r : Relay) : Relay :=
  if r.acceptingInput then r
  else
    match r.inputRecv.poll codecs.input.decode with
    | (some (.ok input), recv) =>
      { r with
        inputRecv := recv
        compositorTx := r.compositorTx ++ [NetToCompositor.input input] }.nextTurn
    | (some (.error _), recv) => { r with inputRecv := recv, ended := true }
    | (none, recv) => { r with inputRecv := recv }

def step (codecs : Codecs) (r : Relay) : RelayEvent → Relay
  | .arrive .control n => { r with controlRecv := r.controlRecv.arrive n }
  | .arrive .input n => { r with inputRecv := r.inputRecv.arrive n }
  | .finish .control => { r with controlRecv := r.controlRecv.finish }
  | .finish .input => { r with inputRecv := r.inputRecv.finish }
  | .queue msg => { r with compositorRx := r.compositorRx ++ [msg] }
  | .acceptInput ok => if r.ended then r else r.finishAccept ok
  | .readControl => if r.ended then r else r.readControl codecs
  | .readInput => if r.ended then r else r.readInput codecs
  | .command n => if r.ended then r else r.checkCompositorCommands codecs n
  | .fail => { r with ended := true }

def run (codecs : Codecs) (r : Relay) (events : List RelayEvent) : Relay :=
  events.foldl (step codecs) r

/-- The loop at its start.  `greeting` is what the handshake has written to the streams it opened,
and `compositorRx` what is left in the queue from before. -/
def start (codecs : Codecs) (advertised : List String) (control : List ControlMessage)
    (input : List InputMessage) (greeting : OutStream → Bytes)
    (compositorRx : List CompositorToNet) : Relay :=
  let capabilities := ClientCapabilities.fromAdvertised advertised
  { capabilities := capabilities
    controlRecv := .start (codecs.control.streamOf control)
    inputRecv := .start (codecs.input.streamOf input)
    acceptingInput := true
    compositorTx := []
    compositorRx := compositorRx
    popped := []
    keyframeSeen := false
    sends stream := if capabilities.opens stream then some (greeting stream) else none
    writing := none
    ended := false }

/-- The event completes a branch and the loop goes on. -/
def completes (codecs : Codecs) (r : Relay) (event : RelayEvent) : Bool :=
  !r.ended &&
    match event with
    | .acceptInput ok => r.acceptingInput && ok
    | .readControl => ((r.controlRecv.poll codecs.control.decode).1 matches some (.ok _))
    | .readInput =>
      !r.acceptingInput && ((r.inputRecv.poll codecs.input.decode).1 matches some (.ok _))
    | _ => false

end Relay

end WayRay
