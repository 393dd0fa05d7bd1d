import WayRay.Protocol.Messages
import WayRay.Stream.LengthPrefix

/-!
# The codec

`codec.rs`: a message is serialized by postcard and framed with a four-byte little-endian length.
Postcard itself is a parameter, one `Postcard α` for each message type `α`, with its round trip as
the only thing assumed of it.

`read_message` is a `Reader` of `LengthPrefix`, which can be resumed, under the size limit of the
codec.
-/

namespace WayRay

open LengthPrefix

/-- The serialization of a message type. -/
structure Postcard (α : Type) where
  /-- `postcard::to_allocvec`. -/
  toAllocvec : α → Option Bytes
  /-- `postcard::from_bytes`, which ignores bytes after the message. -/
  fromBytes : Bytes → Option α
  roundTrip : ∀ {m payload}, toAllocvec m = some payload → fromBytes payload = some m

/-- Upper bound on a single framed message. -/
def maxMessageSize : ℕ := 64 * 1024 * 1024

namespace Postcard

variable {α : Type} (pc : Postcard α)

/-- Encode a message to a length-prefixed byte vector.  The length is cut to 32 bits. -/
def encode (msg : α) : Option Bytes := (pc.toAllocvec msg).map frame

/-- Decode a message from a payload. -/
def decode (data : Bytes) : Option α := pc.fromBytes data

/-- The payload of a message that serializes. -/
def payload (msg : α) : Bytes := (pc.toAllocvec msg).getD []

/-- The messages serialize, each to less than `2 ^ 32` bytes. -/
def Sendable (sent : List α) : Prop :=
  ∀ m ∈ sent, ∃ p, pc.toAllocvec m = some p ∧ p.length < 2 ^ 32

/-- The bytes of a list of messages on a stream. -/
def streamOf (sent : List α) : Bytes := wire pc.payload sent

variable {pc} {sent : List α}

theorem Sendable.codec (h : pc.Sendable sent) :
    ∀ m ∈ sent, (pc.payload m).length < 2 ^ 32 ∧ pc.decode (pc.payload m) = some m := by
  intro m hm
  obtain ⟨p, hp, hlen⟩ := h m hm
  have hpayload : pc.payload m = p := by rw [payload, hp, Option.getD_some]
  rw [hpayload]
  exact ⟨hlen, pc.roundTrip hp⟩

/-- A stream is the concatenation of what `encode` makes of the messages. -/
theorem Sendable.streamOf_eq (h : pc.Sendable sent) :
    sent.mapM pc.encode = some (sent.map fun m => frame (pc.payload m)) ∧
      pc.streamOf sent = (sent.map fun m => frame (pc.payload m)).flatten := by
  refine ⟨?_, List.flatMap_def ..⟩
  induction sent with
  | nil => rfl
  | cons m sent ih =>
    obtain ⟨p, hp, -⟩ := h m List.mem_cons_self
    have hencode : pc.encode m = some (frame (pc.payload m)) := by
      rw [Postcard.encode, payload, hp, Option.map_some, Option.getD_some]
    rw [List.mapM_cons, hencode, ih fun m' hm' => h m' (List.mem_cons_of_mem _ hm')]
    rfl

/-! ### Small messages

Postcard writes the variant of an enumeration and every number below 128 as one byte.  These are its
serializations of the few messages that need no more than that. -/

/-- Serialize with `write` what `read` reads back, and nothing else. -/
def checked [DecidableEq α] (write : α → Bytes) (read : Bytes → Option α) : Postcard α where
  toAllocvec m := if read (write m) = some m then some (write m) else none
  fromBytes := read
  roundTrip {m payload} h := by
    split_ifs at h with hread
    rwa [← Option.some.inj h]

/-- Frames without regions. -/
def smallFrames : Postcard DisplayMessage :=
  checked (fun | .frameUpdate f => [0, f.sequence.toUInt8, 0, f.checksum.toUInt8]) fun
    | 0 :: sequence :: 0 :: checksum :: _ =>
      some (.frameUpdate ⟨sequence.toUInt64, [], checksum.toUInt32⟩)
    | _ => none

/-- Frame acknowledgements. -/
def smallAcks : Postcard ControlMessage :=
  checked (fun | .frameAck ack => [4, ack.sequence.toUInt8] | _ => []) fun
    | 4 :: sequence :: _ => some (.frameAck ⟨sequence.toUInt64⟩)
    | _ => none

/-- Key presses. -/
def smallPresses : Postcard InputMessage :=
  checked (fun | .keyboard key => [0, key.keycode.toUInt8, 0, key.time.toUInt8] | _ => []) fun
    | 0 :: keycode :: 0 :: time :: _ => some (.keyboard ⟨keycode.toUInt32, .pressed, time.toUInt32⟩)
    | _ => none

/-- The end of the audio stream. -/
def smallStops : Postcard AudioMessage :=
  checked (fun | .stop => [2] | _ => []) fun
    | 2 :: _ => some .stop
    | _ => none

end Postcard

end WayRay
