import WayRay.Protocol.Codec
import WayRay.Stream.Serial

/-!
# What the sender frames and the receiver accepts

`check_message_size` is a matter of the receiver: `encode` frames a payload of any length, and cuts
the length to 32 bits.  `accepted_refuses_iff` says for which messages that does no harm: those
whose payload is at most `maxMessageSize`.  A larger one is refused by the receiver, or it reads a
frame of another length (`accepted_iff`).

`displayMessages` is postcard's serialization of the display channel, of any frame.
-/

namespace WayRay

open LengthPrefix

namespace Postcard

variable {α : Type} (pc : Postcard α)

/-- Whatever follows on the stream, the receiver returns the message that was framed and leaves the
stream at the first byte after it. -/
def Accepted (m : α) : Prop :=
  ∀ bytes, pc.encode m = some bytes → ∀ rest,
    (Reader.fresh : Reader maxMessageSize).poll pc.decode (bytes ++ rest) = (.ready (.ok m), rest)

/-- A message that is too large for the receiver is not framed. -/
def RefusesTooLarge (m : α) : Prop :=
  ∀ payload, pc.toAllocvec m = some payload → maxMessageSize < payload.length → pc.encode m = none

variable {pc} {m : α} {payload : Bytes}

theorem encode_eq_some (h : pc.toAllocvec m = some payload) :
    pc.encode m = some (frame payload) := by
  rw [encode, h, Option.map_some]

/-- A payload within the limit is read back. -/
theorem poll_payload (h : pc.toAllocvec m = some payload) (hmax : payload.length ≤ maxMessageSize)
    (rest : Bytes) :
    (Reader.fresh : Reader maxMessageSize).poll pc.decode (frame payload ++ rest) =
      (.ready (.ok m), rest) :=
  Reader.poll_fresh_frame hmax (hmax.trans_lt (by decide)) (pc.roundTrip h) rest

/-- A frame that the receiver reads as a whole is within the limit: its length is neither refused
nor cut. -/
theorem length_le_of_poll {rest : Bytes}
    (h : (Reader.fresh : Reader maxMessageSize).poll pc.decode (frame payload ++ rest) =
      (.ready (.ok m), rest)) : payload.length ≤ maxMessageSize := by
  obtain ⟨p, hp, hbytes, -⟩ := Reader.poll_ok h
  have hframes : frame payload = frame p := List.append_cancel_right hbytes
  obtain ⟨hlength, rfl⟩ := List.append_inj hframes rfl
  by_contra hlarge
  have htake : (frame payload ++ rest).take 4 = le32 payload.length := rfl
  have hbegins : ofLe32 ((frame payload ++ rest).take 4) = payload.length := by
    rw [htake, ofLe32_le32 hp]
  have hfour : 4 ≤ (frame payload ++ rest).length := by
    simp only [frame, List.length_append, length_le32]
    omega
  rw [Reader.poll_fresh_tooLarge hfour (by rw [hbegins]; omega)] at h
  cases h

/-- The receiver accepts what is framed if the payload is within its limit, and only then. -/
theorem accepted_iff :
    pc.Accepted m ↔
      ∀ payload, pc.toAllocvec m = some payload → payload.length ≤ maxMessageSize := by
  constructor
  · intro h payload hpayload
    exact length_le_of_poll (h _ (encode_eq_some hpayload) [])
  · intro h bytes hbytes rest
    obtain ⟨payload, hpayload, rfl⟩ := Option.map_eq_some_iff.mp hbytes
    exact poll_payload hpayload (h payload hpayload) rest

/-- **What the sender frames, the receiver accepts**, and what it would not accept is not framed, if
and only if the payload is at most `maxMessageSize`. -/
theorem accepted_refuses_iff (pc : Postcard α) (m : α) :
    pc.Accepted m ∧ pc.RefusesTooLarge m ↔
      ∀ payload, pc.toAllocvec m = some payload → payload.length ≤ maxMessageSize := by
  rw [accepted_iff]
  refine ⟨fun h => h.1, fun h => ⟨h, fun payload hpayload hlarge => ?_⟩⟩
  exact absurd (h payload hpayload) (not_le.mpr hlarge)

/-! ### The display channel -/

/-- Messages in a serial format; bytes after a message are ignored. -/
def ofSerial (s : Serial α) : Postcard α where
  toAllocvec := s.write
  fromBytes data := (s.read data).map Prod.fst
  roundTrip {m payload} h := by
    have hread := s.read_write h []
    rw [List.append_nil] at hread
    rw [hread, Option.map_some]

/-- A `u32`: at most five bytes. -/
def u32 : Serial UInt32 :=
  (Serial.varint 5 (2 ^ 32) (by decide) (by decide)).convert UInt32.toNat
    (fun n => some (UInt32.ofNat n)) fun b => congrArg some UInt32.ofNat_toNat

/-- A `u64`: at most ten bytes. -/
def u64 : Serial UInt64 :=
  (Serial.varint 10 (2 ^ 64) (by decide) (by decide)).convert UInt64.toNat
    (fun n => some (UInt64.ofNat n)) fun b => congrArg some UInt64.ofNat_toNat

/-- The number of elements, a `usize`. -/
def count : Serial ℕ := .varint 10 (2 ^ 64) (by decide) (by decide)

def damageRegion : Serial DamageRegion :=
  (u32.pair (u32.pair (u32.pair (u32.pair (.list count .byte))))).convert
    (fun g => (g.x, g.y, g.width, g.height, g.data))
    (fun (x, y, width, height, data) => some ⟨x, y, width, height, data⟩) fun _ => rfl

def frameUpdate : Serial FrameUpdate :=
  (u64.pair (.pair (.list count damageRegion) u32)).convert
    (fun f => (f.sequence, f.regions, f.checksum))
    (fun (sequence, regions, checksum) => some ⟨sequence, regions, checksum⟩) fun _ => rfl

/-- Every message of the display channel: its only variant is number 0. -/
def displayMessages : Postcard DisplayMessage :=
  .ofSerial <| (Serial.tagged (.varint 5 (2 ^ 32) (by decide) (by decide)) 0 frameUpdate).convert
    (fun (.frameUpdate f) => f) (fun f => some (.frameUpdate f)) fun _ => rfl

example : displayMessages.toAllocvec (.frameUpdate ⟨300, [⟨1, 2, 3, 4, [9, 8]⟩], 5⟩) =
    some [0, 0xAC, 0x02, 1, 1, 2, 3, 4, 2, 9, 8, 5] := by decide

theorem write_u32 (x : UInt32) : u32.write x = some (writeVarint 5 x.toNat) := if_pos x.toNat_lt

theorem write_u64 (x : UInt64) : u64.write x = some (writeVarint 10 x.toNat) := if_pos x.toNat_lt

theorem write_count {n : ℕ} (h : n < 2 ^ 64) : count.write n = some (writeVarint 10 n) := if_pos h

/-- A frame of one region serializes to more bytes than the data of the region. -/
theorem exists_payload {f : FrameUpdate} {g : DamageRegion} (hregions : f.regions = [g])
    (hdata : g.data.length < 2 ^ 64) :
    ∃ payload, displayMessages.toAllocvec (.frameUpdate f) = some payload ∧
      g.data.length < payload.length := by
  have hbytes : (Serial.list count .byte).write g.data =
      some (writeVarint 10 g.data.length ++ g.data) :=
    Serial.write_list (write_count hdata) (Serial.writeAll_byte g.data)
  have hregion : damageRegion.write g = some _ :=
    Serial.write_pair (write_u32 g.x) <| Serial.write_pair (write_u32 g.y) <|
      Serial.write_pair (write_u32 g.width) <| Serial.write_pair (write_u32 g.height) hbytes
  have hlist : (Serial.list count damageRegion).write [g] = some _ :=
    Serial.write_list (write_count (by simp)) (Serial.writeAll_singleton hregion)
  rw [← hregions] at hlist
  have hframe : frameUpdate.write f = some _ :=
    Serial.write_pair (write_u64 f.sequence) <| Serial.write_pair hlist (write_u32 f.checksum)
  have htag : (Serial.varint 5 (2 ^ 32) (by decide) (by decide)).write 0 = some [0] := rfl
  refine ⟨_, Serial.write_pair htag hframe, ?_⟩
  simp only [List.length_append, List.length_singleton]
  omega

/-- The whole of a 4096 by 4096 output, which takes 64 MiB if it cannot be compressed. -/
def hugeFrame : FrameUpdate := ⟨1, [⟨0, 0, 4096, 4096, List.replicate maxMessageSize 0⟩], 0⟩

/-- A frame that is too large for the receiver is framed all the same. -/
theorem hugeFrame_not_accepted :
    ¬ (displayMessages.Accepted (.frameUpdate hugeFrame) ∧
      displayMessages.RefusesTooLarge (.frameUpdate hugeFrame)) := by
  have hdata : (List.replicate maxMessageSize (0 : UInt8)).length = maxMessageSize :=
    List.length_replicate
  obtain ⟨payload, hpayload, hlarge⟩ := exists_payload (f := hugeFrame) rfl (by
    rw [hdata]
    decide)
  rintro ⟨haccepted, -⟩
  have hmax := accepted_iff.mp haccepted payload hpayload
  rw [hdata] at hlarge
  omega

end Postcard

end WayRay
