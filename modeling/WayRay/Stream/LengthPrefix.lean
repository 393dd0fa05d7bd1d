import Mathlib.Tactic.NormNum
import Mathlib.Data.List.Basic

/-!
# Length-prefixed messages on a byte stream

A message travels as a four-byte little-endian length and a payload of that length.  `Reader` is a
read of one message that is under way: the bytes of the length, or the length and the bytes of the
payload, that it has taken off the stream so far.  `Reader.poll` gives it the bytes that have
arrived, of which it takes what it needs.

* `poll_pending`, `poll_ok` — a read that stays pending has taken every byte there was; a read that
  is done has taken exactly one frame, counting the bytes it held before.
* `Receiver` — the receiving end of a stream: the bytes in flight, those that have arrived and the
  read of the next message.
* `InStep` — what a receiver holds and what is still to come make up the messages it has not
  delivered. It is kept by every arrival and every poll (`InStep.arrive`, `InStep.poll_none`,
  `InStep.poll_ok`); a read may be dropped only if it holds no bytes (`InStep.cancel`).

Everything is over an arbitrary type of messages, a decoder of payloads and a limit on their size.
-/

namespace LengthPrefix

universe u

/-! ### Four-byte lengths -/

/-- The four little-endian bytes of a 32-bit number (of a larger one, its low 32 bits). -/
def le32 (n : ℕ) : List UInt8 :=
  [UInt8.ofNat n, UInt8.ofNat (n / 2 ^ 8), UInt8.ofNat (n / 2 ^ 16), UInt8.ofNat (n / 2 ^ 24)]

/-- The number four little-endian bytes stand for. -/
def ofLe32 : List UInt8 → ℕ
  | [a, b, c, d] => a.toNat + b.toNat * 2 ^ 8 + c.toNat * 2 ^ 16 + d.toNat * 2 ^ 24
  | _ => 0

@[simp] theorem length_le32 (n : ℕ) : (le32 n).length = 4 := rfl

theorem ofLe32_le32 {n : ℕ} (h : n < 2 ^ 32) : ofLe32 (le32 n) = n := by
  simp only [le32, ofLe32, UInt8.toNat_ofNat']
  omega

theorem ofLe32_lt (l : List UInt8) : ofLe32 l < 2 ^ 32 := by
  unfold ofLe32
  split
  · next a b c d =>
    have ha := a.toNat_lt
    have hb := b.toNat_lt
    have hc := c.toNat_lt
    have hd := d.toNat_lt
    omega
  · norm_num

theorem le32_ofLe32 {l : List UInt8} (h : l.length = 4) : le32 (ofLe32 l) = l := by
  match l, h with
  | [a, b, c, d], _ =>
    have ha := a.toNat_lt
    have hb := b.toNat_lt
    have hc := c.toNat_lt
    have hd := d.toNat_lt
    simp only [le32, ofLe32, List.cons.injEq, ← UInt8.toNat_inj, UInt8.toNat_ofNat', and_true]
    omega

/-- A payload with its length before it. -/
def frame (payload : List UInt8) : List UInt8 := le32 payload.length ++ payload

/-- A stream can begin with one frame only. -/
theorem frame_prefix_unique {p q rest tail : List UInt8} (hp : p.length < 2 ^ 32)
    (hq : q.length < 2 ^ 32) (h : frame p ++ rest <+: frame q ++ tail) : p = q ∧ rest <+: tail := by
  obtain ⟨t, ht⟩ := h
  simp only [frame, List.append_assoc] at ht
  obtain ⟨hle, hbody⟩ := List.append_inj ht rfl
  have hlen : p.length = q.length := by rw [← ofLe32_le32 hp, hle, ofLe32_le32 hq]
  obtain ⟨hpq, htail⟩ := List.append_inj hbody hlen
  exact ⟨hpq, t, htail⟩

theorem length_frame (payload : List UInt8) : (frame payload).length = 4 + payload.length := by
  rw [frame, List.length_append, length_le32]

/-- Fewer bytes than a length takes begin the length of a short payload. -/
theorem exists_frame_of_short {l : List UInt8} (h : l.length < 4) :
    ∃ p : List UInt8, p.length < 2 ^ 24 ∧ l <+: frame p := by
  have hlen : (l ++ List.replicate (4 - l.length) 0).length = 4 := by
    rw [List.length_append, List.length_replicate]
    omega
  have hlt : ofLe32 (l ++ List.replicate (4 - l.length) 0) < 2 ^ 24 := by
    match l, h with
    | [], _ => decide
    | [a], _ =>
      have ha := a.toNat_lt
      simp only [ofLe32, List.length_cons, List.length_nil, List.replicate, List.cons_append,
        List.nil_append, UInt8.toNat_zero]
      omega
    | [a, b], _ =>
      have ha := a.toNat_lt
      have hb := b.toNat_lt
      simp only [ofLe32, List.length_cons, List.length_nil, List.replicate, List.cons_append,
        List.nil_append, UInt8.toNat_zero]
      omega
    | [a, b, c], _ =>
      have ha := a.toNat_lt
      have hb := b.toNat_lt
      have hc := c.toNat_lt
      simp only [ofLe32, List.length_cons, List.length_nil, List.replicate, List.cons_append,
        List.nil_append, UInt8.toNat_zero]
      omega
  refine ⟨List.replicate (ofLe32 (l ++ List.replicate (4 - l.length) 0)) 0, ?_, ?_⟩
  · rwa [List.length_replicate]
  · rw [frame, List.length_replicate, le32_ofLe32 hlen, List.append_assoc]
    exact List.prefix_append l _

/-- A length and fewer bytes than it says begin a frame of that length. -/
theorem exists_frame_of_incomplete {l : List UInt8} (h : 4 ≤ l.length)
    (hincomplete : l.length < 4 + ofLe32 (l.take 4)) :
    ∃ p : List UInt8, p.length = ofLe32 (l.take 4) ∧ l <+: frame p := by
  have hfour : (l.take 4).length = 4 := List.length_take_of_le h
  have hlen : (l.drop 4 ++ List.replicate (4 + ofLe32 (l.take 4) - l.length) 0).length =
      ofLe32 (l.take 4) := by
    rw [List.length_append, List.length_drop, List.length_replicate]
    omega
  refine ⟨_, hlen, ?_⟩
  rw [frame, hlen, le32_ofLe32 hfour, ← List.append_assoc, List.take_append_drop]
  exact List.prefix_append l _

/-- Four bytes or more of a frame begin with its length. -/
theorem ofLe32_take_of_prefix {l p : List UInt8} (h : 4 ≤ l.length) (hp : p.length < 2 ^ 32)
    (hbegins : l <+: frame p) : ofLe32 (l.take 4) = p.length := by
  obtain ⟨t, ht⟩ := hbegins
  have htake : (l ++ t).take 4 = l.take 4 := List.take_append_of_le_length h
  have hlength : (frame p).take 4 = le32 p.length := rfl
  rw [← htake, ht, hlength, ofLe32_le32 hp]

/-! ### Reading one message -/

/-- A read of one message under way. -/
inductive Reader (maxSize : ℕ) where
  /-- Some bytes of the length. -/
  | length (got : List UInt8) (h : got.length < 4)
  /-- The length, which passed the size check, and some bytes of the payload. -/
  | payload (len : ℕ) (got : List UInt8) (hmax : len ≤ maxSize) (hlen : len < 2 ^ 32)
      (h : got.length < len)

/-- How a read fails. -/
inductive ReadError where
  | tooLarge
  | undecodable
  /-- The stream ended within the message, or before it. -/
  | closed
deriving DecidableEq

/-- What polling a read yields. -/
inductive Poll (maxSize : ℕ) (α : Type u) where
  | pending (reader : Reader maxSize)
  | ready (result : Except ReadError α)

namespace Reader

variable {maxSize : ℕ} {α : Type u}

/-- A read that has not begun. -/
def fresh : Reader maxSize := length [] (by decide)

/-- The bytes a read has taken off the stream. -/
def held : Reader maxSize → List UInt8
  | length got _ => got
  | payload len got _ _ _ => le32 len ++ got

variable (decode : List UInt8 → Option α)

/-- Fill the payload from the bytes that have arrived, then decode it. -/
def pollPayload (len : ℕ) (got avail : List UInt8) (hmax : len ≤ maxSize) (hlen : len < 2 ^ 32) :
    Poll maxSize α × List UInt8 :=
  let got' := got ++ avail.take (len - got.length)
  let rest := avail.drop (len - got.length)
  if h : got'.length < len then (.pending (payload len got' hmax hlen h), rest)
  else
    -- an empty payload is complete at once
    match decode got' with
    | some m => (.ready (.ok m), rest)
    | none => (.ready (.error .undecodable), rest)

/-- Poll a read with the bytes that have arrived; what it does not take remains. -/
def poll : Reader maxSize → List UInt8 → Poll maxSize α × List UInt8
  | length got _, avail =>
    let got' := got ++ avail.take (4 - got.length)
    let rest := avail.drop (4 - got.length)
    if h : got'.length < 4 then (.pending (length got' h), rest)
    else if hmax : ofLe32 got' ≤ maxSize then
      pollPayload decode (ofLe32 got') [] rest hmax (ofLe32_lt got')
    else (.ready (.error .tooLarge), rest)
  | payload len got hmax hlen _, avail => pollPayload decode len got avail hmax hlen

/-! ### What a poll takes -/

/-- Taking what is missing takes everything if it is not enough. -/
private theorem fill_short {got avail : List UInt8} {need : ℕ}
    (h : (got ++ avail.take (need - got.length)).length < need) :
    avail.take (need - got.length) = avail ∧ avail.drop (need - got.length) = [] := by
  rw [List.length_append, List.length_take] at h
  have hle : avail.length ≤ need - got.length := by omega
  exact ⟨List.take_of_length_le hle, List.drop_eq_nil_of_le hle⟩

private theorem fill_full {got avail : List UInt8} {need : ℕ} (hgot : got.length ≤ need)
    (h : ¬ (got ++ avail.take (need - got.length)).length < need) :
    (got ++ avail.take (need - got.length)).length = need := by
  rw [List.length_append, List.length_take] at h ⊢
  omega

private theorem fill_append (got avail : List UInt8) (need : ℕ) :
    got ++ avail.take (need - got.length) ++ avail.drop (need - got.length) = got ++ avail := by
  rw [List.append_assoc, List.take_append_drop]

variable {decode} {reader reader' : Reader maxSize} {avail rest : List UInt8} {m : α}

private theorem pollPayload_pending {len : ℕ} {got : List UInt8} {hmax : len ≤ maxSize}
    {hlen : len < 2 ^ 32}
    (h : pollPayload decode len got avail hmax hlen = (.pending reader', rest)) :
    rest = [] ∧ reader'.held = le32 len ++ got ++ avail := by
  simp only [pollPayload] at h
  split_ifs at h with hshort
  · obtain ⟨htake, hdrop⟩ := fill_short hshort
    rw [Prod.mk.injEq, Poll.pending.injEq] at h
    obtain ⟨rfl, rfl⟩ := h
    exact ⟨hdrop, by rw [held, htake, List.append_assoc]⟩
  · split at h <;> exact absurd h (by simp)

private theorem pollPayload_ok {len : ℕ} {got : List UInt8} (hgot : got.length ≤ len)
    {hmax : len ≤ maxSize} {hlen : len < 2 ^ 32}
    (h : pollPayload decode len got avail hmax hlen = (.ready (.ok m), rest)) :
    ∃ p, p.length = len ∧ got ++ avail = p ++ rest ∧ decode p = some m := by
  simp only [pollPayload] at h
  split_ifs at h with hshort
  · exact absurd h (by simp)
  · split at h
    · next m' hdec =>
      rw [Prod.mk.injEq, Poll.ready.injEq, Except.ok.injEq] at h
      obtain ⟨rfl, rfl⟩ := h
      exact ⟨_, fill_full hgot hshort, (fill_append got avail len).symm, hdec⟩
    · exact absurd h (by simp)

/-- A read that stays pending has taken every byte there was. -/
theorem poll_pending (h : reader.poll decode avail = (.pending reader', rest)) :
    rest = [] ∧ reader'.held = reader.held ++ avail := by
  cases reader with
  | payload len got hmax hlen hlt => exact pollPayload_pending h
  | length got hlt =>
    simp only [poll] at h
    split_ifs at h with hshort hmax
    · obtain ⟨htake, hdrop⟩ := fill_short hshort
      rw [Prod.mk.injEq, Poll.pending.injEq] at h
      obtain ⟨rfl, rfl⟩ := h
      exact ⟨hdrop, by rw [held, htake, held]⟩
    · have hfull := fill_full hlt.le hshort
      obtain ⟨hrest, hheld⟩ := pollPayload_pending h
      refine ⟨hrest, ?_⟩
      rw [hheld, le32_ofLe32 hfull, List.append_nil, fill_append, held]
    · exact absurd h (by simp)

/-- A read that is done has taken exactly one frame, counting the bytes it held before. -/
theorem poll_ok (h : reader.poll decode avail = (.ready (.ok m), rest)) :
    ∃ p, p.length < 2 ^ 32 ∧ reader.held ++ avail = frame p ++ rest ∧ decode p = some m := by
  cases reader with
  | payload len got hmax hlen hlt =>
    obtain ⟨p, rfl, heq, hdec⟩ := pollPayload_ok hlt.le h
    exact ⟨p, hlen, by rw [held, frame, List.append_assoc, heq, List.append_assoc], hdec⟩
  | length got hlt =>
    simp only [poll] at h
    split_ifs at h with hshort hmax
    · exact absurd h (by simp)
    · have hfull := fill_full hlt.le hshort
      obtain ⟨p, hp, heq, hdec⟩ := pollPayload_ok (Nat.zero_le _) h
      refine ⟨p, hp ▸ ofLe32_lt _, ?_, hdec⟩
      rw [held, frame, hp, le32_ofLe32 hfull, List.append_assoc, ← heq, List.nil_append,
        fill_append]
    · exact absurd h (by simp)

/-! ### Reading from the beginning of a message -/

/-- A read that has not begun takes the length first. -/
theorem poll_fresh (decode : List UInt8 → Option α) (avail : List UInt8) :
    (fresh : Reader maxSize).poll decode avail =
      if h : (avail.take 4).length < 4 then (.pending (length (avail.take 4) h), avail.drop 4)
      else if hmax : ofLe32 (avail.take 4) ≤ maxSize then
        pollPayload decode (ofLe32 (avail.take 4)) [] (avail.drop 4) hmax (ofLe32_lt _)
      else (.ready (.error .tooLarge), avail.drop 4) :=
  rfl

theorem poll_fresh_short (h : avail.length < 4) :
    ∃ reader, (fresh : Reader maxSize).poll decode avail = (.pending reader, []) := by
  have hshort : (avail.take 4).length < 4 := by
    rw [List.length_take]
    omega
  exact ⟨_, by rw [poll_fresh, dif_pos hshort, List.drop_eq_nil_of_le (by omega)]⟩

theorem poll_fresh_tooLarge (h : 4 ≤ avail.length) (hlarge : maxSize < ofLe32 (avail.take 4)) :
    (fresh : Reader maxSize).poll decode avail = (.ready (.error .tooLarge), avail.drop 4) := by
  have hlen : ¬ (avail.take 4).length < 4 := (List.length_take_of_le h).not_lt
  rw [poll_fresh, dif_neg hlen, dif_neg (by omega)]

theorem poll_fresh_incomplete (h : 4 ≤ avail.length) (hmax : ofLe32 (avail.take 4) ≤ maxSize)
    (hincomplete : avail.length < 4 + ofLe32 (avail.take 4)) :
    ∃ reader, (fresh : Reader maxSize).poll decode avail = (.pending reader, []) := by
  have hlen : ¬ (avail.take 4).length < 4 := (List.length_take_of_le h).not_lt
  have hshort :
      ([] ++ (avail.drop 4).take (ofLe32 (avail.take 4) - ([] : List UInt8).length)).length <
        ofLe32 (avail.take 4) := by
    rw [List.nil_append, List.length_nil, List.length_take, List.length_drop]
    omega
  have hrest : (avail.drop 4).drop (ofLe32 (avail.take 4) - ([] : List UInt8).length) = [] := by
    rw [List.length_nil, List.drop_drop]
    exact List.drop_eq_nil_of_le (by omega)
  refine ⟨.payload _ _ hmax (ofLe32_lt _) hshort, ?_⟩
  rw [poll_fresh, dif_neg hlen, dif_pos hmax, pollPayload, dif_pos hshort, hrest]

theorem poll_fresh_full (hmax : ofLe32 (avail.take 4) ≤ maxSize)
    (hfull : 4 + ofLe32 (avail.take 4) ≤ avail.length) :
    (fresh : Reader maxSize).poll decode avail =
      (match decode ((avail.drop 4).take (ofLe32 (avail.take 4))) with
        | some m => .ready (.ok m)
        | none => .ready (.error .undecodable),
      avail.drop (4 + ofLe32 (avail.take 4))) := by
  have hlen : ¬ (avail.take 4).length < 4 := (List.length_take_of_le (by omega)).not_lt
  have hdone : ¬ ([] ++ (avail.drop 4).take (ofLe32 (avail.take 4) - 0)).length <
      ofLe32 (avail.take 4) := by
    rw [List.nil_append, List.length_take, List.length_drop]
    omega
  rw [poll_fresh, dif_neg hlen, dif_pos hmax, pollPayload, List.length_nil, dif_neg hdone,
    List.nil_append, Nat.sub_zero, List.drop_drop]
  split <;> rfl

/-- **A frame** within the limit is read whole, and what comes after it remains. -/
theorem poll_fresh_frame {p : List UInt8} (hmax : p.length ≤ maxSize) (hlen : p.length < 2 ^ 32)
    (hdecode : decode p = some m) (rest : List UInt8) :
    (fresh : Reader maxSize).poll decode (frame p ++ rest) = (.ready (.ok m), rest) := by
  have htake : (frame p ++ rest).take 4 = le32 p.length := rfl
  have hbegins : ofLe32 ((frame p ++ rest).take 4) = p.length := by rw [htake, ofLe32_le32 hlen]
  have hdrop : (frame p ++ rest).drop 4 = p ++ rest := rfl
  have hbytes : 4 + p.length ≤ (frame p ++ rest).length := by
    simp only [frame, List.length_append, length_le32]
    omega
  rw [poll_fresh_full (hbegins ▸ hmax) (hbegins ▸ hbytes), hbegins, ← List.drop_drop, hdrop,
    List.take_left, List.drop_left, hdecode]

end Reader

/-! ### Receiving a list of messages -/

section Receive

variable {maxSize : ℕ} {α : Type u}

/-- What a list of messages puts on the wire. -/
def wire (encode : α → List UInt8) (sent : List α) : List UInt8 :=
  sent.flatMap fun m => frame (encode m)

@[simp] theorem wire_nil (encode : α → List UInt8) : wire encode [] = [] := rfl

theorem wire_cons (encode : α → List UInt8) (m : α) (sent : List α) :
    wire encode (m :: sent) = frame (encode m) ++ wire encode sent :=
  List.flatMap_cons

theorem wire_append (encode : α → List UInt8) (sent sent' : List α) :
    wire encode (sent ++ sent') = wire encode sent ++ wire encode sent' :=
  List.flatMap_append

end Receive

/-- The receiving end of a stream. -/
structure Receiver (maxSize : ℕ) where
  /-- Bytes the sender has written and the network not yet delivered. -/
  inFlight : List UInt8
  /-- Bytes that have arrived and have not been read. -/
  avail : List UInt8
  /-- Nothing arrives any more: the stream is finished or reset. -/
  finished : Bool
  /-- The read of the next message. -/
  reading : Reader maxSize

namespace Receiver

variable {maxSize : ℕ} {α : Type u}

/-- A receiving end to which nothing has arrived yet. -/
def start (bytes : List UInt8) : Receiver maxSize := ⟨bytes, [], false, .fresh⟩

/-- The next `n` bytes arrive. -/
def arrive (r : Receiver maxSize) (n : ℕ) : Receiver maxSize :=
  if r.finished then r
  else { r with avail := r.avail ++ r.inFlight.take n, inFlight := r.inFlight.drop n }

def finish (r : Receiver maxSize) : Receiver maxSize := { r with finished := true }

/-- Drop the read that is under way, with the bytes it has taken. -/
def cancel (r : Receiver maxSize) : Receiver maxSize := { r with reading := .fresh }

/-- Poll the read; a result ends it, and the next one begins. -/
def poll (decode : List UInt8 → Option α) (r : Receiver maxSize) :
    Option (Except ReadError α) × Receiver maxSize :=
  match r.reading.poll decode r.avail with
  | (.ready result, rest) => (some result, { r with avail := rest, reading := .fresh })
  | (.pending reading, rest) =>
    -- more bytes are wanted than will come
    (if r.finished then some (.error .closed) else none,
      { r with avail := rest, reading := reading })

end Receiver

section InStep

variable {maxSize : ℕ} {α : Type u}

/-- What the read holds, what has arrived and what is still in flight make up the messages that have
not been delivered. -/
def InStep (encode : α → List UInt8) (sent delivered : List α) (r : Receiver maxSize) : Prop :=
  ∃ later, sent = delivered ++ later ∧ r.reading.held ++ r.avail ++ r.inFlight = wire encode later

/-- The messages delivered are the first of those sent, and the receiver is in step until it is
`ended`. -/
def InStepUntil (ended : Bool) (encode : α → List UInt8) (sent delivered : List α)
    (r : Receiver maxSize) : Prop :=
  delivered <+: sent ∧ (ended = false → InStep encode sent delivered r)

variable {encode : α → List UInt8} {decode : List UInt8 → Option α} {sent delivered : List α}
  {r r' : Receiver maxSize} {m : α}

theorem InStep.start (encode : α → List UInt8) (sent : List α) :
    InStep encode sent [] (.start (wire encode sent) : Receiver maxSize) :=
  ⟨sent, rfl, rfl⟩

theorem InStep.isPrefix (h : InStep encode sent delivered r) : delivered <+: sent := by
  obtain ⟨later, rfl, -⟩ := h
  exact List.prefix_append _ _

theorem InStep.until (h : InStep encode sent delivered r) (ended : Bool) :
    InStepUntil ended encode sent delivered r :=
  ⟨h.isPrefix, fun _ => h⟩

/-- Bytes in flight become available. -/
theorem InStep.arrive (h : InStep encode sent delivered r) (n : ℕ) :
    InStep encode sent delivered (r.arrive n) := by
  unfold Receiver.arrive
  split_ifs
  · exact h
  · obtain ⟨later, hsent, hwire⟩ := h
    refine ⟨later, hsent, ?_⟩
    rw [← hwire, List.append_assoc r.reading.held, List.append_assoc r.avail, List.take_append_drop,
      ← List.append_assoc]

/-- A read that holds nothing can be dropped. -/
theorem InStep.cancel (h : InStep encode sent delivered r) (hheld : r.reading.held = []) :
    InStep encode sent delivered r.cancel := by
  obtain ⟨later, hsent, hwire⟩ := h
  rw [hheld] at hwire
  exact ⟨later, hsent, hwire⟩

/-- A poll without a result leaves the reader with everything that had arrived. -/
theorem Receiver.held_poll (h : r.poll decode = (none, r')) :
    r'.reading.held = r.reading.held ++ r.avail ∧ r'.avail = [] ∧ r'.inFlight = r.inFlight := by
  unfold Receiver.poll at h
  split at h
  · exact absurd h (by simp)
  · next reading rest hpoll =>
    obtain ⟨hrest, hheld⟩ := Reader.poll_pending hpoll
    obtain ⟨-, rfl⟩ := Prod.mk.inj h
    exact ⟨hheld, hrest, rfl⟩

theorem InStep.poll_none (h : InStep encode sent delivered r) (hpoll : r.poll decode = (none, r')) :
    InStep encode sent delivered r' := by
  obtain ⟨later, hsent, hwire⟩ := h
  obtain ⟨hheld, havail, hflight⟩ := Receiver.held_poll hpoll
  exact ⟨later, hsent, by rw [hheld, havail, hflight, List.append_nil, hwire]⟩

/-- A poll with a message begins the next read. -/
theorem Receiver.poll_ok (h : r.poll decode = (some (.ok m), r')) :
    ∃ rest, r.reading.poll decode r.avail = (.ready (.ok m), rest) ∧
      r' = { r with avail := rest, reading := .fresh } := by
  unfold Receiver.poll at h
  split at h
  · next result rest hpoll =>
    rw [Prod.mk.injEq, Option.some.injEq] at h
    obtain ⟨rfl, rfl⟩ := h
    exact ⟨rest, hpoll, rfl⟩
  · split_ifs at h <;> exact absurd h (by simp)

/-- A read that is done delivers the next message sent. -/
theorem InStep.poll_ok (h : InStep encode sent delivered r)
    (hpoll : r.poll decode = (some (.ok m), r'))
    (hcodec : ∀ m ∈ sent, (encode m).length < 2 ^ 32 ∧ decode (encode m) = some m) :
    InStep encode sent (delivered ++ [m]) r' := by
  obtain ⟨rest, hread, rfl⟩ := Receiver.poll_ok hpoll
  obtain ⟨later, rfl, hwire⟩ := h
  obtain ⟨p, hp, heq, hdec⟩ := Reader.poll_ok hread
  rw [heq, List.append_assoc] at hwire
  cases later with
  | nil => exact absurd (congrArg List.length hwire) (by simp [frame])
  | cons m' later =>
    have hm' := hcodec m' (List.mem_append_right _ List.mem_cons_self)
    -- the stream begins with the frame of the next message
    rw [wire_cons] at hwire
    have hbegins : frame p ++ (rest ++ r.inFlight) <+: frame (encode m') ++ wire encode later :=
      ⟨[], by rw [List.append_nil, hwire]⟩
    obtain ⟨rfl, -⟩ := frame_prefix_unique hp hm'.1 hbegins
    obtain rfl : m' = m := Option.some.inj (hm'.2.symm.trans hdec)
    exact ⟨later, by rw [List.append_assoc, List.singleton_append], List.append_cancel_left hwire⟩

theorem InStepUntil.arrive {ended : Bool} (h : InStepUntil ended encode sent delivered r) (n : ℕ) :
    InStepUntil ended encode sent delivered (r.arrive n) :=
  ⟨h.1, fun hended => (h.2 hended).arrive n⟩

/-- Once it is over, nothing more is delivered. -/
theorem InStepUntil.stop {ended : Bool} (h : InStepUntil ended encode sent delivered r)
    (r' : Receiver maxSize) : InStepUntil true encode sent delivered r' :=
  ⟨h.1, fun hended => absurd hended (by decide)⟩

end InStep

end LengthPrefix
