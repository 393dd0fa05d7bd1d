import WayRay.Protocol.Accepted
import WayRay.Stream.Repeated

/-!
# The buffer framer and the stream reader

`try_decode_framed` takes a message off the front of a buffer, `read_message` off a stream.  The
framer does not check the length against `maxMessageSize`: where the reader fails it waits for the
rest of the message or decodes it.  `framersAgree_iff` says for which byte strings the two, each
repeated on what it has not consumed, yield the same: those in which no length that begins a frame
exceeds the limit.
-/

namespace WayRay

open LengthPrefix

namespace Postcard

variable {α : Type} (pc : Postcard α)

/-- Read a length prefix from a byte slice. -/
def readLengthPrefix (data : Bytes) : Option (ℕ × Bytes) :=
  if data.length < 4 then none else some (ofLe32 (data.take 4), data.drop 4)

/-- Try to extract a complete framed message from a buffer, with the number of bytes consumed. -/
def tryDecodeFramed (buf : Bytes) : Except ReadError (Option (α × ℕ)) :=
  match readLengthPrefix buf with
  | none => .ok none
  | some (len, rest) =>
    if rest.length < len then .ok none
    else match pc.decode (rest.take len) with
      | none => .error .undecodable
      | some msg => .ok (some (msg, 4 + len))

/-- The framer on a buffer; `none` if it needs more data. -/
def framedParse (buf : Bytes) : Except (Option ReadError) (α × ℕ) :=
  match pc.tryDecodeFramed buf with
  | .ok none => .error none
  | .error e => .error (some e)
  | .ok (some (msg, consumed)) => .ok (msg, consumed)

/-- The reader on a stream with these bytes; `none` if it waits for more data. -/
def readParse (buf : Bytes) : Except (Option ReadError) (α × ℕ) :=
  match (Reader.fresh : Reader maxMessageSize).poll pc.decode buf with
  | (.pending _, _) => .error none
  | (.ready (.error e), _) => .error (some e)
  | (.ready (.ok msg), rest) => .ok (msg, buf.length - rest.length)

variable {pc} {buf rest : Bytes} {m : α} {n : ℕ}

/-! ### One message -/

/-- The length at the front of a buffer, if it is there, is within the limit. -/
def LengthBounded (buf : Bytes) : Prop :=
  4 ≤ buf.length → ofLe32 (buf.take 4) ≤ maxMessageSize

/-- The payload of the frame at the front of a buffer. -/
def frontPayload (buf : Bytes) : Bytes := (buf.drop 4).take (ofLe32 (buf.take 4))

theorem length_frontPayload (h : 4 + ofLe32 (buf.take 4) ≤ buf.length) :
    (frontPayload buf).length = ofLe32 (buf.take 4) := by
  rw [frontPayload, List.length_take, List.length_drop]
  omega

theorem frame_frontPayload (h : 4 + ofLe32 (buf.take 4) ≤ buf.length) :
    frame (frontPayload buf) ++ buf.drop (4 + ofLe32 (buf.take 4)) = buf := by
  have hfour : (buf.take 4).length = 4 := List.length_take_of_le (by omega)
  rw [frame, length_frontPayload h, le32_ofLe32 hfour, List.append_assoc, ← List.drop_drop,
    frontPayload, List.take_append_drop, List.take_append_drop]

/-- What the message at the front of a buffer yields that holds all of it. -/
def takeFront (pc : Postcard α) (buf : Bytes) : Except (Option ReadError) (α × ℕ) :=
  match pc.decode (frontPayload buf) with
  | none => .error (some .undecodable)
  | some msg => .ok (msg, 4 + ofLe32 (buf.take 4))

theorem framedParse_short (h : buf.length < 4) : pc.framedParse buf = .error none := by
  rw [framedParse, tryDecodeFramed, readLengthPrefix, if_pos h]

theorem framedParse_incomplete (h : 4 ≤ buf.length)
    (hincomplete : buf.length < 4 + ofLe32 (buf.take 4)) : pc.framedParse buf = .error none := by
  have hrest : (buf.drop 4).length < ofLe32 (buf.take 4) := by
    rw [List.length_drop]
    omega
  simp only [framedParse, tryDecodeFramed, readLengthPrefix, if_neg (not_lt.mpr h), if_pos hrest]

theorem framedParse_full (h : 4 + ofLe32 (buf.take 4) ≤ buf.length) :
    pc.framedParse buf = pc.takeFront buf := by
  have hfour : ¬ buf.length < 4 := by omega
  have hrest : ¬ (buf.drop 4).length < ofLe32 (buf.take 4) := by
    rw [List.length_drop]
    omega
  simp only [framedParse, tryDecodeFramed, readLengthPrefix, if_neg hfour, if_neg hrest, takeFront,
    frontPayload]
  cases pc.decode ((buf.drop 4).take (ofLe32 (buf.take 4))) <;> rfl

theorem readParse_short (h : buf.length < 4) : pc.readParse buf = .error none := by
  obtain ⟨reader, hpoll⟩ :
      ∃ reader, (Reader.fresh : Reader maxMessageSize).poll pc.decode buf = (.pending reader, []) :=
    Reader.poll_fresh_short h
  rw [readParse, hpoll]

theorem readParse_tooLarge (h : 4 ≤ buf.length)
    (hlarge : maxMessageSize < ofLe32 (buf.take 4)) :
    pc.readParse buf = .error (some .tooLarge) := by
  rw [readParse, Reader.poll_fresh_tooLarge h hlarge]

theorem readParse_incomplete (h : 4 ≤ buf.length) (hmax : ofLe32 (buf.take 4) ≤ maxMessageSize)
    (hincomplete : buf.length < 4 + ofLe32 (buf.take 4)) : pc.readParse buf = .error none := by
  obtain ⟨reader, hpoll⟩ :
      ∃ reader, (Reader.fresh : Reader maxMessageSize).poll pc.decode buf = (.pending reader, []) :=
    Reader.poll_fresh_incomplete h hmax hincomplete
  rw [readParse, hpoll]

theorem readParse_full (hmax : ofLe32 (buf.take 4) ≤ maxMessageSize)
    (h : 4 + ofLe32 (buf.take 4) ≤ buf.length) : pc.readParse buf = pc.takeFront buf := by
  rw [readParse, Reader.poll_fresh_full hmax h, takeFront, frontPayload]
  cases pc.decode ((buf.drop 4).take (ofLe32 (buf.take 4))) with
  | none => rfl
  | some m =>
    have hconsumed : buf.length - (buf.drop (4 + ofLe32 (buf.take 4))).length =
        4 + ofLe32 (buf.take 4) := by
      rw [List.length_drop]
      omega
    simp only [hconsumed]

/-- The two agree on the front of a buffer if and only if its length is within the limit. -/
theorem framedParse_eq_iff : pc.framedParse buf = pc.readParse buf ↔ LengthBounded buf := by
  rcases lt_or_ge buf.length 4 with hshort | hfour
  · rw [framedParse_short hshort, readParse_short hshort]
    exact iff_of_true rfl fun h => absurd h (not_le.mpr hshort)
  rcases lt_or_ge maxMessageSize (ofLe32 (buf.take 4)) with hlarge | hmax
  · refine iff_of_false ?_ fun h => absurd (h hfour) (not_le.mpr hlarge)
    rw [readParse_tooLarge hfour hlarge]
    rcases lt_or_ge buf.length (4 + ofLe32 (buf.take 4)) with hincomplete | hfull
    · rw [framedParse_incomplete hfour hincomplete]
      exact fun h => by cases h
    · rw [framedParse_full hfull, takeFront]
      cases pc.decode (frontPayload buf) <;> exact fun h => by cases h
  · refine iff_of_true ?_ fun _ => hmax
    rcases lt_or_ge buf.length (4 + ofLe32 (buf.take 4)) with hincomplete | hfull
    · rw [framedParse_incomplete hfour hincomplete, readParse_incomplete hfour hmax hincomplete]
    · rw [framedParse_full hfull, readParse_full hmax hfull]

/-! ### Messages one after the other -/

theorem takeFront_ok (h : pc.takeFront buf = .ok (m, n)) :
    pc.decode (frontPayload buf) = some m ∧ n = 4 + ofLe32 (buf.take 4) := by
  rw [takeFront] at h
  split at h
  · cases h
  · next msg hdecode =>
    obtain ⟨rfl, rfl⟩ := Prod.mk.inj (Except.ok.inj h)
    exact ⟨hdecode, rfl⟩

/-- A message that the framer takes is in the buffer as a whole. -/
theorem framedParse_ok (h : pc.framedParse buf = .ok (m, n)) :
    4 + ofLe32 (buf.take 4) ≤ buf.length ∧ n = 4 + ofLe32 (buf.take 4) := by
  rcases lt_or_ge buf.length 4 with hshort | hfour
  · rw [framedParse_short hshort] at h
    cases h
  rcases lt_or_ge buf.length (4 + ofLe32 (buf.take 4)) with hincomplete | hfull
  · rw [framedParse_incomplete hfour hincomplete] at h
    cases h
  · rw [framedParse_full hfull] at h
    exact ⟨hfull, (takeFront_ok h).2⟩

/-- A message that the reader takes is the payload of a frame within the limit. -/
theorem readParse_ok (h : pc.readParse buf = .ok (m, n)) :
    ∃ p, p.length ≤ maxMessageSize ∧ pc.decode p = some m ∧ n = (frame p).length ∧
      frame p ++ buf.drop n = buf := by
  rcases lt_or_ge buf.length 4 with hshort | hfour
  · rw [readParse_short hshort] at h
    cases h
  rcases lt_or_ge maxMessageSize (ofLe32 (buf.take 4)) with hlarge | hmax
  · rw [readParse_tooLarge hfour hlarge] at h
    cases h
  rcases lt_or_ge buf.length (4 + ofLe32 (buf.take 4)) with hincomplete | hfull
  · rw [readParse_incomplete hfour hmax hincomplete] at h
    cases h
  · rw [readParse_full hmax hfull] at h
    obtain ⟨hdecode, rfl⟩ := takeFront_ok h
    refine ⟨frontPayload buf, (length_frontPayload hfull).trans_le hmax, hdecode, ?_,
      frame_frontPayload hfull⟩
    rw [length_frame, length_frontPayload hfull]

/-- A frame within the limit is read if its payload decodes. -/
theorem readParse_frame {p : Bytes} (hmax : p.length ≤ maxMessageSize)
    (hdecode : pc.decode p = some m) (rest : Bytes) :
    pc.readParse (frame p ++ rest) = .ok (m, (frame p).length) := by
  rw [readParse, Reader.poll_fresh_frame hmax (hmax.trans_lt (by decide)) hdecode]
  simp only [List.length_append, Nat.add_sub_cancel]

/-- The framer, repeated on what it has not consumed. -/
def framer (pc : Postcard α) : FrontParser UInt8 (Option ReadError) α where
  parse := pc.framedParse
  takes h := by
    obtain ⟨hle, rfl⟩ := framedParse_ok h
    exact ⟨by omega, hle⟩

/-- `read_message`, repeated on one stream. -/
def streamReader (pc : Postcard α) : FrontParser UInt8 (Option ReadError) α where
  parse := pc.readParse
  takes {input a n} h := by
    obtain ⟨p, -, -, rfl, hinput⟩ := readParse_ok h
    have hlen := congrArg List.length hinput
    rw [List.length_append] at hlen
    rw [length_frame] at hlen ⊢
    omega

/-- What the reader has consumed when it gets to a rest: frames within the limit that decode. -/
theorem reached_streamReader_iff :
    pc.streamReader.Reached buf rest ↔
      ∃ payloads : List Bytes,
        (∀ p ∈ payloads, p.length ≤ maxMessageSize ∧ (pc.decode p).isSome) ∧
          buf = payloads.flatMap frame ++ rest := by
  constructor
  · intro h
    induction h with
    | here buf => exact ⟨[], fun p hp => absurd hp List.not_mem_nil, rfl⟩
    | later hparse _ ih =>
      obtain ⟨p, hmax, hdecode, -, hbuf⟩ := readParse_ok hparse
      obtain ⟨payloads, hpayloads, hrest⟩ := ih
      refine ⟨p :: payloads, List.forall_mem_cons.mpr ⟨⟨hmax, ?_⟩, hpayloads⟩, ?_⟩
      · rw [hdecode, Option.isSome_some]
      · rw [List.flatMap_cons, List.append_assoc, ← hrest, hbuf]
  · rintro ⟨payloads, hpayloads, rfl⟩
    induction payloads with
    | nil => exact .here rest
    | cons p payloads ih =>
      obtain ⟨⟨hmax, hsome⟩, hpayloads⟩ := List.forall_mem_cons.mp hpayloads
      obtain ⟨m, hdecode⟩ := Option.isSome_iff_exists.mp hsome
      have hparse := readParse_frame hmax hdecode (payloads.flatMap frame ++ rest)
      rw [List.flatMap_cons, List.append_assoc]
      refine .later hparse ?_
      rw [List.drop_left]
      exact ih hpayloads

/-- The reader consumes the frames of the messages that it yields. -/
theorem streamReader_consumes (pc : Postcard α) (buf : Bytes) :
    ∃ payloads : List Bytes,
      List.Forall₂ (fun p v => pc.decode p = some v.1 ∧ v.2 = (frame p).length) payloads
        (pc.streamReader.run buf).values ∧
      buf = payloads.flatMap frame ++ (pc.streamReader.run buf).rest := by
  induction buf using FrontParser.run_induction pc.streamReader with
  | stop buf ending hparse =>
    rw [FrontParser.run_error hparse]
    exact ⟨[], .nil, rfl⟩
  | next buf m n hparse ih =>
    obtain ⟨p, -, hdecode, hn, hbuf⟩ := readParse_ok hparse
    obtain ⟨payloads, hvalues, hrest⟩ := ih
    rw [FrontParser.run_ok hparse]
    refine ⟨p :: payloads, .cons ⟨hdecode, hn⟩ hvalues, ?_⟩
    rw [List.flatMap_cons, List.append_assoc, FrontParser.Outcome.cons, ← hrest, hbuf]

/-! ### Waiting for more -/

/-- The reader waits for more if and only if the rest is a proper prefix of a frame within the
limit. -/
theorem readParse_eq_more_iff :
    pc.readParse rest = .error none ↔
      ∃ p : Bytes, p.length ≤ maxMessageSize ∧ rest <+: frame p ∧ rest ≠ frame p := by
  have hlimit : 2 ^ 24 ≤ maxMessageSize := by decide
  rcases lt_or_ge rest.length 4 with hshort | hfour
  · refine iff_of_true (readParse_short hshort) ?_
    obtain ⟨p, hp, hbegins⟩ := exists_frame_of_short hshort
    refine ⟨p, by omega, hbegins, fun heq => ?_⟩
    have hlen := congrArg List.length heq
    rw [length_frame] at hlen
    omega
  constructor
  · intro h
    rcases lt_or_ge maxMessageSize (ofLe32 (rest.take 4)) with hlarge | hmax
    · rw [readParse_tooLarge hfour hlarge] at h
      cases h
    rcases lt_or_ge rest.length (4 + ofLe32 (rest.take 4)) with hincomplete | hfull
    · obtain ⟨p, hp, hbegins⟩ := exists_frame_of_incomplete hfour hincomplete
      refine ⟨p, hp.trans_le hmax, hbegins, fun heq => ?_⟩
      have hlen := congrArg List.length heq
      rw [length_frame] at hlen
      omega
    · rw [readParse_full hmax hfull, takeFront] at h
      split at h <;> cases h
  · rintro ⟨p, hmax, hbegins, hne⟩
    have hlength := ofLe32_take_of_prefix hfour (hmax.trans_lt (by decide)) hbegins
    have hlt : rest.length < (frame p).length :=
      lt_of_le_of_ne hbegins.length_le fun heq => hne (hbegins.eq_of_length heq)
    rw [length_frame] at hlt
    exact readParse_incomplete hfour (hlength ▸ hmax) (hlength ▸ hlt)

/-! ### Agreement -/

/-- Framer and reader yield the same messages and the same error, each message takes the bytes of
its frame, and more data is asked for exactly when the rest is a proper prefix of a frame within the
limit. -/
structure FramersAgree (pc : Postcard α) (buf : Bytes) : Prop where
  same : pc.framer.run buf = pc.streamReader.run buf
  consumes : ∃ payloads : List Bytes,
    List.Forall₂ (fun p v => pc.decode p = some v.1 ∧ v.2 = (frame p).length) payloads
      (pc.framer.run buf).values ∧
    buf = payloads.flatMap frame ++ (pc.framer.run buf).rest
  asks : (pc.framer.run buf).ending = none ↔
    ∃ p : Bytes, p.length ≤ maxMessageSize ∧ (pc.framer.run buf).rest <+: frame p ∧
      (pc.framer.run buf).rest ≠ frame p

/-- **When framer and reader agree**: if and only if no length that follows complete frames, within
the limit and decodable, exceeds the limit. -/
theorem framersAgree_iff (pc : Postcard α) (buf : Bytes) :
    pc.FramersAgree buf ↔
      ∀ (payloads : List Bytes) (rest : Bytes),
        (∀ p ∈ payloads, p.length ≤ maxMessageSize ∧ (pc.decode p).isSome) →
          buf = payloads.flatMap frame ++ rest → 4 ≤ rest.length →
            ofLe32 (rest.take 4) ≤ maxMessageSize := by
  have hsame : pc.streamReader.run buf = pc.framer.run buf ↔
      ∀ rest, pc.streamReader.Reached buf rest → LengthBounded rest := by
    rw [FrontParser.run_eq_iff]
    exact forall₂_congr fun rest _ => eq_comm.trans framedParse_eq_iff
  constructor
  · intro h payloads rest hpayloads hbuf hfour
    exact hsame.mp h.same.symm rest (reached_streamReader_iff.mpr ⟨payloads, hpayloads, hbuf⟩) hfour
  · intro h
    have hrun : pc.framer.run buf = pc.streamReader.run buf := by
      refine (hsame.mpr fun rest hreached hfour => ?_).symm
      obtain ⟨payloads, hpayloads, hbuf⟩ := reached_streamReader_iff.mp hreached
      exact h payloads rest hpayloads hbuf hfour
    have hending : pc.readParse (pc.streamReader.run buf).rest =
        .error (pc.streamReader.run buf).ending :=
      (FrontParser.reached_run pc.streamReader buf).2
    have hmore : (pc.streamReader.run buf).ending = none ↔
        pc.readParse (pc.streamReader.run buf).rest = .error none := by
      rw [hending, Except.error.injEq]
    refine ⟨hrun, hrun ▸ streamReader_consumes pc buf, ?_⟩
    rw [hrun, hmore]
    exact readParse_eq_more_iff

theorem FramersAgree.lengthBounded (h : pc.FramersAgree buf) : LengthBounded buf :=
  framedParse_eq_iff.mp (FrontParser.parse_eq_of_run_eq h.same)

/-- **A length over the limit**: the reader fails at once, the framer waits for 4 GiB. -/
theorem framers_disagree_tooLarge : ¬ displayMessages.FramersAgree [0xFF, 0xFF, 0xFF, 0xFF] :=
  fun h => absurd (h.lengthBounded (by decide)) (by decide)

end Postcard

end WayRay
