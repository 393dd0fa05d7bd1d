import WayRay.Clipboard.Capping
import WayRay.Protocol.KnownHosts

/-!
# Messages on lines of their own

The wire format of the control sockets, `unix_transport` of `transport.rs`: every message is a line
of JSON.

`JsonCodec` is what the transport relies on of the JSON library, and `readLine` what can be read of
the bytes that have arrived.  A message is read as it was written, wherever the bytes are cut
(`readLine_line`, `readLine_partial`).
-/

namespace WayRay

open Lines Utf8

/-- `serde_json` on one type of messages: a message is read as it was written, and it is written
without line feeds and without white space around it. -/
structure JsonCodec (α : Type) where
  /-- `serde_json::to_string`. -/
  toString : α → String
  /-- `serde_json::from_str`. -/
  fromStr : String → Option α
  fromStr_toString : ∀ a, fromStr (toString a) = some a
  lineFeed_notMem : ∀ a, '\n' ∉ (toString a).toList
  trimmed : ∀ a, Trimmed isWhitespace (toString a).toList

namespace JsonCodec

variable {α : Type} (codec : JsonCodec α)

/-- A message as it is written to a socket. -/
def line (a : α) : Bytes := intoBytes (codec.toString a ++ "\n")

/-- Parse a line that has been read, without the white space around it. -/
def parse (text : String) : Option α := codec.fromStr (String.ofList (trim text.toList))

theorem line_eq (a : α) : codec.line a = encode (codec.toString a).toList ++ [10] := by
  rw [line, intoBytes_eq_encode, String.toList_append, encode_append]
  rfl

theorem trim_line (a : α) :
    trim (codec.toString a ++ "\n").toList = (codec.toString a).toList := by
  have htrim := (codec.trimmed a).trimBy_append (fun c hc => absurd hc List.not_mem_nil) ['\n']
  rw [List.nil_append] at htrim
  rw [String.toList_append, trim_eq]
  exact htrim.trans (List.append_nil _)

@[simp] theorem parse_line (a : α) : codec.parse (codec.toString a ++ "\n") = some a := by
  rw [parse, trim_line, String.ofList_toList, codec.fromStr_toString]

end JsonCodec

/-! ### Reading -/

/-- What `read_line` gives. -/
inductive LineRead where
  /-- Not all of the line has arrived. -/
  | blocked
  | endOfFile
  /-- The line is not UTF-8. -/
  | invalid
  /-- A line, and the bytes behind it. -/
  | line (text : String) (rest : Bytes)
deriving DecidableEq

/-- The bytes of a whole line. -/
def LineRead.ofBytes (bytes rest : Bytes) : LineRead :=
  match fromUtf8 bytes with
  | none => .invalid
  | some text => .line text rest

/-- `BufRead::read_line` on the bytes that have arrived; `shut` if no more will come. -/
def readLine (input : Bytes) (shut : Bool) : LineRead :=
  match input.dropWhile (· ≠ 10) with
  | lineFeed :: rest => .ofBytes (input.takeWhile (· ≠ 10) ++ [lineFeed]) rest
  | [] =>
    if !shut then .blocked
    else if input.isEmpty then .endOfFile
    else .ofBytes input []

/-- Bytes before the line feed are taken as they are. -/
private theorem span_lineFeed {bytes : Bytes} (h : (10 : UInt8) ∉ bytes) (rest : Bytes) :
    (bytes ++ 10 :: rest).dropWhile (· ≠ 10) = 10 :: rest ∧
      (bytes ++ 10 :: rest).takeWhile (· ≠ 10) = bytes := by
  have hne : ∀ b ∈ bytes, decide (b ≠ 10) = true :=
    fun b hb => decide_eq_true fun hten => h (hten ▸ hb)
  refine ⟨?_, ?_⟩
  · rw [List.dropWhile_append_of_pos hne]
    rfl
  · rw [List.takeWhile_append_of_pos hne]
    exact List.append_nil _

/-- **A message is read as it was written.** -/
theorem readLine_line {α : Type} (codec : JsonCodec α) (a : α) (rest : Bytes) (shut : Bool) :
    readLine (codec.line a ++ rest) shut = .line (codec.toString a ++ "\n") rest := by
  obtain ⟨hdrop, htake⟩ := span_lineFeed (lineFeed_notMem_encode (codec.lineFeed_notMem a)) rest
  have hline : codec.line a ++ rest = encode (codec.toString a).toList ++ 10 :: rest := by
    rw [codec.line_eq, List.append_assoc]
    rfl
  unfold readLine
  rw [hline, hdrop, htake]
  change LineRead.ofBytes (encode (codec.toString a).toList ++ [10]) rest = _
  rw [LineRead.ofBytes, ← codec.line_eq, JsonCodec.line, fromUtf8_intoBytes]

/-- **Part of a message is not read**, as long as the rest may come. -/
theorem readLine_partial {α : Type} (codec : JsonCodec α) (a : α) {input unsent : Bytes}
    (h : input ++ unsent = codec.line a) (hunsent : unsent ≠ []) :
    readLine input false = .blocked := by
  obtain ⟨unsent, last, rfl⟩ := List.eq_nil_or_concat' unsent |>.resolve_left hunsent
  rw [codec.line_eq, ← List.append_assoc] at h
  have hinput : (10 : UInt8) ∉ input := by
    refine fun hmem => lineFeed_notMem_encode (codec.lineFeed_notMem a) ?_
    rw [← (List.append_inj' h rfl).1]
    exact List.mem_append_left _ hmem
  have hdrop : input.dropWhile (· ≠ 10) = [] := by
    refine List.dropWhile_eq_nil_iff.mpr fun b hb => decide_eq_true ?_
    exact fun hten => hinput (hten ▸ hb)
  unfold readLine
  rw [hdrop]
  rfl

/-- A line is at least as long as its end. -/
theorem length_of_readLine {input rest : Bytes} {shut : Bool} {text : String}
    (h : readLine input shut = .line text rest) : rest.length < input.length := by
  unfold readLine at h
  have hsplit :=
    List.takeWhile_append_dropWhile (p := fun b : UInt8 => decide (b ≠ 10)) (l := input)
  cases hdrop : input.dropWhile (· ≠ 10) with
  | cons lineFeed behind =>
    rw [hdrop] at h hsplit
    obtain rfl : behind = rest := by
      simp only [LineRead.ofBytes] at h
      split at h
      · exact absurd h LineRead.noConfusion
      · exact (LineRead.line.inj h).2
    have hlength := congrArg List.length hsplit
    rw [List.length_append, List.length_cons] at hlength
    omega
  | nil =>
    rw [hdrop] at h
    simp only [LineRead.ofBytes] at h
    split_ifs at h with hshut hempty
    split at h
    · exact absurd h LineRead.noConfusion
    · obtain rfl := (LineRead.line.inj h).2
      cases input with
      | nil => exact absurd rfl hempty
      | cons b input => exact Nat.zero_lt_succ _

/-- Once no more will come, reading does not block. -/
theorem readLine_shut_ne_blocked {input : Bytes} : readLine input true ≠ .blocked := by
  have hbytes : ∀ bytes rest, LineRead.ofBytes bytes rest ≠ .blocked := by
    intro bytes rest
    unfold LineRead.ofBytes
    split <;> exact LineRead.noConfusion
  unfold readLine
  split
  · exact hbytes _ _
  · rw [if_neg (by decide)]
    split_ifs
    · exact LineRead.noConfusion
    · exact hbytes _ _

end WayRay
