import WayRay.Clipboard.LocalClipboard
import WayRay.Clipboard.Selections
import WayRay.Network.Outbound

/-!
# A selection on its way to the client

The compositor chooses the mime type of a selection by `preferred_mime_type`, reads it and queues
it, the network thread relays it to a client with the clipboard capability, and the client writes it
to its OS clipboard if `is_text_mime` takes the type for a text.  `delivered_iff` says for which
offers and texts the text arrives: the client takes types for texts that the server does not look
for, so that an offer of `image/png` and `STRING` brings no text.
-/

namespace WayRay

/-! ### Reading to the end -/

/-- The reads of a source that writes these bytes, in pieces, and closes its end of the pipe. -/
inductive Supplies : Bytes → List PipeRead → Prop
  | done (reads : List PipeRead) : Supplies [] (.ok [] :: reads)
  | chunk (byte : UInt8) (bytes : Bytes) {data : Bytes} {reads : List PipeRead}
      (h : Supplies data reads) : Supplies (byte :: bytes ++ data) (.ok (byte :: bytes) :: reads)
  | interrupted {data : Bytes} {reads : List PipeRead} (h : Supplies data reads) :
      Supplies data (.interrupted :: reads)

/-- The read loop. -/
def readPipe (data : Bytes) : List PipeRead → Reading
  | [] => .reading data
  | read :: reads =>
    match readTurn data read with
    | .reading data => readPipe data reads
    | .ended data => .ended data
    | .failed => .failed

/-- A payload up to the cap is read to its end. -/
theorem readPipe_of_supplies {data : Bytes} {reads : List PipeRead} (h : Supplies data reads)
    {before : Bytes} (hcap : (before ++ data).length ≤ maxClipboardData) :
    readPipe before reads = .ended (before ++ data) := by
  induction h generalizing before with
  | done reads => rw [List.append_nil]; rfl
  | @chunk byte bytes data reads h ih =>
    rw [← List.append_assoc] at hcap
    have hpiece : (before ++ byte :: bytes).length ≤ maxClipboardData := by
      rw [List.length_append] at hcap
      omega
    have hturn : readTurn before (.ok (byte :: bytes)) = .reading (before ++ byte :: bytes) :=
      if_pos hpiece
    rw [readPipe, hturn, ← List.append_assoc]
    exact ih hcap
  | interrupted h ih => exact ih hcap

/-! ### From the compositor to the client -/

/-- What the compositor forwards of a selection, whose source answers a request for a type with
these reads. -/
def forwardSelection (offered : List String) (source : String → List PipeRead) :
    Option (ClipboardOffer × ClipboardData) :=
  (preferredMimeType offered).bind fun mimeType =>
    match readPipe [] (source mimeType) with
    | .ended data => forwardedPair mimeType offered data
    | .reading _ | .failed => none

/-- The messages that carry it. -/
def clipboardMessages : Option (ClipboardOffer × ClipboardData) → List ControlMessage
  | none => []
  | some (offer, clip) => [.clipboardOffer offer, .clipboardData clip]

namespace Selections

private theorem foldl_reads_idle {s : Selections} {n : ℕ}
    (h : ∀ mimeType offered data, s.readers.get n ≠ some ⟨mimeType, offered, .reading data⟩)
    (reads : List PipeRead) : (reads.map (.reads n)).foldl step s = s := by
  induction reads with
  | nil => rfl
  | cons read reads ih =>
    have hidle : s.readerReads n read = s := by
      unfold readerReads
      split
      · next hget => exact absurd hget (h _ _ _)
      · rfl
    rw [List.map_cons, List.foldl_cons, step, hidle]
    exact ih

/-- A reader thread reads to the end as `readPipe` does, and then has the messages to queue. -/
private theorem foldl_reads {s : Selections} {n : ℕ} {mimeType : String} {offered : List String}
    {data total : Bytes} (hget : s.readers.get n = some ⟨mimeType, offered, .reading data⟩)
    {reads : List PipeRead} (hread : readPipe data reads = .ended total) :
    ∃ readers, (reads.map (.reads n)).foldl step s = { s with readers := readers } ∧
      readers.get n = (forwardedPair mimeType offered total).map fun pair =>
        ⟨mimeType, offered, .offering pair.1 pair.2⟩ := by
  induction reads generalizing s data with
  | nil => exact absurd hread (by simp [readPipe])
  | cons read reads ih =>
    rw [List.map_cons, List.foldl_cons, step]
    rw [readPipe] at hread
    cases hturn : readTurn data read with
    | reading data' =>
      have hreads : s.readerReads n read =
          { s with readers := s.readers.insert n ⟨mimeType, offered, .reading data'⟩ } := by
        simp only [readerReads, hget, hturn]
      rw [hturn] at hread
      rw [hreads]
      obtain ⟨readers, heq, hreaders⟩ :=
        ih (s := { s with readers := s.readers.insert n ⟨mimeType, offered, .reading data'⟩ })
          (HashMap.get_insert_self _ _ _) hread
      exact ⟨readers, heq, hreaders⟩
    | failed =>
      rw [hturn] at hread
      exact absurd hread (by simp)
    | ended data' =>
      rw [hturn] at hread
      obtain rfl : data' = total := Reading.ended.inj hread
      -- whatever else is read, the thread does not read it
      cases hpair : forwardedPair mimeType offered data' with
      | none =>
        have hreads : s.readerReads n read = { s with readers := s.readers.remove n } := by
          simp only [readerReads, hget, hturn, hpair]
        rw [hreads]
        exact ⟨_, foldl_reads_idle (by simp) reads, HashMap.get_remove_self _ _⟩
      | some pair =>
        have hreads : s.readerReads n read =
            { s with
              readers := s.readers.insert n ⟨mimeType, offered, .offering pair.1 pair.2⟩ } := by
          simp only [readerReads, hget, hturn, hpair]
        rw [hreads]
        exact ⟨_, foldl_reads_idle (by simp) reads, HashMap.get_insert_self _ _ _⟩

/-- The events of a selection that is requested, read and queued without another one coming between:
the reader thread is that of the selection `n`. -/
def uninterrupted (n : ℕ) (offered : List String) (reads : List PipeRead) : List Event :=
  [.newSelection .clipboard (some offered), .turn true true true] ++ reads.map (.reads n) ++
    [.sends n, .sends n]

/-- **A selection forwarded.**  Left to itself, a selection is queued as `forwardSelection` says. -/
theorem controls_forwarded {s : Selections} (htx : s.clipboardTx = true) (hup : s.networkUp = true)
    {offered : List String} {mimeType : String} (hmime : preferredMimeType offered = some mimeType)
    {source : String → List PipeRead} {data : Bytes}
    (hread : readPipe [] (source mimeType) = .ended data) :
    ((uninterrupted (s.made + 1) offered (source mimeType)).foldl step s).controls =
      s.controls ++ (clipboardMessages (forwardSelection offered source)).map (s.made + 1, ·) := by
  have hspawned :
      [Event.newSelection .clipboard (some offered), .turn true true true].foldl step s = { s with
        made := s.made + 1
        pendingSelection := none
        readers := s.readers.insert (s.made + 1) ⟨mimeType, offered, .reading []⟩ } := by
    simp [step, newSelection, processPendingClipboard, htx, hmime]
  have hforward : forwardSelection offered source = forwardedPair mimeType offered data := by
    rw [forwardSelection, hmime, Option.bind_some, hread]
  rw [uninterrupted, List.foldl_append, List.foldl_append, hspawned, hforward]
  obtain ⟨readers, heq, hreaders⟩ := foldl_reads (s := { s with
      made := s.made + 1
      pendingSelection := none
      readers := s.readers.insert (s.made + 1) ⟨mimeType, offered, .reading []⟩ })
    (HashMap.get_insert_self _ _ _) hread
  rw [heq]
  cases hpair : forwardedPair mimeType offered data with
  | none =>
    rw [hpair] at hreaders
    simp only [Option.map_none] at hreaders
    simp [step, readerSends, hreaders, clipboardMessages, controls]
  | some pair =>
    rw [hpair] at hreaders
    simp only [Option.map_some] at hreaders
    simp [step, readerSends, hreaders, hup, clipboardMessages, controls]

end Selections

/-- What the client does to its clipboard upon a control message: the text it writes, if any. -/
def handleControlMessage (c : LocalClipboard) : ControlMessage → Option String × LocalClipboard
  | .clipboardData clip => c.applyRemote clip
  | _ => (none, c)

/-- The texts that the client writes to the OS clipboard. -/
def textsWritten (c : LocalClipboard) : List ControlMessage → List String
  | [] => []
  | msg :: msgs =>
    let (text, c) := handleControlMessage c msg
    text.toList ++ textsWritten c msgs

/-- The messages that the network thread relays to a client. -/
def relayed (capabilities : ClientCapabilities) (msgs : List ControlMessage) :
    List ControlMessage :=
  (msgs.map CompositorToNet.sendControl).filterMap (·.control? capabilities)

theorem relayed_eq_self {capabilities : ClientCapabilities} (h : capabilities.clipboard = true)
    (msgs : List ControlMessage) : relayed capabilities msgs = msgs := by
  induction msgs with
  | nil => rfl
  | cons msg msgs ih =>
    have hmsg : (CompositorToNet.sendControl msg).control? capabilities = some msg := by
      simp [CompositorToNet.control?, h]
    rw [relayed, List.map_cons, List.filterMap_cons, hmsg]
    exact congrArg (msg :: ·) ih

/-- What a client writes of a forwarded pair. -/
theorem textsWritten_pair {c : LocalClipboard} (hinner : c.inner = true) (offer : ClipboardOffer)
    (clip : ClipboardData) :
    textsWritten c (clipboardMessages (some (offer, clip))) =
      if isTextMime clip.mimeType = true then (fromUtf8 clip.data).toList else [] := by
  unfold clipboardMessages textsWritten textsWritten textsWritten handleControlMessage
    LocalClipboard.applyRemote
  by_cases hmime : isTextMime clip.mimeType = true
  · cases htext : fromUtf8 clip.data <;> simp [hmime, hinner, htext]
  · simp [hmime]

/-- A text that is supplied for the type chosen is forwarded as it is, if there is any. -/
theorem forwardSelection_supplied {offered : List String} {source : String → List PipeRead}
    {text chosen : String} (hchosen : preferredMimeType offered = some chosen)
    (hcap : (intoBytes text).length ≤ maxClipboardData)
    (hsupplies : Supplies (intoBytes text) (source chosen)) :
    forwardSelection offered source =
      if text = "" then none else some (⟨offered⟩, ⟨chosen, intoBytes text⟩) := by
  rw [forwardSelection, hchosen, Option.bind_some, readPipe_of_supplies hsupplies hcap]
  simp [forwardedPair, capClipboardPayload, hcap, intoBytes_eq_nil]

/-- Whatever is read of a type that is no text, the client does not take it. -/
theorem textsWritten_of_not_text {c : LocalClipboard} (hinner : c.inner = true)
    {offered : List String} {source : String → List PipeRead} {chosen : String}
    (hchosen : preferredMimeType offered = some chosen) (hmime : ¬ isTextMime chosen = true) :
    textsWritten c (clipboardMessages (forwardSelection offered source)) = [] := by
  rw [forwardSelection, hchosen, Option.bind_some]
  cases readPipe [] (source chosen) with
  | ended data =>
    dsimp only
    unfold forwardedPair
    split_ifs
    · rfl
    · rw [textsWritten_pair hinner, if_neg hmime]
  | reading data => rfl
  | failed => rfl

/-- **Texts delivered, exactly.**  Of a selection whose source supplies one text, of a size up to
the cap, for every type that is a text, a client with the clipboard capability writes just this text
to its OS clipboard if and only if the text is not empty and the offer has a `text/*` type or
`UTF8_STRING`, or begins with a text type. -/
theorem delivered_iff (offered : List String) (source : String → List PipeRead) (text : String)
    (hcap : (intoBytes text).length ≤ maxClipboardData)
    (hsupplies : ∀ mime ∈ offered, isTextMime mime = true →
      Supplies (intoBytes text) (source mime))
    (advertised : List String) (hadvertised : Caps.clipboard ∈ advertised) (c : LocalClipboard)
    (hinner : c.inner = true) :
    textsWritten c (relayed (.fromAdvertised advertised)
        (clipboardMessages (forwardSelection offered source))) = [text] ↔
      text ≠ "" ∧ ((∃ mime ∈ offered, isSoughtText mime = true) ∨
        ∃ mime, offered.head? = some mime ∧ isTextMime mime = true) := by
  have hcapable : (ClientCapabilities.fromAdvertised advertised).clipboard = true := by
    simpa [ClientCapabilities.fromAdvertised] using hadvertised
  rw [relayed_eq_self hcapable, ← isTextMime_preferredMimeType]
  cases hchosen : preferredMimeType offered with
  | none => simp [forwardSelection, hchosen, clipboardMessages, textsWritten]
  | some chosen =>
    by_cases hmime : isTextMime chosen = true
    · rw [forwardSelection_supplied hchosen hcap
        (hsupplies chosen (mem_of_preferredMimeType hchosen) hmime)]
      by_cases hempty : text = ""
      · simp [hempty, clipboardMessages, textsWritten]
      · rw [if_neg hempty, textsWritten_pair hinner, if_pos hmime, fromUtf8_intoBytes]
        simp [hempty, hmime]
    · rw [textsWritten_of_not_text hinner hchosen hmime]
      simp [hmime]

/-- A source that writes a greeting for every text type, and a byte of a picture for every other. -/
def greeting (mime : String) : List PipeRead :=
  if isTextMime mime = true then [.ok [104, 105], .ok []] else [.ok [137], .ok []]

theorem greeting_supplies {mime : String} (h : isTextMime mime = true) :
    Supplies (intoBytes "hi") (greeting mime) := by
  rw [greeting, if_pos h]
  exact .chunk 104 [105] (.done [])

/-- An offer with plain text brings the greeting to the client. -/
theorem delivered_greeting :
    textsWritten ⟨true, none⟩ (relayed (.fromAdvertised [Caps.clipboard])
      (clipboardMessages (forwardSelection ["image/png", "text/plain"] greeting))) = ["hi"] :=
  (delivered_iff ["image/png", "text/plain"] greeting "hi" (by decide)
    (fun _ _ h => greeting_supplies h) [Caps.clipboard] List.mem_cons_self ⟨true, none⟩ rfl).mpr
    (by decide)

/-- **A text withheld.**  The client would take `STRING` for a text, but the picture is transferred,
which it does not write. -/
theorem picture_preferred :
    (∃ mime ∈ ["image/png", "STRING"], isTextMime mime = true) ∧
      (intoBytes "hi").length ≤ maxClipboardData ∧
      (∀ mime ∈ ["image/png", "STRING"], isTextMime mime = true →
        Supplies (intoBytes "hi") (greeting mime)) ∧
      textsWritten ⟨true, none⟩ (relayed (.fromAdvertised [Caps.clipboard])
        (clipboardMessages (forwardSelection ["image/png", "STRING"] greeting))) ≠ ["hi"] :=
  ⟨by decide, by decide, fun _ _ h => greeting_supplies h, by decide⟩

end WayRay
