import WayRay.Collections.GuardedRun
import WayRay.Protocol.Messages

/-!
# The local clipboard

The client keeps the OS clipboard in step with the server: it writes the texts it receives to it,
and when its window gains the focus it reads it and sends a text that has changed.  `last_text`, the
last text observed in either direction, is what suppresses echoes and repeats; it is recorded before
the text is known to be sent.

`ClipboardSync` is the client with its surroundings: the OS clipboard, the connection and the queue
of focus events.  `keepsUp_iff` says exactly in which runs no update is lost and nothing is echoed.
-/

namespace WayRay

open GuardedRun

/-! ### Texts and bytes -/

/-- `str::from_utf8`. -/
def fromUtf8 (data : Bytes) : Option String := String.fromUTF8? ⟨data.toArray⟩

/-- `String::into_bytes`. -/
def intoBytes (text : String) : Bytes := text.toByteArray.data.toList

theorem fromUtf8_eq_some {data : Bytes} {text : String} :
    fromUtf8 data = some text ↔ data = intoBytes text := by
  unfold fromUtf8 intoBytes String.fromUTF8?
  split
  · next h =>
    rw [Option.some.injEq]
    constructor
    · rintro rfl
      rfl
    · rintro rfl
      rfl
  · next h =>
    constructor
    · intro hnone
      exact absurd hnone.symm (Option.some_ne_none text)
    · rintro rfl
      exact absurd text.isValidUTF8 h

@[simp] theorem fromUtf8_intoBytes (text : String) : fromUtf8 (intoBytes text) = some text :=
  fromUtf8_eq_some.mpr rfl

theorem intoBytes_eq_nil {text : String} : intoBytes text = [] ↔ text = "" := by
  constructor
  · intro h
    have hempty : fromUtf8 [] = some text := fromUtf8_eq_some.mpr h.symm
    have hnil : fromUtf8 [] = some "" := fromUtf8_eq_some.mpr rfl
    exact Option.some.inj (hempty.symm.trans hnil)
  · rintro rfl
    rfl

/-! ### The clipboard of the client -/

/-- The mime type of text captured from the local OS clipboard. -/
def textMime : String := "text/plain;charset=utf-8"

/-- The OS clipboard with echo suppression. -/
structure LocalClipboard where
  /-- Whether the OS clipboard could be opened. -/
  inner : Bool
  /-- The last text observed in either direction. -/
  lastText : Option String
deriving DecidableEq

namespace LocalClipboard

/-- A captured text as it is sent. -/
def captured (text : String) : ClipboardData :=
  ⟨textMime, (capClipboardPayload (intoBytes text) textMime).2⟩

/-- Capture the local clipboard if its text changed since the last observation.  `getText` is what
the OS clipboard answers, if it is asked. -/
def captureIfChanged (c : LocalClipboard) (getText : Option String) :
    Option ClipboardData × LocalClipboard :=
  if !c.inner then (none, c)
  else
    match getText with
    | none => (none, c)
    | some text =>
      if text.isEmpty || c.lastText == some text then (none, c)
      else (some (captured text), { c with lastText := some text })

/-- Place clipboard data received from the server on the local OS clipboard.  Returns the text that
is written to it. -/
def applyRemote (c : LocalClipboard) (clip : ClipboardData) : Option String × LocalClipboard :=
  if !isTextMime clip.mimeType then (none, c)
  else
    match fromUtf8 clip.data with
    | none => (none, c)
    -- recorded also if it can not be written
    | some text => (if c.inner then some text else none, { c with lastText := some text })

end LocalClipboard

/-! ### The client and its surroundings -/

/-- A text on the OS clipboard. -/
structure OsText where
  text : String
  /-- Whether the client wrote it, for the server. -/
  remote : Bool
deriving DecidableEq

/-- The client, the OS clipboard and the connection. -/
structure ClipboardSync where
  clipboard : LocalClipboard
  /-- What is on the OS clipboard, unless it is empty or no text. -/
  os : Option OsText
  /-- The protocol version of the server, while there is a connection. -/
  connection : Option UInt32
  /-- Focus events in the queue. -/
  focusGains : ℕ
  /-- The messages handed to the connection. -/
  handed : List ClipboardData
  /-- The last text exchanged with the server: received from it, or handed to the connection. -/
  exchanged : Option String
  /-- The text of the last send, if it failed and no text has been exchanged since. -/
  failed : Option String
  /-- The last text received from the server. -/
  received : Option String
deriving DecidableEq

namespace ClipboardSync

/-- The client as it starts, on an endpoint whose OS clipboard can be opened or not and may hold a
text already. -/
def start (inner : Bool) (text : Option String) : ClipboardSync where
  clipboard := ⟨inner, none⟩
  os := text.map (⟨·, false⟩)
  connection := none
  focusGains := 0
  handed := []
  exchanged := none
  failed := none
  received := none

/-- A clipboard message of the server is handled; the OS may refuse the text. -/
def receive (s : ClipboardSync) (clip : ClipboardData) (written : Bool) : ClipboardSync :=
  let (write, clipboard) := s.clipboard.applyRemote clip
  let os := match write with
    | some text => if written then some ⟨text, true⟩ else s.os
    | none => s.os
  if isTextMime clip.mimeType && (fromUtf8 clip.data).isSome then
    { s with
      clipboard := clipboard
      os := os
      exchanged := fromUtf8 clip.data
      failed := none
      received := fromUtf8 clip.data }
  else { s with clipboard := clipboard, os := os }

/-- Whether the queued focus events lead to a poll: there are some, and the server understands
clipboard messages. -/
def polling (s : ClipboardSync) : Bool :=
  s.connection.any (2 ≤ ·) && s.focusGains != 0

/-- What the OS clipboard answers when it is asked for its text; it may fail to. -/
def getText (s : ClipboardSync) (readable : Bool) : Option String :=
  if readable then s.os.map OsText.text else none

/-- The session loop comes to the focus events, all of which it takes from the queue.  Returns what
it sends, and the client afterwards; a send that fails ends the connection. -/
def pollFocus (s : ClipboardSync) (readable sent : Bool) : Option ClipboardData × ClipboardSync :=
  if s.connection.isNone then (none, s)
  else if !s.polling then (none, { s with focusGains := 0 })
  else
    match s.clipboard.captureIfChanged (s.getText readable) with
    | (none, clipboard) => (none, { s with focusGains := 0, clipboard := clipboard })
    | (some clip, clipboard) =>
      if sent then
        (some clip, { s with
          focusGains := 0
          clipboard := clipboard
          handed := s.handed ++ [clip]
          exchanged := s.getText readable
          failed := none })
      else
        (some clip, { s with
          focusGains := 0
          clipboard := clipboard
          connection := none
          failed := s.getText readable })

/-- What may happen next. -/
inductive Event where
  /-- Another application, or the user, changes the OS clipboard. -/
  | localChange (text : Option String)
  | focusGain
  | connect (version : UInt32)
  | disconnect
  | receive (clip : ClipboardData) (written : Bool)
  | poll (readable sent : Bool)

def step (s : ClipboardSync) : Event → ClipboardSync
  | .localChange text => { s with os := text.map (⟨·, false⟩) }
  | .focusGain => { s with focusGains := s.focusGains + 1 }
  | .connect version => { s with connection := some version }
  | .disconnect => { s with connection := none }
  -- messages surface while there is a connection
  | .receive clip written => if s.connection.isNone then s else s.receive clip written
  | .poll readable sent => (s.pollFocus readable sent).2

/-! ### What is to hold of the polls -/

/-- The session loop polls the OS clipboard and finds a text. -/
def Finds (s : ClipboardSync) (readable : Bool) (found : OsText) : Prop :=
  s.polling = true ∧ s.clipboard.inner = true ∧ readable = true ∧ s.os = some found

/-- No update is lost and none is echoed: a poll that finds a text, other than the last one
exchanged, sends it, and sends no text that the client itself wrote for the server.  An update whose
send fails is thus sent again at the next poll that finds it. -/
def KeepsUp (s : ClipboardSync) : Event → Prop
  | .poll readable sent =>
    ∀ found, s.Finds readable found →
      (found.text ≠ "" → s.exchanged ≠ some found.text →
        (s.pollFocus readable sent).1 = some (LocalClipboard.captured found.text)) ∧
      (found.remote = true → (s.pollFocus readable sent).1 = none)
  | _ => True

/-- A poll does not find the text of a failed send again before any text is exchanged, unless it was
the last text exchanged before, and finds a text of the server only if it is the last one received
or empty. -/
def PollsFresh (s : ClipboardSync) : Event → Prop
  | .poll readable _ =>
    ∀ found, s.Finds readable found →
      (found.text ≠ "" → s.exchanged ≠ some found.text → s.failed ≠ some found.text) ∧
      (found.remote = true → found.text = "" ∨ s.received = some found.text)
  | _ => True

/-- What the client has observed is what failed to be sent, or else what was exchanged last, and as
long as the text of the server stays on the OS clipboard it is the last one received. -/
structure Observes (s : ClipboardSync) : Prop where
  lastText : s.clipboard.lastText = s.failed.or s.exchanged
  remote : ∀ found, s.os = some found → found.remote = true → s.clipboard.lastText = s.received

variable {s : ClipboardSync}

/-! ### One poll -/

theorem captureIfChanged_some {c : LocalClipboard} (hinner : c.inner = true) (text : String) :
    c.captureIfChanged (some text) =
      if text = "" ∨ c.lastText = some text then (none, c)
      else (some (LocalClipboard.captured text), { c with lastText := some text }) := by
  simp [LocalClipboard.captureIfChanged, hinner, String.isEmpty_iff]

/-- What a poll that finds a text does. -/
theorem pollFocus_of_finds {readable : Bool} {found : OsText} (h : s.Finds readable found)
    (sent : Bool) :
    s.pollFocus readable sent =
      if found.text = "" ∨ s.clipboard.lastText = some found.text then
        (none, { s with focusGains := 0 })
      else
        (some (LocalClipboard.captured found.text),
          if sent then
            { s with
              focusGains := 0
              clipboard := { s.clipboard with lastText := some found.text }
              handed := s.handed ++ [LocalClipboard.captured found.text]
              exchanged := some found.text
              failed := none }
          else
            { s with
              focusGains := 0
              clipboard := { s.clipboard with lastText := some found.text }
              connection := none
              failed := some found.text }) := by
  obtain ⟨hpolling, hinner, rfl, hos⟩ := h
  have hconnection : s.connection.isNone = false := by
    cases hc : s.connection with
    | none => simp [polling, hc] at hpolling
    | some version => rfl
  have hget : s.getText true = some found.text := by simp [getText, hos]
  unfold pollFocus
  rw [hconnection, hpolling, hget, captureIfChanged_some hinner]
  by_cases hknown : found.text = "" ∨ s.clipboard.lastText = some found.text
  · simp [if_pos hknown]
  · cases sent <;> simp [if_neg hknown]

/-- What a poll that finds no text does. -/
theorem pollFocus_of_not_finds {readable : Bool} (h : ∀ found, ¬ s.Finds readable found)
    (sent : Bool) :
    (s.pollFocus readable sent).2 = s ∨
      (s.pollFocus readable sent).2 = { s with focusGains := 0 } := by
  unfold pollFocus
  by_cases hconnection : s.connection.isNone = true
  · exact Or.inl (by rw [if_pos hconnection])
  · right
    rw [if_neg hconnection]
    by_cases hpolling : s.polling = true
    · have hcapture : s.clipboard.captureIfChanged (s.getText readable) = (none, s.clipboard) := by
        unfold LocalClipboard.captureIfChanged getText
        cases hinner : s.clipboard.inner with
        | false => simp
        | true =>
          cases hos : s.os with
          | none => simp
          | some found =>
            cases readable with
            | false => simp
            | true => exact absurd ⟨hpolling, hinner, rfl, hos⟩ (h found)
      simp [hpolling, hcapture]
    · simp [hpolling]

/-- Under the invariant, the polls that keep up are those that find something fresh. -/
theorem keepsUp_iff_pollsFresh (h : s.Observes) (e : Event) : s.KeepsUp e ↔ s.PollsFresh e := by
  cases e with
  | poll readable sent =>
    refine forall_congr' fun found => forall_congr' fun hfinds => ?_
    have hpoll := congrArg Prod.fst (pollFocus_of_finds hfinds sent)
    rw [apply_ite Prod.fst] at hpoll
    rw [hpoll]
    refine and_congr ?_ ?_
    · -- a text that differs from the last one exchanged is suppressed if its sending failed
      refine forall_congr' fun hne => forall_congr' fun hexchanged => ?_
      have hlast : s.clipboard.lastText = some found.text ↔ s.failed = some found.text := by
        rw [h.lastText]
        cases s.failed with
        | none => simp [hexchanged]
        | some text => simp
      by_cases hfailed : s.failed = some found.text
      · simp [hlast, hfailed]
      · simp [hlast, hfailed, hne]
    · refine forall_congr' fun hremote => ?_
      rw [← h.remote found hfinds.2.2.2 hremote]
      by_cases hknown : found.text = "" ∨ s.clipboard.lastText = some found.text
      · simp [hknown]
      · simp [hknown]
  | _ => exact Iff.rfl

/-! ### Every step -/

theorem observes_receive (h : s.Observes) (clip : ClipboardData) (written : Bool) :
    (s.receive clip written).Observes := by
  unfold receive LocalClipboard.applyRemote
  by_cases hmime : isTextMime clip.mimeType = true
  · cases fromUtf8 clip.data with
    | none =>
      simp only [hmime]
      exact h
    | some text =>
      simp only [hmime]
      exact ⟨rfl, fun _ _ _ => rfl⟩
  · simp only [hmime]
    exact h

theorem observes_poll (h : s.Observes) {readable sent : Bool}
    (hfresh : s.PollsFresh (.poll readable sent)) : (s.pollFocus readable sent).2.Observes := by
  by_cases hfinds : ∃ found, s.Finds readable found
  · obtain ⟨found, hfound⟩ := hfinds
    rw [pollFocus_of_finds hfound]
    by_cases hknown : found.text = "" ∨ s.clipboard.lastText = some found.text
    · rw [if_pos hknown]
      exact ⟨h.lastText, h.remote⟩
    · rw [if_neg hknown]
      -- a text that is sent is not the server's
      have hlocal : ∀ found', s.os = some found' → found'.remote ≠ true := by
        intro found' hos hremote
        obtain rfl : found = found' := Option.some.inj (hfound.2.2.2.symm.trans hos)
        have hlast := (hfresh found hfound).2 hremote
        rw [← h.remote found hos hremote] at hlast
        exact hknown hlast
      cases sent with
      | false => exact ⟨rfl, fun found' hos hremote => absurd hremote (hlocal found' hos)⟩
      | true => exact ⟨rfl, fun found' hos hremote => absurd hremote (hlocal found' hos)⟩
  · rcases pollFocus_of_not_finds (fun found hfound => hfinds ⟨found, hfound⟩) sent with heq | heq
    · rw [heq]
      exact h
    · rw [heq]
      exact ⟨h.lastText, h.remote⟩

theorem observes_step (s : ClipboardSync) (e : Event) (h : s.Observes) (hfresh : s.PollsFresh e) :
    (s.step e).Observes := by
  cases e with
  | localChange text =>
    refine ⟨h.lastText, fun found hos hremote => ?_⟩
    obtain ⟨text', -, rfl⟩ := Option.map_eq_some_iff.mp hos
    exact absurd hremote (by simp)
  | focusGain | connect _ | disconnect => exact ⟨h.lastText, h.remote⟩
  | receive clip written =>
    unfold step
    split_ifs
    · exact h
    · exact observes_receive h clip written
  | poll readable sent => exact observes_poll h hfresh

/-- **No lost update and no echo, exactly.**  In a run every poll that finds a text other than the
last one exchanged sends it, and none sends back a text that the client wrote for the server, if and
only if no poll finds the text of a failed send again before a text is exchanged, nor a text of the
server after a later one that the OS clipboard has refused. -/
theorem keepsUp_iff (inner : Bool) (text : Option String) (events : List Event) :
    Along step PollsFresh (start inner text) events ↔
      ∀ pre e post, events = pre ++ e :: post →
        (pre.foldl step (start inner text)).KeepsUp e := by
  have hstart : (start inner text).Observes := by
    refine ⟨rfl, fun found hos hremote => ?_⟩
    obtain ⟨text', -, rfl⟩ := Option.map_eq_some_iff.mp hos
    exact absurd hremote (by simp)
  rw [← along_iff_forall_split]
  exact along_congr observes_step (fun s e h => (keepsUp_iff_pollsFresh h e).symm) hstart

/-- The client fails to send a text and reconnects. -/
def failedOnce : List Event :=
  [.connect 2, .focusGain, .poll true false, .connect 2, .focusGain]

/-- **An update lost.**  The next poll finds a text that was never exchanged, and sends nothing. -/
theorem update_lost :
    ¬ ∀ pre e post, failedOnce ++ [.poll true true] = pre ++ e :: post →
      (pre.foldl step (start true (some "a"))).KeepsUp e := by
  intro h
  have hfinds : (failedOnce.foldl step (start true (some "a"))).Finds true ⟨"a", false⟩ := by
    unfold Finds
    decide
  have hsends := (h failedOnce (.poll true true) [] rfl ⟨"a", false⟩ hfinds).1 (by decide)
    (by decide)
  have hsilent :
      ((failedOnce.foldl step (start true (some "a"))).pollFocus true true).1 = none := by decide
  rw [hsilent] at hsends
  exact absurd hsends.symm (Option.some_ne_none _)

end ClipboardSync

end WayRay
