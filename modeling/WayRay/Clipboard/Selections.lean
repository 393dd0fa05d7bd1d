import WayRay.Clipboard.Mime
import WayRay.Collections.GuardedRun
import WayRay.Collections.HashMap
import WayRay.Network.Channel

/-!
# Forwarding selections to the client

When a Wayland application takes the clipboard selection, the compositor requests its contents on
the next turn of its event loop and leaves reading them to a thread of their own, which queues a
`ClipboardOffer` and a `ClipboardData` for the client when the source has finished writing.  Sources
finish when they like, and nothing orders the threads.

`inTurn_iff` says exactly in which runs the last data queued is of the most recent selection that
was forwarded, and all data directly follow the offer of their own selection.  It is the order of
the threads (`senders`) that decides: each one has to send its second message right after its first,
and before the thread of any later selection does.  `overtaken` is a run that goes otherwise.

A selection is identified by its number, in the order in which the applications make them.
-/

namespace WayRay

open GuardedRun

/-! ### Reading a selection -/

/-- What a read from the pipe returns: bytes (none at the end of the source), an interruption, or
another error. -/
inductive PipeRead where
  | ok (bytes : Bytes)
  | interrupted
  | failed

/-- Where the read loop stands. -/
inductive Reading where
  | reading (data : Bytes)
  | ended (data : Bytes)
  | failed
deriving DecidableEq

/-- One turn of the read loop, which goes on up to one byte past the cap. -/
def readTurn (data : Bytes) : PipeRead → Reading
  | .ok [] => .ended data
  | .ok (byte :: bytes) =>
    let data := data ++ byte :: bytes
    if data.length ≤ maxClipboardData then .reading data else .ended data
  | .interrupted => .reading data
  | .failed => .failed

/-- What is forwarded of the data read: nothing if there are none, else an offer and the data up to
the cap. -/
def forwardedPair (mimeType : String) (offered : List String) (data : Bytes) :
    Option (ClipboardOffer × ClipboardData) :=
  if data.isEmpty then none
  else some (⟨offered⟩, ⟨mimeType, (capClipboardPayload data mimeType).2⟩)

/-! ### The state -/

/-- What a reader thread is about to do. -/
inductive ReaderPhase where
  | reading (data : Bytes)
  | offering (offer : ClipboardOffer) (clip : ClipboardData)
  /-- Its offer is queued, its data are not. -/
  | sending (clip : ClipboardData)
deriving DecidableEq

/-- The source has been read, and there is a message to queue. -/
def ReaderPhase.hasRead : ReaderPhase → Bool
  | .reading _ => false
  | .offering _ _ | .sending _ => true

/-- How many messages are queued. -/
def ReaderPhase.queued : ReaderPhase → ℕ
  | .reading _ | .offering _ _ => 0
  | .sending _ => 1

/-- A thread that runs `read_selection_and_forward`. -/
structure ReaderThread where
  mimeType : String
  offered : List String
  phase : ReaderPhase
deriving DecidableEq

/-- A message on its way to the network thread. -/
inductive Outgoing where
  /-- Queued by the reader thread of a selection. -/
  | control (selection : ℕ) (msg : ControlMessage)
  /-- Queued by the compositor thread, such as a frame. -/
  | other (msg : CompositorToNet)
deriving DecidableEq

/-- Which selection an application takes. -/
inductive SelectionTarget where
  | clipboard
  | primary
deriving DecidableEq

/-- What the compositor and its reader threads know of selections. -/
structure Selections where
  /-- Whether there is a network path. -/
  clipboardTx : Bool
  /-- The number of clipboard selections made so far. -/
  made : ℕ
  /-- The selection to request on the next turn, with the mime types it offers. -/
  pendingSelection : Option (ℕ × List String)
  readers : HashMap ℕ ReaderThread
  queue : List Outgoing
  /-- Whether the network thread still receives. -/
  networkUp : Bool

namespace Selections

/-- Before the first selection. -/
def start (clipboardTx : Bool) : Selections := ⟨clipboardTx, 0, none, ∅, [], true⟩

/-- The messages of the reader threads, with the selections they are about. -/
def controls (s : Selections) : List (ℕ × ControlMessage) :=
  s.queue.filterMap fun
    | .control selection msg => some (selection, msg)
    | .other _ => none

/-! ### Events -/

/-- An application takes a selection, or clears it. -/
def newSelection (s : Selections) (ty : SelectionTarget) (source : Option (List String)) :
    Selections :=
  if ty ≠ .clipboard then s
  else
    match source with
    | none => { s with pendingSelection := none }
    | some mimeTypes =>
      if !s.clipboardTx then s
      else { s with made := s.made + 1, pendingSelection := some (s.made + 1, mimeTypes) }

/-- Request the pending selection and read it on a thread of its own.  The pipe, the request or the
thread may fail. -/
def processPendingClipboard (s : Selections) (piped requested spawned : Bool) : Selections :=
  match s.pendingSelection with
  | none => s
  | some (selection, mimeTypes) =>
    let s := { s with pendingSelection := none }
    if !s.clipboardTx then s
    else
      match preferredMimeType mimeTypes with
      | none => s
      | some mimeType =>
        if piped && requested && spawned then
          { s with readers := s.readers.insert selection ⟨mimeType, mimeTypes, .reading []⟩ }
        else s

/-- A read returns in the reader thread of a selection. -/
def readerReads (s : Selections) (selection : ℕ) (result : PipeRead) : Selections :=
  match s.readers.get selection with
  | some ⟨mimeType, offered, .reading data⟩ =>
    match readTurn data result with
    | .reading data =>
      { s with readers := s.readers.insert selection ⟨mimeType, offered, .reading data⟩ }
    | .failed => { s with readers := s.readers.remove selection }
    | .ended data =>
      match forwardedPair mimeType offered data with
      | none => { s with readers := s.readers.remove selection }
      | some (offer, clip) =>
        { s with readers := s.readers.insert selection ⟨mimeType, offered, .offering offer clip⟩ }
  | _ => s

/-- The reader thread of a selection queues its next message, and ends after the second one or if
the network thread is gone. -/
def readerSends (s : Selections) (selection : ℕ) : Selections :=
  match s.readers.get selection with
  | some ⟨mimeType, offered, .offering offer clip⟩ =>
    if s.networkUp then
      { s with
        queue := s.queue ++ [.control selection (.clipboardOffer offer)]
        readers := s.readers.insert selection ⟨mimeType, offered, .sending clip⟩ }
    else { s with readers := s.readers.remove selection }
  | some ⟨_, _, .sending clip⟩ =>
    let s := { s with readers := s.readers.remove selection }
    if s.networkUp then { s with queue := s.queue ++ [.control selection (.clipboardData clip)] }
    else s
  | _ => s

/-- What may happen next, in any order. -/
inductive Event where
  | newSelection (ty : SelectionTarget) (source : Option (List String))
  | turn (piped requested spawned : Bool)
  | reads (selection : ℕ) (result : PipeRead)
  | sends (selection : ℕ)
  | other (msg : CompositorToNet)
  | networkGone

def step (s : Selections) : Event → Selections
  | .newSelection ty source => s.newSelection ty source
  | .turn piped requested spawned => s.processPendingClipboard piped requested spawned
  | .reads selection result => s.readerReads selection result
  | .sends selection => s.readerSends selection
  | .other msg => { s with queue := s.queue ++ [.other msg] }
  | .networkGone => { s with networkUp := false }

/-! ### What is to hold of the queue -/

/-- The selections whose data are queued. -/
def forwarded (controls : List (ℕ × ControlMessage)) : List ℕ :=
  controls.filterMap fun
    | (selection, .clipboardData _) => some selection
    | _ => none

/-- The last data queued are of the most recent selection whose data are queued. -/
def LatestWins (controls : List (ℕ × ControlMessage)) : Prop :=
  ∀ n, (forwarded controls).getLast? = some n → ∀ m ∈ forwarded controls, m ≤ n

/-- All data directly follow the offer of their own selection. -/
def Paired (controls : List (ℕ × ControlMessage)) : Prop :=
  ∀ pre n clip post, controls = pre ++ (n, .clipboardData clip) :: post →
    ∃ pre' offer, pre = pre' ++ [(n, .clipboardOffer offer)]

/-- The reader thread of a selection has queued its offer and is to queue its data. -/
def Sending (readers : HashMap ℕ ReaderThread) (n : ℕ) (clip : ClipboardData) : Prop :=
  ∃ reader, readers.get n = some reader ∧ reader.phase = .sending clip

/-! ### The order of the threads -/

/-- The reader thread that queues a message in an event. -/
def sender (s : Selections) : Event → Option ℕ
  | .sends n =>
    if s.networkUp && (s.readers.get n).any fun reader => reader.phase.hasRead then some n else none
  | _ => none

/-- The order in which the reader threads queue their messages. -/
def senders (s : Selections) : List Event → List ℕ
  | [] => []
  | event :: events => (s.sender event).toList ++ senders (s.step event) events

/-- Every thread sends for the second time right after it has sent for the first time, and before
the thread of any later selection does so. -/
def InTurn (order : List ℕ) : Prop :=
  ∀ pre n post, order = pre ++ n :: post → n ∈ pre →
    pre.getLast? = some n ∧ ∀ m, 2 ≤ pre.count m → m ≤ n

/-- The order so far. -/
def order (s : Selections) : List ℕ := s.controls.map Prod.fst

/-- A thread that sends in an event does so in turn. -/
def SendsInTurn (s : Selections) (e : Event) : Prop :=
  ∀ n, s.sender e = some n → n ∈ s.order →
    s.order.getLast? = some n ∧ ∀ m, 2 ≤ s.order.count m → m ≤ n

/-- In a longer list a split comes before, or at the last element. -/
private theorem append_singleton_eq {α : Type} {l pre post : List α} {a b : α}
    (h : l ++ [a] = pre ++ b :: post) :
    (l = pre ∧ a = b) ∨ ∃ post', l = pre ++ b :: post' := by
  rcases List.eq_nil_or_concat' post with rfl | ⟨post', c, rfl⟩
  · exact Or.inl (List.append_singleton_inj.mp h)
  · rw [← List.cons_append, ← List.append_assoc] at h
    exact Or.inr ⟨post', (List.append_singleton_inj.mp h).1⟩

theorem inTurn_concat {order : List ℕ} {n : ℕ} :
    InTurn (order ++ [n]) ↔ InTurn order ∧
      (n ∈ order → order.getLast? = some n ∧ ∀ m, 2 ≤ order.count m → m ≤ n) := by
  constructor
  · intro h
    refine ⟨fun pre m post heq => ?_, h order n [] rfl⟩
    exact h pre m (post ++ [n]) (by rw [heq, List.append_assoc, List.cons_append])
  · rintro ⟨hbefore, hlast⟩ pre m post heq
    rcases append_singleton_eq heq with ⟨rfl, rfl⟩ | ⟨post', heq'⟩
    · exact hlast
    · exact hbefore pre m post' heq'

section Queue

variable {controls : List (ℕ × ControlMessage)} {n : ℕ}

theorem forwarded_append_offer (offer : ClipboardOffer) :
    forwarded (controls ++ [(n, .clipboardOffer offer)]) = forwarded controls := by
  simp [forwarded]

theorem forwarded_append_data (clip : ClipboardData) :
    forwarded (controls ++ [(n, .clipboardData clip)]) = forwarded controls ++ [n] := by
  simp [forwarded]

theorem latestWins_append_data (clip : ClipboardData) :
    LatestWins (controls ++ [(n, .clipboardData clip)]) ↔ ∀ m ∈ forwarded controls, m ≤ n := by
  unfold LatestWins
  rw [forwarded_append_data, List.getLast?_concat]
  constructor
  · intro h m hm
    exact h n rfl m (List.mem_append_left _ hm)
  · intro h n' hn m hm
    obtain rfl := Option.some.inj hn
    rcases List.mem_append.mp hm with hm | hm
    · exact h m hm
    · exact le_of_eq (List.mem_singleton.mp hm)

theorem Paired.append_offer (h : Paired controls) (offer : ClipboardOffer) :
    Paired (controls ++ [(n, .clipboardOffer offer)]) := by
  intro pre m clip post heq
  rcases append_singleton_eq heq with ⟨-, hmsg⟩ | ⟨post', heq'⟩
  · exact absurd (congrArg Prod.snd hmsg) (by simp)
  · exact h pre m clip post' heq'

theorem Paired.append_data (h : Paired controls) (clip : ClipboardData) :
    Paired (controls ++ [(n, .clipboardData clip)]) ↔
      ∃ pre offer, controls = pre ++ [(n, .clipboardOffer offer)] := by
  constructor
  · intro hall
    exact hall controls n clip [] rfl
  · rintro hlast pre m clip' post heq
    rcases append_singleton_eq heq with ⟨rfl, hmsg⟩ | ⟨post', heq'⟩
    · obtain rfl : n = m := congrArg Prod.fst hmsg
      exact hlast
    · exact h pre m clip' post' heq'

end Queue

/-! ### Every step -/

section Readers

variable {readers : HashMap ℕ ReaderThread} {m n : ℕ} {reader : ReaderThread} {clip : ClipboardData}

theorem Sending.of_remove (h : Sending (readers.remove n) m clip) : Sending readers m clip := by
  obtain ⟨reader, hget, hphase⟩ := h
  rw [HashMap.get_remove] at hget
  split_ifs at hget
  exact ⟨reader, hget, hphase⟩

/-- A thread that is stored anew is the only one that may have come to send. -/
theorem Sending.of_insert (h : Sending (readers.insert n reader) m clip) :
    m = n ∧ reader.phase = .sending clip ∨ Sending readers m clip := by
  obtain ⟨reader', hget, hphase⟩ := h
  rw [HashMap.get_insert] at hget
  split_ifs at hget with hm
  · rw [← Option.some.inj hget] at hphase
    exact Or.inl ⟨hm, hphase⟩
  · exact Or.inr ⟨reader', hget, hphase⟩

theorem Sending.of_insert_of_ne (hphase : reader.phase ≠ .sending clip)
    (h : Sending (readers.insert n reader) m clip) : Sending readers m clip :=
  h.of_insert.resolve_left fun hn => hphase hn.2

end Readers

/-- Nothing is queued by the reader threads, and none comes to send. -/
def Quiet (s s' : Selections) : Prop :=
  s'.controls = s.controls ∧ ∀ n clip, Sending s'.readers n clip → Sending s.readers n clip

theorem Quiet.refl (s : Selections) : s.Quiet s := ⟨rfl, fun _ _ h => h⟩

private theorem quiet_newSelection (s : Selections) (ty : SelectionTarget)
    (source : Option (List String)) : s.Quiet (s.newSelection ty source) := by
  unfold newSelection
  split
  · exact .refl s
  · split
    · exact .refl s
    · split <;> exact .refl s

private theorem quiet_processPendingClipboard (s : Selections) (piped requested spawned : Bool) :
    s.Quiet (s.processPendingClipboard piped requested spawned) := by
  unfold processPendingClipboard
  split
  · exact .refl s
  · dsimp only
    split
    · exact .refl s
    · split
      · exact .refl s
      · split
        · exact ⟨rfl, fun n clip h => h.of_insert_of_ne (by simp)⟩
        · exact .refl s

private theorem quiet_readerReads (s : Selections) (n : ℕ) (result : PipeRead) :
    s.Quiet (s.readerReads n result) := by
  unfold readerReads
  split
  · split
    · exact ⟨rfl, fun m clip h => h.of_insert_of_ne (by simp)⟩
    · exact ⟨rfl, fun m clip h => h.of_remove⟩
    · split
      · exact ⟨rfl, fun m clip h => h.of_remove⟩
      · exact ⟨rfl, fun m clip h => h.of_insert_of_ne (by simp)⟩
  · exact .refl s

/-- What a reader thread does when it is its turn to queue a message. -/
private theorem readerSends_cases (s : Selections) (n : ℕ) :
    (s.Quiet (s.readerSends n) ∧ s.sender (.sends n) = none) ∨
    (∃ offer, (s.readerSends n).controls = s.controls ++ [(n, .clipboardOffer offer)] ∧
      (∀ m clip, Sending (s.readerSends n).readers m clip → m = n ∨ Sending s.readers m clip) ∧
      s.sender (.sends n) = some n ∧
      ∃ reader, s.readers.get n = some reader ∧ reader.phase.queued = 0) ∨
    ∃ clip, (s.readerSends n).controls = s.controls ++ [(n, .clipboardData clip)] ∧
      (∀ m clip, Sending (s.readerSends n).readers m clip → m ≠ n ∧ Sending s.readers m clip) ∧
      s.sender (.sends n) = some n ∧ Sending s.readers n clip := by
  unfold readerSends
  cases hget : s.readers.get n with
  | none => exact Or.inl ⟨.refl s, by simp [sender, hget]⟩
  | some reader =>
    obtain ⟨mimeType, offered, data | ⟨offer, clip⟩ | clip⟩ := reader
    · exact Or.inl ⟨.refl s, by simp [sender, hget, ReaderPhase.hasRead]⟩
    · by_cases hup : s.networkUp = true
      · right; left
        refine ⟨offer, ?_, ?_, by simp [sender, hget, hup, ReaderPhase.hasRead], _, rfl, rfl⟩
        · simp [hup, controls]
        · intro m clip' h
          simp only [hup, if_true] at h
          exact h.of_insert.imp_left And.left
      · left
        have hsender : s.sender (.sends n) = none := by simp [sender, hup]
        simp only [hup]
        exact ⟨⟨rfl, fun m clip' h => h.of_remove⟩, hsender⟩
    · by_cases hup : s.networkUp = true
      · right; right
        refine ⟨clip, ?_, ?_, by simp [sender, hget, hup, ReaderPhase.hasRead], _, hget, rfl⟩
        · simp [hup, controls]
        · intro m clip' h
          simp only [hup, if_true] at h
          refine ⟨?_, h.of_remove⟩
          rintro rfl
          obtain ⟨reader, hreader, -⟩ := h
          rw [HashMap.get_remove_self] at hreader
          exact absurd hreader.symm (Option.some_ne_none reader)
      · left
        have hsender : s.sender (.sends n) = none := by simp [sender, hup]
        simp only [hup]
        exact ⟨⟨rfl, fun m clip' h => h.of_remove⟩, hsender⟩

/-- What any event does: nothing as far as the client is concerned, or a reader thread queues its
offer, or a reader thread queues its data. -/
theorem step_cases (s : Selections) (e : Event) :
    (s.Quiet (s.step e) ∧ s.sender e = none) ∨
    (∃ n offer, (s.step e).controls = s.controls ++ [(n, .clipboardOffer offer)] ∧
      (∀ m clip, Sending (s.step e).readers m clip → m = n ∨ Sending s.readers m clip) ∧
      s.sender e = some n ∧ ∃ reader, s.readers.get n = some reader ∧ reader.phase.queued = 0) ∨
    ∃ n clip, (s.step e).controls = s.controls ++ [(n, .clipboardData clip)] ∧
      (∀ m clip, Sending (s.step e).readers m clip → m ≠ n ∧ Sending s.readers m clip) ∧
      s.sender e = some n ∧ Sending s.readers n clip := by
  cases e with
  | newSelection ty source => exact Or.inl ⟨quiet_newSelection s ty source, rfl⟩
  | turn piped requested spawned =>
    exact Or.inl ⟨quiet_processPendingClipboard s piped requested spawned, rfl⟩
  | reads n result => exact Or.inl ⟨quiet_readerReads s n result, rfl⟩
  | sends n =>
    rcases readerSends_cases s n with hquiet | ⟨offer, hoffers⟩ | ⟨clip, hsends⟩
    · exact Or.inl hquiet
    · exact Or.inr (Or.inl ⟨n, offer, hoffers⟩)
    · exact Or.inr (Or.inr ⟨n, clip, hsends⟩)
  | other msg => exact Or.inl ⟨⟨by simp [step, controls], fun n clip h => h⟩, rfl⟩
  | networkGone => exact Or.inl ⟨.refl s, rfl⟩

/-- The order grows by the thread that sends. -/
theorem order_step (s : Selections) (e : Event) :
    (s.step e).order = s.order ++ (s.sender e).toList := by
  rcases s.step_cases e with ⟨⟨hcontrols, -⟩, hsender⟩ | ⟨n, offer, hcontrols, -, hsender, -⟩ |
    ⟨n, clip, hcontrols, -, hsender, -⟩
  · rw [order, hcontrols, hsender, Option.toList_none, List.append_nil, order]
  all_goals rw [order, hcontrols, hsender, List.map_append, Option.toList_some, order]; rfl

theorem order_foldl (s : Selections) (events : List Event) :
    (events.foldl step s).order = s.order ++ s.senders events := by
  induction events generalizing s with
  | nil => exact (List.append_nil _).symm
  | cons event events ih =>
    rw [List.foldl_cons, ih, order_step, senders, List.append_assoc]

/-- The order stays in turn exactly if the thread that sends does so in turn. -/
theorem inTurn_order_step (s : Selections) (e : Event) :
    InTurn (s.step e).order ↔ InTurn s.order ∧ s.SendsInTurn e := by
  rw [order_step]
  cases hsender : s.sender e with
  | none =>
    rw [Option.toList_none, List.append_nil]
    refine (and_iff_left fun n hn => ?_).symm
    exact absurd (hn.symm.trans hsender) (Option.some_ne_none n)
  | some n =>
    rw [Option.toList_some, inTurn_concat]
    refine and_congr_right fun _ => ⟨fun h m hm => ?_, fun h => h n hsender⟩
    obtain rfl := Option.some.inj (hsender.symm.trans hm)
    exact h

/-! ### Numbers of selections -/

/-- Every selection made has a number of its own: what is still to be read has queued nothing, and
otherwise the threads have queued as many messages as they say, the second ones being data. -/
structure Numbered (s : Selections) : Prop where
  made : ∀ n, s.made < n → s.order.count n = 0
  pending : ∀ n mimeTypes, s.pendingSelection = some (n, mimeTypes) →
    n ≤ s.made ∧ s.readers.get n = none ∧ s.order.count n = 0
  readers : ∀ n reader, s.readers.get n = some reader →
    n ≤ s.made ∧ s.order.count n = reader.phase.queued
  data : ∀ n, n ∈ forwarded s.controls ↔ 2 ≤ s.order.count n

variable {s : Selections}

theorem numbered_start (clipboardTx : Bool) : (start clipboardTx).Numbered where
  made _ _ := rfl
  pending _ _ h := absurd h.symm (Option.some_ne_none _)
  readers _ _ h := absurd h.symm (Option.some_ne_none _)
  data _ := by simp [start, order, controls, forwarded]

/-- The threads may be forgotten or go on, as long as they queue nothing. -/
theorem Numbered.of_readers (h : s.Numbered) {readers : HashMap ℕ ReaderThread}
    (hreaders : ∀ n reader, readers.get n = some reader →
      ∃ old, s.readers.get n = some old ∧ reader.phase.queued = old.phase.queued) :
    Numbered { s with readers := readers } where
  made := h.made
  pending n mimeTypes hpending := by
    obtain ⟨hle, hnone, hcount⟩ := h.pending n mimeTypes hpending
    refine ⟨hle, Option.eq_none_iff_forall_ne_some.mpr fun reader hget => ?_, hcount⟩
    obtain ⟨old, hold, -⟩ := hreaders n reader hget
    exact Option.some_ne_none old (hold.symm.trans hnone)
  readers n reader hget := by
    obtain ⟨old, hold, hqueued⟩ := hreaders n reader hget
    rw [hqueued]
    exact h.readers n old hold
  data := h.data

theorem Numbered.remove (h : s.Numbered) (n : ℕ) :
    Numbered { s with readers := s.readers.remove n } := by
  refine h.of_readers fun m reader hget => ?_
  rw [HashMap.get_remove] at hget
  split_ifs at hget
  exact ⟨reader, hget, rfl⟩

theorem Numbered.insert (h : s.Numbered) {n : ℕ} {old reader : ReaderThread}
    (hold : s.readers.get n = some old) (hqueued : reader.phase.queued = old.phase.queued) :
    Numbered { s with readers := s.readers.insert n reader } := by
  refine h.of_readers fun m reader' hget => ?_
  rw [HashMap.get_insert] at hget
  split_ifs at hget with hm
  · obtain rfl := Option.some.inj hget
    exact ⟨old, hm ▸ hold, hqueued⟩
  · exact ⟨reader', hget, rfl⟩

/-- A thread that queues a message has queued one more. -/
theorem Numbered.queue (h : s.Numbered) {n : ℕ} {old : ReaderThread} {msg : ControlMessage}
    (hold : s.readers.get n = some old) {readers : HashMap ℕ ReaderThread}
    (hother : ∀ m, m ≠ n → readers.get m = s.readers.get m)
    (hself : ∀ reader, readers.get n = some reader → reader.phase.queued = old.phase.queued + 1)
    (hdata : n ∈ forwarded (s.controls ++ [(n, msg)]) ↔ 2 ≤ old.phase.queued + 1) :
    Numbered { s with queue := s.queue ++ [.control n msg], readers := readers } := by
  obtain ⟨hle, hcount⟩ := h.readers n old hold
  have hcontrols : controls { s with queue := s.queue ++ [.control n msg], readers := readers } =
      s.controls ++ [(n, msg)] := by
    simp [controls]
  have horder : ∀ m, (order { s with
      queue := s.queue ++ [.control n msg], readers := readers }).count m =
        s.order.count m + if m = n then 1 else 0 := by
    intro m
    rw [order, hcontrols, List.map_append, List.count_append, order, List.map_singleton,
      List.count_singleton]
    simp [eq_comm (a := m)]
  refine ⟨fun m hm => ?_, fun m mimeTypes hpending => ?_, fun m reader hget => ?_, fun m => ?_⟩
  · rw [horder, h.made m hm, if_neg (Nat.ne_of_gt (Nat.lt_of_le_of_lt hle hm))]
  · obtain ⟨hmade, hnone, hzero⟩ := h.pending m mimeTypes hpending
    have hne : m ≠ n := by
      rintro rfl
      exact Option.some_ne_none old (hold.symm.trans hnone)
    exact ⟨hmade, (hother m hne).trans hnone, by rw [horder, hzero, if_neg hne]⟩
  · rw [horder]
    by_cases hm : m = n
    · subst hm
      exact ⟨hle, by rw [if_pos rfl, hcount, hself reader hget]⟩
    · rw [if_neg hm]
      exact h.readers m reader ((hother m hm).symm.trans hget)
  · rw [hcontrols, horder]
    by_cases hm : m = n
    · subst hm
      rw [if_pos rfl, hcount]
      exact hdata
    · have hsame : m ∈ forwarded (s.controls ++ [(n, msg)]) ↔ m ∈ forwarded s.controls := by
        cases msg <;> simp [forwarded, hm]
      rw [hsame, if_neg hm]
      exact h.data m

private theorem numbered_newSelection (h : s.Numbered) (ty : SelectionTarget)
    (source : Option (List String)) : (s.newSelection ty source).Numbered := by
  unfold newSelection
  split
  · exact h
  cases source with
  | none => exact ⟨h.made, fun _ _ hnone => absurd hnone.symm (Option.some_ne_none _), h.readers,
      h.data⟩
  | some mimeTypes =>
    dsimp only
    split
    · exact h
    refine ⟨fun n hn => h.made n (Nat.lt_of_succ_lt hn), fun n types hpending => ?_,
      fun n reader hget => (h.readers n reader hget).imp_left Nat.le_succ_of_le, h.data⟩
    obtain ⟨rfl, -⟩ := Prod.mk.inj (Option.some.inj hpending)
    refine ⟨le_rfl, Option.eq_none_iff_forall_ne_some.mpr fun reader hget => ?_,
      h.made _ (Nat.lt_succ_self _)⟩
    exact absurd (h.readers _ reader hget).1 (Nat.not_succ_le_self _)

private theorem numbered_processPendingClipboard (h : s.Numbered)
    (piped requested spawned : Bool) :
    (s.processPendingClipboard piped requested spawned).Numbered := by
  unfold processPendingClipboard
  cases hpending : s.pendingSelection with
  | none => exact h
  | some pending =>
    obtain ⟨n, mimeTypes⟩ := pending
    obtain ⟨hle, -, hzero⟩ := h.pending n mimeTypes hpending
    have hidle : Numbered { s with pendingSelection := none } :=
      ⟨h.made, fun _ _ hnone => absurd hnone.symm (Option.some_ne_none _), h.readers, h.data⟩
    -- the thread that is spawned has queued nothing
    have hspawned : ∀ mimeType, Numbered { s with
        pendingSelection := none
        readers := s.readers.insert n ⟨mimeType, mimeTypes, .reading []⟩ } := by
      refine fun mimeType => ⟨h.made, fun _ _ hnone => absurd hnone.symm (Option.some_ne_none _),
        fun m reader hget => ?_, h.data⟩
      rw [HashMap.get_insert] at hget
      split_ifs at hget with hm
      · rw [← Option.some.inj hget, hm]
        exact ⟨hle, hzero⟩
      · exact h.readers m reader hget
    dsimp only
    split
    · exact hidle
    · split
      · exact hidle
      · split
        · exact hspawned _
        · exact hidle

private theorem numbered_readerReads (h : s.Numbered) (n : ℕ) (result : PipeRead) :
    (s.readerReads n result).Numbered := by
  unfold readerReads
  split
  · next hget =>
    split
    · exact h.insert hget rfl
    · exact h.remove n
    · split
      · exact h.remove n
      · exact h.insert hget rfl
  · exact h

private theorem numbered_readerSends (h : s.Numbered) (n : ℕ) : (s.readerSends n).Numbered := by
  unfold readerSends
  split
  · next mimeType offered offer clip hget =>
    split_ifs
    · refine h.queue hget (fun m hm => HashMap.get_insert_of_ne _ _ hm)
        (fun reader hreader => ?_) ?_
      · rw [HashMap.get_insert_self] at hreader
        exact Option.some.inj hreader ▸ rfl
      · rw [forwarded_append_offer, h.data, (h.readers n _ hget).2]
        simp [ReaderPhase.queued]
    · exact h.remove n
  · next clip hget =>
    dsimp only
    split_ifs
    · refine h.queue hget (fun m hm => HashMap.get_remove_of_ne _ hm) (fun reader hreader => ?_) ?_
      · rw [HashMap.get_remove_self] at hreader
        exact absurd hreader.symm (Option.some_ne_none reader)
      · rw [forwarded_append_data]
        simp [ReaderPhase.queued]
    · exact h.remove n
  · exact h

theorem numbered_step (h : s.Numbered) (e : Event) : (s.step e).Numbered := by
  cases e with
  | newSelection ty source => exact numbered_newSelection h ty source
  | turn piped requested spawned => exact numbered_processPendingClipboard h piped requested spawned
  | reads n result => exact numbered_readerReads h n result
  | sends n => exact numbered_readerSends h n
  | other msg =>
    have hcontrols : (s.step (.other msg)).controls = s.controls := by simp [step, controls]
    have horder : (s.step (.other msg)).order = s.order := congrArg (List.map Prod.fst) hcontrols
    exact ⟨horder ▸ h.made, horder ▸ h.pending, horder ▸ h.readers, horder ▸ hcontrols ▸ h.data⟩
  | networkGone => exact ⟨h.made, h.pending, h.readers, h.data⟩

/-! ### Every run -/

/-- A reader thread that is to queue its data has queued its offer last. -/
def OffersFirst (s : Selections) : Prop :=
  ∀ n clip, Sending s.readers n clip →
    ∃ offer, (s.controls.filter (·.1 == n)).getLast? = some (n, .clipboardOffer offer)

private theorem filter_append_of_ne {controls : List (ℕ × ControlMessage)} {m n : ℕ} (h : m ≠ n)
    (msg : ControlMessage) :
    (controls ++ [(n, msg)]).filter (·.1 == m) = controls.filter (·.1 == m) := by
  simp [List.filter_append, h.symm]

theorem offersFirst_step (s : Selections) (e : Event) (h : s.OffersFirst) :
    (s.step e).OffersFirst := by
  rcases s.step_cases e with ⟨⟨hcontrols, hsending⟩, -⟩ | ⟨n, offer, hcontrols, hsending, -⟩ |
    ⟨n, clip, hcontrols, hsending, -, -⟩
  · intro m clip hm
    rw [hcontrols]
    exact h m clip (hsending m clip hm)
  · intro m clip hm
    rw [hcontrols]
    by_cases hmn : m = n
    · subst hmn
      exact ⟨offer, by simp [List.filter_append]⟩
    · rw [filter_append_of_ne hmn]
      exact h m clip ((hsending m clip hm).resolve_left hmn)
  · intro m clip' hm
    obtain ⟨hmn, hm⟩ := hsending m clip' hm
    rw [hcontrols, filter_append_of_ne hmn]
    exact h m clip' hm

/-- A thread that is to queue its data and has sent last has queued its offer last. -/
private theorem getLast?_order_eq_some (h : s.OffersFirst) {n : ℕ} {clip : ClipboardData}
    (hn : Sending s.readers n clip) :
    s.order.getLast? = some n ↔ ∃ pre offer, s.controls = pre ++ [(n, .clipboardOffer offer)] := by
  rw [order, List.getLast?_map]
  constructor
  · intro hlast
    obtain ⟨⟨n', msg⟩, hget, rfl⟩ := Option.map_eq_some_iff.mp hlast
    obtain ⟨pre, hpre⟩ := List.getLast?_eq_some_iff.mp hget
    obtain ⟨offer, hoffer⟩ := h _ clip hn
    rw [hpre, List.filter_append] at hoffer
    simp only [List.filter_singleton, beq_self_eq_true, cond_true, List.getLast?_concat,
      Option.some.injEq, Prod.mk.injEq, true_and] at hoffer
    exact ⟨pre, offer, by rw [hpre, hoffer]⟩
  · rintro ⟨pre, offer, heq⟩
    rw [heq, List.getLast?_concat]
    rfl

/-- A step leads from a good queue to a good one exactly if the thread that sends does so in
turn. -/
theorem sendsInTurn_iff (h : s.OffersFirst) (hnumbered : s.Numbered) (e : Event)
    (hgood : LatestWins s.controls ∧ Paired s.controls) :
    s.SendsInTurn e ↔ LatestWins (s.step e).controls ∧ Paired (s.step e).controls := by
  rcases s.step_cases e with ⟨⟨hcontrols, -⟩, hsender⟩ |
    ⟨n, offer, hcontrols, -, hsender, reader, hget, hqueued⟩ |
    ⟨n, clip, hcontrols, -, hsender, hn⟩
  · rw [hcontrols]
    refine iff_of_true (fun n hn => ?_) hgood
    exact absurd (hn.symm.trans hsender) (Option.some_ne_none n)
  · -- the first message of the thread
    have hfirst : n ∉ s.order := by
      rw [← List.count_eq_zero, (hnumbered.readers n reader hget).2, hqueued]
    refine iff_of_true (fun m hm hmem => ?_) ?_
    · obtain rfl := Option.some.inj (hsender.symm.trans hm)
      exact absurd hmem hfirst
    · rw [hcontrols]
      refine ⟨?_, hgood.2.append_offer offer⟩
      rw [LatestWins, forwarded_append_offer]
      exact hgood.1
  · have hsecond : n ∈ s.order := by
      obtain ⟨reader, hget, hphase⟩ := hn
      have hcount : s.order.count n = 1 := by
        rw [(hnumbered.readers n reader hget).2, hphase, ReaderPhase.queued]
      exact List.count_pos_iff.mp (hcount ▸ Nat.one_pos)
    have hturn : s.SendsInTurn e ↔
        s.order.getLast? = some n ∧ ∀ m, 2 ≤ s.order.count m → m ≤ n := by
      constructor
      · exact fun hall => hall n hsender hsecond
      · intro hall m hm _
        obtain rfl := Option.some.inj (hsender.symm.trans hm)
        exact hall
    rw [hturn, hcontrols, latestWins_append_data, hgood.2.append_data, getLast?_order_eq_some h hn,
      and_comm]
    exact and_congr_left' (forall_congr' fun m => imp_congr (hnumbered.data m).symm Iff.rfl)

/-- **The latest selection wins, exactly.**  In a run the last data queued are always those of the
most recent selection that was forwarded, and all data directly follow the offer of their own
selection, if and only if, in the order in which the reader threads queue their messages, every
thread queues its second one right after its first one and before the thread of any later selection
does. -/
theorem inTurn_iff (clipboardTx : Bool) (events : List Event) :
    InTurn ((start clipboardTx).senders events) ↔
      ∀ pre, pre <+: events →
        LatestWins (pre.foldl step (start clipboardTx)).controls ∧
          Paired (pre.foldl step (start clipboardTx)).controls := by
  have hstart : (start clipboardTx).OffersFirst ∧ (start clipboardTx).Numbered := by
    refine ⟨?_, numbered_start clipboardTx⟩
    rintro n clip ⟨reader, hget, -⟩
    exact absurd hget (by simp [start])
  have horder : (events.foldl step (start clipboardTx)).order =
      (start clipboardTx).senders events := order_foldl _ events
  have hempty : InTurn (start clipboardTx).order := by
    intro pre n post heq
    exact absurd heq (by simp [start, order, controls])
  rw [← horder, foldl_iff_along (I := fun _ => True) (G := fun s => InTurn s.order)
    (fun _ _ h => h) (fun s e _ => inTurn_order_step s e) trivial, and_iff_right hempty]
  refine along_iff_forall_initial (I := fun s => s.OffersFirst ∧ s.Numbered)
    (G := fun s => LatestWins s.controls ∧ Paired s.controls)
    (fun s e h => ⟨offersFirst_step s e h.1, numbered_step h.2 e⟩)
    (fun s e h hgood => sendsInTurn_iff h.1 h.2 e hgood) hstart ?_
  refine ⟨fun n hn => absurd hn (by simp [start, controls, forwarded]), ?_⟩
  intro pre n clip post heq
  exact absurd heq (by simp [start, controls])

/-- An application takes the selection and is slow to write it; another one takes it meanwhile, and
its text is read before the first source finishes. -/
def slowSource : List Event :=
  [.newSelection .clipboard (some ["text/plain"]), .turn true true true,
    .newSelection .clipboard (some ["text/plain"]), .turn true true true,
    .reads 2 (.ok [98]), .reads 2 (.ok []), .sends 2, .sends 2,
    .reads 1 (.ok [97]), .reads 1 (.ok []), .sends 1, .sends 1]

/-- **A selection overtaken.**  The data of the older selection are queued last. -/
theorem overtaken :
    ¬ (LatestWins (slowSource.foldl step (start true)).controls ∧
      Paired (slowSource.foldl step (start true)).controls) := by
  have hforwarded : forwarded (slowSource.foldl step (start true)).controls = [2, 1] := by decide
  rintro ⟨hlatest, -⟩
  have hle : 2 ≤ 1 := hlatest 1 (by rw [hforwarded]; rfl) 2 (by rw [hforwarded]; decide)
  exact absurd hle (by decide)

end Selections

end WayRay
