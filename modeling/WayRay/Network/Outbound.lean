import Mathlib.Data.List.TakeWhile
import WayRay.Collections.GuardedRun
import WayRay.Network.Relay

/-!
# What a connection writes

The relay loop takes the compositor's messages off their queue and writes each to the stream it
belongs on.  The future that does so is dropped whenever another branch completes; the bytes that
the stream has accepted stay on it.

`belonging` is what should be on a stream, as a function of the messages queued.  `written_run` is
what the loop guarantees: in every run in which no branch completes during a write (`KeepsWrite`),
each stream holds a prefix of that, and everything taken off the queue is on its stream except for
what the write under way still has to bring.  `frame_truncated` is a run in which an acknowledgement
cuts a keyframe off.
-/

namespace WayRay

open LengthPrefix GuardedRun

/-! ### What belongs on the streams -/

/-- The frame in a message. -/
def CompositorToNet.frame? : CompositorToNet → Option DisplayMessage
  | sendFrame frame | sendKeyframe frame => some (.frameUpdate frame)
  | _ => none

/-- The control message in a message, unless it is a clipboard message and the client has no
clipboard. -/
def CompositorToNet.control? (capabilities : ClientCapabilities) :
    CompositorToNet → Option ControlMessage
  | sendControl msg => if msg.isClipboard && !capabilities.clipboard then none else some msg
  | _ => none

def CompositorToNet.audio? : CompositorToNet → Option AudioMessage
  | sendAudio msg => some msg
  | _ => none

/-- The frames of a queue that belong on the display stream: all from the first keyframe on. -/
def framesOf (msgs : List CompositorToNet) : List DisplayMessage :=
  (msgs.dropWhile fun msg => !msg.isKeyframe).filterMap (·.frame?)

/-- The bytes of a queue that belong on a stream. -/
def belonging (codecs : Codecs) (capabilities : ClientCapabilities) (msgs : List CompositorToNet) :
    OutStream → Bytes
  | .control => codecs.control.streamOf (msgs.filterMap (·.control? capabilities))
  | .display => codecs.display.streamOf (framesOf msgs)
  | .audio => codecs.audio.streamOf (msgs.filterMap (·.audio?))

/-- The bytes that later messages of a queue add to a stream; `seen` if there was a keyframe before
them. -/
def following (codecs : Codecs) (capabilities : ClientCapabilities) (seen : Bool)
    (later : List CompositorToNet) : OutStream → Bytes
  | .control => codecs.control.streamOf (later.filterMap (·.control? capabilities))
  | .display =>
    codecs.display.streamOf (if seen then later.filterMap (·.frame?) else framesOf later)
  | .audio => codecs.audio.streamOf (later.filterMap (·.audio?))

theorem framesOf_append (msgs later : List CompositorToNet) :
    framesOf (msgs ++ later) =
      framesOf msgs ++
        if msgs.any (·.isKeyframe) then later.filterMap (·.frame?) else framesOf later := by
  rw [framesOf, List.dropWhile_append]
  cases hany : msgs.any (·.isKeyframe) with
  | true =>
    -- something of `msgs` is left, so nothing later is dropped
    have hsome : ¬ (msgs.dropWhile fun msg => !msg.isKeyframe).isEmpty := by
      rw [List.isEmpty_iff, List.dropWhile_eq_nil_iff]
      obtain ⟨msg, hmem, hkey⟩ := List.any_eq_true.1 hany
      exact fun hall => by simpa [hkey] using hall msg hmem
    rw [if_neg hsome, List.filterMap_append, if_pos rfl, framesOf]
  | false =>
    have hnil : msgs.dropWhile (fun msg => !msg.isKeyframe) = [] := by
      rw [List.dropWhile_eq_nil_iff]
      intro msg hmem
      rw [List.any_eq_false] at hany
      simpa using hany msg hmem
    rw [framesOf, hnil]
    rfl

/-- What has been queued earlier belongs before what is queued later. -/
theorem belonging_append (codecs : Codecs) (capabilities : ClientCapabilities)
    (msgs later : List CompositorToNet) (stream : OutStream) :
    belonging codecs capabilities (msgs ++ later) stream =
      belonging codecs capabilities msgs stream ++
        following codecs capabilities (msgs.any (·.isKeyframe)) later stream := by
  cases stream with
  | control => rw [belonging, List.filterMap_append, Postcard.streamOf, wire_append]; rfl
  | display => rw [belonging, framesOf_append, Postcard.streamOf, wire_append]; rfl
  | audio => rw [belonging, List.filterMap_append, Postcard.streamOf, wire_append]; rfl

theorem streamOf_singleton {α : Type} (pc : Postcard α) (m : α) :
    pc.streamOf [m] = frame (pc.payload m) := by
  rw [Postcard.streamOf, wire_cons, wire_nil, List.append_nil]

section One

variable (codecs : Codecs) (capabilities : ClientCapabilities) (seen : Bool) (stream : OutStream)

theorem following_frame (frame : FrameUpdate) :
    following codecs capabilities true [.sendFrame frame] stream =
      if stream = .display then codecs.display.streamOf [.frameUpdate frame] else [] := by
  cases stream <;> rfl

/-- Before the first keyframe a frame belongs nowhere. -/
theorem following_stale (frame : FrameUpdate) :
    following codecs capabilities false [.sendFrame frame] stream = [] := by
  cases stream <;> rfl

theorem following_keyframe (frame : FrameUpdate) :
    following codecs capabilities seen [.sendKeyframe frame] stream =
      if stream = .display then codecs.display.streamOf [.frameUpdate frame] else [] := by
  cases stream with
  | display => cases seen <;> rfl
  | control => rfl
  | audio => rfl

theorem following_control {msg : ControlMessage}
    (h : (msg.isClipboard && !capabilities.clipboard) = false) :
    following codecs capabilities seen [.sendControl msg] stream =
      if stream = .control then codecs.control.streamOf [msg] else [] := by
  cases stream with
  | control =>
    simp only [following, List.filterMap_cons, CompositorToNet.control?, h]
    rfl
  | display => cases seen <;> rfl
  | audio => rfl

theorem following_clipboard {msg : ControlMessage}
    (h : (msg.isClipboard && !capabilities.clipboard) = true) :
    following codecs capabilities seen [.sendControl msg] stream = [] := by
  cases stream with
  | control =>
    simp only [following, List.filterMap_cons, CompositorToNet.control?, h]
    rfl
  | display => cases seen <;> rfl
  | audio => rfl

theorem following_audio (msg : AudioMessage) :
    following codecs capabilities seen [.sendAudio msg] stream =
      if stream = .audio then codecs.audio.streamOf [msg] else [] := by
  cases stream with
  | display => cases seen <;> rfl
  | control => rfl
  | audio => rfl

theorem following_shutdown : following codecs capabilities seen [.shutdown] stream = [] := by
  cases stream with
  | display => cases seen <;> rfl
  | control => rfl
  | audio => rfl

end One

namespace Relay

/-- The bytes of the write under way that the stream has not accepted. -/
def unwritten (r : Relay) (stream : OutStream) : Bytes :=
  match r.writing with
  | some (target, bytes) => if stream = target then bytes else []
  | none => []

/-- A branch that completes finds no write under way. -/
def KeepsWrite (codecs : Codecs) (r : Relay) (event : RelayEvent) : Prop :=
  r.completes codecs event → r.writing = none

/-- What the streams have accepted, against the messages taken off the queue. -/
structure Written (codecs : Codecs) (greeting : OutStream → Bytes) (r : Relay) : Prop where
  seen : r.keyframeSeen = r.popped.any (·.isKeyframe)
  opened : ∀ stream, (r.sends stream).isSome = r.capabilities.opens stream
  /-- A stream has accepted a beginning of what belongs on it. -/
  isPrefix : ∀ stream bytes, r.sends stream = some bytes →
    bytes <+: greeting stream ++ belonging codecs r.capabilities r.popped stream
  /-- While the connection goes on, only the rest of the write under way is missing. -/
  whole : r.ended = false → ∀ stream bytes, r.sends stream = some bytes →
    bytes ++ r.unwritten stream = greeting stream ++ belonging codecs r.capabilities r.popped stream

variable {codecs : Codecs} {greeting : OutStream → Bytes} {r r' : Relay}

/-! ### One command -/

theorem unwritten_eq_nil (h : r.writing = none) (stream : OutStream) : r.unwritten stream = [] := by
  rw [unwritten, h]

theorem unwritten_of_writing {target : OutStream} {bytes : Bytes}
    (h : r.writing = some (target, bytes)) (stream : OutStream) :
    r.unwritten stream = if stream = target then bytes else [] := by
  rw [unwritten, h]

theorem unwritten_accept (r : Relay) (target stream : OutStream) (bytes : Bytes) (n : ℕ) :
    (r.accept target bytes n).unwritten stream = if stream = target then bytes.drop n else [] := by
  simp only [unwritten, accept]
  split_ifs with hall htarget
  · exact (List.drop_eq_nil_of_le hall).symm
  · rfl
  all_goals simp_all

/-- A stream accepts a part of the write. -/
private theorem written_accept (h : Written codecs greeting r) (hended : r.ended = false)
    {target : OutStream} {bytes : Bytes} (hwriting : r.writing = some (target, bytes)) (n : ℕ) :
    Written codecs greeting (r.accept target bytes n) := by
  have hwhole : ∀ stream bytes', (r.accept target bytes n).sends stream = some bytes' →
      bytes' ++ (r.accept target bytes n).unwritten stream =
        greeting stream ++ belonging codecs r.capabilities r.popped stream := by
    intro stream bytes' hsends
    rw [unwritten_accept]
    simp only [accept, Function.update_apply] at hsends
    split_ifs at hsends ⊢ with htarget
    · subst htarget
      obtain ⟨before, hbefore, rfl⟩ := Option.map_eq_some_iff.1 hsends
      rw [← h.whole hended stream before hbefore, unwritten_of_writing hwriting, if_pos rfl,
        List.append_assoc, List.take_append_drop]
    · have hsame := h.whole hended stream bytes' hsends
      rwa [unwritten_of_writing hwriting, if_neg htarget] at hsame
  refine ⟨h.seen, ?_, ?_, fun _ => hwhole⟩
  · intro stream
    refine Eq.trans ?_ (h.opened stream)
    simp only [accept, Function.update_apply]
    split_ifs with htarget
    · rw [htarget, Option.isSome_map]
    · rfl
  · intro stream bytes' hsends
    exact ⟨_, hwhole stream bytes' hsends⟩

theorem seen_append (h : Written codecs greeting r) (msg : CompositorToNet) :
    (r.keyframeSeen || msg.isKeyframe) = (r.popped ++ [msg]).any (·.isKeyframe) := by
  rw [List.any_append, ← h.seen, List.any_cons, List.any_nil, Bool.or_false]

/-! A message `msg` is taken off the queue while no write is under way; `next` is the state after
that. -/

section Taken

variable (h : Written codecs greeting r) (hended : r.ended = false) (hwriting : r.writing = none)
  (next : Relay) {msg : CompositorToNet} (hpopped : next.popped = r.popped ++ [msg])
  (hsame : next.sends = r.sends) (hcaps : next.capabilities = r.capabilities)
include h hended hwriting hpopped hsame hcaps

/-- An open stream has accepted everything that belongs on it but for what `msg` adds. -/
private theorem accepted_taken (stream : OutStream) (bytes : Bytes)
    (hsends : next.sends stream = some bytes) :
    bytes ++ following codecs r.capabilities r.keyframeSeen [msg] stream =
      greeting stream ++ belonging codecs next.capabilities next.popped stream := by
  rw [hsame] at hsends
  have hwhole := h.whole hended stream bytes hsends
  rw [unwritten_eq_nil hwriting, List.append_nil] at hwhole
  rw [hpopped, hcaps, belonging_append, ← h.seen, ← List.append_assoc, ← hwhole]

variable (hidle : next.writing = none)
  (hseen : next.keyframeSeen = (r.keyframeSeen || msg.isKeyframe))
include hidle hseen

/-- The message is dropped. -/
private theorem written_dropped
    (hfollow : ∀ stream, following codecs r.capabilities r.keyframeSeen [msg] stream = []) :
    Written codecs greeting next := by
  have hwhole := accepted_taken h hended hwriting next hpopped hsame hcaps
  refine ⟨?_, ?_, ?_, ?_⟩
  · rw [hseen, hpopped, seen_append h]
  · rw [hsame, hcaps]
    exact h.opened
  · exact fun stream bytes hsends => ⟨_, hwhole stream bytes hsends⟩
  · intro _ stream bytes hsends
    rw [unwritten_eq_nil hidle, ← hfollow stream]
    exact hwhole stream bytes hsends

/-- The write of the message begins, if its stream is open. -/
private theorem written_write {α : Type} (pc : Postcard α) (m : α) {target : OutStream}
    (hfollow : ∀ stream, following codecs r.capabilities r.keyframeSeen [msg] stream =
      if stream = target then pc.streamOf [m] else []) :
    Written codecs greeting (next.write target (pc.encode m)) := by
  have hwhole := accepted_taken h hended hwriting next hpopped hsame hcaps
  have hseen' : next.keyframeSeen = next.popped.any (·.isKeyframe) := by
    rw [hseen, hpopped, seen_append h]
  have hopened : ∀ stream, (next.sends stream).isSome = next.capabilities.opens stream := by
    rw [hsame, hcaps]
    exact h.opened
  have hprefix : ∀ stream bytes, next.sends stream = some bytes →
      bytes <+: greeting stream ++ belonging codecs next.capabilities next.popped stream :=
    fun stream bytes hsends => ⟨_, hwhole stream bytes hsends⟩
  unfold write
  split
  · rename_i hclosed
    -- the stream is not open, and the message adds nothing to the others
    refine ⟨hseen', hopened, hprefix, fun _ stream bytes hsends => ?_⟩
    have hne : stream ≠ target := by
      rintro rfl
      exact absurd (hclosed.symm.trans hsends) (by simp)
    rw [← hwhole stream bytes hsends, hfollow, if_neg hne, unwritten_eq_nil hidle]
  · rename_i before encoded hopen hencode
    rw [Postcard.encode, Option.map_eq_some_iff] at hencode
    obtain ⟨p, hp, rfl⟩ := hencode
    refine ⟨hseen', hopened, hprefix, fun _ stream bytes hsends => ?_⟩
    rw [← hwhole stream bytes hsends, hfollow, unwritten_of_writing rfl, streamOf_singleton,
      Postcard.payload, hp, Option.getD_some]
  · exact ⟨hseen', hopened, hprefix, fun hgoes => absurd hgoes (by simp)⟩

end Taken

/-- The next message is taken off the queue and worked off. -/
private theorem written_forward (h : Written codecs greeting r) (hended : r.ended = false)
    (hwriting : r.writing = none) (msg : CompositorToNet) (rest : List CompositorToNet) :
    Written codecs greeting ((r.taken msg rest).forward codecs msg) := by
  have hkept : msg.isKeyframe = false → r.keyframeSeen = (r.keyframeSeen || msg.isKeyframe) :=
    fun hno => by rw [hno, Bool.or_false]
  have hdropped := written_dropped h hended hwriting (r.taken msg rest) rfl rfl rfl hwriting
  have hwrite := @written_write _ _ _ h hended hwriting (r.taken msg rest) _ rfl rfl rfl hwriting
  cases msg with
  | sendFrame frame =>
    simp only [forward]
    split_ifs with hkey
    · refine hwrite (hkept rfl) codecs.display _ ?_
      rw [show r.keyframeSeen = true from hkey]
      exact fun stream => following_frame codecs _ stream frame
    · refine hdropped (hkept rfl) ?_
      rw [show r.keyframeSeen = false from eq_false_of_ne_true hkey]
      exact fun stream => following_stale codecs _ stream frame
  | sendKeyframe frame =>
    exact written_write h hended hwriting
      { r.taken (.sendKeyframe frame) rest with keyframeSeen := true } rfl rfl rfl hwriting
      (Bool.or_true _).symm codecs.display _
      fun stream => following_keyframe codecs _ _ stream frame
  | sendControl msg =>
    simp only [forward]
    split_ifs with hclip
    · exact hdropped (hkept rfl) fun stream => following_clipboard codecs _ _ stream hclip
    · exact hwrite (hkept rfl) codecs.control _
        fun stream => following_control codecs _ _ stream (eq_false_of_ne_true hclip)
  | sendAudio msg =>
    exact hwrite (hkept rfl) codecs.audio _ fun stream => following_audio codecs _ _ stream msg
  | shutdown =>
    have hlast := hdropped (hkept rfl) fun stream => following_shutdown codecs _ _ stream
    exact ⟨hlast.seen, hlast.opened, hlast.isPrefix, fun hgoes => absurd hgoes (by simp [forward])⟩

private theorem written_command (h : Written codecs greeting r) (hended : r.ended = false) (n : ℕ) :
    Written codecs greeting (r.checkCompositorCommands codecs n) := by
  unfold checkCompositorCommands
  split
  · next target bytes hwriting => exact written_accept h hended hwriting n
  · next hwriting =>
    split
    · exact h
    · next msg rest _ => exact written_forward h hended hwriting msg rest

/-! ### Runs -/

/-- A step that leaves the writing side alone. -/
private theorem written_congr (h : Written codecs greeting r)
    (hseen : r'.keyframeSeen = r.keyframeSeen)
    (hpopped : r'.popped = r.popped) (hsends : r'.sends = r.sends)
    (hcaps : r'.capabilities = r.capabilities)
    (hgoes : r'.ended = false → r.ended = false ∧ r'.writing = r.writing) :
    Written codecs greeting r' := by
  refine ⟨?_, ?_, ?_, ?_⟩
  · rw [hseen, hpopped, h.seen]
  · rw [hsends, hcaps]
    exact h.opened
  · rw [hsends, hcaps, hpopped]
    exact h.isPrefix
  · intro hended
    obtain ⟨hgoing, hwriting⟩ := hgoes hended
    rw [hsends, hcaps, hpopped]
    simp only [unwritten, hwriting]
    exact h.whole hgoing

private theorem written_finishAccept (h : Written codecs greeting r) (hended : r.ended = false)
    {ok : Bool} (hkeep : r.KeepsWrite codecs (.acceptInput ok)) :
    Written codecs greeting (r.finishAccept ok) := by
  unfold finishAccept
  split_ifs with haccepting hok
  · exact h
  · have hwriting := hkeep (by simp_all [completes])
    exact written_congr h rfl rfl rfl rfl fun _ => ⟨hended, hwriting.symm⟩
  · exact written_congr h rfl rfl rfl rfl fun hgoes => absurd hgoes (by simp)

private theorem written_readControl (h : Written codecs greeting r) (hended : r.ended = false)
    (hkeep : r.KeepsWrite codecs .readControl) :
    Written codecs greeting (r.readControl codecs) := by
  unfold readControl
  split
  · next ctrl recv hpoll =>
    have hwriting := hkeep (by simp [completes, hended, hpoll])
    exact written_congr h rfl rfl rfl rfl fun _ => ⟨hended, hwriting.symm⟩
  · exact written_congr h rfl rfl rfl rfl fun hgoes => absurd hgoes (by simp)
  · exact written_congr h rfl rfl rfl rfl fun _ => ⟨hended, rfl⟩

private theorem written_readInput (h : Written codecs greeting r) (hended : r.ended = false)
    (hkeep : r.KeepsWrite codecs .readInput) : Written codecs greeting (r.readInput codecs) := by
  unfold readInput
  split_ifs with haccepting
  · exact h
  · split
    · next input recv hpoll =>
      have hwriting := hkeep (by simp [completes, hended, hpoll, haccepting])
      exact written_congr h rfl rfl rfl rfl fun _ => ⟨hended, hwriting.symm⟩
    · exact written_congr h rfl rfl rfl rfl fun hgoes => absurd hgoes (by simp)
    · exact written_congr h rfl rfl rfl rfl fun _ => ⟨hended, rfl⟩

theorem written_step (r : Relay) (event : RelayEvent) (h : Written codecs greeting r)
    (hkeep : r.KeepsWrite codecs event) : Written codecs greeting (r.step codecs event) := by
  cases event with
  | arrive stream n =>
    cases stream <;> exact written_congr h rfl rfl rfl rfl fun hgoes => ⟨hgoes, rfl⟩
  | finish stream =>
    cases stream <;> exact written_congr h rfl rfl rfl rfl fun hgoes => ⟨hgoes, rfl⟩
  | queue msg => exact written_congr h rfl rfl rfl rfl fun hgoes => ⟨hgoes, rfl⟩
  | fail => exact written_congr h rfl rfl rfl rfl fun hgoes => absurd hgoes (by simp [step])
  | acceptInput ok =>
    unfold step
    split_ifs with hended
    · exact h
    · exact written_finishAccept h (eq_false_of_ne_true hended) hkeep
  | readControl =>
    unfold step
    split_ifs with hended
    · exact h
    · exact written_readControl h (eq_false_of_ne_true hended) hkeep
  | readInput =>
    unfold step
    split_ifs with hended
    · exact h
    · exact written_readInput h (eq_false_of_ne_true hended) hkeep
  | command n =>
    unfold step
    split_ifs with hended
    · exact h
    · exact written_command h (eq_false_of_ne_true hended) n

/-- The messages a run queues. -/
def queued (events : List RelayEvent) : List CompositorToNet :=
  events.filterMap fun | .queue msg => some msg | _ => none

theorem queue_checkCompositorCommands (codecs : Codecs) (r : Relay) (n : ℕ) :
    let r' := r.checkCompositorCommands codecs n
    r'.capabilities = r.capabilities ∧
      r'.popped ++ r'.compositorRx = r.popped ++ r.compositorRx := by
  unfold checkCompositorCommands
  split
  · exact ⟨rfl, rfl⟩
  · split
    · exact ⟨rfl, rfl⟩
    · next msg rest hrx =>
      obtain ⟨seen, writing, ended, heq⟩ := forward_eq codecs (r.taken msg rest) msg
      rw [heq, hrx]
      exact ⟨rfl, by simp [taken]⟩

/-- What is queued is taken off or still there. -/
theorem queue_step (codecs : Codecs) (r : Relay) (event : RelayEvent) :
    let r' := r.step codecs event
    r'.capabilities = r.capabilities ∧
      r'.popped ++ r'.compositorRx = r.popped ++ r.compositorRx ++ queued [event] := by
  have hrest : ∀ r' : Relay, r'.capabilities = r.capabilities → r'.popped = r.popped →
      r'.compositorRx = r.compositorRx → r'.capabilities = r.capabilities ∧
        r'.popped ++ r'.compositorRx = r.popped ++ r.compositorRx ++ [] := by
    intro r' hcaps hpopped hrx
    exact ⟨hcaps, by rw [hpopped, hrx, List.append_nil]⟩
  cases event with
  | arrive stream n => cases stream <;> exact hrest _ rfl rfl rfl
  | finish stream => cases stream <;> exact hrest _ rfl rfl rfl
  | fail => exact hrest _ rfl rfl rfl
  | queue msg => exact ⟨rfl, (List.append_assoc _ _ _).symm⟩
  | acceptInput ok =>
    simp only [step, finishAccept]
    split_ifs <;> exact hrest _ rfl rfl rfl
  | readControl =>
    simp only [step, readControl]
    split_ifs
    · exact hrest _ rfl rfl rfl
    · split <;> exact hrest _ rfl rfl rfl
  | readInput =>
    simp only [step, readInput]
    split_ifs
    · exact hrest _ rfl rfl rfl
    · exact hrest _ rfl rfl rfl
    · split <;> exact hrest _ rfl rfl rfl
  | command n =>
    simp only [step]
    split_ifs
    · exact hrest _ rfl rfl rfl
    · obtain ⟨hcaps, hqueue⟩ := queue_checkCompositorCommands codecs r n
      exact ⟨hcaps, hqueue.trans (List.append_nil _).symm⟩

theorem queue_run (codecs : Codecs) (r : Relay) (events : List RelayEvent) :
    (r.run codecs events).capabilities = r.capabilities ∧
      (r.run codecs events).popped ++ (r.run codecs events).compositorRx =
        r.popped ++ r.compositorRx ++ queued events := by
  induction events generalizing r with
  | nil => exact ⟨rfl, (List.append_nil _).symm⟩
  | cons event events ih =>
    obtain ⟨hcaps, hqueue⟩ := ih (r.step codecs event)
    obtain ⟨hcaps₁, hqueue₁⟩ := queue_step codecs r event
    refine ⟨hcaps.trans hcaps₁, hqueue.trans ?_⟩
    rw [hqueue₁, List.append_assoc, queued, queued, queued, ← List.filterMap_append,
      List.singleton_append]

/-- At its start the loop has taken nothing off the queue, and the streams hold the handshake. -/
theorem written_start (codecs : Codecs) (advertised : List String) (control : List ControlMessage)
    (input : List InputMessage) (greeting : OutStream → Bytes)
    (compositorRx : List CompositorToNet) :
    Written codecs greeting (start codecs advertised control input greeting compositorRx) := by
  have hbytes : ∀ stream bytes,
      (start codecs advertised control input greeting compositorRx).sends stream = some bytes →
        bytes = greeting stream ++
          belonging codecs (ClientCapabilities.fromAdvertised advertised) [] stream := by
    intro stream bytes hsends
    simp only [start] at hsends
    split_ifs at hsends
    rw [← Option.some.inj hsends]
    cases stream <;> exact (List.append_nil _).symm
  refine ⟨rfl, ?_, ?_, ?_⟩
  · intro stream
    simp only [start]
    split_ifs with hopens
    · exact hopens.symm
    · exact (eq_false_of_ne_true hopens).symm
  · intro stream bytes hsends
    rw [hbytes stream bytes hsends]
    exact List.prefix_rfl
  · intro _ stream bytes hsends
    rw [hbytes stream bytes hsends]
    exact List.append_nil _

/-- **Each open stream holds a prefix of what belongs on it**, in every state of every run in which
no branch completes during a write; and while the connection goes on, all that was taken off the
queue is on its stream, but for the rest of the write under way. -/
theorem written_run (codecs : Codecs) (advertised : List String) (control : List ControlMessage)
    (input : List InputMessage) (greeting : OutStream → Bytes) (compositorRx : List CompositorToNet)
    (pre post : List RelayEvent)
    (hkeep : Along (step codecs) (KeepsWrite codecs)
      (start codecs advertised control input greeting compositorRx) (pre ++ post)) :
    let capabilities := ClientCapabilities.fromAdvertised advertised
    let r := (start codecs advertised control input greeting compositorRx).run codecs pre
    r.popped ++ r.compositorRx = compositorRx ++ queued pre ∧
    ∀ stream bytes, r.sends stream = some bytes →
      capabilities.opens stream = true ∧
      bytes <+: greeting stream ++
        belonging codecs capabilities (compositorRx ++ queued pre) stream ∧
      (r.ended = false → bytes ++ r.unwritten stream =
        greeting stream ++ belonging codecs capabilities r.popped stream) := by
  intro capabilities r
  obtain ⟨hcaps, hqueue⟩ :=
    queue_run codecs (start codecs advertised control input greeting compositorRx) pre
  have hwritten : Written codecs greeting r :=
    hkeep.of_append.invariant written_step (written_start ..)
  have hsame : r.capabilities = capabilities := hcaps
  have hall : r.popped ++ r.compositorRx = compositorRx ++ queued pre := hqueue
  refine ⟨hall, fun stream bytes hsends => ⟨?_, ?_, ?_⟩⟩
  · rw [← hsame, ← hwritten.opened stream, hsends, Option.isSome_some]
  · refine (hwritten.isPrefix stream bytes hsends).trans ?_
    rw [← hall, belonging_append, hsame, ← List.append_assoc]
    exact List.prefix_append _ _
  · intro hended
    rw [← hsame]
    exact hwritten.whole hended stream bytes hsends

/-! ### A frame cut off -/

/-- A client that shows frames and acknowledges one. -/
def displayClient : Relay := start .small [Caps.display] [.frameAck ⟨1⟩] [] (fun _ => []) []

/-- A frame without regions. -/
def plainFrame (sequence : UInt64) : FrameUpdate := ⟨sequence, [], 0⟩

/-- The acknowledgement is read when the keyframe is on the stream. -/
def ackAfterKeyframe : List RelayEvent :=
  [.queue (.sendKeyframe (plainFrame 1)), .command 0, .command 8, .arrive .control 6, .readControl]

theorem written_ackAfterKeyframe :
    (displayClient.run .small ackAfterKeyframe).sends .display = some [4, 0, 0, 0, 0, 1, 0, 0] ∧
      [4, 0, 0, 0, 0, 1, 0, 0] <+:
        belonging .small ⟨true, false, false⟩ [.sendKeyframe (plainFrame 1)] .display := by
  have hsends : (displayClient.run .small ackAfterKeyframe).sends .display =
      some [4, 0, 0, 0, 0, 1, 0, 0] := by decide
  have hrun :=
    written_run .small [Caps.display] [.frameAck ⟨1⟩] [] (fun _ => []) [] ackAfterKeyframe []
    ⟨fun _ => rfl, fun _ => rfl, fun h => absurd h (by decide), fun _ => rfl, fun _ => rfl, trivial⟩
  exact ⟨hsends, (hrun.2 .display _ hsends).2.1⟩

/-- The acknowledgement is read when three bytes of the keyframe are on the stream. -/
def ackWithinKeyframe : List RelayEvent :=
  [.queue (.sendKeyframe (plainFrame 1)), .queue (.sendFrame (plainFrame 2)), .command 0,
    .command 3, .arrive .control 6, .readControl, .command 0, .command 8]

/-- **A keyframe cut off.**  Three bytes of it are on the stream when its write is dropped, and the
next frame follows them. -/
theorem frame_truncated :
    (displayClient.run .small ackWithinKeyframe).sends .display =
        some ([4, 0, 0] ++ [4, 0, 0, 0, 0, 2, 0, 0]) ∧
      ¬ [4, 0, 0] ++ [4, 0, 0, 0, 0, 2, 0, 0] <+:
        belonging .small ⟨true, false, false⟩
          [.sendKeyframe (plainFrame 1), .sendFrame (plainFrame 2)] .display := by
  decide

end Relay

end WayRay
