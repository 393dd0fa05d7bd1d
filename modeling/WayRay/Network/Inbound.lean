import WayRay.Collections.GuardedRun
import WayRay.Network.Relay

/-!
# What the compositor receives from a connection

The control and the input messages of a client reach the compositor through two reads that the relay
loop drops whenever another branch completes, with the bytes they have taken.

`delivered_run` is what the loop guarantees: in every run in which no branch completes while the
other read holds bytes (`KeepsReads`), the messages handed to the compositor are, for each of the
streams, the first of those sent.  `control_lost` is a run in which a key press swallows an
acknowledgement.
-/

namespace WayRay

open LengthPrefix GuardedRun

namespace Relay

/-- The control messages handed to the compositor. -/
def controls (r : Relay) : List ControlMessage :=
  r.compositorTx.filterMap fun | .control msg => some msg | _ => none

/-- The input messages handed to the compositor. -/
def inputs (r : Relay) : List InputMessage :=
  r.compositorTx.filterMap fun | .input msg => some msg | _ => none

/-- When a branch completes, the reads it drops hold no bytes. -/
def KeepsReads (codecs : Codecs) (r : Relay) (event : RelayEvent) : Prop :=
  r.completes codecs event →
    (event ≠ .readControl → r.controlRecv.reading.held = []) ∧
    (event ≠ .readInput → r.inputRecv.reading.held = [])

/-- For both streams, the messages handed to the compositor are the first of those sent; until
`serve_client` returns, the read goes on where the next message begins. -/
def Delivered (codecs : Codecs) (control : List ControlMessage) (input : List InputMessage)
    (r : Relay) : Prop :=
  InStepUntil r.ended codecs.control.payload control r.controls r.controlRecv ∧
  InStepUntil r.ended codecs.input.payload input r.inputs r.inputRecv

variable {codecs : Codecs} {control : List ControlMessage} {input : List InputMessage}

/-! ### The branches -/

/-- The compositor's commands leave the receiving side alone. -/
theorem inbound_checkCompositorCommands (codecs : Codecs) (r : Relay) (n : ℕ) :
    let r' := r.checkCompositorCommands codecs n
    r'.controlRecv = r.controlRecv ∧ r'.inputRecv = r.inputRecv ∧
      r'.compositorTx = r.compositorTx := by
  unfold checkCompositorCommands
  split
  · exact ⟨rfl, rfl, rfl⟩
  · split
    · exact ⟨rfl, rfl, rfl⟩
    · next msg rest _ =>
      obtain ⟨seen, writing, ended, heq⟩ := forward_eq codecs (r.taken msg rest) msg
      rw [heq]
      exact ⟨rfl, rfl, rfl⟩

section Branch

variable {r : Relay} (hcontrol : InStep codecs.control.payload control r.controls r.controlRecv)
  (hinput : InStep codecs.input.payload input r.inputs r.inputRecv)
include hcontrol hinput

private theorem delivered_command (n : ℕ) :
    Delivered codecs control input (r.checkCompositorCommands codecs n) := by
  obtain ⟨hcrecv, hirecv, htx⟩ := inbound_checkCompositorCommands codecs r n
  unfold Delivered controls inputs
  rw [hcrecv, hirecv, htx]
  exact ⟨hcontrol.until _, hinput.until _⟩

private theorem delivered_accept {ok : Bool} (hended : r.ended = false)
    (hkeep : r.KeepsReads codecs (.acceptInput ok)) :
    Delivered codecs control input (r.finishAccept ok) := by
  unfold finishAccept
  split_ifs with haccepting hok
  · exact ⟨hcontrol.until _, hinput.until _⟩
  · have hheld := hkeep (by simp_all [completes])
    exact ⟨(hcontrol.cancel (hheld.1 (by simp))).until _,
      (hinput.cancel (hheld.2 (by simp))).until _⟩
  · exact ⟨hcontrol.until _, hinput.until _⟩

private theorem delivered_readControl (hsend : codecs.control.Sendable control)
    (hended : r.ended = false) (hkeep : r.KeepsReads codecs .readControl) :
    Delivered codecs control input (r.readControl codecs) := by
  unfold readControl
  split
  · next ctrl recv hpoll =>
    have hheld := hkeep (by simp [completes, hended, hpoll])
    obtain ⟨rest, -, hrecv⟩ := Receiver.poll_ok hpoll
    have hnext := (hcontrol.poll_ok hpoll hsend.codec).cancel (by rw [hrecv]; rfl)
    refine ⟨?_, ?_⟩
    · have hctrl : controls { r with compositorTx := r.compositorTx ++ [.control ctrl] } =
          r.controls ++ [ctrl] := by simp [controls]
      exact hctrl ▸ hnext.until _
    · have hsame :
          inputs { r with compositorTx := r.compositorTx ++ [.control ctrl] } = r.inputs := by
        simp [inputs]
      exact hsame ▸ (hinput.cancel (hheld.2 (by simp))).until _
  · exact ⟨(hcontrol.until false).stop _, (hinput.until false).stop _⟩
  · next recv hpoll => exact ⟨(hcontrol.poll_none hpoll).until _, hinput.until _⟩

private theorem delivered_readInput (hsend : codecs.input.Sendable input)
    (hended : r.ended = false) (hkeep : r.KeepsReads codecs .readInput) :
    Delivered codecs control input (r.readInput codecs) := by
  unfold readInput
  split_ifs with haccepting
  · exact ⟨hcontrol.until _, hinput.until _⟩
  · split
    · next msg recv hpoll =>
      have hheld := hkeep (by simp [completes, hended, hpoll, haccepting])
      obtain ⟨rest, -, hrecv⟩ := Receiver.poll_ok hpoll
      have hnext := (hinput.poll_ok hpoll hsend.codec).cancel (by rw [hrecv]; rfl)
      refine ⟨?_, ?_⟩
      · have hsame :
            controls { r with compositorTx := r.compositorTx ++ [.input msg] } = r.controls := by
          simp [controls]
        exact hsame ▸ (hcontrol.cancel (hheld.1 (by simp))).until _
      · have hmsg : inputs { r with compositorTx := r.compositorTx ++ [.input msg] } =
            r.inputs ++ [msg] := by simp [inputs]
        exact hmsg ▸ hnext.until _
    · exact ⟨(hcontrol.until false).stop _, (hinput.until false).stop _⟩
    · next recv hpoll => exact ⟨hcontrol.until _, (hinput.poll_none hpoll).until _⟩

end Branch

/-! ### Runs -/

theorem delivered_step (hcontrol : codecs.control.Sendable control)
    (hinput : codecs.input.Sendable input) (r : Relay) (event : RelayEvent)
    (h : Delivered codecs control input r) (hkeep : r.KeepsReads codecs event) :
    Delivered codecs control input (r.step codecs event) := by
  obtain ⟨hc, hi⟩ := h
  cases event with
  | arrive stream n =>
    cases stream with
    | control => exact ⟨hc.arrive n, hi⟩
    | input => exact ⟨hc, hi.arrive n⟩
  | finish stream =>
    cases stream with
    | control => exact ⟨hc, hi⟩
    | input => exact ⟨hc, hi⟩
  | queue msg => exact ⟨hc, hi⟩
  | fail => exact ⟨hc.stop _, hi.stop _⟩
  | acceptInput ok =>
    unfold step
    split_ifs with hended
    · exact ⟨hc, hi⟩
    · have hgoes := eq_false_of_ne_true hended
      exact delivered_accept (hc.2 hgoes) (hi.2 hgoes) hgoes hkeep
  | readControl =>
    unfold step
    split_ifs with hended
    · exact ⟨hc, hi⟩
    · have hgoes := eq_false_of_ne_true hended
      exact delivered_readControl (hc.2 hgoes) (hi.2 hgoes) hcontrol hgoes hkeep
  | readInput =>
    unfold step
    split_ifs with hended
    · exact ⟨hc, hi⟩
    · have hgoes := eq_false_of_ne_true hended
      exact delivered_readInput (hc.2 hgoes) (hi.2 hgoes) hinput hgoes hkeep
  | command n =>
    unfold step
    split_ifs with hended
    · exact ⟨hc, hi⟩
    · have hgoes := eq_false_of_ne_true hended
      exact delivered_command (hc.2 hgoes) (hi.2 hgoes) n

/-- **The messages handed to the compositor are the first of those sent**, for the control and for
the input stream, in every state of every run in which a completed branch drops no read that holds
bytes. -/
theorem delivered_run (codecs : Codecs) (advertised : List String) {control : List ControlMessage}
    {input : List InputMessage} (greeting : OutStream → Bytes) (compositorRx : List CompositorToNet)
    (hcontrol : codecs.control.Sendable control) (hinput : codecs.input.Sendable input)
    (pre post : List RelayEvent)
    (hkeep : Along (step codecs) (KeepsReads codecs)
      (start codecs advertised control input greeting compositorRx) (pre ++ post)) :
    Delivered codecs control input
      ((start codecs advertised control input greeting compositorRx).run codecs pre) := by
  refine hkeep.of_append.invariant (delivered_step hcontrol hinput) ⟨?_, ?_⟩
  · exact (InStep.start codecs.control.payload control).until false
  · exact (InStep.start codecs.input.payload input).until false

/-! ### A message lost -/

/-- The press of a key. -/
def press (keycode : UInt32) : InputMessage := .keyboard ⟨keycode, .pressed, 0⟩

/-- A client that acknowledges two frames and presses two keys. -/
def twoOfEach : Relay :=
  start .small [] [.frameAck ⟨1⟩, .frameAck ⟨2⟩] [press 1, press 2] (fun _ => []) []

theorem sendable_twoAcks : Codecs.small.control.Sendable [.frameAck ⟨1⟩, .frameAck ⟨2⟩] := by
  intro m hm
  simp only [List.mem_cons, List.not_mem_nil, or_false] at hm
  rcases hm with rfl | rfl
  · exact ⟨[4, 1], by decide, by decide⟩
  · exact ⟨[4, 2], by decide, by decide⟩

theorem sendable_twoPresses : Codecs.small.input.Sendable [press 1, press 2] := by
  intro m hm
  simp only [List.mem_cons, List.not_mem_nil, or_false] at hm
  rcases hm with rfl | rfl
  · exact ⟨[0, 1, 0, 0], by decide, by decide⟩
  · exact ⟨[0, 2, 0, 0], by decide, by decide⟩

/-- Each message arrives whole and is read before the next one. -/
def wholeMessages : List RelayEvent :=
  [.acceptInput true, .arrive .control 6, .readControl, .arrive .input 8, .readInput]

theorem delivered_wholeMessages :
    Delivered .small [.frameAck ⟨1⟩, .frameAck ⟨2⟩] [press 1, press 2]
      (twoOfEach.run .small wholeMessages) := by
  refine delivered_run .small [] (fun _ => []) [] sendable_twoAcks sendable_twoPresses
    wholeMessages [] ?_
  -- no read is under way when a branch completes
  refine ⟨?_, ?_, ?_, ?_, ?_, trivial⟩ <;> exact fun _ => ⟨fun _ => rfl, fun _ => rfl⟩

/-- The first acknowledgement arrives in two parts, and a key press completes after each of them. -/
def pressesBetween : List RelayEvent :=
  [.acceptInput true, .arrive .control 4, .readControl, .arrive .input 8, .readInput,
    .arrive .control 2, .readControl, .arrive .input 8, .readInput, .arrive .control 6,
    .readControl]

/-- **An acknowledgement lost.**  The key presses drop both parts of it, of which the second was
taken for a length; the second acknowledgement is the first one the compositor gets. -/
theorem control_lost :
    (twoOfEach.run .small pressesBetween).controls = [.frameAck ⟨2⟩] ∧
      ¬ (twoOfEach.run .small pressesBetween).controls <+: [.frameAck ⟨1⟩, .frameAck ⟨2⟩] := by
  decide

end Relay

end WayRay
