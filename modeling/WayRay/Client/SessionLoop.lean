import WayRay.Collections.GuardedRun
import WayRay.Protocol.Codec

/-!
# The display stream on the client

`run_session_loop` of the client reads display messages with a five-millisecond timeout, so that it
can drain input in between.  When the time is over the read is abandoned, with the bytes it has
taken.

`SessionLoop` is the loop's side of the display stream and what is still in flight to it; the
server's messages arrive in chunks of any size.  `decoded_isPrefix` is what the loop guarantees: as
long as no expiry meets a read that has begun (`KeepsRead`), the decoded messages are the first of
those sent. `frame_lost` is a run in which two expiries swallow a message.
-/

namespace WayRay

open LengthPrefix GuardedRun

/-- The display stream as the session loop sees it. -/
structure SessionLoop where
  displayRecv : Receiver maxMessageSize
  decoded : List DisplayMessage
  /-- The loop has returned. -/
  ended : Bool

/-- What happens to the session loop. -/
inductive SessionLoopEvent where
  /-- The next `n` bytes arrive. -/
  | arrive (n : ℕ)
  /-- The stream is finished or reset. -/
  | finish
  /-- The timed read is polled; `elapsed` if its five milliseconds are over. -/
  | poll (elapsed : Bool)
  /-- The loop returns for another reason: a send failed or the render thread closed. -/
  | leave

namespace SessionLoop

variable (pc : Postcard DisplayMessage)

/-- The loop at its start, with the messages the server will send. -/
def start (sent : List DisplayMessage) : SessionLoop := ⟨.start (pc.streamOf sent), [], false⟩

/-- Poll `timeout(5ms, read_display_message(display_recv))`.  The read is polled before the timer; a
message ends the wait, an expiry drops the read. -/
def timedRead (s : SessionLoop) (elapsed : Bool) : SessionLoop :=
  match s.displayRecv.poll pc.decode with
  | (some (.ok msg), recv) => { s with displayRecv := recv, decoded := s.decoded ++ [msg] }
  | (some (.error _), recv) => { s with displayRecv := recv, ended := true }
  | (none, recv) => { s with displayRecv := if elapsed then recv.cancel else recv }

def step (s : SessionLoop) : SessionLoopEvent → SessionLoop
  | .arrive n => { s with displayRecv := s.displayRecv.arrive n }
  | .finish => { s with displayRecv := s.displayRecv.finish }
  | .poll elapsed => if s.ended then s else timedRead pc s elapsed
  | .leave => { s with ended := true }

def run (s : SessionLoop) (events : List SessionLoopEvent) : SessionLoop := events.foldl (step pc) s

/-- When the time is over, the message is complete or none of it has arrived. -/
def KeepsRead (s : SessionLoop) : SessionLoopEvent → Prop
  | .poll true =>
    (s.displayRecv.poll pc.decode).1 = none →
      s.displayRecv.reading.held = [] ∧ s.displayRecv.avail = []
  | _ => True

/-- The messages decoded are the first of those sent; until the loop returns, the read goes on where
the next message begins. -/
def Synced (sent : List DisplayMessage) (s : SessionLoop) : Prop :=
  InStepUntil s.ended pc.payload sent s.decoded s.displayRecv

variable {pc} {sent : List DisplayMessage}

theorem synced_start : Synced pc sent (start pc sent) := (InStep.start pc.payload sent).until false

private theorem synced_timedRead (hsend : pc.Sendable sent) {s : SessionLoop}
    (hended : s.ended = false) (h : Synced pc sent s) {elapsed : Bool}
    (hkeep : s.KeepsRead pc (.poll elapsed)) : Synced pc sent (timedRead pc s elapsed) := by
  have hstep : InStep pc.payload sent s.decoded s.displayRecv := h.2 hended
  unfold timedRead
  split
  · next msg recv hpoll => exact (hstep.poll_ok hpoll hsend.codec).until _
  · exact (hstep.until false).stop _
  · next recv hpoll =>
    have hnext := hstep.poll_none hpoll
    split_ifs with helapsed
    · -- the dropped read held nothing
      subst helapsed
      obtain ⟨hheld, havail⟩ := hkeep (by rw [hpoll])
      have hrecv : recv.reading.held = [] := by
        rw [(Receiver.held_poll hpoll).1, hheld, havail, List.append_nil]
      exact (hnext.cancel hrecv).until _
    · exact hnext.until _

theorem synced_step (hsend : pc.Sendable sent) (s : SessionLoop) (event : SessionLoopEvent)
    (h : Synced pc sent s) (hkeep : s.KeepsRead pc event) : Synced pc sent (s.step pc event) := by
  cases event with
  | arrive n => exact h.arrive n
  | finish => exact h
  | leave => exact h.stop _
  | poll elapsed =>
    unfold step
    split_ifs with hended
    · exact h
    · exact synced_timedRead hsend (eq_false_of_ne_true hended) h hkeep

/-- **The decoded messages are the first of those sent**, and until the loop returns the read goes
on where the next message begins, in every state of every run in which no expiry meets a read that
has begun. -/
theorem decoded_isPrefix (pc : Postcard DisplayMessage) {sent : List DisplayMessage}
    (hsend : pc.Sendable sent) (pre post : List SessionLoopEvent)
    (hkeep : Along (step pc) (KeepsRead pc) (start pc sent) (pre ++ post)) :
    Synced pc sent ((start pc sent).run pc pre) :=
  hkeep.of_append.invariant (synced_step hsend) synced_start

/-! ### A message lost -/

/-- A frame without regions. -/
def emptyFrame (sequence : UInt64) : DisplayMessage := .frameUpdate ⟨sequence, [], 0⟩

theorem sendable_two : Postcard.smallFrames.Sendable [emptyFrame 1, emptyFrame 2] := by
  intro m hm
  simp only [List.mem_cons, List.not_mem_nil, or_false] at hm
  rcases hm with rfl | rfl
  · exact ⟨[0, 1, 0, 0], by decide, by decide⟩
  · exact ⟨[0, 2, 0, 0], by decide, by decide⟩

/-- Two frames that arrive at once, read one after the other; the timer expires on the empty
stream. -/
def bothAtOnce : List SessionLoopEvent := [.arrive 16, .poll false, .poll true, .poll true]

theorem decoded_bothAtOnce :
    Synced Postcard.smallFrames [emptyFrame 1, emptyFrame 2]
      ((start Postcard.smallFrames [emptyFrame 1, emptyFrame 2]).run Postcard.smallFrames
        bothAtOnce) := by
  refine decoded_isPrefix Postcard.smallFrames sendable_two bothAtOnce []
    ⟨trivial, trivial, ?_, ?_, trivial⟩
  · -- the second frame is there when the time is over
    intro hpending
    exact absurd (congrArg Option.isNone hpending) (by decide)
  · exact fun _ => ⟨rfl, rfl⟩

/-- The first frame arrives in two halves, and the timer expires after each of them. -/
def slowFirstFrame : List SessionLoopEvent :=
  [.arrive 4, .poll true, .arrive 4, .poll true, .arrive 8, .poll false]

/-- **A frame lost.**  Both halves of the first frame are dropped with their reads, the payload
after it was taken for a length; the second frame is the first one decoded. -/
theorem frame_lost :
    ((start Postcard.smallFrames [emptyFrame 1, emptyFrame 2]).run Postcard.smallFrames
        slowFirstFrame).decoded = [emptyFrame 2] ∧
      ¬ ((start Postcard.smallFrames [emptyFrame 1, emptyFrame 2]).run Postcard.smallFrames
        slowFirstFrame).decoded <+: [emptyFrame 1, emptyFrame 2] := by
  decide

end SessionLoop

end WayRay
