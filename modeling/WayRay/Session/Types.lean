import WayRay.Time

/-!
# Sessions

The session record of `session/types.rs`: a session binds a token to a desktop and moves through the
states `Creating`, `Active`, `Suspended`, `Destroyed` along the edges of
`SessionState.canTransitionTo`.  `Session.transition` returns the session next to its result, since
the source mutates it in place: `transition_error` says a refused transition leaves it as it was.
-/

namespace WayRay

/-- Unique identifier for a compositor session (a `u64` counter value). -/
structure SessionId where
  raw : ℕ
deriving DecidableEq, Repr

/-- Opaque token that identifies a session across connections. -/
structure SessionToken where
  str : String
deriving DecidableEq, Repr

/-- Session lifecycle states. -/
inductive SessionState where
  | creating
  | active
  | suspended
  | destroyed
deriving DecidableEq, Repr

namespace SessionState

/-- Whether transitioning from this state to `next` is valid. -/
def canTransitionTo (s next : SessionState) : Bool :=
  match s, next with
  | creating, active => true
  | creating, destroyed => true
  | active, suspended => true
  | active, destroyed => true
  | suspended, active => true
  | suspended, destroyed => true
  | _, _ => false

/-- `Display` of a session state. -/
def display : SessionState → String
  | creating => "creating"
  | active => "active"
  | suspended => "suspended"
  | destroyed => "destroyed"

/-- `Active` or `Suspended`: a returning client may resume the session. -/
def resumable (s : SessionState) : Bool :=
  match s with
  | suspended | active => true
  | creating | destroyed => false

/-- Every state but `Destroyed` may be destroyed, and no other transition reaches it. -/
theorem canTransitionTo_destroyed (s : SessionState) :
    s.canTransitionTo destroyed = true ↔ s ≠ destroyed := by
  cases s <;> decide

/-- `Destroyed` is terminal. -/
@[simp] theorem destroyed_canTransitionTo (next : SessionState) :
    destroyed.canTransitionTo next = false := by
  cases next <;> rfl

theorem resumable_iff {s : SessionState} : s.resumable = true ↔ s = active ∨ s = suspended := by
  cases s <;> decide

theorem resumable_iff_ne {s : SessionState} :
    s.resumable = true ↔ s ≠ creating ∧ s ≠ destroyed := by
  cases s <;> decide

theorem ne_destroyed_of_resumable {s : SessionState} (h : s.resumable = true) : s ≠ destroyed := by
  rintro rfl
  exact absurd h (by decide)

end SessionState

/-- A compositor session binding a token to a running desktop. -/
structure Session where
  id : SessionId
  token : SessionToken
  state : SessionState
  createdAt : Instant
  /-- When the session entered `Suspended` (for timeout tracking). -/
  suspendedAt : Option Instant
  /-- How long a suspended session survives before being destroyed. -/
  suspendTimeout : Duration
  /-- Username (set after authentication). -/
  user : Option String
  /-- Id of the server that created this session. -/
  homeServer : String
deriving DecidableEq

/-- Error when an invalid session state transition is attempted. -/
structure SessionTransitionError where
  sessionId : SessionId
  source : SessionState
  target : SessionState
deriving DecidableEq

namespace Session

/-- A new session in the `Creating` state, owned by `homeServer`; the timeout defaults to 24
hours. -/
def new (id : SessionId) (token : SessionToken) (homeServer : String) (now : Instant) :
    Session where
  id := id
  token := token
  state := .creating
  createdAt := now
  suspendedAt := none
  suspendTimeout := Duration.fromSecs (24 * 60 * 60)
  user := none
  homeServer := homeServer

/-- Attempt a state transition. -/
def transition (s : Session) (now : Instant) (next : SessionState) :
    Except SessionTransitionError Unit × Session :=
  if s.state.canTransitionTo next then
    let suspendedAt := if next = .suspended then some now else none
    (.ok (), { s with suspendedAt := suspendedAt, state := next })
  else (.error ⟨s.id, s.state, next⟩, s)

/-- Whether a suspended session has exceeded its timeout. -/
def isSuspendExpired (s : Session) (now : Instant) : Bool :=
  if s.state ≠ .suspended then false
  else s.suspendedAt.any fun t => s.suspendTimeout.asNanos ≤ Instant.elapsed t now

/-- The session with its suspend clock running exactly while it is suspended. -/
def ClockRuns (s : Session) : Prop := s.suspendedAt.isSome = true ↔ s.state = .suspended

/-- The session as an accepted transition leaves it. -/
def moved (s : Session) (now : Instant) (next : SessionState) : Session :=
  { s with suspendedAt := if next = .suspended then some now else none, state := next }

@[simp] theorem moved_id (s : Session) (now : Instant) (next : SessionState) :
    (s.moved now next).id = s.id := rfl
@[simp] theorem moved_token (s : Session) (now : Instant) (next : SessionState) :
    (s.moved now next).token = s.token := rfl
@[simp] theorem moved_state (s : Session) (now : Instant) (next : SessionState) :
    (s.moved now next).state = next := rfl

theorem clockRuns_moved (s : Session) (now : Instant) (next : SessionState) :
    (s.moved now next).ClockRuns := by
  unfold ClockRuns moved
  by_cases hn : next = .suspended <;> simp [hn]

theorem transition_ok {s : Session} {now : Instant} {next : SessionState}
    (h : s.state.canTransitionTo next = true) :
    s.transition now next = (.ok (), s.moved now next) := by
  rw [transition, if_pos h, moved]

/-- A refused transition leaves the session as it was. -/
theorem transition_error {s : Session} {now : Instant} {next : SessionState}
    (h : s.state.canTransitionTo next = false) :
    s.transition now next = (.error ⟨s.id, s.state, next⟩, s) := by
  rw [transition, if_neg (by simp [h])]

theorem clockRuns_new (id : SessionId) (token : SessionToken) (home : String) (now : Instant) :
    (Session.new id token home now).ClockRuns := by
  simp [ClockRuns, Session.new]

end Session

end WayRay
