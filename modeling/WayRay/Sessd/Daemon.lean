import WayRay.Collections.HashMap
import WayRay.Protocol.Launcher

/-!
# The session launcher

`wrsessd`: for a session that is requested it starts a greeter, and once the user has authenticated
the programs of the desktop.  The children of a session are recorded with it, and killed when it is
logged out or when an administrator ends it.

`Sessd` is the daemon together with the processes it has started and killed so far.  Whether an
attempt to start a process succeeds is up to the operating system: `os n` is the error of the
attempt number `n`, if it fails.  A child is known by the number of the attempt that started it.
-/

namespace WayRay

/-! ### State -/

/-- A program to start. -/
structure Command where
  program : String
  /-- Variables that are set on top of the inherited environment. -/
  env : List (String × String)
deriving DecidableEq

/-- A client of a display. -/
def waylandClient (binary waylandDisplay : String) : Command :=
  ⟨binary, [("WAYLAND_DISPLAY", waylandDisplay)]⟩

/-- A process the launcher has started. -/
structure Child where
  pid : ℕ
  command : Command
  /-- The session it was started for. -/
  token : String
deriving DecidableEq

/-- Tracked state of a session. -/
structure ManagedSession where
  token : String
  user : Option String
  children : List Child
  /-- The Wayland display socket name. -/
  waylandDisplay : String
deriving DecidableEq

structure Launcher where
  sessions : HashMap String ManagedSession
  greeterBin : String

def Launcher.new : Launcher := ⟨∅, "wrlogin"⟩

/-- The launcher, and the processes it has started and killed. -/
structure Sessd extends Launcher where
  /-- Attempts to start a process. -/
  attempts : ℕ
  spawned : List Child
  killed : List Child

namespace Sessd

def new : Sessd := { Launcher.new with attempts := 0, spawned := [], killed := [] }

/-! ### Requests -/

section Handlers

variable (os : ℕ → Option String)

def spawn (s : Sessd) (token : String) (command : Command) : Except String Child × Sessd :=
  match os s.attempts with
  | some e => (.error e, { s with attempts := s.attempts + 1 })
  | none =>
    let child : Child := ⟨s.attempts, command, token⟩
    (.ok child, { s with attempts := s.attempts + 1, spawned := s.spawned ++ [child] })

/-- Record a session; an earlier one of the token is dropped, and its children with it. -/
def register (s : Sessd) (token : String) (session : ManagedSession) : Sessd :=
  { s with sessions := s.sessions.insert token session }

/-- A session is requested: launch the greeter. -/
def handleSessionRequested (s : Sessd) (token waylandDisplay : String) :
    LauncherResponse × Sessd :=
  let session : ManagedSession := ⟨token, none, [], waylandDisplay⟩
  match s.spawn os token (waylandClient s.greeterBin waylandDisplay) with
  | (.ok child, s) =>
    (.sessionReady token, s.register token { session with children := [child] })
  | (.error e, s) =>
    -- the session is registered even if the greeter fails
    (.error token ("greeter launch failed: " ++ e), s.register token session)

/-- Launch the components of a desktop; one that fails is only warned about. -/
def launchAll (token waylandDisplay : String) :
    List (String × Bool) → Sessd → List Child × Sessd
  | [], s => ([], s)
  | (binary, _) :: rest, s =>
    match s.spawn os token (waylandClient binary waylandDisplay) with
    | (.ok child, s) =>
      let (children, s) := launchAll token waylandDisplay rest s
      (child :: children, s)
    | (.error _, s) => launchAll token waylandDisplay rest s

/-- The user of a session has authenticated: launch the desktop.  `loaded` is what reading the
configuration file gives. -/
def handleSessionAuthenticated (loaded : Except SessionConfigError SessionConfig) (s : Sessd)
    (token user : String) : LauncherResponse × Sessd :=
  match s.sessions.get token with
  | none => (.error token "no session found for token", s)
  | some session =>
    let config := SessionConfig.loadDefault loaded
    let (children, s) := launchAll os token session.waylandDisplay config.launchList s
    (.desktopStarted token user, s.register token
      { session with user := some user, children := session.children ++ children })

/-- Take a session out and kill its children; `none` if there is no such session. -/
def endSession (s : Sessd) (token : String) : Option Sessd :=
  (s.sessions.get token).map fun session =>
    { s with sessions := s.sessions.remove token, killed := s.killed ++ session.children }

def handleSessionLogout (s : Sessd) (token : String) (_sessionId : UInt64) : Sessd :=
  (s.endSession token).getD s

/-- Admin: list all managed sessions. -/
def listSessions (s : Sessd) : List SessionInfo :=
  s.sessions.values.map fun session => ⟨session.token, session.user, session.children.length⟩

/-- Admin: kill a session by token. -/
def killSession (s : Sessd) (token : String) : LauncherResponse × Sessd :=
  match s.endSession token with
  | some s => (.sessionKilled token, s)
  | none => (.error token "session not found", s)

/-- Process one request; a logout has no response. -/
def handle (loaded : Except SessionConfigError SessionConfig) (s : Sessd) :
    LauncherRequest → Option LauncherResponse × Sessd
  | .sessionRequested token waylandDisplay =>
    (s.handleSessionRequested os token waylandDisplay).map some id
  | .sessionAuthenticated token user =>
    (s.handleSessionAuthenticated os loaded token user).map some id
  | .sessionLogout token sessionId => (none, s.handleSessionLogout token sessionId)
  | .listSessions => (some (.sessionList s.listSessions), s)
  | .killSession token => (s.killSession token).map some id

/-- A request as it arrives, and what reading the configuration file gives then. -/
structure Arrival where
  request : LauncherRequest
  loaded : Except SessionConfigError SessionConfig

def step (s : Sessd) (a : Arrival) : Sessd := (s.handle os a.loaded a.request).2

end Handlers

/-! ### What the handlers do -/

section Cases

variable {os : ℕ → Option String}

/-- The components that attempts from number `start` on bring up. -/
def launched (os : ℕ → Option String) (token waylandDisplay : String) (start : ℕ)
    (list : List (String × Bool)) : List Child :=
  (list.zipIdx start).filterMap fun entry =>
    match os entry.2 with
    | some _ => none
    | none => some ⟨entry.2, waylandClient entry.1.1 waylandDisplay, token⟩

section Attempts

variable {token waylandDisplay : String} {start : ℕ} {entry : String × Bool}
  {rest : List (String × Bool)}

theorem launched_cons_of_failed {e : String} (hos : os start = some e) :
    launched os token waylandDisplay start (entry :: rest) =
      launched os token waylandDisplay (start + 1) rest := by
  simp [launched, hos]

theorem launched_cons_of_started (hos : os start = none) :
    launched os token waylandDisplay start (entry :: rest) =
      ⟨start, waylandClient entry.1 waylandDisplay, token⟩ ::
        launched os token waylandDisplay (start + 1) rest := by
  simp [launched, hos]

end Attempts

/-- Children are started one attempt after the other, and recorded as spawned. -/
theorem launchAll_eq (token waylandDisplay : String) (list : List (String × Bool)) (s : Sessd) :
    launchAll os token waylandDisplay list s =
      (launched os token waylandDisplay s.attempts list,
        { s with
          attempts := s.attempts + list.length
          spawned := s.spawned ++ launched os token waylandDisplay s.attempts list }) := by
  induction list generalizing s with
  | nil => simp [launchAll, launched]
  | cons entry rest ih =>
    unfold launchAll spawn
    cases hos : os s.attempts with
    | none =>
      rw [launched_cons_of_started hos]
      simp [ih, Nat.add_assoc, Nat.add_comm 1]
    | some e =>
      rw [launched_cons_of_failed hos]
      simp [ih, Nat.add_assoc, Nat.add_comm 1]

theorem mem_launched {token waylandDisplay : String} {start : ℕ} {list : List (String × Bool)}
    {child : Child} (h : child ∈ launched os token waylandDisplay start list) :
    (start ≤ child.pid ∧ child.pid < start + list.length) ∧ child.token = token ∧
      ∃ binary, child.command = waylandClient binary waylandDisplay := by
  obtain ⟨⟨⟨binary, isWm⟩, index⟩, hentry, hchild⟩ := List.mem_filterMap.mp h
  have hindex := List.mem_zipIdx hentry
  dsimp only at hchild
  split at hchild
  · exact absurd hchild.symm (Option.some_ne_none child)
  · obtain rfl := Option.some.inj hchild
    exact ⟨⟨hindex.1, hindex.2.1⟩, rfl, binary, rfl⟩

end Cases

end Sessd

end WayRay
