import WayRay.Protocol.Tls
import WayRay.Sessd.Children

/-!
# Logging in

`wrlogin`, the greeter: it prompts for a user and reports to the launcher that this user has
authenticated for a session.  The token of the session and the path of the launcher's socket are
those of its environment, which it inherits from the launcher.

The launcher sets the display only in the environment of a greeter.  So all greeters report the same
token, which is the one in the launcher's own environment; `login_reaches_iff` says when a login
reaches the session that the greeter was started for.
-/

namespace WayRay

/-- The variables of an environment. -/
abbrev Env := String → Option String

/-- The environment of a process that runs the command. -/
def Command.childEnv (command : Command) (env : Env) : Env :=
  fun name => (command.env.lookup name).or (env name)

/-- `PathBuf::join` with a relative path. -/
def joinPath (dir file : String) : String :=
  match dir.toList.getLast? with
  | none | some '/' => dir ++ file
  | some _ => dir ++ "/" ++ file

/-- Default path of the launcher's socket. -/
def defaultIpcPath (env : Env) : String :=
  joinPath ((env "XDG_RUNTIME_DIR").getD "/tmp") "wayray-launcher.sock"

/-! ### The greeter -/

namespace Wrlogin

/-- The answer to a prompt. -/
def prompt (line : String) : String := String.ofList (trim line.toList)

def ipcPath (env : Env) : String := (env "WAYRAY_LAUNCHER_SOCKET").getD (defaultIpcPath env)

/-- The token of the session. -/
def token (env : Env) : String := (env "WAYRAY_SESSION_TOKEN").getD "unknown"

/-- What is sent once the user has been entered; without one, the greeter prompts again.  The
password is not verified. -/
def request (env : Env) (line : String) : Option LauncherRequest :=
  let user := prompt line
  if user.isEmpty then none else some (.sessionAuthenticated (token env) user)

end Wrlogin

/-! ### A login -/

/-- Where the launcher runs. -/
structure LauncherHost where
  env : Env
  /-- The first argument. -/
  socketArg : Option String
  /-- Whether a path leads to the socket of the launcher. -/
  serves : String → Bool
  serves_own : serves (socketArg.getD (defaultIpcPath env)) = true

namespace Sessd

/-- A user is entered at a greeter; what the launcher answers, and the state afterwards. -/
def login (host : LauncherHost) (os : ℕ → Option String)
    (loaded : Except SessionConfigError SessionConfig) (s : Sessd) (greeter : Child)
    (line : String) : Option LauncherResponse × Sessd :=
  let env := greeter.command.childEnv host.env
  match Wrlogin.request env line with
  | none => (none, s)
  | some request =>
    if host.serves (Wrlogin.ipcPath env) then s.handle os loaded request
    -- the request goes elsewhere, or nowhere
    else (none, s)

/-- The user is recorded on the session of the token and on no other, the whole desktop is started
on the display of that session, and the launcher says so. -/
def Reaches (s : Sessd) (token user : String) (config : SessionConfig)
    (result : Option LauncherResponse × Sessd) : Prop :=
  ∃ session children, s.sessions.get token = some session ∧
    result.1 = some (.desktopStarted token user) ∧
    children.map Child.command =
      config.launchList.map (fun entry => waylandClient entry.1 session.waylandDisplay) ∧
    result.2.spawned = s.spawned ++ children ∧
    result.2.sessions = s.sessions.insert token
      { session with user := some user, children := session.children ++ children }

/-- The process runs the greeter program, for a session. -/
structure IsGreeter (s : Sessd) (token : String) (child : Child) : Prop where
  mem_spawned : child ∈ s.spawned
  program_eq : child.command.program = s.greeterBin
  token_eq : child.token = token

variable {os : ℕ → Option String} {s s' : Sessd} {a : Arrival}

/-! ### The environment of the children -/

/-- Only the display is set for a child. -/
def OnlyDisplaySet (s : Sessd) : Prop :=
  ∀ child ∈ s.spawned, ∃ binary waylandDisplay,
    child.command = waylandClient binary waylandDisplay

theorem Stepped.onlyDisplaySet (h : Stepped s a s') (hs : s.OnlyDisplaySet) :
    s'.OnlyDisplaySet := by
  cases h with
  | requested token waylandDisplay children _ hchildren =>
    intro child hchild
    rcases List.mem_append.mp hchild with hold | hnew
    · exact hs child hold
    · obtain ⟨binary, hcommand⟩ := (hchildren child hnew).2
      exact ⟨binary, waylandDisplay, hcommand⟩
  | authenticated token user session count children _ _ hchildren =>
    intro child hchild
    rcases List.mem_append.mp hchild with hold | hnew
    · exact hs child hold
    · obtain ⟨binary, hcommand⟩ := (hchildren child hnew).2
      exact ⟨binary, session.waylandDisplay, hcommand⟩
  | ended | unchanged => exact hs

theorem onlyDisplaySet_run (os : ℕ → Option String) (arrivals : List Arrival) :
    (arrivals.foldl (step os) new).OnlyDisplaySet := by
  have hrun : ∀ s : Sessd, s.OnlyDisplaySet → (arrivals.foldl (step os) s).OnlyDisplaySet := by
    induction arrivals with
    | nil => exact fun s hs => hs
    | cons a arrivals ih => exact fun s hs => ih _ ((stepped os s a).onlyDisplaySet hs)
  exact hrun new fun child hchild => absurd hchild List.not_mem_nil

/-- So a greeter has the token and the path of the launcher's own environment. -/
theorem childEnv_eq (binary waylandDisplay : String) (env : Env) {name : String}
    (hname : name ≠ "WAYLAND_DISPLAY") :
    (waylandClient binary waylandDisplay).childEnv env name = env name := by
  simp [Command.childEnv, waylandClient, beq_eq_false_iff_ne.mpr hname]

theorem token_childEnv (binary waylandDisplay : String) (env : Env) :
    Wrlogin.token ((waylandClient binary waylandDisplay).childEnv env) = Wrlogin.token env := by
  rw [Wrlogin.token, childEnv_eq _ _ _ (by decide), Wrlogin.token]

theorem ipcPath_childEnv (binary waylandDisplay : String) (env : Env) :
    Wrlogin.ipcPath ((waylandClient binary waylandDisplay).childEnv env) = Wrlogin.ipcPath env := by
  rw [Wrlogin.ipcPath, defaultIpcPath, childEnv_eq _ _ _ (by decide),
    childEnv_eq _ _ _ (by decide), Wrlogin.ipcPath, defaultIpcPath]

/-! ### The whole desktop -/

theorem length_launched_le (os : ℕ → Option String) (token waylandDisplay : String) (start : ℕ)
    (list : List (String × Bool)) :
    (launched os token waylandDisplay start list).length ≤ list.length := by
  rw [← List.length_zipIdx (l := list) (i := start)]
  exact List.length_filterMap_le _ _

/-- All components are started exactly if no attempt fails. -/
theorem launched_all_iff (token waylandDisplay : String) {start : ℕ}
    {list : List (String × Bool)} :
    (launched os token waylandDisplay start list).map Child.command =
        list.map (fun entry => waylandClient entry.1 waylandDisplay) ↔
      ∀ i < list.length, os (start + i) = none := by
  induction list generalizing start with
  | nil => simp [launched]
  | cons entry rest ih =>
    cases hos : os start with
    | some e =>
      rw [launched_cons_of_failed hos]
      refine iff_of_false (fun heq => ?_) fun hall => ?_
      · have hlength := congrArg List.length heq
        have hle := length_launched_le os token waylandDisplay (start + 1) rest
        simp only [List.length_map, List.length_cons] at hlength
        omega
      · have hfirst := hall 0 (Nat.succ_pos _)
        rw [Nat.add_zero, hos] at hfirst
        exact Option.some_ne_none e hfirst
    | none =>
      rw [launched_cons_of_started hos, List.map_cons, List.map_cons, List.cons_inj_right, ih]
      constructor
      · intro hrest i hi
        cases i with
        | zero => exact hos
        | succ i =>
          rw [← Nat.add_assoc, Nat.add_right_comm]
          exact hrest i (Nat.lt_of_succ_lt_succ hi)
      · intro hall i hi
        rw [Nat.add_right_comm]
        exact hall (i + 1) (Nat.succ_lt_succ hi)

/-! ### Reaching the session -/

/-- What a login does, since a greeter has the launcher's environment. -/
theorem login_eq (hdisplay : s.OnlyDisplaySet) {host : LauncherHost}
    {loaded : Except SessionConfigError SessionConfig} {greeter : Child}
    (hspawned : greeter ∈ s.spawned) {line : String}
    (huser : (Wrlogin.prompt line).isEmpty = false) :
    s.login host os loaded greeter line =
      if host.serves (Wrlogin.ipcPath host.env) then
        (s.handleSessionAuthenticated os loaded (Wrlogin.token host.env)
          (Wrlogin.prompt line)).map some id
      else (none, s) := by
  obtain ⟨binary, waylandDisplay, hcommand⟩ := hdisplay greeter hspawned
  unfold login Wrlogin.request
  rw [hcommand]
  simp only [huser, Bool.false_eq_true, if_false, ipcPath_childEnv, token_childEnv]
  rfl

/-- An authenticated user reaches a session exactly if the request is for its token and the whole
desktop can be started. -/
theorem reaches_handle_iff {loaded : Except SessionConfigError SessionConfig}
    {reported token user : String} {session : ManagedSession}
    (hlive : s.sessions.get token = some session) :
    s.Reaches token user (SessionConfig.loadDefault loaded)
        ((s.handleSessionAuthenticated os loaded reported user).map some id) ↔
      reported = token ∧ ∀ i < (SessionConfig.loadDefault loaded).launchList.length,
        os (s.attempts + i) = none := by
  by_cases htoken : reported = token
  · subst htoken
    rw [and_iff_right rfl, ← launched_all_iff reported session.waylandDisplay]
    simp only [handleSessionAuthenticated, hlive, launchAll_eq, register, Reaches]
    constructor
    · rintro ⟨session', children, hsession, -, hcommands, hspawned, -⟩
      obtain rfl : session = session' := Option.some.inj hsession
      rw [List.append_cancel_left hspawned]
      exact hcommands
    · intro hcommands
      exact ⟨session, _, rfl, rfl, hcommands, rfl, rfl⟩
  · refine iff_of_false ?_ fun h => htoken h.1
    rintro ⟨session', children, -, hresponse, -⟩
    unfold handleSessionAuthenticated at hresponse
    cases hget : s.sessions.get reported with
    | none =>
      rw [hget] at hresponse
      cases hresponse
    | some other =>
      rw [hget] at hresponse
      exact htoken (LauncherResponse.desktopStarted.inj (Option.some.inj hresponse)).1

/-- **A login reaches its own session**: after any requests, when the greeter that was started for a
live session reads a user, the user is recorded on that session, the whole desktop is started on its
display, and the launcher says so, if and only if the token in the launcher's own environment, or
`unknown` if there is none, is that of the session, the path of the socket in this environment leads
to the launcher, and every component of the desktop can be started. -/
theorem login_reaches_iff (host : LauncherHost) (os : ℕ → Option String) (arrivals : List Arrival)
    (loaded : Except SessionConfigError SessionConfig) {token line : String} {greeter : Child}
    {session : ManagedSession}
    (hgreeter : (arrivals.foldl (step os) new).IsGreeter token greeter)
    (hlive : (arrivals.foldl (step os) new).sessions.get token = some session)
    (huser : Wrlogin.prompt line ≠ "") :
    let s := arrivals.foldl (step os) new
    let config := SessionConfig.loadDefault loaded
    s.Reaches token (Wrlogin.prompt line) config (s.login host os loaded greeter line) ↔
      Wrlogin.token host.env = token ∧ host.serves (Wrlogin.ipcPath host.env) = true ∧
        ∀ i < config.launchList.length, os (s.attempts + i) = none := by
  intro s config
  have hentered : (Wrlogin.prompt line).isEmpty = false := by
    rw [← Bool.not_eq_true, String.isEmpty_iff]
    exact huser
  rw [login_eq (onlyDisplaySet_run os arrivals) hgreeter.mem_spawned hentered]
  cases hserves : host.serves (Wrlogin.ipcPath host.env) with
  | false =>
    refine iff_of_false ?_ fun h => absurd h.2.1 Bool.false_ne_true
    rintro ⟨-, -, -, hresponse, -⟩
    cases hresponse
  | true =>
    rw [if_pos rfl, reaches_handle_iff hlive]
    exact and_congr_right fun _ => (and_iff_right rfl).symm

/-- A launcher that was started without arguments, perhaps with a session token in its environment,
and serves at the default path. -/
def plainHost (sessionToken : Option String) : LauncherHost where
  env name := if name = "WAYRAY_SESSION_TOKEN" then sessionToken else none
  socketArg := none
  serves path := path = "/tmp/wayray-launcher.sock"
  serves_own := by
    simp only [defaultIpcPath, Option.getD_none, String.reduceEq, if_false]
    decide

/-- The state with one session, and its greeter. -/
def oneSession : Sessd :=
  [(⟨.sessionRequested "abc" "wayland-1", .ok .default⟩ : Arrival)].foldl (step fun _ => none) new

def onlyGreeter : Child := ⟨0, waylandClient "wrlogin" "wayland-1", "abc"⟩

theorem login_reaches_iff_inherited :
    oneSession.Reaches "abc" (Wrlogin.prompt "alice\n") .default
        (oneSession.login (plainHost (some "abc")) (fun _ => none) (.ok .default) onlyGreeter
          "alice\n") ↔
      Wrlogin.token (plainHost (some "abc")).env = "abc" ∧
        (plainHost (some "abc")).serves (Wrlogin.ipcPath (plainHost (some "abc")).env) = true ∧
        ∀ i < SessionConfig.default.launchList.length,
          (fun _ => none : ℕ → Option String) (oneSession.attempts + i) = none :=
  login_reaches_iff (plainHost (some "abc")) (fun _ => none) _ (.ok .default)
    ⟨by decide, by decide, by decide⟩ rfl (by decide)

/-- Without a token in the environment, the greeter reports `unknown`, and the login fails. -/
theorem not_login_reaches_unset :
    oneSession.IsGreeter "abc" onlyGreeter ∧ (oneSession.sessions.get "abc").isSome ∧
      (oneSession.login (plainHost none) (fun _ => none) (.ok .default) onlyGreeter "alice\n").1 =
        some (.error "unknown" "no session found for token") ∧
      ¬oneSession.Reaches "abc" (Wrlogin.prompt "alice\n") .default
        (oneSession.login (plainHost none) (fun _ => none) (.ok .default) onlyGreeter
          "alice\n") := by
  have hresponse : (oneSession.login (plainHost none) (fun _ => none) (.ok .default) onlyGreeter
      "alice\n").1 = some (.error "unknown" "no session found for token") := by decide
  refine ⟨⟨by decide, by decide, by decide⟩, by decide, hresponse, ?_⟩
  rintro ⟨-, -, -, hstarted, -⟩
  rw [hresponse] at hstarted
  cases hstarted

end Sessd

end WayRay
