import Mathlib.Data.String.Basic

/-!
# The launcher protocol

`launcher.rs`: what the compositor, the greeter and administrators ask the session launcher, and
what it answers; and `session_config.rs`, the programs that make up the desktop of a session.
-/

namespace WayRay

/-! ### Messages -/

/-- Requests to the session launcher. -/
inductive LauncherRequest where
  /-- A new session is needed: start the greeter. -/
  | sessionRequested (token waylandDisplay : String)
  /-- The user has authenticated: start the desktop. -/
  | sessionAuthenticated (token user : String)
  /-- The session is being logged out. -/
  | sessionLogout (token : String) (sessionId : UInt64)
  | listSessions
  | killSession (token : String)
deriving DecidableEq

/-- What administrators learn about a session. -/
structure SessionInfo where
  token : String
  user : Option String
  childCount : ℕ
deriving DecidableEq

/-- Answers of the session launcher. -/
inductive LauncherResponse where
  | sessionReady (token : String)
  | desktopStarted (token user : String)
  | error (token message : String)
  | sessionList (sessions : List SessionInfo)
  | sessionKilled (token : String)
deriving DecidableEq

/-! ### The desktop of a session -/

/-- Desktop configuration of `session.toml`. -/
structure SessionConfig where
  /-- Window manager binary. -/
  wm : String
  panel : Option String
  /-- Application launcher binary. -/
  launcher : Option String
  /-- Notification daemon binary. -/
  notifications : Option String
  autostart : List String
deriving DecidableEq

inductive SessionConfigError where
  | io (path source : String)
  | parse (path source : String)
deriving DecidableEq

namespace SessionConfig

def default : SessionConfig := ⟨"wr-wm-floating", none, none, none, []⟩

/-- The configuration that loading the default file gives: the default one if that fails. -/
def loadDefault (loaded : Except SessionConfigError SessionConfig) : SessionConfig :=
  match loaded with
  | .ok config => config
  | .error (.io _ _) => default
  -- a file that cannot be parsed is only warned about
  | .error (.parse _ _) => default

/-- All binaries to launch, with whether they are the window manager, which comes first. -/
def launchList (config : SessionConfig) : List (String × Bool) :=
  (config.wm, true) ::
    (config.panel.toList ++ config.launcher.toList ++ config.notifications.toList ++
      config.autostart).map fun binary => (binary, false)

end SessionConfig

end WayRay
