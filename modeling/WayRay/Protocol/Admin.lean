import Mathlib.Data.List.Basic

/-!
# The administration channel

What the compositor reports to an administrator, `admin.rs`.  A session token is shown as its first
characters only (`redactToken`).
-/

namespace WayRay

/-- How many leading characters of a session token are exposed. -/
def tokenPrefixLen : ℕ := 8

/-- Redact a session token for display. -/
def redactToken (token : String) : String :=
  let start := String.ofList (token.toList.take tokenPrefixLen)
  if tokenPrefixLen < token.toList.length then start ++ "\u2026" else start

/-- Tokens that go on after the same first characters are redacted alike. -/
theorem redactToken_eq {token token' : String} (h : tokenPrefixLen < token.toList.length)
    (h' : tokenPrefixLen < token'.toList.length)
    (htake : token.toList.take tokenPrefixLen = token'.toList.take tokenPrefixLen) :
    redactToken token = redactToken token' := by
  rw [redactToken, redactToken, if_pos h, if_pos h', htake]

/-- One session as seen by the compositor's registry. -/
structure SessionEntry where
  id : ℕ
  /-- The redacted token. -/
  tokenPrefix : String
  user : Option String
  state : String
  /-- Unix epoch seconds, derived from the session's age. -/
  createdAtEpochSecs : ℕ
  lastActiveEpochSecs : ℕ
  uptimeSecs : ℕ
  /-- Remote address of the connected client, if one is attached. -/
  clientAddr : Option String
deriving DecidableEq

/-- Session counts broken down by lifecycle state. -/
structure SessionCounts where
  creating : ℕ
  active : ℕ
  suspended : ℕ
  /-- Destroyed but not yet purged from memory. -/
  destroyed : ℕ
deriving DecidableEq

namespace SessionCounts

/-- The sessions in all states together. -/
def total (counts : SessionCounts) : ℕ :=
  counts.creating + counts.active + counts.suspended + counts.destroyed

end SessionCounts

/-- Overall server status report. -/
structure ServerStatus where
  version : String
  /-- Seconds since the compositor entered its main loop. -/
  uptimeSecs : ℕ
  sessions : SessionCounts
  /-- Number of configured cluster peers. -/
  clusterPeers : ℕ
deriving DecidableEq

/-- Requests to the compositor. -/
inductive AdminRequest where
  | listSessions
  | serverStatus
deriving DecidableEq

/-- Responses of the compositor. -/
inductive AdminResponse where
  | sessionList (sessions : List SessionEntry)
  | serverStatus (status : ServerStatus)
  /-- The request could not be served. -/
  | error (message : String)
deriving DecidableEq

end WayRay
