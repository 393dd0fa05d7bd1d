import WayRay.Session.Persistence
import Mathlib.Data.Rat.Defs

/-!
# The session registry

The registry of `session/registry.rs`: the sessions by id, the index from tokens to ids, the id
counter, the tokens known to live on other servers, and the store every change is written through
to.

Each public operation is a function from the registry (and the clock it reads) to its answer and the
registry afterwards, also when the answer is an error.  `RegistryOp` names the operations, so that a
history is a list of operations with the clock readings they saw, and `run` is its effect.

The id counter is a `u64` in the source and a natural number here.  The two count alike until one is
added to the largest `u64`; `Session/Counter.lean` has the counter that wraps.
-/

namespace WayRay

/-- How long a cached "this token lives on server X" entry is trusted, in nanoseconds. -/
def remoteSessionTtl : ℕ := 30 * nanosPerSec

/-- Default per-server session capacity. -/
def defaultCapacity : ℕ := 50

/-- A cached remote-session affinity record. -/
structure RemoteEntry where
  serverId : String
  notedAt : Instant
deriving DecidableEq

/-- Where a session bound to a token currently lives. -/
inductive SessionLocation where
  | localTo (id : SessionId)
  | remote (serverId : String)
  | unknown
deriving DecidableEq

/-- In-memory session registry. -/
structure SessionRegistry where
  sessions : HashMap SessionId Session
  /-- Reverse index: token → session id. -/
  tokenIndex : HashMap SessionToken SessionId
  nextId : ℕ
  /-- This server's id within the cluster (empty for single-server mode). -/
  localServerId : String
  /-- Tokens known to live on a remote server, with the time the affinity was learned. -/
  remoteSessions : HashMap SessionToken RemoteEntry
  capacity : ℕ
  store : SessionStore
deriving DecidableEq

namespace SessionRegistry

def new : SessionRegistry where
  sessions := ∅
  tokenIndex := ∅
  nextId := 1
  localServerId := ""
  remoteSessions := ∅
  capacity := defaultCapacity
  store := .null

/-- Attach a persistent session store. -/
def withStore (r : SessionRegistry) (store : SessionStore) : SessionRegistry :=
  { r with store := store }

/-- Create a registry with an explicit local server id and capacity. -/
def withCluster (localServerId : String) (capacity : ℕ) : SessionRegistry :=
  { new with localServerId := localServerId, capacity := max capacity 1 }

/-! ### Restoring -/

/-- The suspended session that an `Active` or `Suspended` row is restored as: its suspend clock
starts now, its creation time is a best-effort reconstruction of the wall-clock one. -/
def restoredSession (clk : Clock) (row : PersistedSession) : Session :=
  let age := asU64 (max (saturatingSubI64 (asI64 clk.epoch) row.createdAtEpoch) 0)
  { id := row.id
    token := ⟨row.token⟩
    state := .suspended
    createdAt := (Instant.checkedSub clk.now age).getD clk.now
    suspendedAt := some clk.now
    suspendTimeout := row.suspendTimeout
    user := row.user
    homeServer := row.homeServer }

/-- One row of `restorePersisted`: `Active` and `Suspended` rows become suspended sessions, the
others are deleted.  The id counter moves past every row. -/
def restoreRow (clk : Clock) (r : SessionRegistry) (row : PersistedSession) : SessionRegistry :=
  let id := row.id
  -- also for a row that is about to be deleted
  let r := { r with nextId := max r.nextId (row.id.raw + 1) }
  match row.state with
  | .active | .suspended =>
    let session := restoredSession clk row
    { r with
      store := r.store.persist clk session
      tokenIndex := r.tokenIndex.insert session.token id
      sessions := r.sessions.insert id session }
  | .creating | .destroyed => { r with store := r.store.remove id }

/-- Load persisted sessions from the attached store into the registry.  Returns the number of
sessions restored. -/
def restorePersisted (r : SessionRegistry) (clk : Clock)
    (find : Enumeration (SessionId × SessionRecord)) : ℕ × SessionRegistry :=
  let (rows, store) := r.store.loadAll find
  ((rows.filter (·.state.resumable)).length, rows.foldl (restoreRow clk) { r with store := store })

/-! ### Remote sessions and lookups -/

/-- Mark a token as living on a remote server. -/
def noteRemoteSession (r : SessionRegistry) (clk : Clock) (token : SessionToken)
    (serverId : String) : SessionRegistry :=
  { r with remoteSessions := r.remoteSessions.insert token ⟨serverId, clk.now⟩ }

/-- Determine where the session bound to `token` lives.  A remote entry older than the TTL is
treated as unknown. -/
def locate (r : SessionRegistry) (clk : Clock) (token : SessionToken) : SessionLocation :=
  match r.tokenIndex.get token with
  -- a local session comes before every remote note
  | some id => .localTo id
  | none =>
    match r.remoteSessions.get token with
    | some entry =>
      if Instant.elapsed entry.notedAt clk.now < remoteSessionTtl then .remote entry.serverId
      else .unknown
    | none => .unknown

/-- Drop remote-affinity entries that have passed the TTL. -/
def pruneRemoteSessions (r : SessionRegistry) (clk : Clock) : SessionRegistry :=
  { r with
    remoteSessions :=
      r.remoteSessions.retain fun _ e => Instant.elapsed e.notedAt clk.now < remoteSessionTtl }

/-- Look up a session by its token. -/
def findByToken (r : SessionRegistry) (token : SessionToken) : Option Session :=
  (r.tokenIndex.get token).bind r.sessions.get

/-- Look up a session by id. -/
def get (r : SessionRegistry) (id : SessionId) : Option Session := r.sessions.get id

/-- Whether a session bound to `token` can be resumed by a reconnecting client: it is `Suspended`,
or `Active` with a vanished endpoint. -/
def isResumable (r : SessionRegistry) (token : SessionToken) : Option SessionId :=
  (r.findByToken token).bind fun session =>
    match session.state with
    -- the id the session carries, not the one it is stored under
    | .suspended | .active => some session.id
    | .creating | .destroyed => none

/-! ### Creation, transitions and setters -/

/-- Create a new session for the given token, stamped with this server's id. -/
def createSession (r : SessionRegistry) (clk : Clock) (token : SessionToken) :
    SessionId × SessionRegistry :=
  let id : SessionId := ⟨r.nextId⟩
  let session := Session.new id token r.localServerId clk.now
  (id, { r with
    nextId := r.nextId + 1
    store := r.store.persist clk session
    -- the token is local now
    remoteSessions := r.remoteSessions.remove token
    tokenIndex := r.tokenIndex.insert token id
    sessions := r.sessions.insert id session })

/-- Transition a session to a new state: a destroyed session leaves the index and the store, every
other transition is persisted. -/
def transition (r : SessionRegistry) (clk : Clock) (id : SessionId) (next : SessionState) :
    Except SessionTransitionError Unit × SessionRegistry :=
  match r.sessions.get id with
  | none => (.error ⟨id, .destroyed, next⟩, r)
  | some session =>
    match session.transition clk.now next with
    | (.error e, _) => (.error e, r)
    | (.ok (), session) =>
      let r := { r with sessions := r.sessions.insert id session }
      if next = .destroyed then
        (.ok (), { r with
          -- whichever session the entry names
          tokenIndex := r.tokenIndex.remove session.token
          store := r.store.remove id })
      else (.ok (), { r with store := r.store.persist clk session })

/-- Activate a session (`Creating → Active` or `Suspended → Active`). -/
def activate (r : SessionRegistry) (clk : Clock) (id : SessionId) := r.transition clk id .active

/-- Suspend a session (`Active → Suspended`). -/
def suspend (r : SessionRegistry) (clk : Clock) (id : SessionId) := r.transition clk id .suspended

/-- Destroy a session. -/
def destroy (r : SessionRegistry) (clk : Clock) (id : SessionId) := r.transition clk id .destroyed

/-- A setter: change a stored session in place and persist it, whatever its state. -/
def update (r : SessionRegistry) (clk : Clock) (id : SessionId) (f : Session → Session) :
    SessionRegistry :=
  match r.sessions.get id with
  | none => r
  | some session =>
    -- a destroyed session, too, gets its row back
    { r with
      sessions := r.sessions.insert id (f session)
      store := r.store.persist clk (f session) }

/-- Set the user for a session (after authentication). -/
def setUser (r : SessionRegistry) (clk : Clock) (id : SessionId) (user : String) :
    SessionRegistry :=
  r.update clk id fun s => { s with user := some user }

/-- Set the suspend timeout for a session. -/
def setSuspendTimeout (r : SessionRegistry) (clk : Clock) (id : SessionId) (timeout : Duration) :
    SessionRegistry :=
  r.update clk id fun s => { s with suspendTimeout := timeout }

/-! ### Cleanup -/

/-- The ids of the sessions whose suspend timeout has run out. -/
def expiredIds (r : SessionRegistry) (clk : Clock) : List SessionId :=
  (r.sessions.values.filter (·.isSuspendExpired clk.now)).map (·.id)

/-- Clean up expired suspended sessions.  Returns the ids of the destroyed sessions. -/
def cleanupExpired (r : SessionRegistry) (clk : Clock) : List SessionId × SessionRegistry :=
  let expired := r.expiredIds clk
  (expired, expired.foldl (fun r id => (r.destroy clk id).2) r)

/-- Remove destroyed sessions from memory entirely. -/
def purgeDestroyed (r : SessionRegistry) : SessionRegistry :=
  { r with sessions := r.sessions.retain fun _ s => s.state ≠ .destroyed }

/-! ### Counting -/

/-- Tokens of sessions this server hosts in a resumable state. -/
def resumableTokens (r : SessionRegistry) : List String :=
  (r.sessions.values.filter (·.state.resumable)).map (·.token.str)

/-- Count sessions by state. -/
def countByState (r : SessionRegistry) (state : SessionState) : ℕ :=
  (r.sessions.values.filter (·.state = state)).length

/-- Current load factor: active sessions / capacity (an `f32` in the source, exact here). -/
def loadFactor (r : SessionRegistry) : ℚ := r.countByState .active / (max r.capacity 1 : ℕ)

end SessionRegistry

/-! ### Histories -/

/-- The operations that change a registry. -/
inductive RegistryOp where
  | createSession (token : SessionToken)
  | activate (id : SessionId)
  | suspend (id : SessionId)
  | destroy (id : SessionId)
  | transition (id : SessionId) (next : SessionState)
  | setUser (id : SessionId) (user : String)
  | setSuspendTimeout (id : SessionId) (timeout : Duration)
  | noteRemoteSession (token : SessionToken) (serverId : String)
  | pruneRemoteSessions
  | cleanupExpired
  | purgeDestroyed
  | restorePersisted (find : Enumeration (SessionId × SessionRecord))

/-- What an operation answers. -/
inductive RegistryAnswer where
  | created (id : SessionId)
  | transitioned (res : Except SessionTransitionError Unit)
  | expired (ids : List SessionId)
  | restored (count : ℕ)
  | done

namespace SessionRegistry

/-- Perform one operation. -/
def step (r : SessionRegistry) (clk : Clock) : RegistryOp → RegistryAnswer × SessionRegistry
  | .createSession token => (r.createSession clk token).map .created id
  | .activate i => (r.activate clk i).map .transitioned id
  | .suspend i => (r.suspend clk i).map .transitioned id
  | .destroy i => (r.destroy clk i).map .transitioned id
  | .transition i next => (r.transition clk i next).map .transitioned id
  | .setUser i user => (.done, r.setUser clk i user)
  | .setSuspendTimeout i timeout => (.done, r.setSuspendTimeout clk i timeout)
  | .noteRemoteSession token serverId => (.done, r.noteRemoteSession clk token serverId)
  | .pruneRemoteSessions => (.done, r.pruneRemoteSessions clk)
  | .cleanupExpired => (r.cleanupExpired clk).map .expired id
  | .purgeDestroyed => (.done, r.purgeDestroyed)
  | .restorePersisted find => (r.restorePersisted clk find).map .restored id

/-- Perform a history of operations, each with the clock readings it sees. -/
def run (r : SessionRegistry) (history : List (Clock × RegistryOp)) : SessionRegistry :=
  history.foldl (fun r e => (r.step e.1 e.2).2) r

theorem run_append (r : SessionRegistry) (history history' : List (Clock × RegistryOp)) :
    r.run (history ++ history') = (r.run history).run history' :=
  List.foldl_append

/-- **Run induction**: what holds initially and is kept by every operation holds after every
history. -/
theorem run_induction {P : SessionRegistry → Prop} {r : SessionRegistry} (h0 : P r)
    (hstep : ∀ r clk op, P r → P (r.step clk op).2) (history : List (Clock × RegistryOp)) :
    P (r.run history) :=
  List.foldlRecOn history _ h0 fun r hr e _ => hstep r e.1 e.2 hr

end SessionRegistry

end WayRay
