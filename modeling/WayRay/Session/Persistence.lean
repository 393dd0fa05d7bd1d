import WayRay.Collections.HashMap
import WayRay.Session.Types

/-!
# Session persistence

The stores of `session/persistence.rs`.  A `SqliteStore` is the `sessions` table of the database
file and the queue of writes its writer task has yet to apply; `persist` and `remove` only append to
the queue, `loadAll` flushes it first.  `SessionStore.rows` is the table with every queued write
applied: what a reader that flushes sees, and what the theorems about stores are stated over.

The primary key of the table is the session id.  It is an `i64` column holding the bits of the `u64`
id; the cast in `record_of` and the one in `load_all` cancel on every `u64`, so the key of the model
is the id itself.  The timeout column is cast without such a partner and keeps its casts.
-/

namespace WayRay

/-- A session as loaded back from a persistent store. -/
structure PersistedSession where
  id : SessionId
  token : String
  state : SessionState
  user : Option String
  homeServer : String
  /-- Creation time, Unix epoch seconds. -/
  createdAtEpoch : ℤ
  suspendTimeout : Duration
deriving DecidableEq

/-- The columns of a `sessions` row beside its primary key. -/
structure SessionRecord where
  token : String
  state : String
  user : Option String
  homeServer : String
  createdAt : ℤ
  suspendedAt : Option ℤ
  suspendTimeoutSecs : ℤ
deriving DecidableEq

/-- The `sessions` table: one row per session id. -/
abbrev SessionTable := HashMap SessionId SessionRecord

/-! ### Rows -/

def stateStr : SessionState → String
  | .creating => "creating"
  | .active => "active"
  | .suspended => "suspended"
  | .destroyed => "destroyed"

def parseState (s : String) : Option SessionState :=
  if s = "creating" then some .creating
  else if s = "active" then some .active
  else if s = "suspended" then some .suspended
  else if s = "destroyed" then some .destroyed
  else none

@[simp] theorem parseState_stateStr (s : SessionState) : parseState (stateStr s) = some s := by
  cases s <;> decide

/-- Snapshot a live session into wall-clock persistable form. -/
def recordOf (session : Session) (clk : Clock) : SessionRecord :=
  let nowEpoch := asI64 clk.epoch
  -- both ages are cut to whole seconds
  { token := session.token.str
    state := stateStr session.state
    user := session.user
    homeServer := session.homeServer
    createdAt := nowEpoch - asI64 (Instant.elapsedSecs session.createdAt clk.now)
    suspendedAt := session.suspendedAt.map fun t => nowEpoch - asI64 (Instant.elapsedSecs t clk.now)
    suspendTimeoutSecs := asI64 session.suspendTimeout.asSecs }

/-- Decode one row; a row whose state is unknown is skipped. -/
def loadRow (id : SessionId) (row : SessionRecord) : Option PersistedSession :=
  (parseState row.state).map fun state =>
    { id := id
      token := row.token
      state := state
      user := row.user
      homeServer := row.homeServer
      createdAtEpoch := row.createdAt
      -- a negative column reads as zero seconds
      suspendTimeout := Duration.fromSecs (asU64 (max row.suspendTimeoutSecs 0)) }

theorem loadRow_id {id : SessionId} {row : SessionRecord} {p : PersistedSession}
    (h : loadRow id row = some p) : p.id = id := by
  obtain ⟨state, -, rfl⟩ := Option.map_eq_some_iff.mp h
  rfl

theorem loadRow_token {id : SessionId} {row : SessionRecord} {p : PersistedSession}
    (h : loadRow id row = some p) : p.token = row.token := by
  obtain ⟨state, -, rfl⟩ := Option.map_eq_some_iff.mp h
  rfl

theorem loadRow_state {id : SessionId} {row : SessionRecord} {p : PersistedSession}
    (h : loadRow id row = some p) : parseState row.state = some p.state := by
  obtain ⟨state, hstate, rfl⟩ := Option.map_eq_some_iff.mp h
  exact hstate

@[simp] theorem recordOf_token (s : Session) (clk : Clock) :
    (recordOf s clk).token = s.token.str := rfl

@[simp] theorem recordOf_state (s : Session) (clk : Clock) :
    (recordOf s clk).state = stateStr s.state := rfl

/-- **Row round trip**: the row written for a session decodes to its id, token, state, user, home
server and to a timeout read back from the cast seconds. -/
theorem loadRow_recordOf (s : Session) (clk : Clock) :
    loadRow s.id (recordOf s clk) = some
      { id := s.id
        token := s.token.str
        state := s.state
        user := s.user
        homeServer := s.homeServer
        createdAtEpoch := (recordOf s clk).createdAt
        suspendTimeout :=
          Duration.fromSecs (asU64 (max (asI64 s.suspendTimeout.asSecs) 0)) } := by
  simp [loadRow, recordOf]

/-- Timeouts below `2^63` seconds survive the casts of the timeout column. -/
theorem asU64_max_asI64 {secs : ℕ} (h : secs < 2 ^ 63) : asU64 (max (asI64 secs) 0) = secs := by
  rw [asI64_of_lt h, max_eq_left (by omega), asU64_natCast (by omega)]

/-! ### Writes -/

/-- The writes queued to the writer task. -/
inductive StoreOp where
  | save (id : SessionId) (record : SessionRecord)
  | delete (id : SessionId)
deriving DecidableEq

/-- What the writer task does to the table: upsert or delete by primary key. -/
def applyOp (table : SessionTable) : StoreOp → SessionTable
  | .save id record => table.insert id record
  | .delete id => table.remove id

/-- SQLite-backed session store. -/
structure SqliteStore where
  /-- The rows in the database file. -/
  db : SessionTable
  /-- Writes sent to the writer task and not yet applied. -/
  queue : List StoreOp
deriving DecidableEq

namespace SqliteStore

/-- A store opened on a database file: nothing is queued yet. -/
def openFile (db : SessionTable) : SqliteStore := ⟨db, []⟩

def send (s : SqliteStore) (op : StoreOp) : SqliteStore := { s with queue := s.queue ++ [op] }

/-- Block until the queued writes have been applied. -/
def flush (s : SqliteStore) : SqliteStore := ⟨s.queue.foldl applyOp s.db, []⟩

/-- The rows a crash leaves in the database file when the writer task got through the first `k`
queued writes. -/
def crashAfter (s : SqliteStore) (k : ℕ) : SessionTable := (s.queue.take k).foldl applyOp s.db

end SqliteStore

/-- The durable backing store of a registry: none, or a SQLite database. -/
inductive SessionStore where
  | null
  | sqlite (s : SqliteStore)
deriving DecidableEq

namespace SessionStore

/-- The rows of the store with every queued write applied. -/
def rows : SessionStore → SessionTable
  | null => ∅
  | sqlite s => s.flush.db

/-- Persist the session's current state (insert or update). -/
def persist : SessionStore → Clock → Session → SessionStore
  | null, _, _ => null
  | sqlite s, clk, session => sqlite (s.send (.save session.id (recordOf session clk)))

/-- Remove a session from the store. -/
def remove : SessionStore → SessionId → SessionStore
  | null, _ => null
  | sqlite s, id => sqlite (s.send (.delete id))

/-- Load all persisted sessions.  The query carries no `ORDER BY`: the rows come in any order. -/
def loadAll (store : SessionStore) (find : Enumeration (SessionId × SessionRecord)) :
    List PersistedSession × SessionStore :=
  match store with
  | null => ([], null)
  | sqlite s =>
    -- the writer task catches up first
    let s := s.flush
    ((find.order s.db.toList).filterMap fun e => loadRow e.1 e.2, sqlite s)

/-- The store a later server process opens on the same file, every queued write applied. -/
def reopen : SessionStore → SessionStore
  | null => null
  | sqlite s => sqlite (.openFile s.flush.db)

/-- The session stored under an id: its row, decoded. -/
def load (store : SessionStore) (id : SessionId) : Option PersistedSession :=
  (store.rows.get id).bind (loadRow id)

/-- Whether the store keeps anything. -/
def isSqlite : SessionStore → Bool
  | null => false
  | sqlite _ => true

/-! ### What an operation does to the rows -/

@[simp] theorem rows_null : rows null = ∅ := rfl

@[simp] theorem rows_openFile (db : SessionTable) : rows (sqlite (.openFile db)) = db := rfl

/-- Only a database has rows. -/
theorem isSqlite_of_rows_get {store : SessionStore} {i : SessionId} {row : SessionRecord}
    (h : store.rows.get i = some row) : store.isSqlite = true := by
  cases store with
  | null => simp at h
  | sqlite s => rfl

theorem rows_send (s : SqliteStore) (op : StoreOp) :
    rows (sqlite (s.send op)) = applyOp (rows (sqlite s)) op := by
  simp [rows, SqliteStore.flush, SqliteStore.send]

theorem rows_persist_get (store : SessionStore) (clk : Clock) (session : Session) (i : SessionId) :
    (store.persist clk session).rows.get i =
      if i = session.id ∧ store.isSqlite = true then some (recordOf session clk)
      else store.rows.get i := by
  cases store with
  | null => simp [persist, isSqlite]
  | sqlite s => simp [persist, isSqlite, rows_send, applyOp, HashMap.get_insert]

theorem rows_remove_get (store : SessionStore) (id i : SessionId) :
    (store.remove id).rows.get i = if i = id then none else store.rows.get i := by
  cases store with
  | null => simp [remove]
  | sqlite s => simp [remove, rows_send, applyOp, HashMap.get_remove]

@[simp] theorem rows_loadAll (store : SessionStore)
    (find : Enumeration (SessionId × SessionRecord)) :
    (store.loadAll find).2.rows = store.rows := by
  cases store with
  | null => rfl
  | sqlite s => simp [loadAll, rows, SqliteStore.flush]

@[simp] theorem load_loadAll (store : SessionStore)
    (find : Enumeration (SessionId × SessionRecord)) (id : SessionId) :
    (store.loadAll find).2.load id = store.load id := by
  rw [load, rows_loadAll, load]

@[simp] theorem rows_reopen (store : SessionStore) : store.reopen.rows = store.rows := by
  cases store <;> rfl

@[simp] theorem load_reopen (store : SessionStore) (id : SessionId) :
    store.reopen.load id = store.load id := by
  rw [load, rows_reopen, load]

@[simp] theorem isSqlite_reopen (store : SessionStore) :
    store.reopen.isSqlite = store.isSqlite := by
  cases store <;> rfl

@[simp] theorem isSqlite_persist (store : SessionStore) (clk : Clock) (session : Session) :
    (store.persist clk session).isSqlite = store.isSqlite := by
  cases store <;> rfl

@[simp] theorem isSqlite_remove (store : SessionStore) (id : SessionId) :
    (store.remove id).isSqlite = store.isSqlite := by
  cases store <;> rfl

@[simp] theorem isSqlite_loadAll (store : SessionStore)
    (find : Enumeration (SessionId × SessionRecord)) :
    (store.loadAll find).2.isSqlite = store.isSqlite := by
  cases store <;> rfl

theorem load_eq_some {store : SessionStore} {id : SessionId} {p : PersistedSession} :
    store.load id = some p ↔ ∃ row, store.rows.get id = some row ∧ loadRow id row = some p :=
  Option.bind_eq_some_iff

/-- A row that names a state decodes. -/
theorem exists_load {store : SessionStore} {id : SessionId} {row : SessionRecord}
    {st : SessionState} (hrow : store.rows.get id = some row)
    (hst : parseState row.state = some st) :
    ∃ p, store.load id = some p := by
  rw [load, hrow, Option.bind_some, loadRow, hst, Option.map_some]
  exact ⟨_, rfl⟩

theorem load_id {store : SessionStore} {id : SessionId} {p : PersistedSession}
    (h : store.load id = some p) : p.id = id := by
  obtain ⟨row, -, hrow⟩ := load_eq_some.mp h
  exact loadRow_id hrow

/-- The loaded rows are the decoded rows of the table, in whatever order they come. -/
theorem mem_loadAll {store : SessionStore} {find : Enumeration (SessionId × SessionRecord)}
    {p : PersistedSession} : p ∈ (store.loadAll find).1 ↔ store.load p.id = some p := by
  rw [load_eq_some]
  cases store with
  | null => simp [loadAll]
  | sqlite s =>
    simp only [loadAll, List.mem_filterMap, Enumeration.mem_order, Prod.exists, HashMap.mem_toList]
    constructor
    · rintro ⟨id, row, hrow, hp⟩
      rw [loadRow_id hp]
      exact ⟨row, hrow, hp⟩
    · rintro ⟨row, hrow, hp⟩
      exact ⟨p.id, row, hrow, hp⟩

private theorem ids_filterMap_sublist (l : List (SessionId × SessionRecord)) :
    ((l.filterMap fun e => loadRow e.1 e.2).map (·.id)).Sublist (l.map Prod.fst) := by
  induction l with
  | nil => exact List.Sublist.refl _
  | cons e l ih =>
    cases he : loadRow e.1 e.2 with
    | none => simpa [List.filterMap_cons, he] using ih.cons _
    | some p => simpa [List.filterMap_cons, he, loadRow_id he] using ih.cons_cons e.1

/-- No id is loaded twice. -/
theorem nodup_ids_loadAll (store : SessionStore)
    (find : Enumeration (SessionId × SessionRecord)) :
    ((store.loadAll find).1.map (·.id)).Nodup := by
  cases store with
  | null => exact List.nodup_nil
  | sqlite s =>
    refine List.Nodup.sublist (ids_filterMap_sublist _) ?_
    rw [((find.perm _).map Prod.fst).nodup_iff]
    exact HashMap.nodup_keys_toList _

end SessionStore

end WayRay
