import WayRay.Collections.GuardedRun
import WayRay.Session.Mirror

/-!
# Restarts

`restart` is what a new server process makes of the database of the one before: a fresh registry
that restores the reopened store.  A `LifeEvent` is an operation on the running registry or a
restart, so that `life` is a registry over the whole life of one database.

`restart_refines` is the refinement over such lives in which a session is created only for a vacant
token: the sessions restored are exactly those that were `Active` or `Suspended`, under their ids
and tokens, and restoring the same store once more changes only the two clocks of each session, the
suspend clock and the reconstructed creation time.  `restore_again_moves_createdAt` shows that the
creation time does change.
-/

namespace WayRay

namespace SessionRegistry

/-- A new server process on the database of the old one, all of whose writes have been applied. -/
def restart (r : SessionRegistry) (clk : Clock) (localServerId : String) (capacity : ℕ)
    (find : Enumeration (SessionId × SessionRecord)) : SessionRegistry :=
  (((withCluster localServerId capacity).withStore r.store.reopen).restorePersisted clk find).2

/-- A registry on an empty database. -/
def onEmptyDatabase (localServerId : String) (capacity : ℕ) : SessionRegistry :=
  (withCluster localServerId capacity).withStore (.sqlite (.openFile ∅))

end SessionRegistry

/-- What happens to a registry over the life of its database. -/
inductive LifeEvent where
  | op (clk : Clock) (op : RegistryOp)
  | restart (clk : Clock) (localServerId : String) (capacity : ℕ)
      (find : Enumeration (SessionId × SessionRecord))

namespace LifeEvent

def apply (r : SessionRegistry) : LifeEvent → SessionRegistry
  | op clk o => (r.step clk o).2
  | restart clk localServerId capacity find => r.restart clk localServerId capacity find

/-- A session is created only for a vacant token. -/
def Guarded (r : SessionRegistry) : LifeEvent → Prop
  | op _ (.createSession token) => r.Vacant token
  | _ => True

end LifeEvent

namespace SessionRegistry

/-- The registry after a list of events. -/
def life (r : SessionRegistry) (events : List LifeEvent) : SessionRegistry :=
  events.foldl LifeEvent.apply r

theorem life_append (r : SessionRegistry) (events events' : List LifeEvent) :
    r.life (events ++ events') = (r.life events).life events' :=
  List.foldl_append

/-- Every session of a life is created for a token that is vacant then. -/
def CreatesVacant (r : SessionRegistry) (events : List LifeEvent) : Prop :=
  GuardedRun.Along LifeEvent.apply (fun r e => e.Guarded r) r events

variable {r : SessionRegistry}

/-! ### The mirror survives -/

@[simp] theorem isSqlite_step (clk : Clock) (op : RegistryOp) :
    (r.step clk op).2.store.isSqlite = r.store.isSqlite :=
  step_invariant (P := fun r' => r'.store.isSqlite = r.store.isSqlite)
    (fun h hm => (isSqlite_move hm).trans h) rfl op

theorem isSqlite_run (history : List (Clock × RegistryOp)) :
    (r.run history).store.isSqlite = r.store.isSqlite :=
  run_induction (P := fun r' => r'.store.isSqlite = r.store.isSqlite) rfl
    (fun _ clk op h => (isSqlite_step clk op).trans h) history

@[simp] theorem isSqlite_restart (clk : Clock) (localServerId : String) (capacity : ℕ)
    (find : Enumeration (SessionId × SessionRecord)) :
    (r.restart clk localServerId capacity find).store.isSqlite = r.store.isSqlite :=
  (isSqlite_restorePersisted clk find).trans (SessionStore.isSqlite_reopen _)

theorem isSqlite_apply (e : LifeEvent) : (e.apply r).store.isSqlite = r.store.isSqlite := by
  cases e with
  | op clk o => exact isSqlite_step clk o
  | restart clk localServerId capacity find =>
    exact isSqlite_restart clk localServerId capacity find

theorem isSqlite_life (events : List LifeEvent) :
    (r.life events).store.isSqlite = r.store.isSqlite :=
  List.foldlRecOn (motive := fun r' : SessionRegistry => r'.store.isSqlite = r.store.isSqlite)
    events _ rfl fun _ hr e _ => (isSqlite_apply e).trans hr

theorem liveTokensDistinct_reopen {store : SessionStore} (h : store.LiveTokensDistinct) :
    store.reopen.LiveTokensDistinct := by
  simpa only [SessionStore.LiveTokensDistinct, SessionStore.liveRow_reopen] using h

theorem mirrored_restart (h : Mirrored r) (clk : Clock) (localServerId : String) (capacity : ℕ)
    (find : Enumeration (SessionId × SessionRecord)) :
    Mirrored (r.restart clk localServerId capacity find) :=
  mirrored_boot localServerId capacity (liveTokensDistinct_reopen h.liveTokensDistinct) clk find

theorem mirrored_step (h : Mirrored r) (clk : Clock) (op : RegistryOp)
    (hvacant : ∀ token, op = .createSession token → r.Vacant token) :
    Mirrored (r.step clk op).2 :=
  moves_invariant mirrored_move h (step_moves r op hvacant)

/-- Memory and store agree throughout a life that creates sessions for vacant tokens only. -/
theorem mirrored_life {events : List LifeEvent} (h : Mirrored r)
    (hvacant : CreatesVacant r events) :
    Mirrored (r.life events) := by
  refine hvacant.invariant (fun r e h hguard => ?_) h
  cases e with
  | op clk o =>
    refine mirrored_step h clk o fun token ho => ?_
    subst ho
    exact hguard
  | restart clk localServerId capacity find =>
    exact mirrored_restart h clk localServerId capacity find

theorem mirrored_onEmptyDatabase (localServerId : String) (capacity : ℕ) :
    Mirrored (onEmptyDatabase localServerId capacity) where
  toConsistent := consistent_withStore localServerId capacity _
  resolves h := by simp [onEmptyDatabase, withStore, withCluster, new] at h
  row_of_live _ h := by simp [onEmptyDatabase, withStore, withCluster, new] at h
  live_of_row h := by simp [onEmptyDatabase, withStore] at h

/-! ### What a restart yields -/

/-- The row of a live session decodes to its identity; the timeout loses its sub-second part and,
from `2 ^ 63` seconds on, its value. -/
theorem Mirrored.liveRow_of_live (h : Mirrored r) (hsql : r.store.isSqlite = true) {i : SessionId}
    {s : Session} (hs : r.sessions.get i = some s) (hlive : s.state.resumable = true) :
    ∃ p, r.store.liveRow i = some p ∧ p.id = s.id ∧ p.token = s.token.str ∧ p.user = s.user ∧
      p.homeServer = s.homeServer ∧
      p.suspendTimeout =
        Duration.fromSecs (asU64 (max (asI64 s.suspendTimeout.asSecs) 0)) := by
  obtain ⟨clk, hrow⟩ := h.row_of_live hsql hs hlive
  have hload : r.store.load i = loadRow s.id (recordOf s clk) := by
    rw [SessionStore.load, hrow, Option.bind_some, h.own_id hs]
  rw [loadRow_recordOf] at hload
  exact ⟨_, SessionStore.liveRow_eq_some.mpr ⟨hload, hlive⟩, rfl, rfl, rfl, rfl, rfl⟩

/-- A live row belongs to a live session. -/
theorem Mirrored.live_of_liveRow (h : Mirrored r) {i : SessionId} {p : PersistedSession}
    (hp : r.store.liveRow i = some p) :
    ∃ s, r.sessions.get i = some s ∧ s.state.resumable = true := by
  obtain ⟨s, hs, hlive, -⟩ := h.session_of_liveRow hp
  exact ⟨s, hs, hlive⟩

/-- What a registry `R` restored from the store of `r` has in common with `r`. -/
structure RestoredFrom (r R : SessionRegistry) : Prop where
  /-- Exactly the `Active` and `Suspended` sessions are restored. -/
  sessions : ∀ i, (∃ s', R.sessions.get i = some s') ↔
    ∃ s, r.sessions.get i = some s ∧ s.state.resumable = true
  /-- They are suspended and keep id, token, user, home server and timeout in whole seconds. -/
  identity : ∀ {i s s'}, r.sessions.get i = some s → R.sessions.get i = some s' →
    s'.state = .suspended ∧ s'.id = s.id ∧ s'.token = s.token ∧ s'.user = s.user ∧
      s'.homeServer = s.homeServer ∧ (s.suspendTimeout.asSecs < 2 ^ 63 →
        s'.suspendTimeout = Duration.fromSecs s.suspendTimeout.asSecs)
  /-- Their tokens lead to the same ids. -/
  lookup : ∀ {i s}, r.sessions.get i = some s → s.state.resumable = true →
    r.tokenIndex.get s.token = some i ∧ R.tokenIndex.get s.token = some i

section Restart

variable (clk : Clock) (localServerId : String) (capacity : ℕ)
  (find : Enumeration (SessionId × SessionRecord))

theorem sessions_restart (i : SessionId) :
    (r.restart clk localServerId capacity find).sessions.get i =
      (r.store.liveRow i).map (restoredSession clk) := by
  rw [restart, sessions_restoreFresh, SessionStore.liveRow_reopen]

theorem rows_restart (hsql : r.store.isSqlite = true) (i : SessionId) :
    (r.restart clk localServerId capacity find).store.rows.get i =
      if r.store.load i = none then r.store.rows.get i
      else (r.store.liveRow i).map fun p => recordOf (restoredSession clk p) clk := by
  rw [restart, rows_restorePersisted clk find ((SessionStore.isSqlite_reopen _).trans hsql),
    withStore, SessionStore.load_reopen, SessionStore.rows_reopen, SessionStore.liveRow_reopen]

/-- A restart finds the id counter just above the rows that decode. -/
theorem nextId_restart :
    1 ≤ (r.restart clk localServerId capacity find).nextId ∧
    (∀ i p, r.store.load i = some p →
      i.raw < (r.restart clk localServerId capacity find).nextId) ∧
    ((r.restart clk localServerId capacity find).nextId = 1 ∨
      ∃ i p, r.store.load i = some p ∧
        (r.restart clk localServerId capacity find).nextId = i.raw + 1) := by
  have h := nextId_restorePersisted clk find
    (r := (withCluster localServerId capacity).withStore r.store.reopen)
  simp only [withStore, SessionStore.load_reopen] at h
  exact h

theorem restoredFrom_restart (h : Mirrored r) (hsql : r.store.isSqlite = true) :
    RestoredFrom r (r.restart clk localServerId capacity find) where
  sessions i := by
    simp only [sessions_restart, Option.map_eq_some_iff]
    constructor
    · rintro ⟨_, p, hp, -⟩
      exact h.live_of_liveRow hp
    · rintro ⟨s, hs, hlive⟩
      obtain ⟨p, hp, -⟩ := h.liveRow_of_live hsql hs hlive
      exact ⟨_, p, hp, rfl⟩
  identity {i s s'} hs hs' := by
    rw [sessions_restart] at hs'
    obtain ⟨p, hp, rfl⟩ := Option.map_eq_some_iff.mp hs'
    obtain ⟨s₁, hs₁, hlive⟩ := h.live_of_liveRow hp
    obtain rfl : s = s₁ := Option.some.inj (hs.symm.trans hs₁)
    obtain ⟨p', hp', hid, htok, huser, hhome, htimeout⟩ := h.liveRow_of_live hsql hs hlive
    obtain rfl : p = p' := Option.some.inj (hp.symm.trans hp')
    refine ⟨rfl, hid, congrArg SessionToken.mk htok, huser, hhome, fun hsecs => ?_⟩
    rw [asU64_max_asI64 hsecs] at htimeout
    exact htimeout
  lookup {i s} hs hlive := by
    refine ⟨h.resolves hs (SessionState.ne_destroyed_of_resumable hlive), ?_⟩
    obtain ⟨p, hp, -, htok, -⟩ := h.liveRow_of_live hsql hs hlive
    have hR : (r.restart clk localServerId capacity find).sessions.get i =
        some (restoredSession clk p) := by
      rw [sessions_restart, hp, Option.map_some]
    have hres := (mirrored_restart h clk localServerId capacity find).resolves hR (by simp)
    rwa [restoredSession_token, htok] at hres

end Restart

end SessionRegistry

/-! ### Restoring once more -/

/-- A session without its two clocks. -/
def Session.timeless (s : Session) : Session := { s with createdAt := 0, suspendedAt := none }

/-- A row without its two clocks. -/
def SessionRecord.timeless (row : SessionRecord) : SessionRecord :=
  { row with createdAt := 0, suspendedAt := none }

namespace SessionRegistry

/-- Two registries that differ in the clocks of their sessions and rows only. -/
structure AgreesUpToClocks (R R' : SessionRegistry) : Prop where
  sessions : ∀ i, (R'.sessions.get i).map Session.timeless = (R.sessions.get i).map Session.timeless
  tokenIndex : ∀ t, R'.tokenIndex.get t = R.tokenIndex.get t
  nextId : R'.nextId = R.nextId
  localServerId : R'.localServerId = R.localServerId
  remoteSessions : R'.remoteSessions = R.remoteSessions
  capacity : R'.capacity = R.capacity
  rows : ∀ i, (R'.store.rows.get i).map SessionRecord.timeless =
    (R.store.rows.get i).map SessionRecord.timeless

/-- A registry as a restart leaves it: its store holds a row for every session, as restored, and
every row that decodes is one of them. -/
structure Settled (R : SessionRegistry) : Prop extends Mirrored R where
  sqlite : R.store.isSqlite = true
  suspended : ∀ {i s}, R.sessions.get i = some s → s.state = .suspended
  timeout : ∀ {i s}, R.sessions.get i = some s →
    ∃ secs < 2 ^ 63, s.suspendTimeout = Duration.fromSecs secs
  load_live : ∀ {i p}, R.store.load i = some p → R.store.liveRow i = some p

private theorem settled_restart (h : Mirrored r) (hsql : r.store.isSqlite = true) (clk : Clock)
    (localServerId : String) (capacity : ℕ) (find : Enumeration (SessionId × SessionRecord)) :
    Settled (r.restart clk localServerId capacity find) := by
  have hsession := sessions_restart (r := r) clk localServerId capacity find
  refine
    { mirrored_restart h clk localServerId capacity find with
      sqlite := (isSqlite_restart clk localServerId capacity find).trans hsql
      suspended := ?_
      timeout := ?_
      load_live := ?_ }
  · intro i s hs
    rw [hsession] at hs
    obtain ⟨p, -, rfl⟩ := Option.map_eq_some_iff.mp hs
    rfl
  · intro i s' hs'
    rw [hsession] at hs'
    obtain ⟨p, hp, rfl⟩ := Option.map_eq_some_iff.mp hs'
    obtain ⟨s, hs, hlive⟩ := h.live_of_liveRow hp
    obtain ⟨p', hp', -, -, -, -, htimeout⟩ := h.liveRow_of_live hsql hs hlive
    obtain rfl : p = p' := Option.some.inj (hp.symm.trans hp')
    refine ⟨_, ?_, htimeout⟩
    have hlt := asI64_lt s.suspendTimeout.asSecs
    unfold asU64
    omega
  · intro i p hp
    refine SessionStore.liveRow_eq_some.mpr ⟨hp, ?_⟩
    obtain ⟨row, hrow, hdec⟩ := SessionStore.load_eq_some.mp hp
    have hrow' := hrow
    rw [rows_restart clk localServerId capacity find hsql] at hrow'
    split_ifs at hrow' with hload
    · -- a row that did not decode before the restart does not decode after it
      rw [SessionStore.load, hrow', Option.bind_some, hdec] at hload
      exact absurd hload (Option.some_ne_none p)
    · obtain ⟨q, -, rfl⟩ := Option.map_eq_some_iff.mp hrow'
      have hst := loadRow_state hdec
      rw [recordOf_state, parseState_stateStr, Option.some.injEq] at hst
      rw [← hst]
      rfl

/-- The row of a session of a settled registry restores to the session, clocks apart. -/
private theorem Settled.timeless_restored {R : SessionRegistry} (h : Settled R) {i : SessionId}
    {s : Session} (hs : R.sessions.get i = some s) (clk : Clock) :
    ∃ p, R.store.liveRow i = some p ∧ (restoredSession clk p).timeless = s.timeless := by
  have hst := h.suspended hs
  have hlive : s.state.resumable = true := by rw [hst]; rfl
  obtain ⟨p, hp, hid, htok, huser, hhome, htimeout⟩ :=
    h.toMirrored.liveRow_of_live h.sqlite hs hlive
  obtain ⟨secs, hsecs, hsecs'⟩ := h.timeout hs
  have hfix : p.suspendTimeout = s.suspendTimeout := by
    rw [htimeout, hsecs', Duration.asSecs_fromSecs (by omega), asU64_max_asI64 hsecs]
  refine ⟨p, hp, ?_⟩
  simp [restoredSession, Session.timeless, hid, htok, huser, hhome, hfix, hst]

private theorem timeless_recordOf {s s' : Session} (clk clk' : Clock)
    (h : s.timeless = s'.timeless) :
    (recordOf s clk).timeless = (recordOf s' clk').timeless := by
  simp only [Session.timeless, Session.mk.injEq] at h
  obtain ⟨-, htok, hst, -, -, htimeout, huser, hhome⟩ := h
  simp [recordOf, SessionRecord.timeless, htok, hst, htimeout, huser, hhome]

/-- Restoring the store of a settled registry changes the clocks of its sessions and nothing
else. -/
private theorem Settled.agrees {R : SessionRegistry} (h : Settled R) (clk : Clock)
    (find : Enumeration (SessionId × SessionRecord)) :
    AgreesUpToClocks R (R.restorePersisted clk find).2 where
  sessions i := by
    rw [sessions_restorePersisted]
    cases hs : R.sessions.get i with
    | none =>
      cases hp : R.store.liveRow i with
      | none => rfl
      | some p =>
        obtain ⟨s, hs', -⟩ := h.toMirrored.live_of_liveRow hp
        rw [hs] at hs'
        exact absurd hs' (by simp)
    | some s =>
      obtain ⟨p, hp, heq⟩ := h.timeless_restored hs clk
      rw [hp, Option.map_some, Option.some_or, Option.map_some, Option.map_some, heq]
  tokenIndex t := by
    obtain ⟨hlive, hother⟩ := tokenIndex_restorePersisted (r := R) clk find
      h.toMirrored.liveTokensDistinct
    by_cases ht : ∃ i p, R.store.liveRow i = some p ∧ (⟨p.token⟩ : SessionToken) = t
    · obtain ⟨i, p, hp, rfl⟩ := ht
      obtain ⟨s, hs, hs'⟩ := h.toMirrored.live_of_liveRow hp
      obtain ⟨q, hq, -, htok, -⟩ := h.toMirrored.liveRow_of_live h.sqlite hs hs'
      obtain rfl : p = q := Option.some.inj (hp.symm.trans hq)
      rw [hlive i p hp, htok]
      exact (h.resolves hs (SessionState.ne_destroyed_of_resumable hs')).symm
    · exact hother t fun i p hp htok => ht ⟨i, p, hp, htok⟩
  nextId := by
    obtain ⟨hle, -, heq⟩ := nextId_restorePersisted (r := R) clk find
    rcases heq with heq | ⟨i, p, hp, heq⟩
    · exact heq
    · obtain ⟨s, hs, -⟩ := h.toMirrored.live_of_liveRow (h.load_live hp)
      have hlt := h.below hs
      omega
  localServerId := localServerId_restorePersisted clk find
  remoteSessions := remoteSessions_restorePersisted clk find
  capacity := capacity_restorePersisted clk find
  rows i := by
    rw [rows_restorePersisted clk find h.sqlite]
    split_ifs with hload
    · rfl
    · obtain ⟨p, hp⟩ := Option.ne_none_iff_exists'.mp hload
      have hlive := h.load_live hp
      obtain ⟨s, hs, hs'⟩ := h.toMirrored.live_of_liveRow hlive
      obtain ⟨clk', hrow⟩ := h.row_of_live h.sqlite hs hs'
      obtain ⟨q, hq, heq⟩ := h.timeless_restored hs clk
      obtain rfl : p = q := Option.some.inj (hlive.symm.trans hq)
      rw [hlive, hrow, Option.map_some, Option.map_some, Option.map_some,
        timeless_recordOf clk clk' heq]

/-- **Restart refinement.**  After every life of a database in which sessions are created for vacant
tokens only, a restart restores exactly the `Active` and `Suspended` sessions, suspended, with their
identities and lookups; restoring the same store once more changes only the clocks of sessions. -/
theorem restart_refines (localServerId : String) (capacity : ℕ) (events : List LifeEvent)
    (hvacant : CreatesVacant (onEmptyDatabase localServerId capacity) events)
    (clk clk' : Clock) (localServerId' : String) (capacity' : ℕ)
    (find find' : Enumeration (SessionId × SessionRecord)) :
    let r := (onEmptyDatabase localServerId capacity).life events
    let R := r.restart clk localServerId' capacity' find
    RestoredFrom r R ∧ AgreesUpToClocks R (R.restorePersisted clk' find').2 := by
  have hmirror := mirrored_life (mirrored_onEmptyDatabase localServerId capacity) hvacant
  have hsql : ((onEmptyDatabase localServerId capacity).life events).store.isSqlite = true :=
    isSqlite_life events
  exact ⟨restoredFrom_restart clk localServerId' capacity' find hmirror hsql,
    (settled_restart hmirror hsql clk localServerId' capacity' find).agrees clk' find'⟩

/-- One session, created and activated at second 100 of the epoch. -/
def oneActive : List LifeEvent :=
  [.op ⟨0, 100⟩ (.createSession ⟨"t"⟩), .op ⟨0, 100⟩ (.activate ⟨1⟩)]

/-- The life of one active session, restarted. -/
theorem restart_refines_oneActive :
    RestoredFrom ((onEmptyDatabase "a" 50).life oneActive)
      (((onEmptyDatabase "a" 50).life oneActive).restart ⟨5000000000, 105⟩ "a" 50 .stored) :=
  (restart_refines "a" 50 oneActive
    ⟨fun i s hs => by simp [onEmptyDatabase, withStore, withCluster, new] at hs, trivial, trivial⟩
    ⟨5000000000, 105⟩ ⟨5500000000, 105⟩ "a" 50 .stored .stored).1

/-- **Restoring again moves the creation time.**  Half a second after a restart the same row is
restored with a creation time half a second later, as the row counts whole seconds. -/
theorem restore_again_moves_createdAt :
    let R := ((onEmptyDatabase "a" 50).life oneActive).restart ⟨5000000000, 105⟩ "a" 50 .stored
    let R' := (R.restorePersisted ⟨5500000000, 105⟩ .stored).2
    (R.sessions.get ⟨1⟩).map (·.createdAt) = some 0 ∧
      (R'.sessions.get ⟨1⟩).map (·.createdAt) = some 500000000 ∧
      ¬ ∀ i, (R'.sessions.get i).map (fun s => { s with suspendedAt := none }) =
        (R.sessions.get i).map fun s => { s with suspendedAt := none } := by
  refine ⟨by decide, by decide, fun h => ?_⟩
  exact absurd (h ⟨1⟩) (by decide)

end SessionRegistry

end WayRay
