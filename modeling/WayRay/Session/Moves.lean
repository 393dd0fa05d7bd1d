import WayRay.Session.Registry
import Mathlib.Logic.Relation

/-!
# What a registry operation can do

Every operation of the registry is a sequence of `Move`s, each of which changes one session, one row
and one index entry at most (`step_moves`).  An invariant of the registry is therefore proved by one
case per move and holds after every history by `run_invariant`; no invariant looks into an
operation.

`Move G` lets a session be created for a token only where the guard `G` allows it, so that the same
rule serves histories with and without a condition on `create_session`.
-/

namespace WayRay

open Relation

/-- Change a session without touching what the index and the lifecycle depend on. -/
structure IsSetter (f : Session → Session) : Prop where
  id_eq : ∀ s, (f s).id = s.id
  token_eq : ∀ s, (f s).token = s.token
  state_eq : ∀ s, (f s).state = s.state
  createdAt_eq : ∀ s, (f s).createdAt = s.createdAt
  suspendedAt_eq : ∀ s, (f s).suspendedAt = s.suspendedAt

namespace SessionRegistry

@[simp] theorem restoredSession_id (clk : Clock) (row : PersistedSession) :
    (restoredSession clk row).id = row.id := rfl
@[simp] theorem restoredSession_token (clk : Clock) (row : PersistedSession) :
    (restoredSession clk row).token = ⟨row.token⟩ := rfl
@[simp] theorem restoredSession_state (clk : Clock) (row : PersistedSession) :
    (restoredSession clk row).state = .suspended := rfl
@[simp] theorem restoredSession_suspendedAt (clk : Clock) (row : PersistedSession) :
    (restoredSession clk row).suspendedAt = some clk.now := rfl

/-- The atomic changes an operation is made of. -/
inductive Move (G : SessionRegistry → SessionToken → Prop) (clk : Clock) :
    SessionRegistry → SessionRegistry → Prop
  /-- A fresh session takes the next id and its token. -/
  | create {r : SessionRegistry} {token : SessionToken} (hG : G r token) :
      Move G clk r (r.createSession clk token).2
  /-- A session changes its state without being destroyed, and is persisted. -/
  | advance {r : SessionRegistry} {id : SessionId} {s : Session} {next : SessionState}
      (hs : r.sessions.get id = some s) (hc : s.state.canTransitionTo next = true)
      (hn : next ≠ .destroyed) :
      Move G clk r { r with
        sessions := r.sessions.insert id (s.moved clk.now next)
        store := r.store.persist clk (s.moved clk.now next) }
  /-- A session is destroyed: its token leaves the index, its row the store. -/
  | destroy {r : SessionRegistry} {id : SessionId} {s : Session}
      (hs : r.sessions.get id = some s) (hd : s.state ≠ .destroyed) :
      Move G clk r { r with
        sessions := r.sessions.insert id (s.moved clk.now .destroyed)
        tokenIndex := r.tokenIndex.remove s.token
        store := r.store.remove id }
  /-- A setter changes a session and persists it, whatever its state. -/
  | update {r : SessionRegistry} {id : SessionId} {s : Session} {f : Session → Session}
      (hs : r.sessions.get id = some s) (hf : IsSetter f) :
      Move G clk r { r with
        sessions := r.sessions.insert id (f s)
        store := r.store.persist clk (f s) }
  /-- The remote notes change. -/
  | remote {r : SessionRegistry} (m : HashMap SessionToken RemoteEntry) :
      Move G clk r { r with remoteSessions := m }
  /-- Destroyed sessions are forgotten. -/
  | purge {r : SessionRegistry} : Move G clk r r.purgeDestroyed
  /-- Queued writes reach the database file. -/
  | flush {r : SessionRegistry} (find : Enumeration (SessionId × SessionRecord)) :
      Move G clk r { r with store := (r.store.loadAll find).2 }
  /-- A live row is restored as a suspended session. -/
  | restore {r : SessionRegistry} {row : PersistedSession} {rec : SessionRecord}
      (hrec : r.store.rows.get row.id = some rec) (hrow : loadRow row.id rec = some row)
      (hlive : row.state.resumable = true) :
      Move G clk r { r with
        nextId := max r.nextId (row.id.raw + 1)
        store := r.store.persist clk (restoredSession clk row)
        tokenIndex := r.tokenIndex.insert ⟨row.token⟩ row.id
        sessions := r.sessions.insert row.id (restoredSession clk row) }
  /-- Any other row is deleted. -/
  | drop {r : SessionRegistry} {row : PersistedSession} {rec : SessionRecord}
      (hrec : r.store.rows.get row.id = some rec) (hrow : loadRow row.id rec = some row)
      (hlive : row.state.resumable = false) :
      Move G clk r { r with
        nextId := max r.nextId (row.id.raw + 1)
        store := r.store.remove row.id }

variable {G : SessionRegistry → SessionToken → Prop} {clk : Clock}

/-- A weaker guard allows the same moves. -/
theorem Move.mono {G' : SessionRegistry → SessionToken → Prop}
    (hG : ∀ r token, G r token → G' r token)
    {r r' : SessionRegistry} (h : Move G clk r r') : Move G' clk r r' := by
  cases h with
  | create h => exact .create (hG _ _ h)
  | advance hs hc hn => exact .advance hs hc hn
  | destroy hs hd => exact .destroy hs hd
  | update hs hf => exact .update hs hf
  | remote m => exact .remote m
  | purge => exact .purge
  | flush find => exact .flush find
  | restore hrec hrow hlive => exact .restore hrec hrow hlive
  | drop hrec hrow hlive => exact .drop hrec hrow hlive

/-! ### Transitions and setters -/

/-- A transition that is accepted, written out. -/
theorem transition_of_can {r : SessionRegistry} {id : SessionId} {s : Session}
    {next : SessionState} (hs : r.sessions.get id = some s)
    (hc : s.state.canTransitionTo next = true) :
    r.transition clk id next = (.ok (),
      if next = .destroyed then
        { r with
          sessions := r.sessions.insert id (s.moved clk.now next)
          tokenIndex := r.tokenIndex.remove s.token
          store := r.store.remove id }
      else
        { r with
          sessions := r.sessions.insert id (s.moved clk.now next)
          store := r.store.persist clk (s.moved clk.now next) }) := by
  unfold transition
  simp only [hs, Session.transition_ok hc, Session.moved_token]
  by_cases hn : next = .destroyed
  · rw [if_pos hn, if_pos hn]
  · rw [if_neg hn, if_neg hn]

theorem sessions_transition_of_can {r : SessionRegistry} {id : SessionId} {s : Session}
    {next : SessionState} (hs : r.sessions.get id = some s)
    (hc : s.state.canTransitionTo next = true) :
    (r.transition clk id next).2.sessions = r.sessions.insert id (s.moved clk.now next) := by
  rw [transition_of_can hs hc]
  split_ifs <;> rfl

/-- A transition is refused and changes nothing, or it is accepted. -/
theorem transition_cases (r : SessionRegistry) (clk : Clock) (id : SessionId)
    (next : SessionState) :
    (∃ e, r.transition clk id next = (.error e, r)) ∨
      ∃ s, r.sessions.get id = some s ∧ s.state.canTransitionTo next = true := by
  cases hs : r.sessions.get id with
  | none => exact .inl ⟨⟨id, .destroyed, next⟩, by simp only [transition, hs]⟩
  | some s =>
    cases hc : s.state.canTransitionTo next with
    | false =>
      exact .inl ⟨⟨s.id, s.state, next⟩, by simp only [transition, hs, Session.transition_error hc]⟩
    | true => exact .inr ⟨s, rfl, hc⟩

/-- **A refused transition changes nothing**: an error leaves the registry and the store as they
were. -/
theorem transition_eq_of_error {r : SessionRegistry} {id : SessionId} {next : SessionState}
    {e : SessionTransitionError} (h : (r.transition clk id next).1 = .error e) :
    (r.transition clk id next).2 = r := by
  rcases r.transition_cases clk id next with ⟨e', hsame⟩ | ⟨s, hs, hc⟩
  · rw [hsame]
  · rw [transition_of_can hs hc] at h
    cases h

/-- The fields that no transition touches. -/
theorem transition_frame (r : SessionRegistry) (clk : Clock) (id : SessionId)
    (next : SessionState) :
    (r.transition clk id next).2.nextId = r.nextId ∧
      (r.transition clk id next).2.capacity = r.capacity ∧
      (r.transition clk id next).2.remoteSessions = r.remoteSessions := by
  rcases r.transition_cases clk id next with ⟨e, hsame⟩ | ⟨s, hs, hc⟩
  · rw [hsame]
    exact ⟨rfl, rfl, rfl⟩
  · rw [transition_of_can hs hc]
    split_ifs <;> exact ⟨rfl, rfl, rfl⟩

@[simp] theorem nextId_transition (r : SessionRegistry) (clk : Clock) (id : SessionId)
    (next : SessionState) : (r.transition clk id next).2.nextId = r.nextId :=
  (r.transition_frame clk id next).1

theorem transition_move (r : SessionRegistry) (id : SessionId) (next : SessionState) :
    (r.transition clk id next).2 = r ∨ Move G clk r (r.transition clk id next).2 := by
  rcases r.transition_cases clk id next with ⟨e, hsame⟩ | ⟨s, hs, hc⟩
  · exact .inl (by rw [hsame])
  · right
    rw [transition_of_can hs hc]
    by_cases hn : next = .destroyed
    · subst hn
      rw [if_pos rfl]
      exact .destroy hs ((SessionState.canTransitionTo_destroyed _).mp hc)
    · rw [if_neg hn]
      exact .advance hs hc hn

theorem update_move (r : SessionRegistry) (id : SessionId) {f : Session → Session}
    (hf : IsSetter f) : r.update clk id f = r ∨ Move G clk r (r.update clk id f) := by
  unfold update
  cases hs : r.sessions.get id with
  | none => exact Or.inl rfl
  | some s => exact Or.inr (.update hs hf)

theorem isSetter_user (user : String) : IsSetter fun s => { s with user := some user } :=
  ⟨fun _ => rfl, fun _ => rfl, fun _ => rfl, fun _ => rfl, fun _ => rfl⟩

theorem isSetter_suspendTimeout (timeout : Duration) :
    IsSetter fun s => { s with suspendTimeout := timeout } :=
  ⟨fun _ => rfl, fun _ => rfl, fun _ => rfl, fun _ => rfl, fun _ => rfl⟩

private theorem moves_of_eq_or_move {r r' : SessionRegistry} (h : r' = r ∨ Move G clk r r') :
    ReflTransGen (Move G clk) r r' := by
  rcases h with rfl | h
  · exact .refl
  · exact .single h

/-! ### The loops -/

theorem cleanup_moves (ids : List SessionId) (r : SessionRegistry) :
    ReflTransGen (Move G clk) r (ids.foldl (fun r id => (r.destroy clk id).2) r) := by
  induction ids generalizing r with
  | nil => exact .refl
  | cons id ids ih => exact (moves_of_eq_or_move (transition_move r id .destroyed)).trans (ih _)

/-- Restoring a row touches no other row. -/
theorem rows_restoreRow_of_ne (r : SessionRegistry) (row : PersistedSession) {i : SessionId}
    (h : i ≠ row.id) : (restoreRow clk r row).store.rows.get i = r.store.rows.get i := by
  unfold restoreRow
  cases row.state <;> simp [SessionStore.rows_persist_get, SessionStore.rows_remove_get, h]

private theorem restoreRow_move {r : SessionRegistry} {row : PersistedSession} {rec : SessionRecord}
    (hrec : r.store.rows.get row.id = some rec) (hrow : loadRow row.id rec = some row) :
    Move G clk r (restoreRow clk r row) := by
  cases hstate : row.state <;> simp only [restoreRow, hstate]
  case creating | destroyed => exact .drop hrec hrow (by rw [hstate]; rfl)
  case active | suspended => exact .restore hrec hrow (by rw [hstate]; rfl)

/-- The rows are restored one by one: as their ids differ, each is still in the store, unchanged,
when its turn comes. -/
theorem restore_induction {P : SessionRegistry → Prop} (rows : List PersistedSession)
    {r : SessionRegistry} (hnd : (rows.map (·.id)).Nodup)
    (hrows : ∀ row ∈ rows, r.store.load row.id = some row) (h0 : P r)
    (hstep : ∀ r row, P r → r.store.load row.id = some row → P (restoreRow clk r row)) :
    P (rows.foldl (restoreRow clk) r) := by
  induction rows generalizing r with
  | nil => exact h0
  | cons row rows ih =>
    rw [List.map_cons, List.nodup_cons] at hnd
    have hrow := hrows row List.mem_cons_self
    refine ih hnd.2 ?_ (hstep r row h0 hrow)
    -- the rows that are left have other ids than the one just restored
    intro row' hrow'
    have hne : row'.id ≠ row.id := fun he => hnd.1 (he ▸ List.mem_map_of_mem hrow')
    rw [SessionStore.load, rows_restoreRow_of_ne r row hne]
    exact hrows row' (List.mem_cons_of_mem _ hrow')

theorem restorePersisted_eq (r : SessionRegistry) (clk : Clock)
    (find : Enumeration (SessionId × SessionRecord)) :
    (r.restorePersisted clk find).2 =
      (r.store.loadAll find).1.foldl (restoreRow clk)
        { r with store := (r.store.loadAll find).2 } :=
  rfl

/-- What flushing the queue keeps, and restoring one row keeps, `restorePersisted` keeps. -/
theorem restorePersisted_induction {P : SessionRegistry → Prop} {r : SessionRegistry}
    (find : Enumeration (SessionId × SessionRecord))
    (h0 : P { r with store := (r.store.loadAll find).2 })
    (hstep : ∀ r row, P r → r.store.load row.id = some row → P (restoreRow clk r row)) :
    P (r.restorePersisted clk find).2 := by
  rw [restorePersisted_eq]
  refine restore_induction _ (r.store.nodup_ids_loadAll find) (fun row hrow => ?_) h0 hstep
  exact (SessionStore.load_loadAll _ _ _).trans (SessionStore.mem_loadAll.mp hrow)

theorem restorePersisted_moves (r : SessionRegistry)
    (find : Enumeration (SessionId × SessionRecord)) :
    ReflTransGen (Move G clk) r (r.restorePersisted clk find).2 :=
  restorePersisted_induction find (.single (.flush find)) fun _ _ hr hload => by
    obtain ⟨rec, hrec, hrow⟩ := SessionStore.load_eq_some.mp hload
    exact hr.tail (restoreRow_move hrec hrow)

/-- No move attaches or detaches a store. -/
theorem isSqlite_move {r r' : SessionRegistry} (hm : Move G clk r r') :
    r'.store.isSqlite = r.store.isSqlite := by
  cases hm with
  | create _ => exact SessionStore.isSqlite_persist _ _ _
  | advance _ _ _ | update _ _ | restore _ _ _ => exact SessionStore.isSqlite_persist _ _ _
  | destroy _ _ | drop _ _ _ => exact SessionStore.isSqlite_remove _ _
  | remote _ | purge => rfl
  | flush find => exact SessionStore.isSqlite_loadAll _ find

/-! ### Every operation -/

/-- **Every operation is a sequence of moves.** -/
theorem step_moves (r : SessionRegistry) (op : RegistryOp)
    (hG : ∀ token, op = .createSession token → G r token) :
    ReflTransGen (Move G clk) r (r.step clk op).2 := by
  cases op with
  | createSession token => exact .single (.create (hG token rfl))
  | activate id => exact moves_of_eq_or_move (transition_move r id .active)
  | suspend id => exact moves_of_eq_or_move (transition_move r id .suspended)
  | destroy id => exact moves_of_eq_or_move (transition_move r id .destroyed)
  | transition id next => exact moves_of_eq_or_move (transition_move r id next)
  | setUser id user => exact moves_of_eq_or_move (update_move r id (isSetter_user user))
  | setSuspendTimeout id timeout =>
    exact moves_of_eq_or_move (update_move r id (isSetter_suspendTimeout timeout))
  | noteRemoteSession token serverId => exact .single (.remote _)
  | pruneRemoteSessions => exact .single (.remote _)
  | cleanupExpired => exact cleanup_moves _ r
  | purgeDestroyed => exact .single .purge
  | restorePersisted find => exact restorePersisted_moves r find

/-- What every move keeps, a sequence of moves keeps. -/
theorem moves_invariant {P : SessionRegistry → Prop}
    (hmove : ∀ {r r'}, P r → Move G clk r r' → P r') {r r' : SessionRegistry} (hr : P r)
    (h : ReflTransGen (Move G clk) r r') : P r' := by
  induction h with
  | refl => exact hr
  | tail _ hm ih => exact hmove ih hm

/-- What every move keeps, every operation keeps. -/
theorem step_invariant {P : SessionRegistry → Prop}
    (hmove : ∀ {r r'}, P r → Move (fun _ _ => True) clk r r' → P r') {r : SessionRegistry}
    (hr : P r) (op : RegistryOp) : P (r.step clk op).2 :=
  moves_invariant hmove hr (step_moves r op fun _ _ => trivial)

/-- **Invariant rule**: what holds initially and is kept by every move holds after every history. -/
theorem run_invariant {P : SessionRegistry → Prop}
    (hmove : ∀ {clk r r'}, P r → Move (fun _ _ => True) clk r r' → P r') {r : SessionRegistry}
    (hr : P r) (history : List (Clock × RegistryOp)) : P (r.run history) :=
  run_induction hr (fun _ _ op h => step_invariant hmove h op) history

end SessionRegistry

end WayRay
