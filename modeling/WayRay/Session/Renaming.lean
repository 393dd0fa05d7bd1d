import WayRay.Collections.Renaming
import WayRay.Session.Registry

/-!
# Renaming session tokens

A `SessionRegistry` under an injective renaming of the tokens in it.  No operation of the registry
looks into a token, so each commutes with renaming, and what it answers about a renamed token is
what it answered about the token.
-/

namespace WayRay

variable (ρ : String ↪ String)

/-! ### Tokens and rows -/

/-- A renamed token. -/
def SessionToken.rename (token : SessionToken) : SessionToken := ⟨ρ token.str⟩

/-- Renaming tokens is injective. -/
def SessionToken.renaming : SessionToken ↪ SessionToken where
  toFun := SessionToken.rename ρ
  inj' := by
    rintro ⟨s⟩ ⟨t⟩ h
    exact congrArg SessionToken.mk (ρ.injective (congrArg SessionToken.str h))

def Session.rename (s : Session) : Session := { s with token := s.token.rename ρ }

def SessionRecord.rename (row : SessionRecord) : SessionRecord :=
  { row with token := ρ row.token }

def StoreOp.rename : StoreOp → StoreOp
  | .save id record => .save id (record.rename ρ)
  | .delete id => .delete id

def SessionStore.rename : SessionStore → SessionStore
  | .null => .null
  | .sqlite s =>
    .sqlite ⟨s.db.rename (.refl _) (SessionRecord.rename ρ), s.queue.map (StoreOp.rename ρ)⟩

/-- A registry with its tokens renamed. -/
def SessionRegistry.rename (r : SessionRegistry) : SessionRegistry :=
  { r with
    sessions := r.sessions.rename (.refl _) (Session.rename ρ)
    tokenIndex := r.tokenIndex.rename (SessionToken.renaming ρ) id
    remoteSessions := r.remoteSessions.rename (SessionToken.renaming ρ) id
    store := r.store.rename ρ }

@[simp] theorem Session.rename_id (s : Session) : (s.rename ρ).id = s.id := rfl
@[simp] theorem Session.rename_state (s : Session) : (s.rename ρ).state = s.state := rfl

theorem recordOf_rename (s : Session) (clk : Clock) :
    recordOf (s.rename ρ) clk = (recordOf s clk).rename ρ := by
  simp only [recordOf, Session.rename, SessionRecord.rename, SessionToken.rename]

namespace SessionStore

@[simp] theorem isSqlite_rename (store : SessionStore) :
    (store.rename ρ).isSqlite = store.isSqlite := by
  cases store <;> rfl

theorem persist_rename (store : SessionStore) (clk : Clock) (s : Session) :
    (store.rename ρ).persist clk (s.rename ρ) = (store.persist clk s).rename ρ := by
  cases store with
  | null => rfl
  | sqlite store =>
    simp only [rename, persist, SqliteStore.send, List.map_append, List.map_cons, List.map_nil,
      StoreOp.rename, recordOf_rename, Session.rename_id]

theorem remove_rename (store : SessionStore) (id : SessionId) :
    (store.rename ρ).remove id = (store.remove id).rename ρ := by
  cases store with
  | null => rfl
  | sqlite store =>
    simp only [rename, remove, SqliteStore.send, List.map_append, List.map_cons, List.map_nil,
      StoreOp.rename]

end SessionStore

/-! ### Operations of the registry -/

namespace SessionRegistry

variable (r : SessionRegistry) (clk : Clock) (token : SessionToken) (id : SessionId)

@[simp] theorem sessions_rename_get :
    (r.rename ρ).sessions.get id = (r.sessions.get id).map (Session.rename ρ) :=
  HashMap.get_rename r.sessions id

@[simp] theorem tokenIndex_rename_get :
    (r.rename ρ).tokenIndex.get (token.rename ρ) = r.tokenIndex.get token :=
  (HashMap.get_rename r.tokenIndex token).trans (Option.map_id' ..)

@[simp] theorem remoteSessions_rename_get :
    (r.rename ρ).remoteSessions.get (token.rename ρ) = r.remoteSessions.get token :=
  (HashMap.get_rename r.remoteSessions token).trans (Option.map_id' ..)

@[simp] theorem locate_rename : (r.rename ρ).locate clk (token.rename ρ) = r.locate clk token := by
  simp only [locate, tokenIndex_rename_get, remoteSessions_rename_get]

theorem noteRemoteSession_rename (serverId : String) :
    (r.rename ρ).noteRemoteSession clk (token.rename ρ) serverId =
      (r.noteRemoteSession clk token serverId).rename ρ := by
  simp only [noteRemoteSession, rename, HashMap.rename_insert]
  rfl

@[simp] theorem isResumable_rename :
    (r.rename ρ).isResumable (token.rename ρ) = r.isResumable token := by
  simp only [isResumable, findByToken, tokenIndex_rename_get]
  cases r.tokenIndex.get token with
  | none => rfl
  | some id =>
    simp only [Option.bind_some, sessions_rename_get]
    cases r.sessions.get id with
    | none => rfl
    | some s => rfl

theorem get_rename_state :
    ((r.rename ρ).get id).map (·.state) = (r.get id).map (·.state) := by
  simp only [get, sessions_rename_get, Option.map_map]
  rfl

theorem createSession_rename :
    (r.rename ρ).createSession clk (token.rename ρ) =
      ((r.createSession clk token).1, (r.createSession clk token).2.rename ρ) := by
  have hpersist := SessionStore.persist_rename ρ r.store clk
    (Session.new ⟨r.nextId⟩ token r.localServerId clk.now)
  simp only [createSession, rename, HashMap.rename_insert, HashMap.rename_remove, ← hpersist]
  rfl

/-- A session and its renamed form move alike. -/
theorem transition_rename_session (s : Session) (now : Instant) (next : SessionState) :
    (s.rename ρ).transition now next =
      ((s.transition now next).1, (s.transition now next).2.rename ρ) := by
  cases h : s.state.canTransitionTo next with
  | true =>
    rw [Session.transition_ok (s := s.rename ρ) h, Session.transition_ok h]
    rfl
  | false =>
    rw [Session.transition_error (s := s.rename ρ) h, Session.transition_error h]
    rfl

theorem transition_rename (next : SessionState) :
    (r.rename ρ).transition clk id next =
      ((r.transition clk id next).1, (r.transition clk id next).2.rename ρ) := by
  simp only [transition, sessions_rename_get]
  cases r.sessions.get id with
  | none => rfl
  | some s =>
    simp only [Option.map_some, transition_rename_session]
    obtain ⟨result, s'⟩ := s.transition clk.now next
    cases result with
    | error e => rfl
    | ok _ =>
      dsimp only
      split_ifs
      · simp only [rename, HashMap.rename_insert, HashMap.rename_remove, SessionStore.remove_rename]
        rfl
      · simp only [rename, HashMap.rename_insert, SessionStore.persist_rename]
        rfl

@[simp] theorem countByState_rename (state : SessionState) :
    (r.rename ρ).countByState state = r.countByState state := by
  simp only [countByState, rename, HashMap.values_rename, List.filter_map, List.length_map]
  rfl

@[simp] theorem loadFactor_rename : (r.rename ρ).loadFactor = r.loadFactor := by
  simp only [loadFactor, countByState_rename]
  rfl

theorem resumableTokens_rename :
    (r.rename ρ).resumableTokens = r.resumableTokens.map ρ := by
  simp only [resumableTokens, rename, HashMap.values_rename, List.filter_map, List.map_map]
  rfl

end SessionRegistry

end WayRay
