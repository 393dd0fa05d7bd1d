import WayRay.Headless.Log
import WayRay.Session.Renaming

/-!
# The compositor under a renaming of tokens

The compositor's state, its events and its log records under an injective renaming of session
tokens.  Draining an event commutes with renaming (`drained_rename`), and what the event logs is
what it logged before, with the tokens in it renamed (`drainedLog_rename`).

What the loop observes is renamed where it is a token; a peer that is asked for a renamed token
answers as it did about the token.
-/

namespace WayRay

variable (ρ : String ↪ String)

/-! ### Messages and events -/

def ClientHello.rename (hello : ClientHello) : ClientHello :=
  { hello with token := hello.token.map ρ }

def ControlMessage.rename : ControlMessage → ControlMessage
  | .clientHello hello => .clientHello (hello.rename ρ)
  | .serverHello hello => .serverHello { hello with token := ρ hello.token }
  | .sessionLookupRequest token auth => .sessionLookupRequest (ρ token) auth
  | other => other

def NetToCompositor.rename : NetToCompositor → NetToCompositor
  | .clientConnected hello remoteAddr => .clientConnected (hello.rename ρ) remoteAddr
  | .control msg => .control (msg.rename ρ)
  | other => other

def ConnectDecision.rename : ConnectDecision → ConnectDecision
  | .bind binding => .bind { binding with token := ρ binding.token }
  | .redirect serverId addr => .redirect serverId addr

def Surroundings.rename (env : Surroundings) : Surroundings :=
  { env with randomToken := ρ env.randomToken }

def DrainEvent.rename : DrainEvent → DrainEvent
  | .received env noise event => .received (env.rename ρ) noise (event.rename ρ)
  | .disconnected => .disconnected

def LauncherEvent.rename : LauncherEvent → LauncherEvent
  | .sessionCreated token => .sessionCreated (ρ token)
  | .sessionDestroyed token sessionId => .sessionDestroyed (ρ token) sessionId

def LogValue.rename : LogValue → LogValue
  | .token t => .token (t.rename ρ)
  | .message msg => .message (msg.rename ρ)
  | other => other

def LogRecord.rename (record : LogRecord) : LogRecord :=
  { record with fields := record.fields.map fun field => (field.1, field.2.rename ρ) }

/-- The compositor with the tokens in its state renamed. -/
def CalloopData.rename {S : Type} (d : CalloopData S) : CalloopData S :=
  { d with
    sessionRegistry := d.sessionRegistry.rename ρ
    launcher := d.launcher.map fun events => events.map (LauncherEvent.rename ρ)
    localTokens := d.localTokens.map ρ }

/-- The token of a connecting client is renamed with its hello and the random token. -/
theorem getD_rename (hello : ClientHello) (env : Surroundings) :
    (⟨(hello.rename ρ).token.getD (env.rename ρ).randomToken⟩ : SessionToken) =
      SessionToken.rename ρ ⟨hello.token.getD env.randomToken⟩ := by
  obtain ⟨version, capabilities, token⟩ := hello
  cases token <;> rfl

namespace CalloopData

variable {S : Type} (d : CalloopData S) (env : Surroundings) (token : SessionToken)

/-! ### The state -/

@[simp] theorem rename_cluster : (d.rename ρ).cluster = d.cluster := rfl
@[simp] theorem rename_peerRt : (d.rename ρ).peerRt = d.peerRt := rfl
@[simp] theorem rename_state : (d.rename ρ).state = d.state := rfl
@[simp] theorem rename_activeSession : (d.rename ρ).activeSession = d.activeSession := rfl
@[simp] theorem rename_sessionRegistry :
    (d.rename ρ).sessionRegistry = d.sessionRegistry.rename ρ := rfl

theorem publishClusterState_rename :
    (d.rename ρ).publishClusterState = d.publishClusterState.rename ρ := by
  simp only [publishClusterState, rename, SessionRegistry.countByState_rename,
    SessionRegistry.resumableTokens_rename]

theorem discoverRemoteHome_rename :
    (d.rename ρ).discoverRemoteHome (env.rename ρ) = d.discoverRemoteHome env := rfl

theorem findHome_rename :
    (d.rename ρ).findHome (env.rename ρ) (token.rename ρ) =
      ((d.findHome env token).1, (d.findHome env token).2.rename ρ) := by
  simp only [findHome, rename_sessionRegistry, SessionRegistry.locate_rename,
    discoverRemoteHome_rename]
  rw [show (env.rename ρ).locatedAt = env.locatedAt from rfl]
  cases d.sessionRegistry.locate env.locatedAt token with
  | localTo _ | remote _ => rfl
  | unknown =>
    cases d.discoverRemoteHome env with
    | none => rfl
    | some serverId =>
      simp only [rename, SessionRegistry.noteRemoteSession_rename]
      rfl

theorem pickPeerForNewSession_rename :
    (d.rename ρ).pickPeerForNewSession (env.rename ρ) = d.pickPeerForNewSession env := by
  simp only [pickPeerForNewSession, rename_sessionRegistry, SessionRegistry.loadFactor_rename,
    rename_cluster, rename_peerRt]
  rfl

theorem resumeSession_rename (id : SessionId) :
    (d.rename ρ).resumeSession (env.rename ρ) id = (d.resumeSession env id).rename ρ := by
  simp only [resumeSession, rename_sessionRegistry, SessionRegistry.get_rename_state]
  cases ((d.sessionRegistry.get id).map (·.state)).getD .destroyed with
  | suspended =>
    simp only [SessionRegistry.activate, SessionRegistry.transition_rename]
    rfl
  | creating | active | destroyed => rfl

theorem startSession_rename :
    (d.rename ρ).startSession (env.rename ρ) (token.rename ρ) =
      ((d.startSession env token).1, (d.startSession env token).2.rename ρ) := by
  simp only [startSession, rename_sessionRegistry, SessionRegistry.createSession_rename,
    SessionRegistry.activate, SessionRegistry.transition_rename]
  rw [show (env.rename ρ).createdAt = env.createdAt from rfl,
    show (env.rename ρ).activatedAt = env.activatedAt from rfl]
  simp only [rename, Option.map_map, Function.comp_def, List.map_append, List.map_cons,
    List.map_nil, LauncherEvent.rename]
  rfl

theorem bindClient_rename (id : SessionId) (resumed : Bool) (remoteAddr : String) :
    (d.rename ρ).bindClient id resumed (token.rename ρ) remoteAddr =
      ((d.bindClient id resumed token remoteAddr).1.rename ρ,
        (d.bindClient id resumed token remoteAddr).2.rename ρ) := by
  simp only [bindClient, ← publishClusterState_rename]
  rfl

theorem connectClient_rename (hello : ClientHello) (remoteAddr : String) :
    (d.rename ρ).connectClient (env.rename ρ) (hello.rename ρ) remoteAddr =
      ((d.connectClient env hello remoteAddr).1.rename ρ,
        (d.connectClient env hello remoteAddr).2.rename ρ) := by
  simp only [connectClient, getD_rename, findHome_rename]
  generalize (⟨hello.token.getD env.randomToken⟩ : SessionToken) = token
  obtain ⟨location, d'⟩ := d.findHome env token
  dsimp only
  rw [show (d'.rename ρ).redirectTarget location = d'.redirectTarget location by
    cases location <;> rfl]
  cases d'.redirectTarget location with
  | some target => rfl
  | none =>
    simp only [rename_sessionRegistry, SessionRegistry.isResumable_rename,
      pickPeerForNewSession_rename, startSession_rename]
    cases d'.sessionRegistry.isResumable token with
    | some id => simp only [resumeSession_rename, bindClient_rename]
    | none =>
      cases d'.pickPeerForNewSession env with
      | some target => rfl
      | none => simp only [bindClient_rename]

theorem disconnectClient_rename (desktop : Desktop S) :
    disconnectClient desktop (d.rename ρ) (env.rename ρ) =
      (disconnectClient desktop d env).rename ρ := by
  simp only [disconnectClient, rename_activeSession]
  cases d.activeSession with
  | none =>
    simp only [← publishClusterState_rename]
    rfl
  | some id =>
    simp only [← publishClusterState_rename, rename_sessionRegistry, SessionRegistry.suspend,
      SessionRegistry.transition_rename]
    rfl

theorem handleControl_rename (desktop : Desktop S) (msg : ControlMessage) :
    handleControl desktop (d.rename ρ) (msg.rename ρ) = (handleControl desktop d msg).rename ρ := by
  cases msg <;> rfl

/-- **Draining commutes with renaming.** -/
theorem drained_rename (desktop : Desktop S) (event : DrainEvent) :
    drained desktop (d.rename ρ) (event.rename ρ) = (drained desktop d event).rename ρ := by
  cases event with
  | disconnected => rfl
  | received env noise event =>
    cases event with
    | input msg => rfl
    | clientConnected hello remoteAddr =>
      exact congrArg Prod.snd (connectClient_rename ρ d env hello remoteAddr)
    | clientDisconnected => exact disconnectClient_rename ρ d env desktop
    | control msg => exact handleControl_rename ρ d desktop msg

end CalloopData

/-! ### Records that reveal a token -/

/-- Whether a message carries a session token. -/
def ControlMessage.carriesToken : ControlMessage → Bool
  | .clientHello hello => hello.token.isSome
  | .serverHello _ => true
  | .sessionLookupRequest _ _ => true
  | _ => false

def LogValue.reveals : LogValue → Bool
  | .token _ => true
  | .message msg => msg.carriesToken
  | _ => false

/-- Whether a token is among the values of a record. -/
def LogRecord.reveals (record : LogRecord) : Bool := record.fields.any fun field => field.2.reveals

/-- The records reveal no token. -/
def Plain (records : List LogRecord) : Prop := ∀ r ∈ records, r.reveals = false

@[simp] theorem plain_nil : Plain [] := fun _ h => absurd h List.not_mem_nil

@[simp] theorem plain_cons {r : LogRecord} {records : List LogRecord} :
    Plain (r :: records) ↔ r.reveals = false ∧ Plain records :=
  List.forall_mem_cons

@[simp] theorem plain_append {records records' : List LogRecord} :
    Plain (records ++ records') ↔ Plain records ∧ Plain records' :=
  List.forall_mem_append

@[simp] theorem plain_foreign (records : List (LogLevel × String)) : Plain (foreign records) := by
  intro r hr
  obtain ⟨_, -, rfl⟩ := List.mem_map.mp hr
  rfl

theorem ControlMessage.rename_of_not_carriesToken {msg : ControlMessage}
    (h : msg.carriesToken = false) : msg.rename ρ = msg := by
  cases msg with
  | clientHello hello =>
    obtain ⟨version, capabilities, token⟩ := hello
    obtain rfl := Option.isSome_eq_false_iff.mp h |> Option.isNone_iff_eq_none.mp
    rfl
  | serverHello _ | sessionLookupRequest _ _ => exact absurd h (by simp [carriesToken])
  | _ => rfl

theorem LogRecord.rename_of_not_reveals {r : LogRecord} (h : r.reveals = false) :
    r.rename ρ = r := by
  obtain ⟨level, message, fields⟩ := r
  have hfield : ∀ field ∈ fields, (field.1, field.2.rename ρ) = id field := by
    rintro ⟨name, value⟩ hmem
    have hvalue : value.reveals = false := by
      simpa using List.any_eq_false.mp h (name, value) hmem
    cases value with
    | token t => exact absurd hvalue (by simp [LogValue.reveals])
    | message msg =>
      exact congrArg (Prod.mk name ∘ LogValue.message)
        (ControlMessage.rename_of_not_carriesToken ρ hvalue)
    | _ => rfl
  rw [rename, List.map_congr_left hfield, List.map_id]

/-- Records that reveal no token are the same under every renaming. -/
theorem Plain.map_rename {records : List LogRecord} (h : Plain records) :
    records.map (LogRecord.rename ρ) = records :=
  (List.map_congr_left fun r hr => LogRecord.rename_of_not_reveals ρ (h r hr)).trans
    (List.map_id records)

/-! ### What reveals no token -/

namespace SessionRegistry

variable (r : SessionRegistry) (noise : LogSurroundings) (id : SessionId) (state : SessionState)

theorem plain_persistLog : Plain (r.persistLog noise id state) := by
  unfold persistLog
  split_ifs <;> simp [LogRecord.reveals, LogValue.reveals]

theorem plain_transitionLog : Plain (r.transitionLog noise id state) := by
  unfold transitionLog
  cases r.sessions.get id with
  | none => exact plain_nil
  | some s =>
    dsimp only
    split_ifs
    · exact plain_cons.mpr ⟨rfl, r.plain_persistLog noise s.id state⟩
    · exact plain_nil

theorem plain_createLog : Plain (r.createLog noise) :=
  plain_append.mpr ⟨r.plain_persistLog noise _ _, plain_cons.mpr ⟨rfl, plain_nil⟩⟩

@[simp] theorem persistLog_rename :
    (r.rename ρ).persistLog noise id state = r.persistLog noise id state := by
  rw [persistLog, rename, SessionStore.isSqlite_rename]
  rfl

@[simp] theorem transitionLog_rename :
    (r.rename ρ).transitionLog noise id state = r.transitionLog noise id state := by
  unfold transitionLog
  rw [sessions_rename_get]
  cases r.sessions.get id with
  | none => rfl
  | some s =>
    simp only [Option.map_some, Session.rename_state, Session.rename_id, persistLog_rename]

@[simp] theorem createLog_rename : (r.rename ρ).createLog noise = r.createLog noise := by
  simp only [createLog, persistLog_rename]
  rfl

end SessionRegistry

namespace CalloopData

variable {S : Type} (d : CalloopData S) (env : Surroundings) (noise : LogSurroundings)
  (token : SessionToken)

theorem plain_probeHomeLog (probe : ℕ → ProbeOutcome String) (index : ℕ)
    (peers : List ServerEntry) : Plain (probeHomeLog probe noise index peers) := by
  induction peers generalizing index with
  | nil => exact plain_nil
  | cons peer peers ih =>
    unfold probeHomeLog
    cases probe index with
    | budgetExhausted => exact plain_cons.mpr ⟨rfl, plain_nil⟩
    | invalidAddr => exact plain_cons.mpr ⟨rfl, ih (index + 1)⟩
    | noAnswer =>
      have htimeout : Plain (if noise.tokenProbeTimedOut index then
          [⟨.warn, "peer SessionLookup query timed out",
            [("addr", .text (noise.socket index))]⟩] else []) := by
        split_ifs <;> simp [LogRecord.reveals, LogValue.reveals]
      exact plain_append.mpr ⟨plain_append.mpr ⟨plain_foreign _, htimeout⟩, ih (index + 1)⟩
    | answered serverId =>
      exact plain_append.mpr ⟨plain_foreign _, plain_cons.mpr ⟨rfl, plain_nil⟩⟩

theorem plain_probeLoadsLog (probe : ℕ → ProbeOutcome ServerInfoMsg) (index : ℕ)
    (peers : List ServerEntry) : Plain (probeLoadsLog probe noise index peers) := by
  induction peers generalizing index with
  | nil => exact plain_nil
  | cons peer peers ih =>
    unfold probeLoadsLog
    cases probe index with
    | budgetExhausted => exact plain_cons.mpr ⟨rfl, plain_nil⟩
    | invalidAddr => exact plain_cons.mpr ⟨rfl, ih (index + 1)⟩
    | noAnswer =>
      have htimeout : Plain (if noise.infoProbeTimedOut index then
          [⟨.warn, "peer ServerInfo query timed out",
            [("addr", .text (noise.socket index))]⟩] else []) := by
        split_ifs <;> simp [LogRecord.reveals, LogValue.reveals]
      exact plain_append.mpr ⟨plain_append.mpr ⟨plain_foreign _, htimeout⟩, ih (index + 1)⟩
    | answered info => exact plain_append.mpr ⟨plain_foreign _, ih (index + 1)⟩

theorem plain_discoverLog : Plain (d.discoverLog env noise) := by
  unfold discoverLog
  split_ifs
  · exact plain_nil
  · exact plain_cons.mpr ⟨rfl, plain_nil⟩
  · exact plain_nil
  · exact plain_probeHomeLog noise _ _ _

theorem plain_pickLog : Plain (d.pickLog env noise) := by
  unfold pickLog
  split_ifs
  · exact plain_nil
  · exact plain_nil
  · exact plain_cons.mpr ⟨rfl, plain_nil⟩
  · exact plain_nil
  · exact plain_probeLoadsLog noise _ _ _

theorem plain_resumeLog (id : SessionId) : Plain (d.resumeLog env noise id) := by
  unfold resumeLog
  cases ((d.sessionRegistry.get id).map (·.state)).getD .destroyed with
  | suspended =>
    refine plain_append.mpr ⟨SessionRegistry.plain_transitionLog _ _ _ _, ?_⟩
    cases (d.sessionRegistry.activate env.activatedAt id).1 <;>
      exact plain_cons.mpr ⟨rfl, plain_nil⟩
  | active => exact plain_cons.mpr ⟨rfl, plain_nil⟩
  | creating | destroyed => exact plain_nil

theorem plain_startLog : Plain (d.startLog env noise token) := by
  unfold startLog
  refine plain_append.mpr ⟨plain_append.mpr ⟨SessionRegistry.plain_createLog _ _,
    SessionRegistry.plain_transitionLog _ _ _ _⟩, ?_⟩
  split
  · exact plain_cons.mpr ⟨rfl, plain_nil⟩
  · exact plain_nil

theorem plain_bindLog (version : UInt32) (id : SessionId) (resumed : Bool) :
    Plain (bindLog noise version id resumed) := by
  unfold bindLog
  split_ifs <;> simp [LogRecord.reveals, LogValue.reveals]

theorem plain_disconnectLog (desktopLog : DesktopLog S) :
    Plain (disconnectLog desktopLog d env noise) := by
  unfold disconnectLog
  refine plain_append.mpr ⟨plain_foreign _, ?_⟩
  cases d.activeSession with
  | none => exact plain_nil
  | some id =>
    refine plain_append.mpr ⟨SessionRegistry.plain_transitionLog _ _ _ _, ?_⟩
    cases (d.sessionRegistry.suspend env.suspendedAt id).1 <;>
      exact plain_cons.mpr ⟨rfl, plain_nil⟩

theorem plain_clipboardLog (desktopLog : DesktopLog S) (clip : ClipboardData) :
    Plain (controlLog desktopLog d (.clipboardData clip)) := by
  simp only [controlLog]
  refine plain_append.mpr ⟨?_, plain_cons.mpr ⟨rfl, plain_foreign _⟩⟩
  split_ifs <;> simp [LogRecord.reveals, LogValue.reveals]

end CalloopData

end WayRay
