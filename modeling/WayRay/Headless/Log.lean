import WayRay.Headless.Compositor

/-!
# What the compositor logs

The records that `drain_network_events` emits, its own and those of the functions it calls.

A value of a record stands for its text: derived `Debug` prints every field of a message, so
messages that differ have different texts.  Code outside the repository and the desktop log too, but
see no token: their records are given (`LogSurroundings`, `DesktopLog`).
-/

namespace WayRay

/-! ### Records -/

inductive LogLevel where
  | trace
  | debug
  | info
  | warn
  | error
deriving DecidableEq

/-- The value of a field. -/
inductive LogValue where
  | text (text : String)
  | number (n : ℕ)
  | bool (b : Bool)
  | strings (values : List String)
  /-- A session token through its `Display`. -/
  | token (token : SessionToken)
  /-- A whole message through its `Debug`. -/
  | message (msg : ControlMessage)
deriving DecidableEq

structure LogRecord where
  level : LogLevel
  message : String
  fields : List (String × LogValue)
deriving DecidableEq

/-- Records of code that sees no token. -/
def foreign (records : List (LogLevel × String)) : List LogRecord :=
  records.map fun r => ⟨r.1, r.2, []⟩

/-- `Display` of a session id. -/
def SessionId.display (id : SessionId) : String := "session-" ++ toString id.raw

/-- `Display` of a refused transition. -/
def SessionTransitionError.display (e : SessionTransitionError) : String :=
  "invalid session transition for " ++ e.sessionId.display ++ ": " ++ e.source.display ++ " → " ++
    e.target.display

/-! ### Surroundings -/

/-- What else the records of one event depend on. -/
structure LogSurroundings where
  /-- What the network stack logs while the peer at this place is asked for a token. -/
  tokenProbeStack : ℕ → List (LogLevel × String)
  tokenProbeTimedOut : ℕ → Bool
  /-- What the network stack logs while the peer at this place is asked for its load. -/
  infoProbeStack : ℕ → List (LogLevel × String)
  infoProbeTimedOut : ℕ → Bool
  /-- The parsed address of the peer at this place. -/
  socket : ℕ → String
  /-- Why the address of the peer at this place does not parse. -/
  addrError : ℕ → String
  /-- Whether the store's writer task is gone when a session is persisted in this state. -/
  writerGone : SessionState → Bool
  /-- Whether the network thread has dropped the reply channel. -/
  replyDropped : Bool
  /-- How long the connect took to resolve, in microseconds. -/
  resolveUs : ℕ

/-- What the desktop logs. -/
structure DesktopLog (S : Type) where
  injectNetworkInput : InputMessage → S → List (LogLevel × String)
  releaseAllKeys : S → List (LogLevel × String)
  /-- While a selection is published. -/
  setDataDeviceSelection : ClipboardData → S → List (LogLevel × String)

/-! ### The registry -/

namespace SessionRegistry

/-- A session is persisted in a state. -/
def persistLog (r : SessionRegistry) (noise : LogSurroundings) (id : SessionId)
    (state : SessionState) : List LogRecord :=
  if r.store.isSqlite && noise.writerGone state then
    [⟨.error, "session store writer is gone; state not persisted", [("id", .text id.display)]⟩]
  else []

/-- A session moves to a state other than `Destroyed`. -/
def transitionLog (r : SessionRegistry) (noise : LogSurroundings) (id : SessionId)
    (next : SessionState) : List LogRecord :=
  match r.sessions.get id with
  | none => []
  | some session =>
    if session.state.canTransitionTo next then
      ⟨.info, "session state transition", [("id", .text id.display),
        ("from", .text session.state.display), ("next", .text next.display)]⟩ ::
        r.persistLog noise session.id next
    else []

/-- A session is created. -/
def createLog (r : SessionRegistry) (noise : LogSurroundings) : List LogRecord :=
  r.persistLog noise ⟨r.nextId⟩ .creating ++
    [⟨.info, "session created", [("id", .text (SessionId.display ⟨r.nextId⟩)),
      ("home_server", .text r.localServerId)]⟩]

end SessionRegistry

namespace CalloopData

variable {S : Type}

/-! ### Peers -/

/-- The peers are asked for a token, from place `index` on. -/
def probeHomeLog (probe : ℕ → ProbeOutcome String) (noise : LogSurroundings) :
    ℕ → List ServerEntry → List LogRecord
  | _, [] => []
  | index, peer :: peers =>
    match probe index with
    | .budgetExhausted => [⟨.warn, "peer session-lookup budget exhausted; serving locally", []⟩]
    | .invalidAddr =>
      ⟨.warn, "invalid peer addr, skipping lookup", [("id", .text peer.id),
        ("addr", .text peer.addr), ("error", .text (noise.addrError index))]⟩ ::
        probeHomeLog probe noise (index + 1) peers
    | .noAnswer =>
      foreign (noise.tokenProbeStack index) ++
        (if noise.tokenProbeTimedOut index then
          [⟨.warn, "peer SessionLookup query timed out", [("addr", .text (noise.socket index))]⟩]
        else []) ++
        probeHomeLog probe noise (index + 1) peers
    | .answered serverId =>
      foreign (noise.tokenProbeStack index) ++
        [⟨.info, "discovered session home server via peer probe", [("server_id", .text serverId)]⟩]

/-- The home of a token is looked for. -/
def discoverLog (d : CalloopData S) (env : Surroundings) (noise : LogSurroundings) :
    List LogRecord :=
  if !d.cluster.isClustered then []
  else if d.cluster.clusterSecret.isEmpty then
    [⟨.warn, "cluster configured without cluster_secret; skipping peer session lookup", []⟩]
  else if !d.peerRt then []
  else probeHomeLog env.tokenProbe noise 0 d.cluster.peers

/-- The peers are asked for their loads, from place `index` on. -/
def probeLoadsLog (probe : ℕ → ProbeOutcome ServerInfoMsg) (noise : LogSurroundings) :
    ℕ → List ServerEntry → List LogRecord
  | _, [] => []
  | index, peer :: peers =>
    match probe index with
    | .budgetExhausted => [⟨.warn, "peer load-probe budget exhausted; placing locally", []⟩]
    | .invalidAddr =>
      ⟨.warn, "invalid peer addr, skipping", [("id", .text peer.id), ("addr", .text peer.addr),
        ("error", .text (noise.addrError index))]⟩ ::
        probeLoadsLog probe noise (index + 1) peers
    | .noAnswer =>
      foreign (noise.infoProbeStack index) ++
        (if noise.infoProbeTimedOut index then
          [⟨.warn, "peer ServerInfo query timed out", [("addr", .text (noise.socket index))]⟩]
        else []) ++
        probeLoadsLog probe noise (index + 1) peers
    | .answered _ =>
      foreign (noise.infoProbeStack index) ++ probeLoadsLog probe noise (index + 1) peers

/-- A peer for a new session is looked for. -/
def pickLog (d : CalloopData S) (env : Surroundings) (noise : LogSurroundings) : List LogRecord :=
  if !d.cluster.isClustered then []
  else if d.sessionRegistry.loadFactor ≤ loadRedirectThreshold then []
  else if d.cluster.clusterSecret.isEmpty then
    [⟨.warn, "cluster configured without cluster_secret; skipping peer load probe", []⟩]
  else if !d.peerRt then []
  else probeLoadsLog env.infoProbe noise 0 d.cluster.peers

/-! ### Clients come and go -/

/-- A session is resumed or taken over. -/
def resumeLog (d : CalloopData S) (env : Surroundings) (noise : LogSurroundings)
    (id : SessionId) : List LogRecord :=
  match ((d.sessionRegistry.get id).map (·.state)).getD .destroyed with
  | .suspended =>
    d.sessionRegistry.transitionLog noise id .active ++
      match (d.sessionRegistry.activate env.activatedAt id).1 with
      | .error e => [⟨.warn, "failed to resume session", [("error", .text e.display)]⟩]
      | .ok () => [⟨.info, "session resumed", [("id", .text id.display)]⟩]
  | .active =>
    [⟨.warn, "active session rebound to a new endpoint (hot-desk takeover); " ++
      "authorized by session token", [("id", .text id.display)]⟩]
  | .creating | .destroyed => []

/-- A session is created and activated. -/
def startLog (d : CalloopData S) (env : Surroundings) (noise : LogSurroundings)
    (token : SessionToken) : List LogRecord :=
  let (id, registry) := d.sessionRegistry.createSession env.createdAt token
  d.sessionRegistry.createLog noise ++ registry.transitionLog noise id .active ++
    match (registry.activate env.activatedAt id).1 with
    | .error e => [⟨.warn, "failed to activate new session", [("error", .text e.display)]⟩]
    | .ok () => []

/-- A client is bound to a session. -/
def bindLog (noise : LogSurroundings) (version : UInt32) (id : SessionId) (resumed : Bool) :
    List LogRecord :=
  (if noise.replyDropped then
    [⟨.warn, "network thread dropped session binding reply channel", []⟩] else []) ++
    [⟨.info, "remote client connected", [("version", .number version.toNat),
      ("session_id", .text id.display), ("resumed", .bool resumed),
      ("resolve_us", .number noise.resolveUs)]⟩]

/-- A client is sent to another server. -/
def redirectLog (message : String) (token : SessionToken) (serverId addr : String) :
    List LogRecord :=
  [⟨.info, message, [("token", .token token), ("server_id", .text serverId),
    ("addr", .text addr)]⟩]

/-- A client is served here, or sent to a peer with less to do. -/
def serveLog (d : CalloopData S) (env : Surroundings) (noise : LogSurroundings) (version : UInt32)
    (token : SessionToken) : List LogRecord :=
  match d.sessionRegistry.isResumable token with
  | some id => d.resumeLog env noise id ++ bindLog noise version id true
  | none =>
    d.pickLog env noise ++
      match d.pickPeerForNewSession env with
      | some (serverId, addr) =>
        redirectLog "load-balancing new session to peer" token serverId addr
      | none => d.startLog env noise token ++ bindLog noise version ⟨d.sessionRegistry.nextId⟩ false

/-- A client connects. -/
def connectLog (d : CalloopData S) (env : Surroundings) (noise : LogSurroundings)
    (hello : ClientHello) : List LogRecord :=
  let token : SessionToken := ⟨hello.token.getD env.randomToken⟩
  let located :=
    match d.sessionRegistry.locate env.locatedAt token with
    | .unknown => d.discoverLog env noise
    | .localTo _ | .remote _ => []
  let (location, d) := d.findHome env token
  located ++
    match location with
    | .remote serverId =>
      match d.cluster.addrOf serverId with
      | some addr => redirectLog "redirecting client to home server" token serverId addr
      | none =>
        ⟨.warn, "session marked remote but server addr unknown; serving locally",
          [("server_id", .text serverId)]⟩ :: d.serveLog env noise hello.version token
    | .localTo _ | .unknown => d.serveLog env noise hello.version token

/-- The client disconnects. -/
def disconnectLog (desktopLog : DesktopLog S) (d : CalloopData S) (env : Surroundings)
    (noise : LogSurroundings) : List LogRecord :=
  foreign (desktopLog.releaseAllKeys d.state) ++
    match d.activeSession with
    | none => []
    | some id =>
      d.sessionRegistry.transitionLog noise id .suspended ++
        match (d.sessionRegistry.suspend env.suspendedAt id).1 with
        | .error e => [⟨.warn, "failed to suspend session", [("error", .text e.display)]⟩]
        | .ok () =>
          [⟨.info, "session suspended, waiting for reconnect",
            [("session_id", .text id.display)]⟩]

/-- A control message from the client. -/
def controlLog (desktopLog : DesktopLog S) (d : CalloopData S) : ControlMessage → List LogRecord
  | .requestKeyframe => [⟨.info, "client requested keyframe (resync)", []⟩]
  | .clipboardData clip =>
    let (truncated, data) := capClipboardPayload clip.data clip.mimeType
    (if truncated then
      [⟨.warn, "remote clipboard payload exceeded the size cap and was truncated",
        [("mime_type", .text clip.mimeType)]⟩] else []) ++
      ⟨.info, "publishing remote clipboard as Wayland selection",
        [("mime_type", .text clip.mimeType), ("bytes", .number data.length)]⟩ ::
      foreign (desktopLog.setDataDeviceSelection clip d.state)
  | .clipboardOffer offer =>
    [⟨.debug, "client clipboard offer", [("mime_types", .strings offer.mimeTypes)]⟩]
  -- the message goes to the log as a whole
  | other => [⟨.debug, "received control message", [("other", .message other)]⟩]

/-- What one event of the network thread logs. -/
def eventLog (desktopLog : DesktopLog S) (d : CalloopData S) (env : Surroundings)
    (noise : LogSurroundings) : NetToCompositor → List LogRecord
  | .input msg => foreign (desktopLog.injectNetworkInput msg d.state)
  | .clientConnected hello _ => d.connectLog env noise hello
  | .clientDisconnected => disconnectLog desktopLog d env noise
  | .control msg => controlLog desktopLog d msg

end CalloopData

/-! ### Draining -/

/-- What `drain_network_events` finds in the channel. -/
inductive DrainEvent where
  | received (env : Surroundings) (noise : LogSurroundings) (event : NetToCompositor)
  /-- The network thread is gone. -/
  | disconnected

namespace CalloopData

variable {S : Type}

/-- The compositor after an event. -/
def drained (desktop : Desktop S) (d : CalloopData S) : DrainEvent → CalloopData S
  | .received env _ event => (drainEvent desktop d env event).2
  | .disconnected => { d with clientConnected := false }

/-- The records of an event. -/
def drainedLog (desktopLog : DesktopLog S) (d : CalloopData S) : DrainEvent → List LogRecord
  | .received env noise event => eventLog desktopLog d env noise event
  | .disconnected => [⟨.warn, "network channel disconnected", []⟩]

/-- The records of a run. -/
def drainLog (desktop : Desktop S) (desktopLog : DesktopLog S) :
    CalloopData S → List DrainEvent → List LogRecord
  | _, [] => []
  | d, event :: events =>
    drainedLog desktopLog d event ++ drainLog desktop desktopLog (drained desktop d event) events

end CalloopData

end WayRay
