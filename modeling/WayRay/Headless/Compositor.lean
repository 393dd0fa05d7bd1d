import WayRay.Session.Registry
import WayRay.Network.Channel
import WayRay.Protocol.Cluster
import Mathlib.Data.List.MinMax
import Mathlib.Algebra.Order.Ring.Rat

/-!
# The headless compositor loop

The session side of `backend/headless.rs`: how the compositor answers a connecting client, what it
does when the client leaves, and the periodic cleanup.

* `CalloopData` is the loop's state.  The Wayland desktop behind it (`WayRay` in the source) is a
  type parameter `S`; a `Desktop S` gives the three operations that network events perform on it.
* `drainEvent` handles one event of the network thread, `cleanupTick` is the periodic part of the
  loop, `LoopEvent` collects what can happen between two states and `runLoop` is a whole run.
* What the loop observes of its surroundings while it handles one event — clock readings, the random
  token, the answers of cluster peers — is a `Surroundings`.

Loads are rational numbers where the source computes with `f32`.
-/

namespace WayRay

/-- Notifications queued to the session launcher. -/
inductive LauncherEvent where
  | sessionCreated (token : String)
  | sessionDestroyed (token : String) (sessionId : ℕ)
deriving DecidableEq

/-! ### State -/

/-- What network events do to the desktop. -/
structure Desktop (S : Type) where
  injectNetworkInput : InputMessage → S → S
  releaseAllKeys : S → S
  setRemoteClipboard : ClipboardData → S → S

/-- What the render loop remembers about the frames it sent. -/
structure FrameState where
  /-- The pixels of the last frame sent. -/
  previousFrame : Bytes
  frameSequence : ℕ
  /-- Force the next frame to be a full keyframe. -/
  forceKeyframe : Bool
  /-- Delta frames sent since the last keyframe. -/
  framesSinceKeyframe : ℕ
deriving DecidableEq

/-- The data of the headless backend's event callbacks. -/
structure CalloopData (S : Type) extends FrameState where
  state : S
  clientConnected : Bool
  sessionRegistry : SessionRegistry
  activeSession : Option SessionId
  cluster : ClusterConfig
  /-- Whether the runtime for peer queries is there. -/
  peerRt : Bool
  /-- The events queued to the session launcher, if one is linked. -/
  launcher : Option (List LauncherEvent)
  connectedClientAddr : Option String
  /-- The active-session count published to the network thread. -/
  activeSessions : ℕ
  /-- The resumable tokens published to the network thread. -/
  localTokens : List String

/-- How the probe of one peer goes. -/
inductive ProbeOutcome (α : Type) where
  /-- The probe budget is spent before the peer's turn. -/
  | budgetExhausted
  | invalidAddr
  /-- No answer in time, an error, or a negative answer. -/
  | noAnswer
  | answered (a : α)

/-- What the loop observes of its surroundings while it handles one network event. -/
structure Surroundings where
  locatedAt : Clock
  notedAt : Clock
  createdAt : Clock
  activatedAt : Clock
  suspendedAt : Clock
  /-- The token generated for a client that brings none. -/
  randomToken : String
  /-- Whether the peer at this place of the list says it hosts the token's session. -/
  tokenProbe : ℕ → ProbeOutcome String
  /-- What the peer at this place of the list says about its load. -/
  infoProbe : ℕ → ProbeOutcome ServerInfoMsg

namespace CalloopData

variable {S : Type}

/-! ### Cluster placement -/

/-- The first peer, from place `index` on, that hosts the session. -/
def probeHome (probe : ℕ → ProbeOutcome String) : ℕ → List ServerEntry → Option String
  | _, [] => none
  | index, _ :: peers =>
    match probe index with
    -- the peers that are left are not asked any more
    | .budgetExhausted => none
    | .invalidAddr | .noAnswer => probeHome probe (index + 1) peers
    | .answered serverId => some serverId

/-- Probe cluster peers to find which one (if any) hosts a resumable session for the token. -/
def discoverRemoteHome (d : CalloopData S) (env : Surroundings) : Option String :=
  if !d.cluster.isClustered then none
  else if d.cluster.clusterSecret.isEmpty then none
  else if !d.peerRt then none
  else probeHome env.tokenProbe 0 d.cluster.peers

/-- A peer's advertised load. -/
structure PeerLoad where
  /-- Index into the candidate list. -/
  index : ℕ
  loadFactor : ℚ
  /-- Placement weight; higher is preferred. -/
  weight : ℕ

/-- A peer's load, discounted by its weight. -/
def PeerLoad.score (p : PeerLoad) : ℚ := p.loadFactor / (max p.weight 1 : ℕ)

/-- The least-loaded (weight-adjusted) peer below capacity; the first one of several. -/
def selectLeastLoadedPeer (peers : List PeerLoad) : Option ℕ :=
  ((peers.filter fun p => p.loadFactor < 1).argmin PeerLoad.score).map (·.index)

/-- The loads the peers advertise, from place `index` on, until the probe budget is spent. -/
def probeLoads (cluster : ClusterConfig) (probe : ℕ → ProbeOutcome ServerInfoMsg) :
    ℕ → List ServerEntry → List PeerLoad
  | _, [] => []
  | index, peer :: peers =>
    match probe index with
    | .budgetExhausted => []
    | .invalidAddr | .noAnswer => probeLoads cluster probe (index + 1) peers
    | .answered info =>
      { index := index
        loadFactor := info.activeSessions.toNat / (max info.capacity.toNat 1 : ℕ)
        weight := ((cluster.server peer.id).map (·.weight)).getD 1 } ::
        probeLoads cluster probe (index + 1) peers

/-- Local load factor above which new sessions are shed to a peer. -/
def loadRedirectThreshold : ℚ := 9 / 10

/-- Decide whether a new session should be redirected to a cluster peer. -/
def pickPeerForNewSession (d : CalloopData S) (env : Surroundings) : Option (String × String) :=
  if !d.cluster.isClustered then none
  else if d.sessionRegistry.loadFactor ≤ loadRedirectThreshold then none
  else if d.cluster.clusterSecret.isEmpty then none
  else if !d.peerRt then none
  else
    let candidates := d.cluster.peers
    let loads := probeLoads d.cluster env.infoProbe 0 candidates
    let localLoad := d.sessionRegistry.loadFactor
    (selectLeastLoadedPeer loads).bind fun best =>
      (loads.find? fun p => p.index = best).bind fun bestLoad =>
        -- only to a peer that is strictly less loaded
        if bestLoad.loadFactor < localLoad then
          (candidates[best]?).map fun peer => (peer.id, peer.addr)
        else none

/-! ### Clients come and go -/

/-- Publish the live active-session count and the resumable tokens to the network thread. -/
def publishClusterState (d : CalloopData S) : CalloopData S :=
  { d with
    activeSessions := d.sessionRegistry.countByState .active
    localTokens := d.sessionRegistry.resumableTokens }

/-- Where the token's session lives, after asking the peers if it is unknown; their answer is
noted. -/
def findHome (d : CalloopData S) (env : Surroundings) (token : SessionToken) :
    SessionLocation × CalloopData S :=
  match d.sessionRegistry.locate env.locatedAt token with
  | .unknown =>
    match d.discoverRemoteHome env with
    | some serverId =>
      (.remote serverId, { d with
        sessionRegistry := d.sessionRegistry.noteRemoteSession env.notedAt token serverId })
    | none => (.unknown, d)
  | location => (location, d)

/-- The server a client is sent to because its session lives there; none if the session does not
live elsewhere or the address of its server is not configured. -/
def redirectTarget (d : CalloopData S) : SessionLocation → Option (String × String)
  | .remote serverId => (d.cluster.addrOf serverId).map fun addr => (serverId, addr)
  | .localTo _ | .unknown => none

/-- Resume a suspended session; an active one is taken over as it is. -/
def resumeSession (d : CalloopData S) (env : Surroundings) (id : SessionId) : CalloopData S :=
  match ((d.sessionRegistry.get id).map (·.state)).getD .destroyed with
  | .suspended => { d with sessionRegistry := (d.sessionRegistry.activate env.activatedAt id).2 }
  | .creating | .active | .destroyed => d

/-- Create and activate a session, and tell the launcher. -/
def startSession (d : CalloopData S) (env : Surroundings) (token : SessionToken) :
    SessionId × CalloopData S :=
  let (id, registry) := d.sessionRegistry.createSession env.createdAt token
  (id, { d with
    sessionRegistry := (registry.activate env.activatedAt id).2
    launcher := d.launcher.map (· ++ [.sessionCreated token.str]) })

/-- Bind the client to a session: it becomes the active one, the diff base is reset, and a keyframe
is due. -/
def bindClient (d : CalloopData S) (id : SessionId) (resumed : Bool) (token : SessionToken)
    (remoteAddr : String) : ConnectDecision × CalloopData S :=
  let d := { d with
    activeSession := some id
    clientConnected := true
    connectedClientAddr := some remoteAddr
    previousFrame := List.replicate d.previousFrame.length 0
    forceKeyframe := true }
  (.bind ⟨id.raw, resumed, token.str⟩, d.publishClusterState)

/-- A client connects. -/
def connectClient (d : CalloopData S) (env : Surroundings) (hello : ClientHello)
    (remoteAddr : String) : ConnectDecision × CalloopData S :=
  let token : SessionToken := ⟨hello.token.getD env.randomToken⟩
  let (location, d) := d.findHome env token
  match d.redirectTarget location with
  | some (serverId, addr) => (.redirect serverId addr, d)
  | none =>
    -- also if the home of the session has no configured address
    match d.sessionRegistry.isResumable token with
    | some id => (d.resumeSession env id).bindClient id true token remoteAddr
    | none =>
      match d.pickPeerForNewSession env with
      | some (serverId, addr) => (.redirect serverId addr, d)
      | none =>
        let (id, d) := d.startSession env token
        d.bindClient id false token remoteAddr

/-- The client disconnects: its keys are released and its session is suspended. -/
def disconnectClient (desktop : Desktop S) (d : CalloopData S) (env : Surroundings) :
    CalloopData S :=
  let d := { d with state := desktop.releaseAllKeys d.state }
  let d :=
    match d.activeSession with
    | some id =>
      -- a failure to suspend is only logged
      { d with
        activeSession := none
        sessionRegistry := (d.sessionRegistry.suspend env.suspendedAt id).2 }
    | none => d
  { d with clientConnected := false, connectedClientAddr := none }.publishClusterState

/-- A control message from the client. -/
def handleControl (desktop : Desktop S) (d : CalloopData S) : ControlMessage → CalloopData S
  | .requestKeyframe => { d with forceKeyframe := true }
  | .clipboardData clip => { d with state := desktop.setRemoteClipboard clip d.state }
  | _ => d

/-- One event of the network thread; a connecting client gets an answer. -/
def drainEvent (desktop : Desktop S) (d : CalloopData S) (env : Surroundings) :
    NetToCompositor → Option ConnectDecision × CalloopData S
  | .input msg => (none, { d with state := desktop.injectNetworkInput msg d.state })
  | .clientConnected hello remoteAddr => (d.connectClient env hello remoteAddr).map some id
  | .clientDisconnected => (none, disconnectClient desktop d env)
  | .control msg => (none, handleControl desktop d msg)

/-! ### The loop -/

/-- The launcher events that announce destroyed sessions. -/
def destroyedEvents (registry : SessionRegistry) (ids : List SessionId) : List LauncherEvent :=
  ids.filterMap fun id =>
    (registry.get id).map fun s => .sessionDestroyed s.token.str id.raw

/-- Periodic cleanup: destroy and purge the expired sessions, then drop stale remote notes. -/
def cleanupTick (d : CalloopData S) (cleanedAt prunedAt : Clock) : CalloopData S :=
  let (expired, registry) := d.sessionRegistry.cleanupExpired cleanedAt
  let d :=
    if expired.isEmpty then { d with sessionRegistry := registry }
    else
      { d with
        -- the destroyed sessions are still there to be announced
        launcher := d.launcher.map (· ++ destroyedEvents registry expired)
        sessionRegistry := registry.purgeDestroyed }
  { d with sessionRegistry := d.sessionRegistry.pruneRemoteSessions prunedAt }

end CalloopData

/-- What happens in the main loop. -/
inductive LoopEvent (S : Type) where
  | net (env : Surroundings) (event : NetToCompositor)
  /-- The channel from the network thread is closed. -/
  | netClosed
  | cleanup (cleanedAt prunedAt : Clock)
  /-- The rest of a turn: Wayland dispatch and rendering change the desktop and the frame state. -/
  | turn (state : S) (frame : FrameState)

namespace CalloopData

variable {S : Type}

def applyEvent (desktop : Desktop S) (d : CalloopData S) : LoopEvent S → CalloopData S
  | .net env event => (drainEvent desktop d env event).2
  | .netClosed => { d with clientConnected := false }
  | .cleanup cleanedAt prunedAt => d.cleanupTick cleanedAt prunedAt
  | .turn state frame => { d with state := state, toFrameState := frame }

/-- A run of the main loop. -/
def runLoop (desktop : Desktop S) (d : CalloopData S) (events : List (LoopEvent S)) :
    CalloopData S :=
  events.foldl (applyEvent desktop) d

/-- The compositor when it enters its main loop.  With a state database the sessions in it are
restored; without one, or if it fails to open, the registry stays in memory. -/
def boot (state : S) (frame : FrameState) (cluster : ClusterConfig) (peerRt launcherLinked : Bool)
    (stateDb : Option SessionTable) (clk : Clock)
    (find : Enumeration (SessionId × SessionRecord)) : CalloopData S :=
  let registry := SessionRegistry.withCluster cluster.localId defaultCapacity
  { toFrameState := frame
    state := state
    clientConnected := false
    sessionRegistry :=
      match stateDb with
      | some db =>
        ((registry.withStore (.sqlite (.openFile db))).restorePersisted clk find).2
      | none => registry
    activeSession := none
    cluster := cluster
    peerRt := peerRt
    launcher := if launcherLinked then some [] else none
    connectedClientAddr := none
    activeSessions := 0
    localTokens := [] }

/-! ### Quiet surroundings -/

/-- A desktop without state. -/
def nullDesktop : Desktop Unit := ⟨fun _ _ => (), fun _ => (), fun _ _ => ()⟩

/-- Surroundings at the origin of time, without peers. -/
def quiet : Surroundings :=
  ⟨⟨0, 0⟩, ⟨0, 0⟩, ⟨0, 0⟩, ⟨0, 0⟩, ⟨0, 0⟩, "r", fun _ => .noAnswer, fun _ => .noAnswer⟩

end CalloopData

end WayRay
