import WayRay.Network.Channel

/-!
# Incoming connections

`classify_connection` reads the first control message of a connection: the hello of a client is
routed to the client handler, the probe of a peer server is answered in place from what the
compositor has published.  `queryPeerForToken` is the peer's side of a session lookup.
-/

namespace WayRay

/-- Current protocol version. -/
def protocolVersion : UInt32 := 2

/-- Oldest peer protocol version this build still interoperates with. -/
def minProtocolVersion : UInt32 := 1

def versionCompatible (peerVersion : UInt32) : Bool :=
  minProtocolVersion ≤ peerVersion && peerVersion ≤ protocolVersion

/-- Configuration of the server, as far as probes are concerned. -/
structure ServerConfig where
  serverId : String
  capacity : UInt32
  /-- Shared secret of the peer probes; empty means that none is answered. -/
  clusterSecret : String
deriving DecidableEq

/-- Whether a peer probe carrying `auth` is authorized. -/
def peerAuthenticated (configuredSecret auth : String) : Bool :=
  !configuredSecret.isEmpty && auth == configuredSecret

/-- What becomes of a connection. -/
inductive Classified where
  /-- Routed to the client handler. -/
  | client (hello : ClientHello)
  /-- A probe, answered in place. -/
  | answered (reply : ControlMessage)
  /-- A client whose version is not supported, told so. -/
  | rejected (error : ProtocolError)
  /-- A probe without the secret gets no answer at all. -/
  | refused
  /-- Any other first message is an error. -/
  | failed
deriving DecidableEq

/-- The rejection of a client of another protocol version. -/
def versionMismatch (clientVersion : UInt32) : ProtocolError where
  code := .versionMismatch
  reason :=
    "client protocol version " ++ toString clientVersion ++ " is not supported by this server " ++
      "(supported: " ++ toString minProtocolVersion ++ "..=" ++ toString protocolVersion ++ ")"

/-- Classify a connection by its first control message. -/
def classifyConnection (config : ServerConfig) (activeSessions : UInt32)
    (localTokens : List String) : ControlMessage → Classified
  | .clientHello hello =>
    if versionCompatible hello.version then .client hello
    else .rejected (versionMismatch hello.version)
  | .serverInfoRequest auth =>
    if peerAuthenticated config.clusterSecret auth then
      .answered (.serverInfo ⟨config.serverId, activeSessions, config.capacity⟩)
    else .refused
  | .sessionLookupRequest token auth =>
    if peerAuthenticated config.clusterSecret auth then
      .answered (.sessionLookupResponse ⟨config.serverId, localTokens.contains token⟩)
    else .refused
  | _ => .failed

/-- What a server that asks a peer for a token makes of the reply: the id of the peer if it hosts
the session. -/
def queryPeerForToken : Classified → Option String
  | .answered (.sessionLookupResponse response) =>
    if response.hosts then some response.serverId else none
  | _ => none

/-- With the shared secret, the peer is found if and only if it has published the token. -/
theorem queryPeerForToken_lookup (config : ServerConfig) (activeSessions : UInt32)
    (localTokens : List String) (token : String) (hsecret : config.clusterSecret.isEmpty = false) :
    queryPeerForToken (classifyConnection config activeSessions localTokens
      (.sessionLookupRequest token config.clusterSecret)) =
      if localTokens.contains token then some config.serverId else none := by
  have hauth : peerAuthenticated config.clusterSecret config.clusterSecret = true := by
    simp [peerAuthenticated, hsecret]
  simp only [classifyConnection, hauth, if_true, queryPeerForToken]

end WayRay
