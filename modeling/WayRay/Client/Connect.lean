import WayRay.Client.Candidates
import WayRay.Network.Classify
import WayRay.Protocol.Tls

/-!
# Connecting to a server

How `wrclient` gets a connection: `connect` is one attempt, `connectFollowingRedirects` tries the
candidates in order and follows the redirects of each.

What an attempt meets is a `DialTurn`: what happens on the network and what the server there makes
of the handshake, and what the resolver says while the attempt's answer is handled.  The turns of a
call are an arbitrary sequence, so the servers may answer as they like.  The list of `Attempt`s that
a call leaves behind takes the place of the network.
-/

namespace WayRay

/-! ### One attempt -/

/-- Configuration of one connection. -/
structure ClientConfig (Addr : Type) where
  serverAddr : Addr
  serverName : String
  capabilities : List String
  token : Option String
  expectedFingerprint : Option String
deriving DecidableEq

/-- Errors from a connection attempt. -/
inductive ConnectError where
  /-- The server refused us with a typed error. -/
  | rejected (reason : String) (clientVersion : UInt32)
  | incompatibleServer (serverVersion min max : UInt32)
  | unexpectedMessage (got : ControlMessage)
  /-- Connecting, pinning, or stream I/O failed. -/
  | transport (error : String)
deriving DecidableEq

/-- Whether retrying the same server with the same parameters can never succeed. -/
def ConnectError.isFatal : ConnectError → Bool
  | .rejected _ _ | .incompatibleServer _ _ _ | .unexpectedMessage _ => true
  | .transport _ => false

/-- Outcome of a connection attempt. -/
inductive ConnectOutcome where
  | connected (hello : ServerHello)
  | redirect (serverId addr : String)
deriving DecidableEq

/-- What becomes of the handshake on a connection whose certificate is accepted. -/
inductive HelloReply where
  /-- The control stream cannot be opened, so no hello is sent. -/
  | noStream (error : String)
  /-- The hello cannot be written as a whole, or its answer cannot be read. -/
  | noAnswer (error : String)
  /-- A message arrives; opening the input stream after it may fail. -/
  | answers (msg : ControlMessage) (inputStream : Except String Unit)

/-- What an attempt meets on the network. -/
inductive Reply where
  | unreachable (error : String)
  /-- A server presents a certificate; the pin store may fail to be written. -/
  | presents (fingerprint : String) (persisted : Except String Unit) (reply : HelloReply)

/-- What an attempt meets, and what the resolver says after it. -/
structure DialTurn (Addr : Type) where
  reply : Reply
  dns : Resolver Addr

/-- A connection attempt: its configuration, the hello it sent, and its outcome. -/
structure Attempt (Addr : Type) where
  config : ClientConfig Addr
  sent : Option ClientHello
  result : Except ConnectError ConnectOutcome

/-- The policy that a connection verifies its server's certificate by. -/
def ClientConfig.policy {Addr : Type} [ToString Addr] (config : ClientConfig Addr) : PinPolicy :=
  match config.expectedFingerprint with
  | some fp => .fixed fp
  | none => .tofu (toString config.serverAddr)

/-- The hello of a client. -/
def ClientConfig.hello {Addr : Type} (config : ClientConfig Addr) : ClientHello where
  version := protocolVersion
  capabilities := config.capabilities
  token := config.token

/-- What the client makes of the answer to its hello. -/
def handshake (inputStream : Except String Unit) :
    ControlMessage → Except ConnectError ConnectOutcome
  | .serverHello hello =>
    if versionCompatible hello.version then
      match inputStream with
      | .ok () => .ok (.connected hello)
      | .error e => .error (.transport e)
    else .error (.incompatibleServer hello.version minProtocolVersion protocolVersion)
  | .sessionRedirect serverId addr => .ok (.redirect serverId addr)
  | .protocolError error => .error (.rejected error.reason protocolVersion)
  | other => .error (.unexpectedMessage other)

/-- Connect to a server and perform the handshake. -/
def connect {Addr : Type} [ToString Addr] (config : ClientConfig Addr) (store : PinStore) :
    Reply → Attempt Addr × PinStore
  | .unreachable error => (⟨config, none, .error (.transport error)⟩, store)
  | .presents fingerprint persisted reply =>
    match config.policy.checkPin store fingerprint persisted with
    | (.error error, store) => (⟨config, none, .error (.transport error)⟩, store)
    | (.ok (), store) =>
      match reply with
      | .noStream error => (⟨config, none, .error (.transport error)⟩, store)
      | .noAnswer error => (⟨config, some config.hello, .error (.transport error)⟩, store)
      | .answers msg inputStream =>
        (⟨config, some config.hello, handshake inputStream msg⟩, store)

/-! ### Candidates and redirects -/

/-- Outcome of one (redirect-following) connection attempt. -/
inductive ConnectResult where
  | connected (hello : ServerHello)
  | fatal (error : ConnectError)
  /-- The caller should back off and retry. -/
  | retry
deriving DecidableEq

/-- Where a call stands: the pin store, the attempts made so far, and the last transport error. -/
structure Dialing (Addr : Type) where
  store : PinStore
  attempts : List (Attempt Addr)
  lastError : Option ConnectError

section Dialing

variable {Addr : Type} [DecidableEq Addr] [ToString Addr] (token : Option String)
  (allowed : HashMap Addr (Candidate Addr)) (turns : ℕ → DialTurn Addr)

omit [DecidableEq Addr] [ToString Addr] in
/-- The configuration of a connection to a candidate. -/
def configFor (target : Candidate Addr) : ClientConfig Addr where
  serverAddr := target.addr
  serverName := target.name
  capabilities := [Caps.display, Caps.clipboard, Caps.audio]
  token := token
  expectedFingerprint := target.fingerprint

omit [ToString Addr] in
/-- The trusted server that a redirect leads to, if any. -/
def redirectCandidate (dns : Resolver Addr) (addr : String) : Option (Candidate Addr) :=
  (resolveServerAddr dns addr).bind fun (resolved, _) =>
    (allowed.get resolved).map fun known => ⟨resolved, known.name, known.fingerprint⟩

omit [DecidableEq Addr] in
/-- Make an attempt to connect to a target. -/
def dial (target : Candidate Addr) (d : Dialing Addr) : Attempt Addr × Dialing Addr :=
  let (attempt, store) :=
    connect (configFor token target) d.store (turns d.attempts.length).reply
  (attempt, { d with store := store, attempts := d.attempts ++ [attempt] })

/-- Connect to a target, following up to `hops` redirects; none means to try the next candidate. -/
def followRedirects (hops : ℕ) (target : Candidate Addr) (d : Dialing Addr) :
    Option ConnectResult × Dialing Addr :=
  let dns := (turns d.attempts.length).dns
  match dial token turns target d with
  | (⟨_, _, .ok (.connected hello)⟩, d) => (some (.connected hello), d)
  | (⟨_, _, .ok (.redirect _ addr)⟩, d) =>
    match hops with
    -- the redirect limit is reached
    | 0 => (none, d)
    | hops + 1 =>
      match redirectCandidate allowed dns addr with
      | some known => followRedirects hops known d
      | none => (none, d)
  | (⟨_, _, .error e⟩, d) =>
    -- a typed rejection is not retried anywhere
    if e.isFatal then (some (.fatal e), d) else (none, { d with lastError := some e })

/-- Try the candidates in order. -/
def tryCandidates : List (Candidate Addr) → Dialing Addr → Option ConnectResult × Dialing Addr
  | [], d => (none, d)
  | candidate :: candidates, d =>
    match followRedirects token allowed turns maxRedirects candidate d with
    | (some result, d) => (some result, d)
    | (none, d) => tryCandidates candidates d

/-- Connect to one of the candidate servers, following redirects among the allowed ones. -/
def connectFollowingRedirects (candidates : List (Candidate Addr)) (firstAttempt : Bool)
    (store : PinStore) : ConnectResult × Dialing Addr :=
  match tryCandidates token allowed turns candidates ⟨store, [], none⟩ with
  | (some result, d) => (result, d)
  | (none, d) =>
    (if firstAttempt then
      .fatal (d.lastError.getD (.transport "no candidate servers could be tried"))
    else .retry, d)

end Dialing

/-! ### The reconnect loop -/

/-- A turn of the reconnect loop: what its call meets, and whether the session it ends in, if any,
ends because the render thread is gone. -/
structure Round (Addr : Type) where
  turns : ℕ → DialTurn Addr
  renderThreadClosed : Bool

/-- The attempts of the reconnect loop. -/
def reconnectLoop {Addr : Type} [DecidableEq Addr] [ToString Addr] (token : Option String)
    (candidates : List (Candidate Addr)) :
    (firstAttempt : Bool) → PinStore → List (Round Addr) → List (Attempt Addr)
  | _, _, [] => []
  | firstAttempt, store, round :: rounds =>
    let (result, d) := connectFollowingRedirects token (allowedServers candidates) round.turns
      candidates firstAttempt store
    d.attempts ++
      match result with
      | .connected _ =>
        if round.renderThreadClosed then [] else reconnectLoop token candidates false d.store rounds
      | .fatal _ => []
      | .retry => reconnectLoop token candidates firstAttempt d.store rounds

/-- Every connection attempt of a client from its start on. -/
def clientRun {Addr : Type} [DecidableEq Addr] [ToString Addr] (dns : ℕ → Resolver Addr)
    (load : String → Option ClusterConfig) (args : List String) (storedToken : String)
    (store : PinStore) (rounds : List (Round Addr)) : List (Attempt Addr) :=
  let candidates := parseServerCandidates dns load args
  -- without a candidate the client prints its usage and exits
  if candidates.isEmpty then []
  else reconnectLoop (clientToken args storedToken) candidates true store rounds

end WayRay
