import WayRay.Network.Classify

/-!
# The server loop

`server_loop` serves the clients that the acceptor routes to it, one at a time: while it is idle it
waits for the next client or a shutdown, and while it serves one it lets a newcomer take over.

* `ServerPhase` is where the loop is, `ServeStage` how far `serve_client` has come with a client.
* `ServerLoop` is its state: the channel from the acceptor, the channel from the compositor, and the
  log of what has been sent to the compositor and what it has answered.
* `ThreadEvent` is what the network thread does next, in whatever order its `select!`s poll their
  branches; `ServerEvent` adds what the compositor does to the channels.

The relay of a connection is modelled message by message here; its streams are those of `Relay`.
A message of the compositor is kept with the connection whose `ClientConnected` the compositor had
handled last when it queued it.
-/

namespace WayRay

/-- A client connection routed to the client handler. -/
structure RoutedClient where
  /-- Connections are numbered as they are routed. -/
  conn : ℕ
  hello : ClientHello
  remoteAddr : String
deriving DecidableEq

/-- How far `serve_client` has come. -/
inductive ServeStage where
  /-- The future has not been polled yet. -/
  | routed
  /-- `ClientConnected` is sent; the compositor's reply, once it is there. -/
  | resolving (reply : Option ConnectDecision)
  /-- The client is told to go elsewhere. -/
  | redirecting
  /-- `ServerHello` is sent and the streams are opened. -/
  | greeting (binding : SessionBinding)
  /-- The relay loop. -/
  | relaying (binding : SessionBinding) (keyframeSeen : Bool)
deriving DecidableEq

/-- The session a connection is bound to. -/
def ServeStage.binding? : ServeStage → Option SessionBinding
  | greeting binding | relaying binding _ => some binding
  | routed | resolving _ | redirecting => none

/-- Where the loop is. -/
inductive ServerPhase where
  | idle
  | serving (client : RoutedClient) (stage : ServeStage)
  /-- `server_loop` has returned. -/
  | stopped
deriving DecidableEq

/-- What the two threads have told each other about connections. -/
inductive LogEntry where
  | sent (conn : ℕ) (msg : NetToCompositor)
  | answered (conn : ℕ) (decision : ConnectDecision)
  /-- The connection is ended in favour of a newcomer. -/
  | preempted (conn : ℕ) (binding : Option SessionBinding) (newcomer : RoutedClient)
deriving DecidableEq

/-- What an entry says to the compositor. -/
def LogEntry.sent? : LogEntry → Option (ℕ × NetToCompositor)
  | sent conn msg => some (conn, msg)
  | answered _ _ | preempted _ _ _ => none

/-- A message of the compositor, with the connection it had handled `ClientConnected` of last. -/
structure Queued where
  epoch : Option ℕ
  msg : CompositorToNet
deriving DecidableEq

/-- State of the network thread. -/
structure ServerLoop where
  phase : ServerPhase
  /-- Clients routed and not yet taken. -/
  clientRx : List RoutedClient
  acceptorAlive : Bool
  nextConn : ℕ
  /-- Messages of the compositor not yet taken. -/
  compositorRx : List Queued
  /-- The compositor's ends of the channels are there. -/
  compositorAlive : Bool
  log : List LogEntry
  /-- The messages of the compositor written so far, with the connection they were written on. -/
  written : List (ℕ × Queued)
deriving DecidableEq

/-- What the network thread does. -/
inductive ThreadEvent where
  /-- The acceptor reads the first message of a connection. -/
  | accept (first : ControlMessage) (remoteAddr : String)
  | acceptorStops
  /-- Idle: `client_rx.recv()`. -/
  | next
  /-- Idle: `check_shutdown_async` takes the next message. -/
  | checkShutdown
  /-- `serve_client` is polled for the first time. -/
  | announce
  /-- The reply channel is polled; `expired` if the deadline has passed. -/
  | pollReply (expired : Bool)
  /-- `SessionRedirect` is written, or could not be. -/
  | redirected
  | greeted
  | control (msg : ControlMessage)
  | input (msg : InputMessage)
  /-- `check_compositor_commands` takes the next message; `ok` if it can be written. -/
  | command (ok : Bool)
  /-- A stream or connection error ends `serve_client`. -/
  | fail
  /-- Serving: `client_rx.recv()`. -/
  | preempt
deriving DecidableEq

/-- What the network thread or the compositor does. -/
inductive ServerEvent where
  | thread (e : ThreadEvent)
  /-- The compositor queues a message. -/
  | queue (epoch : Option ℕ) (msg : CompositorToNet)
  /-- The compositor answers a connection. -/
  | answer (conn : ℕ) (decision : ConnectDecision)
  /-- The compositor's ends of the channels are dropped. -/
  | hangUp
deriving DecidableEq

/-! ### Forwarding -/

/-- Whether a connection writes a message of the compositor to one of its streams. -/
def ClientCapabilities.passes (capabilities : ClientCapabilities) (keyframeSeen : Bool) :
    CompositorToNet → Bool
  -- before the keyframe of the connection, a frame is stale
  | .sendFrame _ => keyframeSeen && capabilities.display
  | .sendKeyframe _ => capabilities.display
  | .sendControl msg => !(msg.isClipboard && !capabilities.clipboard)
  | .sendAudio _ => capabilities.audio
  | .shutdown => false

/-- The capabilities that a client advertised. -/
def RoutedClient.capabilities (client : RoutedClient) : ClientCapabilities :=
  .fromAdvertised client.hello.capabilities

namespace ServerLoop

/-- The loop at its start. -/
def start : ServerLoop where
  phase := .idle
  clientRx := []
  acceptorAlive := true
  nextConn := 0
  compositorRx := []
  compositorAlive := true
  log := []
  written := []

def send (l : ServerLoop) (conn : ℕ) (msg : NetToCompositor) : ServerLoop :=
  { l with log := l.log ++ [.sent conn msg] }

/-- `serve_client` has returned: the loop waits for the next client. -/
def finish (l : ServerLoop) (client : RoutedClient) : ServerLoop :=
  { l.send client.conn .clientDisconnected with phase := .idle }

/-! ### Idle -/

/-- Idle: a routed client is taken; without an acceptor the loop ends. -/
def next (l : ServerLoop) : ServerLoop :=
  match l.clientRx with
  | client :: rest => { l with phase := .serving client .routed, clientRx := rest }
  | [] => if l.acceptorAlive then l else { l with phase := .stopped }

/-- Idle: messages are drained up to a shutdown. -/
def checkShutdown (l : ServerLoop) : ServerLoop :=
  match l.compositorRx with
  | ⟨_, .shutdown⟩ :: rest => { l with phase := .stopped, compositorRx := rest }
  | _ :: rest => { l with compositorRx := rest }
  | [] => if l.compositorAlive then l else { l with phase := .stopped }

/-! ### Serving -/

/-- The compositor's decision has come. -/
def decided (l : ServerLoop) (client : RoutedClient) : ConnectDecision → ServerLoop
  | .bind binding => { l with phase := .serving client (.greeting binding) }
  | .redirect _ _ => { l with phase := .serving client .redirecting }

/-- The reply channel is polled.  A reply that is there counts even after the deadline. -/
def pollReply (l : ServerLoop) (client : RoutedClient) (expired : Bool) :
    Option ConnectDecision → ServerLoop
  | some decision => l.decided client decision
  | none => if expired || !l.compositorAlive then l.finish client else l

/-- The relay takes the next message of the compositor. -/
def command (l : ServerLoop) (client : RoutedClient) (binding : SessionBinding)
    (keyframeSeen ok : Bool) : ServerLoop :=
  match l.compositorRx with
  | [] => if l.compositorAlive then l else l.finish client
  | queued :: rest =>
    let passes := client.capabilities.passes keyframeSeen queued.msg
    let l :=
      { l with
        phase := .serving client (.relaying binding (keyframeSeen || queued.msg.isKeyframe))
        compositorRx := rest
        written := if passes then l.written ++ [(client.conn, queued)] else l.written }
    -- `serve_client` returns alike for a shutdown and for a failed write
    if queued.msg = .shutdown ∨ (passes = true ∧ ok = false) then l.finish client else l

/-- A routed client takes over; the future that served the other one is dropped. -/
def preempt (l : ServerLoop) (client : RoutedClient) (stage : ServeStage) : ServerLoop :=
  match l.clientRx with
  | newcomer :: rest =>
    let l := { l with log := l.log ++ [LogEntry.preempted client.conn stage.binding? newcomer] }
    -- whatever token the newcomer brings
    { l.send client.conn .clientDisconnected with
      phase := .serving newcomer .routed, clientRx := rest }
  | [] =>
    if l.acceptorAlive then l
    else { l.send client.conn .clientDisconnected with phase := .stopped }

/-- One step of `serve_client`. -/
def serve (l : ServerLoop) (client : RoutedClient) : ServeStage → ThreadEvent → ServerLoop
  | .routed, .announce =>
    { l.send client.conn (.clientConnected client.hello client.remoteAddr) with
      phase := .serving client (.resolving none) }
  | .resolving reply, .pollReply expired => l.pollReply client expired reply
  | .redirecting, .redirected | .redirecting, .fail => l.finish client
  | .greeting binding, .greeted => { l with phase := .serving client (.relaying binding false) }
  | .greeting _, .fail | .relaying _ _, .fail => l.finish client
  | .relaying _ _, .control msg => l.send client.conn (.control msg)
  | .relaying _ _, .input msg => l.send client.conn (.input msg)
  | .relaying binding keyframeSeen, .command ok => l.command client binding keyframeSeen ok
  | stage, .preempt => l.preempt client stage
  | _, _ => l

/-! ### Steps and runs -/

/-- The acceptor classifies a connection; the probes it answers do not concern the loop. -/
def accept (l : ServerLoop) (first : ControlMessage) (remoteAddr : String) : ServerLoop :=
  match first with
  | .clientHello hello =>
    -- an incompatible client is turned away before it is routed
    if l.acceptorAlive && versionCompatible hello.version then
      { l with
        clientRx := l.clientRx ++ [⟨l.nextConn, hello, remoteAddr⟩], nextConn := l.nextConn + 1 }
    else l
  | _ => l

/-- One step of the network thread. -/
def stepThread (l : ServerLoop) (e : ThreadEvent) : ServerLoop :=
  match e, l.phase with
  | .accept first remoteAddr, .idle | .accept first remoteAddr, .serving _ _ =>
    l.accept first remoteAddr
  | .acceptorStops, _ => { l with acceptorAlive := false }
  | .next, .idle => l.next
  | .checkShutdown, .idle => l.checkShutdown
  | e, .serving client stage => l.serve client stage e
  | _, _ => l

/-- The compositor queues a message. -/
def queue (l : ServerLoop) (epoch : Option ℕ) (msg : CompositorToNet) : ServerLoop :=
  { l with compositorRx := l.compositorRx ++ [⟨epoch, msg⟩] }

/-- The compositor's answer reaches the connection if that still waits for it. -/
def answer (l : ServerLoop) (conn : ℕ) (decision : ConnectDecision) : ServerLoop :=
  { l with
    log := l.log ++ [.answered conn decision]
    phase :=
      match l.phase with
      | .serving client (.resolving none) =>
        if client.conn = conn then .serving client (.resolving (some decision)) else l.phase
      | phase => phase }

def step (l : ServerLoop) : ServerEvent → ServerLoop
  | .thread e => l.stepThread e
  | .queue epoch msg => l.queue epoch msg
  | .answer conn decision => l.answer conn decision
  | .hangUp => { l with compositorAlive := false }

def run (l : ServerLoop) (events : List ServerEvent) : ServerLoop := events.foldl step l

/-- The events sent to the compositor, each with its connection. -/
def sent (l : ServerLoop) : List (ℕ × NetToCompositor) := l.log.filterMap LogEntry.sent?

end ServerLoop

end WayRay
