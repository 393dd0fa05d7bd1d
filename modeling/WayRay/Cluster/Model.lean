import Mathlib.Logic.Function.Basic
import WayRay.Headless.Lifetimes
import WayRay.Network.Classify

/-!
# A cluster

Servers that share one configuration and one time.  Each has a compositor, which handles one event
after the other, and a network thread, which answers the probes of the other servers from what the
compositor has published, also while the compositor is busy.

* A connect is not one step: while the compositor looks for the home of a session it asks its peers
  one by one (`Lookup`), and the other servers go on.
* `ClusterEvent` are the steps of the servers, in any order; within a step the clock stands still.
* What a step does to one server is a function on `Node`.
-/

namespace WayRay

open SessionRegistry

/-! ### Configuration -/

/-- What the configurations of all servers agree on: distinct ids and addresses, and a secret. -/
structure ClusterSetup where
  servers : List ServerEntry
  clusterSecret : String
  nodup_ids : (servers.map (·.id)).Nodup
  nodup_addrs : (servers.map (·.addr)).Nodup
  secret_ne : clusterSecret.isEmpty = false

namespace ClusterSetup

/-- The configuration of one server. -/
def config (c : ClusterSetup) (id : String) : ClusterConfig := ⟨id, c.clusterSecret, c.servers⟩

def ids (c : ClusterSetup) : List String := c.servers.map (·.id)

end ClusterSetup

/-- What a server is started with. -/
structure Host (S : Type) where
  state : S
  frame : FrameState
  launcherLinked : Bool
  stateDb : Option SessionTable
  find : Enumeration (SessionId × SessionRecord)

/-! ### One server -/

def ProbeOutcome.isAnswered {α : Type} : ProbeOutcome α → Bool
  | answered _ => true
  | budgetExhausted | invalidAddr | noAnswer => false

/-- A connect that the compositor is handling, with the answers of the peers asked so far. -/
structure Lookup where
  hello : ClientHello
  remoteAddr : String
  /-- The token of a client that brings none. -/
  randomToken : String
  locatedAt : Clock
  answers : List (ProbeOutcome String)
  /-- When the last answer was given. -/
  answeredAt : Instant

namespace Lookup

def token (l : Lookup) : SessionToken := ⟨l.hello.token.getD l.randomToken⟩

/-- A peer has said that it hosts the session. -/
def found (l : Lookup) : Bool := l.answers.any (·.isAnswered)

/-- What the compositor has observed when it is done; the probe budget has run out before the turn
of the peers that it has not asked. -/
def surroundings (l : Lookup) (clk : Clock) (infoProbe : ℕ → ProbeOutcome ServerInfoMsg) :
    Surroundings where
  locatedAt := l.locatedAt
  notedAt := clk
  createdAt := clk
  activatedAt := clk
  suspendedAt := clk
  randomToken := l.randomToken
  tokenProbe := fun index => (l.answers[index]?).getD .budgetExhausted
  infoProbe := infoProbe

end Lookup

/-- What happens in the main loop of one server, apart from a client that connects. -/
inductive LocalEvent (S : Type) where
  | input (msg : InputMessage)
  | control (msg : ControlMessage)
  | clientDisconnected
  | netClosed
  | cleanup
  | turn (state : S) (frame : FrameState)

namespace LocalEvent

variable {S : Type}

/-- Every reading of the clock is the same. -/
def surroundings (clk : Clock) : Surroundings :=
  ⟨clk, clk, clk, clk, clk, "", fun _ => .noAnswer, fun _ => .noAnswer⟩

def toLoopEvent (clk : Clock) : LocalEvent S → LoopEvent S
  | input msg => .net (surroundings clk) (.input msg)
  | control msg => .net (surroundings clk) (.control msg)
  | clientDisconnected => .net (surroundings clk) .clientDisconnected
  | netClosed => .netClosed
  | cleanup => .cleanup clk clk
  | turn state frame => .turn state frame

/-- The state of the automaton of the event language afterwards. -/
def begun (b : Bool) : LocalEvent S → Bool
  | input _ | control _ => true
  | clientDisconnected => false
  | netClosed | cleanup | turn _ _ => b

end LocalEvent

/-- A server of the cluster. -/
structure Node (S : Type) where
  data : CalloopData S
  /-- The network thread has begun a connection and not closed it. -/
  begun : Bool
  lookup : Option Lookup

namespace Node

variable {S : Type}

/-- The configuration of the network thread. -/
def serverConfig (n : Node S) : ServerConfig :=
  ⟨n.data.cluster.localId, UInt32.ofNat defaultCapacity, n.data.cluster.clusterSecret⟩

/-- What a server that asks this one for a token is told. -/
def answer (n : Node S) (token auth : String) : ProbeOutcome String :=
  match queryPeerForToken (classifyConnection n.serverConfig (UInt32.ofNat n.data.activeSessions)
      n.data.localTokens (.sessionLookupRequest token auth)) with
  | some serverId => .answered serverId
  | none => .noAnswer

/-- The network thread announces a client; it has closed the connection before. -/
def announce (n : Node S) (clk : Clock) (hello : ClientHello) (remoteAddr randomToken : String) :
    Node S :=
  if n.begun = false ∧ n.lookup.isNone = true then
    { n with begun := true, lookup := some ⟨hello, remoteAddr, randomToken, clk, [], clk.now⟩ }
  else n

/-- The token is not known on this server, so that its peers are asked. -/
def Searches (n : Node S) (l : Lookup) : Prop :=
  n.data.sessionRegistry.locate l.locatedAt l.token = .unknown ∧ n.data.peerRt = true

instance (n : Node S) (l : Lookup) : Decidable (n.Searches l) :=
  inferInstanceAs (Decidable (_ ∧ _))

/-- The peer whose turn it is; none if the token is known, a peer has it or all have been asked. -/
def nextPeer (n : Node S) : Option ServerEntry :=
  n.lookup.bind fun l =>
    if n.Searches l ∧ l.found = false then n.data.cluster.peers[l.answers.length]? else none

def hear (n : Node S) (clk : Clock) (outcome : ProbeOutcome String) : Node S :=
  { n with
    lookup := n.lookup.map fun l =>
      { l with answers := l.answers ++ [outcome], answeredAt := clk.now } }

/-- The client is answered. -/
def finish (desktop : Desktop S) (n : Node S) (clk : Clock)
    (infoProbe : ℕ → ProbeOutcome ServerInfoMsg) : Option ConnectDecision × Node S :=
  match n.lookup with
  | none => (none, n)
  | some l =>
    let (reply, data) := CalloopData.drainEvent desktop n.data (l.surroundings clk infoProbe)
      (.clientConnected l.hello l.remoteAddr)
    (reply, { n with data := data, lookup := none })

/-- The main loop goes on, unless it is busy with a connect. -/
def loop (desktop : Desktop S) (n : Node S) (clk : Clock) (e : LocalEvent S) : Node S :=
  if n.lookup.isNone = true then
    { n with data := n.data.applyEvent desktop (e.toLoopEvent clk), begun := e.begun n.begun }
  else n

end Node

/-! ### The servers together -/

structure Cluster (S : Type) where
  nodes : String → Node S
  clock : Clock

inductive ClusterEvent (S : Type) where
  /-- Time passes. -/
  | elapse (clk : Clock)
  | announce (i : String) (hello : ClientHello) (remoteAddr randomToken : String)
  /-- The server asks the peer whose turn it is. -/
  | ask (i : String)
  | finish (i : String) (infoProbe : ℕ → ProbeOutcome ServerInfoMsg)
  | loop (i : String) (e : LocalEvent S)

namespace Cluster

variable {S : Type}

/-- The servers enter their main loops. -/
def start (c : ClusterSetup) (hosts : String → Host S) (clk : Clock) : Cluster S where
  nodes i :=
    { data := CalloopData.boot (hosts i).state (hosts i).frame (c.config i)
        (c.config i).isClustered (hosts i).launcherLinked (hosts i).stateDb clk (hosts i).find
      begun := false
      lookup := none }
  clock := clk

def set (s : Cluster S) (i : String) (n : Node S) : Cluster S :=
  { s with nodes := Function.update s.nodes i n }

def step (desktop : Desktop S) (s : Cluster S) : ClusterEvent S → Cluster S
  | .elapse clk => if s.clock.now ≤ clk.now then { s with clock := clk } else s
  | .announce i hello remoteAddr randomToken =>
    s.set i ((s.nodes i).announce s.clock hello remoteAddr randomToken)
  | .ask i =>
    match (s.nodes i).lookup, (s.nodes i).nextPeer with
    | some l, some peer =>
      s.set i ((s.nodes i).hear s.clock
        ((s.nodes peer.id).answer l.token.str (s.nodes i).data.cluster.clusterSecret))
    | _, _ => s
  | .finish i infoProbe => s.set i ((s.nodes i).finish desktop s.clock infoProbe).2
  | .loop i e => s.set i ((s.nodes i).loop desktop s.clock e)

def run (desktop : Desktop S) (s : Cluster S) (events : List (ClusterEvent S)) : Cluster S :=
  events.foldl (step desktop) s

variable {s : Cluster S} {i j : String} {n : Node S}

@[simp]
theorem set_clock : (s.set i n).clock = s.clock := rfl

@[simp]
theorem set_self : (s.set i n).nodes i = n := Function.update_self _ _ _

theorem set_of_ne (h : j ≠ i) : (s.set i n).nodes j = s.nodes j := Function.update_of_ne h _ _

/-- What holds of every server holds of every server when one has changed. -/
theorem forall_set {c : ClusterSetup} {P : String → Node S → Prop}
    (h : ∀ j ∈ c.ids, P j (s.nodes j)) (hn : i ∈ c.ids → P i n) :
    ∀ j ∈ c.ids, P j ((s.set i n).nodes j) := by
  intro j hj
  by_cases hji : j = i
  · subst hji
    rw [set_self]
    exact hn hj
  · rw [set_of_ne hji]
    exact h j hj

end Cluster

end WayRay
