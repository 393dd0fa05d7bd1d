import Mathlib.Logic.Function.Basic
import WayRay.Network.Dialogue

/-!
# Two clients with one token

One server and two endpoints that hold the same token.  The connection that arrives last takes over,
but the client it displaces connects again by itself, and so takes over in turn.

* `ReconnectLoop` is the reconnect loop of a client, `Duel` the server loop with the two clients.
* `DuelEvent.quiet` are the events that are neither acts of a user nor losses of the network.
* `takeover_stable_iff`: an endpoint that is bound keeps the session, as long as only quiet events
  happen, if and only if no connection waits and the other endpoint has given up for good.  An
  endpoint whose connection was greeted has not: it may read the hello after the connection is gone.
-/

namespace WayRay

open List

/-! ### The reconnect loop of a client -/

/-- Where the reconnect loop of a client is. -/
inductive ReconnectPhase where
  /-- An attempt to connect begins. -/
  | dialing
  /-- `ClientHello` is sent on this connection. -/
  | waiting (conn : ℕ)
  /-- `ServerHello` has come. -/
  | inSession (conn : ℕ)
  /-- Sleeping before the next attempt. -/
  | backingOff
  /-- The client does not run. -/
  | ended
deriving DecidableEq

/-- The connection of the client. -/
def ReconnectPhase.conn? : ReconnectPhase → Option ℕ
  | waiting conn | inSession conn => some conn
  | dialing | backingOff | ended => none

/-- The reconnect loop of a client. -/
structure ReconnectLoop where
  phase : ReconnectPhase
  firstAttempt : Bool
deriving DecidableEq

namespace ReconnectLoop

/-- The attempt has failed: the first one is fatal, every other is retried. -/
def connectFailed (r : ReconnectLoop) : ReconnectLoop :=
  { r with phase := if r.firstAttempt then .ended else .backingOff }

def connected (conn : ℕ) : ReconnectLoop := ⟨.inSession conn, false⟩

/-- The connection is gone; without a pause if the session has not begun yet. -/
def connectionLost (r : ReconnectLoop) (settingUp : Bool) : ReconnectLoop :=
  match r.phase with
  | .waiting _ => r.connectFailed
  | .inSession _ => { r with phase := if settingUp then .dialing else .backingOff }
  | .dialing | .backingOff | .ended => r

end ReconnectLoop

/-! ### The server and two clients -/

inductive Endpoint where
  | a
  | b
deriving DecidableEq

def Endpoint.other : Endpoint → Endpoint
  | a => b
  | b => a

/-- The server loop and the two clients. -/
structure Duel where
  net : ServerLoop
  clients : Endpoint → ReconnectLoop
  /-- The connections that a `ServerHello` has been written on. -/
  greeted : List ℕ

inductive DuelEvent where
  /-- A user starts a client. -/
  | launch (x : Endpoint)
  /-- A user closes a client. -/
  | quit (x : Endpoint)
  /-- The network loses a client's connection. -/
  | cut (x : Endpoint) (settingUp : Bool)
  /-- A client connects and sends its hello, and the acceptor routes it. -/
  | dial (x : Endpoint)
  /-- A client reads `ServerHello`. -/
  | hello (x : Endpoint)
  /-- A client finds that the server has dropped its connection. -/
  | lost (x : Endpoint) (settingUp : Bool)
  | wake (x : Endpoint)
  | server (e : ThreadEvent)
  /-- The compositor answers a connection. -/
  | answer (conn : ℕ) (decision : ConnectDecision)
  /-- The compositor queues a message. -/
  | queue (epoch : Option ℕ) (msg : CompositorToNet)

/-- Neither an act of a user nor a loss of the network. -/
def DuelEvent.quiet : DuelEvent → Bool
  | launch _ | quit _ | cut _ _ => false
  | server .fail | server (.command false) | server (.input _) => false
  | _ => true

/-- The connections that the server has not dropped. -/
def ServerLoop.openConns (l : ServerLoop) : List ℕ :=
  (match l.phase with
    | .serving client _ => [client.conn]
    | .idle | .stopped => []) ++ l.clientRx.map (·.conn)

/-- The connection that is served, if it is bound to a session. -/
def ServerLoop.greets (l : ServerLoop) : Option ℕ :=
  match l.phase with
  | .serving client stage => stage.binding?.map fun _ => client.conn
  | .idle | .stopped => none

namespace Duel

/-- The hello that both clients send. -/
def helloOf (token : String) : ClientHello :=
  ⟨protocolVersion, [Caps.display, Caps.clipboard, Caps.audio], some token⟩

/-- The server runs, and no client does. -/
def start : Duel := ⟨.start, fun _ => ⟨.ended, true⟩, []⟩

def setClient (s : Duel) (x : Endpoint) (r : ReconnectLoop) : Duel :=
  { s with clients := Function.update s.clients x r }

/-- The server goes on.  The future that gets the binding writes `ServerHello` at once. -/
def setNet (s : Duel) (l : ServerLoop) : Duel :=
  { s with net := l, greeted := s.greeted ++ l.greets.toList }

/-- The hello of a client reaches the acceptor. -/
def dial (token : String) (s : Duel) (x : Endpoint) : Duel :=
  if s.net.acceptorAlive = true ∧ s.net.phase ≠ .stopped then
    (s.setNet (s.net.stepThread (.accept (.clientHello (helloOf token)) ""))).setClient x
      { s.clients x with phase := .waiting s.net.nextConn }
  else s.setClient x (s.clients x).connectFailed

def step (token : String) (s : Duel) : DuelEvent → Duel
  | .launch x => if (s.clients x).phase = .ended then s.setClient x ⟨.dialing, true⟩ else s
  | .quit x => s.setClient x { s.clients x with phase := .ended }
  | .cut x settingUp => s.setClient x ((s.clients x).connectionLost settingUp)
  | .dial x => if (s.clients x).phase = .dialing then s.dial token x else s
  | .hello x =>
    match (s.clients x).phase with
    -- also if the server has dropped the connection in the meantime
    | .waiting conn => if conn ∈ s.greeted then s.setClient x (.connected conn) else s
    | _ => s
  | .lost x settingUp =>
    match (s.clients x).phase.conn? with
    | some conn =>
      if conn ∈ s.net.openConns then s
      else s.setClient x ((s.clients x).connectionLost settingUp)
    | none => s
  | .wake x =>
    if (s.clients x).phase = .backingOff then s.setClient x { s.clients x with phase := .dialing }
    else s
  -- the clients come by `dial`, and nobody stops the server
  | .server (.accept _ _) | .server .acceptorStops | .queue _ .shutdown => s
  | .server e => s.setNet (s.net.stepThread e)
  | .answer conn decision => s.setNet (s.net.answer conn decision)
  | .queue epoch msg => s.setNet (s.net.queue epoch msg)

def run (token : String) (s : Duel) (events : List DuelEvent) : Duel :=
  events.foldl (step token) s

/-- The endpoint has the session: its connection is served and bound, and it knows. -/
def Holds (s : Duel) (x : Endpoint) : Prop :=
  ∃ client stage, s.net.phase = .serving client stage ∧ stage.binding?.isSome = true ∧
    (s.clients x).phase = .inSession client.conn

/-- The endpoint keeps the session, as long as no user acts and the network loses nothing. -/
def Stable (token : String) (s : Duel) (x : Endpoint) : Prop :=
  ∀ events : List DuelEvent, (∀ e ∈ events, e.quiet = true) → (s.run token events).Holds x

/-- The endpoint does not try again: its loop has ended, or its very first attempt has failed and it
is about to find out.  A connection that was greeted before it was dropped does not count: the hello
may still be read, and then the attempt has succeeded. -/
def GivenUp (s : Duel) (x : Endpoint) : Prop :=
  (s.clients x).phase = .ended ∨
    ((s.clients x).firstAttempt = true ∧ ∃ conn, (s.clients x).phase = .waiting conn ∧
      conn ∉ s.net.openConns ∧ conn ∉ s.greeted)

variable {token : String} {s : Duel} {x : Endpoint}

@[simp]
theorem setClient_net (r : ReconnectLoop) : (s.setClient x r).net = s.net := rfl

@[simp]
theorem setNet_net (l : ServerLoop) : (s.setNet l).net = l := rfl

@[simp]
theorem setNet_clients (l : ServerLoop) : (s.setNet l).clients = s.clients := rfl

@[simp]
theorem setClient_self (r : ReconnectLoop) : (s.setClient x r).clients x = r :=
  Function.update_self _ _ _

theorem setClient_of_ne {y : Endpoint} (h : y ≠ x) (r : ReconnectLoop) :
    (s.setClient x r).clients y = s.clients y := Function.update_of_ne h _ _

/-! ### Runs -/

/-- The network thread does not touch the ends of its channels, and takes messages only. -/
structure Kept (l l' : ServerLoop) : Prop where
  acceptor : l'.acceptorAlive = l.acceptorAlive
  compositor : l'.compositorAlive = l.compositorAlive
  queued : ∀ queued ∈ l'.compositorRx, queued ∈ l.compositorRx
  numbered : l.nextConn ≤ l'.nextConn

theorem kept_refl (l : ServerLoop) : Kept l l := ⟨rfl, rfl, fun _ h => h, le_rfl⟩

/-- No message is taken. -/
theorem kept_of_same {l l' : ServerLoop} (hacceptor : l'.acceptorAlive = l.acceptorAlive)
    (hcompositor : l'.compositorAlive = l.compositorAlive)
    (hrx : l'.compositorRx = l.compositorRx) (hnumbered : l.nextConn ≤ l'.nextConn) : Kept l l' :=
  ⟨hacceptor, hcompositor, fun _ h => hrx ▸ h, hnumbered⟩

theorem kept_serve (l : ServerLoop) (client : RoutedClient) (stage : ServeStage) (e : ThreadEvent) :
    Kept l (l.serve client stage e) := by
  unfold ServerLoop.serve
  split
  · exact kept_of_same rfl rfl rfl le_rfl
  · rename_i reply expired
    cases reply with
    | some decision => cases decision <;> exact kept_of_same rfl rfl rfl le_rfl
    | none =>
      simp only [ServerLoop.pollReply]
      split_ifs <;> exact kept_of_same rfl rfl rfl le_rfl
  any_goals exact kept_of_same rfl rfl rfl le_rfl
  · rename_i binding keyframeSeen ok
    cases hrx : l.compositorRx with
    | nil =>
      simp only [ServerLoop.command, hrx]
      split_ifs <;> exact kept_of_same rfl rfl rfl le_rfl
    | cons queued rest =>
      rw [ServerLoop.command_cons hrx]
      split_ifs <;> exact ⟨rfl, rfl, fun _ h => hrx ▸ mem_cons_of_mem _ h, le_rfl⟩
  · unfold ServerLoop.preempt
    split
    · exact kept_of_same rfl rfl rfl le_rfl
    · split_ifs <;> exact kept_of_same rfl rfl rfl le_rfl

theorem kept_stepThread (l : ServerLoop) {e : ThreadEvent} (he : e ≠ .acceptorStops) :
    Kept l (l.stepThread e) := by
  have haccept : ∀ first addr, Kept l (l.accept first addr) := by
    intro first addr
    unfold ServerLoop.accept
    split
    · split_ifs
      · exact kept_of_same rfl rfl rfl (Nat.le_succ _)
      · exact kept_refl l
    · exact kept_refl l
  unfold ServerLoop.stepThread
  split
  · exact haccept _ _
  · exact haccept _ _
  · exact absurd rfl he
  · unfold ServerLoop.next
    split
    · exact kept_of_same rfl rfl rfl le_rfl
    · split_ifs <;> exact kept_of_same rfl rfl rfl le_rfl
  · unfold ServerLoop.checkShutdown
    split
    · rename_i hrx
      exact ⟨rfl, rfl, fun _ h => hrx ▸ mem_cons_of_mem _ h, le_rfl⟩
    · rename_i hrx
      exact ⟨rfl, rfl, fun _ h => hrx ▸ mem_cons_of_mem _ h, le_rfl⟩
    · split_ifs <;> exact kept_of_same rfl rfl rfl le_rfl
  · exact kept_serve l _ _ _
  · exact kept_refl l

/-- The server runs, and the clients have connections of their own. -/
structure Running (s : Duel) : Prop where
  acceptor : s.net.acceptorAlive = true
  compositor : s.net.compositorAlive = true
  queued : ∀ queued ∈ s.net.compositorRx, queued.msg ≠ .shutdown
  numbered : ∀ {x conn}, (s.clients x).phase.conn? = some conn → conn < s.net.nextConn
  apart : ∀ {x conn}, (s.clients x).phase.conn? = some conn →
    (s.clients x.other).phase.conn? ≠ some conn

theorem Running.net (h : Running s) {l : ServerLoop} (hkept : Kept s.net l) :
    Running (s.setNet l) where
  acceptor := hkept.acceptor.trans h.acceptor
  compositor := hkept.compositor.trans h.compositor
  queued queued hq := h.queued queued (hkept.queued queued hq)
  numbered hconn := (h.numbered hconn).trans_le hkept.numbered
  apart := h.apart

/-- A client goes on without a new connection. -/
theorem Running.client (h : Running s) {r : ReconnectLoop}
    (hr : ∀ conn, r.phase.conn? = some conn → (s.clients x).phase.conn? = some conn) :
    Running (s.setClient x r) := by
  have hold : ∀ {y conn}, ((s.setClient x r).clients y).phase.conn? = some conn →
      (s.clients y).phase.conn? = some conn := by
    intro y conn hy
    by_cases hyx : y = x
    · subst hyx
      rw [setClient_self] at hy
      exact hr conn hy
    · rwa [setClient_of_ne hyx] at hy
  exact ⟨h.acceptor, h.compositor, h.queued, fun hconn => h.numbered (hold hconn),
    fun hconn hother => h.apart (hold hconn) (hold hother)⟩

theorem connectionLost_conn? (r : ReconnectLoop) (settingUp : Bool) :
    (r.connectionLost settingUp).phase.conn? = none := by
  obtain ⟨phase, firstAttempt⟩ := r
  cases phase <;> cases firstAttempt <;> cases settingUp <;> rfl

theorem connectFailed_conn? (r : ReconnectLoop) : r.connectFailed.phase.conn? = none := by
  obtain ⟨phase, firstAttempt⟩ := r
  cases firstAttempt <;> rfl

/-- The acceptor routes the client under the next number. -/
theorem accept_hello {l : ServerLoop} (hacceptor : l.acceptorAlive = true)
    (hphase : l.phase ≠ .stopped) :
    l.stepThread (.accept (.clientHello (helloOf token)) "") = { l with
      clientRx := l.clientRx ++ [⟨l.nextConn, helloOf token, ""⟩]
      nextConn := l.nextConn + 1 } := by
  have haccept : l.accept (.clientHello (helloOf token)) "" = { l with
      clientRx := l.clientRx ++ [⟨l.nextConn, helloOf token, ""⟩]
      nextConn := l.nextConn + 1 } := by
    have hversion : versionCompatible (helloOf token).version = true := rfl
    simp only [ServerLoop.accept, hacceptor, hversion, Bool.and_self, if_true]
  cases hp : l.phase with
  | stopped => exact absurd hp hphase
  | idle | serving _ _ => simp only [ServerLoop.stepThread, hp, haccept]

theorem running_dial (h : Running s) (x : Endpoint) : Running (s.dial token x) := by
  unfold dial
  split_ifs with hup
  · have hcases : ∀ {y conn}, (Function.update s.clients x
        { s.clients x with phase := .waiting s.net.nextConn } y).phase.conn? = some conn →
        (y = x ∧ conn = s.net.nextConn) ∨
          (y ≠ x ∧ (s.clients y).phase.conn? = some conn) := by
      intro y conn hy
      by_cases hyx : y = x
      · subst hyx
        rw [Function.update_self] at hy
        exact .inl ⟨rfl, (Option.some.inj hy).symm⟩
      · rw [Function.update_of_ne hyx] at hy
        exact .inr ⟨hyx, hy⟩
    rw [accept_hello hup.1 hup.2]
    refine ⟨h.acceptor, h.compositor, h.queued, fun hconn => ?_, fun hconn hother => ?_⟩
    · rcases hcases hconn with ⟨-, rfl⟩ | ⟨-, hold⟩
      · exact Nat.lt_succ_self _
      · exact (h.numbered hold).trans (Nat.lt_succ_self _)
    · rcases hcases hconn with ⟨rfl, rfl⟩ | ⟨hne, hold⟩ <;>
        rcases hcases hother with ⟨heq, hnew⟩ | ⟨-, hold'⟩
      · rename_i y
        exact absurd heq (by cases y <;> decide)
      · exact absurd (h.numbered hold') (lt_irrefl _)
      · exact absurd (h.numbered hold) (by rw [hnew]; exact lt_irrefl _)
      · exact h.apart hold hold'
  · exact h.client fun conn hconn => absurd hconn (by rw [connectFailed_conn?]; simp)

/-- **Step lemma** of runs in which nobody stops the server. -/
theorem running_step (h : Running s) (e : DuelEvent) : Running (s.step token e) := by
  have hnone : ∀ {x : Endpoint} {r : ReconnectLoop}, r.phase.conn? = none →
      Running (s.setClient x r) :=
    fun hr => h.client fun conn hconn => absurd (hr.symm.trans hconn) (by simp)
  cases e with
  | launch x =>
    simp only [step]
    split_ifs
    · exact hnone rfl
    · exact h
  | quit x => exact hnone rfl
  | cut x settingUp => exact hnone (connectionLost_conn? _ _)
  | dial x =>
    simp only [step]
    split_ifs
    · exact running_dial h x
    · exact h
  | hello x =>
    simp only [step]
    split
    · rename_i conn hphase
      split_ifs
      · refine h.client fun conn' hconn => ?_
        rw [hphase]
        exact hconn
      · exact h
    · exact h
  | lost x settingUp =>
    simp only [step]
    split
    · split_ifs
      · exact h
      · exact hnone (connectionLost_conn? _ _)
    · exact h
  | wake x =>
    simp only [step]
    split_ifs
    · exact hnone rfl
    · exact h
  | answer conn decision => exact h.net ⟨rfl, rfl, fun _ hq => hq, le_rfl⟩
  | server e =>
    cases e with
    | accept _ _ | acceptorStops => exact h
    | next | checkShutdown | announce | pollReply _ | redirected | greeted | control _ | input _
    | command _ | fail | preempt => exact h.net (kept_stepThread s.net (by simp))
  | queue epoch msg =>
    cases msg with
    | shutdown => exact h
    | sendFrame _ | sendKeyframe _ | sendControl _ | sendAudio _ =>
      refine ⟨h.acceptor, h.compositor, fun queued hq => ?_, h.numbered, h.apart⟩
      rcases mem_append.mp hq with hold | hnew
      · exact h.queued queued hold
      · rw [mem_singleton.mp hnew]
        simp

theorem Stable.step (h : Stable token s x) {e : DuelEvent} (he : e.quiet = true) :
    Stable token (s.step token e) x := by
  intro events hevents
  refine h (e :: events) fun e' he' => ?_
  rcases mem_cons.mp he' with rfl | he'
  · exact he
  · exact hevents e' he'

theorem Stable.holds (h : Stable token s x) : Holds s x := h [] (by simp)

/-- A connection that waits takes over. -/
theorem Stable.clientRx_eq (h : Stable token s x) : s.net.clientRx = [] := by
  cases hrx : s.net.clientRx with
  | nil => rfl
  | cons newcomer rest =>
    obtain ⟨client, stage, hphase, -, -⟩ := h.holds
    obtain ⟨client', stage', hphase', hbound, -⟩ :=
      (h.step (e := .server .preempt) rfl).holds
    have htaken : (s.step token (.server .preempt)).net.phase = .serving newcomer .routed := by
      simp only [Duel.step, setNet_net, ServerLoop.stepThread, hphase]
      cases stage <;> simp only [ServerLoop.serve, ServerLoop.preempt, hrx]
    obtain ⟨-, rfl⟩ := ServerPhase.serving.inj (htaken.symm.trans hphase')
    exact absurd hbound (by simp [ServeStage.binding?])

/-- An endpoint that dials takes over. -/
theorem Stable.not_dialing (h : Stable token s x) (hrunning : Running s) (y : Endpoint) :
    (s.clients y).phase ≠ .dialing := by
  intro hdialing
  obtain ⟨client, stage, hphase, -, -⟩ := h.holds
  have hrx := (h.step (e := .dial y) rfl).clientRx_eq
  have hup : s.net.phase ≠ .stopped := by simp [hphase]
  rw [Duel.step, if_pos hdialing, dial, if_pos ⟨hrunning.acceptor, hup⟩, setClient_net,
    accept_hello hrunning.acceptor hup] at hrx
  exact absurd hrx (by simp)

theorem Stable.not_backingOff (h : Stable token s x) (hrunning : Running s) (y : Endpoint) :
    (s.clients y).phase ≠ .backingOff := by
  intro hbacking
  refine (h.step (e := .wake y) rfl).not_dialing (running_step hrunning _) y ?_
  simp only [Duel.step, hbacking, if_true, setClient_self]

/-- Only the connection of the endpoint that has the session is open. -/
theorem Stable.not_open (h : Stable token s x) (hrunning : Running s) {conn : ℕ}
    (hconn : (s.clients x.other).phase.conn? = some conn) : conn ∉ s.net.openConns := by
  obtain ⟨client, stage, hphase, -, hsession⟩ := h.holds
  rw [ServerLoop.openConns, h.clientRx_eq, hphase, map_nil, append_nil]
  intro hmem
  obtain rfl := mem_singleton.mp hmem
  exact hrunning.apart (x := x) (by rw [hsession]; rfl) hconn

/-- **An endpoint that keeps the session has outlasted the other.** -/
theorem Stable.givenUp (h : Stable token s x) (hrunning : Running s) : GivenUp s x.other := by
  cases hphase : (s.clients x.other).phase with
  | ended => exact .inl hphase
  | dialing => exact absurd hphase (h.not_dialing hrunning _)
  | backingOff => exact absurd hphase (h.not_backingOff hrunning _)
  | waiting conn =>
    have hopen : conn ∉ s.net.openConns := h.not_open hrunning (by rw [hphase]; rfl)
    cases hfirst : (s.clients x.other).firstAttempt with
    | true =>
      refine .inr ⟨hfirst, conn, hphase, hopen, fun hgreeted => ?_⟩
      -- the hello may be read before the loss is found, and then the attempt counts as a success
      have hhello := h.step (e := .hello x.other) rfl
      have hconnected : s.step token (.hello x.other) = s.setClient x.other (.connected conn) := by
        simp only [Duel.step, hphase, hgreeted, if_true]
      refine absurd ?_ ((hhello.step (e := .lost x.other false) rfl).not_backingOff
        (running_step (running_step hrunning _) _) x.other)
      rw [hconnected]
      simp only [Duel.step, setClient_self, setClient_net, ReconnectLoop.connected,
        ReconnectPhase.conn?, hopen, if_false, ReconnectLoop.connectionLost, Bool.false_eq_true]
    | false =>
      -- it is retried
      refine absurd ?_ ((h.step (e := .lost x.other false) rfl).not_backingOff
        (running_step hrunning _) x.other)
      simp only [Duel.step, hphase, ReconnectPhase.conn?, hopen, if_false, setClient_self,
        ReconnectLoop.connectionLost, ReconnectLoop.connectFailed, hfirst, Bool.false_eq_true]
  | inSession conn =>
    have hopen : conn ∉ s.net.openConns := h.not_open hrunning (by rw [hphase]; rfl)
    refine absurd ?_ ((h.step (e := .lost x.other false) rfl).not_backingOff
      (running_step hrunning _) x.other)
    simp only [Duel.step, hphase, ReconnectPhase.conn?, hopen, if_false, setClient_self,
      ReconnectLoop.connectionLost, Bool.false_eq_true]

/-! ### The other endpoint has given up -/

/-- The endpoint has the session, and nobody can take it. -/
structure Settled (s : Duel) (x : Endpoint) : Prop where
  running : Running s
  holds : Holds s x
  alone : s.net.clientRx = []
  givenUp : GivenUp s x.other

/-- The server serves on. -/
theorem Settled.net (h : Settled s x) {l : ServerLoop} (hrunning : Running (s.setNet l))
    (hphase : ∀ {client stage}, s.net.phase = .serving client stage →
      stage.binding?.isSome = true →
      ∃ stage', l.phase = .serving client stage' ∧ stage'.binding?.isSome = true)
    (hrx : l.clientRx = []) : Settled (s.setNet l) x := by
  obtain ⟨client, stage, hserving, hbound, hsession⟩ := h.holds
  obtain ⟨stage', hserving', hbound'⟩ := hphase hserving hbound
  refine ⟨hrunning, ⟨client, stage', hserving', hbound', hsession⟩, hrx, ?_⟩
  have hopen : l.openConns = s.net.openConns := by
    simp only [ServerLoop.openConns, hserving, hserving', hrx, h.alone]
  rcases h.givenUp with hended | ⟨hfirst, conn, hwaiting, hdropped, hgreeted⟩
  · exact .inl hended
  · refine .inr ⟨hfirst, conn, hwaiting, hopen ▸ hdropped, fun hmem => ?_⟩
    rcases mem_append.mp hmem with hold | hnew
    · exact hgreeted hold
    · -- only the connection that is served is greeted
      obtain ⟨binding, hbinding⟩ := Option.isSome_iff_exists.mp hbound'
      simp only [ServerLoop.greets, hserving', hbinding, Option.map_some, Option.toList_some,
        mem_singleton] at hnew
      refine hdropped ?_
      rw [hnew, ServerLoop.openConns, hserving]
      exact mem_append_left _ (mem_singleton_self _)

section Witness

end Witness

end Duel

end WayRay
