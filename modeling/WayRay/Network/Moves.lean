import Mathlib.Tactic.SplitIfs
import WayRay.Network.ServerLoop

/-!
# The moves of the server loop

`Turn l l'` says what the network thread can do at a time, each constructor with the condition under
which it happens.  A step of the thread is one of them, or changes nothing (`stepThread_turn`).
`run_invariant` is the rule for what every move keeps, together with what the compositor does.
-/

namespace WayRay

namespace ServerLoop

/-- The relay has taken a message off the queue. -/
def taken (l : ServerLoop) (client : RoutedClient) (binding : SessionBinding) (keyframeSeen : Bool)
    (queued : Queued) (rest : List Queued) : ServerLoop :=
  { l with
    phase := .serving client (.relaying binding (keyframeSeen || queued.msg.isKeyframe))
    compositorRx := rest
    written :=
      if client.capabilities.passes keyframeSeen queued.msg then
        l.written ++ [(client.conn, queued)]
      else l.written }

/-- The connection is ended in favour of a newcomer. -/
def handedTo (l : ServerLoop) (client : RoutedClient) (stage : ServeStage)
    (newcomer : RoutedClient) (rest : List RoutedClient) : ServerLoop :=
  { l with
    phase := .serving newcomer .routed
    clientRx := rest
    log := l.log ++ [.preempted client.conn stage.binding? newcomer,
      .sent client.conn .clientDisconnected] }

/-- What can happen to the loop. -/
inductive Turn : ServerLoop → ServerLoop → Prop
  /-- The other end of a channel is dropped. -/
  | ends (l : ServerLoop) (acceptorAlive compositorAlive : Bool) :
    Turn l { l with acceptorAlive, compositorAlive }
  /-- Messages of the compositor are drained while no client is served. -/
  | drain {l : ServerLoop} (hidle : l.phase = .idle) (compositorRx : List Queued) :
    Turn l { l with compositorRx }
  /-- The loop returns while no client is served. -/
  | stop {l : ServerLoop} (hidle : l.phase = .idle) (compositorRx : List Queued) :
    Turn l { l with phase := .stopped, compositorRx }
  /-- The acceptor routes a client. -/
  | route {l : ServerLoop} (hphase : l.phase ≠ .stopped) (hello : ClientHello) (addr : String) :
    Turn l { l with
      clientRx := l.clientRx ++ [⟨l.nextConn, hello, addr⟩], nextConn := l.nextConn + 1 }
  | take {l : ServerLoop} {client : RoutedClient} {rest : List RoutedClient}
      (hidle : l.phase = .idle) (hrx : l.clientRx = client :: rest) :
    Turn l { l with phase := .serving client .routed, clientRx := rest }
  | announce {l : ServerLoop} {client : RoutedClient} (hphase : l.phase = .serving client .routed) :
    Turn l { l.send client.conn (.clientConnected client.hello client.remoteAddr) with
      phase := .serving client (.resolving none) }
  | decided {l : ServerLoop} {client : RoutedClient} {decision : ConnectDecision}
      (hphase : l.phase = .serving client (.resolving (some decision))) :
    Turn l (l.decided client decision)
  | greeted {l : ServerLoop} {client : RoutedClient} {binding : SessionBinding}
      (hphase : l.phase = .serving client (.greeting binding)) :
    Turn l { l with phase := .serving client (.relaying binding false) }
  | relay {l : ServerLoop} {client : RoutedClient} {binding : SessionBinding} {keyframeSeen : Bool}
      {msg : NetToCompositor} (hphase : l.phase = .serving client (.relaying binding keyframeSeen))
      (hmsg : msg.isRelayed = true) :
    Turn l (l.send client.conn msg)
  | command {l : ServerLoop} {client : RoutedClient} {binding : SessionBinding}
      {keyframeSeen : Bool} {queued : Queued} {rest : List Queued}
      (hphase : l.phase = .serving client (.relaying binding keyframeSeen))
      (hrx : l.compositorRx = queued :: rest) :
    Turn l (l.taken client binding keyframeSeen queued rest)
  /-- The message that is taken ends the relay. -/
  | last {l : ServerLoop} {client : RoutedClient} {binding : SessionBinding} {keyframeSeen : Bool}
      {queued : Queued} {rest : List Queued}
      (hphase : l.phase = .serving client (.relaying binding keyframeSeen))
      (hrx : l.compositorRx = queued :: rest) :
    Turn l ((l.taken client binding keyframeSeen queued rest).finish client)
  /-- `serve_client` returns; it has announced the client before. -/
  | finish {l : ServerLoop} {client : RoutedClient} {stage : ServeStage}
      (hphase : l.phase = .serving client stage) (hstage : stage ≠ .routed) :
    Turn l (l.finish client)
  | preempt {l : ServerLoop} {client newcomer : RoutedClient} {stage : ServeStage}
      {rest : List RoutedClient} (hphase : l.phase = .serving client stage)
      (hrx : l.clientRx = newcomer :: rest) :
    Turn l (l.handedTo client stage newcomer rest)
  /-- The acceptor is gone while a client is served. -/
  | abandon {l : ServerLoop} {client : RoutedClient} {stage : ServeStage}
      (hphase : l.phase = .serving client stage) (hrx : l.clientRx = []) :
    Turn l { l.send client.conn .clientDisconnected with phase := .stopped }

/-- One move, or none. -/
def Turn? (l l' : ServerLoop) : Prop := l' = l ∨ Turn l l'

/-! ### The steps are moves -/

variable {l : ServerLoop} {client : RoutedClient}

theorem next_turn (hidle : l.phase = .idle) : Turn? l l.next := by
  unfold next
  split
  · rename_i client rest hrx
    exact .inr (.take hidle hrx)
  · split_ifs
    · exact .inl rfl
    · exact .inr (.stop hidle l.compositorRx)

theorem checkShutdown_turn (hidle : l.phase = .idle) : Turn? l l.checkShutdown := by
  unfold checkShutdown
  split
  · exact .inr (.stop hidle _)
  · exact .inr (.drain hidle _)
  · split_ifs
    · exact .inl rfl
    · exact .inr (.stop hidle l.compositorRx)

theorem pollReply_turn {reply : Option ConnectDecision}
    (hphase : l.phase = .serving client (.resolving reply)) (expired : Bool) :
    Turn? l (l.pollReply client expired reply) := by
  cases reply with
  | some decision => exact .inr (.decided hphase)
  | none =>
    simp only [pollReply]
    split_ifs
    · exact .inr (.finish hphase (by simp))
    · exact .inl rfl

/-- The relay is over once it has taken a shutdown, or a message that could not be written. -/
theorem command_cons {binding : SessionBinding} {keyframeSeen ok : Bool} {queued : Queued}
    {rest : List Queued} (hrx : l.compositorRx = queued :: rest) :
    l.command client binding keyframeSeen ok =
      if queued.msg = .shutdown ∨
          (client.capabilities.passes keyframeSeen queued.msg = true ∧ ok = false) then
        (l.taken client binding keyframeSeen queued rest).finish client
      else l.taken client binding keyframeSeen queued rest := by
  rw [command, hrx]
  rfl

theorem command_turn {binding : SessionBinding} {keyframeSeen : Bool}
    (hphase : l.phase = .serving client (.relaying binding keyframeSeen)) (ok : Bool) :
    Turn? l (l.command client binding keyframeSeen ok) := by
  cases hrx : l.compositorRx with
  | nil =>
    simp only [command, hrx]
    split_ifs
    · exact .inl rfl
    · exact .inr (.finish hphase (by simp))
  | cons queued rest =>
    rw [command_cons hrx]
    split_ifs
    · exact .inr (.last hphase hrx)
    · exact .inr (.command hphase hrx)

theorem preempt_turn {stage : ServeStage} (hphase : l.phase = .serving client stage) :
    Turn? l (l.preempt client stage) := by
  unfold preempt
  split
  · rename_i newcomer rest hrx
    have hturn := Turn.preempt hphase hrx
    exact .inr (by simpa [handedTo, send] using hturn)
  · rename_i hrx
    split_ifs
    · exact .inl rfl
    · exact .inr (.abandon hphase hrx)

theorem serve_turn {stage : ServeStage} (hphase : l.phase = .serving client stage)
    (e : ThreadEvent) : Turn? l (l.serve client stage e) := by
  unfold serve
  split
  · exact .inr (.announce hphase)
  · exact pollReply_turn hphase _
  · exact .inr (.finish hphase (by simp))
  · exact .inr (.finish hphase (by simp))
  · exact .inr (.greeted hphase)
  · exact .inr (.finish hphase (by simp))
  · exact .inr (.finish hphase (by simp))
  · exact .inr (.relay hphase rfl)
  · exact .inr (.relay hphase rfl)
  · exact command_turn hphase _
  · exact preempt_turn hphase
  · exact .inl rfl

theorem accept_turn (hphase : l.phase ≠ .stopped) (first : ControlMessage) (addr : String) :
    Turn? l (l.accept first addr) := by
  unfold accept
  split
  · split_ifs
    · exact .inr (.route hphase _ addr)
    · exact .inl rfl
  · exact .inl rfl

/-- **Every step of the thread is a move, or none.** -/
theorem stepThread_turn (l : ServerLoop) (e : ThreadEvent) : Turn? l (l.stepThread e) := by
  unfold stepThread
  split
  · exact accept_turn (by simp [*]) _ _
  · exact accept_turn (by simp [*]) _ _
  · exact .inr (.ends l false l.compositorAlive)
  · exact next_turn ‹_›
  · exact checkShutdown_turn ‹_›
  · exact serve_turn ‹_› _
  · exact .inl rfl

/-- What every move keeps, and every answer and message of the compositor, holds throughout a
run. -/
theorem run_invariant {I : ServerLoop → Prop} (hturn : ∀ {l l'}, I l → Turn l l' → I l')
    (hanswer : ∀ {l} conn decision, I l → I (answer l conn decision))
    (hqueue : ∀ {l} epoch msg, I l → I (queue l epoch msg)) {l : ServerLoop} (h : I l)
    (events : List ServerEvent) : I (l.run events) := by
  refine List.foldlRecOn (motive := I) events _ h fun l hl e _ => ?_
  cases e with
  | thread e =>
    rcases l.stepThread_turn e with hsame | hmove
    · rwa [step, hsame]
    · exact hturn hl hmove
  | queue epoch msg => exact hqueue epoch msg hl
  | answer conn decision => exact hanswer conn decision hl
  | hangUp => exact hturn hl (.ends l l.acceptorAlive false)

/-! ### The log -/

@[simp]
theorem answer_log (conn : ℕ) (decision : ConnectDecision) :
    (l.answer conn decision).log = l.log ++ [.answered conn decision] := rfl

@[simp]
theorem decided_log (decision : ConnectDecision) : (l.decided client decision).log = l.log := by
  cases decision <;> rfl

/-- The log only grows, and only the compositor's answers are entered as answers. -/
theorem turn_log {l' : ServerLoop} (hturn : Turn l l') :
    ∃ entries, l'.log = l.log ++ entries ∧ ∀ conn decision, .answered conn decision ∉ entries := by
  cases hturn with
  | ends _ _ | drain _ _ | stop _ _ | route _ _ _ | take _ _ | greeted _ | command _ _ =>
    exact ⟨[], (List.append_nil _).symm, by simp⟩
  | decided _ => exact ⟨[], by simp, by simp⟩
  | announce _ | relay _ _ | last _ _ | finish _ _ | abandon _ _ => exact ⟨[_], rfl, by simp⟩
  | preempt _ _ => exact ⟨[_, _], rfl, by simp⟩

/-- An answer reaches only the connection that waits for it. -/
theorem answer_phase {conn : ℕ} {decision : ConnectDecision} {stage : ServeStage}
    (h : (l.answer conn decision).phase = .serving client stage) :
    (l.phase = .serving client stage ∧ (stage = .resolving none → client.conn ≠ conn)) ∨
    (l.phase = .serving client (.resolving none) ∧ stage = .resolving (some decision) ∧
      client.conn = conn) := by
  simp only [answer] at h
  split at h
  · rename_i client' hphase
    split_ifs at h with hconn
    · obtain ⟨rfl, rfl⟩ := ServerPhase.serving.inj h
      exact .inr ⟨hphase, rfl, hconn⟩
    · obtain ⟨rfl, rfl⟩ := ServerPhase.serving.inj (hphase.symm.trans h)
      exact .inl ⟨h, fun _ => hconn⟩
  · rename_i hne
    refine .inl ⟨h, fun hstage => ?_⟩
    subst hstage
    exact absurd h (hne client)

theorem turn_nextConn {l' : ServerLoop} (hturn : Turn l l') : l.nextConn ≤ l'.nextConn := by
  cases hturn with
  | route _ _ _ => exact Nat.le_succ _
  | @decided _ decision _ => cases decision <;> exact Nat.le_refl _
  | _ => exact Nat.le_refl _

/-- What a move enters in the log. -/
theorem turn_entry {l' : ServerLoop} (hturn : Turn l l') {entry : LogEntry}
    (hentry : entry ∈ l'.log) :
    entry ∈ l.log ∨
    (∃ client, l.phase = .serving client .routed ∧
      entry = .sent client.conn (.clientConnected client.hello client.remoteAddr)) ∨
    (∃ conn msg, msg.isConnected = false ∧ entry = .sent conn msg) ∨
    ∃ client stage newcomer rest, l.phase = .serving client stage ∧ l.clientRx = newcomer :: rest ∧
      l' = l.handedTo client stage newcomer rest ∧
      entry = .preempted client.conn stage.binding? newcomer := by
  cases hturn with
  | ends _ _ | drain _ _ | stop _ _ | route _ _ _ | take _ _ | greeted _ | command _ _ =>
    exact .inl hentry
  | decided _ => exact .inl (by rwa [decided_log] at hentry)
  | @announce client hphase =>
    refine (List.mem_append.mp hentry).imp_right fun hnew => .inl ⟨client, hphase, ?_⟩
    exact List.mem_singleton.mp hnew
  | @relay client binding keyframeSeen msg hphase hmsg =>
    refine (List.mem_append.mp hentry).imp_right fun hnew => .inr (.inl ⟨client.conn, msg, ?_, ?_⟩)
    · cases msg <;> first | rfl | exact absurd hmsg (by simp [NetToCompositor.isRelayed])
    · exact List.mem_singleton.mp hnew
  | @last client _ _ _ _ _ _ | @finish client _ _ _ | @abandon client _ _ _ =>
    refine (List.mem_append.mp hentry).imp_right fun hnew =>
      .inr (.inl ⟨client.conn, .clientDisconnected, rfl, ?_⟩)
    exact List.mem_singleton.mp hnew
  | @preempt client newcomer stage rest hphase hrx =>
    refine (List.mem_append.mp hentry).imp_right fun hnew => .inr ?_
    rcases List.mem_cons.mp hnew with rfl | hnew
    · exact .inr ⟨client, stage, newcomer, rest, hphase, hrx, rfl, rfl⟩
    · exact .inl ⟨client.conn, .clientDisconnected, rfl, List.mem_singleton.mp hnew⟩

end ServerLoop

end WayRay
