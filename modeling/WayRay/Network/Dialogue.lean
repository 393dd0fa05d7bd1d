import WayRay.Network.EventLanguage
import WayRay.Network.Moves

/-!
# The server loop speaks the event language

Whatever happens to the network thread, what it tells the compositor is the beginning of a word of
`eventLanguage`, and a message of a client is passed on only after the compositor has bound the
client's connection (`sent_in_language`).

`talk` is the automaton of the language with the connection numbers: it knows the connection that is
announced.  `Spoken` is the invariant of the loop, which ties where the loop is to the state of the
automaton and to the compositor's answer; `spoken_turn` is its step lemma.
-/

namespace WayRay

open List

/-- The connection that is announced to the compositor. -/
def ServerPhase.announced : ServerPhase → Option ℕ
  | idle | stopped | serving _ .routed => none
  | serving client (.resolving _) | serving client .redirecting | serving client (.greeting _)
  | serving client (.relaying _ _) => some client.conn

/-- The client that is served but not yet announced. -/
def ServerPhase.unannounced : ServerPhase → List ℕ
  | serving client .routed => [client.conn]
  | _ => []

/-- The event after `current` is announced, if it may come then. -/
def talk (current : Option ℕ) : ℕ × NetToCompositor → Option (Option ℕ)
  | (conn, .clientConnected _ _) => if current = none then some (some conn) else none
  | (conn, .input _) | (conn, .control _) => if current = some conn then some current else none
  | (conn, .clientDisconnected) =>
    -- also for a connection that is preempted before it is announced
    if current = none ∨ current = some conn then some none else none

/-- Without the connection numbers, `talk` is the automaton of the event language. -/
theorem speaks_of_talk {w : List (ℕ × NetToCompositor)} {current last : Option ℕ}
    (h : w.foldlM talk current = some last) :
    EventLanguage.speaks current.isSome (w.map Prod.snd) = true := by
  induction w generalizing current with
  | nil => rfl
  | cons entry w ih =>
    obtain ⟨conn, msg⟩ := entry
    rw [foldlM_cons] at h
    obtain ⟨next, hnext, h⟩ := Option.bind_eq_some_iff.mp h
    have hw := ih h
    cases msg with
    | clientConnected hello addr =>
      obtain ⟨rfl, heq⟩ := Option.ite_none_right_eq_some.mp hnext
      obtain rfl := Option.some.inj heq
      exact hw
    | input msg | control msg =>
      obtain ⟨rfl, heq⟩ := Option.ite_none_right_eq_some.mp hnext
      obtain rfl := Option.some.inj heq
      exact hw
    | clientDisconnected =>
      obtain ⟨-, heq⟩ := Option.ite_none_right_eq_some.mp hnext
      obtain rfl := Option.some.inj heq
      exact hw

namespace ServerLoop

variable {l l' : ServerLoop} {client : RoutedClient}

/-- The connections that are announced. -/
def announcements (w : List (ℕ × NetToCompositor)) : List ℕ :=
  (w.filter (·.2.isConnected)).map Prod.fst

theorem announcements_append (w v : List (ℕ × NetToCompositor)) :
    announcements (w ++ v) = announcements w ++ announcements v := by
  rw [announcements, filter_append, map_append, announcements, announcements]

/-- The connections announced so far and those that wait for it. -/
def conns (l : ServerLoop) : List ℕ :=
  announcements l.sent ++ (l.phase.unannounced ++ l.clientRx.map (·.conn))

/-- What a client says when it is announced, and what the compositor answers. -/
def boundLog (client : RoutedClient) (decision : ConnectDecision) : List LogEntry :=
  [.sent client.conn (.clientConnected client.hello client.remoteAddr),
    .answered client.conn decision]

/-- What the log holds when a client has come to a stage. -/
def Logged (log : List LogEntry) (client : RoutedClient) : ServeStage → Prop
  | .routed => True
  | .redirecting => ∃ serverId addr, boundLog client (.redirect serverId addr) <+ log
  | .resolving none =>
    .sent client.conn (.clientConnected client.hello client.remoteAddr) ∈ log
  | .resolving (some decision) => boundLog client decision <+ log
  | .greeting binding | .relaying binding _ => boundLog client (.bind binding) <+ log

/-- The invariant of the loop and of what it has said. -/
structure Spoken (l : ServerLoop) : Prop where
  talks : l.sent.foldlM talk none = some l.phase.announced
  logged : ∀ {client stage}, l.phase = .serving client stage → Logged l.log client stage
  /-- What a client says comes after its connection is bound. -/
  relayed : ∀ {pre post conn msg}, l.log = pre ++ .sent conn msg :: post → msg.isRelayed = true →
    ∃ client binding, client.conn = conn ∧ boundLog client (.bind binding) <+ pre
  nodup : l.conns.Nodup
  numbered : ∀ conn ∈ l.conns, conn < l.nextConn

/-! ### More is said -/

theorem Logged.append {log : List LogEntry} {stage : ServeStage} (h : Logged log client stage)
    (entries : List LogEntry) : Logged (log ++ entries) client stage := by
  cases stage with
  | routed => trivial
  | redirecting =>
    obtain ⟨serverId, addr, h⟩ := h
    exact ⟨serverId, addr, Sublist.trans h (sublist_append_left _ _)⟩
  | resolving reply =>
    cases reply with
    | none => exact mem_append_left _ h
    | some decision => exact Sublist.trans h (sublist_append_left _ _)
  | greeting _ | relaying _ _ => exact Sublist.trans h (sublist_append_left _ _)

theorem sent_append {entries : List LogEntry} (h : l'.log = l.log ++ entries) :
    l'.sent = l.sent ++ entries.filterMap LogEntry.sent? := by
  rw [sent, h, filterMap_append, sent]

/-- The invariant holds when something else than a message of a client is said, and no connection
gets a number. -/
theorem Spoken.extend (h : Spoken l) (entries : List LogEntry)
    (hlog : l'.log = l.log ++ entries)
    (hentries : ∀ conn msg, .sent conn msg ∈ entries → msg.isRelayed = false)
    (htalk : (entries.filterMap LogEntry.sent?).foldlM talk l.phase.announced =
      some l'.phase.announced)
    (hlogged : ∀ {client stage}, l'.phase = .serving client stage → Logged l'.log client stage)
    (hconns : l'.conns <+ l.conns) (hnext : l'.nextConn = l.nextConn) : Spoken l' where
  talks := by
    rw [sent_append hlog, foldlM_append, h.talks]
    exact htalk
  logged := hlogged
  relayed := by
    intro pre post conn msg heq hmsg
    rw [hlog, append_eq_append_iff] at heq
    -- the message is not among the new entries
    rcases heq with ⟨between, rfl, hpost⟩ | ⟨between, hl, hpost⟩
    · exact absurd hmsg (by simp [hentries conn msg (by simp [hpost])])
    · cases between with
      | nil =>
        rw [nil_append] at hpost
        exact absurd hmsg (by simp [hentries conn msg (hpost ▸ mem_cons_self)])
      | cons entry between =>
        obtain ⟨rfl, rfl⟩ := cons_eq_cons.mp hpost
        exact h.relayed hl hmsg
  nodup := h.nodup.sublist hconns
  numbered := fun conn hconn => hnext ▸ h.numbered conn (hconns.subset hconn)

/-- Nothing is said, and the same connections wait. -/
theorem Spoken.quiet (h : Spoken l) (entries : List LogEntry)
    (hlog : l'.log = l.log ++ entries) (hentries : entries.filterMap LogEntry.sent? = [])
    (hannounced : l'.phase.announced = l.phase.announced)
    (hlogged : ∀ {client stage}, l'.phase = .serving client stage → Logged l'.log client stage)
    (hconns : l'.phase.unannounced ++ l'.clientRx.map (·.conn) =
      l.phase.unannounced ++ l.clientRx.map (·.conn))
    (hnext : l'.nextConn = l.nextConn) : Spoken l' := by
  refine h.extend entries hlog ?_ ?_ hlogged ?_ hnext
  · intro conn msg hmem
    have hsent : (conn, msg) ∈ entries.filterMap LogEntry.sent? :=
      mem_filterMap.mpr ⟨_, hmem, rfl⟩
    rw [hentries] at hsent
    exact absurd hsent not_mem_nil
  · rw [hentries, hannounced]
    rfl
  · rw [conns, conns, sent_append hlog, hentries, append_nil, hconns]

/-- The client is served on. -/
theorem Spoken.moveOn (h : Spoken l) {stage stage' : ServeStage}
    (hphase : l.phase = .serving client stage) (hphase' : l'.phase = .serving client stage')
    (hlog : l'.log = l.log) (hlogged : Logged l.log client stage')
    (hstage : stage ≠ .routed) (hstage' : stage' ≠ .routed) (hrx : l'.clientRx = l.clientRx)
    (hnext : l'.nextConn = l.nextConn) : Spoken l' := by
  have hannounced : ∀ {stage : ServeStage}, stage ≠ .routed →
      (ServerPhase.serving client stage).announced = some client.conn ∧
        (ServerPhase.serving client stage).unannounced = [] := by
    intro stage hne
    cases stage with
    | routed => exact absurd rfl hne
    | resolving _ | redirecting | greeting _ | relaying _ _ => exact ⟨rfl, rfl⟩
  refine h.quiet [] (by rw [hlog, append_nil]) rfl ?_ ?_ ?_ hnext
  · rw [hphase, hphase', (hannounced hstage).1, (hannounced hstage').1]
  · intro client₁ stage₁ h₁
    obtain ⟨rfl, rfl⟩ := ServerPhase.serving.inj (hphase'.symm.trans h₁)
    rwa [hlog]
  · rw [hphase, hphase', (hannounced hstage).2, (hannounced hstage').2, hrx]

/-- The connection of a client ends. -/
theorem Spoken.close (h : Spoken l) {stage : ServeStage} (hphase : l.phase = .serving client stage)
    (entries : List LogEntry) (hlog : l'.log = l.log ++ entries)
    (hentries : entries.filterMap LogEntry.sent? = [(client.conn, .clientDisconnected)])
    (hphase' : ∀ {client stage}, l'.phase = .serving client stage → stage = .routed)
    (hconns : l'.phase.unannounced ++ l'.clientRx.map (·.conn) <+ l.clientRx.map (·.conn))
    (hnext : l'.nextConn = l.nextConn) : Spoken l' := by
  have hannounced : l'.phase.announced = none := by
    cases hp : l'.phase with
    | idle | stopped => rfl
    | serving client stage =>
      rw [hphase' hp]
      rfl
  refine h.extend entries hlog ?_ ?_ ?_ ?_ hnext
  · intro conn msg hmem
    have hsent : (conn, msg) ∈ entries.filterMap LogEntry.sent? :=
      mem_filterMap.mpr ⟨_, hmem, rfl⟩
    rw [hentries, mem_singleton] at hsent
    rw [(Prod.mk.inj hsent).2]
    rfl
  · rw [hentries, hannounced, hphase]
    cases stage <;> simp [talk, ServerPhase.announced]
  · intro client stage hp
    rw [hphase' hp]
    trivial
  · rw [conns, conns, sent_append hlog, hentries, announcements_append]
    have hnone : announcements [(client.conn, .clientDisconnected)] = [] := rfl
    rw [hnone, append_nil]
    exact (hconns.trans (sublist_append_right _ _)).append_left _

/-! ### The moves keep the invariant -/

/-- The compositor answers. -/
theorem spoken_answer (h : Spoken l) (conn : ℕ) (decision : ConnectDecision) :
    Spoken (l.answer conn decision) := by
  have hsame : ∀ {client stage}, l.phase = .serving client stage →
      Logged (l.log ++ [.answered conn decision]) client stage :=
    fun hphase => (h.logged hphase).append _
  refine h.quiet [.answered conn decision] rfl rfl ?_ ?_ ?_ rfl
  · simp only [answer]
    split
    · rename_i client hphase
      split_ifs <;> rw [hphase]
      rfl
    · rfl
  · intro client stage hphase
    simp only [answer] at hphase
    split at hphase
    · rename_i client' hphase'
      split_ifs at hphase with hconn
      · obtain ⟨rfl, rfl⟩ := ServerPhase.serving.inj hphase
        subst hconn
        -- the announcement is in the log, the answer comes after it
        exact (singleton_sublist.mpr (h.logged hphase' :)).append (Sublist.refl [_])
      · exact hsame hphase
    · exact hsame hphase
  · simp only [answer]
    split
    · rename_i client hphase
      split_ifs <;> rw [hphase]
      rfl
    · rfl

theorem spoken_queue (h : Spoken l) (epoch : Option ℕ) (msg : CompositorToNet) :
    Spoken (l.queue epoch msg) := ⟨h.1, h.2, h.3, h.4, h.5⟩

/-- A message of the client is passed on: its connection is bound. -/
theorem spoken_relay (h : Spoken l) {binding : SessionBinding} {keyframeSeen : Bool}
    {msg : NetToCompositor} (hphase : l.phase = .serving client (.relaying binding keyframeSeen))
    (hmsg : msg.isRelayed = true) : Spoken (l.send client.conn msg) := by
  have hlog : (l.send client.conn msg).log = l.log ++ [.sent client.conn msg] := rfl
  have hsent : (l.send client.conn msg).sent = l.sent ++ [(client.conn, msg)] := sent_append hlog
  have hbound : boundLog client (.bind binding) <+ l.log := h.logged hphase
  have hnone : announcements [(client.conn, msg)] = [] := by
    cases msg with
    | clientConnected _ _ => exact absurd hmsg (by simp [NetToCompositor.isRelayed])
    | input _ | control _ | clientDisconnected => rfl
  have hconns : (l.send client.conn msg).conns = l.conns := by
    rw [conns, hsent, announcements_append, hnone, append_nil]
    rfl
  refine ⟨?_, fun hp => (h.logged hp).append _, ?_, hconns ▸ h.nodup, hconns ▸ h.numbered⟩
  · rw [hsent, foldlM_append, h.talks, hphase]
    cases msg with
    | clientConnected _ _ | clientDisconnected =>
      exact absurd hmsg (by simp [NetToCompositor.isRelayed])
    | input _ | control _ => simp [ServerPhase.announced, talk, send, hphase]
  · intro pre post conn₁ msg₁ heq hmsg₁
    rw [hlog, append_eq_append_iff] at heq
    rcases heq with ⟨between, rfl, hpost⟩ | ⟨between, hl, hpost⟩
    · cases between with
      | nil =>
        obtain ⟨hentry, -⟩ := cons_eq_cons.mp hpost
        obtain ⟨rfl, -⟩ := LogEntry.sent.inj hentry
        exact ⟨client, binding, rfl, by rwa [append_nil]⟩
      | cons entry between => simp at hpost
    · cases between with
      | nil =>
        obtain ⟨hentry, -⟩ := cons_eq_cons.mp hpost
        obtain ⟨rfl, -⟩ := LogEntry.sent.inj hentry
        rw [append_nil] at hl
        exact ⟨client, binding, rfl, hl ▸ hbound⟩
      | cons entry between =>
        obtain ⟨rfl, -⟩ := cons_eq_cons.mp hpost
        exact h.relayed hl hmsg₁

/-- The acceptor routes a client, under a new number. -/
theorem spoken_route (h : Spoken l) (hello : ClientHello) (addr : String) :
    Spoken { l with
      clientRx := l.clientRx ++ [⟨l.nextConn, hello, addr⟩], nextConn := l.nextConn + 1 } := by
  have hconns : ({ l with
      clientRx := l.clientRx ++ [⟨l.nextConn, hello, addr⟩]
      nextConn := l.nextConn + 1 } : ServerLoop).conns = l.conns ++ [l.nextConn] := by
    simp [conns, sent]
  refine ⟨h.talks, h.logged, h.relayed, ?_, ?_⟩
  · rw [hconns, nodup_append_comm, singleton_append, nodup_cons]
    exact ⟨fun hmem => absurd (h.numbered _ hmem) (lt_irrefl _), h.nodup⟩
  · rw [hconns]
    intro conn hmem
    rcases mem_append.mp hmem with hold | hnew
    · exact (h.numbered conn hold).trans (Nat.lt_succ_self _)
    · rw [mem_singleton.mp hnew]
      exact Nat.lt_succ_self _

/-- The client is announced. -/
theorem spoken_announce (h : Spoken l) (hphase : l.phase = .serving client .routed) :
    Spoken { l.send client.conn (.clientConnected client.hello client.remoteAddr) with
      phase := .serving client (.resolving none) } := by
  refine h.extend [.sent client.conn (.clientConnected client.hello client.remoteAddr)] rfl ?_ ?_ ?_
    ?_ rfl
  · intro conn msg hmem
    obtain ⟨-, rfl⟩ := LogEntry.sent.inj (mem_singleton.mp hmem)
    rfl
  · rw [hphase]
    rfl
  · intro client' stage' hp
    obtain ⟨rfl, rfl⟩ := ServerPhase.serving.inj hp
    exact mem_append_right _ (mem_singleton_self _)
  · rw [conns, conns, hphase, sent_append rfl, announcements_append, append_assoc]
    exact .refl _

theorem spoken_taken (h : Spoken l) {binding : SessionBinding} {keyframeSeen : Bool}
    (hphase : l.phase = .serving client (.relaying binding keyframeSeen)) (queued : Queued)
    (rest : List Queued) : Spoken (l.taken client binding keyframeSeen queued rest) :=
  h.moveOn hphase rfl rfl (h.logged hphase :) (by simp) (by simp) rfl rfl

theorem spoken_finish (h : Spoken l) {stage : ServeStage}
    (hphase : l.phase = .serving client stage) : Spoken (l.finish client) := by
  refine h.close hphase [.sent client.conn .clientDisconnected] rfl rfl ?_ (.refl _) rfl
  exact fun hp => absurd hp (by simp [finish])

/-- **Step lemma**: every move of the loop keeps the invariant. -/
theorem spoken_turn (h : Spoken l) (hturn : Turn l l') : Spoken l' := by
  cases hturn with
  | ends _ _ | drain _ _ => exact ⟨h.1, h.2, h.3, h.4, h.5⟩
  | stop hidle compositorRx =>
    refine h.quiet [] (append_nil _).symm rfl ?_ ?_ ?_ rfl
    · rw [hidle]
      rfl
    · intro client stage hp
      exact absurd hp (by simp)
    · rw [hidle]
      rfl
  | route hphase hello addr => exact spoken_route h hello addr
  | take hidle hrx =>
    refine h.quiet [] (append_nil _).symm rfl ?_ ?_ ?_ rfl
    · rw [hidle]
      rfl
    · intro client stage hp
      obtain ⟨rfl, rfl⟩ := ServerPhase.serving.inj hp
      trivial
    · rw [hidle, hrx]
      rfl
  | announce hphase => exact spoken_announce h hphase
  | @decided client decision hphase =>
    cases decision with
    | bind binding => exact h.moveOn hphase rfl rfl (h.logged hphase :) (by simp) (by simp) rfl rfl
    | redirect serverId addr =>
      exact h.moveOn hphase rfl rfl ⟨serverId, addr, h.logged hphase⟩ (by simp) (by simp) rfl rfl
  | greeted hphase => exact h.moveOn hphase rfl rfl (h.logged hphase :) (by simp) (by simp) rfl rfl
  | relay hphase hmsg => exact spoken_relay h hphase hmsg
  | command hphase hrx => exact spoken_taken h hphase _ _
  | last hphase hrx => exact spoken_finish (spoken_taken h hphase _ _) rfl
  | finish hphase hstage => exact spoken_finish h hphase
  | @preempt client newcomer stage rest hphase hrx =>
    refine h.close hphase [.preempted client.conn stage.binding? newcomer,
      .sent client.conn .clientDisconnected] rfl rfl ?_ ?_ rfl
    · exact fun hp => (ServerPhase.serving.inj hp).2.symm
    · rw [hrx]
      exact .refl _
  | @abandon client stage hphase hrx =>
    refine h.close hphase [.sent client.conn .clientDisconnected] rfl rfl ?_ (.refl _) rfl
    exact fun hp => absurd hp (by simp)

theorem spoken_start : Spoken start where
  talks := rfl
  logged := fun hp => absurd hp (by simp [start])
  relayed := fun heq _ => absurd heq (by simp [start])
  nodup := nodup_nil
  numbered := fun _ hconn => absurd hconn not_mem_nil

/-- **Run lemma**: the invariant holds throughout a run. -/
theorem spoken_run (events : List ServerEvent) : Spoken (start.run events) :=
  run_invariant spoken_turn (fun conn decision h => spoken_answer h conn decision)
    (fun epoch msg h => spoken_queue h epoch msg) spoken_start events

/-! ### The language of the loop -/

/-- **The server loop speaks the event language.**  Whatever happens, the events sent to the
compositor begin a word of the language; what a client says is passed on only after its connection,
announced once, has been bound; and between two announcements there is a `ClientDisconnected`. -/
theorem sent_in_language (events : List ServerEvent) :
    let l := start.run events
    (∃ word ∈ EventLanguage.eventLanguage, l.sent.map Prod.snd <+: word) ∧
    (announcements l.sent).Nodup ∧
    (∀ pre conn msg post, l.log = pre ++ .sent conn msg :: post → msg.isRelayed = true →
      ∃ client binding, client.conn = conn ∧ boundLog client (.bind binding) <+ pre) ∧
    ∀ pre connect between connect' post,
      l.sent.map Prod.snd = pre ++ connect :: (between ++ connect' :: post) →
      connect.isConnected = true → connect'.isConnected = true →
      .clientDisconnected ∈ between := by
  intro l
  have h : Spoken l := spoken_run events
  have hspeaks : EventLanguage.speaks false (l.sent.map Prod.snd) = true := speaks_of_talk h.talks
  refine ⟨EventLanguage.speaks_iff.mp hspeaks, (nodup_append.mp h.nodup).1,
    fun pre conn msg post => h.relayed, ?_⟩
  intro pre connect between connect' post heq hconnect hconnect'
  exact EventLanguage.disconnected_between hconnect hconnect' (heq ▸ hspeaks)

end ServerLoop

end WayRay
