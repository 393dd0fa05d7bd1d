import WayRay.Server.Isolation

/-!
# Takeover

A client that arrives while another is served takes over: the network thread ends the connection in
progress for it, whatever token it brings, and the compositor suspends the session of that
connection (`takeover_without_token`).  Where every client that waits behind a connection presents
the token of its session, only that token ends a connection and suspends its session
(`takeover_authorized`).

`Held` says which session the compositor is bound to: that of the binding it has answered with.
`Authorized` is the invariant of the takeovers so far.
-/

namespace WayRay

open List GuardedRun ServerLoop SessionRegistry

/-- The newcomer presents the token of the session that the client it waits behind is bound to, or
is about to be bound to. -/
def ServeStage.Presented (client newcomer : RoutedClient) : ServeStage → Prop
  -- no session yet, or none here
  | routed | redirecting | resolving (some (.redirect _ _)) => True
  | resolving none => ∃ token, client.hello.token = some token ∧ newcomer.hello.token = some token
  | resolving (some (.bind binding)) | greeting binding | relaying binding _ =>
    newcomer.hello.token = some binding.token

namespace Server

variable {S : Type} {s : Server S} {desktop : Desktop S}

/-! ### The session of a connection -/

/-- What the compositor has answered, and the session it is bound to. -/
structure Held (s : Server S) : Prop extends Linked s where
  consistent : Consistent s.compositor.sessionRegistry
  once : ∀ {conn decision decision'}, .answered conn decision ∈ s.net.log →
    .answered conn decision' ∈ s.net.log → decision = decision'
  /-- A client is bound to a session of the token it brought. -/
  brought : ∀ {conn binding hello addr token}, .answered conn (.bind binding) ∈ s.net.log →
    (conn, .clientConnected hello addr) ∈ s.net.sent → hello.token = some token →
    binding.token = token
  session : ∀ {conn i}, s.heard.foldlM talk none = some (some conn) →
    s.compositor.activeSession = some i →
    ∃ binding session, .answered conn (.bind binding) ∈ s.net.log ∧
      s.compositor.sessionRegistry.sessions.get i = some session ∧
      session.token.str = binding.token

theorem mem_announcements {w : List (ℕ × NetToCompositor)} {conn : ℕ} {hello : ClientHello}
    {addr : String} (h : (conn, .clientConnected hello addr) ∈ w) : conn ∈ announcements w :=
  mem_map.mpr ⟨_, mem_filter.mpr ⟨h, rfl⟩, rfl⟩

/-- The connections that wait for their announcement. -/
def pending (l : ServerLoop) : List ℕ := l.phase.unannounced ++ l.clientRx.map (·.conn)

/-- The network thread answers nobody by itself. -/
theorem answered_of_turn {l l' : ServerLoop} (hturn : Turn l l') {conn : ℕ}
    {decision : ConnectDecision} (hmem : .answered conn decision ∈ l'.log) :
    .answered conn decision ∈ l.log := by
  obtain ⟨entries, hlog, hnone⟩ := turn_log hturn
  rw [hlog] at hmem
  exact (mem_append.mp hmem).resolve_right (hnone conn decision)

/-- A move of the network thread announces only a connection that waits for it. -/
theorem announced_of_turn {l l' : ServerLoop} (hturn : Turn l l') {conn : ℕ} {hello : ClientHello}
    {addr : String} (hmem : (conn, .clientConnected hello addr) ∈ l'.sent) :
    (conn, .clientConnected hello addr) ∈ l.sent ∨ conn ∈ pending l := by
  obtain ⟨entry, hentry, hsent⟩ := mem_filterMap.mp hmem
  have hentry' : entry = .sent conn (.clientConnected hello addr) := by
    cases entry with
    | sent conn' msg' =>
      obtain ⟨rfl, rfl⟩ := Prod.mk.inj (Option.some.inj hsent)
      rfl
    | answered _ _ | preempted _ _ _ => exact absurd hsent (by simp [LogEntry.sent?])
  subst hentry'
  rcases turn_entry hturn hentry with hold | ⟨client, hphase, heq⟩ | ⟨conn', msg, hmsg, heq⟩ |
    ⟨client, stage, newcomer, rest, -, -, -, heq⟩
  · exact .inl (mem_filterMap.mpr ⟨_, hold, rfl⟩)
  · obtain ⟨rfl, -⟩ := LogEntry.sent.inj heq
    refine .inr (mem_append_left _ ?_)
    rw [hphase]
    exact mem_singleton_self _
  · obtain ⟨-, rfl⟩ := LogEntry.sent.inj heq
    exact absurd hmsg (by simp [NetToCompositor.isConnected])
  · exact absurd heq (by simp)

/-- Connections come to wait under new numbers. -/
theorem pending_of_turn {l l' : ServerLoop} (hturn : Turn l l') {conn : ℕ}
    (hmem : conn ∈ pending l') : conn ∈ pending l ∨ conn = l.nextConn := by
  cases hturn with
  | ends _ _ | drain _ _ | relay _ _ => exact .inl hmem
  | route hphase hello addr =>
    simp only [pending, map_append, mem_append, map_cons, map_nil, mem_singleton] at hmem ⊢
    exact or_assoc.mpr hmem
  | take hidle hrx =>
    left
    simpa [pending, hidle, hrx, ServerPhase.unannounced] using hmem
  | stop _ _ | announce _ | greeted _ | finish _ _ | command _ _ | last _ _ | abandon _ _ =>
    exact .inl (mem_append_right _ hmem)
  | @decided client decision hphase =>
    refine .inl (mem_append_right _ ?_)
    cases decision <;> exact hmem
  | preempt hphase hrx =>
    refine .inl (mem_append_right _ ?_)
    rw [hrx]
    exact hmem

theorem held_turn (h : Held s) {l : ServerLoop} (hturn : Turn s.net l) :
    Held { s with net := l } := by
  obtain ⟨entries, hlog, -⟩ := turn_log hturn
  have hlinked : Linked { s with net := l } := linked_turn h.toLinked hturn
  have hheard : heard { s with net := l } = s.heard := take_sent hlog h.handled_le
  refine { hlinked with consistent := h.consistent, once := ?_, brought := ?_, session := ?_ }
  · exact fun hmem hmem' => h.once (answered_of_turn hturn hmem) (answered_of_turn hturn hmem')
  · intro conn binding hello addr token hmem hsent
    rcases announced_of_turn hturn hsent with hold | hnew
    · exact h.brought (answered_of_turn hturn hmem) hold
    · -- an answered connection has been announced
      exact absurd (h.answered (answered_of_turn hturn hmem)) (h.not_heard hnew)
  · rw [hheard]
    intro conn i htalk hact
    obtain ⟨binding, session, hmem, hs⟩ := h.session htalk hact
    exact ⟨binding, session, hlog ▸ mem_append_left _ hmem, hs⟩

/-- The compositor changes, but neither what it has heard nor its active session. -/
theorem Held.same (h : Held s) {s' : Server S} (hlinked : Linked s') (hlog : s'.net.log = s.net.log)
    (hhandled : s'.handled = s.handled) (hconsistent : Consistent s'.compositor.sessionRegistry)
    (hact : s'.compositor.activeSession = s.compositor.activeSession)
    (hget : ∀ i, s.compositor.activeSession = some i →
      s'.compositor.sessionRegistry.sessions.get i = s.compositor.sessionRegistry.sessions.get i) :
    Held s' := by
  have hsent : s'.net.sent = s.net.sent := by rw [sent, hlog, sent]
  refine { hlinked with consistent := hconsistent, once := ?_, brought := ?_, session := ?_ }
  · rw [hlog]
    exact h.once
  · rw [hlog, hsent]
    exact h.brought
  · rw [heard, hsent, hhandled, hlog, hact]
    intro conn i htalk hi
    rw [hget i hi]
    exact h.session htalk hi

/-- A connection whose announcement is next has not been answered. -/
theorem Linked.not_answered (h : Linked s) {conn : ℕ} {hello : ClientHello} {addr : String}
    (hnext : s.net.sent[s.handled]? = some (conn, .clientConnected hello addr))
    (decision : ConnectDecision) : .answered conn decision ∉ s.net.log := by
  intro hmem
  have hnodup := (nodup_append.mp h.spoken.nodup).1
  rw [← take_append_drop (s.handled + 1) s.net.sent, take_succ_sent hnext, announcements_append,
    announcements_append] at hnodup
  exact (nodup_append.mp (nodup_append.mp hnodup).1).2.2 conn (h.answered hmem) conn
    (mem_singleton_self _) rfl

/-- A client is announced to the compositor and answered. -/
theorem held_connect (h : Held s) (env : Surroundings) {conn : ℕ} {hello : ClientHello}
    {addr : String} (hnext : s.net.sent[s.handled]? = some (conn, .clientConnected hello addr))
    (hlinked : Linked ⟨s.net.answer conn (s.compositor.connectClient env hello addr).1,
      (s.compositor.connectClient env hello addr).2, s.handled + 1⟩)
    (hconsistent : Consistent (s.compositor.connectClient env hello addr).2.sessionRegistry) :
    Held ⟨s.net.answer conn (s.compositor.connectClient env hello addr).1,
      (s.compositor.connectClient env hello addr).2, s.handled + 1⟩ := by
  have hsent : (conn, .clientConnected hello addr) ∈ s.net.sent := mem_of_getElem? hnext
  have hfirst : ∀ decision, .answered conn decision ∉ s.net.log := h.not_answered hnext
  refine { hlinked with consistent := hconsistent, once := ?_, brought := ?_, session := ?_ }
  · intro conn' decision decision' hmem hmem'
    rcases mem_append.mp hmem with hold | hnew <;> rcases mem_append.mp hmem' with hold' | hnew'
    · exact h.once hold hold'
    · obtain ⟨rfl, -⟩ := LogEntry.answered.inj (mem_singleton.mp hnew')
      exact absurd hold (hfirst decision)
    · obtain ⟨rfl, -⟩ := LogEntry.answered.inj (mem_singleton.mp hnew)
      exact absurd hold' (hfirst decision')
    · obtain ⟨-, rfl⟩ := LogEntry.answered.inj (mem_singleton.mp hnew)
      exact (LogEntry.answered.inj (mem_singleton.mp hnew')).2.symm
  · intro conn' binding hello' addr' token hmem hsent' htok
    rw [sent_answer] at hsent'
    rcases mem_append.mp hmem with hold | hnew
    · exact h.brought hold hsent' htok
    · obtain ⟨rfl, hbind⟩ := LogEntry.answered.inj (mem_singleton.mp hnew)
      have hhello := announcement_unique (nodup_append.mp h.spoken.nodup).1 hsent hsent' rfl rfl
      obtain ⟨rfl, -⟩ := NetToCompositor.clientConnected.inj hhello
      rw [(CalloopData.connectClient_bind h.consistent hbind.symm).1, htok, Option.getD_some]
  · intro conn' i htalk hact
    rw [heard, sent_answer, take_succ_sent hnext] at htalk
    obtain ⟨current, next, hcurrent, hone, hboth⟩ := h.talk_next hnext
    obtain rfl := Option.some.inj (hboth.symm.trans htalk)
    obtain ⟨rfl, heq⟩ := Option.ite_none_right_eq_some.mp hone
    obtain rfl := Option.some.inj (Option.some.inj heq)
    cases hreply : (s.compositor.connectClient env hello addr).1 with
    | redirect serverId target =>
      -- a client that is sent elsewhere is bound to nothing
      have hidle := (h.bound hcurrent).idle rfl
      rw [CalloopData.connectClient_redirect hreply, hidle] at hact
      exact absurd hact (by simp)
    | bind binding =>
      obtain ⟨-, i', session, hact', hget, htok⟩ :=
        CalloopData.connectClient_bind h.consistent hreply
      obtain rfl := Option.some.inj (hact'.symm.trans hact)
      exact ⟨binding, session, mem_append_right _ (mem_singleton_self _), hget, htok⟩

theorem held_handle (h : Held s) (env : Surroundings) : Held (s.handle desktop env) := by
  have hlinked : Linked (s.handle desktop env) := linked_handle h.toLinked env
  rcases handle_cases desktop s env with heq | ⟨conn, hello, addr, hnext, heq⟩ |
    ⟨conn, msg, hnext, hmsg, heq⟩ <;> rw [heq] at hlinked ⊢
  · exact h
  · exact held_connect h env hnext hlinked (CalloopData.registry_invariant consistent_move desktop
      h.consistent (.net env (.clientConnected hello addr)))
  · have hconsistent : Consistent
        (CalloopData.drainEvent desktop s.compositor env msg).2.sessionRegistry :=
      CalloopData.registry_invariant consistent_move desktop h.consistent (.net env msg)
    refine { hlinked with
      consistent := hconsistent, once := h.once, brought := h.brought, session := ?_ }
    intro conn' i htalk hact
    rw [heard, take_succ_sent hnext] at htalk
    obtain ⟨current, next, hcurrent, hone, hboth⟩ := h.talk_next hnext
    obtain rfl := Option.some.inj (hboth.symm.trans htalk)
    cases msg with
    | clientConnected _ _ => exact absurd hmsg (by simp [NetToCompositor.isConnected])
    | clientDisconnected =>
      obtain ⟨-, heq⟩ := Option.ite_none_right_eq_some.mp hone
      exact absurd heq (by simp)
    | input msg =>
      obtain ⟨rfl, heq⟩ := Option.ite_none_right_eq_some.mp hone
      obtain rfl := Option.some.inj (Option.some.inj heq)
      exact h.session hcurrent hact
    | control msg =>
      obtain ⟨rfl, heq⟩ := Option.ite_none_right_eq_some.mp hone
      obtain rfl := Option.some.inj (Option.some.inj heq)
      cases msg <;> exact h.session hcurrent hact

/-- **Step lemma**: every step of the server keeps the invariant. -/
theorem held_step (h : Held s) (e : SystemEvent S) : Held (s.step desktop e) := by
  have hlinked : Linked (s.step desktop e) := linked_step h.toLinked e
  cases e with
  | thread e =>
    rcases s.net.stepThread_turn e with hsame | hturn
    · rwa [step, hsame]
    · exact held_turn h hturn
  | handle env => exact held_handle h env
  | queue _ | turn _ _ | netClosed | hangUp =>
    exact h.same hlinked rfl rfl h.consistent rfl fun _ _ => rfl
  | cleanup cleanedAt prunedAt =>
    obtain ⟨current, hcurrent⟩ := h.talk_heard
    refine h.same hlinked rfl rfl ?_ (s.compositor.cleanupTick_fields cleanedAt prunedAt).1 ?_
    · exact CalloopData.registry_invariant consistent_move desktop h.consistent
        (.cleanup cleanedAt prunedAt)
    · exact fun i hact => (h.bound hcurrent).get_cleanupTick hact cleanedAt prunedAt

/-! ### The takeovers -/

/-- The next client that waits presents the token of the session in progress. -/
def NextPresents (s : Server S) (_ : SystemEvent S) : Prop :=
  match s.net.phase, s.net.clientRx with
  | .serving client stage, newcomer :: _ => stage.Presented client newcomer
  | _, _ => True

theorem NextPresents.presented {e : SystemEvent S} (h : NextPresents s e)
    {client newcomer : RoutedClient} {stage : ServeStage} {rest : List RoutedClient}
    (hphase : s.net.phase = .serving client stage) (hrx : s.net.clientRx = newcomer :: rest) :
    stage.Presented client newcomer := by
  simpa only [NextPresents, hphase, hrx] using h

/-- The takeovers so far, and what they mean for the sessions. -/
structure Authorized (s : Server S) : Prop extends Held s where
  unanswered : ∀ {client}, s.net.phase = .serving client (.resolving none) →
    ∀ decision, .answered client.conn decision ∉ s.net.log
  /-- A connection that is ended does not wait any more. -/
  gone : ∀ {conn bound newcomer}, .preempted conn bound newcomer ∈ s.net.log →
    conn < s.net.nextConn ∧ conn ∉ pending s.net
  bound_token : ∀ {conn binding newcomer}, .preempted conn (some binding) newcomer ∈ s.net.log →
    newcomer.hello.token = some binding.token
  answered_token : ∀ {conn bound newcomer binding}, .preempted conn bound newcomer ∈ s.net.log →
    .answered conn (.bind binding) ∈ s.net.log → newcomer.hello.token = some binding.token
  /-- The compositor may answer a connection that has been ended. -/
  unanswered_token : ∀ {conn bound newcomer hello addr},
    .preempted conn bound newcomer ∈ s.net.log → (conn, .clientConnected hello addr) ∈ s.net.sent →
    (∀ decision, .answered conn decision ∉ s.net.log) →
    ∃ token, hello.token = some token ∧ newcomer.hello.token = some token

/-- The connection that is served has its number for itself. -/
theorem Linked.serving_conn (h : Linked s) {client : RoutedClient} {stage : ServeStage}
    (hphase : s.net.phase = .serving client stage) :
    client.conn < s.net.nextConn ∧ client.conn ∉ s.net.clientRx.map (·.conn) := by
  have hnodup := h.spoken.nodup
  rw [conns, hphase] at hnodup
  have hmem : client.conn ∈ announcements s.net.sent ++ s.net.phase.unannounced := by
    cases stage with
    | routed => exact mem_append_right _ (by rw [hphase]; exact mem_singleton_self _)
    | resolving reply =>
      refine mem_append_left _ ?_
      cases reply with
      | none =>
        exact mem_announcements (mem_filterMap.mpr ⟨_, h.spoken.logged hphase, rfl⟩)
      | some decision =>
        rw [announcements_split]
        exact mem_append_left _ (h.heard_of_answered hphase (by simp) (by simp))
    | redirecting | greeting _ | relaying _ _ =>
      refine mem_append_left _ ?_
      rw [announcements_split]
      exact mem_append_left _ (h.heard_of_answered hphase (by simp) (by simp))
  rw [← append_assoc, ← hphase] at hnodup
  refine ⟨h.spoken.numbered _ ?_, fun hrx => (nodup_append.mp hnodup).2.2 _ hmem _ hrx rfl⟩
  rw [conns, ← append_assoc]
  exact mem_append_left _ hmem

/-- Where the newcomer presents the token, it is that of the session. -/
theorem Authorized.newcomer_token (h : Authorized s) {client newcomer : RoutedClient}
    {stage : ServeStage} (hphase : s.net.phase = .serving client stage)
    (hpresented : stage.Presented client newcomer) :
    (∀ binding, stage.binding? = some binding → newcomer.hello.token = some binding.token) ∧
    (∀ binding, .answered client.conn (.bind binding) ∈ s.net.log →
      newcomer.hello.token = some binding.token) ∧
    ∀ hello addr, (client.conn, .clientConnected hello addr) ∈ s.net.sent →
      (∀ decision, .answered client.conn decision ∉ s.net.log) →
      ∃ token, hello.token = some token ∧ newcomer.hello.token = some token := by
  have hlogged := h.spoken.logged hphase
  have hsecond : ∀ {decision}, boundLog client decision <+ s.net.log →
      .answered client.conn decision ∈ s.net.log :=
    fun hsub => hsub.subset (mem_cons_of_mem _ mem_cons_self)
  -- a decision of the compositor, and what follows from it
  have hdecided : ∀ {decision}, .answered client.conn decision ∈ s.net.log →
      (∀ binding, decision = .bind binding → newcomer.hello.token = some binding.token) →
      (∀ binding, .answered client.conn (.bind binding) ∈ s.net.log →
        newcomer.hello.token = some binding.token) ∧
      ∀ hello addr, (client.conn, .clientConnected hello addr) ∈ s.net.sent →
        (∀ decision, .answered client.conn decision ∉ s.net.log) →
        ∃ token, hello.token = some token ∧ newcomer.hello.token = some token :=
    fun hmem htok => ⟨fun binding hmem' => htok binding (h.once hmem hmem'),
      fun _ _ _ hnone => absurd hmem (hnone _)⟩
  cases stage with
  | routed =>
    have hpending : client.conn ∈ pending s.net :=
      mem_append_left _ (by rw [hphase]; exact mem_singleton_self _)
    refine ⟨fun _ hb => absurd hb (by simp [ServeStage.binding?]), fun _ hmem => ?_,
      fun _ _ hsent => ?_⟩
    · exact absurd (h.answered hmem) (h.not_heard hpending)
    · exact absurd (mem_announcements hsent) (h.not_announced hpending)
  | redirecting =>
    obtain ⟨serverId, addr, hsub⟩ := hlogged
    exact ⟨fun _ hb => absurd hb (by simp [ServeStage.binding?]),
      hdecided (hsecond hsub) fun _ heq => absurd heq (by simp)⟩
  | resolving reply =>
    cases reply with
    | none =>
      refine ⟨fun _ hb => absurd hb (by simp [ServeStage.binding?]), fun _ hmem => ?_,
        fun hello addr hsent _ => ?_⟩
      · exact absurd hmem (h.unanswered hphase _)
      · have hown : (client.conn, .clientConnected client.hello client.remoteAddr) ∈ s.net.sent :=
          mem_filterMap.mpr ⟨_, hlogged, rfl⟩
        have hhello := announcement_unique (nodup_append.mp h.spoken.nodup).1 hown hsent rfl rfl
        obtain ⟨rfl, -⟩ := NetToCompositor.clientConnected.inj hhello
        exact hpresented
    | some decision =>
      refine ⟨fun _ hb => absurd hb (by simp [ServeStage.binding?]),
        hdecided (hsecond hlogged) fun binding heq => ?_⟩
      subst heq
      exact hpresented
  | greeting binding =>
    refine ⟨fun _ hb => Option.some.inj hb ▸ hpresented,
      hdecided (hsecond hlogged) fun _ heq => ?_⟩
    exact ConnectDecision.bind.inj heq ▸ hpresented
  | relaying binding keyframeSeen =>
    refine ⟨fun _ hb => Option.some.inj hb ▸ hpresented,
      hdecided (hsecond hlogged) fun _ heq => ?_⟩
    exact ConnectDecision.bind.inj heq ▸ hpresented

theorem resolving_of_turn {l l' : ServerLoop} (hturn : Turn l l') {client : RoutedClient}
    (hphase : l'.phase = .serving client (.resolving none)) :
    l.phase = .serving client (.resolving none) ∨ l.phase = .serving client .routed := by
  cases hturn with
  | ends _ _ | drain _ _ | route _ _ _ | relay _ _ => exact .inl hphase
  | announce hrouted =>
    obtain ⟨rfl, -⟩ := ServerPhase.serving.inj hphase
    exact .inr hrouted
  | @decided _ decision _ => cases decision <;> exact absurd hphase (by simp [decided])
  | stop _ _ | take _ _ | greeted _ | command _ _ | last _ _ | finish _ _ | preempt _ _
  | abandon _ _ => exact absurd hphase (by simp [taken, finish, handedTo])

/-- A move of the network thread keeps the invariant, if the client that may take over presents the
token. -/
theorem authorized_turn (h : Authorized s) {l : ServerLoop} (hturn : Turn s.net l)
    {e : SystemEvent S} (hpresents : NextPresents s e) :
    Authorized { s with net := l } := by
  obtain ⟨entries, hlog, -⟩ := turn_log hturn
  have hheld : Held { s with net := l } := held_turn h.toHeld hturn
  have hstill : ∀ {conn}, (∀ decision, .answered conn decision ∉ l.log) →
      ∀ decision, .answered conn decision ∉ s.net.log :=
    fun hl decision hmem => hl decision (hlog ▸ mem_append_left _ hmem)
  -- a connection that is ended ended before, or is the one that was served
  have hpreempted : ∀ {conn bound newcomer}, .preempted conn bound newcomer ∈ l.log →
      .preempted conn bound newcomer ∈ s.net.log ∨
      ∃ client stage rest, s.net.phase = .serving client stage ∧
        s.net.clientRx = newcomer :: rest ∧ l = s.net.handedTo client stage newcomer rest ∧
        conn = client.conn ∧ bound = stage.binding? ∧ stage.Presented client newcomer := by
    intro conn bound newcomer hmem
    rcases turn_entry hturn hmem with hold | ⟨client, -, heq⟩ | ⟨conn', msg, -, heq⟩ |
      ⟨client, stage, newcomer', rest, hphase, hrx, hhanded, heq⟩
    · exact .inl hold
    · exact absurd heq (by simp)
    · exact absurd heq (by simp)
    · obtain ⟨rfl, rfl, rfl⟩ := LogEntry.preempted.inj heq
      exact .inr ⟨client, stage, rest, hphase, hrx, hhanded, rfl, rfl,
        hpresents.presented hphase hrx⟩
  refine { hheld with
    unanswered := ?_, gone := ?_, bound_token := ?_, answered_token := ?_, unanswered_token := ?_ }
  · intro client hphase decision hmem
    rcases resolving_of_turn hturn hphase with hsame | hrouted
    · exact h.unanswered hsame decision (answered_of_turn hturn hmem)
    · refine absurd (h.answered (answered_of_turn hturn hmem)) (h.not_heard (mem_append_left _ ?_))
      rw [hrouted]
      exact mem_singleton_self _
  · intro conn bound newcomer hmem
    rcases hpreempted hmem with hold | ⟨client, stage, rest, hphase, hrx, rfl, rfl, -, -⟩
    · obtain ⟨hlt, hpending⟩ := h.gone hold
      refine ⟨hlt.trans_le (turn_nextConn hturn), fun hin => ?_⟩
      rcases pending_of_turn hturn hin with hwaits | heq
      · exact hpending hwaits
      · exact absurd heq hlt.ne
    · obtain ⟨hlt, hrx'⟩ := h.serving_conn hphase
      rw [hrx] at hrx'
      exact ⟨hlt, hrx'⟩
  · intro conn binding newcomer hmem
    rcases hpreempted hmem with hold | ⟨client, stage, rest, hphase, -, -, -, hb, hpresented⟩
    · exact h.bound_token hold
    · exact (h.newcomer_token hphase hpresented).1 binding hb.symm
  · intro conn bound newcomer binding hmem hans
    rcases hpreempted hmem with hold | ⟨client, stage, rest, hphase, -, -, rfl, -, hpresented⟩
    · exact h.answered_token hold (answered_of_turn hturn hans)
    · exact (h.newcomer_token hphase hpresented).2.1 binding (answered_of_turn hturn hans)
  · intro conn bound newcomer hello addr hmem hsent hnot
    rcases hpreempted hmem with hold | ⟨client, stage, rest, hphase, -, rfl, rfl, -, hpresented⟩
    · have hsent' := (announced_of_turn hturn hsent).resolve_right (h.gone hold).2
      exact h.unanswered_token hold hsent' (hstill hnot)
    · have hsent' : (client.conn, .clientConnected hello addr) ∈ s.net.sent := by
        have hsplit : (s.net.handedTo client stage newcomer rest).sent =
            s.net.sent ++ [(client.conn, .clientDisconnected)] := by
          rw [sent, handedTo, filterMap_append]
          rfl
        rw [hsplit] at hsent
        exact (mem_append.mp hsent).resolve_right (by simp)
      exact (h.newcomer_token hphase hpresented).2.2 hello addr hsent' (hstill hnot)

/-- The compositor answers a client: also one whose connection has been ended gets the session of
the token it brought. -/
theorem authorized_handle (h : Authorized s) (env : Surroundings) :
    Authorized (s.handle desktop env) := by
  have hheld : Held (s.handle desktop env) := held_handle h.toHeld env
  rcases handle_cases desktop s env with heq | ⟨conn, hello, addr, hnext, heq⟩ |
    ⟨conn, msg, hnext, hmsg, heq⟩ <;> rw [heq] at hheld ⊢
  · exact h
  · have hsent : (conn, .clientConnected hello addr) ∈ s.net.sent := mem_of_getElem? hnext
    have hfirst : ∀ decision, .answered conn decision ∉ s.net.log := h.not_answered hnext
    have hpreempted : ∀ {conn' bound newcomer}, .preempted conn' bound newcomer ∈
        (s.net.answer conn (s.compositor.connectClient env hello addr).1).log →
        .preempted conn' bound newcomer ∈ s.net.log :=
      fun hmem => (mem_append.mp hmem).resolve_right (by simp)
    refine { hheld with
      unanswered := ?_, gone := ?_, bound_token := ?_, answered_token := ?_,
      unanswered_token := ?_ }
    · intro client hphase decision hmem
      rcases answer_phase hphase with ⟨hbefore, hne⟩ | ⟨-, hstage, -⟩
      · rcases mem_append.mp hmem with hold | hnew
        · exact h.unanswered hbefore decision hold
        · exact hne rfl (LogEntry.answered.inj (mem_singleton.mp hnew)).1
      · exact absurd hstage (by simp)
    · intro conn' bound newcomer hmem
      obtain ⟨hlt, hpending⟩ := h.gone (hpreempted hmem)
      refine ⟨hlt, fun hin => hpending ?_⟩
      rcases mem_append.mp hin with hunannounced | hrx
      · refine mem_append_left _ ?_
        cases hphase : (s.net.answer conn (s.compositor.connectClient env hello addr).1).phase with
        | idle | stopped =>
          rw [hphase] at hunannounced
          exact absurd hunannounced not_mem_nil
        | serving client stage =>
          rw [hphase] at hunannounced
          rcases answer_phase hphase with ⟨hbefore, -⟩ | ⟨-, rfl, -⟩
          · rwa [hbefore]
          · exact absurd hunannounced not_mem_nil
      · exact mem_append_right _ hrx
    · exact fun hmem => h.bound_token (hpreempted hmem)
    · intro conn' bound newcomer binding hmem hans
      rcases mem_append.mp hans with hold | hnew
      · exact h.answered_token (hpreempted hmem) hold
      · obtain ⟨rfl, hbind⟩ := LogEntry.answered.inj (mem_singleton.mp hnew)
        obtain ⟨token, htok, hnewcomer⟩ :=
          h.unanswered_token (hpreempted hmem) hsent hfirst
        rw [(CalloopData.connectClient_bind h.consistent hbind.symm).1, htok, Option.getD_some,
          hnewcomer]
    · intro conn' bound newcomer hello' addr' hmem hsent' hnot
      rw [sent_answer] at hsent'
      exact h.unanswered_token (hpreempted hmem) hsent' fun decision hans =>
        hnot decision (mem_append_left _ hans)
  · exact { hheld with
      unanswered := h.unanswered, gone := h.gone, bound_token := h.bound_token
      answered_token := h.answered_token, unanswered_token := h.unanswered_token }

/-- **Step lemma**: where the next client that waits presents the token, a step keeps the
invariant. -/
theorem authorized_step (h : Authorized s) (e : SystemEvent S) (hpresents : NextPresents s e) :
    Authorized (s.step desktop e) := by
  have hheld : Held (s.step desktop e) := held_step h.toHeld e
  cases e with
  | thread e =>
    rcases s.net.stepThread_turn e with hsame | hturn
    · rwa [step, hsame]
    · exact authorized_turn h hturn hpresents
  | handle env => exact authorized_handle h env
  | queue _ | turn _ _ | netClosed | hangUp | cleanup _ _ =>
    exact { hheld with
      unanswered := h.unanswered, gone := h.gone, bound_token := h.bound_token
      answered_token := h.answered_token, unanswered_token := h.unanswered_token }

/-- Whatever database is restored, the registry is consistent. -/
theorem consistent_boot (state : S) (frame : FrameState) (cluster : ClusterConfig)
    (peerRt launcherLinked : Bool) (stateDb : Option SessionTable) (clk : Clock)
    (find : Enumeration (SessionId × SessionRecord)) :
    Consistent
      (CalloopData.boot state frame cluster peerRt launcherLinked stateDb clk
        find).sessionRegistry := by
  cases stateDb with
  | none => exact consistent_withStore cluster.localId defaultCapacity .null
  | some db =>
    exact step_invariant consistent_move
      (consistent_withStore cluster.localId defaultCapacity (.sqlite (.openFile db)))
      (.restorePersisted find)

theorem authorized_startWith {d : CalloopData S} (hd : CalloopData.Bound false d)
    (hconsistent : Consistent d.sessionRegistry) : Authorized (startWith d) :=
  { linked_startWith hd with
    consistent := hconsistent
    once := fun hmem => absurd hmem not_mem_nil
    brought := fun hmem => absurd hmem not_mem_nil
    session := fun htalk => absurd (Option.some.inj htalk) (by simp)
    unanswered := fun hphase => absurd hphase (by simp [startWith, start])
    gone := fun hmem => absurd hmem not_mem_nil
    bound_token := fun hmem => absurd hmem not_mem_nil
    answered_token := fun hmem => absurd hmem not_mem_nil
    unanswered_token := fun hmem => absurd hmem not_mem_nil }

/-- A session is suspended for a newcomer only if the newcomer presents its token. -/
theorem Authorized.suspended_token (h : Authorized s) {conn : ℕ} {bound : Option SessionBinding}
    {newcomer : RoutedClient} (hnext : s.net.sent[s.handled]? = some (conn, .clientDisconnected))
    (hpreempted : .preempted conn bound newcomer ∈ s.net.log) {i : SessionId} {session : Session}
    (hact : s.compositor.activeSession = some i)
    (hs : s.compositor.sessionRegistry.sessions.get i = some session) :
    newcomer.hello.token = some session.token.str := by
  obtain ⟨current, next, hcurrent, htalk, -⟩ := h.talk_next hnext
  obtain ⟨hor, -⟩ := Option.ite_none_right_eq_some.mp htalk
  rcases hor with rfl | rfl
  · -- nothing is bound between two connections
    rw [(h.bound hcurrent).idle rfl] at hact
    exact absurd hact (by simp)
  · obtain ⟨binding, session', hanswered, hs', htok⟩ := h.session hcurrent hact
    obtain rfl := Option.some.inj (hs.symm.trans hs')
    rw [h.answered_token hpreempted hanswered, htok]

/-- **Takeovers are authorized where the clients that wait present the token.**  In every run in
which the next client that waits behind a connection always presents the token of its session: a
connection that is bound is ended for a newcomer only if the newcomer's hello carries the token of
the binding, and the end of a connection in favour of a newcomer suspends only a session whose token
the newcomer carries. -/
theorem takeover_authorized (desktop : Desktop S) (state : S) (frame : FrameState)
    (cluster : ClusterConfig) (peerRt launcherLinked : Bool) (stateDb : Option SessionTable)
    (clk : Clock) (find : Enumeration (SessionId × SessionRecord)) (events : List (SystemEvent S)) :
    let start := startWith
      (CalloopData.boot state frame cluster peerRt launcherLinked stateDb clk find)
    Along (step desktop) NextPresents start events →
    let s := start.run desktop events
    (∀ conn binding newcomer, .preempted conn (some binding) newcomer ∈ s.net.log →
      newcomer.hello.token = some binding.token) ∧
    ∀ conn bound newcomer i session,
      s.net.sent[s.handled]? = some (conn, .clientDisconnected) →
      .preempted conn bound newcomer ∈ s.net.log → s.compositor.activeSession = some i →
      s.compositor.sessionRegistry.get i = some session →
      newcomer.hello.token = some session.token.str := by
  intro start hpresents s
  have hstart : Authorized start := authorized_startWith
    (CalloopData.bound_boot state frame cluster peerRt launcherLinked stateDb clk find)
    (consistent_boot state frame cluster peerRt launcherLinked stateDb clk find)
  have hkeep : ∀ (s : Server S) e,
      Authorized s → NextPresents s e → Authorized (s.step desktop e) :=
    fun s e hs he => authorized_step hs e he
  have hrun : Authorized s := hpresents.invariant hkeep hstart
  exact ⟨fun conn binding newcomer => hrun.bound_token,
    fun conn bound newcomer i session hnext hmem hact hs => hrun.suspended_token hnext hmem hact hs⟩

section Witness

open CalloopData

/-- A client of another token takes over, and the compositor handles the end of the first
connection. -/
def foreignTakesOver : List (SystemEvent Unit) :=
  [.thread (.accept (.clientHello (withClipboard "u")) "d"), .thread .preempt, .handle quiet]

/-- The connection bound to `"t"` is ended for a client that presents `"u"`, and its session is
suspended. -/
theorem takeover_without_token :
    let s := booted.run nullDesktop (firstBound ++ foreignTakesOver)
    .preempted 0 (some ⟨1, false, "t"⟩) ⟨1, withClipboard "u", "d"⟩ ∈ s.net.log ∧
      (withClipboard "u").token ≠ some "t" ∧
      ((s.compositor.sessionRegistry.get ⟨1⟩).map fun session => (session.token, session.state)) =
        some (⟨"t"⟩, .suspended) := by
  decide

/-- A second client of the token takes over. -/
def ownTakesOver : List (SystemEvent Unit) :=
  firstBound ++ [.thread (.accept (.clientHello (withClipboard "t")) "d"), .thread .preempt]

/-- The second client presents the token of the session. -/
theorem takeover_authorized_own :
    .preempted 0 (some ⟨1, false, "t"⟩) ⟨1, withClipboard "t", "d"⟩ ∈
        (booted.run nullDesktop ownTakesOver).net.log ∧
      (withClipboard "t").token = some (⟨1, false, "t"⟩ : SessionBinding).token := by
  have hmem : .preempted 0 (some ⟨1, false, "t"⟩) ⟨1, withClipboard "t", "d"⟩ ∈
      (booted.run nullDesktop ownTakesOver).net.log := by decide
  refine ⟨hmem, (takeover_authorized nullDesktop () ⟨[], 0, false, 0⟩ ⟨"", "", []⟩ false false none
    ⟨0, 0⟩ .stored ownTakesOver ?_).1 0 ⟨1, false, "t"⟩ ⟨1, withClipboard "t", "d"⟩ hmem⟩
  exact ⟨trivial, trivial, trivial, trivial, trivial, trivial, trivial, rfl, trivial⟩

end Witness

end Server

end WayRay
