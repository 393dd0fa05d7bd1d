import WayRay.Collections.GuardedRun
import WayRay.Server.System

/-!
# Connection isolation

One channel from the compositor is shared by all connections, one after the other.  A connection
writes only what was queued for it, provided that, whenever the compositor handles the
`ClientConnected` of a connection, nothing is left in the channel that this connection would write
(`written_own`).  The network thread does not see to that: the channel is drained only while no
client is served, and the gate of the keyframe holds back only frames, so that a clipboard queued
for one client reaches the client that preempts it (`clipboard_leaks`).

`Clean` says that a connection passes over what is stale in the channel; `Isolated` is the
invariant.
-/

namespace WayRay

open List GuardedRun ServerLoop

/-- Whether the relay has seen the keyframe of its connection. -/
def ServeStage.keyframeSeen : ServeStage → Bool
  | relaying _ keyframeSeen => keyframeSeen
  | routed | resolving _ | redirecting | greeting _ => false

/-- What is stale in the channel does not pass, and the rest was queued for the connection. -/
def Clean (client : RoutedClient) (keyframeSeen : Bool) (rx : List Queued) : Prop :=
  ∃ stale fresh, rx = stale ++ fresh ∧
    (∀ queued ∈ stale, client.capabilities.passes keyframeSeen queued.msg = false) ∧
    ∀ queued ∈ fresh, queued.epoch = some client.conn

variable {client : RoutedClient} {keyframeSeen : Bool}

/-- A keyframe that does not pass opens the gate for nothing: the client renders no frames. -/
theorem passes_after {capabilities : ClientCapabilities} {msg msg' : CompositorToNet}
    (h : capabilities.passes keyframeSeen msg = false)
    (h' : capabilities.passes keyframeSeen msg' = false) :
    capabilities.passes (keyframeSeen || msg.isKeyframe) msg' = false := by
  cases msg with
  | sendKeyframe frame =>
    have hdisplay : capabilities.display = false := h
    cases msg' with
    | sendFrame _ => simp [ClientCapabilities.passes, hdisplay]
    | sendKeyframe _ | sendControl _ | sendAudio _ | shutdown => exact h'
  | sendFrame _ | sendControl _ | sendAudio _ | shutdown => simpa [CompositorToNet.isKeyframe]

/-- What the relay takes and writes was queued for the connection. -/
theorem clean_taken {queued : Queued} {rest : List Queued}
    (h : Clean client keyframeSeen (queued :: rest)) :
    (client.capabilities.passes keyframeSeen queued.msg = true →
      queued.epoch = some client.conn) ∧
    Clean client (keyframeSeen || queued.msg.isKeyframe) rest := by
  obtain ⟨stale, fresh, heq, hstale, hfresh⟩ := h
  cases stale with
  | nil =>
    rw [nil_append] at heq
    subst heq
    exact ⟨fun _ => hfresh _ mem_cons_self,
      [], rest, rfl, by simp, fun q hq => hfresh q (mem_cons_of_mem _ hq)⟩
  | cons first stale =>
    obtain ⟨rfl, rfl⟩ := cons_eq_cons.mp heq
    have hfirst := hstale _ mem_cons_self
    refine
      ⟨fun hpass => absurd (hfirst.symm.trans hpass) (by decide), stale, fresh, rfl, ?_, hfresh⟩
    exact fun q hq => passes_after hfirst (hstale q (mem_cons_of_mem _ hq))

/-- The last connection announced. -/
theorem getLast_announcements {w : List (ℕ × NetToCompositor)} {current : Option ℕ} {conn : ℕ}
    (h : w.foldlM talk current = some (some conn)) :
    (announcements w).getLast? = some conn ∨ (current = some conn ∧ announcements w = []) := by
  induction w generalizing current with
  | nil => exact .inr ⟨Option.some.inj h, rfl⟩
  | cons entry w ih =>
    obtain ⟨conn', msg⟩ := entry
    rw [foldlM_cons] at h
    obtain ⟨next, hnext, h⟩ := Option.bind_eq_some_iff.mp h
    have hsame : msg.isConnected = false →
        announcements ((conn', msg) :: w) = announcements w := by
      intro hmsg
      simp [announcements, hmsg]
    cases msg with
    | clientConnected hello addr =>
      obtain ⟨rfl, heq⟩ := Option.ite_none_right_eq_some.mp hnext
      obtain rfl := Option.some.inj heq
      have hcons : announcements ((conn', .clientConnected hello addr) :: w) =
          conn' :: announcements w := rfl
      rw [hcons, getLast?_cons]
      rcases ih h with hlast | ⟨hcurrent, hnil⟩
      · exact .inl (by rw [hlast, Option.getD_some])
      · obtain rfl := Option.some.inj hcurrent
        exact .inl (by rw [hnil]; rfl)
    | input msg | control msg =>
      obtain ⟨rfl, heq⟩ := Option.ite_none_right_eq_some.mp hnext
      obtain rfl := Option.some.inj heq
      rw [hsame rfl]
      exact ih h
    | clientDisconnected =>
      obtain ⟨-, heq⟩ := Option.ite_none_right_eq_some.mp hnext
      obtain rfl := Option.some.inj heq
      rw [hsame rfl]
      exact (ih h).imp_right fun hc => absurd hc.1 (by simp)

/-- A connection announces itself with one hello. -/
theorem announcement_unique {w : List (ℕ × NetToCompositor)} (h : (announcements w).Nodup)
    {conn : ℕ} {msg msg' : NetToCompositor} (hmem : (conn, msg) ∈ w) (hmem' : (conn, msg') ∈ w)
    (hmsg : msg.isConnected = true) (hmsg' : msg'.isConnected = true) : msg = msg' := by
  have heq :=
    inj_on_of_nodup_map h (mem_filter.mpr ⟨hmem, hmsg⟩) (mem_filter.mpr ⟨hmem', hmsg'⟩) rfl
  exact (Prod.mk.inj heq).2

namespace Server

variable {S : Type} {s : Server S} {desktop : Desktop S}

/-! ### The connection that is served -/

theorem announcements_split (s : Server S) :
    announcements s.net.sent =
      announcements s.heard ++ announcements (s.net.sent.drop s.handled) := by
  rw [← announcements_append, heard, take_append_drop]

theorem Linked.not_announced (h : Linked s) {conn : ℕ}
    (hconn : conn ∈ s.net.phase.unannounced ++ s.net.clientRx.map (·.conn)) :
    conn ∉ announcements s.net.sent :=
  fun hmem => (nodup_append.mp h.spoken.nodup).2.2 conn hmem conn hconn rfl

/-- The compositor has not heard of a connection that is not announced. -/
theorem Linked.not_heard (h : Linked s) {conn : ℕ}
    (hconn : conn ∈ s.net.phase.unannounced ++ s.net.clientRx.map (·.conn)) :
    conn ∉ announcements s.heard := by
  intro hheard
  refine h.not_announced hconn ?_
  rw [announcements_split]
  exact mem_append_left _ hheard

/-- Once it is answered, the compositor has handled the announcement of a connection. -/
theorem Linked.heard_of_answered (h : Linked s) {stage : ServeStage}
    (hphase : s.net.phase = .serving client stage) (hrouted : stage ≠ .routed)
    (hresolving : stage ≠ .resolving none) : client.conn ∈ announcements s.heard := by
  have hlogged := h.spoken.logged hphase
  have hsecond : ∀ {decision}, boundLog client decision <+ s.net.log →
      client.conn ∈ announcements s.heard :=
    fun hsub => h.answered (hsub.subset (mem_cons_of_mem _ mem_cons_self))
  cases stage with
  | routed => exact absurd rfl hrouted
  | redirecting =>
    obtain ⟨serverId, addr, hsub⟩ := hlogged
    exact hsecond hsub
  | resolving reply =>
    cases reply with
    | none => exact absurd rfl hresolving
    | some decision => exact hsecond hlogged
  | greeting _ | relaying _ _ => exact hsecond hlogged

/-- Once the compositor has handled the announcement of the connection that is served, it is the
last one handled. -/
theorem Linked.epoch_eq (h : Linked s) {stage : ServeStage}
    (hphase : s.net.phase = .serving client stage) (hheard : client.conn ∈ announcements s.heard) :
    s.epoch = some client.conn := by
  have hannounced : s.net.phase.announced = some client.conn := by
    cases stage with
    | routed =>
      have hunannounced : client.conn ∈ s.net.phase.unannounced := by
        rw [hphase]
        exact mem_singleton_self _
      exact absurd hheard (h.not_heard (mem_append_left _ hunannounced))
    | resolving _ | redirecting | greeting _ | relaying _ _ =>
      rw [hphase]
      rfl
  have hlast := getLast_announcements (hannounced ▸ h.spoken.talks)
  have hnodup := (nodup_append.mp h.spoken.nodup).1
  rw [announcements_split] at hlast hnodup
  rcases hlast with hlast | ⟨hnone, -⟩
  · cases hdrop : (announcements (s.net.sent.drop s.handled)).getLast? with
    | none => rwa [getLast?_append, hdrop, Option.none_or] at hlast
    | some last =>
      -- else the connection would be announced twice
      rw [getLast?_append, hdrop, Option.some_or] at hlast
      obtain rfl := Option.some.inj hlast
      exact absurd rfl ((nodup_append.mp hnodup).2.2 _ hheard _ (mem_of_getLast? hdrop))
  · exact absurd hnone (by simp)

/-! ### The invariant -/

/-- What is written on a connection was queued for it, and will be. -/
structure Isolated (s : Server S) : Prop extends Linked s where
  own : ∀ {conn queued}, (conn, queued) ∈ s.net.written → queued.epoch = some conn
  clean : ∀ {client stage}, s.net.phase = .serving client stage →
    client.conn ∈ announcements s.heard → Clean client stage.keyframeSeen s.net.compositorRx

/-- When the compositor handles the announcement of a connection, the channel holds nothing that the
connection would write. -/
def FindsNothingStale (s : Server S) : SystemEvent S → Prop
  | .handle _ => ∀ conn hello addr,
    s.net.sent[s.handled]? = some (conn, .clientConnected hello addr) →
    ∀ queued ∈ s.net.compositorRx,
      (ClientCapabilities.fromAdvertised hello.capabilities).passes false queued.msg = false
  | _ => True

/-- Nothing changes for the connection that is served. -/
theorem Isolated.same (h : Isolated s) {s' : Server S} (hlinked : Linked s')
    (hwritten : s'.net.written = s.net.written) (hrx : s'.net.compositorRx = s.net.compositorRx)
    (hannounced : announcements s'.heard = announcements s.heard)
    (hphase : ∀ {client stage}, s'.net.phase = .serving client stage →
      client.conn ∈ announcements s.heard →
      ∃ stage', s.net.phase = .serving client stage' ∧ stage'.keyframeSeen = stage.keyframeSeen) :
    Isolated s' := by
  refine { hlinked with own := ?_, clean := ?_ }
  · rw [hwritten]
    exact h.own
  · rw [hrx, hannounced]
    intro client stage hserving hheard
    obtain ⟨stage', hserving', hseen⟩ := hphase hserving hheard
    exact hseen ▸ h.clean hserving' hheard

/-- What the relay writes was queued for its connection, which is bound, so that the compositor has
handled its announcement. -/
theorem isolated_taken (h : Isolated s) {binding : SessionBinding} {keyframeSeen : Bool}
    {queued : Queued} {rest : List Queued}
    (hphase : s.net.phase = .serving client (.relaying binding keyframeSeen))
    (hrx : s.net.compositorRx = queued :: rest) :
    (∀ {conn queued'},
      (conn, queued') ∈ (s.net.taken client binding keyframeSeen queued rest).written →
        queued'.epoch = some conn) ∧
    Clean client (keyframeSeen || queued.msg.isKeyframe) rest := by
  have hclean := h.clean hphase (h.heard_of_answered hphase (by simp) (by simp))
  rw [hrx] at hclean
  obtain ⟨hepoch, hrest⟩ := clean_taken hclean
  refine ⟨fun {conn queued'} hwritten => ?_, hrest⟩
  simp only [taken] at hwritten
  split_ifs at hwritten with hpass
  · rcases mem_append.mp hwritten with hold | hnew
    · exact h.own hold
    · obtain ⟨rfl, rfl⟩ := Prod.mk.inj (mem_singleton.mp hnew)
      exact hepoch hpass
  · exact h.own hwritten

/-- A client that still waits in the queue has not been heard of. -/
theorem Linked.not_heard_waiting (h : Linked s) {client : RoutedClient} {rest : List RoutedClient}
    (hrx : s.net.clientRx = client :: rest) : client.conn ∉ announcements s.heard := by
  refine h.not_heard (mem_append_right _ ?_)
  rw [hrx]
  exact mem_cons_self

/-- What the network thread does keeps the invariant. -/
theorem isolated_turn (h : Isolated s) {l : ServerLoop} (hturn : Turn s.net l) :
    Isolated { s with net := l } := by
  obtain ⟨entries, hlog, hnone⟩ := turn_log hturn
  have hlinked : Linked { s with net := l } := linked_turn h.toLinked hturn
  have hheard : heard { s with net := l } = s.heard := take_sent hlog h.handled_le
  have hsame : announcements (heard { s with net := l }) = announcements s.heard := by rw [hheard]
  cases hturn with
  | ends _ _ | route _ _ _ | relay _ _ =>
    exact h.same hlinked rfl rfl hsame fun hserving _ => ⟨_, hserving, rfl⟩
  | drain hidle _ =>
    refine { hlinked with own := h.own, clean := fun hserving _ => ?_ }
    exact absurd (hidle.symm.trans hserving) (by simp)
  | stop _ _ =>
    exact { hlinked with own := h.own, clean := fun hserving _ => absurd hserving (by simp) }
  | abandon _ _ | finish _ _ =>
    exact h.same hlinked rfl rfl hsame fun hserving _ => absurd hserving (by simp [finish])
  | @last client binding keyframeSeen queued rest hphase hrx =>
    refine { hlinked with own := ?_, clean := fun hserving _ => absurd hserving (by simp [finish]) }
    exact (isolated_taken h hphase hrx).1
  | take _ hrx | preempt _ hrx =>
    refine h.same hlinked rfl rfl hsame fun hserving hmem => ?_
    obtain ⟨rfl, rfl⟩ := ServerPhase.serving.inj hserving
    exact absurd hmem (h.toLinked.not_heard_waiting hrx)
  | @announce client hphase =>
    refine h.same hlinked rfl rfl hsame fun hserving hmem => ?_
    obtain ⟨rfl, rfl⟩ := ServerPhase.serving.inj hserving
    exact ⟨.routed, hphase, rfl⟩
  | @decided client decision hphase =>
    cases decision with
    | bind _ | redirect _ _ =>
      refine h.same hlinked rfl rfl hsame fun hserving _ => ?_
      obtain ⟨rfl, rfl⟩ := ServerPhase.serving.inj hserving
      exact ⟨_, hphase, rfl⟩
  | greeted hphase =>
    refine h.same hlinked rfl rfl hsame fun hserving _ => ?_
    obtain ⟨rfl, rfl⟩ := ServerPhase.serving.inj hserving
    exact ⟨_, hphase, rfl⟩
  | @command client binding keyframeSeen queued rest hphase hrx =>
    obtain ⟨hown, hrest⟩ := isolated_taken h hphase hrx
    refine { hlinked with own := hown, clean := fun hserving _ => ?_ }
    obtain ⟨rfl, rfl⟩ := ServerPhase.serving.inj hserving
    exact hrest

/-- The compositor handles an event: if a client is announced, nothing stale passes to it. -/
theorem isolated_handle (h : Isolated s) (env : Surroundings)
    (hstale : FindsNothingStale s (.handle env)) : Isolated (s.handle desktop env) := by
  have hlinked : Linked (s.handle desktop env) := linked_handle h.toLinked env
  rcases handle_cases desktop s env with heq | ⟨conn, hello, addr, hnext, heq⟩ |
    ⟨conn, msg, hnext, hmsg, heq⟩ <;> rw [heq] at hlinked ⊢
  · exact h
  · have hheard : heard ⟨s.net.answer conn (s.compositor.connectClient env hello addr).1,
        (s.compositor.connectClient env hello addr).2, s.handled + 1⟩ =
        s.heard ++ [(conn, .clientConnected hello addr)] :=
      heard_next hnext (sent_answer _ _ _) rfl
    refine { hlinked with own := h.own, clean := ?_ }
    rw [hheard, announcements_append]
    intro client stage hserving hmem
    -- the answer may reach the connection, which does not relay yet
    have hbefore : ∃ stage', s.net.phase = .serving client stage' ∧
        stage'.keyframeSeen = stage.keyframeSeen := by
      rcases answer_phase hserving with ⟨hphase, -⟩ | ⟨hphase, rfl, -⟩
      · exact ⟨stage, hphase, rfl⟩
      · exact ⟨_, hphase, rfl⟩
    obtain ⟨stage', hphase, hseen⟩ := hbefore
    rw [← hseen]
    by_cases hold : client.conn ∈ announcements s.heard
    · exact h.clean hphase hold
    · have hconn : client.conn = conn :=
        mem_singleton.mp ((mem_append.mp hmem).resolve_left hold)
      have hsent : (conn, .clientConnected hello addr) ∈ s.net.sent := mem_of_getElem? hnext
      -- it waits for this very answer
      have hstage : stage' = .resolving none := by
        by_contra hne
        refine hold (h.heard_of_answered hphase ?_ hne)
        rintro rfl
        have hpending : client.conn ∈ s.net.phase.unannounced ++ s.net.clientRx.map (·.conn) :=
          mem_append_left _ (by rw [hphase]; exact mem_singleton_self _)
        refine h.not_announced hpending ?_
        rw [hconn]
        exact mem_map.mpr ⟨_, mem_filter.mpr ⟨hsent, rfl⟩, rfl⟩
      subst hstage
      have hown : (client.conn, .clientConnected client.hello client.remoteAddr) ∈ s.net.sent :=
        mem_filterMap.mpr ⟨_, h.spoken.logged hphase, rfl⟩
      have hhello := announcement_unique (nodup_append.mp h.spoken.nodup).1 hown (hconn ▸ hsent)
        rfl rfl
      obtain ⟨rfl, -⟩ := NetToCompositor.clientConnected.inj hhello
      exact ⟨s.net.compositorRx, [], (append_nil _).symm, hstale conn _ addr hnext, by simp⟩
  · have hsame : announcements (heard ⟨s.net, (CalloopData.drainEvent desktop s.compositor env
        msg).2, s.handled + 1⟩) = announcements s.heard := by
      rw [heard, take_succ_sent hnext, announcements_append]
      have hnone : announcements [(conn, msg)] = [] := by simp [announcements, hmsg]
      rw [hnone, append_nil]
    exact h.same hlinked rfl rfl hsame fun hserving _ => ⟨_, hserving, rfl⟩

/-- What the compositor queues is for the connection it has handled the announcement of last. -/
theorem isolated_queue (h : Isolated s) (msg : CompositorToNet) :
    Isolated (s.step desktop (.queue msg)) := by
  refine { (linked_step h.toLinked (.queue msg) : Linked (s.step desktop (.queue msg))) with
    own := h.own, clean := ?_ }
  intro client stage hserving hmem
  obtain ⟨stale, fresh, heq, hstale, hfresh⟩ := h.clean hserving hmem
  have hepoch : s.epoch = some client.conn := h.toLinked.epoch_eq hserving hmem
  have hrx : (s.step desktop (.queue msg)).net.compositorRx =
      stale ++ (fresh ++ [⟨s.epoch, msg⟩]) := by
    rw [← append_assoc, ← heq]
    rfl
  refine ⟨stale, fresh ++ [⟨s.epoch, msg⟩], hrx, hstale, fun queued hqueued => ?_⟩
  rcases mem_append.mp hqueued with hold | hnew
  · exact hfresh queued hold
  · rw [mem_singleton.mp hnew]
    exact hepoch

/-- **Step lemma**: a step that finds nothing stale keeps the invariant. -/
theorem isolated_step (h : Isolated s) (e : SystemEvent S) (hstale : FindsNothingStale s e) :
    Isolated (s.step desktop e) := by
  have hlinked : Linked (s.step desktop e) := linked_step h.toLinked e
  cases e with
  | thread e =>
    rcases s.net.stepThread_turn e with hsame | hturn
    · rwa [step, hsame]
    · exact isolated_turn h hturn
  | handle env => exact isolated_handle h env hstale
  | queue msg => exact isolated_queue h msg
  | cleanup _ _ | turn _ _ | netClosed | hangUp =>
    exact h.same hlinked rfl rfl rfl fun hserving _ => ⟨_, hserving, rfl⟩

theorem isolated_startWith {d : CalloopData S} (hd : CalloopData.Bound false d) :
    Isolated (startWith d) :=
  { linked_startWith hd with
    own := fun hmem => absurd hmem not_mem_nil
    clean := fun hserving => absurd hserving (by simp [startWith, start]) }

/-- **Connections are isolated where nothing stale is found.**  In every run in which the channel,
whenever the compositor handles the announcement of a connection, holds nothing that this connection
would write, every message that is written on a connection was queued after the compositor had
handled the announcement of that connection, and before that of the next. -/
theorem written_own (desktop : Desktop S) (state : S) (frame : FrameState)
    (cluster : ClusterConfig) (peerRt launcherLinked : Bool) (stateDb : Option SessionTable)
    (clk : Clock) (find : Enumeration (SessionId × SessionRecord)) (events : List (SystemEvent S)) :
    let s := startWith (CalloopData.boot state frame cluster peerRt launcherLinked stateDb clk find)
    Along (step desktop) FindsNothingStale s events →
    ∀ conn queued, (conn, queued) ∈ (s.run desktop events).net.written →
      queued.epoch = some conn := by
  intro s hstale conn queued hmem
  have hstart : Isolated s := isolated_startWith
    (CalloopData.bound_boot state frame cluster peerRt launcherLinked stateDb clk find)
  have hkeep : ∀ (s : Server S) e, Isolated s → FindsNothingStale s e →
      Isolated (s.step desktop e) := fun s e hs he => isolated_step hs e he
  have hrun : Isolated (s.run desktop events) := hstale.invariant hkeep hstart
  exact hrun.own hmem

section Witness

open CalloopData

/-- A client that takes part in the clipboard sync. -/
def withClipboard (token : String) : ClientHello := ⟨protocolVersion, [Caps.clipboard], some token⟩

/-- What an application has copied. -/
def copied : CompositorToNet := .sendControl (.clipboardData ⟨"text/plain", [115]⟩)

/-- A server at its start. -/
def booted : Server Unit :=
  startWith (boot () ⟨[], 0, false, 0⟩ ⟨"", "", []⟩ false false none ⟨0, 0⟩ .stored)

/-- A client connects and is bound. -/
def firstBound : List (SystemEvent Unit) :=
  [.thread (.accept (.clientHello (withClipboard "t")) "c"), .thread .next, .thread .announce,
    .handle quiet, .thread (.pollReply false), .thread .greeted]

/-- The next client, of another token, preempts it before the relay has taken the clipboard. -/
def secondPreempts : List (SystemEvent Unit) :=
  [.queue copied, .thread (.accept (.clientHello (withClipboard "u")) "d"), .thread .preempt,
    .thread .announce, .handle quiet, .handle quiet, .thread (.pollReply false), .thread .greeted,
    .thread (.command true)]

/-- The clipboard queued for the first client is written to the second. -/
theorem clipboard_leaks :
    let s := booted.run nullDesktop (firstBound ++ secondPreempts)
    (1, ⟨some 0, copied⟩) ∈ s.net.written ∧
      ¬ ∀ entry ∈ s.net.written, entry.2.epoch = some entry.1 := by
  decide

/-- The relay takes the clipboard in time.  A frame is queued then for the first client, and the
next client preempts it before the frame is taken, so that the frame is read for the second. -/
def writtenInTime : List (SystemEvent Unit) :=
  firstBound ++ [.queue copied, .thread (.command true), .queue (.sendFrame ⟨7, [], 0⟩),
    .thread (.accept (.clientHello (withClipboard "u")) "d"), .thread .preempt, .thread .announce,
    .handle quiet, .handle quiet, .queue copied, .thread (.pollReply false), .thread .greeted,
    .thread (.command true), .thread (.command true)]

/-- The frame is discarded, and each client is sent the clipboard that was queued for it. -/
theorem written_own_inTime :
    (booted.run nullDesktop writtenInTime).net.written =
        [(0, ⟨some 0, copied⟩), (1, ⟨some 1, copied⟩)] ∧
      (⟨some 1, copied⟩ : Queued).epoch = some 1 := by
  have hwritten : (booted.run nullDesktop writtenInTime).net.written =
      [(0, ⟨some 0, copied⟩), (1, ⟨some 1, copied⟩)] := by
    decide
  refine ⟨hwritten, written_own nullDesktop () ⟨[], 0, false, 0⟩ ⟨"", "", []⟩ false false none
    ⟨0, 0⟩ .stored writtenInTime ?_ 1 ⟨some 1, copied⟩ (hwritten ▸ by simp)⟩
  refine ⟨trivial, trivial, trivial, ?_, trivial, trivial, trivial, trivial, trivial, trivial,
    trivial, trivial, ?_, ?_, trivial, trivial, trivial, trivial, trivial, trivial⟩
  · exact fun _ _ _ _ _ hmem => absurd hmem not_mem_nil
  · -- the end of the first connection
    intro conn hello addr hsent
    have hended : some (0, NetToCompositor.clientDisconnected) =
        some (conn, .clientConnected hello addr) := hsent
    cases hended
  · intro _ _ _ _ queued hmem
    obtain rfl : queued = ⟨some 0, .sendFrame ⟨7, [], 0⟩⟩ := mem_singleton.mp hmem
    rfl

end Witness

end Server

end WayRay
