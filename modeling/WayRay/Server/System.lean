import WayRay.Headless.Binding
import WayRay.Network.Dialogue

/-!
# A server

The two threads of `wrsrvd` together: the network thread and the compositor, joined by their
channels.  The compositor takes the events of the network thread one by one, in the order in which
they were sent, and answers a connecting client to the connection it came from.

`Linked` is the invariant that holds between the two: the compositor's binding agrees with what it
has heard so far, and it has answered only connections it has heard of.
-/

namespace WayRay

open List SessionRegistry

/-- A server. -/
structure Server (S : Type) where
  net : ServerLoop
  compositor : CalloopData S
  /-- How many events of the network thread the compositor has handled. -/
  handled : ℕ

/-- What happens to a server. -/
inductive SystemEvent (S : Type) where
  | thread (e : ThreadEvent)
  /-- The compositor handles the next event of the network thread. -/
  | handle (env : Surroundings)
  /-- The compositor, or the thread that reads a selection for it, queues a message. -/
  | queue (msg : CompositorToNet)
  | cleanup (cleanedAt prunedAt : Clock)
  /-- Wayland dispatch and rendering. -/
  | turn (state : S) (frame : FrameState)
  | netClosed
  | hangUp

namespace Server

variable {S : Type} {s : Server S} {desktop : Desktop S}

/-- What the compositor has heard of the network thread. -/
def heard (s : Server S) : List (ℕ × NetToCompositor) := s.net.sent.take s.handled

/-- The connection that the compositor has handled `ClientConnected` of last. -/
def epoch (s : Server S) : Option ℕ := (ServerLoop.announcements s.heard).getLast?

/-- The compositor handles the next event. -/
def handle (desktop : Desktop S) (s : Server S) (env : Surroundings) : Server S :=
  match s.net.sent[s.handled]? with
  | none => s
  | some (conn, msg) =>
    let (reply, compositor) := CalloopData.drainEvent desktop s.compositor env msg
    { net :=
        match reply with
        | some decision => s.net.answer conn decision
        | none => s.net
      compositor := compositor
      handled := s.handled + 1 }

def step (desktop : Desktop S) (s : Server S) : SystemEvent S → Server S
  | .thread e => { s with net := s.net.stepThread e }
  | .handle env => s.handle desktop env
  | .queue msg => { s with net := s.net.queue s.epoch msg }
  | .cleanup cleanedAt prunedAt =>
    { s with compositor := s.compositor.cleanupTick cleanedAt prunedAt }
  | .turn state frame =>
    { s with compositor := { s.compositor with state := state, toFrameState := frame } }
  | .netClosed => { s with compositor := { s.compositor with clientConnected := false } }
  | .hangUp => { s with net := { s.net with compositorAlive := false } }

def run (desktop : Desktop S) (s : Server S) (events : List (SystemEvent S)) : Server S :=
  events.foldl (step desktop) s

/-- A server at its start, with a compositor that is about to enter its main loop. -/
def startWith (d : CalloopData S) : Server S := ⟨.start, d, 0⟩

/-! ### What the compositor hears -/

/-- More is sent; what was heard stays. -/
theorem take_sent {l l' : ServerLoop} {entries : List LogEntry} (hlog : l'.log = l.log ++ entries)
    {n : ℕ} (hn : n ≤ l.sent.length) : l'.sent.take n = l.sent.take n := by
  rw [ServerLoop.sent_append hlog, take_append_of_le_length hn]

theorem sent_answer (l : ServerLoop) (conn : ℕ) (decision : ConnectDecision) :
    (l.answer conn decision).sent = l.sent := by
  rw [ServerLoop.sent_append (ServerLoop.answer_log conn decision)]
  exact append_nil _

/-- The two ways in which the compositor handles an event: a connecting client is answered. -/
theorem handle_cases (desktop : Desktop S) (s : Server S) (env : Surroundings) :
    s.handle desktop env = s ∨
    (∃ conn hello addr, s.net.sent[s.handled]? = some (conn, .clientConnected hello addr) ∧
      s.handle desktop env =
        ⟨s.net.answer conn (s.compositor.connectClient env hello addr).1,
          (s.compositor.connectClient env hello addr).2, s.handled + 1⟩) ∨
    ∃ conn msg, s.net.sent[s.handled]? = some (conn, msg) ∧ msg.isConnected = false ∧
      s.handle desktop env =
        ⟨s.net, (CalloopData.drainEvent desktop s.compositor env msg).2, s.handled + 1⟩ := by
  unfold handle
  cases hsent : s.net.sent[s.handled]? with
  | none => exact .inl rfl
  | some entry =>
    obtain ⟨conn, msg⟩ := entry
    cases msg with
    | clientConnected hello addr => exact .inr (.inl ⟨conn, hello, addr, rfl, rfl⟩)
    | input msg => exact .inr (.inr ⟨conn, .input msg, rfl, rfl, rfl⟩)
    | control msg => exact .inr (.inr ⟨conn, .control msg, rfl, rfl, rfl⟩)
    | clientDisconnected => exact .inr (.inr ⟨conn, .clientDisconnected, rfl, rfl, rfl⟩)

/-- The invariant between the two threads. -/
structure Linked (s : Server S) : Prop where
  spoken : ServerLoop.Spoken s.net
  handled_le : s.handled ≤ s.net.sent.length
  bound : ∀ {current}, s.heard.foldlM talk none = some current →
    CalloopData.Bound current.isSome s.compositor
  answered : ∀ {conn decision}, .answered conn decision ∈ s.net.log →
    conn ∈ ServerLoop.announcements s.heard

/-- The compositor has heard the beginning of a conversation. -/
theorem Linked.talk_heard (h : Linked s) : ∃ current, s.heard.foldlM talk none = some current := by
  have htalks := h.spoken.talks
  rw [← take_append_drop s.handled s.net.sent, foldlM_append] at htalks
  obtain ⟨current, hcurrent, -⟩ := Option.bind_eq_some_iff.mp htalks
  exact ⟨current, hcurrent⟩

/-- What the compositor hears next continues what it has heard. -/
theorem Linked.talk_next (h : Linked s) {entry : ℕ × NetToCompositor}
    (hnext : s.net.sent[s.handled]? = some entry) :
    ∃ current next, s.heard.foldlM talk none = some current ∧ talk current entry = some next ∧
      (s.heard ++ [entry]).foldlM talk none = some next := by
  have htalks := h.spoken.talks
  have hsplit : s.net.sent = s.heard ++ [entry] ++ s.net.sent.drop (s.handled + 1) := by
    have htake : s.net.sent.take (s.handled + 1) = s.heard ++ [entry] := by
      rw [take_add_one, hnext]
      rfl
    rw [← htake, take_append_drop]
  rw [hsplit, foldlM_append] at htalks
  obtain ⟨next, hheard, -⟩ := Option.bind_eq_some_iff.mp htalks
  have hboth := hheard
  rw [foldlM_append] at hboth
  obtain ⟨current, hcurrent, hone⟩ := Option.bind_eq_some_iff.mp hboth
  rw [foldlM_cons] at hone
  obtain ⟨next', hnext', hnil⟩ := Option.bind_eq_some_iff.mp hone
  obtain rfl : next' = next := Option.some.inj hnil
  exact ⟨current, next', hcurrent, hnext', hheard⟩

/-- An event of the compositor keeps the binding right. -/
theorem Linked.bound_next (desktop : Desktop S) (h : Linked s) {conn : ℕ} {msg : NetToCompositor}
    (hnext : s.net.sent[s.handled]? = some (conn, msg)) (env : Surroundings) {current : Option ℕ}
    (hcurrent : (s.heard ++ [(conn, msg)]).foldlM talk none = some current) :
    CalloopData.Bound current.isSome (CalloopData.drainEvent desktop s.compositor env msg).2 := by
  obtain ⟨before, next, hbefore, htalk, hheard⟩ := h.talk_next hnext
  obtain rfl : next = current := Option.some.inj (hheard.symm.trans hcurrent)
  have hbound := h.bound hbefore
  cases msg with
  | clientConnected hello addr =>
    obtain ⟨rfl, heq⟩ := Option.ite_none_right_eq_some.mp htalk
    obtain rfl := Option.some.inj heq
    exact CalloopData.bound_connectClient desktop hbound hello addr
  | input msg | control msg =>
    obtain ⟨rfl, heq⟩ := Option.ite_none_right_eq_some.mp htalk
    obtain rfl := Option.some.inj heq
    exact CalloopData.bound_relayed desktop hbound rfl
  | clientDisconnected =>
    obtain ⟨-, heq⟩ := Option.ite_none_right_eq_some.mp htalk
    obtain rfl := Option.some.inj heq
    exact CalloopData.bound_disconnectClient desktop hbound

/-- What the compositor has heard once it has handled an event. -/
theorem take_succ_sent {entry : ℕ × NetToCompositor}
    (hnext : s.net.sent[s.handled]? = some entry) :
    s.net.sent.take (s.handled + 1) = s.heard ++ [entry] := by
  rw [take_add_one, hnext]
  rfl

theorem heard_next {s' : Server S} {entry : ℕ × NetToCompositor}
    (hnext : s.net.sent[s.handled]? = some entry) (hsent : s'.net.sent = s.net.sent)
    (hhandled : s'.handled = s.handled + 1) : s'.heard = s.heard ++ [entry] := by
  rw [heard, hsent, hhandled, take_succ_sent hnext]

/-- The compositor handles the next event, and answers only who has been announced. -/
theorem Linked.next (desktop : Desktop S) (h : Linked s) {s' : Server S} {conn : ℕ}
    {msg : NetToCompositor} (hnext : s.net.sent[s.handled]? = some (conn, msg))
    (env : Surroundings) (hsent : s'.net.sent = s.net.sent) (hhandled : s'.handled = s.handled + 1)
    (hspoken : ServerLoop.Spoken s'.net)
    (hcompositor : s'.compositor = (CalloopData.drainEvent desktop s.compositor env msg).2)
    (hlog : ∀ {conn' decision}, .answered conn' decision ∈ s'.net.log →
      .answered conn' decision ∈ s.net.log ∨ conn' ∈ ServerLoop.announcements [(conn, msg)]) :
    Linked s' := by
  have hheard : s'.heard = s.heard ++ [(conn, msg)] := heard_next hnext hsent hhandled
  refine ⟨hspoken, ?_, ?_, ?_⟩
  · rw [hsent, hhandled]
    exact (List.getElem?_eq_some_iff.mp hnext).1
  · intro current hcurrent
    rw [hheard] at hcurrent
    rw [hcompositor]
    exact h.bound_next desktop hnext env hcurrent
  · intro conn' decision hmem
    rw [hheard, ServerLoop.announcements_append]
    rcases hlog hmem with hold | hnew
    · exact mem_append_left _ (h.answered hold)
    · exact mem_append_right _ hnew

theorem linked_handle (h : Linked s) (env : Surroundings) : Linked (s.handle desktop env) := by
  rcases handle_cases desktop s env with heq | ⟨conn, hello, addr, hnext, heq⟩ |
    ⟨conn, msg, hnext, hmsg, heq⟩ <;> rw [heq]
  · exact h
  · refine h.next desktop hnext env (sent_answer _ _ _) rfl
      (ServerLoop.spoken_answer h.spoken conn _) rfl fun {conn' decision} hmem => ?_
    rcases mem_append.mp hmem with hold | hnew
    · exact Or.inl hold
    · obtain ⟨rfl, -⟩ := LogEntry.answered.inj (mem_singleton.mp hnew)
      exact Or.inr (mem_singleton_self _)
  · exact h.next desktop hnext env rfl rfl h.spoken rfl Or.inl

/-- Another thread or another part of the compositor takes a step. -/
theorem Linked.other (h : Linked s) {s' : Server S} {entries : List LogEntry}
    (hspoken : ServerLoop.Spoken s'.net) (hlog : s'.net.log = s.net.log ++ entries)
    (hnone : ∀ conn decision, .answered conn decision ∉ entries) (hhandled : s'.handled = s.handled)
    (hbound : ∀ {begun}, CalloopData.Bound begun s.compositor →
      CalloopData.Bound begun s'.compositor) : Linked s' := by
  have hheard : s'.heard = s.heard := by
    rw [heard, hhandled, take_sent hlog h.handled_le, heard]
  refine ⟨hspoken, ?_, ?_, ?_⟩
  · rw [hhandled, ServerLoop.sent_append hlog, length_append]
    exact h.handled_le.trans (Nat.le_add_right _ _)
  · rw [hheard]
    exact fun hcurrent => hbound (h.bound hcurrent)
  · rw [hheard, hlog]
    intro conn decision hmem
    rcases mem_append.mp hmem with hold | hnew
    · exact h.answered hold
    · exact absurd hnew (hnone conn decision)

/-- What the network thread does keeps the invariant. -/
theorem linked_turn (h : Linked s) {l : ServerLoop} (hturn : ServerLoop.Turn s.net l) :
    Linked { s with net := l } := by
  obtain ⟨entries, hlog, hnone⟩ := ServerLoop.turn_log hturn
  exact h.other (ServerLoop.spoken_turn h.spoken hturn) hlog hnone rfl id

/-- **Step lemma**: every step of the server keeps the invariant. -/
theorem linked_step (h : Linked s) (e : SystemEvent S) : Linked (s.step desktop e) := by
  have hnil : s.net.log = s.net.log ++ [] := (append_nil _).symm
  cases e with
  | thread e =>
    rcases s.net.stepThread_turn e with hsame | hturn
    · rwa [step, hsame]
    · exact linked_turn h hturn
  | handle env => exact linked_handle h env
  | queue msg =>
    exact h.other (ServerLoop.spoken_queue h.spoken s.epoch msg) hnil (by simp) rfl id
  | cleanup cleanedAt prunedAt =>
    exact h.other h.spoken hnil (by simp) rfl fun hb =>
      CalloopData.bound_cleanupTick desktop hb cleanedAt prunedAt
  | turn state frame =>
    exact h.other h.spoken hnil (by simp) rfl fun hb => ⟨hb.1, hb.2, hb.3, hb.4, hb.5⟩
  | netClosed =>
    exact h.other h.spoken hnil (by simp) rfl fun hb =>
      ⟨hb.own_ids, hb.active_iff, hb.addr, fun hc => absurd hc (by simp [step]), hb.idle⟩
  | hangUp => exact linked_turn h (.ends s.net s.net.acceptorAlive false)

theorem linked_startWith {d : CalloopData S} (hd : CalloopData.Bound false d) :
    Linked (startWith d) where
  spoken := ServerLoop.spoken_start
  handled_le := Nat.zero_le _
  bound hcurrent := by
    obtain rfl := Option.some.inj hcurrent
    exact hd
  answered hmem := absurd hmem not_mem_nil

end Server

end WayRay
