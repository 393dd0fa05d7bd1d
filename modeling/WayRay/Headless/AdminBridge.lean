import WayRay.Headless.Compositor
import WayRay.Session.Snapshot
import WayRay.Sockets.ControlSocket

/-!
# The administration bridge

`admin.rs` of the compositor: a thread of its own serves the admin socket.  `dispatch` hands every
request to the compositor's loop together with a reply channel, and waits for the answer for a
limited time; `drain_admin_queries` answers from the live session registry.

An answer may be late, when nobody waits for it any more.  `answers_run` says that it never reaches
the wrong request: what an administrator is told was true at some time between the request and the
answer.
-/

namespace WayRay

open Connection ControlSocket

variable {S : Type}

/-! ### The bridge -/

/-- One admin request on its way to the compositor, with the number of its reply channel. -/
structure AdminQuery where
  request : AdminRequest
  reply : ℕ
deriving DecidableEq

/-- The reply channel that the admin thread waits at, and what is in its one slot. -/
structure ReplyChannel where
  number : ℕ
  slot : Option AdminResponse

/-- The admin thread and the compositor. -/
structure AdminBridge (S : Type) where
  socket : ControlSocket AdminRequest AdminResponse
  /-- The queries that the compositor has not taken; `none` once it has dropped its end. -/
  rx : Option (List AdminQuery)
  /-- How many reply channels have been made. -/
  channels : ℕ
  waiting : Option ReplyChannel
  /-- The compositor waits for room in a reply channel. -/
  blocked : Bool
  compositor : CalloopData S

/-- What happens at the bridge. -/
inductive AdminEvent (S : Type) where
  | peer (event : PeerEvent AdminRequest)
  /-- The admin thread goes on. -/
  | serve
  /-- The time for an answer is over. -/
  | timeout
  /-- `drain_admin_queries` takes a query. -/
  | drain (clk : Clock) (find : Enumeration Session)
  /-- Anything else in the compositor's loop. -/
  | loop (event : LoopEvent S)
  /-- The compositor drops its end of the channel. -/
  | shutdown

/-- What happens in the compositor's loop beside the bridge. -/
def AdminEvent.loopEvent? : AdminEvent S → Option (LoopEvent S)
  | .loop event => some event
  | .peer _ | .serve | .timeout | .drain _ _ | .shutdown => none

/-- Answer a request from the state of the compositor. -/
def CalloopData.adminResponse (d : CalloopData S) (serverStarted : Instant) (clk : Clock)
    (find : Enumeration Session) : AdminRequest → AdminResponse
  | .listSessions =>
    let connectedClient :=
      (d.activeSession.filter fun _ => d.clientConnected).map fun id => (id, d.connectedClientAddr)
    .sessionList (d.sessionRegistry.adminSnapshot clk connectedClient find)
  | .serverStatus =>
    .serverStatus
      { version := "0.1.0"
        uptimeSecs := Instant.elapsedSecs serverStarted clk.now
        sessions := d.sessionRegistry.stateCounts find
        clusterPeers := d.cluster.peers.length }

namespace AdminBridge

variable (requests : JsonCodec AdminRequest) (responses : JsonCodec AdminResponse)
  (desktop : Desktop S) (serverStarted : Instant)

def shuttingDown : AdminResponse := .error "compositor is shutting down"

def notInTime : AdminResponse := .error "compositor did not answer in time"

/-- The compositor has entered its main loop. -/
def start (compositor : CalloopData S) : AdminBridge S where
  socket := .bind
  rx := some []
  channels := 0
  waiting := none
  blocked := false
  compositor := compositor

/-- `dispatch` returns. -/
def respond (b : AdminBridge S) (response : AdminResponse) : AdminBridge S :=
  { b with waiting := none, socket := b.socket.respond responses (some response) }

/-- The admin thread reads a request, hands it on, or gets an answer. -/
def serve (b : AdminBridge S) : AdminBridge S :=
  match b.socket.handling, b.waiting with
  | none, _ => { b with socket := b.socket.read requests }
  | some request, none =>
    match b.rx with
    | none => b.respond responses shuttingDown
    | some queries =>
      { b with
        rx := some (queries ++ [⟨request, b.channels⟩])
        channels := b.channels + 1
        waiting := some ⟨b.channels, none⟩ }
  | some _, some ⟨_, some response⟩ => b.respond responses response
  | some _, some ⟨number, none⟩ =>
    -- without a query there is no sender, and waiting is in vain
    if (b.rx.getD []).any (·.reply = number) then b else b.respond responses notInTime

/-- `recv_timeout` gives up if there is no answer. -/
def timeout (b : AdminBridge S) : AdminBridge S :=
  match b.waiting with
  | some ⟨_, none⟩ => b.respond responses notInTime
  | _ => b

/-- Send an answer on a reply channel: a channel without a receiver is ignored, and a full one makes
the compositor wait. -/
def send (b : AdminBridge S) (number : ℕ) (response : AdminResponse) : AdminBridge S :=
  match b.waiting with
  | none => b
  | some channel =>
    if channel.number ≠ number then b
    else
      match channel.slot with
      | none => { b with waiting := some ⟨number, some response⟩ }
      | some _ => { b with blocked := true }

/-- Take one query and answer it. -/
def drain (b : AdminBridge S) (clk : Clock) (find : Enumeration Session) : AdminBridge S :=
  match b.rx with
  | some (query :: queries) =>
    { b with rx := some queries }.send query.reply
      (b.compositor.adminResponse serverStarted clk find query.request)
  | _ => b

def step (b : AdminBridge S) : AdminEvent S → AdminBridge S
  | .peer event => { b with socket := b.socket.peerStep requests responses event }
  | .serve => b.serve requests responses
  | .timeout => b.timeout responses
  | .drain clk find => b.drain serverStarted clk find
  | .loop event => { b with compositor := b.compositor.applyEvent desktop event }
  | .shutdown => { b with rx := none }

/-- A run of the bridge. -/
def run (compositor : CalloopData S) (events : List (AdminEvent S)) : AdminBridge S :=
  events.foldl (step requests responses desktop serverStarted) (start compositor)

/-! ### Answers -/

/-- The response was computed while the request was being handled. -/
def Computed (compositor : CalloopData S) (events : List (AdminEvent S)) (connection : ℕ)
    (request : AdminRequest) (response : AdminResponse) : Prop :=
  ∃ before clk find after, events = before ++ AdminEvent.drain clk find :: after ∧
    (run requests responses desktop serverStarted compositor before).socket.serving = connection ∧
    (run requests responses desktop serverStarted compositor before).socket.handling =
      some request ∧
    response =
      (run requests responses desktop serverStarted compositor before).compositor.adminResponse
        serverStarted clk find request

/-- What holds at any time: each query is on its way once, with the request that is being handled,
and each request that has been handled has got an error or a response of its own. -/
structure Inv (compositor : CalloopData S) (events : List (AdminEvent S)) (b : AdminBridge S) :
    Prop where
  socket : b.socket.Inv requests responses
  blocked : b.blocked = false
  numbers : ((b.rx.getD []).map AdminQuery.reply).Nodup
  numbers_lt : ∀ query ∈ b.rx.getD [], query.reply < b.channels
  waiting : ∀ {channel}, b.waiting = some channel →
    channel.number < b.channels ∧ ∃ request, b.socket.handling = some request ∧
      (channel.slot = none → ∀ query ∈ b.rx.getD [], query.reply = channel.number →
        query.request = request) ∧
      ∀ {response}, channel.slot = some response →
        (∀ query ∈ b.rx.getD [], query.reply ≠ channel.number) ∧
          Computed requests responses desktop serverStarted compositor events b.socket.serving
            request response
  log : ∀ handled ∈ b.socket.log, ∃ response, handled.response = some response ∧
    (response = shuttingDown ∨ response = notInTime ∨
      Computed requests responses desktop serverStarted compositor events handled.connection
        handled.request response)

variable {requests responses desktop serverStarted} {compositor : CalloopData S}
  {events : List (AdminEvent S)} {b : AdminBridge S}

/-! ### One step -/

theorem frame_send (b : AdminBridge S) (number : ℕ) (response : AdminResponse) :
    (b.send number response).socket = b.socket ∧
      (b.send number response).compositor = b.compositor := by
  unfold AdminBridge.send
  split
  · exact ⟨rfl, rfl⟩
  · split_ifs
    · exact ⟨rfl, rfl⟩
    · split
      · exact ⟨rfl, rfl⟩
      · exact ⟨rfl, rfl⟩

/-- Answering a query leaves the socket and the state of the compositor alone. -/
theorem frame_drain (b : AdminBridge S) (serverStarted : Instant) (clk : Clock)
    (find : Enumeration Session) :
    (b.drain serverStarted clk find).socket = b.socket ∧
      (b.drain serverStarted clk find).compositor = b.compositor := by
  unfold AdminBridge.drain
  split
  · exact frame_send _ _ _
  · exact ⟨rfl, rfl⟩

theorem compositor_serve (b : AdminBridge S) (requests : JsonCodec AdminRequest)
    (responses : JsonCodec AdminResponse) :
    (b.serve requests responses).compositor = b.compositor := by
  unfold AdminBridge.serve
  split
  · rfl
  · split
    · rfl
    · rfl
  · rfl
  · split_ifs
    · rfl
    · rfl

theorem compositor_timeout (b : AdminBridge S) (responses : JsonCodec AdminResponse) :
    (b.timeout responses).compositor = b.compositor := by
  unfold AdminBridge.timeout
  split
  · rfl
  · rfl

theorem run_append_foldl (more : List (AdminEvent S)) :
    run requests responses desktop serverStarted compositor (events ++ more) =
      more.foldl (step requests responses desktop serverStarted)
        (run requests responses desktop serverStarted compositor events) :=
  List.foldl_append

theorem run_append (event : AdminEvent S) :
    run requests responses desktop serverStarted compositor (events ++ [event]) =
      (run requests responses desktop serverStarted compositor events).step requests responses
        desktop serverStarted event :=
  run_append_foldl [event]

theorem Computed.append {connection : ℕ} {request : AdminRequest} {response : AdminResponse}
    (h : Computed requests responses desktop serverStarted compositor events connection request
      response) (event : AdminEvent S) :
    Computed requests responses desktop serverStarted compositor (events ++ [event]) connection
      request response := by
  obtain ⟨before, clk, find, after, rfl, hrest⟩ := h
  exact ⟨before, clk, find, after ++ [event], by simp, hrest⟩

theorem Inv.append (h : b.Inv requests responses desktop serverStarted compositor events)
    (event : AdminEvent S) :
    b.Inv requests responses desktop serverStarted compositor (events ++ [event]) where
  socket := h.socket
  blocked := h.blocked
  numbers := h.numbers
  numbers_lt := h.numbers_lt
  waiting hwaiting := by
    obtain ⟨hlt, request, hhandling, hopen, hfull⟩ := h.waiting hwaiting
    refine ⟨hlt, request, hhandling, hopen, fun hslot => ?_⟩
    obtain ⟨hgone, hcomputed⟩ := hfull hslot
    exact ⟨hgone, hcomputed.append event⟩
  log handled hmem := by
    obtain ⟨response, heq, hresponse⟩ := h.log handled hmem
    exact ⟨response, heq, hresponse.imp_right fun hrest =>
      hrest.imp_right fun hcomputed => hcomputed.append event⟩

/-- `dispatch` returns an error, or the answer to its own request. -/
theorem Inv.respond (h : b.Inv requests responses desktop serverStarted compositor events)
    {request : AdminRequest} (hhandling : b.socket.handling = some request)
    {response : AdminResponse}
    (hresponse : response = shuttingDown ∨ response = notInTime ∨
      Computed requests responses desktop serverStarted compositor events b.socket.serving request
        response) :
    (b.respond responses response).Inv requests responses desktop serverStarted compositor
      events where
  socket := h.socket.respond _
  blocked := h.blocked
  numbers := h.numbers
  numbers_lt := h.numbers_lt
  waiting hwaiting := by cases hwaiting
  log handled hmem := by
    change handled ∈ (b.socket.respond responses (some response)).log at hmem
    rw [h.socket.log_respond hhandling] at hmem
    rcases List.mem_append.mp hmem with hold | hnew
    · exact h.log handled hold
    · rw [List.mem_singleton.mp hnew]
      exact ⟨response, rfl, hresponse⟩

theorem Inv.peer (h : b.Inv requests responses desktop serverStarted compositor events)
    (event : PeerEvent AdminRequest) :
    { b with socket := b.socket.peerStep requests responses event }.Inv requests responses desktop
      serverStarted compositor events := by
  obtain ⟨hserving, hhandling, hlog⟩ := b.socket.server_peerStep requests responses event
  refine ⟨h.socket.peerStep event, h.blocked, h.numbers, h.numbers_lt, fun hwaiting => ?_,
    fun handled hmem => h.log handled (hlog ▸ hmem)⟩
  obtain ⟨hlt, request, hrequest, hrest⟩ := h.waiting hwaiting
  refine ⟨hlt, request, hhandling.trans hrequest, ?_⟩
  change _ ∧ ∀ {response}, _ → _ ∧ Computed _ _ _ _ _ _ (b.socket.peerStep _ _ event).serving _ _
  rw [hserving]
  exact hrest

/-- The request is handed on with a reply channel of its own. -/
theorem Inv.handOn (h : b.Inv requests responses desktop serverStarted compositor events)
    {request : AdminRequest} (hhandling : b.socket.handling = some request)
    {queries : List AdminQuery} (hrx : b.rx = some queries) :
    Inv requests responses desktop serverStarted compositor events
      { b with
        rx := some (queries ++ [⟨request, b.channels⟩])
        channels := b.channels + 1
        waiting := some ⟨b.channels, none⟩ } := by
  have hlt : ∀ query ∈ queries, query.reply < b.channels :=
    fun query hmem => h.numbers_lt query (hrx.symm ▸ hmem)
  refine ⟨h.socket, h.blocked, ?_, fun query hmem => ?_, fun hchannel => ?_, h.log⟩
  · have hnumbers := h.numbers
    rw [hrx] at hnumbers
    change (List.map AdminQuery.reply (queries ++ [⟨request, b.channels⟩])).Nodup
    rw [List.map_append, List.nodup_append]
    refine ⟨hnumbers, List.nodup_singleton _, fun number hmem number' hnew heq => ?_⟩
    obtain ⟨query, hquery, rfl⟩ := List.mem_map.mp hmem
    rw [List.mem_singleton.mp hnew] at heq
    exact (hlt query hquery).ne heq
  · rcases List.mem_append.mp hmem with hold | hnew
    · exact (hlt query hold).trans (Nat.lt_succ_self _)
    · rw [List.mem_singleton.mp hnew]
      exact Nat.lt_succ_self _
  · obtain rfl := Option.some.inj hchannel
    refine ⟨Nat.lt_succ_self _, request, hhandling, fun _ query hmem hreply => ?_,
      fun hslot => (by cases hslot)⟩
    rcases List.mem_append.mp hmem with hold | hnew
    · exact absurd hreply (hlt query hold).ne
    · rw [List.mem_singleton.mp hnew]

theorem Inv.serve (h : b.Inv requests responses desktop serverStarted compositor events) :
    (b.serve requests responses).Inv requests responses desktop serverStarted compositor
      events := by
  unfold AdminBridge.serve
  cases hhandling : b.socket.handling with
  | none =>
    refine ⟨h.socket.read hhandling, h.blocked, h.numbers, h.numbers_lt, fun hwaiting => ?_,
      fun handled hmem => h.log handled (b.socket.log_read requests ▸ hmem)⟩
    obtain ⟨-, request, hrequest, -⟩ := h.waiting hwaiting
    exact absurd (hhandling.symm.trans hrequest) (Option.some_ne_none request).symm
  | some request =>
    cases hwaiting : b.waiting with
    | none =>
      cases hrx : b.rx with
      | none => exact h.respond hhandling (.inl rfl)
      | some queries => exact h.handOn hhandling hrx
    | some channel =>
      obtain ⟨number, slot⟩ := channel
      cases slot with
      | none =>
        dsimp only
        split_ifs
        · exact h
        · exact h.respond hhandling (.inr (.inl rfl))
      | some response =>
        obtain ⟨-, request', hrequest, -, hfull⟩ := h.waiting hwaiting
        obtain ⟨-, hcomputed⟩ := hfull rfl
        obtain rfl := Option.some.inj (hhandling.symm.trans hrequest)
        exact h.respond hhandling (.inr (.inr hcomputed))

theorem Inv.timeout (h : b.Inv requests responses desktop serverStarted compositor events) :
    (b.timeout responses).Inv requests responses desktop serverStarted compositor events := by
  unfold AdminBridge.timeout
  split
  · next hwaiting =>
    obtain ⟨-, request, hhandling, -⟩ := h.waiting hwaiting
    exact h.respond hhandling (.inr (.inl rfl))
  · exact h

/-- Queries are lost, or taken from the channel. -/
theorem Inv.less (h : b.Inv requests responses desktop serverStarted compositor events)
    {rx : Option (List AdminQuery)} (hrx : (rx.getD []).Sublist (b.rx.getD [])) :
    { b with rx := rx }.Inv requests responses desktop serverStarted compositor events where
  socket := h.socket
  blocked := h.blocked
  numbers := h.numbers.sublist (hrx.map _)
  numbers_lt query hmem := h.numbers_lt query (hrx.subset hmem)
  waiting hwaiting := by
    obtain ⟨hlt, request, hhandling, hopen, hfull⟩ := h.waiting hwaiting
    refine ⟨hlt, request, hhandling, fun hslot query hmem => hopen hslot query (hrx.subset hmem),
      fun hslot => ?_⟩
    obtain ⟨hgone, hcomputed⟩ := hfull hslot
    exact ⟨fun query hmem => hgone query (hrx.subset hmem), hcomputed⟩
  log := h.log

/-- **Taking a query** never blocks, and the answer is sent to whoever asked. -/
theorem Inv.drain
    (h : (run requests responses desktop serverStarted compositor events).Inv requests responses
      desktop serverStarted compositor events) (clk : Clock) (find : Enumeration Session) :
    ((run requests responses desktop serverStarted compositor events).drain serverStarted clk
      find).Inv requests responses desktop serverStarted compositor
        (events ++ [AdminEvent.drain clk find]) := by
  obtain ⟨b, hb⟩ : ∃ b, b = run requests responses desktop serverStarted compositor events :=
    ⟨_, rfl⟩
  rw [← hb] at h ⊢
  unfold AdminBridge.drain
  split
  · next query queries hrx =>
    have hnumbers := h.numbers
    rw [hrx] at hnumbers
    have htaken : { b with rx := some queries }.Inv requests responses desktop serverStarted
        compositor (events ++ [AdminEvent.drain clk find]) := by
      refine (h.less ?_).append _
      rw [hrx]
      exact List.sublist_cons_self _ _
    unfold AdminBridge.send
    cases hwaiting : b.waiting with
    | none =>
      rw [hwaiting] at htaken
      exact htaken
    | some channel =>
      obtain ⟨number, slot⟩ := channel
      rw [hwaiting] at htaken
      dsimp only
      split_ifs with hother
      · exact htaken
      · obtain rfl : number = query.reply := not_not.mp hother
        obtain ⟨hlt, request, hhandling, hopen, hfull⟩ := h.waiting hwaiting
        cases slot with
        | some response =>
          -- each query is sent once: a full slot has nothing left in the queue
          exact absurd rfl ((hfull rfl).1 query (hrx.symm ▸ List.mem_cons_self))
        | none =>
          have hrequest : query.request = request :=
            hopen rfl query (hrx.symm ▸ List.mem_cons_self) rfl
          refine ⟨htaken.socket, htaken.blocked, htaken.numbers, htaken.numbers_lt,
            fun hchannel => ?_, htaken.log⟩
          obtain rfl := Option.some.inj hchannel
          refine ⟨hlt, request, hhandling, fun hslot => (by cases hslot), fun hslot => ?_⟩
          refine ⟨fun query' hmem heq => ?_, events, clk, find, [], rfl, ?_⟩
          · have hreply : query'.reply = query.reply := heq
            exact (List.nodup_cons.mp hnumbers).1 (hreply ▸ List.mem_map_of_mem hmem)
          · rw [← hb, ← Option.some.inj hslot, hrequest]
            exact ⟨rfl, hhandling, rfl⟩
  · exact h.append _

theorem inv_run (events : List (AdminEvent S)) :
    (run requests responses desktop serverStarted compositor events).Inv requests responses desktop
      serverStarted compositor events := by
  induction events using List.reverseRecOn with
  | nil =>
    exact ⟨inv_bind, rfl, List.nodup_nil, fun _ hmem => absurd hmem List.not_mem_nil,
      fun hwaiting => (by cases hwaiting), fun _ hmem => absurd hmem List.not_mem_nil⟩
  | append_singleton events event ih =>
    rw [run_append]
    cases event with
    | peer event => exact (ih.append _).peer event
    | serve => exact (ih.append _).serve
    | timeout => exact (ih.append _).timeout
    | drain clk find => exact ih.drain clk find
    | loop event =>
      have h := ih.append (.loop event)
      exact ⟨h.socket, h.blocked, h.numbers, h.numbers_lt, h.waiting, h.log⟩
    | shutdown => exact (ih.append _).less (List.nil_sublist _)

/-! ### Runs -/

theorem extends_step (event : AdminEvent S) :
    b.socket.Extends (b.step requests responses desktop serverStarted event).socket := by
  cases event with
  | peer event => exact extends_peerStep event
  | serve =>
    change b.socket.Extends (b.serve requests responses).socket
    unfold AdminBridge.serve
    split
    · exact extends_read
    · split
      · exact extends_respond _
      · exact .refl _
    · exact extends_respond _
    · split_ifs
      · exact .refl _
      · exact extends_respond _
  | timeout =>
    change b.socket.Extends (b.timeout responses).socket
    unfold AdminBridge.timeout
    split
    · exact extends_respond _
    · exact .refl _
  | drain clk find =>
    change b.socket.Extends (b.drain serverStarted clk find).socket
    rw [(b.frame_drain serverStarted clk find).1]
    exact .refl _
  | loop | shutdown => exact .refl _

theorem extends_foldl (events : List (AdminEvent S)) :
    b.socket.Extends (events.foldl (step requests responses desktop serverStarted) b).socket := by
  induction events generalizing b with
  | nil => exact .refl _
  | cons event events ih => exact (extends_step event).trans ih

/-- Whoever has an answer has been waiting for it while his request was handled. -/
theorem waiting_of_handling {before after : List (AdminEvent S)} {i : ℕ} {handled : AdminRequest}
    (hserving : (run requests responses desktop serverStarted compositor before).socket.serving = i)
    (hhandling : (run requests responses desktop serverStarted compositor before).socket.handling =
      some handled) {c : Connection AdminRequest AdminResponse} {request : AdminRequest}
    {result : Option (Option AdminResponse)}
    (hget : (run requests responses desktop serverStarted compositor
      (before ++ after)).socket.connections[i]? = some c)
    (hpeer : c.peer = .caller request result) :
    ∃ c₀, (run requests responses desktop serverStarted compositor
      before).socket.connections[i]? = some c₀ ∧ c₀.peer = .caller request none := by
  have hinv : (run requests responses desktop serverStarted compositor before).Inv requests
      responses desktop serverStarted compositor before := inv_run before
  have hlt := hinv.socket.handling (hhandling.symm ▸ Option.some_ne_none handled)
  rw [hserving] at hlt
  obtain ⟨c₀, hget₀⟩ : ∃ c₀, (run requests responses desktop serverStarted compositor
      before).socket.connections[i]? = some c₀ := ⟨_, List.getElem?_eq_getElem hlt⟩
  refine ⟨c₀, hget₀, ?_⟩
  have hextends : (run requests responses desktop serverStarted compositor before).socket.Extends
      (run requests responses desktop serverStarted compositor (before ++ after)).socket := by
    rw [run_append_foldl]
    exact extends_foldl after
  obtain ⟨c', hget', hkept⟩ := hextends i c₀ hget₀
  obtain rfl : c' = c := Option.some.inj (hget'.symm.trans hget)
  -- the peer is the same, and its result was still open at that time
  have hrole : c₀.peer.role = .caller request none := by
    rw [← hkept.role, hpeer]
    rfl
  have hvalid := hinv.socket.valid hget₀
  rw [← hserving, turn_serving, hhandling] at hvalid
  obtain ⟨result₀, hpeer₀⟩ := Peer.eq_caller_of_role hrole
  rw [hpeer₀, hvalid.result_eq_none hpeer₀]

/-- Administrators do not change the compositor. -/
theorem compositor_run (events : List (AdminEvent S)) :
    (run requests responses desktop serverStarted compositor events).compositor =
      compositor.runLoop desktop (events.filterMap AdminEvent.loopEvent?) := by
  induction events using List.reverseRecOn with
  | nil => rfl
  | append_singleton events event ih =>
    have hloop : ∀ loopEvents : List (LoopEvent S), compositor.runLoop desktop
        (events.filterMap AdminEvent.loopEvent? ++ loopEvents) =
          (compositor.runLoop desktop (events.filterMap AdminEvent.loopEvent?)).runLoop desktop
            loopEvents := fun loopEvents => List.foldl_append
    rw [run_append, List.filterMap_append, hloop, ← ih]
    cases event with
    | peer | shutdown | loop => rfl
    | serve => exact compositor_serve _ _ _
    | timeout => exact compositor_timeout _ _
    | drain clk find => exact (frame_drain _ _ _ _).2

/-! ### Getting an answer -/

/-- The query that the admin thread waits for is on its way. -/
def Queued (b : AdminBridge S) : Prop :=
  ∀ queries channel, b.rx = some queries → b.waiting = some channel → channel.slot = none →
    ∃ query ∈ queries, query.reply = channel.number

theorem queued_respond (b : AdminBridge S) (responses : JsonCodec AdminResponse)
    (response : AdminResponse) : (b.respond responses response).Queued :=
  fun _ _ _ hwaiting => by cases hwaiting

theorem Queued.serve (h : b.Queued) : (b.serve requests responses).Queued := by
  unfold AdminBridge.serve
  split
  · exact h
  · split
    · exact queued_respond _ _ _
    · intro _ _ hrx hwaiting _
      obtain rfl := Option.some.inj hrx
      obtain rfl := Option.some.inj hwaiting
      exact ⟨_, List.mem_append_right _ (List.mem_singleton_self _), rfl⟩
  · exact queued_respond _ _ _
  · split_ifs
    · exact h
    · exact queued_respond _ _ _

theorem Queued.drain (h : b.Queued) (clk : Clock) (find : Enumeration Session) :
    (b.drain serverStarted clk find).Queued := by
  unfold AdminBridge.drain
  split
  · next query queries hrx =>
    unfold AdminBridge.send
    split
    · next hnone =>
      intro _ _ _ hwaiting _
      exact absurd (hwaiting.symm.trans hnone) (Option.some_ne_none _)
    · next channel hsome =>
      by_cases hother : channel.number ≠ query.reply
      · rw [if_pos hother]
        intro _ _ hrx' hwaiting hslot
        obtain rfl := Option.some.inj hrx'
        obtain rfl := Option.some.inj (hsome.symm.trans hwaiting)
        obtain ⟨query', hmem, hreply⟩ := h _ _ hrx hwaiting hslot
        rcases List.mem_cons.mp hmem with rfl | hmem
        · exact absurd hreply.symm hother
        · exact ⟨query', hmem, hreply⟩
      · rw [if_neg hother]
        split
        · intro _ _ _ hwaiting hslot
          obtain rfl := Option.some.inj hwaiting
          cases hslot
        · next hfull =>
          intro _ _ _ hwaiting hslot
          obtain rfl := Option.some.inj (hsome.symm.trans hwaiting)
          exact absurd (hfull.symm.trans hslot) (Option.some_ne_none _)
  · exact h

theorem queued_run (events : List (AdminEvent S)) :
    (run requests responses desktop serverStarted compositor events).Queued := by
  induction events using List.reverseRecOn with
  | nil => exact fun _ _ _ hwaiting => by cases hwaiting
  | append_singleton events event ih =>
    rw [run_append]
    cases event with
    | peer | loop => exact ih
    | serve => exact ih.serve
    | timeout =>
      change (AdminBridge.timeout responses _).Queued
      unfold AdminBridge.timeout
      split
      · exact queued_respond _ _ _
      · exact ih
    | drain clk find => exact ih.drain clk find
    | shutdown => exact fun _ _ hrx => by cases hrx

/-- The first query is the one that is waited for, or a stale one. -/
theorem drain_cons {query : AdminQuery} {queries : List AdminQuery}
    (hrx : b.rx = some (query :: queries)) {channel : ReplyChannel}
    (hwaiting : b.waiting = some channel) (hslot : channel.slot = none) (serverStarted : Instant)
    (clk : Clock) (find : Enumeration Session) :
    (b.drain serverStarted clk find).rx = some queries ∧
      ((b.drain serverStarted clk find).waiting = some channel ∨ ∃ response,
        (b.drain serverStarted clk find).waiting = some ⟨channel.number, some response⟩) := by
  unfold AdminBridge.drain
  rw [hrx]
  dsimp only
  unfold AdminBridge.send
  dsimp only
  rw [hwaiting]
  dsimp only
  split_ifs with hother
  · exact ⟨rfl, .inl rfl⟩
  · rw [hslot, ← not_not.mp hother]
    exact ⟨rfl, .inr ⟨_, rfl⟩⟩

/-- The queries on the way are answered one after another. -/
theorem Queued.exists_drained (h : b.Queued) {queries : List AdminQuery}
    (hrx : b.rx = some queries) {channel : ReplyChannel} (hwaiting : b.waiting = some channel)
    (hslot : channel.slot = none) (requests : JsonCodec AdminRequest)
    (responses : JsonCodec AdminResponse) (desktop : Desktop S) (serverStarted : Instant)
    (clk : Clock) (find : Enumeration Session) :
    ∃ more : List (AdminEvent S), (∀ event ∈ more, event = .serve ∨ event = .drain clk find) ∧
      (more.foldl (step requests responses desktop serverStarted) b).socket = b.socket ∧
      ∃ response, (more.foldl (step requests responses desktop serverStarted) b).waiting =
        some ⟨channel.number, some response⟩ := by
  induction queries generalizing b with
  | nil =>
    -- the query that is waited for is never lost
    obtain ⟨query, hmem, -⟩ := h _ _ hrx hwaiting hslot
    exact absurd hmem List.not_mem_nil
  | cons query queries ih =>
    obtain ⟨hrx', hrest⟩ := drain_cons hrx hwaiting hslot serverStarted clk find
    rcases hrest with hwaiting' | ⟨response, hfull⟩
    · obtain ⟨more, hmore, hsocket, hanswer⟩ := ih (h.drain clk find) hrx' hwaiting'
      refine ⟨.drain clk find :: more, fun event hmem => ?_, ?_, hanswer⟩
      · rcases List.mem_cons.mp hmem with rfl | hmem
        · exact .inr rfl
        · exact hmore event hmem
      · exact hsocket.trans (b.frame_drain serverStarted clk find).1
    · refine ⟨[.drain clk find], fun event hmem => .inr (List.mem_singleton.mp hmem), ?_, response,
        hfull⟩
      exact (b.frame_drain serverStarted clk find).1

/-- A request that is being handled gets its answer while the compositor runs. -/
theorem Queued.exists_full (h : b.Queued) (hrx : b.rx ≠ none) {request : AdminRequest}
    (hhandling : b.socket.handling = some request) (requests : JsonCodec AdminRequest)
    (responses : JsonCodec AdminResponse) (desktop : Desktop S) (serverStarted : Instant)
    (clk : Clock) (find : Enumeration Session) :
    ∃ more : List (AdminEvent S), (∀ event ∈ more, event = .serve ∨ event = .drain clk find) ∧
      (more.foldl (step requests responses desktop serverStarted) b).socket = b.socket ∧
      ∃ number response, (more.foldl (step requests responses desktop serverStarted) b).waiting =
        some ⟨number, some response⟩ := by
  obtain ⟨queries, hrx⟩ := Option.ne_none_iff_exists'.mp hrx
  cases hwaiting : b.waiting with
  | none =>
    -- the request has yet to be handed on
    have hserve : (b.serve requests responses).rx = some (queries ++ [⟨request, b.channels⟩]) ∧
        (b.serve requests responses).waiting = some ⟨b.channels, none⟩ ∧
        (b.serve requests responses).socket = b.socket := by
      unfold AdminBridge.serve
      rw [hhandling, hwaiting, hrx]
      exact ⟨rfl, rfl, rfl⟩
    obtain ⟨hrx', hwaiting', hsocket'⟩ := hserve
    obtain ⟨more, hmore, hsocket, response, hfull⟩ := h.serve.exists_drained hrx' hwaiting' rfl
      requests responses desktop serverStarted clk find
    refine ⟨.serve :: more, fun event hmem => ?_, ?_, _, response, hfull⟩
    · rcases List.mem_cons.mp hmem with rfl | hmem
      · exact .inl rfl
      · exact hmore event hmem
    · exact hsocket.trans hsocket'
  | some channel =>
    obtain ⟨number, slot⟩ := channel
    cases slot with
    | none =>
      obtain ⟨more, hmore, hsocket, hfull⟩ := h.exists_drained hrx hwaiting rfl requests responses
        desktop serverStarted clk find
      exact ⟨more, hmore, hsocket, number, hfull⟩
    | some response =>
      exact ⟨[], fun event hmem => absurd hmem List.not_mem_nil, rfl, number, response, hwaiting⟩

theorem exists_answered {request : AdminRequest}
    (hrx : (run requests responses desktop serverStarted compositor events).rx ≠ none)
    (hhandling : (run requests responses desktop serverStarted compositor events).socket.handling =
      some request) (clk : Clock) (find : Enumeration Session) :
    ∃ more response, (∀ event ∈ more, event = .serve ∨ event = .drain clk find) ∧
      (run requests responses desktop serverStarted compositor (events ++ more)).socket.log =
        (run requests responses desktop serverStarted compositor events).socket.log ++
          [⟨(run requests responses desktop serverStarted compositor events).socket.serving,
            request, some response⟩] ∧
      Computed requests responses desktop serverStarted compositor (events ++ more)
        (run requests responses desktop serverStarted compositor events).socket.serving request
        response := by
  have hqueued : (run requests responses desktop serverStarted compositor events).Queued :=
    queued_run events
  obtain ⟨more, hmore, hsocket, number, response, hfull⟩ := hqueued.exists_full hrx hhandling
    requests responses desktop serverStarted clk find
  rw [← run_append_foldl] at hsocket hfull
  have hinv : (run requests responses desktop serverStarted compositor (events ++ more)).Inv
      requests responses desktop serverStarted compositor (events ++ more) := inv_run _
  have hhandling' := (congrArg ControlSocket.handling hsocket).trans hhandling
  obtain ⟨-, request', hrequest, -, hanswer⟩ := hinv.waiting hfull
  obtain rfl := Option.some.inj (hhandling'.symm.trans hrequest)
  refine ⟨more ++ [.serve], response, fun event hmem => ?_, ?_, ?_⟩
  · rcases List.mem_append.mp hmem with hmem | hmem
    · exact hmore event hmem
    · exact .inl (List.mem_singleton.mp hmem)
  · rw [← List.append_assoc, run_append, ← hsocket, ← hinv.socket.log_respond hhandling']
    change (AdminBridge.serve requests responses _).socket.log = _
    unfold AdminBridge.serve
    rw [hhandling', hfull]
    rfl
  · rw [← List.append_assoc, ← hsocket]
    exact (hanswer rfl).2.append _

/-- **The administration bridge**: it never blocks the compositor and does not change its state, and
whoever asks for the sessions or the status of the server gets an error, or the answer to his own
request from the state that the compositor had at some time while he was waiting.  As long as the
compositor has not dropped its end, there is an answer of this kind to any request that is being
handled. -/
theorem answers_run (requests : JsonCodec AdminRequest) (responses : JsonCodec AdminResponse)
    (desktop : Desktop S) (serverStarted : Instant) (compositor : CalloopData S)
    (events : List (AdminEvent S)) :
    let after := run requests responses desktop serverStarted compositor
    (after events).blocked = false ∧
      (after events).compositor =
        compositor.runLoop desktop (events.filterMap AdminEvent.loopEvent?) ∧
      (∀ (i : ℕ) (c : Connection AdminRequest AdminResponse) (request : AdminRequest)
        (result : Option AdminResponse), (after events).socket.connections[i]? = some c →
          c.peer = .caller request (some result) →
            result = some shuttingDown ∨ result = some notInTime ∨
              ∃ before clk find rest c₀, events = before ++ .drain clk find :: rest ∧
                (after before).socket.connections[i]? = some c₀ ∧
                c₀.peer = .caller request none ∧
                result = some
                  ((after before).compositor.adminResponse serverStarted clk find request)) ∧
      ∀ request, (after events).rx ≠ none → (after events).socket.handling = some request →
        ∀ clk find, ∃ more response, (∀ event ∈ more, event = .serve ∨ event = .drain clk find) ∧
          (after (events ++ more)).socket.log = (after events).socket.log ++
            [⟨(after events).socket.serving, request, some response⟩] ∧
          Computed requests responses desktop serverStarted compositor (events ++ more)
            (after events).socket.serving request response := by
  intro after
  have hinv : (after events).Inv requests responses desktop serverStarted compositor events :=
    inv_run events
  refine ⟨hinv.blocked, compositor_run events, fun i c request result hget hpeer => ?_,
    fun request hrx hhandling clk find => exists_answered hrx hhandling clk find⟩
  obtain ⟨response, rfl, hanswers⟩ := hinv.socket.answered.call hget hpeer
  have hmem : ⟨i, request, some response⟩ ∈ (after events).socket.log :=
    mem_log_of_answers (hanswers ▸ List.mem_singleton_self _)
  obtain ⟨response', heq, hresponse⟩ := hinv.log _ hmem
  rw [← Option.some.inj heq] at hresponse
  rcases hresponse with rfl | rfl | ⟨before, clk, find, rest, rfl, hserving, hhandling, hcomputed⟩
  · exact .inl rfl
  · exact .inr (.inl rfl)
  · obtain ⟨c₀, hget₀, hpeer₀⟩ := waiting_of_handling hserving hhandling hget hpeer
    exact .inr (.inr ⟨before, clk, find, rest, c₀, rfl, hget₀, hpeer₀, congrArg some hcomputed⟩)

end AdminBridge

end WayRay
