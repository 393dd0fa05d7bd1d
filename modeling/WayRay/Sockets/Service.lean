import WayRay.Sockets.ControlSocket

/-!
# A service behind a control socket

`serve_json` with a handler that has a state of its own.

In every run the requests are handled one after another, in the order of the connections, every call
gets the answer to its own request (`served_run`).  The other programs can hold the service up only
as long as they keep their connections open; but a call whose request gets no response blocks the
service for good.
-/

namespace WayRay

/-- A service: the socket, the state of the handler, and the requests that it has handled, each with
what the handler saw of its surroundings. -/
structure Service (σ ε Req Resp : Type) where
  socket : ControlSocket Req Resp
  state : σ
  arrivals : List (ε × Req)

/-- What happens at a service. -/
inductive ServiceEvent (ε Req : Type) where
  | peer (event : PeerEvent Req)
  /-- The server goes on: it reads, or the handler returns. -/
  | serve (env : ε)

namespace Service

open Connection ControlSocket Lines

variable {σ ε Req Resp : Type} (requests : JsonCodec Req) (responses : JsonCodec Resp)
  (handle : ε → σ → Req → Option Resp × σ)

/-- A service that has just been started. -/
def start (state : σ) : Service σ ε Req Resp := ⟨.bind, state, []⟩

def step (s : Service σ ε Req Resp) : ServiceEvent ε Req → Service σ ε Req Resp
  | .peer event => { s with socket := s.socket.peerStep requests responses event }
  | .serve env =>
    match s.socket.handling with
    | none => { s with socket := s.socket.read requests }
    | some request =>
      let (response, state) := handle env s.state request
      { socket := s.socket.respond responses response
        state := state
        arrivals := s.arrivals ++ [(env, request)] }

/-- The state of the handler after some requests. -/
def stateAfter (state : σ) (arrivals : List (ε × Req)) : σ :=
  arrivals.foldl (fun state arrival => (handle arrival.1 state arrival.2).2) state

/-- What the handler returns to some requests. -/
def replies : σ → List (ε × Req) → List (Req × Option Resp)
  | _, [] => []
  | state, (env, request) :: arrivals =>
    (request, (handle env state request).1) :: replies (handle env state request).2 arrivals

theorem replies_append (state : σ) (arrivals : List (ε × Req)) (env : ε) (request : Req) :
    replies handle state (arrivals ++ [(env, request)]) =
      replies handle state arrivals ++
        [(request, (handle env (stateAfter handle state arrivals) request).1)] := by
  induction arrivals generalizing state with
  | nil => rfl
  | cons arrival arrivals ih => exact congrArg (_ :: ·) (ih _)

/-- What holds at any time: the handler has handled what has been read. -/
structure Inv (start : σ) (s : Service σ ε Req Resp) : Prop where
  socket : s.socket.Inv requests responses
  state : s.state = stateAfter handle start s.arrivals
  log : s.socket.log.map (fun handled => (handled.request, handled.response)) =
    replies handle start s.arrivals

variable {requests responses handle} {s : Service σ ε Req Resp} {start : σ}

theorem Inv.step (h : s.Inv requests responses handle start) (event : ServiceEvent ε Req) :
    (s.step requests responses handle event).Inv requests responses handle start := by
  cases event with
  | peer event =>
    refine ⟨h.socket.peerStep event, h.state, ?_⟩
    have hlog := (s.socket.server_peerStep requests responses event).2.2
    exact (congrArg _ hlog).trans h.log
  | serve env =>
    unfold Service.step
    cases hhandling : s.socket.handling with
    | none =>
      refine ⟨h.socket.read hhandling, h.state, ?_⟩
      exact (congrArg _ (s.socket.log_read requests)).trans h.log
    | some request =>
      refine ⟨h.socket.respond _, ?_, ?_⟩
      · simp only [stateAfter, List.foldl_append, List.foldl_cons, List.foldl_nil]
        rw [h.state]
        rfl
      · have hlog := h.socket.log_respond hhandling (handle env s.state request).1
        rw [replies_append, ← h.log, ← h.state]
        exact (congrArg (List.map _) hlog).trans List.map_append

theorem inv_run (state : σ) (events : List (ServiceEvent ε Req)) :
    (events.foldl (step requests responses handle) (Service.start state)).Inv requests responses
      handle state := by
  have hrun : ∀ s : Service σ ε Req Resp, s.Inv requests responses handle state →
      (events.foldl (step requests responses handle) s).Inv requests responses handle state := by
    induction events with
    | nil => exact fun s hs => hs
    | cons event events ih => exact fun s hs => ih _ (hs.step event)
  exact hrun _ ⟨inv_bind, rfl, rfl⟩

/-! ### Being held up -/

/-- The programs on their way through `send_json` and `send_json_notification`, and the server. -/
def Quiet : ServiceEvent ε Req → Prop
  | .peer (.send _ _) | .peer (.proceed _) | .serve _ => True
  | .peer _ => False

/-- All connections have been served. -/
def Drained (s : Service σ ε Req Resp) : Prop :=
  s.socket.serving = s.socket.connections.length

/-- The other programs send no more.  One of them that keeps its end open without reading could
still hold the server up with responses that exceed the buffers of the socket, which have no bound
here. -/
def OthersShut (s : Service σ ε Req Resp) : Prop :=
  ∀ c ∈ s.socket.connections, c.peer = .other → c.shut = true

/-- Somebody has called with a request. -/
def Calls (s : Service σ ε Req Resp) (request : Req) : Prop :=
  ∃ c ∈ s.socket.connections, c.peer.role = .caller request none

theorem extends_step (event : ServiceEvent ε Req) :
    s.socket.Extends (s.step requests responses handle event).socket := by
  cases event with
  | peer event => exact extends_peerStep event
  | serve env =>
    unfold Service.step
    cases s.socket.handling with
    | none => exact extends_read
    | some request => exact extends_respond _

theorem length_step {event : ServiceEvent ε Req} (h : Quiet event) :
    (s.step requests responses handle event).socket.connections.length =
      s.socket.connections.length := by
  cases event with
  | peer event =>
    cases event with
    | send i n | proceed i => exact List.length_modify ..
    | call | notify | connect | write | close => exact h.elim
  | serve env =>
    have hupdate : ∀ c handling handled,
        (s.socket.update c handling handled).connections.length =
          s.socket.connections.length := fun _ _ _ => List.length_set
    unfold Service.step
    cases s.socket.handling with
    | none =>
      change (s.socket.read requests).connections.length = _
      unfold ControlSocket.read
      split
      · rfl
      · split
        · rfl
        · exact hupdate _ _ _
        · exact hupdate _ _ _
    | some request =>
      change (s.socket.respond responses _).connections.length = _
      unfold ControlSocket.respond
      split
      · exact hupdate _ _ _
      · rfl

theorem Calls.step {request : Req} (h : s.Calls request) (event : ServiceEvent ε Req) :
    (s.step requests responses handle event).Calls request := by
  obtain ⟨c, hmem, hrole⟩ := h
  obtain ⟨i, hget⟩ := List.mem_iff_getElem?.mp hmem
  obtain ⟨c', hget', hkept⟩ := s.extends_step event i c hget
  exact ⟨c', List.mem_of_getElem? hget', hkept.role.trans hrole⟩

/-- A quiet event makes no new connections. -/
theorem exists_of_quiet {event : ServiceEvent ε Req} (hquiet : Quiet event)
    {c' : Connection Req Resp}
    (hmem : c' ∈ (s.step requests responses handle event).socket.connections) :
    ∃ c ∈ s.socket.connections, c.Kept c' := by
  obtain ⟨i, hget'⟩ := List.mem_iff_getElem?.mp hmem
  have hlength : (s.step requests responses handle event).socket.connections.length =
      s.socket.connections.length := length_step hquiet
  have hlt : i < s.socket.connections.length :=
    hlength ▸ (List.getElem?_eq_some_iff.mp hget').1
  obtain ⟨c'', hget'', hkept⟩ := s.extends_step event i _ (List.getElem?_eq_getElem hlt)
  obtain rfl := Option.some.inj (hget''.symm.trans hget')
  exact ⟨_, List.getElem_mem hlt, hkept⟩

theorem OthersShut.step (h : s.OthersShut) {event : ServiceEvent ε Req} (hquiet : Quiet event) :
    (s.step requests responses handle event).OthersShut := by
  intro c' hmem hother
  obtain ⟨c, hc, hkept⟩ := exists_of_quiet hquiet hmem
  refine hkept.shut (h c hc ?_)
  have hrole := hkept.role
  rw [hother] at hrole
  cases hpeer : c.peer with
  | other => rfl
  | caller | notifier => rw [hpeer] at hrole; cases hrole

theorem Calls.of_step {event : ServiceEvent ε Req} (hquiet : Quiet event) {request : Req}
    (h : (s.step requests responses handle event).Calls request) : s.Calls request := by
  obtain ⟨c', hmem, hrole⟩ := h
  obtain ⟨c, hc, hkept⟩ := exists_of_quiet hquiet hmem
  exact ⟨c, hc, hkept.role.symm.trans hrole⟩

/-- What is left to be done: the connections, and of the one that is served the bytes to be sent,
the bytes to be read, the request at hand, and its end. -/
def rest (s : Service σ ε Req Resp) : ℕ × ℕ × ℕ × ℕ × ℕ :=
  let current := s.socket.connections[s.socket.serving]?
  (s.socket.connections.length - s.socket.serving,
    (current.map fun c => c.unsent.length).getD 0,
    (current.map fun c => c.toServer.length).getD 0,
    if s.socket.handling.isSome then 1 else 0,
    if (current.map Connection.shut).getD true then 0 else 1)

/-- Less is left to be done. -/
def Less : ℕ × ℕ × ℕ × ℕ × ℕ → ℕ × ℕ × ℕ × ℕ × ℕ → Prop :=
  Prod.Lex (· < ·) (Prod.Lex (· < ·) (Prod.Lex (· < ·) (Prod.Lex (· < ·) (· < ·))))

theorem wellFounded_less : WellFounded Less :=
  WellFounded.prod_lex Nat.lt_wfRel.wf (WellFounded.prod_lex Nat.lt_wfRel.wf
    (WellFounded.prod_lex Nat.lt_wfRel.wf (WellFounded.prod_lex Nat.lt_wfRel.wf
      Nat.lt_wfRel.wf)))

theorem rest_eq {c : Connection Req Resp}
    (hget : s.socket.connections[s.socket.serving]? = some c) :
    s.rest = (s.socket.connections.length - s.socket.serving, c.unsent.length, c.toServer.length,
      if s.socket.handling.isSome then 1 else 0, if c.shut then 0 else 1) := by
  unfold rest
  rw [hget]
  rfl

/-- After an update less is left to be done: the connection has ended, or there is less to be read,
or the request has been handled. -/
theorem less_update {s' : Service σ ε Req Resp} {c c' : Connection Req Resp}
    {handling : Option Req} {handled : List (Handled Req Resp)}
    (hget : s.socket.connections[s.socket.serving]? = some c)
    (hsocket : s'.socket = s.socket.update c' handling handled)
    (hunsent : c'.unsent = c.unsent)
    (hless : c'.ended = true ∨ c'.toServer.length < c.toServer.length ∨
      c'.toServer = c.toServer ∧ s.socket.handling ≠ none ∧ handling = none) :
    Less s'.rest s.rest := by
  have hlt := (List.getElem?_eq_some_iff.mp hget).1
  have hlength : s'.socket.connections.length = s.socket.connections.length := by
    rw [hsocket]
    exact List.length_set
  rw [rest_eq hget]
  rcases s.socket.serving_update c' handling handled with ⟨-, hserving⟩ | ⟨hopen, hserving⟩
  · refine .left _ _ ?_
    rw [hlength, hsocket, hserving]
    omega
  · have hget' : s'.socket.connections[s'.socket.serving]? = some c' := by
      rw [hsocket, hserving]
      exact List.getElem?_set_self hlt
    have hhandling : s'.socket.handling = handling := by
      rw [hsocket]
      rfl
    rw [rest_eq hget', hlength, hsocket, hserving, ← hsocket, hunsent, hhandling]
    refine .right _ (.right _ ?_)
    rcases hless with hended | hread | ⟨htoServer, hbusy, hdone⟩
    · exact absurd (hopen.symm.trans hended) Bool.false_ne_true
    · exact .left _ _ hread
    · rw [htoServer, hdone]
      refine .right _ (.left _ _ ?_)
      rw [if_pos (Option.isSome_iff_ne_none.mpr hbusy)]
      exact Nat.zero_lt_one

/-- The peer of the connection that is served has sent what it had to send, or shut. -/
theorem less_modify {act : Connection Req Resp → Connection Req Resp} {c : Connection Req Resp}
    (hget : s.socket.connections[s.socket.serving]? = some c)
    (hless : (act c).unsent.length < c.unsent.length ∨
      (act c).unsent = c.unsent ∧ (act c).toServer = c.toServer ∧ c.shut = false ∧
        (act c).shut = true) :
    Less { s with socket := s.socket.modify s.socket.serving act }.rest s.rest := by
  have hget' : (s.socket.modify s.socket.serving act).connections[s.socket.serving]? =
      some (act c) := by
    rw [ControlSocket.modify, List.getElem?_modify, hget]
    exact congrArg some (if_pos rfl)
  have hlength : (s.socket.modify s.socket.serving act).connections.length =
      s.socket.connections.length := List.length_modify ..
  rw [rest_eq hget, rest_eq hget', hlength]
  refine .right _ ?_
  rcases hless with hsent | ⟨hunsent, htoServer, hopen, hshut⟩
  · exact .left _ _ hsent
  · rw [hunsent, htoServer, hopen, hshut]
    exact .right _ (.right _ (.right _ Nat.zero_lt_one))

/-- What the handler returns to each request it returns whenever it is asked. -/
theorem isSome_of_mem_replies {answered : Req → Bool}
    (hanswered : ∀ env state request, (handle env state request).1.isSome = answered request)
    {state : σ} {arrivals : List (ε × Req)} {request : Req} {response : Option Resp}
    (hmem : (request, response) ∈ replies handle state arrivals) :
    response.isSome = answered request := by
  induction arrivals generalizing state with
  | nil => exact absurd hmem List.not_mem_nil
  | cons arrival arrivals ih =>
    rcases List.mem_cons.mp hmem with heq | hlater
    · obtain ⟨rfl, rfl⟩ := Prod.mk.inj heq
      exact hanswered _ _ _
    · exact ih hlater

theorem Inv.isSome_of_mem_answers (h : s.Inv requests responses handle start)
    {answered : Req → Bool}
    (hanswered : ∀ env state request, (handle env state request).1.isSome = answered request)
    {i : ℕ} {request : Req} {response : Option Resp}
    (hmem : (request, response) ∈ s.socket.answers i) : response.isSome = answered request := by
  obtain ⟨handled, hhandled, heq⟩ := List.mem_map.mp hmem
  have hreplies : (request, response) ∈ replies handle start s.arrivals := by
    rw [← h.log, ← heq]
    exact List.mem_map_of_mem (List.mem_of_mem_filter hhandled)
  exact isSome_of_mem_replies hanswered hreplies

/-- As long as a connection is to be served something can be done, if all calls are answered. -/
theorem Inv.exists_progress [env : Nonempty ε] (h : s.Inv requests responses handle start)
    {answered : Req → Bool}
    (hanswered : ∀ env state request, (handle env state request).1.isSome = answered request)
    (hlt : s.socket.serving < s.socket.connections.length) (hshut : s.OthersShut)
    (hcalls : ∀ request, s.Calls request → answered request = true) :
    ∃ event : ServiceEvent ε Req, Quiet event ∧
      Less (s.step requests responses handle event).rest s.rest := by
  obtain ⟨env⟩ := env
  obtain ⟨c, hget⟩ : ∃ c, s.socket.connections[s.socket.serving]? = some c :=
    ⟨_, List.getElem?_eq_getElem hlt⟩
  have hvalid := h.socket.valid hget
  rw [turn_serving] at hvalid
  have hopen : c.ended = false :=
    Bool.eq_false_iff.mpr fun hended => absurd (hvalid.ended.mp hended) Turn.now_ne_past
  cases hhandling : s.socket.handling with
  | some request =>
    refine ⟨.serve env, trivial, ?_⟩
    unfold Service.step
    simp only [hhandling]
    obtain ⟨toPeer, ended, heq⟩ := c.exists_of_reply responses (handle env s.state request).1
    refine less_update hget (respond_eq_update hhandling hget _) (heq ▸ rfl)
      (.inr (.inr ⟨heq ▸ rfl, ?_, rfl⟩))
    rw [hhandling]
    exact Option.some_ne_none request
  | none =>
    by_cases hunsent : c.unsent = []
    · have hserve : s.step requests responses handle (.serve env) =
          { s with socket := s.socket.read requests } := by
        unfold Service.step
        rw [hhandling]
      rw [hhandling] at hvalid
      have hother : c.peer = .other → c.shut = true := hshut c (List.mem_of_getElem? hget)
      have hcall : ∀ {request : Req}, c.peer = .caller request none →
          (request, none) ∉ s.socket.answers s.socket.serving := by
        intro request hpeer hmem
        have hsome := hcalls request ⟨c, List.mem_of_getElem? hget, by rw [hpeer]; rfl⟩
        exact absurd (h.isSome_of_mem_answers hanswered hmem) (hsome ▸ Bool.false_ne_true)
      cases hread : c.read requests with
      | ended =>
        have hsocket := read_of_ended hget hread
        exact ⟨.serve env, trivial, hserve ▸ less_update hget hsocket rfl (.inl rfl)⟩
      | took c' request =>
        have hsocket := read_of_took hget hread
        obtain ⟨rest, hshorter, rfl⟩ := exists_of_took hread
        exact ⟨.serve env, trivial,
          hserve ▸ less_update hget hsocket rfl (.inr (.inl hshorter))⟩
      | blocked =>
        -- the peer has to shut its end
        exact ⟨.peer (.proceed s.socket.serving), trivial,
          less_modify hget (.inr (hvalid.proceed_of_blocked hread hunsent hother hcall))⟩
    · refine ⟨.peer (.send s.socket.serving c.unsent.length), trivial, ?_⟩
      refine less_modify hget (.inl ?_)
      rw [unsent_send_length hopen]
      exact List.length_pos_of_ne_nil hunsent

/-- **The service is not held up** if all calls are answered and the other programs send no more. -/
theorem Inv.exists_drained [Nonempty ε] (h : s.Inv requests responses handle start)
    {answered : Req → Bool}
    (hanswered : ∀ env state request, (handle env state request).1.isSome = answered request)
    (hshut : s.OthersShut) (hcalls : ∀ request, s.Calls request → answered request = true) :
    ∃ events : List (ServiceEvent ε Req), (∀ event ∈ events, Quiet event) ∧
      (events.foldl (Service.step requests responses handle) s).Drained := by
  induction hrest : s.rest using wellFounded_less.induction generalizing s with
  | _ rest ih =>
    rcases h.socket.serving_le.eq_or_lt with hdrained | hlt
    · exact ⟨[], fun _ hmem => absurd hmem List.not_mem_nil, hdrained⟩
    · obtain ⟨event, hquiet, hless⟩ := h.exists_progress hanswered hlt hshut hcalls
      obtain ⟨events, hevents, hdrained⟩ :=
        ih _ (hrest ▸ hless) (h.step event) (hshut.step hquiet)
          (fun request hcall => hcalls request (hcall.of_step hquiet)) rfl
      exact ⟨event :: events, List.forall_mem_cons.mpr ⟨hquiet, hevents⟩, hdrained⟩

/-- In the end every call has returned. -/
theorem Inv.answered_of_drained (h : s.Inv requests responses handle start)
    {answered : Req → Bool}
    (hanswered : ∀ env state request, (handle env state request).1.isSome = answered request)
    (hdrained : s.Drained) {request : Req} (hcall : s.Calls request) :
    answered request = true := by
  obtain ⟨c, hmem, hrole⟩ := hcall
  obtain ⟨i, hget⟩ := List.mem_iff_getElem?.mp hmem
  have hlt : i < s.socket.serving := by
    rw [hdrained]
    exact (List.getElem?_eq_some_iff.mp hget).1
  obtain ⟨result, hpeer⟩ := Peer.eq_caller_of_role hrole
  cases result with
  | none => exact absurd hpeer ((h.socket.answered.served hget hlt).2)
  | some result =>
    obtain ⟨response, -, hanswers⟩ := h.socket.answered.call hget hpeer
    exact (h.isSome_of_mem_answers hanswered (hanswers ▸ List.mem_cons_self)).symm

theorem Calls.run {request : Req} (h : s.Calls request) (events : List (ServiceEvent ε Req)) :
    (events.foldl (Service.step requests responses handle) s).Calls request := by
  induction events generalizing s with
  | nil => exact h
  | cons event events ih => exact ih (h.step event)

/-! ### Runs -/

/-- **A service behind a control socket**: at any time the handler has handled the requests one
after another, in the order of the connections; every call that has returned has got the answer to
its own request, and no call and no notification is handled twice.  Once the other programs send no
more, all connections can be served to their end if and only if no one has called with a request
that the handler does not answer. -/
theorem served_run [Nonempty ε] {answered : Req → Bool}
    (hanswered : ∀ env state request, (handle env state request).1.isSome = answered request)
    (state : σ) (events : List (ServiceEvent ε Req)) :
    let s := events.foldl (step requests responses handle) (Service.start state)
    s.state = stateAfter handle state s.arrivals ∧
      s.socket.log.map (fun handled => (handled.request, handled.response)) =
        replies handle state s.arrivals ∧
      s.socket.log.Pairwise (fun handled handled' => handled.connection ≤ handled'.connection) ∧
      s.socket.Answered ∧
      (s.OthersShut →
        ((∃ more : List (ServiceEvent ε Req), (∀ event ∈ more, Quiet event) ∧
          (more.foldl (step requests responses handle) s).Drained) ↔
          ∀ request, s.Calls request → answered request = true)) := by
  intro s
  have hinv : s.Inv requests responses handle state := inv_run state events
  refine ⟨hinv.state, hinv.log, hinv.socket.ordered, hinv.socket.answered, fun hshut => ?_⟩
  constructor
  · rintro ⟨more, -, hdrained⟩ request hcall
    have hinv' : (more.foldl (step requests responses handle) s).Inv requests responses handle
        state := by
      have hrun : ((events ++ more).foldl (step requests responses handle)
          (Service.start state)).Inv requests responses handle state := inv_run state _
      rwa [List.foldl_append] at hrun
    exact hinv'.answered_of_drained hanswered hdrained (hcall.run more)
  · exact hinv.exists_drained hanswered hshut

/-! ### A service with two requests -/

/-- `serde_json` on truth values. -/
def booleans : JsonCodec Bool where
  toString b := if b then "true" else "false"
  fromStr text := if text = "true" then some true else if text = "false" then some false else none
  fromStr_toString := by decide
  lineFeed_notMem := by decide
  trimmed b :=
    { ne_nil := by cases b <;> decide
      head := fun c hc => by cases b <;> rw [← Option.some.inj hc] <;> rfl
      last := fun c hc => by cases b <;> rw [← Option.some.inj hc] <;> rfl }

/-- Requests are counted, and one of the two is answered. -/
def count (_ : Unit) (counted : ℕ) (request : Bool) : Option Bool × ℕ :=
  (if request then some true else none, counted + 1)

/-- A program calls, another one writes a bracket and goes, a third one sends a notification. -/
def threePrograms : List (ServiceEvent Unit Bool) :=
  [.peer (.call true), .peer .connect, .peer (.write 1 [123]), .peer (.close 1 true),
    .peer (.notify false)]

theorem connections_threePrograms :
    (threePrograms.foldl (step booleans booleans count) (Service.start 0)).socket.connections =
      [call booleans true, (new .other []).write [123] |>.close true, notify booleans false] :=
  rfl

theorem served_run_threePrograms :
    let s := threePrograms.foldl (step booleans booleans count) (Service.start 0)
    ∃ more : List (ServiceEvent Unit Bool), (∀ event ∈ more, Quiet event) ∧
      (more.foldl (step booleans booleans count) s).Drained := by
  have hanswered : ∀ env counted request, (count env counted request).1.isSome = request := by
    intro env counted request
    cases request <;> rfl
  obtain ⟨-, -, -, -, hdrained⟩ :=
    @served_run ℕ Unit Bool Bool booleans booleans count _ id hanswered 0 threePrograms
  refine (hdrained fun c hmem hother => ?_).mpr fun request hcall => ?_
  · rw [connections_threePrograms] at hmem
    rcases List.mem_cons.mp hmem with rfl | hmem
    · cases hother
    · rcases List.mem_cons.mp hmem with rfl | hmem
      · rfl
      · rw [List.mem_singleton.mp hmem] at hother
        cases hother
  · obtain ⟨c, hmem, hrole⟩ := hcall
    rw [connections_threePrograms] at hmem
    rcases List.mem_cons.mp hmem with rfl | hmem
    · exact (Peer.caller.inj hrole).1.symm
    · rcases List.mem_cons.mp hmem with rfl | hmem
      · cases hrole
      · rw [List.mem_singleton.mp hmem] at hrole
        cases hrole

end Service

end WayRay
