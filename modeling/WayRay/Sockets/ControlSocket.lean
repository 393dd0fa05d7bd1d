import WayRay.Sockets.Connection

/-!
# A control socket

`serve_json`: connections are served one after another, in the order in which they were made.

`Inv` collects what holds of every connection, given how far the server has got, and is kept by all
that the programs at the socket and the server do.
-/

namespace WayRay

/-- A request that has been handled. -/
structure Handled (Req Resp : Type) where
  connection : ℕ
  request : Req
  response : Option Resp
deriving DecidableEq

/-- The connections that have been made to a socket, and the server. -/
structure ControlSocket (Req Resp : Type) where
  /-- In the order in which they were made. -/
  connections : List (Connection Req Resp)
  /-- The place of the connection that is served, or will be next. -/
  serving : ℕ
  /-- The request that the handler is at. -/
  handling : Option Req
  /-- The requests that have been handled. -/
  log : List (Handled Req Resp)
deriving DecidableEq

/-- What the programs at a socket do. -/
inductive PeerEvent (Req : Type) where
  | call (request : Req)
  | notify (request : Req)
  /-- Another program connects. -/
  | connect
  | send (connection n : ℕ)
  | proceed (connection : ℕ)
  | write (connection : ℕ) (bytes : Bytes)
  | close (connection : ℕ) (dropped : Bool)

namespace ControlSocket

open Connection

variable {Req Resp : Type} (requests : JsonCodec Req) (responses : JsonCodec Resp)

/-- A socket that has just been bound. -/
def bind : ControlSocket Req Resp := ⟨[], 0, none, []⟩

/-! ### The programs at the socket -/

/-- A connection is made. -/
def accept (s : ControlSocket Req Resp) (c : Connection Req Resp) : ControlSocket Req Resp :=
  { s with connections := s.connections ++ [c] }

/-- The peer of one connection acts. -/
def modify (s : ControlSocket Req Resp) (i : ℕ) (act : Connection Req Resp → Connection Req Resp) :
    ControlSocket Req Resp :=
  { s with connections := s.connections.modify i act }

def peerStep (s : ControlSocket Req Resp) : PeerEvent Req → ControlSocket Req Resp
  | .call request => s.accept (call requests request)
  | .notify request => s.accept (notify requests request)
  | .connect => s.accept (new .other [])
  | .send i n => s.modify i (send n)
  | .proceed i => s.modify i (proceed responses)
  | .write i bytes => s.modify i (write bytes)
  | .close i dropped => s.modify i (close dropped)

/-! ### The server -/

/-- The connection that is served has changed; when it has ended, it is the next one's turn. -/
def update (s : ControlSocket Req Resp) (c : Connection Req Resp) (handling : Option Req)
    (handled : List (Handled Req Resp)) : ControlSocket Req Resp where
  connections := s.connections.set s.serving c
  serving := if c.ended then s.serving + 1 else s.serving
  handling := handling
  log := s.log ++ handled

/-- `serve_connection` reads a line, of a connection that has been accepted if need be. -/
def read (s : ControlSocket Req Resp) : ControlSocket Req Resp :=
  match s.connections[s.serving]? with
  | none => s
  | some c =>
    match c.read requests with
    | .blocked => s
    | .ended => s.update c.hangUp none []
    | .took c request => s.update c request []

/-- The handler has returned. -/
def respond (s : ControlSocket Req Resp) (response : Option Resp) : ControlSocket Req Resp :=
  match s.handling, s.connections[s.serving]? with
  | some request, some c =>
    s.update (c.reply responses response) none [⟨s.serving, request, response⟩]
  | _, _ => s

section Server

variable {requests responses} {s : ControlSocket Req Resp} {c : Connection Req Resp}

theorem respond_eq_update {request : Req} (hhandling : s.handling = some request)
    (hget : s.connections[s.serving]? = some c) (response : Option Resp) :
    s.respond responses response =
      s.update (c.reply responses response) none [⟨s.serving, request, response⟩] := by
  unfold respond
  rw [hhandling, hget]

theorem read_of_ended (hget : s.connections[s.serving]? = some c)
    (hread : c.read requests = .ended) : s.read requests = s.update c.hangUp none [] := by
  unfold read
  simp only [hget, hread]

theorem read_of_took (hget : s.connections[s.serving]? = some c) {c' : Connection Req Resp}
    {request : Option Req} (hread : c.read requests = .took c' request) :
    s.read requests = s.update c' request [] := by
  unfold read
  simp only [hget, hread]

end Server

/-! ### What holds at any time -/

/-- Whose turn it is. -/
def turn (s : ControlSocket Req Resp) (i : ℕ) : Turn Req :=
  if i < s.serving then .past else if i = s.serving then .now s.handling else .coming

/-- What the requests of one connection have been answered. -/
def answers (s : ControlSocket Req Resp) (i : ℕ) : List (Req × Option Resp) :=
  (s.log.filter fun handled => handled.connection = i).map
    fun handled => (handled.request, handled.response)

/-- Every connection is where it can be. -/
structure Inv (s : ControlSocket Req Resp) : Prop where
  valid : ∀ {i : ℕ} {c : Connection Req Resp}, s.connections[i]? = some c →
    c.Valid requests responses (s.turn i) (s.answers i)
  serving_le : s.serving ≤ s.connections.length
  handling : s.handling ≠ none → s.serving < s.connections.length
  log_le : ∀ handled ∈ s.log,
    handled.connection ≤ s.serving ∧ handled.connection < s.connections.length
  ordered : s.log.Pairwise fun handled handled' => handled.connection ≤ handled'.connection

variable {requests responses} {s : ControlSocket Req Resp}

theorem turn_of_lt {i : ℕ} (h : i < s.serving) : s.turn i = .past := if_pos h

@[simp] theorem turn_serving : s.turn s.serving = .now s.handling := by
  rw [turn, if_neg (lt_irrefl _), if_pos rfl]

theorem turn_of_gt {i : ℕ} (h : s.serving < i) : s.turn i = .coming := by
  rw [turn, if_neg h.not_gt, if_neg h.ne']

theorem inv_bind : (bind : ControlSocket Req Resp).Inv requests responses where
  valid h := absurd (List.mem_of_getElem? h) List.not_mem_nil
  serving_le := le_rfl
  handling h := absurd rfl h
  log_le _ h := absurd h List.not_mem_nil
  ordered := List.Pairwise.nil

/-- Where no request has been handled, none has been answered. -/
theorem answers_eq_nil {i : ℕ} (h : ∀ handled ∈ s.log, handled.connection ≠ i) :
    s.answers i = [] := by
  unfold answers
  rw [List.filter_eq_nil_iff.mpr fun handled hmem => by simpa using h handled hmem]
  rfl

theorem mem_log_of_answers {i : ℕ} {request : Req} {response : Option Resp}
    (h : (request, response) ∈ s.answers i) : ⟨i, request, response⟩ ∈ s.log := by
  obtain ⟨handled, hmem, heq⟩ := List.mem_map.mp h
  obtain ⟨hlog, hconnection⟩ := List.mem_filter.mp hmem
  obtain ⟨rfl, rfl⟩ := Prod.mk.inj heq
  rw [← of_decide_eq_true hconnection]
  exact hlog

/-! ### What the programs do -/

theorem Inv.accept (h : s.Inv requests responses) {c : Connection Req Resp}
    (hvalid : ∀ {turn : Turn Req}, turn.Waits → c.Valid requests responses turn []) :
    (s.accept c).Inv requests responses where
  valid {i c'} hget := by
    rw [ControlSocket.accept, List.getElem?_append] at hget
    split_ifs at hget with hlt
    · exact h.valid hget
    · rw [List.getElem?_singleton] at hget
      split_ifs at hget with hzero
      obtain rfl := Option.some.inj hget
      obtain rfl : i = s.connections.length := by omega
      have hanswers : (s.accept c).answers s.connections.length = [] :=
        answers_eq_nil fun handled hmem => ((h.log_le handled hmem).2).ne
      rw [hanswers]
      refine hvalid ?_
      rcases h.serving_le.eq_or_lt with heq | hlt
      · have hidle : s.handling = none := by
          by_contra hbusy
          exact absurd (h.handling hbusy) heq.not_lt
        change (s.turn s.connections.length).Waits
        rw [← heq, turn_serving, hidle]
        trivial
      · change (s.turn s.connections.length).Waits
        rw [turn_of_gt hlt]
        trivial
  serving_le := h.serving_le.trans (by simp [ControlSocket.accept])
  handling hbusy := (h.handling hbusy).trans_le (by simp [ControlSocket.accept])
  log_le handled hmem := by
    obtain ⟨hle, hlt⟩ := h.log_le handled hmem
    exact ⟨hle, hlt.trans_le (by simp [ControlSocket.accept])⟩
  ordered := h.ordered

theorem Inv.modify (h : s.Inv requests responses) (i : ℕ)
    {act : Connection Req Resp → Connection Req Resp}
    (hact : ∀ {c : Connection Req Resp} {turn : Turn Req} {answers : List (Req × Option Resp)},
      c.Valid requests responses turn answers → (act c).Valid requests responses turn answers) :
    (s.modify i act).Inv requests responses where
  valid {j c} hget := by
    rw [ControlSocket.modify, List.getElem?_modify] at hget
    obtain ⟨c', hc', heq⟩ := Option.map_eq_some_iff.mp hget
    rw [← heq]
    split_ifs
    · exact hact (h.valid hc')
    · exact h.valid hc'
  serving_le := h.serving_le.trans (List.length_modify ..).ge
  handling hbusy := (h.handling hbusy).trans_le (List.length_modify ..).ge
  log_le handled hmem := by
    obtain ⟨hle, hlt⟩ := h.log_le handled hmem
    exact ⟨hle, hlt.trans_le (List.length_modify ..).ge⟩
  ordered := h.ordered

/-- **The programs at a socket** do nothing to each other's connections. -/
theorem Inv.peerStep (h : s.Inv requests responses) (event : PeerEvent Req) :
    (s.peerStep requests responses event).Inv requests responses := by
  cases event with
  | call request => exact h.accept valid_call
  | notify request => exact h.accept valid_notify
  | connect => exact h.accept (valid_new [] rfl)
  | send i n => exact h.modify i fun hvalid => hvalid.send n
  | proceed i => exact h.modify i fun hvalid => hvalid.proceed
  | write i bytes => exact h.modify i fun hvalid => hvalid.write bytes
  | close i dropped => exact h.modify i fun hvalid => hvalid.close dropped

/-! ### What the server does -/

theorem answers_update {c : Connection Req Resp} {handling : Option Req}
    {handled : List (Handled Req Resp)} (i : ℕ) :
    (s.update c handling handled).answers i =
      s.answers i ++ (handled.filter fun handled => handled.connection = i).map
        fun handled => (handled.request, handled.response) := by
  simp only [answers, update, List.filter_append, List.map_append]

theorem serving_update (c : Connection Req Resp) (handling : Option Req)
    (handled : List (Handled Req Resp)) :
    c.ended = true ∧ (s.update c handling handled).serving = s.serving + 1 ∨
      c.ended = false ∧ (s.update c handling handled).serving = s.serving := by
  unfold update
  cases c.ended with
  | true => exact .inl ⟨rfl, rfl⟩
  | false => exact .inr ⟨rfl, rfl⟩

/-- The connection that is served changes, and no other. -/
theorem Inv.update (h : s.Inv requests responses) {c : Connection Req Resp}
    {handling : Option Req} {handled : List (Handled Req Resp)}
    (hlt : s.serving < s.connections.length)
    (hhandled : ∀ entry ∈ handled, entry.connection = s.serving)
    (hidle : c.ended = true → handling = none)
    (hvalid : c.Valid requests responses (c.turnAfter handling)
      ((s.update c handling handled).answers s.serving)) :
    (s.update c handling handled).Inv requests responses := by
  have hlength : (s.update c handling handled).connections.length = s.connections.length :=
    List.length_set
  have hserving := s.serving_update c handling handled
  refine ⟨fun {i c'} hget => ?_, ?_, fun hbusy => ?_, fun entry hmem => ?_, ?_⟩
  · rw [ControlSocket.update, List.getElem?_set] at hget
    split_ifs at hget with heq
    · obtain rfl := Option.some.inj hget
      subst heq
      have hturn : (s.update c handling handled).turn s.serving = c.turnAfter handling := by
        rcases hserving with ⟨hended, hserving⟩ | ⟨hended, hserving⟩
        · rw [turn_of_lt (hserving ▸ Nat.lt_succ_self _), turnAfter, if_pos hended]
        · rw [turnAfter, if_neg (ne_true_of_eq_false hended), ← hserving, turn_serving]
          rfl
      rwa [hturn]
    · have hold := h.valid hget
      have hsame : (s.update c handling handled).answers i = s.answers i := by
        rw [answers_update, List.filter_eq_nil_iff.mpr, List.map_nil, List.append_nil]
        exact fun entry hmem => by simpa [hhandled entry hmem] using heq
      rw [hsame]
      rcases lt_trichotomy i s.serving with hbefore | rfl | hafter
      · rw [turn_of_lt hbefore] at hold
        rw [turn_of_lt]
        · exact hold
        · rcases hserving with ⟨-, hserving⟩ | ⟨-, hserving⟩ <;> omega
      · exact absurd rfl heq
      · rw [turn_of_gt hafter] at hold
        rcases hserving with ⟨hended, hserving⟩ | ⟨-, hserving⟩
        · have hnext : s.serving + 1 ≤ i := hafter
          rcases hnext.eq_or_lt with rfl | hlater
          · rw [← hserving, turn_serving, hserving]
            exact (congrArg Turn.now (hidle hended)).symm ▸ hold.next
          · rwa [turn_of_gt (hserving.symm ▸ hlater)]
        · rwa [turn_of_gt (hserving.symm ▸ hafter)]
  · rw [hlength]
    rcases hserving with ⟨-, hserving⟩ | ⟨-, hserving⟩ <;> omega
  · rw [hlength]
    rcases hserving with ⟨hended, -⟩ | ⟨-, hserving⟩
    · exact absurd (hidle hended) hbusy
    · rwa [hserving]
  · rw [hlength]
    rcases List.mem_append.mp hmem with hold | hnew
    · obtain ⟨hle, hlt'⟩ := h.log_le entry hold
      refine ⟨hle.trans ?_, hlt'⟩
      rcases hserving with ⟨-, hserving⟩ | ⟨-, hserving⟩ <;> omega
    · rw [hhandled entry hnew]
      refine ⟨?_, hlt⟩
      rcases hserving with ⟨-, hserving⟩ | ⟨-, hserving⟩ <;> omega
  · refine List.pairwise_append.mpr ⟨h.ordered, ?_, fun entry hold entry' hnew => ?_⟩
    · refine List.pairwise_of_forall_mem_list fun entry hmem entry' hmem' => ?_
      rw [hhandled entry hmem, hhandled entry' hmem']
    · rw [hhandled entry' hnew]
      exact (h.log_le entry hold).1

theorem Inv.read (h : s.Inv requests responses) (hidle : s.handling = none) :
    (s.read requests).Inv requests responses := by
  unfold ControlSocket.read
  split
  · exact h
  · next c hget =>
    have hvalid := h.valid hget
    rw [turn_serving, hidle] at hvalid
    have hlt := (List.getElem?_eq_some_iff.mp hget).1
    have hanswers : ∀ c handling, (s.update c handling []).answers s.serving =
        s.answers s.serving :=
      fun c handling => (answers_update _).trans (List.append_nil _)
    have hnone : ∀ entry ∈ ([] : List (Handled Req Resp)), entry.connection = s.serving :=
      fun entry hmem => absurd hmem List.not_mem_nil
    split
    · exact h
    · next hread =>
      refine h.update hlt hnone (fun _ => rfl) ?_
      rw [hanswers]
      exact hvalid.ended_of_read hread
    · next c' request hread =>
      have hvalid' := hvalid.took hread
      have hopen : ¬ c'.ended = true :=
        fun hended => absurd (hvalid'.ended.mp hended) Turn.now_ne_past
      refine h.update hlt hnone (fun hended => absurd hended hopen) ?_
      rw [hanswers, turnAfter, if_neg hopen]
      exact hvalid'

theorem Inv.respond (h : s.Inv requests responses) (response : Option Resp) :
    (s.respond responses response).Inv requests responses := by
  unfold ControlSocket.respond
  split
  · next request c hhandling hget =>
    have hvalid := h.valid hget
    rw [turn_serving, hhandling] at hvalid
    have hlt := (List.getElem?_eq_some_iff.mp hget).1
    refine h.update hlt (fun entry hmem => ?_) (fun _ => rfl) ?_
    · rw [List.mem_singleton.mp hmem]
    · rw [answers_update, List.filter_eq_self.mpr fun entry hmem => by
        rw [List.mem_singleton.mp hmem]
        exact decide_eq_true rfl]
      exact hvalid.reply response
  · exact h

/-! ### What the server goes by -/

/-- The programs at a socket do nothing to the server. -/
theorem server_peerStep (s : ControlSocket Req Resp) (requests : JsonCodec Req)
    (responses : JsonCodec Resp) (event : PeerEvent Req) :
    (s.peerStep requests responses event).serving = s.serving ∧
      (s.peerStep requests responses event).handling = s.handling ∧
      (s.peerStep requests responses event).log = s.log := by
  cases event <;> exact ⟨rfl, rfl, rfl⟩

theorem log_read (s : ControlSocket Req Resp) (requests : JsonCodec Req) :
    (s.read requests).log = s.log := by
  unfold read
  split
  · rfl
  · split
    · rfl
    · exact List.append_nil _
    · exact List.append_nil _

/-- The request at hand is what has been handled. -/
theorem Inv.log_respond (h : s.Inv requests responses) {request : Req}
    (hhandling : s.handling = some request) (response : Option Resp) :
    (s.respond responses response).log = s.log ++ [⟨s.serving, request, response⟩] := by
  have hlt := h.handling (hhandling.symm ▸ Option.some_ne_none request)
  rw [respond_eq_update hhandling (List.getElem?_eq_getElem hlt)]
  rfl

/-! ### What the programs get -/

/-- Every call that has returned has the answer to its own request, every call and notification is
handled at most once, and all that have been served have been handled; a call that has been served
has returned. -/
structure Answered (s : ControlSocket Req Resp) : Prop where
  call : ∀ {i : ℕ} {c : Connection Req Resp} {request : Req} {result : Option Resp},
    s.connections[i]? = some c → c.peer = .caller request (some result) →
      ∃ response, result = some response ∧ s.answers i = [(request, some response)]
  once : ∀ {i : ℕ} {c : Connection Req Resp} {request : Req}, s.connections[i]? = some c →
    c.peer = .notifier request ∨ c.peer = .caller request none →
      s.answers i = [] ∨ ∃ response, s.answers i = [(request, response)]
  served : ∀ {i : ℕ} {c : Connection Req Resp}, s.connections[i]? = some c → i < s.serving →
    (∀ {request : Req}, c.peer = .notifier request →
      ∃ response, s.answers i = [(request, response)]) ∧
      ∀ {request : Req}, c.peer ≠ .caller request none

theorem Inv.answered (h : s.Inv requests responses) : s.Answered where
  call hget hpeer := by
    have hdone := (h.valid hget).peerDone
    unfold PeerDone at hdone
    rw [hpeer] at hdone
    exact hdone.2.2.2
  once hget hpeer := by
    have hdone := (h.valid hget).peerDone
    unfold PeerDone at hdone
    rcases hpeer with hpeer | hpeer <;> rw [hpeer] at hdone <;> exact hdone.1.answers_eq
  served {i c} hget hlt := by
    have hvalid := h.valid hget
    rw [turn_of_lt hlt] at hvalid
    have hdone := hvalid.peerDone
    unfold PeerDone at hdone
    refine ⟨fun {request} hpeer => ?_, fun {request} hpeer => ?_⟩
    · rw [hpeer] at hdone
      exact hdone.1.exists_of_past
    · rw [hpeer] at hdone
      exact absurd ((hvalid.ended.mpr rfl).symm.trans hdone.2.2.2.1) Bool.false_ne_true.symm

/-! ### What stays -/

/-- The same connections, and perhaps some more. -/
def Extends (s s' : ControlSocket Req Resp) : Prop :=
  ∀ (i : ℕ) (c : Connection Req Resp), s.connections[i]? = some c →
    ∃ c', s'.connections[i]? = some c' ∧ c.Kept c'

theorem Extends.refl (s : ControlSocket Req Resp) : s.Extends s :=
  fun _ c hget => ⟨c, hget, .refl c⟩

theorem Extends.trans {s s' s'' : ControlSocket Req Resp} (h : s.Extends s')
    (h' : s'.Extends s'') : s.Extends s'' := by
  intro i c hget
  obtain ⟨c', hget', hkept⟩ := h i c hget
  obtain ⟨c'', hget'', hkept'⟩ := h' i c' hget'
  exact ⟨c'', hget'', hkept.trans hkept'⟩

theorem extends_modify (i : ℕ) {act : Connection Req Resp → Connection Req Resp}
    (hact : ∀ c : Connection Req Resp, c.Kept (act c)) : s.Extends (s.modify i act) := by
  intro j c hget
  refine ⟨if i = j then act c else c, ?_, ?_⟩
  · rw [modify, List.getElem?_modify, hget]
    rfl
  · split_ifs
    · exact hact c
    · exact .refl c

theorem extends_update {c c' : Connection Req Resp} {handling : Option Req}
    {handled : List (Handled Req Resp)} (hget : s.connections[s.serving]? = some c)
    (hkept : c.Kept c') : s.Extends (s.update c' handling handled) := by
  intro j d hget'
  rw [update, List.getElem?_set]
  split_ifs with heq hlt
  · subst heq
    rw [Option.some.inj (hget'.symm.trans hget)]
    exact ⟨c', rfl, hkept⟩
  · exact absurd (List.getElem?_eq_some_iff.mp (heq ▸ hget')).1 hlt
  · exact ⟨d, hget', .refl d⟩

theorem extends_peerStep (event : PeerEvent Req) :
    s.Extends (s.peerStep requests responses event) := by
  have haccept : ∀ c, s.Extends (s.accept c) := by
    intro c i c' hget
    refine ⟨c', ?_, .refl c'⟩
    rw [accept, List.getElem?_append_left (List.getElem?_eq_some_iff.mp hget).1, hget]
  cases event with
  | call _ | notify _ | connect => exact haccept _
  | send i n => exact extends_modify i fun c => c.kept_send n
  | proceed i => exact extends_modify i fun c => c.kept_proceed
  | write i bytes => exact extends_modify i fun c => c.kept_write bytes
  | close i dropped => exact extends_modify i fun c => c.kept_close dropped

theorem extends_read : s.Extends (s.read requests) := by
  unfold read
  split
  · exact .refl s
  · next hget =>
    split
    · exact .refl s
    · exact extends_update hget (kept_hangUp _)
    · next hread => exact extends_update hget (kept_took hread)

theorem extends_respond (response : Option Resp) : s.Extends (s.respond responses response) := by
  unfold respond
  split
  · next hget => exact extends_update hget (kept_reply _ response)
  · exact .refl s

end ControlSocket

end WayRay
