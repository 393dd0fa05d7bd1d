import WayRay.Sockets.JsonLines

/-!
# One connection of a control socket

Both ends of a connection: `send_json` and `send_json_notification` (or any other program) at the
one end, `serve_connection` at the other.

`Valid` says how far a connection can have got, given whether its turn has come and what its
requests have been answered.  Each action of the two ends keeps it; in particular a call that
returns has got the answer to its own request.

The buffers of the socket have no bound here, so that a write never waits for the other end to read.
-/

namespace WayRay

/-- Who is at the other end of a connection. -/
inductive Peer (Req Resp : Type) where
  /-- `send_json`; once it has returned, the response or an error. -/
  | caller (request : Req) (result : Option (Option Resp))
  /-- `send_json_notification`. -/
  | notifier (request : Req)
  /-- A program of its own. -/
  | other
deriving DecidableEq

/-- A peer without what has come of it. -/
def Peer.role {Req Resp : Type} : Peer Req Resp → Peer Req Resp
  | .caller request _ => .caller request none
  | peer => peer

theorem Peer.eq_caller_of_role {Req Resp : Type} {peer : Peer Req Resp} {request : Req}
    (h : peer.role = .caller request none) : ∃ result, peer = .caller request result := by
  cases peer with
  | caller request' result =>
    obtain rfl := (Peer.caller.inj h).1
    exact ⟨result, rfl⟩
  | notifier | other => cases h

/-- The state of a connection. -/
structure Connection (Req Resp : Type) where
  peer : Peer Req Resp
  /-- What the peer has yet to write. -/
  unsent : Bytes
  /-- The bytes that the server has not read. -/
  toServer : Bytes
  /-- The peer sends no more. -/
  shut : Bool
  /-- The peer has dropped its end. -/
  dropped : Bool
  /-- The bytes that the peer has not read. -/
  toPeer : Bytes
  /-- The server has dropped its end. -/
  ended : Bool
deriving DecidableEq

/-- What a server gets of a connection. -/
inductive ServerRead (Req Resp : Type) where
  | blocked
  /-- End of file, or a line that is not UTF-8. -/
  | ended
  /-- A line has been taken, and there may be a request on it. -/
  | took (c : Connection Req Resp) (request : Option Req)

namespace Connection

variable {Req Resp : Type} (requests : JsonCodec Req) (responses : JsonCodec Resp)

/-! ### The peer -/

/-- A connection that has just been made. -/
def new (peer : Peer Req Resp) (unsent : Bytes) : Connection Req Resp :=
  ⟨peer, unsent, [], false, false, [], false⟩

/-- `send_json`. -/
def call (request : Req) : Connection Req Resp :=
  new (.caller request none) (requests.line request)

/-- `send_json_notification`. -/
def notify (request : Req) : Connection Req Resp :=
  new (.notifier request) (requests.line request)

/-- The peer drops its end. -/
def drop (c : Connection Req Resp) : Connection Req Resp :=
  { c with shut := true, dropped := true }

/-- The call returns, and drops its end. -/
def finish (request : Req) (result : Option Resp) (c : Connection Req Resp) :
    Connection Req Resp :=
  { c with peer := .caller request (some result) }.drop

/-- Some more bytes are written. -/
def send (n : ℕ) (c : Connection Req Resp) : Connection Req Resp :=
  if c.unsent.isEmpty then c
  else if c.ended then
    -- a broken pipe
    match c.peer with
    | .caller request _ => finish request none { c with unsent := [] }
    | .notifier _ | .other => { c with unsent := [] }.drop
  else { c with unsent := c.unsent.drop n, toServer := c.toServer ++ c.unsent.take n }

/-- What follows once all has been written: `send_json` reads a line, `send_json_notification` drops
the connection. -/
def proceed (c : Connection Req Resp) : Connection Req Resp :=
  if !c.unsent.isEmpty then c
  else
    match c.peer with
    | .caller request none =>
      match readLine c.toPeer c.ended with
      | .blocked => c
      | .invalid => c.finish request none
      | .endOfFile => c.finish request (responses.parse "")
      | .line text _ => c.finish request (responses.parse text)
    | .notifier _ => c.drop
    | .caller _ (some _) | .other => c

/-- Another program writes. -/
def write (bytes : Bytes) (c : Connection Req Resp) : Connection Req Resp :=
  match c.peer with
  | .other => if c.shut then c else { c with toServer := c.toServer ++ bytes }
  | .caller _ _ | .notifier _ => c

/-- Another program sends no more, and may drop its end. -/
def close (dropped : Bool) (c : Connection Req Resp) : Connection Req Resp :=
  match c.peer with
  | .other => { c with shut := true, dropped := c.dropped || dropped }
  | .caller _ _ | .notifier _ => c

/-! ### The server -/

/-- The server drops its end. -/
def hangUp (c : Connection Req Resp) : Connection Req Resp := { c with ended := true }

/-- Read one line, and the request that is on it.  Blank lines and lines that cannot be parsed are
skipped. -/
def read (c : Connection Req Resp) : ServerRead Req Resp :=
  match readLine c.toServer c.shut with
  | .blocked => .blocked
  | .endOfFile | .invalid => .ended
  | .line text rest =>
    .took { c with toServer := rest }
      (if (trim text.toList).isEmpty then none else requests.parse text)

/-- Write the response to a request, if there is one.  Without a peer this fails, and the connection
ends. -/
def reply (response : Option Resp) (c : Connection Req Resp) : Connection Req Resp :=
  match response with
  | none => c
  | some response =>
    if c.dropped then c.hangUp else { c with toPeer := c.toPeer ++ responses.line response }

/-! ### What stays -/

variable {requests responses}

/-- The same connection later on. -/
structure Kept (c c' : Connection Req Resp) : Prop where
  role : c'.peer.role = c.peer.role
  shut : c.shut = true → c'.shut = true

theorem Kept.refl (c : Connection Req Resp) : c.Kept c := ⟨rfl, id⟩

theorem Kept.trans {c c' c'' : Connection Req Resp} (h : c.Kept c') (h' : c'.Kept c'') :
    c.Kept c'' :=
  ⟨h'.role.trans h.role, fun hshut => h'.shut (h.shut hshut)⟩

theorem kept_send (c : Connection Req Resp) (n : ℕ) : c.Kept (c.send n) := by
  unfold send
  split_ifs
  · exact .refl c
  · split
    · next hpeer => exact ⟨hpeer ▸ rfl, fun _ => rfl⟩
    · exact ⟨rfl, fun _ => rfl⟩
    · exact ⟨rfl, fun _ => rfl⟩
  · exact ⟨rfl, id⟩

/-- All of it can be written while the server has not dropped its end. -/
theorem unsent_send_length {c : Connection Req Resp} (hopen : c.ended = false) :
    (c.send c.unsent.length).unsent = [] := by
  unfold send
  split_ifs with hempty hended
  · exact List.isEmpty_iff.mp hempty
  · exact absurd hended (ne_true_of_eq_false hopen)
  · exact List.drop_length

theorem kept_proceed (c : Connection Req Resp) : c.Kept (c.proceed responses) := by
  unfold proceed
  split_ifs
  · exact .refl c
  · split
    · next hpeer =>
      split
      · exact .refl c
      · exact ⟨hpeer ▸ rfl, fun _ => rfl⟩
      · exact ⟨hpeer ▸ rfl, fun _ => rfl⟩
      · exact ⟨hpeer ▸ rfl, fun _ => rfl⟩
    · exact ⟨rfl, fun _ => rfl⟩
    · exact .refl c
    · exact .refl c

theorem kept_write (c : Connection Req Resp) (bytes : Bytes) : c.Kept (c.write bytes) := by
  unfold write
  split
  · split_ifs
    · exact .refl c
    · exact ⟨rfl, id⟩
  · exact .refl c
  · exact .refl c

theorem kept_close (c : Connection Req Resp) (dropped : Bool) : c.Kept (c.close dropped) := by
  unfold close
  split
  · exact ⟨rfl, fun _ => rfl⟩
  · exact .refl c
  · exact .refl c

theorem kept_hangUp (c : Connection Req Resp) : c.Kept c.hangUp := ⟨rfl, id⟩

/-- What a line that has been taken leaves. -/
theorem exists_of_took {c c' : Connection Req Resp} {request : Option Req}
    (h : c.read requests = .took c' request) :
    ∃ rest, rest.length < c.toServer.length ∧ c' = { c with toServer := rest } := by
  unfold read at h
  split at h
  · cases h
  · cases h
  · cases h
  · next hline => exact ⟨_, length_of_readLine hline, (ServerRead.took.inj h).1.symm⟩

theorem kept_took {c c' : Connection Req Resp} {request : Option Req}
    (h : c.read requests = .took c' request) : c.Kept c' := by
  obtain ⟨rest, -, rfl⟩ := exists_of_took h
  exact ⟨rfl, id⟩

/-- A reply touches the bytes to the peer and the server's end only. -/
theorem exists_of_reply (c : Connection Req Resp) (responses : JsonCodec Resp)
    (response : Option Resp) :
    ∃ toPeer ended, c.reply responses response = { c with toPeer := toPeer, ended := ended } := by
  unfold reply
  split
  · exact ⟨_, _, rfl⟩
  · split_ifs
    · exact ⟨_, _, rfl⟩
    · exact ⟨_, _, rfl⟩

theorem kept_reply (c : Connection Req Resp) (response : Option Resp) :
    c.Kept (c.reply responses response) := by
  obtain ⟨toPeer, ended, heq⟩ := c.exists_of_reply responses response
  rw [heq]
  exact ⟨rfl, id⟩

variable (requests responses)

/-! ### What holds of a connection -/

/-- Whether it is the turn of a connection, and which of its requests is being handled. -/
inductive Turn (Req : Type) where
  | coming
  | now (handling : Option Req)
  | past
deriving DecidableEq

/-- No request of the connection has been read. -/
def Turn.Waits : Turn Req → Prop
  | .coming | .now none => True
  | .now (some _) | .past => False

/-- No request of the connection is being handled. -/
def Turn.Handled : Turn Req → Prop
  | .now none | .past => True
  | .now (some _) | .coming => False

theorem Turn.now_ne_past {handling : Option Req} : Turn.now handling ≠ .past := fun h => by cases h

theorem Turn.now_ne_coming {handling : Option Req} : Turn.now handling ≠ .coming :=
  fun h => by cases h

theorem Turn.past_ne_coming : (Turn.past : Turn Req) ≠ .coming := fun h => by cases h

/-- How far the one request of a connection has got. -/
inductive Progress (c : Connection Req Resp) (request : Req) :
    Turn Req → List (Req × Option Resp) → Prop
  | unread {turn : Turn Req} (hturn : turn.Waits)
      (hmessage : c.toServer ++ c.unsent = requests.line request) : Progress c request turn []
  | handling (hread : c.toServer = []) (hsent : c.unsent = []) :
      Progress c request (.now (some request)) []
  | handled {turn : Turn Req} {response : Option Resp} (hturn : turn.Handled)
      (hread : c.toServer = []) (hsent : c.unsent = []) :
      Progress c request turn [(request, response)]

/-- The responses that have been written. -/
def written (answers : List (Req × Option Resp)) : Bytes :=
  answers.flatMap fun answer => (answer.2.map responses.line).getD []

/-- What the peer of a connection has done. -/
def PeerDone (c : Connection Req Resp) (turn : Turn Req) (answers : List (Req × Option Resp)) :
    Prop :=
  match c.peer with
  | .caller request none =>
    c.Progress requests request turn answers ∧ c.shut = false ∧ c.dropped = false ∧
      c.ended = false ∧ c.toPeer = written responses answers
  | .caller request (some result) =>
    c.Progress requests request turn answers ∧ c.shut = true ∧ c.dropped = true ∧
      ∃ response, result = some response ∧ answers = [(request, some response)]
  | .notifier request =>
    c.Progress requests request turn answers ∧ c.dropped = c.shut ∧
      (c.shut = true → c.unsent = [])
  | .other => c.unsent = []

/-- How far a connection can have got. -/
structure Valid (c : Connection Req Resp) (turn : Turn Req) (answers : List (Req × Option Resp)) :
    Prop where
  ended : c.ended = true ↔ turn = .past
  coming : turn = .coming → answers = []
  peerDone : c.PeerDone requests responses turn answers

variable {requests responses} {c : Connection Req Resp} {turn : Turn Req}
  {answers : List (Req × Option Resp)} {request : Req}

/-! ### The peer's actions -/

theorem valid_new {peer : Peer Req Resp} (unsent : Bytes)
    (hpeer : (new peer unsent).PeerDone requests responses turn []) (hturn : turn.Waits) :
    (new peer unsent).Valid requests responses turn [] := by
  refine ⟨⟨fun hended => absurd hended Bool.false_ne_true, ?_⟩, fun _ => rfl, hpeer⟩
  rintro rfl
  exact hturn.elim

theorem valid_call (hturn : turn.Waits) :
    (call requests request).Valid requests responses turn [] :=
  valid_new _ ⟨.unread hturn (List.nil_append _), rfl, rfl, rfl, rfl⟩ hturn

theorem valid_notify (hturn : turn.Waits) :
    (notify requests request).Valid requests responses turn [] :=
  valid_new _ ⟨.unread hturn (List.nil_append _), rfl, fun h => absurd h Bool.false_ne_true⟩ hturn

/-- Bytes on their way are those of the message. -/
theorem Progress.send (h : c.Progress requests request turn answers) (n : ℕ) :
    Progress requests
      { c with unsent := c.unsent.drop n, toServer := c.toServer ++ c.unsent.take n }
      request turn answers := by
  cases h with
  | unread hturn hmessage =>
    refine .unread hturn ?_
    rw [← hmessage, List.append_assoc, List.take_append_drop]
  | handling hread hsent =>
    refine .handling ?_ ?_
    · simp only [hread, hsent, List.take_nil, List.append_nil]
    · simp only [hsent, List.drop_nil]
  | handled hturn hread hsent =>
    refine .handled hturn ?_ ?_
    · simp only [hread, hsent, List.take_nil, List.append_nil]
    · simp only [hsent, List.drop_nil]

/-- What has not been read to the end is not done. -/
theorem Progress.ended_eq_false (h : c.Progress requests request turn answers)
    (hended : c.ended = true ↔ turn = .past) (hunsent : c.unsent ≠ []) : c.ended = false := by
  rw [← Bool.not_eq_true, hended]
  cases h with
  | unread hturn _ =>
    rintro rfl
    exact hturn.elim
  | handling _ hsent | handled _ _ hsent => exact absurd hsent hunsent

theorem Valid.send (h : c.Valid requests responses turn answers) (n : ℕ) :
    (c.send n).Valid requests responses turn answers := by
  unfold Connection.send
  by_cases hempty : c.unsent = []
  · rw [if_pos (List.isEmpty_iff.mpr hempty)]
    exact h
  · have hdone := h.peerDone
    unfold PeerDone at hdone
    have hended : c.ended = false := by
      split at hdone
      · exact hdone.1.ended_eq_false h.ended hempty
      · exact hdone.1.ended_eq_false h.ended hempty
      · exact hdone.1.ended_eq_false h.ended hempty
      · exact absurd hdone hempty
    rw [if_neg fun hnil => hempty (List.isEmpty_iff.mp hnil),
      if_neg (ne_true_of_eq_false hended)]
    refine ⟨h.ended, h.coming, ?_⟩
    unfold PeerDone
    simp only
    split at hdone
    · exact ⟨hdone.1.send n, hdone.2⟩
    · exact ⟨hdone.1.send n, hdone.2⟩
    · refine ⟨hdone.1.send n, hdone.2.1, fun hshut => ?_⟩
      exact absurd (hdone.2.2 hshut) hempty
    · exact absurd hdone hempty

/-- Progress does not depend on what the peer has received, or does from now on. -/
theorem Progress.congr {c' : Connection Req Resp} (h : c.Progress requests request turn answers)
    (htoServer : c'.toServer = c.toServer) (hunsent : c'.unsent = c.unsent) :
    c'.Progress requests request turn answers := by
  cases h with
  | unread hturn hmessage => exact .unread hturn (by rw [htoServer, hunsent, hmessage])
  | handling hread hsent => exact .handling (htoServer.trans hread) (hunsent.trans hsent)
  | handled hturn hread hsent =>
    exact .handled hturn (htoServer.trans hread) (hunsent.trans hsent)

/-- A call returns when the response is there. -/
theorem proceed_of_response {response : Resp} (hpeer : c.peer = .caller request none)
    (hsent : c.unsent = []) (htoPeer : c.toPeer = responses.line response) :
    c.proceed responses = c.finish request (some response) := by
  have hline := readLine_line responses response [] c.ended
  rw [List.append_nil] at hline
  unfold proceed
  simp only [hpeer, hsent, htoPeer, hline, JsonCodec.parse_line, List.isEmpty_nil,
    Bool.not_true, Bool.false_eq_true, if_false]

/-- It returns the response to its own request. -/
theorem proceed_caller (hpeer : c.peer = .caller request none)
    (hprogress : c.Progress requests request turn answers) (hended : c.ended = false)
    (htoPeer : c.toPeer = written responses answers) :
    c.proceed responses = c ∨
      ∃ response, answers = [(request, some response)] ∧
        c.proceed responses = c.finish request (some response) := by
  have hwaits : written responses answers = [] → c.proceed responses = c := by
    intro hempty
    unfold proceed
    rw [hpeer, htoPeer, hended, hempty]
    exact ite_self _
  cases hprogress with
  | unread hturn hmessage => exact .inl (hwaits rfl)
  | handling hread hsent => exact .inl (hwaits rfl)
  | @handled _ response hturn hread hsent =>
    cases response with
    | none => exact .inl (hwaits rfl)
    | some response =>
      refine .inr ⟨response, rfl, ?_⟩
      exact proceed_of_response hpeer hsent (htoPeer.trans (List.append_nil _))

theorem Valid.proceed (h : c.Valid requests responses turn answers) :
    (c.proceed responses).Valid requests responses turn answers := by
  have hdone := h.peerDone
  cases hpeer : c.peer with
  | caller request result =>
    unfold PeerDone at hdone
    rw [hpeer] at hdone
    cases result with
    | none =>
      obtain ⟨hprogress, hshut, hdropped, hended, htoPeer⟩ := hdone
      rcases proceed_caller hpeer hprogress hended htoPeer with heq | ⟨response, hanswers, heq⟩
      · rwa [heq]
      · rw [heq]
        exact ⟨h.ended, h.coming, hprogress.congr rfl rfl, rfl, rfl, response, rfl, hanswers⟩
    | some result =>
      have heq : c.proceed responses = c := by
        unfold Connection.proceed
        rw [hpeer]
        exact ite_self _
      rwa [heq]
  | notifier request =>
    unfold Connection.proceed
    rw [hpeer]
    split_ifs with hunsent
    · exact h
    · refine ⟨h.ended, h.coming, ?_⟩
      unfold PeerDone at hdone ⊢
      simp only [drop, hpeer] at hdone ⊢
      refine ⟨hdone.1.congr rfl rfl, trivial, fun _ => ?_⟩
      exact List.isEmpty_iff.mp (by simpa using hunsent)
  | other =>
    have heq : c.proceed responses = c := by
      unfold Connection.proceed
      rw [hpeer]
      exact ite_self _
    rwa [heq]

/-- Other programs are trusted with nothing. -/
theorem Valid.congr_other {c' : Connection Req Resp} (h : c.Valid requests responses turn answers)
    (hpeer : c.peer = .other) (hpeer' : c'.peer = .other) (hunsent : c'.unsent = c.unsent)
    (hended : c'.ended = c.ended) : c'.Valid requests responses turn answers := by
  have hdone := h.peerDone
  unfold PeerDone at hdone
  rw [hpeer] at hdone
  refine ⟨hended ▸ h.ended, h.coming, ?_⟩
  unfold PeerDone
  rw [hpeer']
  exact hunsent.trans hdone

theorem Valid.write (h : c.Valid requests responses turn answers) (bytes : Bytes) :
    (c.write bytes).Valid requests responses turn answers := by
  unfold Connection.write
  split
  · next hpeer =>
    split_ifs
    · exact h
    · exact h.congr_other hpeer hpeer rfl rfl
  · exact h
  · exact h

theorem Valid.close (h : c.Valid requests responses turn answers) (dropped : Bool) :
    (c.close dropped).Valid requests responses turn answers := by
  unfold Connection.close
  split
  · next hpeer => exact h.congr_other hpeer hpeer rfl rfl
  · exact h
  · exact h

/-- A request is handled at most once. -/
theorem Progress.answers_eq (h : c.Progress requests request turn answers) :
    answers = [] ∨ ∃ response, answers = [(request, response)] := by
  cases h with
  | unread | handling => exact .inl rfl
  | handled => exact .inr ⟨_, rfl⟩

/-- In the end it has been handled. -/
theorem Progress.exists_of_past (h : c.Progress requests request .past answers) :
    ∃ response, answers = [(request, response)] := by
  cases h with
  | unread hturn _ => exact hturn.elim
  | handled => exact ⟨_, rfl⟩

/-! ### The server's actions -/

/-- The turn of a connection comes. -/
theorem Valid.next (h : c.Valid requests responses .coming answers) :
    c.Valid requests responses (.now none) answers := by
  obtain ⟨hended, hcoming, hdone⟩ := h
  obtain rfl := hcoming rfl
  have hprogress : ∀ {request}, c.Progress requests request .coming [] →
      c.Progress requests request (.now none) [] := by
    intro request hprogress
    cases hprogress with
    | unread _ hmessage => exact .unread trivial hmessage
  refine ⟨⟨fun h => absurd (hended.mp h) Turn.past_ne_coming.symm,
    fun h => absurd h Turn.now_ne_past⟩, fun _ => rfl, ?_⟩
  unfold PeerDone at hdone ⊢
  split at hdone
  · exact ⟨hprogress hdone.1, hdone.2⟩
  · exact ⟨hprogress hdone.1, hdone.2⟩
  · exact ⟨hprogress hdone.1, hdone.2⟩
  · exact hdone

/-- What is read of a connection with one request. -/
theorem Progress.read (h : c.Progress requests request (.now none) answers)
    (hshut : c.shut = true → c.unsent = []) :
    (c.read requests = .blocked ∧ c.shut = false ∧
        (c.unsent = [] → ∃ response, answers = [(request, response)])) ∨
      (c.read requests = .ended ∧ c.shut = true ∧
        ∃ response, answers = [(request, response)] ∧ c.toServer = [] ∧ c.unsent = []) ∨
      c.read requests = .took { c with toServer := [] } (some request) ∧ c.unsent = [] ∧
        answers = [] := by
  unfold Connection.read
  cases h with
  | unread hturn hmessage =>
    by_cases hunsent : c.unsent = []
    · rw [hunsent, List.append_nil] at hmessage
      have hline := readLine_line requests request [] c.shut
      rw [List.append_nil, ← hmessage] at hline
      refine .inr (.inr ⟨?_, hunsent, rfl⟩)
      have htrim : (trim (requests.toString request ++ "\n").toList).isEmpty = false := by
        rw [requests.trim_line, List.isEmpty_eq_false_iff]
        exact (requests.trimmed request).ne_nil
      simp only [hline, htrim, Bool.false_eq_true, if_false, JsonCodec.parse_line]
    · have hopen : c.shut = false := Bool.eq_false_iff.mpr fun h => hunsent (hshut h)
      have hblocked := readLine_partial requests request hmessage hunsent
      exact .inl ⟨by simp only [hopen, hblocked], hopen, fun hnil => absurd hnil hunsent⟩
  | @handled _ response hturn hread hsent =>
    rw [hread]
    cases hopen : c.shut with
    | false => exact .inl ⟨rfl, rfl, fun _ => ⟨response, rfl⟩⟩
    | true => exact .inr (.inl ⟨rfl, rfl, response, rfl, rfl, hsent⟩)

/-- Whoever has one request does not shut before it is sent. -/
theorem Valid.progress (h : c.Valid requests responses turn answers)
    (hpeer : c.peer ≠ .other) :
    ∃ request, c.Progress requests request turn answers ∧ (c.shut = true → c.unsent = []) := by
  have hdone := h.peerDone
  unfold PeerDone at hdone
  split at hdone
  · exact ⟨_, hdone.1, fun hshut => absurd (hdone.2.1.symm.trans hshut) Bool.false_ne_true⟩
  · obtain ⟨hprogress, -, -, response, -, hanswers⟩ := hdone
    refine ⟨_, hprogress, fun _ => ?_⟩
    cases hprogress with
    | unread => exact absurd hanswers.symm (List.cons_ne_nil _ _)
    | handling _ hsent | handled _ _ hsent => exact hsent
  · exact ⟨_, hdone.1, hdone.2.2⟩
  · next hother => exact absurd hother hpeer

/-- When there is nothing to read, it is for the peer to shut its end, unless it waits for a
response that does not come. -/
theorem Valid.proceed_of_blocked (h : c.Valid requests responses (.now none) answers)
    (hread : c.read requests = .blocked) (hsent : c.unsent = [])
    (hother : c.peer = .other → c.shut = true)
    (hcall : ∀ {request : Req}, c.peer = .caller request none → (request, none) ∉ answers) :
    (c.proceed responses).unsent = c.unsent ∧ (c.proceed responses).toServer = c.toServer ∧
      c.shut = false ∧ (c.proceed responses).shut = true := by
  have hopen : c.shut = false := by
    rw [← Bool.not_eq_true]
    intro hshut
    unfold Connection.read at hread
    rw [hshut] at hread
    cases hline : readLine c.toServer true with
    | blocked => exact readLine_shut_ne_blocked hline
    | endOfFile | invalid | line => rw [hline] at hread; cases hread
  have hdone := h.peerDone
  unfold PeerDone at hdone
  split at hdone
  · next request hpeer =>
    obtain ⟨hprogress, -, -, -, htoPeer⟩ := hdone
    obtain ⟨response, rfl⟩ : ∃ response, answers = [(request, response)] := by
      rcases hprogress.read fun _ => hsent with ⟨-, -, hanswers⟩ | ⟨heq, -⟩ | ⟨heq, -⟩
      · exact hanswers hsent
      · rw [heq] at hread
        cases hread
      · rw [heq] at hread
        cases hread
    cases response with
    | none => exact absurd List.mem_cons_self (hcall hpeer)
    | some response =>
      have hreturn := proceed_of_response hpeer hsent (htoPeer.trans (List.append_nil _))
      rw [hreturn]
      exact ⟨rfl, rfl, hopen, rfl⟩
  · exact absurd (hopen.symm.trans hdone.2.1) Bool.false_ne_true
  · next hpeer =>
    have hdrop : c.proceed responses = c.drop := by
      unfold Connection.proceed
      simp only [hpeer, hsent, List.isEmpty_nil, Bool.not_true, Bool.false_eq_true, if_false]
    rw [hdrop]
    exact ⟨rfl, rfl, hopen, rfl⟩
  · next hpeer => exact absurd (hopen.symm.trans (hother hpeer)) Bool.false_ne_true

/-- A connection that has been read to its end is hung up. -/
theorem Valid.ended_of_read (h : c.Valid requests responses (.now none) answers)
    (hread : c.read requests = .ended) : c.hangUp.Valid requests responses .past answers := by
  refine ⟨⟨fun _ => rfl, fun _ => rfl⟩, fun hturn => absurd hturn Turn.past_ne_coming, ?_⟩
  have hdone := h.peerDone
  by_cases hpeer : c.peer = .other
  · unfold PeerDone at hdone ⊢
    simp only [hangUp, hpeer] at hdone ⊢
    exact hdone
  · have hend : c.shut = true ∧ ∀ {request}, c.Progress requests request (.now none) answers →
        c.hangUp.Progress requests request .past answers := by
      obtain ⟨request, hprogress, hshut⟩ := h.progress hpeer
      rcases hprogress.read hshut with ⟨heq, -⟩ | ⟨-, hshut, response, rfl, htoServer, hunsent⟩ |
        ⟨heq, -⟩
      · rw [heq] at hread
        cases hread
      · refine ⟨hshut, fun {request'} hprogress' => ?_⟩
        cases hprogress' with
        | handled _ htoServer hunsent => exact .handled trivial htoServer hunsent
      · rw [heq] at hread
        cases hread
    unfold PeerDone at hdone ⊢
    simp only [hangUp]
    split at hdone
    · exact absurd (hdone.2.1.symm.trans hend.1) Bool.false_ne_true
    · exact ⟨hend.2 hdone.1, hdone.2⟩
    · exact ⟨hend.2 hdone.1, hdone.2⟩
    · exact hdone

/-- The request of a caller or a notifier is read as it was written. -/
theorem Valid.took (h : c.Valid requests responses (.now none) answers)
    {c' : Connection Req Resp} {request : Option Req}
    (hread : c.read requests = .took c' request) :
    c'.Valid requests responses (.now request) answers := by
  obtain ⟨rest, -, rfl⟩ := exists_of_took hread
  refine ⟨⟨fun hended => absurd (h.ended.mp hended) Turn.now_ne_past,
    fun hturn => absurd hturn Turn.now_ne_past⟩, fun hturn => absurd hturn Turn.now_ne_coming, ?_⟩
  have hdone := h.peerDone
  by_cases hpeer : c.peer = .other
  · unfold PeerDone at hdone ⊢
    simp only [hpeer] at hdone ⊢
    exact hdone
  · have htook : ∀ {request'}, c.Progress requests request' (.now none) answers →
        (c.shut = true → c.unsent = []) →
        Progress requests { c with toServer := rest } request' (.now request) answers ∧
          answers = [] := by
      intro request' hprogress hshut
      rcases hprogress.read hshut with ⟨heq, -⟩ | ⟨heq, -⟩ | ⟨heq, hunsent, rfl⟩
      · rw [heq] at hread
        cases hread
      · rw [heq] at hread
        cases hread
      · obtain ⟨hrest, rfl⟩ := ServerRead.took.inj (heq.symm.trans hread)
        obtain rfl : [] = rest := (Connection.mk.inj hrest).2.2.1
        exact ⟨.handling rfl hunsent, rfl⟩
    obtain ⟨request', hprogress', hshut⟩ := h.progress hpeer
    unfold PeerDone at hdone ⊢
    simp only
    split at hdone
    · exact ⟨(htook hdone.1 hshut).1, hdone.2⟩
    · obtain ⟨hprogress, -, -, response, -, hanswers⟩ := hdone
      rw [(htook hprogress hshut).2] at hanswers
      exact absurd hanswers.symm (List.cons_ne_nil _ _)
    · exact ⟨(htook hdone.1 hshut).1, hdone.2⟩
    · exact hdone

/-- While the request of a call is handled, the call waits. -/
theorem Valid.result_eq_none {handling : Req} {result : Option (Option Resp)}
    (h : c.Valid requests responses (.now (some handling)) answers)
    (hpeer : c.peer = .caller request result) : result = none := by
  cases result with
  | none => rfl
  | some result =>
    have hdone := h.peerDone
    unfold PeerDone at hdone
    rw [hpeer] at hdone
    obtain ⟨hprogress, -, -, response, -, hanswers⟩ := hdone
    subst hanswers
    cases hprogress with
    | handled hturn => exact hturn.elim

/-- The turn of a connection after the server has acted. -/
def turnAfter (c : Connection Req Resp) (handling : Option Req) : Turn Req :=
  if c.ended then .past else .now handling

theorem turnAfter_cases (c : Connection Req Resp) (handling : Option Req) :
    c.ended = true ∧ c.turnAfter handling = .past ∨
      c.ended = false ∧ c.turnAfter handling = .now handling := by
  unfold turnAfter
  cases c.ended with
  | true => exact .inl ⟨rfl, rfl⟩
  | false => exact .inr ⟨rfl, rfl⟩

/-- The response to a request is on its way. -/
theorem Valid.reply (h : c.Valid requests responses (.now (some request)) answers)
    (response : Option Resp) :
    (c.reply responses response).Valid requests responses
      ((c.reply responses response).turnAfter none) (answers ++ [(request, response)]) := by
  have hopen : c.ended = false :=
    Bool.eq_false_iff.mpr fun hended => absurd (h.ended.mp hended) Turn.now_ne_past
  have hdone := h.peerDone
  obtain ⟨c', hc'⟩ : ∃ c', c' = c.reply responses response := ⟨_, rfl⟩
  have hsame : c'.peer = c.peer ∧ c'.toServer = c.toServer ∧ c'.unsent = c.unsent ∧
      c'.shut = c.shut ∧ c'.dropped = c.dropped := by
    obtain ⟨toPeer, ended, heq⟩ := c.exists_of_reply responses response
    rw [hc', heq]
    exact ⟨rfl, rfl, rfl, rfl, rfl⟩
  obtain ⟨hpeer, htoServer, hunsent, hshut, hdropped⟩ := hsame
  rw [← hc']
  have hhandled : (c'.turnAfter none).Handled := by
    rcases c'.turnAfter_cases none with ⟨-, hturn⟩ | ⟨-, hturn⟩ <;> rw [hturn] <;> trivial
  have hprogress : ∀ {request'}, c.Progress requests request' (.now (some request)) answers →
      c'.Progress requests request' (c'.turnAfter none) (answers ++ [(request, response)]) ∧
        answers = [] := by
    intro request' hprogress
    cases hprogress with
    | handling hread hsent =>
      exact ⟨.handled hhandled (htoServer.trans hread) (hunsent.trans hsent), rfl⟩
    | unread hturn _ | handled hturn _ _ => exact hturn.elim
  refine ⟨?_, ?_, ?_⟩
  · rcases c'.turnAfter_cases none with ⟨hended, hturn⟩ | ⟨hended, hturn⟩
    · exact iff_of_true hended hturn
    · exact iff_of_false (ne_true_of_eq_false hended) (hturn ▸ Turn.now_ne_past)
  · rcases c'.turnAfter_cases none with ⟨-, hturn⟩ | ⟨-, hturn⟩
    · exact fun hcoming => absurd (hturn.symm.trans hcoming) Turn.past_ne_coming
    · exact fun hcoming => absurd (hturn.symm.trans hcoming) Turn.now_ne_coming
  · unfold PeerDone at hdone ⊢
    rw [hpeer]
    split at hdone
    · obtain ⟨hprog, hshut', hdropped', hended, htoPeer⟩ := hdone
      obtain ⟨hprog', rfl⟩ := hprogress hprog
      refine ⟨hprog', hshut.trans hshut', hdropped.trans hdropped', ?_⟩
      rw [hc']
      unfold Connection.reply
      cases response with
      | none => exact ⟨hended, htoPeer⟩
      | some response =>
        simp only [hdropped', Bool.false_eq_true, if_false]
        refine ⟨hended, ?_⟩
        rw [htoPeer]
        exact (List.append_nil _).symm
    · obtain ⟨hprog, -, -, answer, -, hanswers⟩ := hdone
      rw [(hprogress hprog).2] at hanswers
      exact absurd hanswers.symm (List.cons_ne_nil _ _)
    · exact ⟨(hprogress hdone.1).1, hdropped.trans (hdone.2.1.trans hshut.symm),
        fun h => hunsent.trans (hdone.2.2 (hshut ▸ h))⟩
    · exact hunsent.trans hdone

end Connection

end WayRay
