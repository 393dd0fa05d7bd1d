import WayRay.Session.Crash
import WayRay.Headless.Connect

/-!
# Hot-desk resume

A client that brings the token of an `Active` or `Suspended` session is bound to that session and
never redirected: `resume_bound`, for every compositor state that a run of the main loop reaches
from an empty registry or from a database that the server wrote itself.

* `Serving` is the invariant of the registry between two events: it agrees with its store, now and
  after a crash, and no session is left half created.  Under it a token leads to the one live
  session that carries it, if there is one (`Serving.isResumable`).
* `serving_applyEvent` is the step lemma, `serving_runLoop` the run lemma.
* `ServerDb` are the databases a server leaves behind: any prefix of the writes of any run, started
  on such a database itself.
-/

namespace WayRay

open SessionRegistry

namespace SessionRegistry

/-- The registry between two events of the main loop. -/
structure Serving (r : SessionRegistry) : Prop extends CrashSafe r where
  settled : ∀ {i s}, r.sessions.get i = some s → s.state ≠ .creating

variable {clk : Clock} {r r' : SessionRegistry}

/-- Apart from creating a session, every move keeps the invariant. -/
theorem serving_move (h : Serving r) (hm : Move (fun _ _ => False) clk r r') : Serving r' := by
  have hsafe := crashSafe_move h.toCrashSafe (hm.mono fun _ _ hG => hG.elim)
  have hinsert : ∀ {id : SessionId} {s : Session}, s.state ≠ .creating →
      ∀ {i s'}, (r.sessions.insert id s).get i = some s' → s'.state ≠ .creating := by
    intro id s hs i s' hs'
    exact HashMap.of_get_insert (P := fun _ s => s.state ≠ .creating) hs' hs h.settled
  refine { hsafe with settled := ?_ }
  cases hm with
  | create hG => exact hG.elim
  | @advance id s next hs hc hn =>
    refine hinsert ?_
    rintro rfl
    cases hst : s.state <;> simp [hst, SessionState.canTransitionTo] at hc
  | destroy hs hd => exact hinsert (by simp)
  | update hs hf => exact hinsert (by rw [hf.state_eq]; exact h.settled hs)
  | remote _ | flush _ | drop _ _ _ => exact h.settled
  | purge => exact fun hs => h.settled (HashMap.get_retain_eq_some.mp hs).1
  | restore _ _ _ => exact hinsert (by simp)

theorem serving_step (h : Serving r) (clk : Clock) (op : RegistryOp)
    (hop : ∀ token, op ≠ .createSession token) : Serving (r.step clk op).2 :=
  moves_invariant serving_move h (step_moves r op hop)

/-! ### Lookups -/

/-- The live session that carries a token is the one its token leads to. -/
theorem Mirrored.findByToken (h : Mirrored r) {i : SessionId} {s : Session}
    (hs : r.sessions.get i = some s) (hst : s.state ≠ .destroyed) :
    r.findByToken s.token = some s := by
  rw [SessionRegistry.findByToken, h.resolves hs hst, Option.bind_some, hs]

/-- A resumable session is found by its token. -/
theorem Mirrored.isResumable (h : Mirrored r) {i : SessionId} {s : Session}
    (hs : r.sessions.get i = some s) (hlive : s.state.resumable = true) :
    r.isResumable s.token = some i := by
  rw [SessionRegistry.isResumable,
    h.findByToken hs (SessionState.ne_destroyed_of_resumable hlive), Option.bind_some]
  have hid := h.own_id hs
  rcases SessionState.resumable_iff.mp hlive with hst | hst
  · simp only [hst, hid]
  · simp only [hst, hid]

/-- A token under which nothing can be resumed is free for a new session. -/
theorem Serving.vacant (h : Serving r) {token : SessionToken} (hnone : r.isResumable token = none) :
    r.Vacant token := by
  rintro i s hs hst rfl
  have hlive : s.state.resumable = true := by
    have hcr := h.settled hs
    cases hstate : s.state <;> simp_all [SessionState.resumable]
  rw [h.toMirrored.isResumable hs hlive] at hnone
  exact absurd hnone (by simp)

/-! ### A new session -/

/-- The sessions once a new session is created and activated. -/
theorem sessions_activate_createSession (createdAt activatedAt : Clock) (token : SessionToken)
    (i : SessionId) :
    ((r.createSession createdAt token).2.activate activatedAt ⟨r.nextId⟩).2.sessions.get i =
      if i = ⟨r.nextId⟩ then
        some ((Session.new ⟨r.nextId⟩ token r.localServerId createdAt.now).moved activatedAt.now
          .active)
      else r.sessions.get i := by
  have hnew : (r.createSession createdAt token).2.sessions.get ⟨r.nextId⟩ =
      some (Session.new ⟨r.nextId⟩ token r.localServerId createdAt.now) :=
    HashMap.get_insert_self _ _ _
  rw [activate, transition_of_can hnew rfl, if_neg (by decide)]
  simp only [createSession, HashMap.get_insert]
  split_ifs <;> rfl

theorem serving_activate_createSession (h : Serving r) {token : SessionToken}
    (hvacant : r.Vacant token) (createdAt activatedAt : Clock) :
    Serving ((r.createSession createdAt token).2.activate activatedAt ⟨r.nextId⟩).2 := by
  have hcreated : CrashSafe (r.createSession createdAt token).2 :=
    crashSafe_move h.toCrashSafe (Move.create hvacant : Move Vacant createdAt r _)
  have hactive := crashSafe_step hcreated activatedAt (.activate ⟨r.nextId⟩)
    fun _ ho => absurd ho (by simp)
  refine { hactive with settled := ?_ }
  intro i s hs
  have hs : ((r.createSession createdAt token).2.activate activatedAt
      ⟨r.nextId⟩).2.sessions.get i = some s := hs
  rw [sessions_activate_createSession] at hs
  split_ifs at hs with hi
  · rw [← Option.some.inj hs, Session.moved_state]
    decide
  · exact h.settled hs

end SessionRegistry

namespace CalloopData

variable {S : Type} {d : CalloopData S} {env : Surroundings}

/-! ### The event handlers -/

theorem serving_findHome (h : Serving d.sessionRegistry) (env : Surroundings)
    (token : SessionToken) :
    Serving (d.findHome env token).2.sessionRegistry := by
  obtain ⟨notes, hnotes⟩ := d.findHome_notes env token
  rw [hnotes]
  exact serving_move h (Move.remote notes : Move _ env.notedAt _ _)

theorem serving_resumeSession (h : Serving d.sessionRegistry) (id : SessionId) :
    Serving (d.resumeSession env id).sessionRegistry := by
  unfold resumeSession
  cases ((d.sessionRegistry.get id).map (·.state)).getD .destroyed with
  | suspended => exact serving_step h env.activatedAt (.activate id) fun _ => by simp
  | creating | active | destroyed => exact h

theorem serving_connectClient (h : Serving d.sessionRegistry) (hello : ClientHello)
    (remoteAddr : String) : Serving (d.connectClient env hello remoteAddr).2.sessionRegistry := by
  have h := serving_findHome h env ⟨hello.token.getD env.randomToken⟩
  simp only [connectClient]
  generalize d.findHome env ⟨hello.token.getD env.randomToken⟩ = home at h ⊢
  obtain ⟨location, d⟩ := home
  cases d.redirectTarget location with
  | some target => exact h
  | none =>
    cases hres : d.sessionRegistry.isResumable ⟨hello.token.getD env.randomToken⟩ with
    | some id => exact serving_resumeSession h id
    | none =>
      cases d.pickPeerForNewSession env with
      | some target => exact h
      | none =>
        exact serving_activate_createSession h (h.vacant hres) env.createdAt env.activatedAt

theorem serving_disconnectClient (desktop : Desktop S) (h : Serving d.sessionRegistry) :
    Serving (disconnectClient desktop d env).sessionRegistry := by
  simp only [disconnectClient, publishClusterState]
  cases d.activeSession with
  | none => exact h
  | some id => exact serving_step h env.suspendedAt (.suspend id) fun _ => by simp

theorem serving_cleanupTick (h : Serving d.sessionRegistry) (cleanedAt prunedAt : Clock) :
    Serving (d.cleanupTick cleanedAt prunedAt).sessionRegistry := by
  have hcleaned : Serving (d.sessionRegistry.cleanupExpired cleanedAt).2 :=
    serving_step h cleanedAt .cleanupExpired fun _ => by simp
  simp only [cleanupTick]
  refine serving_step ?_ prunedAt .pruneRemoteSessions fun _ => by simp
  split_ifs
  · exact hcleaned
  · exact serving_step hcleaned cleanedAt .purgeDestroyed fun _ => by simp

/-- **Step lemma**: every event of the main loop keeps the invariant. -/
theorem serving_applyEvent (desktop : Desktop S) (h : Serving d.sessionRegistry)
    (event : LoopEvent S) : Serving (applyEvent desktop d event).sessionRegistry := by
  cases event with
  | netClosed | turn _ _ => exact h
  | cleanup cleanedAt prunedAt => exact serving_cleanupTick h cleanedAt prunedAt
  | net env event =>
    cases event with
    | input _ => exact h
    | clientConnected hello remoteAddr => exact serving_connectClient h hello remoteAddr
    | clientDisconnected => exact serving_disconnectClient desktop h
    | control msg => cases msg <;> exact h

/-- **Run lemma**: the invariant holds throughout a run. -/
theorem serving_runLoop (desktop : Desktop S) (h : Serving d.sessionRegistry)
    (events : List (LoopEvent S)) : Serving (runLoop desktop d events).sessionRegistry :=
  List.foldlRecOn (motive := fun d : CalloopData S => Serving d.sessionRegistry) events _ h
    fun _ hd event _ => serving_applyEvent desktop hd event

/-! ### Databases -/

/-- The databases a server leaves behind: an empty one, or what a crash at any moment of a run makes
of such a database. -/
inductive ServerDb (desktop : Desktop S) : SessionTable → Prop
  | empty : ServerDb desktop ∅
  | crash {db : SessionTable} (hdb : ServerDb desktop db) (state : S) (frame : FrameState)
      (cluster : ClusterConfig) (peerRt launcherLinked : Bool) (clk : Clock)
      (find : Enumeration (SessionId × SessionRecord)) (events : List (LoopEvent S))
      {store : SqliteStore}
      (hstore : (runLoop desktop (boot state frame cluster peerRt launcherLinked (some db) clk find)
        events).sessionRegistry.store = .sqlite store) (k : ℕ) :
      ServerDb desktop (store.crashAfter k)

/-- A compositor that enters its main loop on a good database, or on none, is serving. -/
theorem serving_boot (state : S) (frame : FrameState) (cluster : ClusterConfig)
    (peerRt launcherLinked : Bool) {stateDb : Option SessionTable} (clk : Clock)
    (find : Enumeration (SessionId × SessionRecord))
    (hdb : ∀ db, stateDb = some db → (SessionStore.sqlite (.openFile db)).LiveTokensDistinct) :
    Serving (boot state frame cluster peerRt launcherLinked stateDb clk find).sessionRegistry := by
  cases stateDb with
  | none =>
    refine { crashSafe_withCluster cluster.localId defaultCapacity with settled := ?_ }
    exact fun hs => by simp [boot, withCluster, new] at hs
  | some db =>
    refine { crashSafe_boot cluster.localId defaultCapacity (hdb db rfl) clk find with
      settled := ?_ }
    intro i s hs
    have hempty : ((withCluster cluster.localId defaultCapacity).withStore
        (.sqlite (.openFile db))).sessions.get i = none := HashMap.get_empty i
    simp only [boot] at hs
    rw [sessions_restorePersisted, hempty, Option.or_none] at hs
    obtain ⟨p, -, rfl⟩ := Option.map_eq_some_iff.mp hs
    simp

/-- The live rows of a database that a server left behind carry different tokens. -/
theorem ServerDb.liveTokensDistinct {desktop : Desktop S} {db : SessionTable}
    (h : ServerDb desktop db) : (SessionStore.sqlite (.openFile db)).LiveTokensDistinct := by
  induction h with
  | empty =>
    intro i j p q hp
    exact absurd hp (by simp [SessionStore.liveRow, SessionStore.load])
  | crash _ state frame cluster peerRt launcherLinked clk find events hstore k ih =>
    have hrun := serving_runLoop desktop
      (serving_boot state frame cluster peerRt launcherLinked clk find
        fun _ hdb => Option.some.inj hdb ▸ ih) events
    have hprefixes := hrun.prefixes
    rw [hstore] at hprefixes
    exact hprefixes k

/-! ### The returning client -/

/-- A client that brings the token of a resumable session is bound to it: the index answers before
any remote note or peer is asked. -/
theorem connectClient_of_resumable (h : Serving d.sessionRegistry) (env : Surroundings)
    {i : SessionId} {s : Session}
    (hs : d.sessionRegistry.sessions.get i = some s) (hlive : s.state.resumable = true)
    {hello : ClientHello} (htok : hello.token = some s.token.str) (remoteAddr : String) :
    d.connectClient env hello remoteAddr =
      (d.resumeSession env i).bindClient i true s.token remoteAddr := by
  have htoken : (⟨hello.token.getD env.randomToken⟩ : SessionToken) = s.token := by
    rw [htok, Option.getD_some]
  -- `locate` answers from the index, so that no peer is asked and no note consulted
  have hlocal : d.findHome env s.token = (.localTo i, d) := by
    have hindex := h.resolves hs (SessionState.ne_destroyed_of_resumable hlive)
    rw [findHome, locate, hindex]
  have hres : d.sessionRegistry.isResumable s.token = some i := h.toMirrored.isResumable hs hlive
  simp only [connectClient, htoken, hlocal, redirectTarget, hres]

/-- Resuming a session activates it and touches no other. -/
theorem sessions_resumeSession (env : Surroundings) {i : SessionId} {s : Session}
    (hs : d.sessionRegistry.sessions.get i = some s) (hlive : s.state.resumable = true)
    (j : SessionId) :
    (d.resumeSession env i).sessionRegistry.sessions.get j =
      if j = i then some (if s.state = .suspended then s.moved env.activatedAt.now .active else s)
      else d.sessionRegistry.sessions.get j := by
  unfold resumeSession SessionRegistry.get
  rw [hs, Option.map_some, Option.getD_some]
  rcases SessionState.resumable_iff.mp hlive with hst | hst
  · -- a takeover leaves the session as it is
    simp only [hst, reduceCtorEq, if_false]
    split_ifs with hj
    · rw [hj, hs]
    · rfl
  · have hcan : s.state.canTransitionTo .active = true := by rw [hst]; rfl
    simp only [hst, if_true]
    rw [activate, transition_of_can hs hcan, if_neg (by decide), HashMap.get_insert]

theorem nextId_resumeSession (i : SessionId) :
    (d.resumeSession env i).sessionRegistry.nextId = d.sessionRegistry.nextId := by
  unfold resumeSession
  cases ((d.sessionRegistry.get i).map (·.state)).getD .destroyed with
  | creating | active | destroyed => rfl
  | suspended => exact nextId_transition _ _ _ _

/-- **Hot-desk resume.**  Whatever a run of the main loop contains, from an empty registry or a
database the server wrote itself: a client that brings the token of an `Active` or `Suspended`
session is bound to that session as resumed, the session is active afterwards with its identity
unchanged, and no other session is created or touched. -/
theorem resume_bound (desktop : Desktop S) (state : S) (frame : FrameState)
    (cluster : ClusterConfig) (peerRt launcherLinked : Bool) (stateDb : Option SessionTable)
    (hdb : ∀ db, stateDb = some db → ServerDb desktop db) (clk : Clock)
    (find : Enumeration (SessionId × SessionRecord)) (events : List (LoopEvent S))
    (env : Surroundings) (hello : ClientHello) (remoteAddr : String) (token : SessionToken)
    (htok : hello.token = some token.str) :
    let d :=
      runLoop desktop (boot state frame cluster peerRt launcherLinked stateDb clk find) events
    ∀ i s, d.sessionRegistry.sessions.get i = some s → s.token = token →
      s.state.resumable = true →
      let (reply, d') := drainEvent desktop d env (.clientConnected hello remoteAddr)
      reply = some (.bind ⟨i.raw, true, token.str⟩) ∧
      (∃ s', d'.sessionRegistry.sessions.get i = some s' ∧ s'.state = .active ∧ s'.id = s.id ∧
        s'.token = s.token ∧ s'.user = s.user ∧ s'.homeServer = s.homeServer ∧
        s'.suspendTimeout = s.suspendTimeout) ∧
      (∀ j, j ≠ i → d'.sessionRegistry.sessions.get j = d.sessionRegistry.sessions.get j) ∧
      d'.sessionRegistry.nextId = d.sessionRegistry.nextId := by
  intro d i s hs hst hlive
  subst hst
  have hserving : Serving d.sessionRegistry :=
    serving_runLoop desktop (serving_boot state frame cluster peerRt launcherLinked clk find
      fun db heq => (hdb db heq).liveTokensDistinct) events
  have hconnect := connectClient_of_resumable hserving env hs hlive htok remoteAddr
  have hsessions := sessions_resumeSession env hs hlive
  simp only [drainEvent, hconnect, Prod.map_fst, Prod.map_snd, bindClient, publishClusterState, id]
  refine ⟨trivial, ?_, fun j hj => ?_, nextId_resumeSession i⟩
  · refine ⟨_, (hsessions i).trans (if_pos rfl), ?_⟩
    rcases SessionState.resumable_iff.mp hlive with hst | hst
    · rw [if_neg (by rw [hst]; decide)]
      exact ⟨hst, rfl, rfl, rfl, rfl, rfl⟩
    · rw [if_pos hst]
      exact ⟨rfl, rfl, rfl, rfl, rfl, rfl⟩
  · exact (hsessions j).trans (if_neg hj)

section Witness

/-- A client of token `"t"` that came and left. -/
def cameAndLeft : List (LoopEvent Unit) :=
  [.net quiet (.clientConnected ⟨2, [], some "t"⟩ "c"), .net quiet .clientDisconnected]

/-- The session it left behind. -/
def leftBehind : Session :=
  { Session.new ⟨1⟩ ⟨"t"⟩ "" 0 with state := .suspended, suspendedAt := some 0 }

/-- The client comes back to its session. -/
theorem resume_bound_cameAndLeft :
    let d := runLoop nullDesktop
      (boot () ⟨[], 0, false, 0⟩ ⟨"", "", []⟩ false false (some ∅) ⟨0, 0⟩ .stored) cameAndLeft
    (drainEvent nullDesktop d quiet (.clientConnected ⟨2, [], some "t"⟩ "c")).1 =
      some (.bind ⟨1, true, "t"⟩) :=
  (resume_bound nullDesktop () ⟨[], 0, false, 0⟩ ⟨"", "", []⟩ false false (some ∅)
    (fun _ hdb => Option.some.inj hdb ▸ ServerDb.empty) ⟨0, 0⟩ .stored cameAndLeft quiet
    ⟨2, [], some "t"⟩ "c" ⟨"t"⟩ rfl ⟨1⟩ leftBehind (by decide) rfl rfl).1

end Witness

end CalloopData

end WayRay
