import WayRay.Session.Frame
import WayRay.Headless.Connect
import WayRay.Headless.Resume
import WayRay.Network.EventLanguage

/-!
# The compositor's binding

The compositor keeps the session it is bound to in three fields, which the registry knows nothing
of.  As long as the network thread speaks the event language, they agree with the registry: the
active session is the one `Active` session there is (`binding_agrees`).

`Bound` is the invariant, with the state of the automaton of the language as a parameter;
`bound_applyEvent` is the step lemma.
-/

namespace WayRay

open SessionRegistry EventLanguage

namespace SessionRegistry

variable {r : SessionRegistry} {clk : Clock} {i : SessionId}

/-- The session is in memory, and active. -/
def ActiveIn (r : SessionRegistry) (i : SessionId) : Prop :=
  ∃ s, r.sessions.get i = some s ∧ s.state = .active

/-- What can be resumed is found under its id. -/
theorem OwnIds.of_isResumable (h : OwnIds r) {token : SessionToken}
    (hres : r.isResumable token = some i) :
    ∃ s, r.sessions.get i = some s ∧ s.state.resumable = true := by
  obtain ⟨s, hfind, hid⟩ := Option.bind_eq_some_iff.mp hres
  obtain ⟨j, -, hs⟩ := Option.bind_eq_some_iff.mp hfind
  have hj : s.id = j := h hs
  cases hstate : s.state with
  | creating | destroyed =>
    rw [hstate] at hid
    exact absurd hid (by simp)
  | active | suspended =>
    rw [hstate] at hid
    obtain rfl := Option.some.inj hid
    exact ⟨s, hj ▸ hs, by rw [hstate]; rfl⟩

/-- A session is suspended if it is active, and nothing happens otherwise. -/
theorem suspend_cases (r : SessionRegistry) (clk : Clock) (i : SessionId) :
    (∃ s, r.sessions.get i = some s ∧ s.state = .active ∧
      (r.suspend clk i).2.sessions = r.sessions.insert i (s.moved clk.now .suspended)) ∨
        ¬ r.ActiveIn i ∧ (r.suspend clk i).2 = r := by
  by_cases hactive : r.ActiveIn i
  · obtain ⟨s, hs, hst⟩ := hactive
    have hcan : s.state.canTransitionTo .suspended = true := by rw [hst]; rfl
    refine .inl ⟨s, hs, hst, ?_⟩
    rw [suspend, transition_of_can hs hcan, if_neg (by decide)]
  · refine .inr ⟨hactive, ?_⟩
    cases hs : r.sessions.get i with
    | none => simp [suspend, transition, hs]
    | some s =>
      have hcan : s.state.canTransitionTo .suspended = false := by
        cases hst : s.state with
        | active => exact absurd ⟨s, hs, hst⟩ hactive
        | creating | suspended | destroyed => rfl
      simp [suspend, transition, hs, Session.transition_error hcan]

/-- Suspending a session takes it from the active ones. -/
theorem activeIn_suspend (j : SessionId) :
    (r.suspend clk i).2.ActiveIn j ↔ j ≠ i ∧ r.ActiveIn j := by
  rcases suspend_cases r clk i with ⟨s, hs, hst, hsessions⟩ | ⟨hactive, hsame⟩
  · simp only [ActiveIn, hsessions, HashMap.get_insert]
    by_cases hj : j = i
    · simp [hj]
    · simp [hj]
  · rw [hsame]
    exact ⟨fun hj => ⟨fun heq => hactive (heq ▸ hj), hj⟩, And.right⟩

/-- An active session does not expire. -/
theorem ActiveIn.not_mem_expiredIds (hactive : r.ActiveIn i) (h : OwnIds r) :
    i ∉ r.expiredIds clk := by
  obtain ⟨s, hs, hst⟩ := hactive
  intro hmem
  obtain ⟨s', hs', hst', -⟩ := h.mem_expiredIds.mp hmem
  obtain rfl := Option.some.inj (hs.symm.trans hs')
  exact absurd (hst.symm.trans hst') (by decide)

/-- The cleanup keeps an active session as it is. -/
theorem ActiveIn.get_cleanupExpired (hactive : r.ActiveIn i) (h : OwnIds r) (clk : Clock) :
    (r.cleanupExpired clk).2.sessions.get i = r.sessions.get i := by
  rw [cleanupExpired, sessions_destroyAll, if_neg (hactive.not_mem_expiredIds h)]

theorem ActiveIn.get_purgeDestroyed (hactive : r.ActiveIn i) :
    r.purgeDestroyed.sessions.get i = r.sessions.get i := by
  obtain ⟨s, hs, hst⟩ := hactive
  rw [hs]
  exact HashMap.get_retain_eq_some.mpr ⟨hs, by simp [hst]⟩

theorem activeIn_cleanupExpired (h : OwnIds r) (clk : Clock) (i : SessionId) :
    (r.cleanupExpired clk).2.ActiveIn i ↔ r.ActiveIn i := by
  constructor
  · rintro ⟨s, hs, hst⟩
    rw [cleanupExpired, sessions_destroyAll] at hs
    split_ifs at hs
    · obtain ⟨s', -, rfl⟩ := Option.map_eq_some_iff.mp hs
      rw [ended_state] at hst
      exact absurd hst (by decide)
    · exact ⟨s, hs, hst⟩
  · intro hactive
    obtain ⟨s, hs, hst⟩ := id hactive
    exact ⟨s, (hactive.get_cleanupExpired h clk).trans hs, hst⟩

theorem activeIn_purgeDestroyed : r.purgeDestroyed.ActiveIn i ↔ r.ActiveIn i := by
  constructor
  · rintro ⟨s, hs, hst⟩
    exact ⟨s, (HashMap.get_retain_eq_some.mp hs).1, hst⟩
  · intro hactive
    obtain ⟨s, hs, hst⟩ := id hactive
    exact ⟨s, hactive.get_purgeDestroyed.trans hs, hst⟩

end SessionRegistry

namespace CalloopData

variable {S : Type} {d : CalloopData S} {env : Surroundings} {begun : Bool}

/-- The binding of the compositor agrees with its registry. -/
structure Bound (begun : Bool) (d : CalloopData S) : Prop where
  own_ids : OwnIds d.sessionRegistry
  active_iff : ∀ i, d.sessionRegistry.ActiveIn i ↔ d.activeSession = some i
  addr : d.connectedClientAddr.isSome = d.activeSession.isSome
  connected : d.clientConnected = true → d.activeSession.isSome = true
  /-- Between two connections nothing is bound. -/
  idle : begun = false → d.activeSession = none

theorem Bound.weaken (h : Bound begun d) : Bound true d :=
  ⟨h.own_ids, h.active_iff, h.addr, h.connected, fun hb => absurd hb (by decide)⟩

/-! ### A client connects -/

theorem activeIn_resumeSession (env : Surroundings) {i : SessionId} {s : Session}
    (hs : d.sessionRegistry.sessions.get i = some s) (hlive : s.state.resumable = true)
    (j : SessionId) :
    (d.resumeSession env i).sessionRegistry.ActiveIn j ↔ j = i ∨ d.sessionRegistry.ActiveIn j := by
  rw [ActiveIn, sessions_resumeSession env hs hlive]
  by_cases hj : j = i
  · simp only [hj, if_true, true_or, iff_true]
    refine ⟨_, rfl, ?_⟩
    rcases SessionState.resumable_iff.mp hlive with hst | hst <;> simp [hst]
  · simp only [hj, if_false, false_or]
    rfl

theorem activeIn_startSession (token : SessionToken) (j : SessionId) :
    (d.startSession env token).2.sessionRegistry.ActiveIn j ↔
      j = ⟨d.sessionRegistry.nextId⟩ ∨ d.sessionRegistry.ActiveIn j := by
  have hget := sessions_activate_createSession (r := d.sessionRegistry) env.createdAt
    env.activatedAt token j
  have hsame : (d.startSession env token).2.sessionRegistry.sessions.get j = _ := hget
  rw [ActiveIn, hsame]
  by_cases hj : j = ⟨d.sessionRegistry.nextId⟩
  · simp [hj]
  · simp only [hj, if_false, false_or]
    rfl

/-- Once a client is bound, its session is the active one. -/
theorem Bound.bind (hown : OwnIds d.sessionRegistry) {i : SessionId}
    (hactive : ∀ j, d.sessionRegistry.ActiveIn j ↔ j = i) (resumed : Bool) (token : SessionToken)
    (remoteAddr : String) : Bound true (d.bindClient i resumed token remoteAddr).2 where
  own_ids := hown
  active_iff j := by
    refine (hactive j).trans ?_
    simp [bindClient, publishClusterState, eq_comm]
  addr := rfl
  connected _ := rfl
  idle h := absurd h (by decide)

theorem bound_connectClient (desktop : Desktop S) (h : Bound false d) (hello : ClientHello)
    (remoteAddr : String) : Bound true (d.connectClient env hello remoteAddr).2 := by
  have hown : OwnIds (d.connectClient env hello remoteAddr).2.sessionRegistry :=
    ownIds_applyEvent desktop h.own_ids (.net env (.clientConnected hello remoteAddr))
  have hnone : ∀ j, ¬ d.sessionRegistry.ActiveIn j := by
    intro j hj
    have hact := (h.active_iff j).mp hj
    rw [h.idle rfl] at hact
    exact absurd hact (by simp)
  obtain ⟨notes, hnotes⟩ := d.findHome_notes env ⟨hello.token.getD env.randomToken⟩
  have hredirect : Bound true (d.withNotes notes) :=
    Bound.weaken ⟨h.own_ids, h.active_iff, h.addr, h.connected, h.idle⟩
  have hconnects := d.connectClient_connects env hello remoteAddr
  generalize d.connectClient env hello remoteAddr = answer at hconnects hown ⊢
  cases hconnects with
  | home _ _ | shed _ _ _ => exact hnotes ▸ hredirect
  | @resumed i _ hres =>
    rw [hnotes] at hown ⊢
    obtain ⟨s, hs, hlive⟩ := h.own_ids.of_isResumable hres
    refine Bound.bind (d := (d.withNotes notes).resumeSession env i) hown (fun j => ?_) true _ _
    have hresume := activeIn_resumeSession (d := d.withNotes notes) env hs hlive j
    exact hresume.trans (or_iff_left (hnone j))
  | created _ hres =>
    rw [hnotes] at hown ⊢
    refine Bound.bind (d := ((d.withNotes notes).startSession env _).2) hown (fun j => ?_) false _ _
    exact (activeIn_startSession (d := d.withNotes notes) _ j).trans (or_iff_left (hnone j))

/-! ### What a client is told -/

/-- A client that is bound is told the token it brought or was given; it is that of the active
session. -/
theorem connectClient_bind (h : Consistent d.sessionRegistry) {hello : ClientHello}
    {remoteAddr : String} {binding : SessionBinding}
    (hbind : (d.connectClient env hello remoteAddr).1 = .bind binding) :
    binding.token = hello.token.getD env.randomToken ∧
      ∃ i s, (d.connectClient env hello remoteAddr).2.activeSession = some i ∧
        (d.connectClient env hello remoteAddr).2.sessionRegistry.sessions.get i = some s ∧
        s.token.str = binding.token := by
  obtain ⟨notes, hnotes⟩ := d.findHome_notes env ⟨hello.token.getD env.randomToken⟩
  have hconnects := d.connectClient_connects env hello remoteAddr
  generalize d.connectClient env hello remoteAddr = answer at hconnects hbind ⊢
  cases hconnects with
  | home _ _ | shed _ _ _ => exact absurd hbind (by simp)
  | @resumed i _ hres =>
    rw [hnotes] at hbind ⊢
    obtain rfl := ConnectDecision.bind.inj hbind
    refine ⟨rfl, i, ?_⟩
    obtain ⟨s, hfind, hid⟩ := Option.bind_eq_some_iff.mp hres
    obtain ⟨j, hindex, hs⟩ := Option.bind_eq_some_iff.mp hfind
    obtain ⟨s', hs', hown, htok, -⟩ := h.index hindex
    obtain rfl := Option.some.inj (hs.symm.trans hs')
    have hlive : s.state.resumable = true ∧ s.id = i := by
      cases hst : s.state <;> rw [hst] at hid <;> first
        | exact ⟨rfl, Option.some.inj hid⟩
        | exact absurd hid (by simp)
    obtain rfl : j = i := hown.symm.trans hlive.2
    have hget := sessions_resumeSession (d := d.withNotes notes) env hs hlive.1 j
    refine ⟨_, rfl, hget.trans (if_pos rfl), ?_⟩
    rw [← htok]
    split_ifs <;> rfl
  | created _ _ =>
    rw [hnotes] at hbind ⊢
    obtain rfl := ConnectDecision.bind.inj hbind
    have hget := sessions_activate_createSession (r := (d.withNotes notes).sessionRegistry)
      env.createdAt env.activatedAt ⟨hello.token.getD env.randomToken⟩ ⟨d.sessionRegistry.nextId⟩
    exact ⟨rfl, ⟨d.sessionRegistry.nextId⟩, _, rfl, hget.trans (if_pos rfl), rfl⟩

/-- A client that is sent elsewhere leaves the binding as it is. -/
theorem connectClient_redirect {hello : ClientHello} {remoteAddr serverId addr : String}
    (hredirect : (d.connectClient env hello remoteAddr).1 = .redirect serverId addr) :
    (d.connectClient env hello remoteAddr).2.activeSession = d.activeSession := by
  obtain ⟨notes, hnotes⟩ := connectClient_redirect_notes hredirect
  rw [hnotes]
  rfl

/-! ### The other events -/

theorem bound_disconnectClient (desktop : Desktop S) (h : Bound begun d) :
    Bound false (disconnectClient desktop d env) := by
  have hown : OwnIds (disconnectClient desktop d env).sessionRegistry :=
    ownIds_applyEvent desktop h.own_ids (.net env .clientDisconnected)
  cases hact : d.activeSession with
  | none =>
    simp only [disconnectClient, hact, publishClusterState] at hown ⊢
    refine ⟨hown, fun i => ?_, rfl, fun hc => absurd hc (by simp), fun _ => rfl⟩
    exact (h.active_iff i).trans (by rw [hact])
  | some i =>
    simp only [disconnectClient, hact, publishClusterState] at hown ⊢
    refine ⟨hown, fun j => ?_, rfl, fun hc => absurd hc (by simp), fun _ => rfl⟩
    -- the one active session is suspended
    simp only [activeIn_suspend, reduceCtorEq, iff_false, not_and]
    intro hne hj
    exact hne (Option.some.inj (((h.active_iff j).mp hj).symm.trans hact))

theorem cleanupTick_fields (d : CalloopData S) (cleanedAt prunedAt : Clock) :
    (d.cleanupTick cleanedAt prunedAt).activeSession = d.activeSession ∧
      (d.cleanupTick cleanedAt prunedAt).connectedClientAddr = d.connectedClientAddr ∧
      (d.cleanupTick cleanedAt prunedAt).clientConnected = d.clientConnected := by
  simp only [cleanupTick]
  split_ifs <;> exact ⟨rfl, rfl, rfl⟩

/-- A cleanup keeps the active session as it is. -/
theorem Bound.get_cleanupTick (h : Bound begun d) {i : SessionId}
    (hact : d.activeSession = some i) (cleanedAt prunedAt : Clock) :
    (d.cleanupTick cleanedAt prunedAt).sessionRegistry.sessions.get i =
      d.sessionRegistry.sessions.get i := by
  have hactive : d.sessionRegistry.ActiveIn i := (h.active_iff i).mpr hact
  have hcleaned := (activeIn_cleanupExpired h.own_ids cleanedAt i).mpr hactive
  have hkept := hactive.get_cleanupExpired h.own_ids cleanedAt
  simp only [cleanupTick]
  split_ifs
  · exact hkept
  · exact hcleaned.get_purgeDestroyed.trans hkept

theorem bound_cleanupTick (desktop : Desktop S) (h : Bound begun d) (cleanedAt prunedAt : Clock) :
    Bound begun (d.cleanupTick cleanedAt prunedAt) := by
  have hown : OwnIds (d.cleanupTick cleanedAt prunedAt).sessionRegistry :=
    ownIds_applyEvent desktop h.own_ids (.cleanup cleanedAt prunedAt)
  have hactive : ∀ i, (d.cleanupTick cleanedAt prunedAt).sessionRegistry.ActiveIn i ↔
      d.sessionRegistry.ActiveIn i := by
    intro i
    have hcleaned := activeIn_cleanupExpired h.own_ids cleanedAt i
    simp only [cleanupTick]
    split_ifs
    · exact hcleaned
    · exact activeIn_purgeDestroyed.trans hcleaned
  obtain ⟨hact, haddr, hconn⟩ := d.cleanupTick_fields cleanedAt prunedAt
  refine ⟨hown, fun i => (hactive i).trans ?_, ?_, ?_, ?_⟩
  · rw [hact]
    exact h.active_iff i
  · rw [hact, haddr]
    exact h.addr
  · rw [hact, hconn]
    exact h.connected
  · rw [hact]
    exact h.idle

/-- A message of the client does not touch the binding. -/
theorem bound_relayed (desktop : Desktop S) (h : Bound begun d) {msg : NetToCompositor}
    (hmsg : msg.isRelayed = true) : Bound begun (drainEvent desktop d env msg).2 := by
  cases msg with
  | input msg => exact ⟨h.1, h.2, h.3, h.4, h.5⟩
  | control msg => cases msg <;> exact ⟨h.1, h.2, h.3, h.4, h.5⟩
  | clientConnected _ _ | clientDisconnected =>
    exact absurd hmsg (by simp [NetToCompositor.isRelayed])

end CalloopData

/-- What the network thread says in a run of the main loop. -/
def LoopEvent.netEvent? {S : Type} : LoopEvent S → Option NetToCompositor
  | net _ event => some event
  | netClosed | cleanup _ _ | turn _ _ => none

namespace CalloopData

variable {S : Type} {d : CalloopData S} {begun : Bool}

/-- **Step lemma**: an event that the language allows keeps the invariant, and the automaton goes
on. -/
theorem bound_applyEvent (desktop : Desktop S) (h : Bound begun d) (event : LoopEvent S)
    {events : List (LoopEvent S)}
    (hspeaks : speaks begun ((event :: events).filterMap LoopEvent.netEvent?) = true) :
    ∃ begun', Bound begun' (applyEvent desktop d event) ∧
      speaks begun' (events.filterMap LoopEvent.netEvent?) = true := by
  cases event with
  | netClosed =>
    exact ⟨begun, ⟨h.own_ids, h.active_iff, h.addr, fun hc => absurd hc (by simp [applyEvent]),
      h.idle⟩, hspeaks⟩
  | turn state frame => exact ⟨begun, ⟨h.1, h.2, h.3, h.4, h.5⟩, hspeaks⟩
  | cleanup cleanedAt prunedAt =>
    exact ⟨begun, bound_cleanupTick desktop h cleanedAt prunedAt, hspeaks⟩
  | net env event =>
    cases event with
    | input msg | control msg => exact ⟨true, bound_relayed desktop h.weaken rfl, hspeaks⟩
    | clientDisconnected => exact ⟨false, bound_disconnectClient desktop h, hspeaks⟩
    | clientConnected hello remoteAddr =>
      obtain ⟨hb, hrest⟩ := Bool.and_eq_true_iff.mp hspeaks
      obtain rfl : begun = false := by simpa using hb
      exact ⟨true, bound_connectClient desktop h hello remoteAddr, hrest⟩

/-- **Run lemma**: the invariant holds throughout a run in which the network thread speaks the
language. -/
theorem bound_runLoop (desktop : Desktop S) (h : Bound begun d) {events : List (LoopEvent S)}
    (hspeaks : speaks begun (events.filterMap LoopEvent.netEvent?) = true) :
    ∃ begun', Bound begun' (runLoop desktop d events) := by
  induction events generalizing d begun with
  | nil => exact ⟨begun, h⟩
  | cons event events ih =>
    obtain ⟨begun', hstep, hrest⟩ := bound_applyEvent desktop h event hspeaks
    exact ih hstep hrest

/-- After the restore, every session is suspended. -/
theorem bound_boot (state : S) (frame : FrameState) (cluster : ClusterConfig)
    (peerRt launcherLinked : Bool) (stateDb : Option SessionTable) (clk : Clock)
    (find : Enumeration (SessionId × SessionRecord)) :
    Bound false (boot state frame cluster peerRt launcherLinked stateDb clk find) where
  own_ids := ownIds_boot state frame cluster peerRt launcherLinked stateDb clk find
  active_iff i := by
    simp only [boot, reduceCtorEq, iff_false]
    rintro ⟨s, hs, hst⟩
    cases stateDb with
    | none => exact absurd hs (by simp [withCluster, new])
    | some db =>
      have hempty : ((withCluster cluster.localId defaultCapacity).withStore
          (.sqlite (.openFile db))).sessions.get i = none := HashMap.get_empty i
      dsimp only at hs
      rw [sessions_restorePersisted, hempty, Option.or_none] at hs
      obtain ⟨p, -, rfl⟩ := Option.map_eq_some_iff.mp hs
      exact absurd hst (by simp)
  addr := rfl
  connected hc := absurd hc (by simp [boot])
  idle _ := rfl

/-- **The binding agrees with the registry.**  Whatever database is restored, and however cleanups
come between the events of a word of the event language: a connected client has an active session,
which is in the registry and `Active`; no other session is; the address is there exactly when the
active session is; and neither cleanup nor purge removes that session. -/
theorem binding_agrees (desktop : Desktop S) (state : S) (frame : FrameState)
    (cluster : ClusterConfig) (peerRt launcherLinked : Bool) (stateDb : Option SessionTable)
    (clk : Clock) (find : Enumeration (SessionId × SessionRecord)) (events : List (LoopEvent S))
    (hword : ∃ word ∈ eventLanguage, events.filterMap LoopEvent.netEvent? <+: word) :
    let d :=
      runLoop desktop (boot state frame cluster peerRt launcherLinked stateDb clk find) events
    let r := d.sessionRegistry
    (d.clientConnected = true →
      ∃ i s, d.activeSession = some i ∧ r.get i = some s ∧ s.state = .active) ∧
    (∀ i s, r.get i = some s → s.state = .active → d.activeSession = some i) ∧
    (d.connectedClientAddr.isSome = true ↔ d.activeSession.isSome = true) ∧
    ∀ i, d.activeSession = some i → ∀ clk',
      i ∉ (r.cleanupExpired clk').1 ∧ (r.cleanupExpired clk').2.get i = r.get i ∧
      r.purgeDestroyed.get i = r.get i ∧
      (r.cleanupExpired clk').2.purgeDestroyed.get i = r.get i := by
  intro d r
  obtain ⟨begun, h⟩ : ∃ begun, Bound begun d :=
    bound_runLoop desktop (bound_boot state frame cluster peerRt launcherLinked stateDb clk find)
      (speaks_iff.mpr hword)
  refine ⟨fun hconn => ?_, fun i s hs hst => (h.active_iff i).mp ⟨s, hs, hst⟩, by rw [h.addr],
    fun i hact clk' => ?_⟩
  · obtain ⟨i, hact⟩ := Option.isSome_iff_exists.mp (h.connected hconn)
    obtain ⟨s, hs, hst⟩ := (h.active_iff i).mpr hact
    exact ⟨i, s, hact, hs, hst⟩
  · have hactive : r.ActiveIn i := (h.active_iff i).mpr hact
    have hcleaned := (activeIn_cleanupExpired h.own_ids clk' i).mpr hactive
    have hkept := hactive.get_cleanupExpired h.own_ids clk'
    exact ⟨hactive.not_mem_expiredIds h.own_ids, hkept, hactive.get_purgeDestroyed,
      hcleaned.get_purgeDestroyed.trans hkept⟩

/-- A client that has just connected, and a cleanup. -/
theorem binding_agrees_connected :
    let d := runLoop nullDesktop
      (boot () ⟨[], 0, false, 0⟩ ⟨"", "", []⟩ false false (some ∅) ⟨0, 0⟩ .stored)
      [.net quiet (.clientConnected ⟨2, [], some "t"⟩ "c"), .cleanup ⟨0, 0⟩ ⟨0, 0⟩]
    ∃ i s, d.activeSession = some i ∧ d.sessionRegistry.get i = some s ∧ s.state = .active :=
  (binding_agrees nullDesktop () ⟨[], 0, false, 0⟩ ⟨"", "", []⟩ false false (some ∅) ⟨0, 0⟩ .stored
    [.net quiet (.clientConnected ⟨2, [], some "t"⟩ "c"), .cleanup ⟨0, 0⟩ ⟨0, 0⟩]
    (speaks_iff.mp rfl)).1 (by decide)

end CalloopData

end WayRay
