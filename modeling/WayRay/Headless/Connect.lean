import WayRay.Session.Index
import WayRay.Headless.Compositor

/-!
# How a connecting client is answered

`Connects` lists the four ways in which `connectClient` answers, each with the condition under which
it is taken, and `connectClient_connects` says that there is no other.  `registry_invariant` is the
rule for what every move of the session registry keeps.
-/

namespace WayRay

open SessionRegistry

namespace CalloopData

variable {S : Type} {d : CalloopData S} {env : Surroundings} {token : SessionToken}

/-- The compositor with other remote notes. -/
def withNotes (d : CalloopData S) (notes : HashMap SessionToken RemoteEntry) : CalloopData S :=
  { d with sessionRegistry := { d.sessionRegistry with remoteSessions := notes } }

/-- Looking for the home of a session can at most add a note. -/
theorem findHome_notes (d : CalloopData S) (env : Surroundings) (token : SessionToken) :
    ∃ notes, (d.findHome env token).2 = d.withNotes notes := by
  unfold findHome
  cases d.sessionRegistry.locate env.locatedAt token with
  | localTo _ | remote _ => exact ⟨d.sessionRegistry.remoteSessions, rfl⟩
  | unknown =>
    cases d.discoverRemoteHome env with
    | none => exact ⟨d.sessionRegistry.remoteSessions, rfl⟩
    | some serverId => exact ⟨_, rfl⟩

/-- The answers to a client that brings a token, or is given one. -/
inductive Connects (d : CalloopData S) (env : Surroundings) (token : SessionToken)
    (remoteAddr : String) : ConnectDecision × CalloopData S → Prop
  /-- Its session lives on another server. -/
  | home {serverId addr : String} (hhome : (d.findHome env token).1 = .remote serverId)
      (haddr : d.cluster.addrOf serverId = some addr) :
      Connects d env token remoteAddr (.redirect serverId addr, (d.findHome env token).2)
  /-- It gets the session that its token leads to. -/
  | resumed {id : SessionId} (htarget : d.redirectTarget (d.findHome env token).1 = none)
      (hres : d.sessionRegistry.isResumable token = some id) :
      Connects d env token remoteAddr
        (((d.findHome env token).2.resumeSession env id).bindClient id true token remoteAddr)
  /-- A peer has less to do. -/
  | shed {serverId addr : String} (htarget : d.redirectTarget (d.findHome env token).1 = none)
      (hres : d.sessionRegistry.isResumable token = none)
      (hpick : (d.findHome env token).2.pickPeerForNewSession env = some (serverId, addr)) :
      Connects d env token remoteAddr (.redirect serverId addr, (d.findHome env token).2)
  /-- It gets a new session. -/
  | created (htarget : d.redirectTarget (d.findHome env token).1 = none)
      (hres : d.sessionRegistry.isResumable token = none) :
      Connects d env token remoteAddr
        (((d.findHome env token).2.startSession env token).2.bindClient
          ⟨d.sessionRegistry.nextId⟩ false token remoteAddr)

/-- **Every answer to a client is one of these.** -/
theorem connectClient_connects (d : CalloopData S) (env : Surroundings) (hello : ClientHello)
    (remoteAddr : String) :
    Connects d env ⟨hello.token.getD env.randomToken⟩ remoteAddr
      (d.connectClient env hello remoteAddr) := by
  obtain ⟨notes, hnotes⟩ := d.findHome_notes env ⟨hello.token.getD env.randomToken⟩
  have hcluster : ∀ location, (d.findHome env ⟨hello.token.getD env.randomToken⟩).2.redirectTarget
      location = d.redirectTarget location := fun location => by rw [hnotes]; rfl
  have hresume : (d.findHome env ⟨hello.token.getD env.randomToken⟩).2.sessionRegistry.isResumable
      ⟨hello.token.getD env.randomToken⟩ =
      d.sessionRegistry.isResumable ⟨hello.token.getD env.randomToken⟩ := by rw [hnotes]; rfl
  simp only [connectClient, hcluster, hresume]
  cases htarget : d.redirectTarget (d.findHome env ⟨hello.token.getD env.randomToken⟩).1 with
  | some target =>
    cases hhome : (d.findHome env ⟨hello.token.getD env.randomToken⟩).1 with
    | localTo _ | unknown =>
      rw [hhome] at htarget
      exact absurd htarget (by simp [redirectTarget])
    | remote serverId =>
      rw [hhome] at htarget
      obtain ⟨addr, haddr, rfl⟩ := Option.map_eq_some_iff.mp htarget
      exact .home hhome haddr
  | none =>
    cases hres : d.sessionRegistry.isResumable ⟨hello.token.getD env.randomToken⟩ with
    | some id => exact .resumed htarget hres
    | none =>
      cases hpick : (d.findHome env
          ⟨hello.token.getD env.randomToken⟩).2.pickPeerForNewSession env with
      | some target => exact .shed htarget hres hpick
      | none =>
        have hnew : Connects d env _ remoteAddr _ := .created htarget hres
        rw [hnotes] at hnew ⊢
        exact hnew

/-- A client that is sent elsewhere leaves a note at most. -/
theorem connectClient_redirect_notes {hello : ClientHello} {remoteAddr serverId addr : String}
    (hredirect : (d.connectClient env hello remoteAddr).1 = .redirect serverId addr) :
    ∃ notes, (d.connectClient env hello remoteAddr).2 = d.withNotes notes := by
  have hconnects := d.connectClient_connects env hello remoteAddr
  generalize d.connectClient env hello remoteAddr = answer at hconnects hredirect ⊢
  cases hconnects with
  | home _ _ | shed _ _ _ => exact d.findHome_notes env _
  | resumed _ _ | created _ _ => exact absurd hredirect (by simp [bindClient])

/-! ### The registry over a run -/

/-- What every move of the registry keeps, every event of the main loop keeps. -/
theorem registry_invariant {P : SessionRegistry → Prop}
    (hmove : ∀ {clk r r'}, P r → Move (fun _ _ => True) clk r r' → P r') (desktop : Desktop S)
    (h : P d.sessionRegistry) (event : LoopEvent S) :
    P (applyEvent desktop d event).sessionRegistry := by
  have hstep : ∀ {r : SessionRegistry} (clk : Clock) (op : RegistryOp), P r → P (r.step clk op).2 :=
    fun clk op hr => step_invariant hmove hr op
  cases event with
  | netClosed | turn _ _ => exact h
  | cleanup cleanedAt prunedAt =>
    have hcleaned := hstep cleanedAt .cleanupExpired h
    simp only [applyEvent, cleanupTick]
    refine hstep prunedAt .pruneRemoteSessions ?_
    split_ifs
    · exact hcleaned
    · exact hstep cleanedAt .purgeDestroyed hcleaned
  | net env event =>
    cases event with
    | input _ => exact h
    | control msg => cases msg <;> exact h
    | clientDisconnected =>
      simp only [applyEvent, drainEvent, disconnectClient, publishClusterState]
      cases d.activeSession with
      | none => exact h
      | some id => exact hstep env.suspendedAt (.suspend id) h
    | clientConnected hello remoteAddr =>
      have hfind : ∀ token, P (d.findHome env token).2.sessionRegistry := by
        intro token
        obtain ⟨notes, hnotes⟩ := d.findHome_notes env token
        rw [hnotes]
        exact hmove h (Move.remote notes : Move _ env.notedAt _ _)
      simp only [applyEvent, drainEvent, Prod.map_snd, id]
      have hconnects := d.connectClient_connects env hello remoteAddr
      generalize d.connectClient env hello remoteAddr = answer at hconnects ⊢
      cases hconnects with
      | home _ _ | shed _ _ _ => exact hfind _
      | @resumed i _ _ =>
        have hfind := hfind ⟨hello.token.getD env.randomToken⟩
        simp only [bindClient, publishClusterState, resumeSession]
        split
        · exact hstep env.activatedAt (.activate i) hfind
        all_goals exact hfind
      | created _ _ =>
        have hfind := hfind ⟨hello.token.getD env.randomToken⟩
        exact hstep env.activatedAt (.activate _) (hstep env.createdAt (.createSession _) hfind)

theorem ownIds_applyEvent (desktop : Desktop S) (h : OwnIds d.sessionRegistry)
    (event : LoopEvent S) : OwnIds (applyEvent desktop d event).sessionRegistry :=
  registry_invariant ownIds_move desktop h event

/-- Whatever database is restored, the sessions are stored under their own ids. -/
theorem ownIds_boot (state : S) (frame : FrameState) (cluster : ClusterConfig)
    (peerRt launcherLinked : Bool) (stateDb : Option SessionTable) (clk : Clock)
    (find : Enumeration (SessionId × SessionRecord)) :
    OwnIds (boot state frame cluster peerRt launcherLinked stateDb clk find).sessionRegistry := by
  cases stateDb with
  | none => exact fun i s hs => by simp [boot, withCluster, new] at hs
  | some db =>
    exact step_invariant ownIds_move
      (consistent_withStore cluster.localId defaultCapacity (.sqlite (.openFile db))).own_id
      (.restorePersisted find)

end CalloopData

end WayRay
