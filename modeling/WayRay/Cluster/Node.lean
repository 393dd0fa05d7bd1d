import WayRay.Cluster.Model

/-!
# One server of a cluster

`Sound` is what holds of a server in every state of a cluster: its registry is in order, its notes
and the answers it has got name peers.  Every step of the server keeps it.

`Sound.answers` lists how a sound server answers a client: it never sheds a session, as it has one
active session at most, and it creates one only if no peer that it has asked said yes.
-/

namespace WayRay

open SessionRegistry

namespace CalloopData

variable {S : Type} {d d' : CalloopData S} {env : Surroundings} {token : SessionToken}

/-- The server has a live session for the token. -/
def Hosts (d : CalloopData S) (token : SessionToken) : Prop :=
  ∃ i s, d.sessionRegistry.Live i s ∧ s.token = token

theorem Hosts.mem_resumableTokens (h : d.Hosts token) :
    token.str ∈ d.sessionRegistry.resumableTokens := by
  obtain ⟨i, s, hlive, rfl⟩ := h
  exact mem_resumableTokens_iff_live.mpr ⟨i, s, hlive, rfl⟩

theorem hosts_iff_mem_resumableTokens :
    d.Hosts token ↔ token.str ∈ d.sessionRegistry.resumableTokens := by
  refine ⟨Hosts.mem_resumableTokens, fun h => ?_⟩
  obtain ⟨i, s, hlive, htok⟩ := mem_resumableTokens_iff_live.mp h
  exact ⟨i, s, hlive, congrArg SessionToken.mk htok⟩

/-- What is published covers the live sessions. -/
def Covered (d : CalloopData S) : Prop :=
  ∀ ⦃t⦄, t ∈ d.sessionRegistry.resumableTokens → t ∈ d.localTokens

variable {now : Instant} {new : Option Session} {lost : List SessionId}

/-- A token that is live after an event was live before, unless its session is new. -/
theorem Evolves.live_of_live (h : Evolves now new lost d d') {t : String}
    (ht : t ∈ d'.sessionRegistry.resumableTokens) (hnew : ∀ s, new = some s → s.token.str ≠ t) :
    t ∈ d.sessionRegistry.resumableTokens := by
  obtain ⟨i, s', hlive, rfl⟩ := mem_resumableTokens_iff_live.mp ht
  rcases h.back hlive with ⟨s, hs, hcontinues⟩ | hs'
  · exact mem_resumableTokens_iff_live.mpr
      ⟨i, s, hs, congrArg SessionToken.str hcontinues.token.symm⟩
  · exact absurd rfl (hnew s' hs')

theorem Evolves.covered (h : Evolves now new lost d d') (hcovered : Covered d) : Covered d' := by
  intro t ht
  rcases h.published with ⟨hnew, hsame⟩ | hlive
  · rw [hsame]
    exact hcovered (h.live_of_live ht (by simp [hnew]))
  · rwa [hlive]

/-- A token that is published after an event was published before, unless its session is new. -/
theorem Evolves.published_of_published (h : Evolves now new lost d d') (hcovered : Covered d)
    {t : String} (ht : t ∈ d'.localTokens) (hnew : ∀ s, new = some s → s.token.str ≠ t) :
    t ∈ d.localTokens := by
  rcases h.published with ⟨-, hsame⟩ | hlive
  · rwa [hsame] at ht
  · rw [hlive] at ht
    exact hcovered (h.live_of_live ht hnew)

/-! ### Looking for a home -/

theorem probeHome_eq_some {probe : ℕ → ProbeOutcome String} {index : ℕ} {peers : List ServerEntry}
    {serverId : String} (h : probeHome probe index peers = some serverId) :
    ∃ m, probe m = .answered serverId := by
  induction peers generalizing index with
  | nil => exact absurd h (by simp [probeHome])
  | cons peer peers ih =>
    cases hprobe : probe index with
    | budgetExhausted => simp [probeHome, hprobe] at h
    | invalidAddr | noAnswer =>
      simp only [probeHome, hprobe] at h
      exact ih h
    | answered a =>
      simp only [probeHome, hprobe, Option.some.injEq] at h
      exact ⟨index, h ▸ hprobe⟩

/-- If nobody is found, none of the peers asked has said yes. -/
theorem isAnswered_of_probeHome_eq_none {probe : ℕ → ProbeOutcome String} {index m : ℕ}
    {peers : List ServerEntry} (h : probeHome probe index peers = none) (hm : m < peers.length)
    (hbudget : ∀ k ≤ m, probe (index + k) ≠ .budgetExhausted) :
    (probe (index + m)).isAnswered = false := by
  induction peers generalizing index m with
  | nil => exact absurd hm (by simp)
  | cons peer peers ih =>
    cases hprobe : probe index with
    | budgetExhausted => exact absurd hprobe (hbudget 0 (Nat.zero_le m))
    | answered a => simp [probeHome, hprobe] at h
    | invalidAddr | noAnswer =>
      simp only [probeHome, hprobe] at h
      cases m with
      | zero =>
        rw [Nat.add_zero, hprobe]
        rfl
      | succ m =>
        have hrest := ih h (Nat.lt_of_succ_lt_succ hm) fun k hk => by
          have := hbudget (k + 1) (Nat.succ_le_succ hk)
          rwa [← Nat.add_assoc, Nat.add_right_comm] at this
        rwa [← Nat.add_assoc, Nat.add_right_comm]

/-- Where the runtime for peer queries is there, the peers are asked in turn. -/
theorem discoverRemoteHome_eq (hsecret : d.cluster.clusterSecret.isEmpty = false)
    (hpeerRt : d.peerRt = d.cluster.isClustered) :
    d.discoverRemoteHome env = probeHome env.tokenProbe 0 d.cluster.peers := by
  unfold discoverRemoteHome
  cases hclustered : d.cluster.isClustered with
  | true => simp [hsecret, hpeerRt, hclustered]
  | false =>
    simp [ClusterConfig.peers_eq_nil hclustered, probeHome]

/-- A server with one active session at most sheds none. -/
theorem pickPeerForNewSession_eq_none
    (hactive : d.sessionRegistry.countByState .active ≤ 1)
    (hcapacity : d.sessionRegistry.capacity = defaultCapacity) :
    d.pickPeerForNewSession env = none := by
  have hload : d.sessionRegistry.loadFactor ≤ loadRedirectThreshold := by
    rw [loadFactor, hcapacity, loadRedirectThreshold]
    rcases Nat.le_one_iff_eq_zero_or_eq_one.mp hactive with hcount | hcount
    · rw [hcount]
      norm_num
    · rw [hcount]
      norm_num [defaultCapacity]
  unfold pickPeerForNewSession
  simp [hload]

end CalloopData

/-! ### The main loop goes on -/

namespace LocalEvent

open CalloopData

variable {S : Type} {d : CalloopData S}

/-- The sessions that expire. -/
def expired (d : CalloopData S) (clk : Clock) : LocalEvent S → List SessionId
  | cleanup => d.sessionRegistry.expiredIds clk
  | input _ | control _ | clientDisconnected | netClosed | turn _ _ => []

theorem evolves (desktop : Desktop S) (d : CalloopData S) (clk : Clock) (e : LocalEvent S) :
    Evolves clk.now none (e.expired d clk) d (d.applyEvent desktop (e.toLoopEvent clk)) := by
  cases e with
  | input _ | netClosed | turn _ _ => exact evolves_of_eq clk.now rfl rfl rfl rfl rfl
  | control msg => cases msg <;> exact evolves_of_eq clk.now rfl rfl rfl rfl rfl
  | clientDisconnected => exact evolves_disconnectClient desktop d (surroundings clk)
  | cleanup => exact evolves_cleanupTick d clk clk

/-- No note is made. -/
theorem notes (desktop : Desktop S) (d : CalloopData S) (clk : Clock) (e : LocalEvent S)
    {token : SessionToken} {entry : RemoteEntry}
    (h : (d.applyEvent desktop (e.toLoopEvent clk)).sessionRegistry.remoteSessions.get token =
      some entry) : d.sessionRegistry.remoteSessions.get token = some entry := by
  cases e with
  | input _ | netClosed | turn _ _ => exact h
  | control msg => cases msg <;> exact h
  | clientDisconnected =>
    simp only [toLoopEvent, applyEvent, drainEvent, disconnectClient, publishClusterState] at h
    cases hact : d.activeSession with
    | none =>
      rw [hact] at h
      exact h
    | some i =>
      rw [hact] at h
      have hsame := (transition_frame d.sessionRegistry (surroundings clk).suspendedAt i
        .suspended).2.2
      exact (congrArg (fun m : HashMap SessionToken RemoteEntry => m.get token) hsame).symm.trans h
  | cleanup =>
    have hcleaned : (d.sessionRegistry.cleanupExpired clk).2.remoteSessions =
        d.sessionRegistry.remoteSessions := by
      rw [cleanupExpired]
      exact List.foldlRecOn (motive := fun r : SessionRegistry =>
        r.remoteSessions = d.sessionRegistry.remoteSessions) _ _ rfl
        fun r hr id _ => (transition_frame r clk id .destroyed).2.2.trans hr
    simp only [toLoopEvent, applyEvent, cleanupTick, pruneRemoteSessions] at h
    have h := (HashMap.get_retain_eq_some.mp h).1
    split_ifs at h
    · exact hcleaned ▸ h
    · exact hcleaned ▸ h

end LocalEvent

namespace Node

open CalloopData

variable {S : Type} {c : ClusterSetup} {i : String} {n : Node S} {clk : Clock}

/-- What holds of a server throughout. -/
structure Sound (c : ClusterSetup) (i : String) (n : Node S) : Prop where
  serving : Serving n.data.sessionRegistry
  config : n.data.cluster = c.config i
  peerRt : n.data.peerRt = n.data.cluster.isClustered
  capacity : n.data.sessionRegistry.capacity = defaultCapacity
  bound : Bound (n.begun && n.lookup.isNone) n.data
  busy : n.lookup.isSome = true → n.begun = true
  noted : ∀ {token entry}, n.data.sessionRegistry.remoteSessions.get token = some entry →
    ∃ peer ∈ (c.config i).peers, peer.id = entry.serverId
  asked : ∀ {l}, n.lookup = some l → ∀ {m : ℕ} {a : ProbeOutcome String}, l.answers[m]? = some a →
    ∃ peer, (c.config i).peers[m]? = some peer ∧ (a = .answered peer.id ∨ a = .noAnswer)

theorem Sound.secret_ne (h : Sound c i n) : n.data.cluster.clusterSecret.isEmpty = false := by
  rw [h.config]
  exact c.secret_ne

theorem Sound.activeCount_le_one (h : Sound c i n) :
    n.data.sessionRegistry.countByState .active ≤ 1 := h.bound.activeCount_le_one

theorem Sound.announce (h : Sound c i n) (hello : ClientHello) (remoteAddr randomToken : String) :
    Sound c i (n.announce clk hello remoteAddr randomToken) := by
  unfold Node.announce
  split_ifs with hidle
  · refine ⟨h.serving, h.config, h.peerRt, h.capacity, ?_, fun _ => rfl, h.noted, ?_⟩
    · have hbound := h.bound
      rw [hidle.1] at hbound
      exact hbound
    · intro l hl m a ha
      obtain rfl := Option.some.inj hl
      exact absurd ha (by simp)
  · exact h

theorem Sound.loop (desktop : Desktop S) (h : Sound c i n) (e : LocalEvent S) :
    Sound c i (n.loop desktop clk e) := by
  unfold Node.loop
  split_ifs with hidle
  · have hevolves := e.evolves desktop n.data clk
    refine ⟨serving_applyEvent desktop h.serving _, hevolves.cluster.trans h.config, ?_,
      hevolves.capacity.trans h.capacity, ?_, ?_,
      fun hnote => h.noted (e.notes desktop n.data clk hnote), fun hl => h.asked hl⟩
    · rw [hevolves.peerRt, hevolves.cluster]
      exact h.peerRt
    · have hbound := h.bound
      rw [hidle, Bool.and_true] at hbound ⊢
      cases e with
      | input msg => exact bound_relayed desktop hbound.weaken rfl
      | control msg => exact bound_relayed desktop hbound.weaken rfl
      | clientDisconnected => exact bound_disconnectClient desktop hbound
      | netClosed =>
        exact ⟨hbound.own_ids, hbound.active_iff, hbound.addr,
          fun hc => absurd hc (by simp [LocalEvent.toLoopEvent, applyEvent]), hbound.idle⟩
      | cleanup => exact bound_cleanupTick desktop hbound clk clk
      | turn state frame => exact ⟨hbound.1, hbound.2, hbound.3, hbound.4, hbound.5⟩
    · intro hl
      rw [Option.isNone_iff_eq_none.mp hidle] at hl
      exact absurd hl (by simp)
  · exact h

/-- The sessions that expire while the main loop goes on. -/
def lost (n : Node S) (clk : Clock) (e : LocalEvent S) : List SessionId :=
  if n.lookup.isNone = true then e.expired n.data clk else []

theorem evolves_loop (desktop : Desktop S) (n : Node S) (clk : Clock) (e : LocalEvent S) :
    Evolves clk.now none (n.lost clk e) n.data (n.loop desktop clk e).data := by
  unfold loop lost
  split_ifs
  · exact e.evolves desktop n.data clk
  · exact evolves_of_eq clk.now rfl rfl rfl rfl rfl

@[simp]
theorem lookup_loop (desktop : Desktop S) (n : Node S) (clk : Clock) (e : LocalEvent S) :
    (n.loop desktop clk e).lookup = n.lookup := by
  unfold loop
  split_ifs <;> rfl

@[simp]
theorem data_announce (n : Node S) (clk : Clock) (hello : ClientHello)
    (remoteAddr randomToken : String) :
    (n.announce clk hello remoteAddr randomToken).data = n.data := by
  unfold announce
  split_ifs <;> rfl

/-- A connect that has just been announced has heard nothing. -/
theorem lookup_announce {hello : ClientHello} {remoteAddr randomToken : String} {l : Lookup}
    (hl : (n.announce clk hello remoteAddr randomToken).lookup = some l) :
    n.lookup = some l ∨ l.answers = [] := by
  unfold announce at hl
  split_ifs at hl
  · exact .inr (Option.some.inj hl ▸ rfl)
  · exact .inl hl

@[simp]
theorem lookup_finish (desktop : Desktop S) (n : Node S) (clk : Clock)
    (infoProbe : ℕ → ProbeOutcome ServerInfoMsg) :
    (n.finish desktop clk infoProbe).2.lookup = none := by
  rw [finish]
  split
  · assumption
  · rfl

/-- The peer whose turn it is, is one of the configured ones, and has not been asked. -/
theorem Sound.nextPeer_eq_some (h : Sound c i n) {peer : ServerEntry}
    (hpeer : n.nextPeer = some peer) :
    ∃ l, n.lookup = some l ∧ n.Searches l ∧ l.found = false ∧
      (c.config i).peers[l.answers.length]? = some peer := by
  obtain ⟨l, hl, hnext⟩ := Option.bind_eq_some_iff.mp hpeer
  split_ifs at hnext with hcond
  exact ⟨l, hl, hcond.1, hcond.2, h.config ▸ hnext⟩

theorem getElem?_concat_cases {α : Type*} {xs : List α} {x y : α} {m : ℕ}
    (h : (xs ++ [x])[m]? = some y) : xs[m]? = some y ∨ m = xs.length ∧ y = x := by
  rw [List.getElem?_append] at h
  split_ifs at h with hm
  · exact .inl h
  · obtain ⟨hlt, hy⟩ := List.getElem?_eq_some_iff.mp h
    rw [List.length_singleton] at hlt
    exact .inr ⟨by omega, by simpa using hy.symm⟩

theorem Sound.hear (h : Sound c i n) {peer : ServerEntry} (hpeer : n.nextPeer = some peer)
    {a : ProbeOutcome String} (ha : a = .answered peer.id ∨ a = .noAnswer) :
    Sound c i (n.hear clk a) := by
  obtain ⟨l, hl, -, -, hnext⟩ := h.nextPeer_eq_some hpeer
  refine ⟨h.serving, h.config, h.peerRt, h.capacity, ?_, ?_, h.noted, ?_⟩
  · have hbound := h.bound
    rw [hl] at hbound
    simpa only [Node.hear, hl, Option.map_some, Option.isNone_some, Bool.and_false] using hbound
  · exact fun _ => h.busy (by rw [hl]; rfl)
  · intro l' hl' m b hb
    simp only [Node.hear, hl, Option.map_some, Option.some.injEq] at hl'
    subst hl'
    rcases getElem?_concat_cases hb with hb | ⟨rfl, rfl⟩
    · exact h.asked hl hb
    · exact ⟨peer, hnext, ha⟩

/-! ### A client is answered -/

/-- The token is not known on this server, and no peer asked so far has it. -/
def Homeless (n : Node S) (l : Lookup) : Prop :=
  n.data.sessionRegistry.locate l.locatedAt l.token = .unknown ∧ l.found = false

/-- The answers to a client. -/
inductive Answers (n : Node S) (l : Lookup) (clk : Clock)
    (infoProbe : ℕ → ProbeOutcome ServerInfoMsg) : ConnectDecision → CalloopData S → Prop
  /-- A note that is still trusted names the home. -/
  | noted {entry : RemoteEntry} {addr : String} (hnone : ¬ n.data.Hosts l.token)
      (hnote : n.data.sessionRegistry.remoteSessions.get l.token = some entry)
      (hfresh : Instant.elapsed entry.notedAt l.locatedAt.now < remoteSessionTtl)
      (haddr : n.data.cluster.addrOf entry.serverId = some addr) :
      Answers n l clk infoProbe (.redirect entry.serverId addr) n.data
  /-- A peer has said that it is the home; a note is made. -/
  | told {serverId addr : String} (hnone : ¬ n.data.Hosts l.token)
      (hanswer : .answered serverId ∈ l.answers)
      (haddr : n.data.cluster.addrOf serverId = some addr) :
      Answers n l clk infoProbe (.redirect serverId addr)
        (n.data.withNotes
          (n.data.sessionRegistry.remoteSessions.insert l.token ⟨serverId, clk.now⟩))
  /-- The session is here. -/
  | resumed {j : SessionId} {s : Session} (hlive : n.data.sessionRegistry.Live j s)
      (htok : s.token = l.token) :
      Answers n l clk infoProbe (.bind ⟨j.raw, true, l.token.str⟩)
        ((n.data.resumeSession (l.surroundings clk infoProbe) j).bindClient j true l.token
          l.remoteAddr).2
  /-- The session is nowhere, so that a new one is created. -/
  | created (hnone : ¬ n.data.Hosts l.token) (hhomeless : n.Homeless l) :
      Answers n l clk infoProbe (.bind ⟨n.data.sessionRegistry.nextId, false, l.token.str⟩)
        ((n.data.startSession (l.surroundings clk infoProbe) l.token).2.bindClient
          ⟨n.data.sessionRegistry.nextId⟩ false l.token l.remoteAddr).2

variable {l : Lookup} {infoProbe : ℕ → ProbeOutcome ServerInfoMsg}

theorem finish_eq (desktop : Desktop S) (hl : n.lookup = some l) :
    n.finish desktop clk infoProbe =
      (some (n.data.connectClient (l.surroundings clk infoProbe) l.hello l.remoteAddr).1,
        { n with
          data := (n.data.connectClient (l.surroundings clk infoProbe) l.hello l.remoteAddr).2
          lookup := none }) := by
  rw [Node.finish, hl]
  rfl

/-- On a server in order, the index knows the live sessions and no others. -/
theorem Sound.hosts_iff (h : Sound c i n) (token : SessionToken) :
    n.data.Hosts token ↔ ∃ j, n.data.sessionRegistry.tokenIndex.get token = some j := by
  constructor
  · rintro ⟨j, s, hlive, rfl⟩
    exact ⟨j, h.serving.resolves hlive.get (SessionState.ne_destroyed_of_resumable hlive.resumable)⟩
  · rintro ⟨j, hj⟩
    obtain ⟨s, hs, -, htok, hst⟩ := h.serving.index hj
    have hlive : s.state.resumable = true := by
      have hcreating := h.serving.settled hs
      cases hstate : s.state <;> simp_all [SessionState.resumable]
    exact ⟨j, s, ⟨hs, hlive⟩, htok⟩

theorem Sound.isResumable_eq_none (h : Sound c i n) {token : SessionToken}
    (hnone : ¬ n.data.Hosts token) : n.data.sessionRegistry.isResumable token = none := by
  cases hindex : n.data.sessionRegistry.tokenIndex.get token with
  | none => rw [isResumable, findByToken, hindex]; rfl
  | some j => exact absurd ((h.hosts_iff token).mpr ⟨j, hindex⟩) hnone

/-- The id of a peer has an address. -/
theorem addrOf_peer {peer : ServerEntry} (hpeer : peer ∈ (c.config i).peers) :
    ∃ addr, (c.config i).addrOf peer.id = some addr := by
  have hmem : peer ∈ c.servers := (List.mem_filter.mp hpeer).1
  cases hfind : (c.config i).server peer.id with
  | none => exact absurd (List.find?_eq_none.mp hfind peer hmem) (by simp)
  | some entry => exact ⟨entry.addr, by rw [ClusterConfig.addrOf, hfind]; rfl⟩

theorem token_surroundings :
    (⟨l.hello.token.getD (l.surroundings clk infoProbe).randomToken⟩ : SessionToken) = l.token :=
  rfl

/-- A client whose session lives elsewhere is sent there. -/
theorem connectClient_of_remote {d d' : CalloopData S} {env : Surroundings} {hello : ClientHello}
    {remoteAddr serverId addr : String}
    (hhome : d.findHome env ⟨hello.token.getD env.randomToken⟩ = (.remote serverId, d'))
    (haddr : d'.cluster.addrOf serverId = some addr) :
    d.connectClient env hello remoteAddr = (.redirect serverId addr, d') := by
  simp only [connectClient, hhome, redirectTarget, haddr, Option.map_some]

theorem mem_answers_of_probe {m : ℕ} {serverId : String}
    (h : (l.surroundings clk infoProbe).tokenProbe m = .answered serverId) :
    .answered serverId ∈ l.answers := by
  simp only [Lookup.surroundings] at h
  cases ha : l.answers[m]? with
  | none => simp [ha] at h
  | some a =>
    rw [ha, Option.getD_some] at h
    exact h ▸ List.mem_of_getElem? ha

/-- If nobody is found, no peer has said yes. -/
theorem Sound.found_eq_false (h : Sound c i n) (hl : n.lookup = some l)
    (hnone : n.data.discoverRemoteHome (l.surroundings clk infoProbe) = none) :
    l.found = false := by
  rw [discoverRemoteHome_eq h.secret_ne h.peerRt, h.config] at hnone
  refine List.any_eq_false.mpr fun a ha => ?_
  obtain ⟨m, hm⟩ := List.mem_iff_getElem?.mp ha
  have hasked : ∀ k ≤ m, ∃ b, l.answers[k]? = some b ∧
      (l.surroundings clk infoProbe).tokenProbe k = b := by
    intro k hk
    have hlt : k < l.answers.length :=
      lt_of_le_of_lt hk (List.getElem?_eq_some_iff.mp hm).1
    have hb := List.getElem?_eq_getElem hlt
    exact ⟨_, hb, by simp only [Lookup.surroundings, hb, Option.getD_some]⟩
  obtain ⟨peer, hpeer, -⟩ := h.asked hl hm
  have hprobe := isAnswered_of_probeHome_eq_none hnone (List.getElem?_eq_some_iff.mp hpeer).1
    fun k hk => by
      obtain ⟨b, hb, hsame⟩ := hasked k hk
      obtain ⟨asked, -, hkind⟩ := h.asked hl hb
      rw [Nat.zero_add, hsame]
      rcases hkind with rfl | rfl
      · simp
      · simp
  obtain ⟨b, hb, hsame⟩ := hasked m (le_refl m)
  obtain rfl := Option.some.inj (hm.symm.trans hb)
  rw [Nat.zero_add, hsame] at hprobe
  simp [hprobe]

/-- A token that is not in the index is looked up among the notes. -/
theorem locate_cases {r : SessionRegistry} {token : SessionToken}
    (hindex : r.tokenIndex.get token = none) (clk : Clock) :
    (∃ entry, r.remoteSessions.get token = some entry ∧
      Instant.elapsed entry.notedAt clk.now < remoteSessionTtl ∧
      r.locate clk token = .remote entry.serverId) ∨ r.locate clk token = .unknown := by
  rw [locate, hindex]
  cases hnote : r.remoteSessions.get token with
  | none => exact .inr rfl
  | some entry =>
    dsimp only
    split_ifs with hfresh
    · exact .inl ⟨entry, rfl, hfresh, rfl⟩
    · exact .inr rfl

/-- A peer that has said yes has an address. -/
theorem Sound.addrOf_answer (h : Sound c i n) (hl : n.lookup = some l) {serverId : String}
    (hanswer : .answered serverId ∈ l.answers) :
    ∃ addr, n.data.cluster.addrOf serverId = some addr := by
  obtain ⟨m, hm⟩ := List.mem_iff_getElem?.mp hanswer
  obtain ⟨peer, hpeer, hkind⟩ := h.asked hl hm
  obtain rfl : serverId = peer.id := by simpa using hkind
  rw [h.config]
  exact addrOf_peer (List.mem_of_getElem? hpeer)

/-- A token without a live session here leads elsewhere, or to a new session. -/
theorem Sound.answers_of_not_hosts (h : Sound c i n) (hl : n.lookup = some l)
    (hhosts : ¬ n.data.Hosts l.token) :
    Answers n l clk infoProbe
      (n.data.connectClient (l.surroundings clk infoProbe) l.hello l.remoteAddr).1
      (n.data.connectClient (l.surroundings clk infoProbe) l.hello l.remoteAddr).2 := by
  have hindex : n.data.sessionRegistry.tokenIndex.get l.token = none := by
    cases hget : n.data.sessionRegistry.tokenIndex.get l.token with
    | none => rfl
    | some j => exact absurd ((h.hosts_iff l.token).mpr ⟨j, hget⟩) hhosts
  rcases locate_cases hindex l.locatedAt with ⟨entry, hnote, hfresh, hlocate⟩ | hlocate
  · obtain ⟨peer, hpeer, hid⟩ := h.noted hnote
    obtain ⟨addr, haddr⟩ := addrOf_peer hpeer
    rw [hid, ← h.config] at haddr
    have hhome : n.data.findHome (l.surroundings clk infoProbe) l.token =
        (.remote entry.serverId, n.data) := by
      simp only [findHome, Lookup.surroundings, hlocate]
    rw [connectClient_of_remote hhome haddr]
    exact .noted hhosts hnote hfresh haddr
  · cases hfound : n.data.discoverRemoteHome (l.surroundings clk infoProbe) with
    | some serverId =>
      have hhome : n.data.findHome (l.surroundings clk infoProbe) l.token =
          (.remote serverId, n.data.withNotes
            (n.data.sessionRegistry.remoteSessions.insert l.token ⟨serverId, clk.now⟩)) := by
        have hlocate : n.data.sessionRegistry.locate
          (l.surroundings clk infoProbe).locatedAt l.token = .unknown := hlocate
        rw [findHome, hlocate, hfound]
        rfl
      have hanswer : .answered serverId ∈ l.answers := by
        rw [discoverRemoteHome_eq h.secret_ne h.peerRt] at hfound
        obtain ⟨m, hm⟩ := probeHome_eq_some hfound
        exact mem_answers_of_probe hm
      obtain ⟨addr, haddr⟩ := h.addrOf_answer hl hanswer
      rw [connectClient_of_remote hhome haddr]
      exact .told hhosts hanswer haddr
    | none =>
      have hhome : n.data.findHome (l.surroundings clk infoProbe) l.token =
          (.unknown, n.data) := by
        have hlocate : n.data.sessionRegistry.locate
          (l.surroundings clk infoProbe).locatedAt l.token = .unknown := hlocate
        rw [findHome, hlocate, hfound]
      have hpick : n.data.pickPeerForNewSession (l.surroundings clk infoProbe) = none :=
        pickPeerForNewSession_eq_none h.activeCount_le_one h.capacity
      have hconnect : n.data.connectClient (l.surroundings clk infoProbe) l.hello l.remoteAddr =
          (n.data.startSession (l.surroundings clk infoProbe) l.token).2.bindClient
            ⟨n.data.sessionRegistry.nextId⟩ false l.token l.remoteAddr := by
        simp only [connectClient, token_surroundings, hhome, redirectTarget,
          h.isResumable_eq_none hhosts, hpick]
        rfl
      rw [hconnect]
      exact .created hhosts ⟨hlocate, h.found_eq_false hl hfound⟩

/-- **How a client is answered.** -/
theorem Sound.answers (h : Sound c i n) (hl : n.lookup = some l) :
    Answers n l clk infoProbe
      (n.data.connectClient (l.surroundings clk infoProbe) l.hello l.remoteAddr).1
      (n.data.connectClient (l.surroundings clk infoProbe) l.hello l.remoteAddr).2 := by
  by_cases hhosts : n.data.Hosts l.token
  · obtain ⟨j, s, hlive, htok⟩ := hhosts
    have hindex := h.serving.resolves hlive.get
      (SessionState.ne_destroyed_of_resumable hlive.resumable)
    have hres := h.serving.toMirrored.isResumable hlive.get hlive.resumable
    rw [htok] at hindex hres
    have hhome : n.data.findHome (l.surroundings clk infoProbe) l.token =
        (.localTo j, n.data) := by rw [findHome, locate, hindex]
    have hconnect : n.data.connectClient (l.surroundings clk infoProbe) l.hello l.remoteAddr =
        (n.data.resumeSession (l.surroundings clk infoProbe) j).bindClient j true l.token
          l.remoteAddr := by
      simp only [connectClient, token_surroundings, hhome, redirectTarget, hres]
    rw [hconnect]
    exact .resumed hlive htok
  · exact h.answers_of_not_hosts hl hhosts

variable {decision : ConnectDecision} {d : CalloopData S}

/-- An answer leaves the live sessions as they are, or creates one. -/
theorem Answers.evolves (h : Answers n l clk infoProbe decision d) (hsound : Sound c i n) :
    Evolves clk.now none [] n.data d ∨
      n.Homeless l ∧
        Evolves clk.now (some (n.data.newSession (l.surroundings clk infoProbe) l.token)) []
          n.data d := by
  cases h with
  | noted _ _ _ _ => exact .inl (evolves_of_eq clk.now rfl rfl rfl rfl rfl)
  | told _ _ _ => exact .inl (evolves_redirect clk.now _)
  | resumed hlive _ =>
    have hresumed : Evolves (l.surroundings clk infoProbe).activatedAt.now none [] n.data _ :=
      evolves_resumed hlive l.token l.remoteAddr
    exact .inl hresumed
  | created _ hhomeless =>
    exact .inr ⟨hhomeless, evolves_created hsound.serving.toIndexed l.token l.remoteAddr⟩

/-- A client that is answered, if there is one, leaves the live sessions as they are or gets a new
one. -/
theorem Sound.evolves_finish (desktop : Desktop S) (h : Sound c i n) (clk : Clock)
    (infoProbe : ℕ → ProbeOutcome ServerInfoMsg) :
    ∃ new, Evolves clk.now new [] n.data (n.finish desktop clk infoProbe).2.data ∧
      ∀ session, new = some session → ∃ l, n.lookup = some l ∧ n.Homeless l ∧
        session = n.data.newSession (l.surroundings clk infoProbe) l.token := by
  cases hl : n.lookup with
  | none =>
    rw [Node.finish, hl]
    exact ⟨none, evolves_of_eq clk.now rfl rfl rfl rfl rfl, fun _ hnew => absurd hnew (by simp)⟩
  | some l =>
    have hanswers : Answers n l clk infoProbe _ _ := h.answers hl
    rw [finish_eq desktop hl]
    rcases hanswers.evolves h with hevolves | ⟨hhomeless, hevolves⟩
    · exact ⟨none, hevolves, fun _ hnew => absurd hnew (by simp)⟩
    · exact ⟨_, hevolves, fun _ hnew => ⟨l, rfl, hhomeless, (Option.some.inj hnew).symm⟩⟩

/-- The notes after an answer: at most one is new, and it names a peer that has said yes. -/
theorem Answers.notes (h : Answers n l clk infoProbe decision d) {token : SessionToken}
    {entry : RemoteEntry} (hnote : d.sessionRegistry.remoteSessions.get token = some entry) :
    n.data.sessionRegistry.remoteSessions.get token = some entry ∨
      token = l.token ∧ .answered entry.serverId ∈ l.answers ∧ entry.notedAt = clk.now := by
  cases h with
  | noted _ _ _ _ => exact .inl hnote
  | told _ hanswer _ =>
    have hnote := (HashMap.get_insert _ _ _ _).symm.trans hnote
    split_ifs at hnote with htok
    · obtain rfl := Option.some.inj hnote
      exact .inr ⟨htok, hanswer, rfl⟩
    · exact .inl hnote
  | @resumed j _ _ _ =>
    left
    have hsame : (n.data.resumeSession (l.surroundings clk infoProbe)
        j).sessionRegistry.remoteSessions = n.data.sessionRegistry.remoteSessions := by
      unfold resumeSession
      cases ((n.data.sessionRegistry.get j).map (·.state)).getD .destroyed with
      | creating | active | destroyed => rfl
      | suspended => exact (transition_frame _ _ _ _).2.2
    have hget := congrArg (fun m : HashMap SessionToken RemoteEntry => m.get token) hsame
    exact hget.symm.trans hnote
  | created _ _ =>
    left
    have hcreated : (n.data.startSession (l.surroundings clk infoProbe)
        l.token).2.sessionRegistry.remoteSessions =
        n.data.sessionRegistry.remoteSessions.remove l.token := (transition_frame _ _ _ _).2.2
    have hnote : (n.data.sessionRegistry.remoteSessions.remove l.token).get token = some entry :=
      hcreated ▸ hnote
    rw [HashMap.get_remove] at hnote
    split_ifs at hnote
    exact hnote

theorem Sound.finish (desktop : Desktop S) (h : Sound c i n) :
    Sound c i (n.finish desktop clk infoProbe).2 := by
  cases hl : n.lookup with
  | none =>
    rw [Node.finish, hl]
    exact h
  | some l =>
    have hanswers : Answers n l clk infoProbe _ _ := h.answers hl
    rw [finish_eq desktop hl]
    have hserving : Serving (n.data.connectClient (l.surroundings clk infoProbe) l.hello
        l.remoteAddr).2.sessionRegistry := serving_connectClient h.serving l.hello l.remoteAddr
    have hbound : Bound true
        (n.data.connectClient (l.surroundings clk infoProbe) l.hello l.remoteAddr).2 := by
      refine bound_connectClient desktop ?_ l.hello l.remoteAddr
      have hbound := h.bound
      rwa [hl, Option.isNone_some, Bool.and_false] at hbound
    have hbusy : n.begun = true := h.busy (by rw [hl]; rfl)
    obtain ⟨new, hevolves⟩ : ∃ new, Evolves clk.now new [] n.data
        (n.data.connectClient (l.surroundings clk infoProbe) l.hello l.remoteAddr).2 := by
      rcases hanswers.evolves h with hevolves | ⟨-, hevolves⟩
      · exact ⟨none, hevolves⟩
      · exact ⟨_, hevolves⟩
    refine ⟨hserving, hevolves.cluster.trans h.config, ?_, hevolves.capacity.trans h.capacity,
      ?_, fun hl => absurd hl (by simp), fun hnote => ?_,
      fun hl => absurd hl (by simp)⟩
    · exact hevolves.peerRt.trans (h.peerRt.trans (by rw [hevolves.cluster]))
    · simpa only [hbusy, Option.isNone_none, Bool.and_true] using hbound
    · rcases hanswers.notes hnote with hold | ⟨-, hanswer, -⟩
      · exact h.noted hold
      · obtain ⟨m, hm⟩ := List.mem_iff_getElem?.mp hanswer
        obtain ⟨peer, hpeer, hkind⟩ := h.asked hl hm
        obtain heq : _ = peer.id := by simpa using hkind
        exact ⟨peer, List.mem_of_getElem? hpeer, heq.symm⟩

end Node

end WayRay
