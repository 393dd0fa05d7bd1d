import WayRay.Cluster.Node

/-!
# Looking for a session

All servers of a cluster are sound in every state (`allSound_start`, `allSound_step`), if the rows
of each database carry different tokens.  So a server that looks for a session asks each of the
others, and each says whether it has published the token.
-/

namespace WayRay

open SessionRegistry CalloopData

namespace Cluster

variable {S : Type} {c : ClusterSetup} {s : Cluster S} {i j : String} {n : Node S}

/-- All servers are sound. -/
def AllSound (c : ClusterSetup) (s : Cluster S) : Prop := ∀ i ∈ c.ids, (s.nodes i).Sound c i

/-- Server `i`, asked for this lookup of server `k`, has said no. -/
def DeniedBy (c : ClusterSetup) (k : String) (l : Lookup) (i : String) : Prop :=
  ∃ (m : ℕ) (peer : ServerEntry), (c.config k).peers[m]? = some peer ∧ peer.id = i ∧
    l.answers[m]? = some .noAnswer

/-! ### Peers -/

theorem mem_peers {peer : ServerEntry} :
    peer ∈ (c.config i).peers ↔ peer ∈ c.servers ∧ peer.id ≠ i := by
  rw [ClusterConfig.peers, List.mem_filter, decide_eq_true_iff]
  exact Iff.rfl

theorem DeniedBy.peer {l : Lookup} (h : DeniedBy c j l i) : i ∈ c.ids ∧ i ≠ j := by
  obtain ⟨m, peer, hpeer, rfl, -⟩ := h
  obtain ⟨hmem, hne⟩ := mem_peers.mp (List.mem_of_getElem? hpeer)
  exact ⟨List.mem_map_of_mem hmem, hne⟩

/-- Every other server is a peer. -/
theorem exists_peer (hj : j ∈ c.ids) (hne : j ≠ i) :
    ∃ (m : ℕ) (peer : ServerEntry), (c.config i).peers[m]? = some peer ∧ peer.id = j := by
  obtain ⟨peer, hpeer, rfl⟩ := List.mem_map.mp hj
  obtain ⟨m, hm⟩ := List.mem_iff_getElem?.mp (mem_peers.mpr ⟨hpeer, hne⟩)
  exact ⟨m, peer, hm, rfl⟩

/-- What a server answers is what it has published. -/
theorem answer_eq (h : n.Sound c j) (t : String) :
    n.answer t c.clusterSecret =
      if t ∈ n.data.localTokens then .answered j else .noAnswer := by
  have hconfig : n.serverConfig = ⟨j, UInt32.ofNat defaultCapacity, c.clusterSecret⟩ := by
    rw [Node.serverConfig, h.config]
    rfl
  rw [Node.answer, hconfig, queryPeerForToken_lookup _ _ _ _ c.secret_ne]
  by_cases ht : t ∈ n.data.localTokens
  · simp [ht]
  · simp [ht]

/-- The peer whose turn it is says whether it has published the token. -/
theorem AllSound.answer_nextPeer (h : AllSound c s) (hi : i ∈ c.ids) {peer : ServerEntry}
    (hpeer : (s.nodes i).nextPeer = some peer) (t : String) :
    (s.nodes peer.id).answer t (s.nodes i).data.cluster.clusterSecret =
      if t ∈ (s.nodes peer.id).data.localTokens then .answered peer.id else .noAnswer := by
  obtain ⟨l, -, -, -, hnext⟩ := (h i hi).nextPeer_eq_some hpeer
  obtain ⟨hmem, -⟩ := mem_peers.mp (List.mem_of_getElem? hnext)
  rw [(h i hi).config]
  exact answer_eq (h peer.id (List.mem_map_of_mem hmem)) t

/-- A server that does not know the token and has asked everybody has heard no from all the
others. -/
theorem AllSound.deniedBy (h : AllSound c s) (hi : i ∈ c.ids) {l : Lookup}
    (hl : (s.nodes i).lookup = some l) (hnext : (s.nodes i).nextPeer = none)
    (hhomeless : (s.nodes i).Homeless l) (hj : j ∈ c.ids) (hji : j ≠ i) : DeniedBy c i l j := by
  obtain ⟨m, peer, hpeer, rfl⟩ := exists_peer hj hji
  have hsound := h i hi
  have hclustered : (s.nodes i).data.cluster.isClustered = true := by
    rw [hsound.config]
    obtain ⟨hmem, hne⟩ := mem_peers.mp (List.mem_of_getElem? hpeer)
    exact List.any_eq_true.mpr ⟨peer, hmem, decide_eq_true hne⟩
  have hsearches : (s.nodes i).Searches l := ⟨hhomeless.1, hsound.peerRt.trans hclustered⟩
  rw [Node.nextPeer, hl, Option.bind_some, if_pos ⟨hsearches, hhomeless.2⟩, hsound.config] at hnext
  have hasked : m < l.answers.length := by
    have := (List.getElem?_eq_some_iff.mp hpeer).1
    have := List.getElem?_eq_none_iff.mp hnext
    omega
  have hanswer := List.getElem?_eq_getElem hasked
  refine ⟨m, peer, hpeer, rfl, ?_⟩
  obtain ⟨peer', -, hkind⟩ := hsound.asked hl hanswer
  rcases hkind with hyes | hno
  · -- nobody has said yes
    have hfound := List.any_eq_false.mp hhomeless.2 _ (List.mem_of_getElem? hanswer)
    rw [hyes] at hfound
    exact absurd rfl hfound
  · rw [hanswer, hno]

/-- A connect that somebody has denied the token to was announced before. -/
theorem DeniedBy.of_announce {clk : Clock} {hello : ClientHello} {remoteAddr randomToken : String}
    {l : Lookup} (hdenied : DeniedBy c i l j)
    (hl : (n.announce clk hello remoteAddr randomToken).lookup = some l) : n.lookup = some l := by
  rcases Node.lookup_announce hl with hl | hnone
  · exact hl
  · obtain ⟨m, -, -, -, hm⟩ := hdenied
    exact absurd hm (by simp [hnone])

/-- Who has denied the token to a server that has just asked has done so before, or is the peer
whose turn it was and has not published it. -/
theorem AllSound.deniedBy_ask (h : AllSound c s) (hi : i ∈ c.ids) {l l' : Lookup}
    (hl : (s.nodes i).lookup = some l) {peer : ServerEntry}
    (hpeer : (s.nodes i).nextPeer = some peer)
    (hl' : ((s.nodes i).hear s.clock ((s.nodes peer.id).answer l.token.str
      (s.nodes i).data.cluster.clusterSecret)).lookup = some l') (hdenied : DeniedBy c i l' j) :
    l'.token = l.token ∧
      (DeniedBy c i l j ∨ l.token.str ∉ (s.nodes j).data.localTokens) := by
  rw [h.answer_nextPeer hi hpeer] at hl'
  simp only [Node.hear, hl, Option.map_some, Option.some.injEq] at hl'
  subst hl'
  refine ⟨rfl, ?_⟩
  obtain ⟨_, hl', -, -, hnext⟩ := (h i hi).nextPeer_eq_some hpeer
  obtain rfl := Option.some.inj (hl.symm.trans hl')
  obtain ⟨m, peer', hpeer', rfl, hm⟩ := hdenied
  rcases Node.getElem?_concat_cases hm with hold | ⟨rfl, hno⟩
  · exact .inl ⟨m, peer', hpeer', rfl, hold⟩
  · obtain rfl := Option.some.inj (hpeer'.symm.trans hnext)
    exact .inr fun ht => absurd ((if_pos ht).symm.trans hno.symm) (by simp)

/-! ### The servers are sound -/

/-- One server changes. -/
theorem AllSound.set (h : AllSound c s) (hn : (s.nodes i).Sound c i → n.Sound c i) :
    AllSound c (s.set i n) :=
  forall_set (P := fun j n => n.Sound c j) h fun hi => hn (h i hi)

/-- **Step lemma**: every step keeps the servers sound. -/
theorem allSound_step (desktop : Desktop S) (h : AllSound c s) (e : ClusterEvent S) :
    AllSound c (s.step desktop e) := by
  cases e with
  | elapse clk =>
    rw [step]
    split_ifs
    · exact h
    · exact h
  | announce i hello remoteAddr randomToken =>
    exact h.set fun hsound => hsound.announce hello remoteAddr randomToken
  | ask i =>
    rw [step]
    split
    · rename_i l peer hl hpeer
      refine forall_set (P := fun j n => n.Sound c j) h fun hi => (h i hi).hear hpeer ?_
      rw [h.answer_nextPeer hi hpeer]
      split_ifs
      · exact .inl rfl
      · exact .inr rfl
    · exact h
  | finish i infoProbe => exact h.set fun hsound => hsound.finish desktop
  | loop i e => exact h.set fun hsound => hsound.loop desktop e

theorem remoteSessions_start (c : ClusterSetup) (hosts : String → Host S) (clk : Clock)
    (i : String) : ((start c hosts clk).nodes i).data.sessionRegistry.remoteSessions = ∅ := by
  simp only [start, boot]
  cases (hosts i).stateDb with
  | none => rfl
  | some db =>
    rw [remoteSessions_restorePersisted]
    rfl

/-- The live rows of every database carry different tokens. -/
theorem allSound_start {hosts : String → Host S} (hdistinct : ∀ i ∈ c.ids, ∀ db,
    (hosts i).stateDb = some db → (SessionStore.sqlite (.openFile db)).LiveTokensDistinct)
    (clk : Clock) : AllSound c (start c hosts clk) := fun i hi =>
  { serving := serving_boot (hosts i).state (hosts i).frame (c.config i) (c.config i).isClustered
      (hosts i).launcherLinked clk (hosts i).find (hdistinct i hi)
    config := rfl
    peerRt := rfl
    capacity := by
      simp only [start, boot]
      cases (hosts i).stateDb with
      | none => rfl
      | some db =>
        rw [capacity_restorePersisted]
        rfl
    bound := bound_boot (hosts i).state (hosts i).frame (c.config i) (c.config i).isClustered
      (hosts i).launcherLinked (hosts i).stateDb clk (hosts i).find
    busy := fun h => absurd h (by simp [start])
    noted := fun h => by
      rw [remoteSessions_start] at h
      exact absurd h (by simp)
    asked := fun h => absurd h (by simp [start]) }

end Cluster

end WayRay
