import WayRay.Headless.Compositor

/-!
# Shedding new sessions

Above the redirect threshold, a new session is meant to go to a peer that is less loaded.  The peer
is chosen by its load over its weight, but accepted by its load alone.  So a heavy peer that is as
loaded as the local server hides the others: `pickPeerForNewSession_finds_iff` says for which loads
and weights a less loaded peer is found.

A server that is run as it is stays below the threshold: at most one of its sessions is active
(`activeCount_le_one`), which is a fiftieth of the capacity it starts with.
-/

namespace WayRay

/-! ### The first minimum -/

section FirstMinimum

universe u v

variable {α : Type u} {β : Type v} [LinearOrder β] {f : α → β} {key : α → ℕ} {l : List α} {m a : α}

/-- In a list with increasing keys, the first minimum has the least key of all minima. -/
theorem lt_or_le_of_mem_argmin (hkeys : l.Pairwise fun a b => key a < key b)
    (hm : m ∈ l.argmin f) (ha : a ∈ l) : f m < f a ∨ f m = f a ∧ key m ≤ key a := by
  classical
  rcases (List.le_of_mem_argmin ha hm).lt_or_eq with hlt | heq
  · exact Or.inl hlt
  · refine Or.inr ⟨heq, ?_⟩
    have hindex : l.idxOf m ≤ l.idxOf a := List.index_of_argmin hm ha heq.ge
    have hmlt := List.idxOf_lt_length_iff.mpr (List.argmin_mem hm)
    have halt := List.idxOf_lt_length_iff.mpr ha
    rcases hindex.lt_or_eq with hbefore | hsame
    · have hkey := List.pairwise_iff_getElem.mp hkeys _ _ hmlt halt hbefore
      rw [List.getElem_idxOf, List.getElem_idxOf] at hkey
      exact hkey.le
    · rw [(List.idxOf_inj (List.argmin_mem hm)).mp hsame]

end FirstMinimum

namespace CalloopData

variable {S : Type} {d : CalloopData S} {env : Surroundings}

/-! ### The peers that answer -/

/-- The load that a peer advertises. -/
def advertised (cluster : ClusterConfig) (index : ℕ) (peer : ServerEntry) (info : ServerInfoMsg) :
    PeerLoad where
  index := index
  loadFactor := info.activeSessions.toNat / (max info.capacity.toNat 1 : ℕ)
  weight := ((cluster.server peer.id).map (·.weight)).getD 1

/-- A peer that is asked for its load and answers. -/
def Answers (d : CalloopData S) (env : Surroundings) (peer : ServerEntry) (p : PeerLoad) : Prop :=
  d.cluster.clusterSecret.isEmpty = false ∧ d.peerRt = true ∧
    d.cluster.peers[p.index]? = some peer ∧
    ∃ info, env.infoProbe p.index = .answered info ∧
      p = advertised d.cluster p.index peer info

/-- A peer below its capacity and less loaded than the local server. -/
def LessLoaded (d : CalloopData S) (p : PeerLoad) : Prop :=
  p.loadFactor < 1 ∧ p.loadFactor < d.sessionRegistry.loadFactor

/-- The first peer is preferred to the second: by its weight-adjusted load, then by its place. -/
def PreferredTo (p q : PeerLoad) : Prop :=
  p.score < q.score ∨ p.score = q.score ∧ p.index < q.index

section Probes

variable {cluster : ClusterConfig} {probe : ℕ → ProbeOutcome ServerInfoMsg}

/-- The load that the peer at a place of the list advertises, if it answers. -/
def answerOf (cluster : ClusterConfig) (probe : ℕ → ProbeOutcome ServerInfoMsg)
    (entry : ServerEntry × ℕ) : Option PeerLoad :=
  match probe entry.2 with
  | .answered info => some (advertised cluster entry.2 entry.1 info)
  | .budgetExhausted | .invalidAddr | .noAnswer => none

/-- Within the budget, the loads of all peers that answer are collected. -/
theorem probeLoads_eq {index : ℕ} {peers : List ServerEntry}
    (hbudget : ∀ k < peers.length, probe (index + k) ≠ .budgetExhausted) :
    probeLoads cluster probe index peers =
      (peers.zipIdx index).filterMap (answerOf cluster probe) := by
  induction peers generalizing index with
  | nil => rfl
  | cons peer peers ih =>
    have hrest : probeLoads cluster probe (index + 1) peers =
        (peers.zipIdx (index + 1)).filterMap (answerOf cluster probe) := ih fun k hk => by
      rw [Nat.add_right_comm]
      exact hbudget (k + 1) (Nat.succ_lt_succ hk)
    have hfirst := hbudget 0 (Nat.succ_pos _)
    rw [Nat.add_zero] at hfirst
    rw [probeLoads, List.zipIdx_cons, List.filterMap_cons, answerOf]
    cases hprobe : probe index with
    | budgetExhausted => exact absurd hprobe hfirst
    | invalidAddr | noAnswer => simpa [hprobe] using hrest
    | answered info => simpa [hprobe, advertised] using hrest

theorem answerOf_eq_some_iff {entry : ServerEntry × ℕ} {p : PeerLoad} :
    answerOf cluster probe entry = some p ↔
      ∃ info, probe entry.2 = .answered info ∧ p = advertised cluster entry.2 entry.1 info := by
  unfold answerOf
  cases probe entry.2 with
  | budgetExhausted | invalidAddr | noAnswer => simp
  | answered info => simp [eq_comm]

end Probes

/-- The answers of the peers, in the order of the peers. -/
def answers (d : CalloopData S) (env : Surroundings) : List PeerLoad :=
  (d.cluster.peers.zipIdx 0).filterMap (answerOf d.cluster env.infoProbe)

variable (d env) in
/-- Each answer carries the place of its peer, so the places increase. -/
theorem pairwise_index_answers : (d.answers env).Pairwise fun p q => p.index < q.index := by
  have hplaces : ((d.cluster.peers.zipIdx 0).map Prod.snd).Pairwise (· < ·) := by
    rw [List.zipIdx_map_snd]
    exact List.pairwise_lt_range'
  refine (List.pairwise_map.mp hplaces).filterMap _ ?_
  intro entry entry' hlt p hp q hq
  obtain ⟨_, -, rfl⟩ := answerOf_eq_some_iff.mp hp
  obtain ⟨_, -, rfl⟩ := answerOf_eq_some_iff.mp hq
  exact hlt

/-- The answers are those of the peers that are asked and answer. -/
theorem mem_answers_iff (hsecret : d.cluster.clusterSecret.isEmpty = false)
    (hpeerRt : d.peerRt = true) {p : PeerLoad} :
    p ∈ d.answers env ↔ ∃ peer, d.Answers env peer p := by
  simp only [answers, List.mem_filterMap, answerOf_eq_some_iff, Prod.exists,
    List.mem_zipIdx_iff_getElem?]
  constructor
  · rintro ⟨peer, index, hpeer, info, hprobe, rfl⟩
    exact ⟨peer, hsecret, hpeerRt, hpeer, info, hprobe, rfl⟩
  · rintro ⟨peer, -, -, hpeer, info, hprobe, hp⟩
    exact ⟨peer, p.index, hpeer, info, hprobe, hp⟩

/-! ### The choice -/

/-- A load is found again by its place. -/
theorem find?_index {loads : List PeerLoad} (hindex : loads.Pairwise fun p q => p.index < q.index)
    {best : PeerLoad} (hbest : best ∈ loads) :
    loads.find? (fun p => p.index = best.index) = some best := by
  have hnodup : (loads.map (·.index)).Nodup :=
    (List.pairwise_map.mpr hindex).imp fun hlt => Nat.ne_of_lt hlt
  obtain ⟨found, hfound⟩ : ∃ found, loads.find? (fun p => p.index = best.index) = some found :=
    Option.isSome_iff_exists.mp (List.find?_isSome.mpr ⟨best, hbest, decide_eq_true rfl⟩)
  have hsame : found.index = best.index := by simpa using List.find?_some hfound
  rw [hfound, List.inj_on_of_nodup_map hnodup (List.mem_of_find?_eq_some hfound) hbest hsame]

/-- What is chosen if the probes are sent and stay within the budget. -/
theorem pickPeerForNewSession_eq (hload : loadRedirectThreshold < d.sessionRegistry.loadFactor)
    (hsecret : d.cluster.clusterSecret.isEmpty = false) (hpeerRt : d.peerRt = true)
    (hbudget : ∀ i < d.cluster.peers.length, env.infoProbe i ≠ .budgetExhausted) :
    d.pickPeerForNewSession env =
      (((d.answers env).filter fun p => p.loadFactor < 1).argmin PeerLoad.score).bind fun best =>
        if best.loadFactor < d.sessionRegistry.loadFactor then
          (d.cluster.peers[best.index]?).map fun peer => (peer.id, peer.addr)
        else none := by
  have hloads : probeLoads d.cluster env.infoProbe 0 d.cluster.peers = d.answers env :=
    probeLoads_eq fun k hk => by
      rw [Nat.zero_add]
      exact hbudget k hk
  unfold pickPeerForNewSession
  cases hclustered : d.cluster.isClustered with
  | false =>
    -- without peers, nobody answers
    simp [answers, ClusterConfig.peers_eq_nil hclustered]
  | true =>
    simp only [Bool.not_true, Bool.false_eq_true, if_false, not_le.mpr hload, hsecret, hpeerRt,
      hloads, selectLeastLoadedPeer, Option.bind_map]
    cases hbest : ((d.answers env).filter fun p => p.loadFactor < 1).argmin PeerLoad.score with
    | none => rfl
    | some best =>
      have hmem := (List.mem_filter.mp (List.argmin_mem hbest)).1
      simp only [Option.bind_some, Function.comp_apply]
      rw [find?_index (d.pairwise_index_answers env) hmem, Option.bind_some]

/-- The peer that is chosen is preferred to every other one below its capacity. -/
theorem preferredTo_of_argmin {best p : PeerLoad}
    (hbest : best ∈ ((d.answers env).filter fun p => p.loadFactor < 1).argmin PeerLoad.score)
    (hp : p ∈ d.answers env) (hlt : p.loadFactor < 1) : ¬ PreferredTo p best := by
  have hkeys : ((d.answers env).filter fun p => p.loadFactor < 1).Pairwise
      fun p q => p.index < q.index :=
    (d.pairwise_index_answers env).filter _
  have hmem : p ∈ (d.answers env).filter fun p => p.loadFactor < 1 :=
    List.mem_filter.mpr ⟨hp, decide_eq_true hlt⟩
  rintro (hscore | ⟨hscore, hindex⟩)
  · exact absurd (List.le_of_mem_argmin hmem hbest) hscore.not_ge
  · rcases lt_or_le_of_mem_argmin hkeys hbest hmem with hless | ⟨-, hle⟩
    · exact absurd hscore hless.ne'
    · exact absurd hindex hle.not_gt

/-- Nobody is chosen if no peer is below its capacity.  Otherwise the choice is the peer below its
capacity to which none is preferred, if it is less loaded than the local server. -/
theorem pickPeerForNewSession_cases
    (hload : loadRedirectThreshold < d.sessionRegistry.loadFactor)
    (hbudget : ∀ i < d.cluster.peers.length, env.infoProbe i ≠ .budgetExhausted) :
    (d.pickPeerForNewSession env = none ∧ ∀ peer p, d.Answers env peer p → ¬ p.loadFactor < 1) ∨
      ∃ peer best, d.Answers env peer best ∧ best.loadFactor < 1 ∧
        (∀ peer' p, d.Answers env peer' p → p.loadFactor < 1 → ¬ PreferredTo p best) ∧
        d.pickPeerForNewSession env =
          if best.loadFactor < d.sessionRegistry.loadFactor then some (peer.id, peer.addr)
          else none := by
  by_cases hasked : d.cluster.clusterSecret.isEmpty = false ∧ d.peerRt = true
  · obtain ⟨hsecret, hpeerRt⟩ := hasked
    have hpick := pickPeerForNewSession_eq hload hsecret hpeerRt hbudget
    have hanswers : ∀ {p}, p ∈ d.answers env ↔ ∃ peer, d.Answers env peer p :=
      mem_answers_iff hsecret hpeerRt
    cases hbest : ((d.answers env).filter fun p => p.loadFactor < 1).argmin PeerLoad.score with
    | none =>
      rw [hbest, Option.bind_none] at hpick
      refine Or.inl ⟨hpick, fun peer p hp hlt => ?_⟩
      have hnil := List.filter_eq_nil_iff.mp (List.argmin_eq_none.mp hbest)
      exact hnil p (hanswers.mpr ⟨peer, hp⟩) (decide_eq_true hlt)
    | some best =>
      obtain ⟨hmem, hlt⟩ := List.mem_filter.mp (List.argmin_mem hbest)
      obtain ⟨peer, hpeer⟩ := hanswers.mp hmem
      have hplace : d.cluster.peers[best.index]? = some peer := hpeer.2.2.1
      rw [hbest, Option.bind_some, hplace] at hpick
      exact Or.inr ⟨peer, best, hpeer, of_decide_eq_true hlt,
        fun peer' p hp => preferredTo_of_argmin hbest (hanswers.mpr ⟨peer', hp⟩), hpick⟩
  · -- nobody is asked
    refine Or.inl ⟨?_, fun peer p hp => absurd ⟨hp.1, hp.2.1⟩ hasked⟩
    unfold pickPeerForNewSession
    cases hsecret : d.cluster.clusterSecret.isEmpty with
    | true => simp
    | false =>
      have hpeerRt : d.peerRt = false := by
        cases hpeerRt : d.peerRt with
        | true => exact absurd ⟨hsecret, hpeerRt⟩ hasked
        | false => rfl
      simp [hpeerRt]

/-- One of two different answers is preferred to the other. -/
theorem preferredTo_or {peer peer' : ServerEntry} {p q : PeerLoad} (hp : d.Answers env peer p)
    (hq : d.Answers env peer' q) (hne : p ≠ q) : PreferredTo p q ∨ PreferredTo q p := by
  rcases lt_trichotomy p.score q.score with hlt | heq | hgt
  · exact Or.inl (Or.inl hlt)
  · rcases Nat.lt_trichotomy p.index q.index with hbefore | hsame | hafter
    · exact Or.inl (Or.inr ⟨heq, hbefore⟩)
    · -- answers of one place are the same
      obtain ⟨-, -, hpeer, info, hprobe, hpEq⟩ := hp
      obtain ⟨-, -, hpeer', info', hprobe', hqEq⟩ := hq
      rw [← hsame] at hpeer' hprobe' hqEq
      obtain rfl : peer = peer' := Option.some.inj (hpeer.symm.trans hpeer')
      obtain rfl : info = info' := ProbeOutcome.answered.inj (hprobe.symm.trans hprobe')
      exact absurd (hpEq.trans hqEq.symm) hne
    · exact Or.inr (Or.inr ⟨heq.symm, hafter⟩)
  · exact Or.inr (Or.inl hgt)

/-- A new session is redirected exactly if some peer is less loaded, and then to such a peer. -/
def FindsLessLoaded (d : CalloopData S) (env : Surroundings) : Prop :=
  ((d.pickPeerForNewSession env).isSome ↔ ∃ peer p, d.Answers env peer p ∧ d.LessLoaded p) ∧
    ∀ target, d.pickPeerForNewSession env = some target →
      ∃ peer p, d.Answers env peer p ∧ d.LessLoaded p ∧ target = (peer.id, peer.addr)

/-- No peer below its capacity that is as loaded as the local server hides the less loaded ones. -/
def NoneHidden (d : CalloopData S) (env : Surroundings) : Prop :=
  ∀ busyPeer busy, d.Answers env busyPeer busy → busy.loadFactor < 1 →
    d.sessionRegistry.loadFactor ≤ busy.loadFactor →
    (∃ peer p, d.Answers env peer p ∧ d.LessLoaded p) →
      ∃ peer p, d.Answers env peer p ∧ d.LessLoaded p ∧ PreferredTo p busy

/-- **Load balancing**: for a local load above the redirect threshold and probes within the budget,
a new session is redirected exactly if some peer that answers is below its capacity and less loaded
than the local server, and to such a peer, if and only if each peer that is below its capacity but
as loaded as the local server comes after a less loaded one, by load over weight and then by place,
where there is any. -/
theorem pickPeerForNewSession_finds_iff
    (hload : loadRedirectThreshold < d.sessionRegistry.loadFactor)
    (hbudget : ∀ i < d.cluster.peers.length, env.infoProbe i ≠ .budgetExhausted) :
    d.FindsLessLoaded env ↔ d.NoneHidden env := by
  rcases pickPeerForNewSession_cases hload hbudget with
    ⟨hpick, hfull⟩ | ⟨peer, best, hbest, hlt, hfirst, hpick⟩
  · have hnone : ¬∃ peer p, d.Answers env peer p ∧ d.LessLoaded p := by
      rintro ⟨peer, p, hp, hless⟩
      exact hfull peer p hp hless.1
    refine iff_of_true ⟨?_, fun target htarget => ?_⟩ fun _ _ _ _ _ hless => absurd hless hnone
    · simp [hpick, hnone]
    · rw [hpick] at htarget
      exact absurd htarget.symm (Option.some_ne_none target)
  · by_cases hless : best.loadFactor < d.sessionRegistry.loadFactor
    · -- the choice is accepted, and preferred to all busy peers
      rw [if_pos hless] at hpick
      have hexists : ∃ peer p, d.Answers env peer p ∧ d.LessLoaded p :=
        ⟨peer, best, hbest, hlt, hless⟩
      refine iff_of_true ⟨?_, fun target htarget => ?_⟩ fun busyPeer busy hbusy hbusyLt hle _ => ?_
      · simp [hpick, hexists]
      · rw [hpick] at htarget
        exact ⟨peer, best, hbest, ⟨hlt, hless⟩, (Option.some.inj htarget).symm⟩
      · have hne : best ≠ busy := by
          rintro rfl
          exact absurd hless hle.not_gt
        exact ⟨peer, best, hbest, ⟨hlt, hless⟩,
          (preferredTo_or hbest hbusy hne).resolve_right (hfirst busyPeer busy hbusy hbusyLt)⟩
    · -- the choice is refused, and nothing is preferred to it
      rw [if_neg hless] at hpick
      constructor
      · rintro ⟨hsome, -⟩ _ _ _ _ _ hexists
        rw [← hsome, hpick] at hexists
        exact absurd hexists Bool.false_ne_true
      · intro hvisible
        have hnone : ¬∃ peer p, d.Answers env peer p ∧ d.LessLoaded p := by
          intro hexists
          obtain ⟨peer', p, hp, hpLess, hpreferred⟩ :=
            hvisible peer best hbest hlt (not_lt.mp hless) hexists
          exact hfirst peer' p hp hpLess.1 hpreferred
        refine ⟨?_, fun target htarget => ?_⟩
        · simp [hpick, hnone]
        · rw [hpick] at htarget
          exact absurd htarget.symm (Option.some_ne_none target)

/-! ### A crowded server -/

/-- A registry with a number of active sessions. -/
def crowded (sessions : ℕ) : SessionRegistry :=
  (List.range sessions).foldl
    (fun r _ =>
      let (id, r) := r.createSession ⟨0, 0⟩ ⟨"t"⟩
      (r.activate ⟨0, 0⟩ id).2)
    (SessionRegistry.withCluster "a" defaultCapacity)

/-- Of its two peers, one has ten times the weight. -/
def crowdedServer : CalloopData Unit :=
  { boot () ⟨[], 0, false, 0⟩
      ⟨"a", "s", [⟨"a", "10.0.0.1:4433", 1, ""⟩, ⟨"b", "10.0.0.2:4433", 10, ""⟩,
        ⟨"c", "10.0.0.3:4433", 1, ""⟩]⟩
      true false none ⟨0, 0⟩ .stored with
    sessionRegistry := crowded 46 }

/-- The heavy peer is more crowded than the local server, the other one is half empty. -/
def crowdedPeer : Surroundings :=
  { quiet with infoProbe := fun index => .answered ⟨"", if index = 0 then 48 else 25, 50⟩ }

theorem crowdedServer_load : loadRedirectThreshold < crowdedServer.sessionRegistry.loadFactor := by
  decide +kernel

theorem crowdedPeer_answers (index : ℕ) : crowdedPeer.infoProbe index ≠ .budgetExhausted := by
  intro h
  cases h

theorem pickPeerForNewSession_finds_iff_crowded :
    crowdedServer.FindsLessLoaded crowdedPeer ↔ crowdedServer.NoneHidden crowdedPeer :=
  pickPeerForNewSession_finds_iff crowdedServer_load fun index _ => crowdedPeer_answers index

/-- The session stays, though a peer is half empty. -/
theorem not_findsLessLoaded_crowded :
    loadRedirectThreshold < crowdedServer.sessionRegistry.loadFactor ∧
      (∀ i, crowdedPeer.infoProbe i ≠ .budgetExhausted) ∧
      ¬crowdedServer.FindsLessLoaded crowdedPeer := by
  refine ⟨crowdedServer_load, crowdedPeer_answers, ?_⟩
  rintro ⟨hsome, -⟩
  have hpick : crowdedServer.pickPeerForNewSession crowdedPeer = none := by decide +kernel
  let peer : ServerEntry := ⟨"c", "10.0.0.3:4433", 1, ""⟩
  let p : PeerLoad := advertised crowdedServer.cluster 1 peer ⟨"", 25, 50⟩
  have hanswers : crowdedServer.Answers crowdedPeer peer p := ⟨rfl, rfl, rfl, _, rfl, rfl⟩
  have hless : crowdedServer.LessLoaded p := by
    unfold LessLoaded
    decide +kernel
  rw [hpick] at hsome
  exact absurd (hsome.mpr ⟨peer, p, hanswers, hless⟩) Bool.false_ne_true

end CalloopData

end WayRay
