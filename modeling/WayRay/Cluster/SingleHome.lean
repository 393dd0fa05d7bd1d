import WayRay.Collections.GuardedRun
import WayRay.Cluster.Lookups

/-!
# A token has a single home

Before a server creates a session for a token, it asks its peers whether they host one.  Asking and
creating are not one step, so that two servers can ask each other before either creates
(`two_homes`).

`Orderly` excludes this: a server creates a session for a token only when all its peers have been
asked, and when no other server that still looks for the token has already heard no from it.  Under
this condition, and if no session is restored at start-up, no two servers ever hold a live session
for one token: `single_home`.

The invariant `SingleHome` is stronger: no two servers publish one token, and what a server has
denied to a connect in progress it does not publish.
-/

namespace WayRay

open SessionRegistry CalloopData GuardedRun

namespace Cluster

variable {S : Type} {c : ClusterSetup} {s : Cluster S} {i j : String} {n : Node S}

/-- A server answers a client only when it has asked every peer that it has to, and creates a
session only if no other server that looks for the token has heard no from it. -/
def Orderly (c : ClusterSetup) (s : Cluster S) : ClusterEvent S → Prop
  | .finish i _ => ∀ l, (s.nodes i).lookup = some l →
    (s.nodes i).nextPeer = none ∧
      ((s.nodes i).Homeless l → ∀ k ∈ c.ids, ∀ l', (s.nodes k).lookup = some l' →
        l'.token = l.token → ¬ DeniedBy c k l' i)
  | .elapse _ | .announce _ _ _ _ | .ask _ | .loop _ _ => True

/-- No token is published twice, nor by a server that has denied it to a connect in progress. -/
structure SingleHome (c : ClusterSetup) (s : Cluster S) : Prop where
  sound : AllSound c s
  covered : ∀ i ∈ c.ids, Covered (s.nodes i).data
  single : ∀ i ∈ c.ids, ∀ j ∈ c.ids, ∀ t, t ∈ (s.nodes i).data.localTokens →
    t ∈ (s.nodes j).data.localTokens → i = j
  denied : ∀ k ∈ c.ids, ∀ l, (s.nodes k).lookup = some l → ∀ i, DeniedBy c k l i →
    l.token.str ∉ (s.nodes i).data.localTokens

/-! ### One step -/

/-- Nobody else publishes the token, and the server has denied it to nobody. -/
structure Free (c : ClusterSetup) (s : Cluster S) (i t : String) : Prop where
  unpublished : ∀ j ∈ c.ids, j ≠ i → t ∉ (s.nodes j).data.localTokens
  undenied : ∀ k ∈ c.ids, ∀ l, (s.nodes k).lookup = some l → l.token.str = t → ¬ DeniedBy c k l i

/-- One server changes: it publishes no token that is not free. -/
theorem SingleHome.set (h : SingleHome c s) (hsound : AllSound c (s.set i n))
    (hcovered : i ∈ c.ids → Covered n.data) (hpublished : i ∈ c.ids → ∀ t ∈ n.data.localTokens,
      t ∈ (s.nodes i).data.localTokens ∨ Free c s i t)
    (hlookup : i ∈ c.ids → ∀ l, n.lookup = some l → ∀ j, DeniedBy c i l j →
      l.token.str ∉ (s.nodes j).data.localTokens) : SingleHome c (s.set i n) where
  sound := hsound
  covered := forall_set (P := fun _ n => Covered n.data) h.covered hcovered
  single j hj k hk t ht ht' := by
    by_contra hjk
    -- of two servers, one at most has changed
    have hone : ∀ j ∈ c.ids, j ≠ i → i ∈ c.ids → t ∈ (s.nodes j).data.localTokens →
        t ∉ n.data.localTokens := by
      intro j hj hji hi ht ht'
      rcases hpublished hi t ht' with hold | hfree
      · exact hji (h.single j hj i hi t ht hold)
      · exact hfree.unpublished j hj hji ht
    by_cases hji : j = i
    · subst hji
      rw [set_self] at ht
      rw [set_of_ne (Ne.symm hjk)] at ht'
      exact hone k hk (Ne.symm hjk) hj ht' ht
    · rw [set_of_ne hji] at ht
      by_cases hki : k = i
      · subst hki
        rw [set_self] at ht'
        exact hone j hj hjk hk ht ht'
      · rw [set_of_ne hki] at ht'
        exact hjk (h.single j hj k hk t ht ht')
  denied k hk l hl j hdenied := by
    obtain ⟨hj, hjk⟩ := hdenied.peer
    by_cases hki : k = i
    · subst hki
      rw [set_self] at hl
      rw [set_of_ne hjk]
      exact hlookup hk l hl j hdenied
    · rw [set_of_ne hki] at hl
      by_cases hji : j = i
      · subst hji
        rw [set_self]
        intro ht
        rcases hpublished hj _ ht with hold | hfree
        · exact h.denied k hk l hl j hdenied hold
        · exact hfree.undenied k hk l hl rfl hdenied
      · rw [set_of_ne hji]
        exact h.denied k hk l hl j hdenied

/-- A server that creates a session has asked all the others, and none has it. -/
theorem SingleHome.free (h : SingleHome c s) (hi : i ∈ c.ids) {l : Lookup}
    (hl : (s.nodes i).lookup = some l) (hnext : (s.nodes i).nextPeer = none)
    (hhomeless : (s.nodes i).Homeless l)
    (hundenied : ∀ k ∈ c.ids, ∀ l', (s.nodes k).lookup = some l' → l'.token = l.token →
      ¬ DeniedBy c k l' i) : Free c s i l.token.str where
  unpublished j hj hji := h.denied i hi l hl j (h.sound.deniedBy hi hl hnext hhomeless hj hji)
  undenied k hk l' hl' htok := hundenied k hk l' hl' (congrArg SessionToken.mk htok)

/-- **Step lemma**: orderly steps keep the invariant. -/
theorem singleHome_step (desktop : Desktop S) (h : SingleHome c s) (e : ClusterEvent S)
    (horderly : Orderly c s e) : SingleHome c (s.step desktop e) := by
  have hsound := allSound_step desktop h.sound e
  cases e with
  | elapse clk =>
    rw [step]
    split_ifs
    · exact ⟨h.sound, h.covered, h.single, h.denied⟩
    · exact h
  | announce i hello remoteAddr randomToken =>
    refine h.set hsound (fun hi => ?_) (fun _ t ht => .inl ?_) (fun hi l hl j hdenied => ?_)
    · rw [Node.data_announce]
      exact h.covered i hi
    · rwa [Node.data_announce] at ht
    · exact h.denied i hi l (hdenied.of_announce hl) j hdenied
  | ask i =>
    rw [step] at hsound ⊢
    split at hsound
    · rename_i l peer hl hpeer
      refine h.set hsound (h.covered i) (fun _ t ht => .inl ht) (fun hi l' hl' j hdenied => ?_)
      obtain ⟨htok, hold | hno⟩ := h.sound.deniedBy_ask hi hl hpeer hl' hdenied
      · exact htok ▸ h.denied i hi l hl j hold
      · -- the peer has just said no
        exact htok ▸ hno
    · exact h
  | finish i infoProbe =>
    refine h.set hsound (fun hi => ?_) (fun hi t ht => ?_) fun _ l hl =>
      absurd (hl.symm.trans (Node.lookup_finish desktop _ _ _)) (by simp)
    · obtain ⟨new, hevolves, -⟩ := (h.sound i hi).evolves_finish desktop s.clock infoProbe
      exact hevolves.covered (h.covered i hi)
    · obtain ⟨new, hevolves, hnew⟩ := (h.sound i hi).evolves_finish desktop s.clock infoProbe
      by_cases hfree : ∃ session, new = some session ∧ session.token.str = t
      · -- a session of this token has been created
        obtain ⟨session, hsession, rfl⟩ := hfree
        obtain ⟨l, hl, hhomeless, rfl⟩ := hnew session hsession
        obtain ⟨hnext, hundenied⟩ := horderly l hl
        exact .inr (h.free hi hl hnext hhomeless (hundenied hhomeless))
      · exact .inl (hevolves.published_of_published (h.covered i hi) ht
          fun session hsession heq => hfree ⟨session, hsession, heq⟩)
  | loop i e =>
    have hevolves := (s.nodes i).evolves_loop desktop s.clock e
    refine h.set hsound (fun hi => hevolves.covered (h.covered i hi))
      (fun hi t ht => .inl (hevolves.published_of_published (h.covered i hi) ht (by simp)))
      fun hi l hl => h.denied i hi l ?_
    rwa [Node.lookup_loop] at hl

/-! ### Whole runs -/

/-- No server finds a session in its database. -/
def NothingRestored (c : ClusterSetup) (hosts : String → Host S) : Prop :=
  ∀ i ∈ c.ids, ∀ db, (hosts i).stateDb = some db →
    ∀ j, (SessionStore.sqlite (.openFile db)).liveRow j = none

theorem singleHome_start {hosts : String → Host S} (hrows : NothingRestored c hosts)
    (clk : Clock) : SingleHome c (start c hosts clk) where
  sound := allSound_start (fun i hi db hdb k _ p _ hp =>
    absurd (hp.symm.trans (hrows i hi db hdb k)) (by simp)) clk
  covered i hi t ht := by
    have haccurate := (accurate_boot_iff (hosts i).state (hosts i).frame (c.config i)
      (c.config i).isClustered (hosts i).launcherLinked (hosts i).stateDb clk (hosts i).find).mpr
      (hrows i hi)
    exact (haccurate.tokens t).mpr ht
  single _ _ _ _ _ ht := absurd ht List.not_mem_nil
  denied _ _ _ hl := absurd hl (by simp [start])

/-- **Run lemma**: the invariant holds throughout an orderly run. -/
theorem singleHome_run (desktop : Desktop S) {hosts : String → Host S}
    (hrows : NothingRestored c hosts) {clk : Clock} {events : List (ClusterEvent S)}
    (horderly : Along (step desktop) (Orderly c) (start c hosts clk) events) :
    SingleHome c (run desktop (start c hosts clk) events) :=
  Along.invariant (I := SingleHome c) (fun _ e h he => singleHome_step desktop h e he)
    (singleHome_start hrows clk) horderly

/-- **A token has a single home.**  Whatever the servers of a cluster do, and in whatever order: if
no session is restored at start-up and every step is orderly, no two servers hold a live session for
one token. -/
theorem single_home (desktop : Desktop S) (c : ClusterSetup) (hosts : String → Host S) (clk : Clock)
    (events : List (ClusterEvent S)) (hrows : NothingRestored c hosts)
    (horderly : Along (step desktop) (Orderly c) (start c hosts clk) events) :
    let s := run desktop (start c hosts clk) events
    ∀ i ∈ c.ids, ∀ j ∈ c.ids, ∀ a b session session',
      (s.nodes i).data.sessionRegistry.get a = some session →
      (s.nodes j).data.sessionRegistry.get b = some session' →
      session.state.resumable = true → session'.state.resumable = true →
      session.token = session'.token → i = j := by
  intro s i hi j hj a b session session' hs hs' hlive hlive' htok
  have h : SingleHome c s := singleHome_run desktop hrows horderly
  have hpublished := h.covered i hi
    (mem_resumableTokens_iff_live.mpr ⟨a, session, ⟨hs, hlive⟩, rfl⟩)
  have hpublished' := h.covered j hj
    (mem_resumableTokens_iff_live.mpr ⟨b, session', ⟨hs', hlive'⟩, rfl⟩)
  exact h.single i hi j hj _ hpublished (htok ▸ hpublished')

section Witness

/-- Two servers. -/
def pair : ClusterSetup where
  servers := [⟨"a", "10.0.0.1:4433", 100, ""⟩, ⟨"b", "10.0.0.2:4433", 100, ""⟩]
  clusterSecret := "secret"
  nodup_ids := by decide
  nodup_addrs := by decide
  secret_ne := by decide

/-- Servers without a database. -/
def freshHosts : String → Host Unit := fun _ => ⟨(), ⟨[], 0, false, 0⟩, false, none, .stored⟩

/-- A client of token `"t"` comes to a server. -/
def clientAt (i : String) : ClusterEvent Unit := .announce i ⟨2, [], some "t"⟩ "c" "r"

/-- A client comes to each server; each asks the other, then both answer. -/
def crossing : List (ClusterEvent Unit) :=
  [clientAt "a", clientAt "b", .ask "a", .ask "b", .finish "a" fun _ => .noAnswer,
    .finish "b" fun _ => .noAnswer]

/-- Both servers create a session. -/
theorem two_homes :
    let s := run nullDesktop (start pair freshHosts ⟨0, 0⟩) crossing
    (s.nodes "a").data.Hosts ⟨"t"⟩ ∧ (s.nodes "b").data.Hosts ⟨"t"⟩ :=
  ⟨hosts_iff_mem_resumableTokens.mpr (by decide +kernel),
    hosts_iff_mem_resumableTokens.mpr (by decide +kernel)⟩

/-- A client comes to the first server and is answered, then one comes to the second. -/
def inTurn : List (ClusterEvent Unit) :=
  [clientAt "a", .ask "a", .finish "a" fun _ => .noAnswer, clientAt "b", .ask "b",
    .finish "b" fun _ => .noAnswer]

/-- Only the first server has a session. -/
theorem single_home_inTurn :
    let s := run nullDesktop (start pair freshHosts ⟨0, 0⟩) inTurn
    ¬ ∃ a b session session',
      (s.nodes "a").data.sessionRegistry.get a = some session ∧
      (s.nodes "b").data.sessionRegistry.get b = some session' ∧
      session.state.resumable = true ∧ session'.state.resumable = true ∧
      session.token = session'.token := by
  intro s
  rintro ⟨a, b, session, session', hs, hs', hlive, hlive', htok⟩
  refine absurd (single_home nullDesktop pair freshHosts ⟨0, 0⟩ inTurn
    (fun _ _ _ hdb => absurd hdb (by simp [freshHosts])) ?_ "a" (by decide) "b" (by decide) a b
    session session' hs hs' hlive hlive' htok) (by decide)
  refine ⟨trivial, trivial, fun l hl => ⟨by decide, fun _ k hk l' hl' _ hdenied => ?_⟩, trivial,
    trivial, fun l hl => ⟨by decide +kernel, fun hhomeless => ?_⟩, trivial⟩
  · -- the second server has no client yet
    rcases List.mem_cons.mp hk with rfl | hk
    · exact hdenied.peer.2 rfl
    · obtain rfl := List.mem_singleton.mp hk
      have hidle : ((run nullDesktop (start pair freshHosts ⟨0, 0⟩) (inTurn.take 2)).nodes
          "b").lookup = none := by decide +kernel
      exact absurd (hl'.symm.trans hidle) (by simp)
  · -- the first server has said yes
    have hfound : ((run nullDesktop (start pair freshHosts ⟨0, 0⟩) (inTurn.take 5)).nodes
        "b").lookup.all (·.found) = true := by decide +kernel
    have hl : ((run nullDesktop (start pair freshHosts ⟨0, 0⟩) (inTurn.take 5)).nodes
        "b").lookup = some l := hl
    rw [hl] at hfound
    exact absurd (hfound.symm.trans hhomeless.2) (by simp)

end Witness

end Cluster

end WayRay
