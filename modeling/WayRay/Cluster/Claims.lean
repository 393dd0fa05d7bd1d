import WayRay.Collections.GuardedRun
import WayRay.Cluster.Lookups

/-!
# Servers that claim one token

A server claims a token if it hosts it or would say so: what it has published outlives the session
when the session expires.  Several servers may host one token, as two of them can ask each other
before either creates a session, or restore sessions for it.

`Agreed` is the invariant that of two servers that claim one token, both host it.  It holds
throughout a run where a session expires only on a server that is alone with its token
(`ExpiresAlone`), and where the servers answer each other in time (`InTime`).
-/

namespace WayRay

open SessionRegistry GuardedRun

/-- Timeout for a single peer probe, in nanoseconds. -/
def peerProbeTimeout : ℕ := 150 * 1000000

namespace CalloopData

variable {S : Type} {d d' : CalloopData S} {token : SessionToken} {now : Instant}
  {new : Option Session} {lost : List SessionId}

/-- The server hosts the token, or would say so. -/
def Claims (d : CalloopData S) (token : SessionToken) : Prop :=
  token.str ∈ d.localTokens ∨ d.Hosts token

/-- A token that is claimed after an event was claimed before, unless its session is new. -/
theorem Evolves.claims (h : Evolves now new lost d d') (hclaims : d'.Claims token)
    (hnew : ∀ s, new = some s → s.token ≠ token) : d.Claims token := by
  have hlive : token.str ∈ d'.sessionRegistry.resumableTokens → d.Claims token := fun ht =>
    .inr (hosts_iff_mem_resumableTokens.mpr (h.live_of_live ht fun s hs heq =>
      hnew s hs (congrArg SessionToken.mk heq)))
  rcases hclaims with ht | hhosts
  · rcases h.published with ⟨-, hsame⟩ | hpublished
    · exact .inl (hsame ▸ ht)
    · exact hlive (hpublished ▸ ht)
  · exact hlive hhosts.mem_resumableTokens

/-- A token that is hosted before an event is hosted afterwards, or a session of it has expired. -/
theorem Evolves.hosts (h : Evolves now new lost d d') (hhosts : d.Hosts token) :
    d'.Hosts token ∨ ∃ i ∈ lost, ∃ s, d.sessionRegistry.Live i s ∧ s.token = token := by
  obtain ⟨i, s, hlive, htok⟩ := hhosts
  by_cases hi : i ∈ lost
  · exact .inr ⟨i, hi, s, hlive, htok⟩
  · obtain ⟨s', hlive', hcontinues⟩ := h.forth hlive hi
    exact .inl ⟨i, s', hlive', hcontinues.token.trans htok⟩

/-- Without a new session and without an expired one, the server hosts what it did. -/
theorem Evolves.hosts_iff (h : Evolves now none [] d d') : d'.Hosts token ↔ d.Hosts token := by
  constructor
  · intro hhosts
    exact hosts_iff_mem_resumableTokens.mpr (h.live_of_live hhosts.mem_resumableTokens (by simp))
  · intro hhosts
    rcases h.hosts hhosts with hhosts | ⟨i, hi, -⟩
    · exact hhosts
    · exact absurd hi List.not_mem_nil

end CalloopData

namespace Cluster

variable {S : Type} {c : ClusterSetup} {s : Cluster S} {i : String} {n : Node S}
  {token : SessionToken}

/-! ### Assumptions on a run -/

/-- No other server claims the token, nor looks for it after this one has denied it. -/
def Alone (c : ClusterSetup) (s : Cluster S) (i : String) (token : SessionToken) : Prop :=
  ∀ k ∈ c.ids, k ≠ i → ¬ (s.nodes k).data.Claims token ∧
    ∀ l, (s.nodes k).lookup = some l → l.token = token → ¬ DeniedBy c k l i

/-- A session expires only on a server that is alone with its token. -/
def ExpiresAlone (c : ClusterSetup) (s : Cluster S) : ClusterEvent S → Prop
  | .loop i e => ∀ j ∈ (s.nodes i).lost s.clock e, ∀ session,
    (s.nodes i).data.sessionRegistry.Live j session → Alone c s i session.token
  | .elapse _ | .announce _ _ _ _ | .ask _ | .finish _ _ => True

/-- A server answers a client when its peers have answered, within the timeout of a probe. -/
def InTime (s : Cluster S) : ClusterEvent S → Prop
  | .finish i _ => (s.nodes i).nextPeer = none ∧ ∀ l, (s.nodes i).lookup = some l →
    l.found = true → s.clock.now ≤ l.answeredAt + peerProbeTimeout
  | .elapse _ | .announce _ _ _ _ | .ask _ | .loop _ _ => True

/-! ### One step -/

/-- Servers that claim one token host it, and so does a server that claims a token which it has
denied to a connect in progress. -/
structure Agreed (c : ClusterSetup) (s : Cluster S) : Prop where
  sound : AllSound c s
  agree : ∀ i ∈ c.ids, ∀ j ∈ c.ids, i ≠ j → ∀ token, (s.nodes i).data.Claims token →
    (s.nodes j).data.Claims token → (s.nodes i).data.Hosts token
  denied : ∀ k ∈ c.ids, ∀ l, (s.nodes k).lookup = some l → ∀ i, DeniedBy c k l i →
    (s.nodes i).data.Claims l.token → (s.nodes i).data.Hosts l.token

/-- The sessions of a server go on, or it is alone with their tokens. -/
theorem ExpiresAlone.hosts (desktop : Desktop S) {e : LocalEvent S}
    (h : ExpiresAlone c s (.loop i e)) (hhosts : (s.nodes i).data.Hosts token) :
    ((s.nodes i).loop desktop s.clock e).data.Hosts token ∨ Alone c s i token := by
  rcases ((s.nodes i).evolves_loop desktop s.clock e).hosts hhosts with
    hgoes | ⟨j, hj, session, hlive, rfl⟩
  · exact .inl hgoes
  · exact .inr (h j hj session hlive)

/-- One server changes: what it claims anew it hosts, and so do the others that claim it. -/
theorem Agreed.set (h : Agreed c s) (hsound : AllSound c (s.set i n))
    (hclaims : i ∈ c.ids → ∀ token, n.data.Claims token → (s.nodes i).data.Claims token ∨
      n.data.Hosts token ∧ ∀ k ∈ c.ids, k ≠ i → (s.nodes k).data.Claims token →
        (s.nodes k).data.Hosts token)
    (hhosts : i ∈ c.ids → ∀ token, (s.nodes i).data.Hosts token →
      n.data.Hosts token ∨ Alone c s i token)
    (hlookup : i ∈ c.ids → ∀ l, n.lookup = some l → ∀ j, DeniedBy c i l j →
      (s.nodes j).data.Claims l.token → (s.nodes j).data.Hosts l.token) :
    Agreed c (s.set i n) where
  sound := hsound
  agree j hj k hk hjk token hclaim hclaim' := by
    by_cases hji : j = i
    · subst hji
      rw [set_self] at hclaim ⊢
      rw [set_of_ne hjk.symm] at hclaim'
      rcases hclaims hj token hclaim with hold | ⟨hnew, -⟩
      · rcases hhosts hj token (h.agree j hj k hk hjk token hold hclaim') with hgoes | halone
        · exact hgoes
        · exact absurd hclaim' (halone k hk hjk.symm).1
      · exact hnew
    · rw [set_of_ne hji] at hclaim ⊢
      by_cases hki : k = i
      · subst hki
        rw [set_self] at hclaim'
        rcases hclaims hk token hclaim' with hold | ⟨-, hothers⟩
        · exact h.agree j hj k hk hjk token hclaim hold
        · exact hothers j hj hji hclaim
      · rw [set_of_ne hki] at hclaim'
        exact h.agree j hj k hk hjk token hclaim hclaim'
  denied k hk l hl j hdenied hclaim := by
    obtain ⟨hj, hjk⟩ := hdenied.peer
    by_cases hki : k = i
    · subst hki
      rw [set_self] at hl
      rw [set_of_ne hjk] at hclaim ⊢
      exact hlookup hk l hl j hdenied hclaim
    · rw [set_of_ne hki] at hl
      by_cases hji : j = i
      · subst hji
        rw [set_self] at hclaim ⊢
        rcases hclaims hj _ hclaim with hold | ⟨hnew, -⟩
        · rcases hhosts hj _ (h.denied k hk l hl j hdenied hold) with hgoes | halone
          · exact hgoes
          · exact absurd hdenied ((halone k hk hki).2 l hl rfl)
        · exact hnew
      · rw [set_of_ne hji] at hclaim ⊢
        exact h.denied k hk l hl j hdenied hclaim

/-- **Step lemma**: a step keeps the invariant if no session expires in it that others claim. -/
theorem agreed_step (desktop : Desktop S) (h : Agreed c s) (e : ClusterEvent S)
    (hinTime : InTime s e) (hexpires : ExpiresAlone c s e) : Agreed c (s.step desktop e) := by
  have hsound := allSound_step desktop h.sound e
  cases e with
  | elapse clk =>
    rw [step]
    split_ifs
    · exact ⟨h.sound, h.agree, h.denied⟩
    · exact h
  | announce i hello remoteAddr randomToken =>
    refine h.set hsound (fun _ token hclaim => .inl ?_) (fun _ token hhosts => .inl ?_)
      fun hi l hl j hdenied => ?_
    · rwa [Node.data_announce] at hclaim
    · rwa [Node.data_announce]
    · exact h.denied i hi l (hdenied.of_announce hl) j hdenied
  | ask i =>
    rw [step] at hsound ⊢
    split at hsound
    · rename_i l peer hl hpeer
      refine h.set hsound (fun _ _ hclaim => .inl hclaim) (fun _ _ hhosts => .inl hhosts)
        fun hi l' hl' j hdenied hclaim => ?_
      obtain ⟨htok, hold | hno⟩ := h.sound.deniedBy_ask hi hl hpeer hl' hdenied
      · rw [htok] at hclaim ⊢
        exact h.denied i hi l hl j hold hclaim
      · -- the peer has just said no, so that it has not published the token
        rw [htok] at hclaim ⊢
        rcases hclaim with ht | hhosts
        · exact absurd ht hno
        · exact hhosts
    · exact h
  | finish i infoProbe =>
    refine h.set hsound (fun hi token hclaim => ?_) (fun hi token hhosts => .inl ?_)
      fun _ l hl => absurd (hl.symm.trans (Node.lookup_finish desktop _ _ _)) (by simp)
    · obtain ⟨new, hevolves, hnew⟩ := (h.sound i hi).evolves_finish desktop s.clock infoProbe
      by_cases hcreated : ∃ session, new = some session ∧ session.token = token
      · -- a session of this token has been created, and all the others have denied it
        obtain ⟨session, hsession, rfl⟩ := hcreated
        obtain ⟨j, hlive⟩ := hevolves.created session hsession
        refine .inr ⟨⟨j, session, hlive, rfl⟩, fun k hk hki hclaim' => ?_⟩
        obtain ⟨l, hl, hhomeless, rfl⟩ := hnew session hsession
        exact h.denied i hi l hl k (h.sound.deniedBy hi hl hinTime.1 hhomeless hk hki) hclaim'
      · exact .inl (hevolves.claims hclaim
          fun session hsession heq => hcreated ⟨session, hsession, heq⟩)
    · obtain ⟨new, hevolves, -⟩ := (h.sound i hi).evolves_finish desktop s.clock infoProbe
      rcases hevolves.hosts hhosts with hgoes | ⟨j, hj, -⟩
      · exact hgoes
      · exact absurd hj List.not_mem_nil
  | loop i e =>
    have hevolves := (s.nodes i).evolves_loop desktop s.clock e
    refine h.set hsound (fun _ token hclaim => .inl (hevolves.claims hclaim (by simp)))
      (fun _ token => hexpires.hosts desktop) fun hi l hl => h.denied i hi l ?_
    rwa [Node.lookup_loop] at hl

/-! ### Whole runs -/

/-- The databases that the servers find have been left behind by servers. -/
def LeftBehind (desktop : Desktop S) (c : ClusterSetup) (hosts : String → Host S) : Prop :=
  ∀ i ∈ c.ids, ∀ db, (hosts i).stateDb = some db → CalloopData.ServerDb desktop db

theorem agreed_start {desktop : Desktop S} {hosts : String → Host S}
    (hdbs : LeftBehind desktop c hosts) (clk : Clock) : Agreed c (start c hosts clk) where
  sound := allSound_start (fun i hi db hdb => (hdbs i hi db hdb).liveTokensDistinct) clk
  agree i _ _ _ _ token hclaim _ := by
    rcases hclaim with ht | hhosts
    · exact absurd ht List.not_mem_nil
    · exact hhosts
  denied _ _ _ hl := absurd hl (by simp [start])

end Cluster

end WayRay
