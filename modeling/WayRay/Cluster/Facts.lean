import WayRay.Cluster.Claims

/-!
# What servers are told of each other

A server that has been told that a peer hosts a token trusts that for half a minute, and the peer
may have lost the session and another server created one meanwhile.  How far such facts can disagree
follows from how long a session lives: a day at least after it has been created.

A `Fact` says that a peer has said at some time that it hosts a token.  `Told` is the invariant of
all facts there have ever been: of two that name different peers, both peers host the token, or one
has a session of it that is younger than what the other has said, or one of the facts is a day old.
-/

namespace WayRay

open SessionRegistry CalloopData GuardedRun

/-- How long a session lives at least, in nanoseconds. -/
def day : ℕ := (Duration.fromSecs (24 * 60 * 60)).asNanos

theorem Instant.add_le_of_le_elapsed {t now span : ℕ} (hpos : 0 < span)
    (h : span ≤ Instant.elapsed t now) : t + span ≤ now := by
  rw [Instant.elapsed] at h
  omega

/-- A session has a day to live whenever it is suspended, and is not suspended before `since`. -/
structure Session.LivesFrom (since : Instant) (s : Session) : Prop where
  timeout : s.suspendTimeout = Duration.fromSecs (24 * 60 * 60)
  suspended : ∀ u, s.suspendedAt = some u → since ≤ u

theorem Session.LivesFrom.continues {since now : Instant} {s s' : Session} (h : s.LivesFrom since)
    (hcontinues : s.Continues now s') (hsince : since ≤ now) : s'.LivesFrom since where
  timeout := hcontinues.suspendTimeout.trans h.timeout
  suspended u hu := by
    rcases hcontinues.suspendedAt u hu with hold | rfl
    · exact h.suspended u hold
    · exact hsince

namespace CalloopData

variable {S : Type} {d d' : CalloopData S} {token : SessionToken} {now since : Instant}
  {new : Option Session} {lost : List SessionId}

/-- The server hosts the token, for a day after `since` at least. -/
def HostsSince (d : CalloopData S) (token : SessionToken) (since : Instant) : Prop :=
  ∃ i s, d.sessionRegistry.Live i s ∧ s.token = token ∧ s.LivesFrom since

theorem HostsSince.hosts (h : d.HostsSince token since) : d.Hosts token := by
  obtain ⟨i, s, hlive, htok, -⟩ := h
  exact ⟨i, s, hlive, htok⟩

/-- A session goes on, or has expired. -/
theorem Evolves.hostsSince (h : Evolves now new lost d d') (hsince : since ≤ now)
    (hhosts : d.HostsSince token since) :
    d'.HostsSince token since ∨
      ∃ i ∈ lost, ∃ s, d.sessionRegistry.Live i s ∧ s.LivesFrom since := by
  obtain ⟨i, s, hlive, htok, hlives⟩ := hhosts
  by_cases hi : i ∈ lost
  · exact .inr ⟨i, hi, s, hlive, hlives⟩
  · obtain ⟨s', hlive', hcontinues⟩ := h.forth hlive hi
    exact .inl ⟨i, s', hlive', hcontinues.token.trans htok, hlives.continues hcontinues hsince⟩

theorem livesFrom_newSession (d : CalloopData S) (env : Surroundings) (token : SessionToken)
    (since : Instant) : (d.newSession env token).LivesFrom since :=
  ⟨rfl, fun _ hu => absurd hu (by simp [newSession, Session.new, Session.moved])⟩

end CalloopData

/-- A session that expires has lived for a day. -/
theorem Node.Sound.day_le {S : Type} {c : ClusterSetup} {i : String} {n : Node S}
    (h : n.Sound c i) {clk : Clock} {e : LocalEvent S} {j : SessionId} (hj : j ∈ n.lost clk e)
    {session : Session} (hlive : n.data.sessionRegistry.Live j session) {since : ℕ}
    (hlives : session.LivesFrom since) : since + day ≤ clk.now := by
  rw [Node.lost] at hj
  split_ifs at hj
  · cases e with
    | cleanup =>
      obtain ⟨s', hs', -, u, hu, hle⟩ := h.serving.own_id.mem_expiredIds.mp hj
      obtain rfl := Option.some.inj (hlive.get.symm.trans hs')
      rw [hlives.timeout] at hle
      exact (Nat.add_le_add_right (hlives.suspended u hu) day).trans
        (Instant.add_le_of_le_elapsed (by decide) hle)
    | input _ | control _ | clientDisconnected | netClosed | turn _ _ =>
      exact absurd hj List.not_mem_nil
  · exact absurd hj List.not_mem_nil

/-! ### The facts -/

/-- A peer has said at a time that it hosts the token. -/
structure Fact where
  token : SessionToken
  peer : String
  saidAt : Instant

namespace Cluster

variable {S : Type} {c : ClusterSetup} {s : Cluster S} {i j : String} {n : Node S}
  {token : SessionToken} {facts : Set Fact} {past since : Instant}

/-- Server `i` hosts the token, for a day after `since` at least, or that day is over at `past`. -/
def Outlived (s : Cluster S) (past : Instant) (i : String) (token : SessionToken)
    (since : Instant) : Prop :=
  (s.nodes i).data.HostsSince token since ∨ since + day ≤ past

/-- Both servers host the token. -/
def Shared (s : Cluster S) (i j : String) (token : SessionToken) : Prop :=
  (s.nodes i).data.Hosts token ∧ (s.nodes j).data.Hosts token

/-- What holds of all the facts there have been, where no session has expired after `past`. -/
structure Told (c : ClusterSetup) (facts : Set Fact) (past : Instant) (s : Cluster S) : Prop where
  agreed : Agreed c s
  clock : past ≤ s.clock.now
  said : ∀ f ∈ facts, f.peer ∈ c.ids ∧ f.saidAt ≤ s.clock.now
  noted : ∀ i ∈ c.ids, ∀ token entry,
    (s.nodes i).data.sessionRegistry.remoteSessions.get token = some entry →
    ∃ f ∈ facts, f.token = token ∧ f.peer = entry.serverId ∧
      entry.notedAt ≤ f.saidAt + peerProbeTimeout
  answered : ∀ i ∈ c.ids, ∀ l, (s.nodes i).lookup = some l → ∀ peer,
    .answered peer ∈ l.answers → ⟨l.token, peer, l.answeredAt⟩ ∈ facts
  /-- A server that claims a token has outlived what was said of others, or shares it. -/
  claimed : ∀ i ∈ c.ids, ∀ f ∈ facts, f.peer ≠ i → (s.nodes i).data.Claims f.token →
    Outlived s past i f.token f.saidAt ∨ Shared s i f.peer f.token
  /-- Of two servers of which something was said, one has outlived what was said of the other, or
  they share the token. -/
  compared : ∀ f ∈ facts, ∀ g ∈ facts, f.token = g.token → f.peer ≠ g.peer →
    Outlived s past f.peer f.token g.saidAt ∨ Outlived s past g.peer f.token f.saidAt ∨
      Shared s f.peer g.peer f.token

/-- What the servers do later counts from a later moment. -/
theorem Told.later (h : Told c facts past s) {past' : Instant} (hle : past ≤ past')
    (hclock : past' ≤ s.clock.now) : Told c facts past' s := by
  have houtlived : ∀ {i token since}, Outlived s past i token since →
      Outlived s past' i token since := fun hold => hold.imp_right fun hday => hday.trans hle
  refine ⟨h.agreed, hclock, h.said, h.noted, h.answered, fun i hi f hf hne hclaim => ?_,
    fun f hf g hg ht hne => ?_⟩
  · exact (h.claimed i hi f hf hne hclaim).imp_left houtlived
  · exact (h.compared f hf g hg ht hne).imp houtlived (Or.imp_left houtlived)

/-! ### One step -/

/-- One server changes: its sessions go on, or it is alone with their tokens and they have lived for
a day; it makes no note and gets no answer that is not a fact; what it claims anew it has just
created. -/
theorem Told.set (h : Told c facts past s) (hagreed : Agreed c (s.set i n))
    (hhosts : i ∈ c.ids → ∀ token, (s.nodes i).data.Hosts token →
      n.data.Hosts token ∨ Alone c s i token)
    (hsince : i ∈ c.ids → ∀ token, ∀ since ≤ s.clock.now, (s.nodes i).data.HostsSince token since →
      n.data.HostsSince token since ∨ since + day ≤ past)
    (hnoted : i ∈ c.ids → ∀ token entry,
      n.data.sessionRegistry.remoteSessions.get token = some entry →
      ∃ f ∈ facts, f.token = token ∧ f.peer = entry.serverId ∧
        entry.notedAt ≤ f.saidAt + peerProbeTimeout)
    (hanswered : i ∈ c.ids → ∀ l, n.lookup = some l → ∀ peer, .answered peer ∈ l.answers →
      ⟨l.token, peer, l.answeredAt⟩ ∈ facts)
    (hclaims : i ∈ c.ids → ∀ f ∈ facts, n.data.Claims f.token →
      (s.nodes i).data.Claims f.token ∨ n.data.HostsSince f.token f.saidAt) :
    Told c facts past (s.set i n) := by
  have houtlived : ∀ j ∈ c.ids, ∀ token, ∀ since ≤ s.clock.now, Outlived s past j token since →
      Outlived (s.set i n) past j token since := by
    refine forall_set (P := fun j n => ∀ token, ∀ since ≤ s.clock.now,
      Outlived s past j token since → n.data.HostsSince token since ∨ since + day ≤ past)
      (fun _ _ _ _ _ hold => hold) fun hi token since hle hold => ?_
    rcases hold with hold | hday
    · exact hsince hi token since hle hold
    · exact .inr hday
  have hshared : ∀ j ∈ c.ids, ∀ k ∈ c.ids, j ≠ k → ∀ token, Shared s j k token →
      ((s.set i n).nodes j).data.Hosts token := by
    intro j hj k hk hjk token hold
    by_cases hji : j = i
    · subst hji
      rw [set_self]
      rcases hhosts hj token hold.1 with hgoes | halone
      · exact hgoes
      · exact absurd (.inr hold.2) (halone k hk hjk.symm).1
    · rw [set_of_ne hji]
      exact hold.1
  have hboth : ∀ j ∈ c.ids, ∀ k ∈ c.ids, j ≠ k → ∀ token, Shared s j k token →
      Shared (s.set i n) j k token := fun j hj k hk hjk token hold =>
    ⟨hshared j hj k hk hjk token hold, hshared k hk j hj hjk.symm token hold.symm⟩
  have hclaimed : ∀ j ∈ c.ids, ∀ f ∈ facts, f.peer ≠ j → (s.nodes j).data.Claims f.token →
      Outlived (s.set i n) past j f.token f.saidAt ∨ Shared (s.set i n) j f.peer f.token :=
    fun j hj f hf hne hclaim => (h.claimed j hj f hf hne hclaim).imp
      (houtlived j hj _ _ (h.said f hf).2) (hboth j hj _ (h.said f hf).1 hne.symm _)
  have hnoted' := forall_set (P := fun _ n => ∀ token entry,
    n.data.sessionRegistry.remoteSessions.get token = some entry → ∃ f ∈ facts, f.token = token ∧
      f.peer = entry.serverId ∧ entry.notedAt ≤ f.saidAt + peerProbeTimeout) h.noted hnoted
  have hanswered' := forall_set (P := fun _ n => ∀ l, n.lookup = some l → ∀ peer,
    .answered peer ∈ l.answers → ⟨l.token, peer, l.answeredAt⟩ ∈ facts) h.answered hanswered
  refine ⟨hagreed, h.clock, h.said, hnoted', hanswered', fun j hj f hf hne hclaim => ?_,
    fun f hf g hg ht hne => ?_⟩
  · by_cases hji : j = i
    · subst hji
      rw [set_self] at hclaim
      rcases hclaims hj f hf hclaim with hold | hnew
      · exact hclaimed j hj f hf hne hold
      · rw [Outlived, set_self]
        exact .inl (.inl hnew)
    · rw [set_of_ne hji] at hclaim
      exact hclaimed j hj f hf hne hclaim
  · obtain ⟨hfpeer, hfsaid⟩ := h.said f hf
    obtain ⟨hgpeer, hgsaid⟩ := h.said g hg
    exact (h.compared f hf g hg ht hne).imp (houtlived _ hfpeer _ _ hgsaid)
      (Or.imp (houtlived _ hgpeer _ _ hfsaid) (hboth _ hfpeer _ hgpeer hne _))

theorem told_loop (desktop : Desktop S) (h : Told c facts past s) {e : LocalEvent S}
    (hexpires : ExpiresAlone c s (.loop i e))
    (hlost : (s.nodes i).lost s.clock e = [] ∨ s.clock.now ≤ past) :
    Told c facts past (s.step desktop (.loop i e)) := by
  have hevolves := (s.nodes i).evolves_loop desktop s.clock e
  refine h.set (agreed_step desktop h.agreed (.loop i e) trivial hexpires)
    (fun _ token => hexpires.hosts desktop) (fun hi token since hle hold => ?_)
    (fun hi token entry hnote => ?_) (fun hi l hl => h.answered i hi l ?_)
    fun _ f _ hclaim => .inl (hevolves.claims hclaim (by simp))
  · rcases hevolves.hostsSince hle hold with hgoes | ⟨j, hj, session, hlive, hlives⟩
    · exact .inl hgoes
    · rcases hlost with hnone | hlate
      · exact absurd (hnone ▸ hj) List.not_mem_nil
      · exact .inr (((h.agreed.sound i hi).day_le hj hlive hlives).trans hlate)
  · refine h.noted i hi token entry ?_
    unfold Node.loop at hnote
    split_ifs at hnote
    · exact e.notes desktop _ s.clock hnote
    · exact hnote
  · rwa [Node.lookup_loop] at hl

theorem told_announce (desktop : Desktop S) (h : Told c facts past s) (hello : ClientHello)
    (remoteAddr randomToken : String) :
    Told c facts past (s.step desktop (.announce i hello remoteAddr randomToken)) := by
  refine h.set (agreed_step desktop h.agreed (.announce i hello remoteAddr randomToken) trivial
    trivial) ?_ ?_ ?_ (fun hi l hl peer hpeer => ?_) ?_
  · rw [Node.data_announce]
    exact fun _ _ hhosts => .inl hhosts
  · rw [Node.data_announce]
    exact fun _ _ _ _ hold => .inl hold
  · rw [Node.data_announce]
    exact h.noted i
  · rcases Node.lookup_announce hl with hl | hnone
    · exact h.answered i hi l hl peer hpeer
    · rw [hnone] at hpeer
      exact absurd hpeer List.not_mem_nil
  · rw [Node.data_announce]
    exact fun _ _ _ hclaim => .inl hclaim

theorem told_finish (desktop : Desktop S) (h : Told c facts past s)
    {infoProbe : ℕ → ProbeOutcome ServerInfoMsg} (hinTime : InTime s (.finish i infoProbe)) :
    Told c facts past (s.step desktop (.finish i infoProbe)) := by
  have hevolves : i ∈ c.ids → ∃ new, Evolves s.clock.now new [] (s.nodes i).data _ ∧ _ := fun hi =>
    (h.agreed.sound i hi).evolves_finish desktop s.clock infoProbe
  refine h.set (agreed_step desktop h.agreed (.finish i infoProbe) hinTime trivial)
    (fun hi token hhosts => .inl ?_) (fun hi token since hle hold => .inl ?_)
    (fun hi token entry hnote => ?_) (fun _ l hl => absurd
      (hl.symm.trans (Node.lookup_finish desktop _ _ _)) (by simp)) fun hi f hf hclaim => ?_
  · obtain ⟨new, hnew, -⟩ := hevolves hi
    rcases hnew.hosts hhosts with hgoes | ⟨j, hj, -⟩
    · exact hgoes
    · exact absurd hj List.not_mem_nil
  · obtain ⟨new, hnew, -⟩ := hevolves hi
    rcases hnew.hostsSince hle hold with hgoes | ⟨j, hj, -⟩
    · exact hgoes
    · exact absurd hj List.not_mem_nil
  · cases hl : (s.nodes i).lookup with
    | none =>
      rw [Node.finish, hl] at hnote
      exact h.noted i hi token entry hnote
    | some l =>
      rw [Node.finish_eq desktop hl] at hnote
      have hanswers : Node.Answers (s.nodes i) l s.clock infoProbe _ _ :=
        (h.agreed.sound i hi).answers hl
      rcases hanswers.notes hnote with hold | ⟨rfl, hanswer, hnow⟩
      · exact h.noted i hi token entry hold
      · refine ⟨_, h.answered i hi l hl _ hanswer, rfl, rfl, ?_⟩
        rw [hnow]
        exact hinTime.2 l hl (List.any_eq_true.mpr ⟨_, hanswer, rfl⟩)
  · obtain ⟨new, hnew, hsession⟩ := hevolves hi
    by_cases hcreated : ∃ session, new = some session ∧ session.token = f.token
    · obtain ⟨session, hs, htok⟩ := hcreated
      obtain ⟨j, hlive⟩ := hnew.created session hs
      obtain ⟨l, -, -, rfl⟩ := hsession session hs
      exact .inr ⟨j, _, hlive, htok, livesFrom_newSession _ _ _ _⟩
    · exact .inl (hnew.claims hclaim fun session hs heq => hcreated ⟨session, hs, heq⟩)

theorem told_elapse (desktop : Desktop S) (h : Told c facts past s) (clk : Clock) :
    Told c facts past (s.step desktop (.elapse clk)) := by
  have hagreed := agreed_step desktop h.agreed (.elapse clk) trivial trivial
  rw [step] at hagreed ⊢
  split_ifs at hagreed ⊢ with hclk
  · exact ⟨hagreed, h.clock.trans hclk, fun f hf => ⟨(h.said f hf).1, (h.said f hf).2.trans hclk⟩,
      h.noted, h.answered, h.claimed, h.compared⟩
  · exact h

/-- A server that has published a token may say so. -/
theorem Told.insert (h : Told c facts past s) (hj : j ∈ c.ids)
    (ht : token.str ∈ (s.nodes j).data.localTokens) :
    Told c (Insert.insert ⟨token, j, s.clock.now⟩ facts) past s where
  agreed := h.agreed
  clock := h.clock
  said f hf := by
    rcases hf with rfl | hf
    · exact ⟨hj, le_refl _⟩
    · exact h.said f hf
  noted i hi token entry hnote := by
    obtain ⟨f, hf, hsaid⟩ := h.noted i hi token entry hnote
    exact ⟨f, .inr hf, hsaid⟩
  answered i hi l hl peer hpeer := .inr (h.answered i hi l hl peer hpeer)
  claimed i hi f hf hne hclaim := by
    rcases hf with rfl | hf
    · -- both claim it
      exact .inr ⟨h.agreed.agree i hi j hj hne.symm token hclaim (.inl ht),
        h.agreed.agree j hj i hi hne token (.inl ht) hclaim⟩
    · exact h.claimed i hi f hf hne hclaim
  compared f hf g hg htok hne := by
    have hold : ∀ f' ∈ facts, token = f'.token → j ≠ f'.peer →
        Outlived s past j token f'.saidAt ∨ Shared s j f'.peer token := by
      rintro f' hf' rfl hne'
      exact h.claimed j hj f' hf' hne'.symm (.inl ht)
    rcases hf with rfl | hf
    · rcases hg with rfl | hg
      · exact absurd rfl hne
      · exact (hold g hg htok hne).imp_right .inr
    · rcases hg with rfl | hg
      · rw [htok]
        exact .inr ((hold f hf htok.symm hne.symm).imp_right And.symm)
      · exact h.compared f hf g hg htok hne

theorem told_ask (desktop : Desktop S) (h : Told c facts past s) (i : String) :
    ∃ facts', facts ⊆ facts' ∧ Told c facts' past (s.step desktop (.ask i)) := by
  have hagreed := agreed_step desktop h.agreed (.ask i) trivial trivial
  rw [step] at hagreed ⊢
  split at hagreed
  · rename_i l peer hl hpeer
    by_cases hi : i ∈ c.ids
    · obtain ⟨l', hl', -, hfound, hnext⟩ := (h.agreed.sound i hi).nextPeer_eq_some hpeer
      obtain rfl := Option.some.inj (hl.symm.trans hl')
      have hj : peer.id ∈ c.ids :=
        List.mem_map_of_mem (mem_peers.mp (List.mem_of_getElem? hnext)).1
      have hanswer := h.agreed.sound.answer_nextPeer hi hpeer l.token.str
      -- before, nobody had said yes
      have hnew : ∀ {peer' : String} {a : ProbeOutcome String},
          .answered peer' ∈ l.answers ++ [a] → a = .answered peer' := by
        intro peer' a hmem
        rcases List.mem_append.mp hmem with hmem | hmem
        · exact absurd rfl (List.any_eq_false.mp hfound _ hmem)
        · exact (List.mem_singleton.mp hmem).symm
      by_cases ht : l.token.str ∈ (s.nodes peer.id).data.localTokens
      · have hinserted := h.insert hj ht
        refine ⟨_, Set.subset_insert _ _, hinserted.set hagreed (fun _ _ hhosts => .inl hhosts)
          (fun _ _ _ _ hold => .inl hold) (hinserted.noted i) ?_ fun _ _ _ hclaim => .inl hclaim⟩
        intro _ l' hl' peer' hpeer'
        simp only [Node.hear, hl, Option.map_some, Option.some.injEq] at hl'
        subst hl'
        have heq := hnew hpeer'
        rw [hanswer, if_pos ht] at heq
        obtain rfl := ProbeOutcome.answered.inj heq
        exact .inl rfl
      · refine ⟨facts, subset_refl _, h.set hagreed (fun _ _ hhosts => .inl hhosts)
          (fun _ _ _ _ hold => .inl hold) (h.noted i) ?_ fun _ _ _ hclaim => .inl hclaim⟩
        intro _ l' hl' peer' hpeer'
        simp only [Node.hear, hl, Option.map_some, Option.some.injEq] at hl'
        subst hl'
        have heq := hnew hpeer'
        rw [hanswer, if_neg ht] at heq
        exact absurd heq (by simp)
    · exact ⟨facts, subset_refl _, h.set hagreed (fun hi' => absurd hi' hi)
        (fun hi' => absurd hi' hi) (fun hi' => absurd hi' hi) (fun hi' => absurd hi' hi)
        (fun hi' => absurd hi' hi)⟩
  · exact ⟨facts, subset_refl _, h⟩

/-- **Step lemma**: a step in time adds a fact at most, if no session expires in it after `past`,
nor one that others claim. -/
theorem told_step (desktop : Desktop S) (h : Told c facts past s) (e : ClusterEvent S)
    (hinTime : InTime s e) (hexpires : ExpiresAlone c s e) (hpast : s.clock.now ≤ past) :
    ∃ facts', facts ⊆ facts' ∧ Told c facts' past (s.step desktop e) := by
  cases e with
  | elapse clk => exact ⟨facts, subset_refl _, told_elapse desktop h clk⟩
  | announce i hello remoteAddr randomToken =>
    exact ⟨facts, subset_refl _, told_announce desktop h hello remoteAddr randomToken⟩
  | ask i => exact told_ask desktop h i
  | finish i infoProbe => exact ⟨facts, subset_refl _, told_finish desktop h hinTime⟩
  | loop i e => exact ⟨facts, subset_refl _, told_loop desktop h hexpires (.inr hpast)⟩

/-- Time does not go back. -/
theorem clock_step (desktop : Desktop S) (s : Cluster S) (e : ClusterEvent S) :
    s.clock.now ≤ (s.step desktop e).clock.now := by
  cases e with
  | elapse clk =>
    rw [step]
    split_ifs with hclk
    · exact hclk
    · exact le_refl _
  | announce _ _ _ _ | finish _ _ | loop _ _ => exact le_refl _
  | ask i =>
    rw [step]
    split <;> exact le_refl _

theorem told_start {desktop : Desktop S} {hosts : String → Host S}
    (hdbs : LeftBehind desktop c hosts) (clk : Clock) : Told c ∅ clk.now (start c hosts clk) where
  agreed := agreed_start hdbs clk
  clock := le_refl _
  said _ hf := hf.elim
  noted i _ _ _ hnote := by
    rw [remoteSessions_start] at hnote
    exact absurd hnote (by simp)
  answered _ _ _ hl := absurd hl (by simp [start])
  claimed _ _ _ hf := hf.elim
  compared _ hf := hf.elim

/-- **Run lemma**: the invariant holds throughout a run in time whose sessions expire alone. -/
theorem told_run {desktop : Desktop S} {hosts : String → Host S}
    (hdbs : LeftBehind desktop c hosts) {clk : Clock} {events : List (ClusterEvent S)}
    (hinTime : Along (step desktop) InTime (start c hosts clk) events)
    (hexpires : Along (step desktop) (ExpiresAlone c) (start c hosts clk) events) :
    ∃ facts, Told c facts (run desktop (start c hosts clk) events).clock.now
      (run desktop (start c hosts clk) events) := by
  refine Along.invariant (I := fun s => ∃ facts, Told c facts s.clock.now s) ?_
    ⟨∅, told_start hdbs clk⟩ (hinTime.and hexpires)
  rintro s e ⟨facts, h⟩ ⟨htime, halone⟩
  obtain ⟨facts', -, h'⟩ := told_step desktop h e htime halone (le_refl _)
  exact ⟨facts', h'.later (clock_step desktop s e) (le_refl _)⟩

end Cluster

end WayRay
