import Mathlib.Logic.Relation
import WayRay.Client.Candidates
import WayRay.Cluster.Facts
import WayRay.Cluster.SingleHome

/-!
# Redirects converge

A client presents its token to some server of the cluster and goes where it is sent, while no other
client connects and no session expires.

* `Attempt` is one connect of the client, `Chase` a chain of them along the redirects; other events
  of the servers may come in between everywhere.
* If a session has expired only on servers that were alone with its token, a client is bound after
  two redirects at most: the server that it is sent to hosts its session, or sends it to the one
  that does, or creates one (`redirects_converge`).
* Where two servers have created a session for one token and both have expired, each still publishes
  the token and sends the client to the other (`redirects_cycle`).
-/

namespace WayRay

open Relation SessionRegistry CalloopData GuardedRun

namespace Cluster

variable {S : Type} {c : ClusterSetup} {s s' : Cluster S} {x : String} {token : SessionToken}
  {facts : Set Fact} {past : Instant} {desktop : Desktop S}

/-! ### The client and its surroundings -/

/-- No other client connects, and no session expires. -/
def Quiet (s : Cluster S) : ClusterEvent S → Prop
  | .announce _ _ _ _ | .finish _ _ => False
  | .loop i e => (s.nodes i).lost s.clock e = []
  | .elapse _ | .ask _ => True

def QuietStep (desktop : Desktop S) (s s' : Cluster S) : Prop :=
  ∃ e, Quiet s e ∧ s' = s.step desktop e

/-- The client presents its token to server `x` and is answered. -/
inductive Attempt (desktop : Desktop S) (token : SessionToken) (s : Cluster S) (x : String) :
    ConnectDecision → Cluster S → Prop
  | intro {s₁ s₂ : Cluster S} {hello : ClientHello} {remoteAddr randomToken : String}
      {infoProbe : ℕ → ProbeOutcome ServerInfoMsg} {decision : ConnectDecision}
      (htoken : hello.token = some token.str)
      (hbefore : ReflTransGen (QuietStep desktop) s s₁)
      (hbegun : (s₁.nodes x).begun = false)
      (hduring : ReflTransGen (QuietStep desktop)
        (s₁.step desktop (.announce x hello remoteAddr randomToken)) s₂)
      (hinTime : InTime s₂ (.finish x infoProbe))
      (hdecision : ((s₂.nodes x).finish desktop s₂.clock infoProbe).1 = some decision) :
      Attempt desktop token s x decision (s₂.step desktop (.finish x infoProbe))

/-- The client has followed `n` redirects and been answered. -/
inductive Chase (desktop : Desktop S) (c : ClusterSetup) (token : SessionToken) (s : Cluster S)
    (x : String) : ℕ → ConnectDecision → Cluster S → Prop
  | first {decision : ConnectDecision} {s' : Cluster S}
      (h : Attempt desktop token s x decision s') : Chase desktop c token s x 0 decision s'
  | follow {n : ℕ} {serverId addr : String} {entry : ServerEntry} {decision : ConnectDecision}
      {s' s'' : Cluster S} (h : Chase desktop c token s x n (.redirect serverId addr) s')
      (hentry : entry ∈ c.servers) (haddr : entry.addr = addr)
      (hnext : Attempt desktop token s' entry.id decision s'') :
      Chase desktop c token s x (n + 1) decision s''

/-! ### Quiet events -/

/-- The same tokens are hosted. -/
def SameHosts (c : ClusterSetup) (s s' : Cluster S) : Prop :=
  ∀ k ∈ c.ids, ∀ token, (s'.nodes k).data.Hosts token ↔ (s.nodes k).data.Hosts token

theorem SameHosts.trans {s'' : Cluster S} (h : SameHosts c s s') (h' : SameHosts c s' s'') :
    SameHosts c s s'' := fun k hk token => (h' k hk token).trans (h k hk token)

/-- One server changes. -/
theorem sameHosts_set {i : String} {n : Node S}
    (h : ∀ token, n.data.Hosts token ↔ (s.nodes i).data.Hosts token) : SameHosts c s (s.set i n) :=
  forall_set (P := fun k n => ∀ token, n.data.Hosts token ↔ (s.nodes k).data.Hosts token)
    (fun _ _ _ => Iff.rfl) fun _ => h

/-- The same connects are in progress, and the same tokens are hosted. -/
structure Calm (c : ClusterSetup) (s s' : Cluster S) : Prop where
  lookup : ∀ k, (s'.nodes k).lookup.map (fun l => (l.token, l.locatedAt)) =
    (s.nodes k).lookup.map fun l => (l.token, l.locatedAt)
  hosts : SameHosts c s s'

theorem Calm.refl (c : ClusterSetup) (s : Cluster S) : Calm c s s :=
  ⟨fun _ => rfl, fun _ _ _ => Iff.rfl⟩

theorem Calm.trans {s'' : Cluster S} (h : Calm c s s') (h' : Calm c s' s'') : Calm c s s'' :=
  ⟨fun k => (h'.lookup k).trans (h.lookup k), h.hosts.trans h'.hosts⟩

/-- One server changes. -/
theorem calm_set {i : String} {n : Node S}
    (hlookup : n.lookup.map (fun l => (l.token, l.locatedAt)) =
      (s.nodes i).lookup.map fun l => (l.token, l.locatedAt))
    (hhosts : ∀ token, n.data.Hosts token ↔ (s.nodes i).data.Hosts token) :
    Calm c s (s.set i n) := by
  refine ⟨fun k => ?_, sameHosts_set hhosts⟩
  by_cases hk : k = i
  · subst hk
    rw [set_self, hlookup]
  · rw [set_of_ne hk]

theorem calm_of_quiet {e : ClusterEvent S} (he : Quiet s e) : Calm c s (s.step desktop e) := by
  cases e with
  | announce _ _ _ _ | finish _ _ => exact he.elim
  | elapse clk =>
    rw [step]
    split_ifs
    · exact ⟨fun _ => rfl, fun _ _ _ => Iff.rfl⟩
    · exact .refl c s
  | ask i =>
    rw [step]
    split
    · rename_i l peer hl hpeer
      refine calm_set ?_ fun _ => Iff.rfl
      rw [Node.hear, hl]
      rfl
    · exact .refl c s
  | loop i e =>
    have hevolves := (s.nodes i).evolves_loop desktop s.clock e
    rw [show (s.nodes i).lost s.clock e = [] from he] at hevolves
    refine calm_set ?_ fun token => hevolves.hosts_iff
    rw [Node.lookup_loop]

theorem told_quietStep (h : Told c facts past s) (hstep : QuietStep desktop s s') :
    ∃ facts', facts ⊆ facts' ∧ Told c facts' past s' := by
  obtain ⟨e, he, rfl⟩ := hstep
  cases e with
  | announce _ _ _ _ | finish _ _ => exact he.elim
  | elapse clk => exact ⟨facts, subset_refl _, told_elapse desktop h clk⟩
  | ask i => exact told_ask desktop h i
  | loop i e =>
    have hnone : (s.nodes i).lost s.clock e = [] := he
    refine ⟨facts, subset_refl _, told_loop desktop h (fun j hj => ?_) (.inl hnone)⟩
    exact absurd (hnone ▸ hj) List.not_mem_nil

/-- Quiet events keep what holds of the facts. -/
theorem told_quietRun (h : Told c facts past s) (hrun : ReflTransGen (QuietStep desktop) s s') :
    Calm c s s' ∧ ∃ facts', facts ⊆ facts' ∧ Told c facts' past s' := by
  induction hrun with
  | refl => exact ⟨.refl c s, facts, subset_refl _, h⟩
  | tail _ hstep ih =>
    obtain ⟨hcalm, facts₁, hsub₁, h₁⟩ := ih
    obtain ⟨facts₂, hsub₂, h₂⟩ := told_quietStep h₁ hstep
    obtain ⟨e, he, rfl⟩ := hstep
    exact ⟨hcalm.trans (calm_of_quiet he), facts₂, hsub₁.trans hsub₂, h₂⟩

theorem quietRun_of_along {events : List (ClusterEvent S)}
    (h : Along (step desktop) Quiet s events) :
    ReflTransGen (QuietStep desktop) s (run desktop s events) := by
  induction events generalizing s with
  | nil => exact .refl
  | cons e events ih => exact .head ⟨e, h.1, rfl⟩ (ih h.2)

/-! ### One connect -/

/-- A client is answered while the clock stands still. -/
theorem inTime_of_lookup {infoProbe : ℕ → ProbeOutcome ServerInfoMsg}
    (hnext : (s.nodes x).nextPeer = none)
    (hnow : (s.nodes x).lookup.all (fun l => decide (s.clock.now ≤ l.answeredAt)) = true) :
    InTime s (.finish x infoProbe) := by
  refine ⟨hnext, fun l hl _ => ?_⟩
  rw [hl] at hnow
  exact le_trans (of_decide_eq_true hnow) (Nat.le_add_right _ _)

/-- No connect is in progress. -/
def Idle (c : ClusterSetup) (s : Cluster S) : Prop := ∀ k ∈ c.ids, (s.nodes k).lookup = none

theorem Calm.idle (h : Calm c s s') (hidle : Idle c s) : Idle c s' := by
  intro k hk
  have hlookup := h.lookup k
  rw [hidle k hk, Option.map_none] at hlookup
  exact Option.map_eq_none_iff.mp hlookup

/-- The answer of server `x` rests on a peer's having said that it hosts the token, less than a day
before `past`. -/
structure Sends (c : ClusterSetup) (facts : Set Fact) (past : Instant) (token : SessionToken)
    (x peer addr : String) : Prop where
  ne : peer ≠ x
  addr : (c.config x).addrOf peer = some addr
  fact : ∃ f ∈ facts, f.token = token ∧ f.peer = peer ∧ past < f.saidAt + day

theorem not_long_ago {saidAt notedAt now : ℕ} (hnoted : notedAt ≤ saidAt + peerProbeTimeout)
    (hfresh : Instant.elapsed notedAt now < remoteSessionTtl) : now < saidAt + day := by
  have hday : remoteSessionTtl + peerProbeTimeout ≤ day := by decide
  rw [Instant.elapsed] at hfresh
  omega

/-- A server that does not bind a client sends it to a peer, and hosts what it did. -/
theorem Told.answers (h : Told c facts past s) (hx : x ∈ c.ids) {l : Lookup}
    (hl : (s.nodes x).lookup = some l) (hlocated : past ≤ l.locatedAt.now)
    {infoProbe : ℕ → ProbeOutcome ServerInfoMsg} (hinTime : InTime s (.finish x infoProbe))
    {decision : ConnectDecision} {d : CalloopData S}
    (hanswers : Node.Answers (s.nodes x) l s.clock infoProbe decision d) :
    (∃ binding, decision = .bind binding) ∨
      ∃ peer addr, decision = .redirect peer addr ∧ Sends c facts past l.token x peer addr ∧
        ¬ (s.nodes x).data.Hosts l.token ∧
          ∀ token, d.Hosts token ↔ (s.nodes x).data.Hosts token := by
  have hsound := h.agreed.sound x hx
  cases hanswers with
  | resumed _ _ | created _ _ => exact .inl ⟨_, rfl⟩
  | @noted entry addr hnone hnote hfresh haddr =>
    refine .inr ⟨_, _, rfl, ⟨?_, hsound.config ▸ haddr, ?_⟩, hnone, fun _ => Iff.rfl⟩
    · obtain ⟨peer, hpeer, hid⟩ := hsound.noted hnote
      exact hid ▸ (mem_peers.mp hpeer).2
    · obtain ⟨f, hf, htoken, hpeer, hnoted⟩ := h.noted x hx _ _ hnote
      exact ⟨f, hf, htoken, hpeer, lt_of_le_of_lt hlocated (not_long_ago hnoted hfresh)⟩
  | @told serverId addr hnone hanswer haddr =>
    refine .inr ⟨_, _, rfl, ⟨?_, hsound.config ▸ haddr, ?_⟩, hnone, fun _ =>
      (evolves_redirect s.clock.now _).hosts_iff⟩
    · obtain ⟨m, hm⟩ := List.mem_iff_getElem?.mp hanswer
      obtain ⟨peer, hpeer, hkind⟩ := hsound.asked hl hm
      obtain rfl : serverId = peer.id := by simpa using hkind
      exact (mem_peers.mp (List.mem_of_getElem? hpeer)).2
    · refine ⟨_, h.answered x hx l hl _ hanswer, rfl, rfl, lt_of_le_of_lt h.clock ?_⟩
      exact lt_of_le_of_lt (hinTime.2 l hl (List.any_eq_true.mpr ⟨_, hanswer, rfl⟩))
        (Nat.add_lt_add_left (by decide) _)

/-- When the client is answered, its connect is the only one in progress, and the same tokens are
hosted as before. -/
theorem told_beforeFinish (h : Told c facts past s) (hidle : Idle c s) (hx : x ∈ c.ids)
    {s₁ s₂ : Cluster S} {hello : ClientHello} (htoken : hello.token = some token.str)
    {remoteAddr randomToken : String} (hbefore : ReflTransGen (QuietStep desktop) s s₁)
    (hbegun : (s₁.nodes x).begun = false)
    (hduring : ReflTransGen (QuietStep desktop)
      (s₁.step desktop (.announce x hello remoteAddr randomToken)) s₂) :
    ∃ facts' l, facts ⊆ facts' ∧ Told c facts' past s₂ ∧ (s₂.nodes x).lookup = some l ∧
      l.token = token ∧ past ≤ l.locatedAt.now ∧
        (∀ k ∈ c.ids, k ≠ x → (s₂.nodes k).lookup = none) ∧ SameHosts c s s₂ := by
  obtain ⟨hcalm₁, facts₁, hsub₁, h₁⟩ := told_quietRun h hbefore
  have hidle₁ := hcalm₁.idle hidle
  have hannounced := told_announce desktop (i := x) h₁ hello remoteAddr randomToken
  have hstep : s₁.step desktop (.announce x hello remoteAddr randomToken) =
      s₁.set x { s₁.nodes x with
        begun := true
        lookup := some ⟨hello, remoteAddr, randomToken, s₁.clock, [], s₁.clock.now⟩ } :=
    congrArg (s₁.set x) (if_pos ⟨hbegun, by rw [hidle₁ x hx]; rfl⟩)
  have hset : SameHosts c s₁ (s₁.step desktop (.announce x hello remoteAddr randomToken)) := by
    rw [hstep]
    exact sameHosts_set fun _ => Iff.rfl
  rw [hstep] at hannounced hduring hset
  obtain ⟨hcalm₂, facts₂, hsub₂, h₂⟩ := told_quietRun hannounced hduring
  have hlookup := hcalm₂.lookup x
  rw [set_self, Option.map_some] at hlookup
  obtain ⟨l, hl, hpair⟩ := Option.map_eq_some_iff.mp hlookup
  obtain ⟨hltoken, hlocated⟩ := Prod.mk.inj hpair
  have hown : l.token = token := by
    rw [hltoken, Lookup.token, htoken]
    rfl
  have hpast : past ≤ l.locatedAt.now := by
    rw [hlocated]
    exact h₁.clock
  have hothers : ∀ k ∈ c.ids, k ≠ x → (s₂.nodes k).lookup = none := by
    intro k hk hkx
    have hlookup := hcalm₂.lookup k
    rw [set_of_ne hkx, hidle₁ k hk, Option.map_none] at hlookup
    exact Option.map_eq_none_iff.mp hlookup
  exact ⟨facts₂, l, hsub₁.trans hsub₂, h₂, hl, hown, hpast, hothers,
    (hcalm₁.hosts.trans hset).trans hcalm₂.hosts⟩

/-- A client is bound, or sent to a peer by a server that does not host its session; what is hosted
does not change then. -/
theorem attempt_spec (h : Told c facts past s) (hidle : Idle c s) (hx : x ∈ c.ids)
    {decision : ConnectDecision} (hattempt : Attempt desktop token s x decision s') :
    ∃ facts', facts ⊆ facts' ∧ Told c facts' past s' ∧ Idle c s' ∧
      ((∃ binding, decision = .bind binding) ∨
        ∃ peer addr, decision = .redirect peer addr ∧ Sends c facts' past token x peer addr ∧
          ¬ (s.nodes x).data.Hosts token ∧ SameHosts c s s') := by
  obtain ⟨htoken, hbefore, hbegun, hduring, hinTime, hdecision⟩ := hattempt
  rename_i s₁ s₂ hello remoteAddr randomToken infoProbe
  obtain ⟨facts', l, hsub, h₂, hl, rfl, hpast, hothers, hsame⟩ :=
    told_beforeFinish h hidle hx htoken hbefore hbegun hduring
  have hfinished := told_finish desktop h₂ hinTime
  rw [Node.finish_eq desktop hl] at hdecision
  obtain rfl := Option.some.inj hdecision
  refine ⟨facts', hsub, hfinished, ?_, ?_⟩
  · intro k hk
    rw [step]
    by_cases hkx : k = x
    · subst hkx
      rw [set_self, Node.lookup_finish]
    · rw [set_of_ne hkx]
      exact hothers k hk hkx
  · rcases h₂.answers hx hl hpast hinTime ((h₂.agreed.sound x hx).answers hl) with
      hbound | ⟨peer, addr, hdecision, hsends, hnone, hhosts⟩
    · exact .inl hbound
    · refine .inr ⟨peer, addr, hdecision, hsends, fun hhost => hnone ((hsame x hx _).mpr hhost),
        hsame.trans ?_⟩
      rw [step, Node.finish_eq desktop hl]
      exact sameHosts_set hhosts

/-! ### Following redirects -/

/-- An address that a server is sent to is that of one server. -/
theorem id_of_addrOf {i peer addr : String} (haddr : (c.config i).addrOf peer = some addr)
    {entry : ServerEntry} (hentry : entry ∈ c.servers) (hsame : entry.addr = addr) :
    entry.id = peer := by
  obtain ⟨named, hnamed, rfl⟩ := Option.map_eq_some_iff.mp haddr
  have hid : named.id = peer := by simpa using List.find?_some hnamed
  obtain rfl := List.inj_on_of_nodup_map c.nodup_addrs hentry (List.mem_of_find?_eq_some hnamed)
    hsame
  exact hid

/-- Where a client is sent after `n` redirects: at first, on someone's word, then to a server that
hosts its session. -/
structure SentTo (c : ClusterSetup) (facts : Set Fact) (past : Instant) (token : SessionToken)
    (s : Cluster S) (n : ℕ) (peer addr : String) : Prop where
  addr : ∃ i, (c.config i).addrOf peer = some addr
  known : n = 0 ∧ (∃ f ∈ facts, f.token = token ∧ f.peer = peer ∧ past < f.saidAt + day) ∨
    n = 1 ∧ (s.nodes peer).data.Hosts token

/-- **A client is bound after two redirects at most.** -/
theorem chase_spec (h : Told c facts past s) (hidle : Idle c s) (hx : x ∈ c.ids) {n : ℕ}
    {decision : ConnectDecision} (hchase : Chase desktop c token s x n decision s') :
    ∃ facts', Told c facts' past s' ∧ Idle c s' ∧
      ((∃ binding, decision = .bind binding) ∨
        ∃ peer addr, decision = .redirect peer addr ∧
          SentTo c facts' past token s' n peer addr) := by
  induction hchase with
  | first hattempt =>
    obtain ⟨facts', -, h', hidle', hbound | ⟨peer, addr, hdecision, hsends, -, -⟩⟩ :=
      attempt_spec h hidle hx hattempt
    · exact ⟨facts', h', hidle', .inl hbound⟩
    · exact ⟨facts', h', hidle', .inr ⟨peer, addr, hdecision, ⟨x, hsends.addr⟩,
        .inl ⟨rfl, hsends.fact⟩⟩⟩
  | @follow n serverId addr entry decision s' s'' _ hentry haddr hnext ih =>
    obtain ⟨facts', h', hidle', ⟨binding, hbound⟩ | ⟨peer, addr', hredirect, hsent⟩⟩ := ih
    · exact absurd hbound (by simp)
    · obtain ⟨rfl, rfl⟩ := ConnectDecision.redirect.inj hredirect
      obtain ⟨i, hserver⟩ := hsent.addr
      obtain rfl := id_of_addrOf hserver hentry haddr
      obtain ⟨facts'', hsub, h'', hidle'',
        hbound | ⟨peer, addr', hdecision, hsends, haway, hsame⟩⟩ :=
        attempt_spec h' hidle' (List.mem_map_of_mem hentry) hnext
      · exact ⟨facts'', h'', hidle'', .inl hbound⟩
      · refine ⟨facts'', h'', hidle'', .inr ⟨peer, addr', hdecision, ⟨_, hsends.addr⟩, .inr ?_⟩⟩
        rcases hsent.known with ⟨rfl, f, hf, rfl, hfpeer, hfday⟩ | ⟨-, hhosts⟩
        · -- the first peer has lost the session, and the second has created one since
          obtain ⟨g, hg, hgtoken, rfl, hgday⟩ := hsends.fact
          have hne : f.peer ≠ g.peer := by
            rw [hfpeer]
            exact hsends.ne.symm
          refine ⟨rfl, ?_⟩
          rcases h''.compared f (hsub hf) g hg hgtoken.symm hne with
            (hold | hday) | (hold | hday) | hshared
          · rw [hfpeer] at hold
            exact absurd ((hsame _ (List.mem_map_of_mem hentry) _).mp hold.hosts) haway
          · exact absurd hgday (not_lt_of_ge hday)
          · exact hold.hosts
          · exact absurd hfday (not_lt_of_ge hday)
          · exact hshared.2
        · exact absurd hhosts haway

/-! ### A client is always answered -/

/-- Asking the peers one by one comes to an end. -/
theorem exists_asked (desktop : Desktop S) {l : Lookup} (hl : (s.nodes x).lookup = some l)
    (hnow : l.answeredAt = s.clock.now) :
    ∃ s' l', ReflTransGen (QuietStep desktop) s s' ∧ (s'.nodes x).nextPeer = none ∧
      (s'.nodes x).lookup = some l' ∧ l'.answeredAt = s'.clock.now := by
  induction hleft : (s.nodes x).data.cluster.peers.length - l.answers.length generalizing s l with
  | zero =>
    refine ⟨s, l, .refl, ?_, hl, hnow⟩
    rw [Node.nextPeer, hl, Option.bind_some]
    split_ifs
    · exact List.getElem?_eq_none (by omega)
    · rfl
  | succ left ih =>
    cases hpeer : (s.nodes x).nextPeer with
    | none => exact ⟨s, l, .refl, hpeer, hl, hnow⟩
    | some peer =>
      have hstep : s.step desktop (.ask x) = s.set x ((s.nodes x).hear s.clock
          ((s.nodes peer.id).answer l.token.str (s.nodes x).data.cluster.clusterSecret)) := by
        rw [step, hl, hpeer]
      have hheard : ((s.step desktop (.ask x)).nodes x).lookup = some { l with
          answers := l.answers ++ [(s.nodes peer.id).answer l.token.str
            (s.nodes x).data.cluster.clusterSecret]
          answeredAt := s.clock.now } := by
        rw [hstep, set_self, Node.hear, hl]
        rfl
      have hdata : ((s.step desktop (.ask x)).nodes x).data = (s.nodes x).data := by
        rw [hstep, set_self]
        rfl
      obtain ⟨s', l', hrun, hasked⟩ := ih hheard (by rw [hstep, set_clock]) (by
        rw [hdata, List.length_append, List.length_singleton]
        omega)
      exact ⟨s', l', .head ⟨.ask x, trivial, rfl⟩ hrun, hasked⟩

/-- A client that comes to a server can be answered. -/
theorem exists_attempt (desktop : Desktop S) (token : SessionToken)
    (hidle : (s.nodes x).lookup = none) :
    ∃ decision s', Attempt desktop token s x decision s' := by
  -- a client that is connected leaves first
  obtain ⟨s₁, hbefore, hidle₁, hbegun⟩ : ∃ s₁, ReflTransGen (QuietStep desktop) s s₁ ∧
      (s₁.nodes x).lookup = none ∧ (s₁.nodes x).begun = false := by
    cases hbegun : (s.nodes x).begun with
    | false => exact ⟨s, .refl, hidle, hbegun⟩
    | true =>
      have hloop : (s.nodes x).loop desktop s.clock .clientDisconnected =
          { s.nodes x with
            data := (s.nodes x).data.applyEvent desktop
              (LocalEvent.toLoopEvent s.clock .clientDisconnected)
            begun := false } := if_pos (by rw [hidle]; rfl)
      refine ⟨_, .single ⟨.loop x .clientDisconnected, ite_self [], rfl⟩, ?_, ?_⟩
      · rw [step, set_self, hloop]
        exact hidle
      · rw [step, set_self, hloop]
  have hannounced : ((s₁.step desktop (.announce x ⟨0, [], some token.str⟩ "" "")).nodes x).lookup =
      some ⟨⟨0, [], some token.str⟩, "", "", s₁.clock, [], s₁.clock.now⟩ := by
    rw [step, set_self, Node.announce, if_pos ⟨hbegun, by rw [hidle₁]; rfl⟩]
  obtain ⟨s₂, l, hduring, hasked, hl, hnow⟩ := exists_asked desktop hannounced rfl
  have hdecision : ((s₂.nodes x).finish desktop s₂.clock fun _ => .noAnswer).1 = some _ :=
    congrArg Prod.fst (Node.finish_eq desktop hl)
  refine ⟨_, _, .intro rfl hbefore hbegun hduring ⟨hasked, fun l' hl' _ => ?_⟩ hdecision⟩
  obtain rfl := Option.some.inj (hl.symm.trans hl')
  rw [hnow]
  exact Nat.le_add_right _ _

/-- **Redirects converge.**  In every state that a cluster reaches where a session expires only on a
server that is alone with its token: if no other connect is in progress, a client that comes to any
server is answered, and whenever it has been answered, it is bound or can follow one more redirect,
after fewer than the limit; no other client connects and no session expires meanwhile. -/
theorem redirects_converge (desktop : Desktop S) (c : ClusterSetup) (hosts : String → Host S)
    (clk : Clock) (events : List (ClusterEvent S)) (hdbs : LeftBehind desktop c hosts)
    (hinTime : Along (step desktop) InTime (start c hosts clk) events)
    (hexpires : Along (step desktop) (ExpiresAlone c) (start c hosts clk) events)
    (token : SessionToken) (x : String) (hx : x ∈ c.ids)
    (hidle : Idle c (run desktop (start c hosts clk) events)) :
    let s := run desktop (start c hosts clk) events
    (∃ decision s', Chase desktop c token s x 0 decision s') ∧
      ∀ n decision s', Chase desktop c token s x n decision s' →
        (∃ binding, decision = .bind binding) ∨
          n < maxRedirects ∧ ∃ decision' s'', Chase desktop c token s x (n + 1) decision' s'' := by
  intro s
  obtain ⟨facts, htold⟩ := told_run hdbs hinTime hexpires
  refine ⟨?_, fun n decision s' hchase => ?_⟩
  · obtain ⟨decision, s', hattempt⟩ := exists_attempt desktop token (hidle x hx)
    exact ⟨decision, s', .first hattempt⟩
  · obtain ⟨facts', h', hidle', hbound | ⟨peer, addr, rfl, hsent⟩⟩ :=
      chase_spec htold hidle hx hchase
    · exact .inl hbound
    · -- the address is that of a server
      obtain ⟨i, haddr⟩ := hsent.addr
      obtain ⟨entry, hfind, rfl⟩ := Option.map_eq_some_iff.mp haddr
      have hentry : entry ∈ c.servers := List.mem_of_find?_eq_some hfind
      obtain ⟨decision', s'', hnext⟩ :=
        exists_attempt desktop token (hidle' _ (List.mem_map_of_mem hentry))
      refine .inr ⟨?_, decision', s'', .follow hchase hentry rfl hnext⟩
      rcases hsent.known with ⟨rfl, -⟩ | ⟨rfl, -⟩ <;> decide

section Witness

/-- No connect is in progress on either server. -/
theorem idle_pair {s : Cluster Unit}
    (h : (s.nodes "a").lookup = none ∧ (s.nodes "b").lookup = none) : Idle pair s := by
  intro k hk
  rcases List.mem_cons.mp hk with rfl | hk
  · exact h.1
  · obtain rfl := List.mem_singleton.mp hk
    exact h.2

/-- A client that comes where its session is not is not sent round. -/
theorem redirects_converge_inTurn :
    ¬ ∃ serverId addr s', Chase nullDesktop pair ⟨"t"⟩
      (run nullDesktop (start pair freshHosts ⟨0, 0⟩) inTurn) "b" maxRedirects
      (.redirect serverId addr) s' := by
  rintro ⟨serverId, addr, s', hchase⟩
  have hinTime : Along (step nullDesktop) InTime (start pair freshHosts ⟨0, 0⟩) inTurn :=
    ⟨trivial, trivial, inTime_of_lookup (by decide +kernel) (by decide +kernel), trivial, trivial,
      inTime_of_lookup (by decide +kernel) (by decide +kernel), trivial⟩
  rcases (redirects_converge nullDesktop pair freshHosts ⟨0, 0⟩ inTurn
    (fun _ _ _ hdb => absurd hdb (by simp [freshHosts])) hinTime
    ⟨trivial, trivial, trivial, trivial, trivial, trivial, trivial⟩ ⟨"t"⟩ "b" (by decide)
    (idle_pair (by decide +kernel))).2 _ _ _ hchase with ⟨binding, hbound⟩ | ⟨hlt, -⟩
  · exact absurd hbound (by simp)
  · exact lt_irrefl _ hlt

/-- After some events the client of token `"t"` comes to a server, and others follow. -/
def visit (s : Cluster Unit) (x : String) (before during : List (ClusterEvent Unit)) :
    Cluster Unit :=
  run nullDesktop ((run nullDesktop s before).step nullDesktop (clientAt x)) during

/-- Then the client is answered. -/
def served (s : Cluster Unit) (x : String) : Cluster Unit :=
  s.step nullDesktop (.finish x fun _ => .noAnswer)

theorem attempt_visit (s : Cluster Unit) (x : String) (before during : List (ClusterEvent Unit))
    (decision : ConnectDecision) (hbefore : Along (step nullDesktop) Quiet s before)
    (hduring : Along (step nullDesktop) Quiet
      ((run nullDesktop s before).step nullDesktop (clientAt x)) during)
    (hvisit : ((run nullDesktop s before).nodes x).begun = false ∧
      ((visit s x before during).nodes x).nextPeer = none ∧
      ((visit s x before during).nodes x).lookup.all
        (fun l => decide ((visit s x before during).clock.now ≤ l.answeredAt)) = true ∧
      (((visit s x before during).nodes x).finish nullDesktop (visit s x before during).clock
        fun _ => .noAnswer).1 = some decision) :
    Attempt nullDesktop ⟨"t"⟩ s x decision (served (visit s x before during) x) := by
  obtain ⟨hbegun, hnext, hnow, hdecision⟩ := hvisit
  exact .intro rfl (quietRun_of_along hbefore) hbegun (quietRun_of_along hduring)
    (inTime_of_lookup hnext hnow) hdecision

/-- Both clients leave, and a day later both sessions expire. -/
def forgotten : List (ClusterEvent Unit) :=
  crossing ++ [.loop "a" .clientDisconnected, .loop "b" .clientDisconnected, .elapse dayAfter,
    .loop "a" .cleanup, .loop "b" .cleanup]

/-- Each server sends the client to the other, up to the limit of redirects. -/
theorem redirects_cycle :
    let s := run nullDesktop (start pair freshHosts ⟨0, 0⟩) forgotten
    LeftBehind nullDesktop pair freshHosts ∧
      Along (step nullDesktop) InTime (start pair freshHosts ⟨0, 0⟩) forgotten ∧ Idle pair s ∧
        ∃ s', Chase nullDesktop pair ⟨"t"⟩ s "a" maxRedirects
          (.redirect "a" "10.0.0.1:4433") s' := by
  intro s
  refine ⟨fun _ _ _ hdb => absurd hdb (by simp [freshHosts]), ?_,
    idle_pair (by decide +kernel), ?_⟩
  · exact ⟨trivial, trivial, trivial, trivial,
      inTime_of_lookup (by decide +kernel) (by decide +kernel),
      inTime_of_lookup (by decide +kernel) (by decide +kernel), trivial, trivial, trivial, trivial,
      trivial, trivial⟩
  · -- at first each asks the other, and notes that it is the home
    let s₁ := served (visit s "a" [] [.ask "a"]) "a"
    let s₂ := served (visit s₁ "b" [] [.ask "b"]) "b"
    -- later each trusts its note, although it has published since that it does not host the token
    let s₃ := served (visit s₂ "a" [.loop "a" .clientDisconnected] []) "a"
    let s₄ := served (visit s₃ "b" [.loop "b" .clientDisconnected] []) "b"
    have h₁ : Attempt nullDesktop ⟨"t"⟩ s "a" (.redirect "b" "10.0.0.2:4433") s₁ :=
      attempt_visit _ _ _ _ _ trivial ⟨trivial, trivial⟩ (by decide +kernel)
    have h₂ : Attempt nullDesktop ⟨"t"⟩ s₁ "b" (.redirect "a" "10.0.0.1:4433") s₂ :=
      attempt_visit _ _ _ _ _ trivial ⟨trivial, trivial⟩ (by decide +kernel)
    have h₃ : Attempt nullDesktop ⟨"t"⟩ s₂ "a" (.redirect "b" "10.0.0.2:4433") s₃ :=
      attempt_visit _ _ _ _ _ ⟨ite_self [], trivial⟩ trivial (by decide +kernel)
    have h₄ : Attempt nullDesktop ⟨"t"⟩ s₃ "b" (.redirect "a" "10.0.0.1:4433") s₄ :=
      attempt_visit _ _ _ _ _ ⟨ite_self [], trivial⟩ trivial (by decide +kernel)
    have ha : ⟨"a", "10.0.0.1:4433", 100, ""⟩ ∈ pair.servers := .head _
    have hb : ⟨"b", "10.0.0.2:4433", 100, ""⟩ ∈ pair.servers := .tail _ (.head _)
    exact ⟨s₄, .follow (.follow (.follow (.first h₁) hb rfl h₂) ha rfl h₃) hb rfl h₄⟩

end Witness

end Cluster

end WayRay
