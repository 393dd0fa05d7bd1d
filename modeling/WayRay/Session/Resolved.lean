import WayRay.Session.Restore

/-!
# Finding a session by its token

`Resolved r` says that the index of a registry is not only sound but complete: every session that is
not destroyed is the one its token leads to.  Together with `Indexed` this makes a token lead to the
session that holds it, and to none if the token is `Vacant`.

It needs a session to be created, or restored, only for a vacant token: `resolved_step` says so of
every operation.
-/

namespace WayRay

namespace SessionRegistry

/-- No session that holds the token is alive. -/
def Vacant (r : SessionRegistry) (token : SessionToken) : Prop :=
  ∀ ⦃i s⦄, r.sessions.get i = some s → s.state ≠ .destroyed → s.token ≠ token

/-- Every session that is not destroyed is found by its token. -/
structure Resolved (r : SessionRegistry) : Prop extends Consistent r where
  resolves : ∀ {i s}, r.sessions.get i = some s → s.state ≠ .destroyed →
    r.tokenIndex.get s.token = some i

variable {clk : Clock} {r : SessionRegistry} {id i : SessionId} {s s' : Session}

/-- Two sessions with one token that are not destroyed are the same. -/
theorem Resolved.id_eq (h : Resolved r) {j : SessionId} (hs : r.sessions.get i = some s)
    (hs' : r.sessions.get j = some s') (hst : s.state ≠ .destroyed) (hst' : s'.state ≠ .destroyed)
    (htok : s.token = s'.token) : i = j := by
  have hi := h.resolves hs hst
  rw [htok, h.resolves hs' hst'] at hi
  exact (Option.some.inj hi).symm

/-- A token leads to the session that holds it. -/
theorem Resolved.tokenIndex_eq_some (h : Resolved r) {t : SessionToken} :
    r.tokenIndex.get t = some i ↔
      ∃ s, r.sessions.get i = some s ∧ s.token = t ∧ s.state ≠ .destroyed := by
  constructor
  · intro hi
    obtain ⟨s, hs, -, htok, hst⟩ := h.index hi
    exact ⟨s, hs, htok, hst⟩
  · rintro ⟨s, hs, rfl, hst⟩
    exact h.resolves hs hst

/-- A vacant token leads nowhere. -/
theorem Resolved.tokenIndex_eq_none (h : Resolved r) {t : SessionToken} :
    r.tokenIndex.get t = none ↔ r.Vacant t := by
  constructor
  · rintro hnone i s hs hst rfl
    rw [h.resolves hs hst] at hnone
    exact absurd hnone (Option.some_ne_none i)
  · intro hvacant
    rw [Option.eq_none_iff_forall_ne_some]
    intro i hi
    obtain ⟨s, hs, htok, hst⟩ := h.tokenIndex_eq_some.mp hi
    exact hvacant hs hst htok

/-! ### Changing one session -/

/-- A session is replaced by one with its token, which is alive only if the old one was. -/
theorem Resolved.resolves_insert (h : Resolved r) {s₀ : Session}
    (hs₀ : r.sessions.get id = some s₀) (htok : s.token = s₀.token)
    (hst : s.state ≠ .destroyed → s₀.state ≠ .destroyed)
    (hs' : (r.sessions.insert id s).get i = some s') (hst' : s'.state ≠ .destroyed) :
    r.tokenIndex.get s'.token = some i := by
  refine HashMap.of_get_insert
    (P := fun i s' => s'.state ≠ .destroyed → r.tokenIndex.get s'.token = some i) hs' ?_
    (fun hold => h.resolves hold) hst'
  intro hlive
  rw [htok, h.resolves hs₀ (hst hlive)]

theorem Resolved.create (h : Resolved r) {token : SessionToken} (hvacant : r.Vacant token) :
    Resolved (r.createSession clk token).2 := by
  refine { consistent_move (G := Vacant) h.toConsistent (.create hvacant) with resolves := ?_ }
  intro i s hs hst
  simp only [createSession, HashMap.get_insert] at hs ⊢
  split_ifs at hs with hi
  · obtain rfl := Option.some.inj hs
    exact (if_pos rfl).trans (congrArg some hi.symm)
  · rw [if_neg (hvacant hs hst)]
    exact h.resolves hs hst

theorem Resolved.destroy (h : Resolved r) (hs : r.sessions.get id = some s)
    (hd : s.state ≠ .destroyed) :
    Resolved { r with
      sessions := r.sessions.insert id (s.moved clk.now .destroyed)
      tokenIndex := r.tokenIndex.remove s.token
      store := r.store.remove id } := by
  refine { consistent_move (G := Vacant) h.toConsistent (.destroy hs hd) with resolves := ?_ }
  intro i s' hs' hst'
  rw [HashMap.get_insert] at hs'
  split_ifs at hs' with hi
  · obtain rfl := Option.some.inj hs'
    exact absurd rfl hst'
  · -- the token that leaves the index is no other live session's
    have htok : s'.token ≠ s.token := fun htok => hi (h.id_eq hs' hs hst' hd htok)
    rw [HashMap.get_remove_of_ne _ htok]
    exact h.resolves hs' hst'

/-! ### Every operation -/

/-- A session is created or restored only for a token that no live session holds: the rows to be
restored hold different tokens, and none that a session in memory holds. -/
def TakesVacant (r : SessionRegistry) : RegistryOp → Prop
  | .createSession token => r.Vacant token
  | .restorePersisted _ =>
    r.store.LiveTokensDistinct ∧ ∀ i p, r.store.liveRow i = some p → r.Vacant ⟨p.token⟩
  | _ => True

private theorem resolved_transition (h : Resolved r) (id : SessionId) (next : SessionState) :
    Resolved (r.transition clk id next).2 := by
  have hcons : Consistent (r.transition clk id next).2 :=
    step_invariant consistent_move h.toConsistent (.transition id next)
  rcases r.transition_cases clk id next with ⟨e, hsame⟩ | ⟨s, hs, hc⟩
  · rw [hsame]
    exact h
  · have hlive : s.state ≠ .destroyed := fun hst => by
      rw [hst, SessionState.destroyed_canTransitionTo] at hc
      exact absurd hc Bool.false_ne_true
    rw [transition_of_can hs hc] at hcons ⊢
    by_cases hn : next = .destroyed
    · subst hn
      exact h.destroy hs hlive
    · rw [if_neg hn] at hcons ⊢
      exact { hcons with
        resolves := h.resolves_insert hs (s.moved_token clk.now next) fun _ => hlive }

private theorem resolved_update (h : Resolved r) (id : SessionId) {f : Session → Session}
    (hf : IsSetter f) (hcons : Consistent (r.update clk id f)) : Resolved (r.update clk id f) := by
  refine { hcons with resolves := ?_ }
  unfold update
  cases hs : r.sessions.get id with
  | none => exact h.resolves
  | some s => exact h.resolves_insert hs (hf.token_eq s) fun hst => by rwa [hf.state_eq] at hst

private theorem resolved_restore (h : Resolved r) (find : Enumeration (SessionId × SessionRecord))
    (hdist : r.store.LiveTokensDistinct)
    (hvacant : ∀ i p, r.store.liveRow i = some p → r.Vacant ⟨p.token⟩) :
    Resolved (r.restorePersisted clk find).2 := by
  have hcons : Consistent (r.restorePersisted clk find).2 :=
    step_invariant consistent_move h.toConsistent (.restorePersisted find)
  obtain ⟨hrow, hother⟩ := tokenIndex_restorePersisted clk find hdist
  refine { hcons with resolves := ?_ }
  intro i s hs hst
  rw [sessions_restorePersisted, Option.or_eq_some_iff] at hs
  rcases hs with hs | ⟨-, hs⟩
  · -- the session has just been restored
    obtain ⟨p, hp, rfl⟩ := Option.map_eq_some_iff.mp hs
    exact hrow i p hp
  · -- it was there before, so no row holds its token
    rw [hother s.token fun j p hp htok => hvacant j p hp hs hst htok.symm]
    exact h.resolves hs hst

/-- **Every operation keeps the tokens resolved**, if it takes vacant ones only. -/
theorem resolved_step (h : Resolved r) {op : RegistryOp} (hop : r.TakesVacant op) :
    Resolved (r.step clk op).2 := by
  have hcons : Consistent (r.step clk op).2 := step_invariant consistent_move h.toConsistent op
  cases op with
  | createSession token => exact h.create hop
  | activate id | suspend id | destroy id | transition id next => exact resolved_transition h id _
  | setUser id user => exact resolved_update h id (isSetter_user user) hcons
  | setSuspendTimeout id timeout =>
    exact resolved_update h id (isSetter_suspendTimeout timeout) hcons
  | noteRemoteSession token serverId => exact { hcons with resolves := h.resolves }
  | pruneRemoteSessions => exact { hcons with resolves := h.resolves }
  | cleanupExpired =>
    exact List.foldlRecOn (r.expiredIds clk) _ h fun r hr id _ => resolved_transition hr id _
  | purgeDestroyed =>
    exact { hcons with resolves := fun hs => h.resolves (HashMap.get_retain_eq_some.mp hs).1 }
  | restorePersisted find => exact resolved_restore h find hop.1 hop.2

end SessionRegistry

end WayRay
