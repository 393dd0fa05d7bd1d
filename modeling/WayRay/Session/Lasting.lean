import WayRay.Session.Restore

/-!
# What stays true of one session

`HoldsUnder P i r` says that the id `i` has been given out and that the session stored under it, if
there still is one, satisfies `P`.  Ids are not given out twice, so that an operation keeps it if it
is kept by what can happen to one session: `HoldsUnder.step`.
-/

namespace WayRay

namespace SessionRegistry

/-- The id has been given out, and the session stored under it, if there is one, satisfies `P`. -/
def HoldsUnder (P : Session → Prop) (i : SessionId) (r : SessionRegistry) : Prop :=
  i.raw < r.nextId ∧ ∀ s, r.sessions.get i = some s → P s

variable {P : Session → Prop} {i : SessionId} {clk : Clock} {r : SessionRegistry}

theorem HoldsUnder.transition (h : r.HoldsUnder P i)
    (hmoved : ∀ s next, P s → s.state.canTransitionTo next = true → P (s.moved clk.now next))
    (id : SessionId) (next : SessionState) : (r.transition clk id next).2.HoldsUnder P i := by
  refine ⟨(r.nextId_transition clk id next).symm ▸ h.1, fun s' hs' => ?_⟩
  rcases r.transition_cases clk id next with ⟨e, hsame⟩ | ⟨s, hs, hc⟩
  · rw [hsame] at hs'
    exact h.2 s' hs'
  · rw [sessions_transition_of_can hs hc] at hs'
    exact HashMap.of_get_insert (P := fun j s => j = i → P s) hs'
      (fun hi => hmoved s next (h.2 s (hi ▸ hs)) hc) (fun hold _ => h.2 s' hold) rfl

theorem HoldsUnder.update (h : r.HoldsUnder P i) (id : SessionId) {f : Session → Session}
    (hf : i = id → ∀ s, P s → P (f s)) : (r.update clk id f).HoldsUnder P i := by
  unfold SessionRegistry.update
  cases hs : r.sessions.get id with
  | none => exact h
  | some s =>
    refine ⟨h.1, fun s' hs' => ?_⟩
    exact HashMap.of_get_insert (P := fun j s => j = i → P s) hs'
      (fun hi => hf hi.symm s (h.2 s (hi ▸ hs))) (fun hold _ => h.2 s' hold) rfl

/-- **Step lemma**: a property of one session that survives its transitions, the setters called for
it and its restoring survives every operation. -/
theorem HoldsUnder.step (h : r.HoldsUnder P i) (op : RegistryOp)
    (hmoved : ∀ s next, P s → s.state.canTransitionTo next = true → P (s.moved clk.now next))
    (huser : ∀ s user, P s → P { s with user := some user })
    (htimeout : ∀ timeout, op = .setSuspendTimeout i timeout →
      ∀ s, P s → P { s with suspendTimeout := timeout })
    (hrestore : ∀ p, r.store.liveRow i = some p → P (restoredSession clk p)) :
    (r.step clk op).2.HoldsUnder P i := by
  cases op with
  | createSession token =>
    -- the new session takes another id
    have hne : i ≠ ⟨r.nextId⟩ := by
      rintro rfl
      exact lt_irrefl _ h.1
    refine ⟨Nat.lt_succ_of_lt h.1, fun s hs => h.2 s ?_⟩
    exact (HashMap.get_insert_of_ne _ _ hne).symm.trans hs
  | activate id => exact h.transition hmoved id .active
  | suspend id => exact h.transition hmoved id .suspended
  | destroy id => exact h.transition hmoved id .destroyed
  | transition id next => exact h.transition hmoved id next
  | setUser id user => exact h.update id fun _ s => huser s user
  | setSuspendTimeout id timeout =>
    refine h.update id fun hi s hs => htimeout timeout ?_ s hs
    rw [hi]
  | noteRemoteSession _ _ | pruneRemoteSessions => exact h
  | cleanupExpired =>
    exact List.foldlRecOn (r.expiredIds clk) _ h fun _ hr id _ =>
      hr.transition hmoved id .destroyed
  | purgeDestroyed => exact ⟨h.1, fun s hs => h.2 s (HashMap.get_retain_eq_some.mp hs).1⟩
  | restorePersisted find =>
    refine ⟨lt_of_lt_of_le h.1 (nextId_restorePersisted clk find).1, fun s hs => ?_⟩
    rw [SessionRegistry.step, Prod.map_snd, id_eq, sessions_restorePersisted,
      Option.or_eq_some_iff, Option.map_eq_some_iff] at hs
    rcases hs with ⟨p, hp, rfl⟩ | ⟨-, hs⟩
    · exact hrestore p hp
    · exact h.2 s hs

end SessionRegistry

end WayRay
