import WayRay.Session.Index

/-!
# Ending a session

`destroy` and `cleanup_expired` take the token of a destroyed session out of the index without
asking which session the entry names.  `lookups_kept_iff` says exactly when the other live sessions
keep their lookups.  `lookup_lost` is the other case: of two sessions created for one token,
destroying the first hides the second.

The registries are those of `Reachable`: any store may be attached at any time, so that rows sharing
a token, or disagreeing with the sessions in memory, may be restored.
-/

namespace WayRay

namespace SessionRegistry

/-- The registries that the public operations can build. -/
inductive Reachable : SessionRegistry → Prop
  | new : Reachable .new
  | withCluster (localServerId : String) (capacity : ℕ) :
      Reachable (.withCluster localServerId capacity)
  | withStore {r : SessionRegistry} (hr : Reachable r) (store : SessionStore) :
      Reachable (r.withStore store)
  | step {r : SessionRegistry} (hr : Reachable r) (clk : Clock) (op : RegistryOp) :
      Reachable (r.step clk op).2

theorem Reachable.run {r : SessionRegistry} (hr : Reachable r)
    (history : List (Clock × RegistryOp)) : Reachable (r.run history) :=
  run_induction hr (fun _ clk op h => h.step clk op) history

theorem Reachable.ownIds {r : SessionRegistry} (hr : Reachable r) : OwnIds r := by
  induction hr with
  | new => exact fun i s hs => by simp [SessionRegistry.new] at hs
  | withCluster _ _ =>
    exact fun i s hs => by simp [SessionRegistry.withCluster, SessionRegistry.new] at hs
  | withStore _ _ ih => exact ih
  | step _ clk op ih => exact step_invariant ownIds_move ih op

/-! ### Destroying a list of sessions -/

/-- A session as `destroy` leaves it: a destroyed one stays as it is. -/
def ended (now : Instant) (s : Session) : Session :=
  if s.state = .destroyed then s else s.moved now .destroyed

@[simp] theorem ended_state (now : Instant) (s : Session) : (ended now s).state = .destroyed := by
  unfold ended
  split_ifs with h
  · exact h
  · rfl

theorem ended_of_destroyed {now : Instant} {s : Session} (h : s.state = .destroyed) :
    ended now s = s :=
  if_pos h

variable {clk : Clock} {r : SessionRegistry}

/-- `destroy` does nothing to a session that is missing or destroyed already. -/
theorem destroy_of_dead {id : SessionId}
    (h : ∀ s, r.sessions.get id = some s → s.state = .destroyed) : (r.destroy clk id).2 = r := by
  unfold destroy
  cases hs : r.sessions.get id with
  | none => simp [transition, hs]
  | some s => simp [transition, hs, Session.transition_error, h s hs]

theorem destroy_of_live {id : SessionId} {s : Session} (hs : r.sessions.get id = some s)
    (hd : s.state ≠ .destroyed) :
    (r.destroy clk id).2 = { r with
      sessions := r.sessions.insert id (s.moved clk.now .destroyed)
      tokenIndex := r.tokenIndex.remove s.token
      store := r.store.remove id } := by
  rw [destroy, transition_of_can hs ((SessionState.canTransitionTo_destroyed _).mpr hd), if_pos rfl]

/-- What `destroy` does to the sessions. -/
theorem sessions_destroy (id i : SessionId) :
    (r.destroy clk id).2.sessions.get i =
      if i = id then (r.sessions.get i).map (ended clk.now) else r.sessions.get i := by
  by_cases hlive : ∃ s, r.sessions.get id = some s ∧ s.state ≠ .destroyed
  · obtain ⟨s, hs, hd⟩ := hlive
    rw [destroy_of_live hs hd, HashMap.get_insert]
    by_cases hi : i = id
    · rw [if_pos hi, if_pos hi, hi, hs, Option.map_some, ended, if_neg hd]
    · rw [if_neg hi, if_neg hi]
  · have hdead : ∀ s, r.sessions.get id = some s → s.state = .destroyed := by
      intro s hs
      by_contra hd
      exact hlive ⟨s, hs, hd⟩
    rw [destroy_of_dead hdead]
    by_cases hi : i = id
    · subst hi
      rw [if_pos rfl]
      cases hs : r.sessions.get i with
      | none => rfl
      | some s => rw [Option.map_some, ended_of_destroyed (hdead s hs)]
    · rw [if_neg hi]

/-- What `destroy` does to the index. -/
theorem tokenIndex_destroy (id : SessionId) (t : SessionToken) :
    (r.destroy clk id).2.tokenIndex.get t =
      if ∃ s, r.sessions.get id = some s ∧ s.state ≠ .destroyed ∧ s.token = t then none
      else r.tokenIndex.get t := by
  by_cases hlive : ∃ s, r.sessions.get id = some s ∧ s.state ≠ .destroyed
  · obtain ⟨s, hs, hd⟩ := hlive
    rw [destroy_of_live hs hd, HashMap.get_remove]
    refine if_congr ?_ rfl rfl
    constructor
    · rintro rfl
      exact ⟨s, hs, hd, rfl⟩
    · rintro ⟨s', hs', -, rfl⟩
      rw [Option.some.inj (hs.symm.trans hs')]
  · rw [destroy_of_dead fun s hs => by_contra fun hd => hlive ⟨s, hs, hd⟩, if_neg]
    rintro ⟨s, hs, hd, -⟩
    exact hlive ⟨s, hs, hd⟩

/-- The sessions after destroying a list of ids. -/
theorem sessions_destroyAll (ids : List SessionId) (i : SessionId) :
    (ids.foldl (fun r id => (r.destroy clk id).2) r).sessions.get i =
      if i ∈ ids then (r.sessions.get i).map (ended clk.now) else r.sessions.get i := by
  induction ids generalizing r with
  | nil => simp
  | cons id ids ih =>
    rw [List.foldl_cons, ih, sessions_destroy]
    have hidem : ∀ s, ended clk.now (ended clk.now s) = ended clk.now s :=
      fun s => ended_of_destroyed (ended_state _ s)
    by_cases hi : i = id
    · subst hi
      by_cases hmem : i ∈ ids <;> simp [hmem, Option.map_map, Function.comp_def, hidem]
    · by_cases hmem : i ∈ ids <;> simp [hmem, hi]

/-- What expires is a suspended session whose time has run out. -/
theorem OwnIds.mem_expiredIds {i : SessionId} (h : OwnIds r) :
    i ∈ r.expiredIds clk ↔ ∃ s, r.sessions.get i = some s ∧ s.state = .suspended ∧
      ∃ t, s.suspendedAt = some t ∧ s.suspendTimeout.asNanos ≤ Instant.elapsed t clk.now := by
  have hexpired : ∀ s : Session, s.isSuspendExpired clk.now = true ↔ s.state = .suspended ∧
      ∃ t, s.suspendedAt = some t ∧ s.suspendTimeout.asNanos ≤ Instant.elapsed t clk.now := by
    intro s
    by_cases hst : s.state = .suspended
    · simp [Session.isSuspendExpired, hst, Option.any_eq_true]
    · simp [Session.isSuspendExpired, hst]
  simp only [expiredIds, List.mem_map, List.mem_filter, hexpired, HashMap.mem_values]
  constructor
  · rintro ⟨s, ⟨⟨j, hj⟩, hout⟩, rfl⟩
    obtain rfl : s.id = j := h hj
    exact ⟨s, hj, hout⟩
  · rintro ⟨s, hs, hout⟩
    exact ⟨s, ⟨⟨i, hs⟩, hout⟩, h hs⟩

/-- A token leaves the index when a live session that carries it is destroyed, and not otherwise. -/
theorem tokenIndex_destroyAll (ids : List SessionId) (t : SessionToken) :
    (ids.foldl (fun r id => (r.destroy clk id).2) r).tokenIndex.get t =
      if ∃ i ∈ ids, ∃ s, r.sessions.get i = some s ∧ s.state ≠ .destroyed ∧ s.token = t then none
      else r.tokenIndex.get t := by
  induction ids generalizing r with
  | nil => simp
  | cons id ids ih =>
    -- after destroying `id`, the other sessions are as before
    have hother : ∀ i s, (r.destroy clk id).2.sessions.get i = some s ∧ s.state ≠ .destroyed →
        r.sessions.get i = some s ∧ i ≠ id := by
      rintro i s ⟨hs, hd⟩
      rw [sessions_destroy] at hs
      split_ifs at hs with hi
      · obtain ⟨s', -, rfl⟩ := Option.map_eq_some_iff.mp hs
        exact absurd (ended_state _ s') hd
      · exact ⟨hs, hi⟩
    rw [List.foldl_cons, ih, tokenIndex_destroy]
    by_cases hid : ∃ s, r.sessions.get id = some s ∧ s.state ≠ .destroyed ∧ s.token = t
    · rw [if_pos hid, ite_self, if_pos ⟨id, List.mem_cons_self, hid⟩]
    · rw [if_neg hid]
      refine if_congr ?_ rfl rfl
      constructor
      · rintro ⟨i, hi, s, hs, hd, ht⟩
        exact ⟨i, List.mem_cons_of_mem _ hi, s, (hother i s ⟨hs, hd⟩).1, hd, ht⟩
      · rintro ⟨i, hi, s, hs, hd, ht⟩
        have hne : i ≠ id := by
          rintro rfl
          exact hid ⟨s, hs, hd, ht⟩
        refine ⟨i, (List.mem_cons.mp hi).resolve_left hne, s, ?_, hd, ht⟩
        rw [sessions_destroy, if_neg hne, hs]

/-! ### Ending sessions -/

/-- The operations that end sessions. -/
inductive Ending where
  | destroy (id : SessionId)
  | cleanupExpired
deriving DecidableEq

namespace Ending

def op : Ending → RegistryOp
  | destroy id => .destroy id
  | cleanupExpired => .cleanupExpired

/-- Whether the operation means to end the session `s` stored under `i`. -/
def targets (e : Ending) (clk : Clock) (i : SessionId) (s : Session) : Prop :=
  match e with
  | destroy id => i = id
  | cleanupExpired => s.isSuspendExpired clk.now = true

end Ending

/-- The live session `s`, stored under `i`, is about to be destroyed. -/
def Doomed (r : SessionRegistry) (clk : Clock) (e : Ending) (i : SessionId) (s : Session) : Prop :=
  r.sessions.get i = some s ∧ s.state ≠ .destroyed ∧ e.targets clk i s

/-- Both operations destroy a list of ids. -/
private theorem step_ending (h : OwnIds r) (clk : Clock) (e : Ending) :
    ∃ ids : List SessionId,
      (r.step clk e.op).2 = ids.foldl (fun r id => (r.destroy clk id).2) r ∧
      ∀ i s, r.sessions.get i = some s → (i ∈ ids ↔ e.targets clk i s) := by
  cases e with
  | destroy id => exact ⟨[id], rfl, fun i s _ => List.mem_singleton⟩
  | cleanupExpired =>
    refine ⟨r.expiredIds clk, rfl, fun i s hs => ?_⟩
    simp only [expiredIds, List.mem_map, List.mem_filter, HashMap.mem_values, Ending.targets]
    constructor
    · rintro ⟨s', ⟨⟨k, hk⟩, hexp⟩, hid⟩
      obtain rfl : k = i := (h hk).symm.trans hid
      rw [hs, Option.some.injEq] at hk
      exact hk ▸ hexp
    · exact fun hexp => ⟨s, ⟨⟨i, hs⟩, hexp⟩, h hs⟩

/-- A token keeps its lookup if and only if it finds no session, or no ended session carries the
token or is the session found. -/
theorem findByToken_ending {r : SessionRegistry} (h : OwnIds r) (clk : Clock) (e : Ending)
    (t : SessionToken) :
    (r.step clk e.op).2.findByToken t = r.findByToken t ↔
      ∀ found, r.findByToken t = some found →
        ∀ j d, r.Doomed clk e j d → d.token ≠ t ∧ d ≠ found := by
  obtain ⟨ids, hstep, hids⟩ := step_ending h clk e
  have hdoomed : (∃ j ∈ ids, ∃ d, r.sessions.get j = some d ∧ d.state ≠ .destroyed ∧
      d.token = t) ↔ ∃ j d, r.Doomed clk e j d ∧ d.token = t := by
    constructor
    · rintro ⟨j, hj, d, hd, hst, ht⟩
      exact ⟨j, d, ⟨hd, hst, (hids j d hd).mp hj⟩, ht⟩
    · rintro ⟨j, d, ⟨hd, hst, htar⟩, ht⟩
      exact ⟨j, (hids j d hd).mpr htar, d, hd, hst, ht⟩
  rw [hstep, findByToken, findByToken, tokenIndex_destroyAll]
  by_cases hshare : ∃ j d, r.Doomed clk e j d ∧ d.token = t
  · -- an ended session carries the token, whose entry goes
    rw [if_pos (hdoomed.mpr hshare), Option.bind_none]
    constructor
    · intro heq found hfound
      rw [← heq] at hfound
      exact absurd hfound (by simp)
    · intro hcond
      obtain ⟨j, d, hd, ht⟩ := hshare
      cases hfind : (r.tokenIndex.get t).bind r.sessions.get with
      | none => rfl
      | some found => exact absurd ht (hcond found hfind j d hd).1
  · -- the entry stays, but the session it leads to may be an ended one
    rw [if_neg (mt hdoomed.mp hshare)]
    cases hk : r.tokenIndex.get t with
    | none => simp
    | some k =>
      simp only [Option.bind_some, sessions_destroyAll]
      constructor
      · intro heq found hfound j d hd
        refine ⟨fun ht => hshare ⟨j, d, hd, ht⟩, ?_⟩
        rintro rfl
        -- the session found is stored under `k`, which is therefore among the destroyed ids
        obtain rfl : j = k := (h hd.1).symm.trans (h hfound)
        rw [if_pos ((hids j d hd.1).mpr hd.2.2), hd.1, Option.map_some, Option.some.injEq] at heq
        exact hd.2.1 (heq ▸ ended_state _ d)
      · intro hcond
        cases hfound : r.sessions.get k with
        | none => simp
        | some found =>
          by_cases hmem : k ∈ ids
          · have hdead : found.state = .destroyed := by
              by_contra hst
              exact (hcond found hfound k found ⟨hfound, hst, (hids k found hfound).mp hmem⟩).2 rfl
            rw [if_pos hmem, Option.map_some, ended_of_destroyed hdead]
          · rw [if_neg hmem]

/-- **The frame law of ending a session, exactly.**  Every live session that is not itself ended
keeps the lookup of its token if and only if no session that is ended shares the token of such a
session whose lookup finds a session, or is the session found. -/
theorem lookups_kept_iff {r : SessionRegistry} (hr : Reachable r) (clk : Clock) (e : Ending) :
    (∀ i s, r.sessions.get i = some s → s.state.resumable = true → ¬ r.Doomed clk e i s →
        (r.step clk e.op).2.findByToken s.token = r.findByToken s.token) ↔
      ∀ i s, r.sessions.get i = some s → s.state.resumable = true → ¬ r.Doomed clk e i s →
        ∀ found, r.findByToken s.token = some found →
          ∀ j d, r.Doomed clk e j d → d.token ≠ s.token ∧ d ≠ found := by
  simp only [findByToken_ending hr.ownIds]

/-- The history that creates and activates a session for each of two tokens, and suspends the first
with a timeout of one second. -/
def oneSuspended : SessionRegistry :=
  new.run [(⟨0, 0⟩, .createSession ⟨"t"⟩), (⟨0, 0⟩, .createSession ⟨"u"⟩),
    (⟨0, 0⟩, .activate ⟨1⟩), (⟨0, 0⟩, .activate ⟨2⟩),
    (⟨0, 0⟩, .setSuspendTimeout ⟨1⟩ (.fromSecs 1)), (⟨0, 0⟩, .suspend ⟨1⟩)]

/-- The second session of that history. -/
def stillActive : Session := { Session.new ⟨2⟩ ⟨"u"⟩ "" 0 with state := .active }

/-- A cleanup ends the suspended session, and the other keeps its lookup. -/
theorem lookups_kept_cleanup :
    let r := (oneSuspended.step ⟨10 ^ 9, 0⟩ Ending.cleanupExpired.op).2
    r.findByToken ⟨"t"⟩ = none ∧ r.findByToken ⟨"u"⟩ = oneSuspended.findByToken ⟨"u"⟩ := by
  have hreachable : Reachable oneSuspended := Reachable.new.run _
  have honly : ∀ d ∈ oneSuspended.sessions.values, d.isSuspendExpired (10 ^ 9) = true →
      d.id = ⟨1⟩ ∧ d.token = ⟨"t"⟩ := by decide
  have hdoomed : ∀ j d, oneSuspended.Doomed ⟨10 ^ 9, 0⟩ .cleanupExpired j d →
      d.id = ⟨1⟩ ∧ d.token = ⟨"t"⟩ := fun j d hd =>
    honly d (HashMap.mem_values.mpr ⟨j, hd.1⟩) hd.2.2
  have hother : ∀ s ∈ oneSuspended.sessions.values, s.state.resumable = true →
      s.isSuspendExpired (10 ^ 9) = false → oneSuspended.findByToken s.token = some s ∧
        s.token ≠ ⟨"t"⟩ ∧ s.id ≠ ⟨1⟩ := by decide
  refine ⟨by decide, (lookups_kept_iff hreachable ⟨10 ^ 9, 0⟩ .cleanupExpired).mpr ?_ ⟨2⟩
    stillActive (by decide) (by decide) fun hd => absurd (hdoomed _ _ hd).2 (by decide)⟩
  intro i s hs hlive hspared found hfound j d hd
  have hexpired : s.isSuspendExpired (10 ^ 9) = false := by
    by_contra hexpired
    refine hspared ⟨hs, fun hdead => ?_, eq_true_of_ne_false hexpired⟩
    rw [hdead] at hlive
    exact Bool.false_ne_true hlive
  obtain ⟨hlookup, htoken, hid⟩ := hother s (HashMap.mem_values.mpr ⟨i, hs⟩) hlive hexpired
  obtain rfl := Option.some.inj (hlookup.symm.trans hfound)
  obtain ⟨hdid, hdtoken⟩ := hdoomed j d hd
  exact ⟨fun htok => htoken (htok ▸ hdtoken), fun heq => hid (heq ▸ hdid)⟩

/-- The history that creates two sessions for one token and activates both. -/
def twoOfOneToken : SessionRegistry :=
  new.run [(⟨0, 0⟩, .createSession ⟨"t"⟩), (⟨0, 0⟩, .createSession ⟨"t"⟩),
    (⟨0, 0⟩, .activate ⟨1⟩), (⟨0, 0⟩, .activate ⟨2⟩)]

theorem reachable_twoOfOneToken : Reachable twoOfOneToken := Reachable.new.run _

/-- The second of the two sessions. -/
def secondOfToken : Session := { Session.new ⟨2⟩ ⟨"t"⟩ "" 0 with state := .active }

/-- **A lookup lost.**  Of two active sessions created for one token, destroying the first takes the
token of the second out of the index. -/
theorem lookup_lost :
    Reachable twoOfOneToken ∧
      ¬ ∀ i s, twoOfOneToken.sessions.get i = some s → s.state.resumable = true →
        ¬ twoOfOneToken.Doomed ⟨0, 0⟩ (.destroy ⟨1⟩) i s →
        (twoOfOneToken.step ⟨0, 0⟩ (Ending.destroy ⟨1⟩).op).2.findByToken s.token =
          twoOfOneToken.findByToken s.token := by
  refine ⟨reachable_twoOfOneToken, fun h => ?_⟩
  have hother : (⟨2⟩ : SessionId) ≠ ⟨1⟩ := by decide
  have hkept := h ⟨2⟩ secondOfToken (by decide) (by decide) fun hd => hother hd.2.2
  exact absurd hkept (by decide)

end SessionRegistry

end WayRay
