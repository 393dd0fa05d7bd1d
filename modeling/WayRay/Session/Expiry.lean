import WayRay.Session.Frame
import WayRay.Session.Restore

/-!
# Expiry

`cleanup_expired` asks every session for the reading of its suspend clock.  `cleanup_exact` ties
that reading to the history: the sessions destroyed are those that are suspended and whose
suspension, counted from the operation that started it (`suspendedSince`), has lasted for their
timeout.

Only suspending a session and restoring it start a suspension (`suspends`).  The step lemma is
`suspendedAt_step`: in a suspended session the clock shows the time of the operation if the
operation starts a suspension, and what it has shown before otherwise.
-/

namespace WayRay

namespace SessionRegistry

variable {clk : Clock} {r : SessionRegistry} {i : SessionId} {s : Session}

/-! ### When a suspension starts -/

/-- Whether the operation starts a suspension of session `i`. -/
def suspends (r : SessionRegistry) (clk : Clock) (i : SessionId) : RegistryOp → Bool
  | .suspend j => decide (j = i) && (r.suspend clk j).1.isOk
  | .transition j next => decide (j = i ∧ next = .suspended) && (r.transition clk j next).1.isOk
  | .restorePersisted _ => (r.store.liveRow i).isSome
  | _ => false

/-- When the last suspension of session `i` in a history started. -/
def suspendedSince (r : SessionRegistry) (i : SessionId) :
    List (Clock × RegistryOp) → Option Instant
  | [] => none
  | (clk, op) :: history =>
    (suspendedSince (r.step clk op).2 i history).or
      (if r.suspends clk i op then some clk.now else none)

/-- A suspension starts at the time of some operation. -/
theorem exists_of_suspendedSince {history : List (Clock × RegistryOp)} {since : Instant}
    (h : suspendedSince r i history = some since) : ∃ e ∈ history, e.1.now = since := by
  induction history generalizing r with
  | nil => exact absurd h (Option.some_ne_none since).symm
  | cons e history ih =>
    rw [suspendedSince, Option.or_eq_some_iff] at h
    rcases h with hlater | ⟨-, hnow⟩
    · obtain ⟨e', he', hsince⟩ := ih hlater
      exact ⟨e', List.mem_cons_of_mem e he', hsince⟩
    · split_ifs at hnow
      exact ⟨e, List.mem_cons_self, Option.some.inj hnow⟩

/-! ### One operation -/

/-- A session that is suspended after a transition has been suspended by it, or is as before. -/
private theorem suspended_transition {j : SessionId} {next : SessionState}
    (hs : (r.transition clk j next).2.sessions.get i = some s) (hst : s.state = .suspended) :
    if j = i ∧ next = .suspended ∧ (r.transition clk j next).1.isOk = true then
      s.suspendedAt = some clk.now
    else r.sessions.get i = some s := by
  rcases r.transition_cases clk j next with ⟨e, hsame⟩ | ⟨t, hj, hcan⟩
  · rw [hsame] at hs ⊢
    rw [if_neg fun h => Bool.false_ne_true h.2.2]
    exact hs
  · have hok : (r.transition clk j next).1.isOk = true := by
      rw [transition_of_can hj hcan]
      rfl
    rw [sessions_transition_of_can hj hcan, HashMap.get_insert] at hs
    split_ifs at hs with hij
    · obtain rfl := Option.some.inj hs
      rw [Session.moved_state] at hst
      rw [if_pos ⟨hij.symm, hst, hok⟩, Session.moved, if_pos hst]
    · rw [if_neg fun h => hij h.1.symm]
      exact hs

/-- Only a transition to `Suspended` suspends a session. -/
private theorem suspended_transition_of_ne {j : SessionId} {next : SessionState}
    (hnext : next ≠ .suspended) (hs : (r.transition clk j next).2.sessions.get i = some s)
    (hst : s.state = .suspended) : r.sessions.get i = some s := by
  have hcases := suspended_transition hs hst
  rwa [if_neg fun h => hnext h.2.1] at hcases

/-- A setter leaves the clock of a suspended session alone. -/
private theorem suspended_update {j : SessionId} {f : Session → Session} (hf : IsSetter f)
    (hs : (r.update clk j f).sessions.get i = some s) (hst : s.state = .suspended) :
    ∃ t, r.sessions.get i = some t ∧ t.state = .suspended ∧ t.suspendedAt = s.suspendedAt := by
  unfold update at hs
  cases hj : r.sessions.get j with
  | none =>
    rw [hj] at hs
    exact ⟨s, hs, hst, rfl⟩
  | some t =>
    simp only [hj, HashMap.get_insert] at hs
    split_ifs at hs with hij
    · obtain rfl := Option.some.inj hs
      rw [hf.state_eq] at hst
      exact ⟨t, hij ▸ hj, hst, (hf.suspendedAt_eq t).symm⟩
    · exact ⟨s, hs, hst, rfl⟩

/-- A session that is suspended after an operation has been suspended by it, or has been suspended
before, since the same time. -/
theorem suspendedAt_step {op : RegistryOp} (hs : (r.step clk op).2.sessions.get i = some s)
    (hst : s.state = .suspended) :
    if r.suspends clk i op then s.suspendedAt = some clk.now
    else ∃ t, r.sessions.get i = some t ∧ t.state = .suspended ∧ t.suspendedAt = s.suspendedAt := by
  cases op with
  | createSession token =>
    simp only [suspends, Bool.false_eq_true, if_false]
    simp only [step, Prod.map_snd, createSession, id_eq, HashMap.get_insert] at hs
    split_ifs at hs with hi
    · rw [← Option.some.inj hs] at hst
      exact absurd hst SessionState.noConfusion
    · exact ⟨s, hs, hst, rfl⟩
  | activate j =>
    simp only [suspends, Bool.false_eq_true, if_false]
    exact ⟨s, suspended_transition_of_ne (by decide) hs hst, hst, rfl⟩
  | suspend j =>
    have hcases := suspended_transition hs hst
    simp only [true_and] at hcases
    simp only [suspends, suspend, Bool.and_eq_true, decide_eq_true_eq]
    split_ifs at hcases ⊢
    · exact hcases
    · exact ⟨s, hcases, hst, rfl⟩
  | destroy j =>
    simp only [suspends, Bool.false_eq_true, if_false]
    exact ⟨s, suspended_transition_of_ne (by decide) hs hst, hst, rfl⟩
  | transition j next =>
    have hcases := suspended_transition hs hst
    simp only [suspends, Bool.and_eq_true, decide_eq_true_eq, and_assoc]
    split_ifs at hcases ⊢
    · exact hcases
    · exact ⟨s, hcases, hst, rfl⟩
  | setUser j user =>
    simp only [suspends, Bool.false_eq_true, if_false]
    exact suspended_update (isSetter_user user) hs hst
  | setSuspendTimeout j timeout =>
    simp only [suspends, Bool.false_eq_true, if_false]
    exact suspended_update (isSetter_suspendTimeout timeout) hs hst
  | noteRemoteSession | pruneRemoteSessions =>
    simp only [suspends, Bool.false_eq_true, if_false]
    exact ⟨s, hs, hst, rfl⟩
  | cleanupExpired =>
    simp only [suspends, Bool.false_eq_true, if_false]
    simp only [step, Prod.map_snd, cleanupExpired, id_eq, sessions_destroyAll] at hs
    split_ifs at hs with hi
    · -- what expires is suspended no longer
      obtain ⟨t, -, rfl⟩ := Option.map_eq_some_iff.mp hs
      rw [ended_state] at hst
      exact absurd hst (by decide)
    · exact ⟨s, hs, hst, rfl⟩
  | purgeDestroyed =>
    simp only [suspends, Bool.false_eq_true, if_false]
    exact ⟨s, (HashMap.get_retain_eq_some.mp hs).1, hst, rfl⟩
  | restorePersisted find =>
    simp only [step, Prod.map_snd, id_eq, sessions_restorePersisted] at hs
    rw [suspends]
    cases hrow : r.store.liveRow i with
    | none =>
      rw [hrow, Option.map_none, Option.none_or] at hs
      rw [Option.isSome_none, if_neg Bool.false_ne_true]
      exact ⟨s, hs, hst, rfl⟩
    | some row =>
      rw [hrow, Option.map_some, Option.some_or] at hs
      rw [Option.isSome_some, if_pos rfl, ← Option.some.inj hs, restoredSession_suspendedAt]

/-! ### Whole histories -/

/-- The clock of a suspended session shows when its suspension started, in the history or before. -/
theorem suspendedAt_run {history : List (Clock × RegistryOp)}
    (hs : (r.run history).sessions.get i = some s) (hst : s.state = .suspended) :
    (suspendedSince r i history).isSome ∧ s.suspendedAt = suspendedSince r i history ∨
      ∃ t, r.sessions.get i = some t ∧ t.state = .suspended ∧ t.suspendedAt = s.suspendedAt ∧
        suspendedSince r i history = none := by
  induction history generalizing r with
  | nil => exact Or.inr ⟨s, hs, hst, rfl, rfl⟩
  | cons e history ih =>
    rw [suspendedSince]
    rcases ih hs with ⟨hsome, heq⟩ | ⟨t, ht, htst, heq, hnone⟩
    · left
      rw [Option.or_of_isSome hsome]
      exact ⟨hsome, heq⟩
    · have hstep := suspendedAt_step ht htst
      rw [hnone, Option.none_or]
      split_ifs at hstep ⊢
      · exact Or.inl ⟨rfl, heq.symm.trans hstep⟩
      · obtain ⟨u, hu, hust, hut⟩ := hstep
        exact Or.inr ⟨u, hu, hust, hut.trans heq, rfl⟩

/-- A registry without sessions has none that was suspended before. -/
theorem suspendedAt_eq (localServerId : String) (capacity : ℕ) (store : SessionStore)
    {history : List (Clock × RegistryOp)}
    (hs : (((withCluster localServerId capacity).withStore store).run history).sessions.get i =
      some s) (hst : s.state = .suspended) :
    s.suspendedAt = suspendedSince ((withCluster localServerId capacity).withStore store) i
      history := by
  rcases suspendedAt_run hs hst with ⟨-, heq⟩ | ⟨t, ht, -⟩
  · exact heq
  · exact absurd ht (by simp [withStore, withCluster, new])

/-! ### What expires -/

/-- No session expires twice. -/
theorem OwnIds.nodup_expiredIds (h : OwnIds r) : (r.expiredIds clk).Nodup := by
  have hkeys : r.sessions.values.map (·.id) = r.sessions.keys := by
    rw [HashMap.values, List.map_map]
    refine List.map_congr_left fun e he => ?_
    exact h (HashMap.get_eq_some_iff.mpr he)
  have hall : (r.sessions.values.map (·.id)).Nodup := hkeys ▸ r.sessions.keys_nodup
  exact hall.sublist (List.filter_sublist.map _)

/-- Destroying sessions takes their rows from the store, and no others. -/
theorem rows_destroyAll (ids : List SessionId) (hi : i ∉ ids) :
    (ids.foldl (fun r id => (r.destroy clk id).2) r).store.rows.get i =
      r.store.rows.get i := by
  induction ids generalizing r with
  | nil => rfl
  | cons id ids ih =>
    rw [List.mem_cons, not_or] at hi
    rw [List.foldl_cons, ih hi.2]
    by_cases hlive : ∃ s, r.sessions.get id = some s ∧ s.state ≠ .destroyed
    · obtain ⟨s, hs, hd⟩ := hlive
      rw [destroy_of_live hs hd, SessionStore.rows_remove_get, if_neg hi.1]
    · rw [destroy_of_dead fun s hs => by_contra fun hd => hlive ⟨s, hs, hd⟩]

/-- The session is suspended, and has been for its timeout. -/
def Overdue (start : SessionRegistry) (history : List (Clock × RegistryOp)) (now : Instant)
    (i : SessionId) : Prop :=
  ∃ s since, (start.run history).get i = some s ∧ s.state = .suspended ∧
    suspendedSince start i history = some since ∧ since + s.suspendTimeout.asNanos ≤ now

/-- **Expiry is exact.**  After every history, under a clock that does not go back, the cleanup
destroys the sessions whose suspension has lasted for their timeout and returns their ids, each
once.  Their tokens lead nowhere, and the records of the others stay, in memory and in the store. -/
theorem cleanup_exact (localServerId : String) (capacity : ℕ) (store : SessionStore)
    (history : List (Clock × RegistryOp)) (clk : Clock)
    (hclock : ∀ e ∈ history, e.1.now ≤ clk.now) :
    let start := (withCluster localServerId capacity).withStore store
    let r := start.run history
    let r' := (r.cleanupExpired clk).2
    (r.cleanupExpired clk).1.Nodup ∧
      (∀ i, i ∈ (r.cleanupExpired clk).1 ↔ Overdue start history clk.now i) ∧
      (∀ i s, Overdue start history clk.now i → r.get i = some s →
        r'.get i = some (s.moved clk.now .destroyed) ∧ r'.findByToken s.token = none ∧
          r'.isResumable s.token = none ∧ ∀ clk' j, r'.locate clk' s.token ≠ .localTo j) ∧
      ∀ i, ¬ Overdue start history clk.now i →
        r'.get i = r.get i ∧ r'.store.rows.get i = r.store.rows.get i := by
  intro start r r'
  have hown : OwnIds r := (consistent_run localServerId capacity store history).own_id
  have hids : ∀ i, i ∈ r.expiredIds clk ↔ Overdue start history clk.now i := by
    intro i
    rw [hown.mem_expiredIds]
    constructor
    · rintro ⟨s, hs, hst, since, hsince, hle⟩
      rw [suspendedAt_eq localServerId capacity store hs hst] at hsince
      obtain ⟨e, he, rfl⟩ := exists_of_suspendedSince hsince
      exact ⟨s, e.1.now, hs, hst, hsince, (Nat.le_sub_iff_add_le' (hclock e he)).mp hle⟩
    · rintro ⟨s, since, hs, hst, hsince, hle⟩
      rw [← suspendedAt_eq localServerId capacity store hs hst] at hsince
      exact ⟨s, hs, hst, since, hsince, Nat.le_sub_of_add_le' hle⟩
  refine ⟨hown.nodup_expiredIds, hids, ?_, ?_⟩
  · intro i s hover hs
    have hmem := (hids i).mpr hover
    obtain ⟨s', -, hs', hst, -⟩ := hover
    obtain rfl := Option.some.inj (hs.symm.trans hs')
    have hlive : s.state ≠ .destroyed := by
      rw [hst]
      decide
    have hindex : r'.tokenIndex.get s.token = none :=
      (tokenIndex_destroyAll _ _).trans (if_pos ⟨i, hmem, s, hs, hlive, rfl⟩)
    have hfind : r'.findByToken s.token = none := by
      rw [findByToken, hindex, Option.bind_none]
    refine ⟨?_, hfind, ?_, fun clk' j => ?_⟩
    · have hget : r'.get i = _ := sessions_destroyAll _ i
      rw [hget, if_pos hmem, show r.sessions.get i = some s from hs, Option.map_some, ended,
        if_neg hlive]
    · rw [isResumable, hfind, Option.bind_none]
    · rw [locate, hindex]
      cases r'.remoteSessions.get s.token with
      | none => simp
      | some entry =>
        dsimp only
        split_ifs <;> simp
  · intro i hover
    have hmem : i ∉ r.expiredIds clk := fun h => hover ((hids i).mp h)
    exact ⟨(sessions_destroyAll _ i).trans (if_neg hmem),
      rows_destroyAll _ hmem⟩

section Witness

/-- A session is suspended at one, resumed at two and suspended again at three. -/
def suspendedTwice : List (Clock × RegistryOp) :=
  [(⟨0, 0⟩, .createSession ⟨"t"⟩), (⟨0, 0⟩, .activate ⟨1⟩), (⟨1, 0⟩, .suspend ⟨1⟩),
    (⟨2, 0⟩, .activate ⟨1⟩), (⟨3, 0⟩, .suspend ⟨1⟩)]

/-- A day after the second suspension the session expires. -/
theorem cleanup_exact_next_day :
    let r := ((withCluster "a" 50).withStore .null).run suspendedTwice
    let r' := (r.cleanupExpired ⟨3 + 24 * 60 * 60 * nanosPerSec, 0⟩).2
    suspendedSince ((withCluster "a" 50).withStore .null) ⟨1⟩ suspendedTwice = some 3 ∧
      (r'.get ⟨1⟩).map (·.state) = some .destroyed ∧ r'.findByToken ⟨"t"⟩ = none := by
  have hsince : suspendedSince ((withCluster "a" 50).withStore .null) ⟨1⟩ suspendedTwice = some 3 :=
    by decide
  have hget : (((withCluster "a" 50).withStore .null).run suspendedTwice).get ⟨1⟩ =
      some { Session.new ⟨1⟩ ⟨"t"⟩ "a" 0 with state := .suspended, suspendedAt := some 3 } := by
    decide
  obtain ⟨-, -, hdestroyed, -⟩ := cleanup_exact "a" 50 .null suspendedTwice
    ⟨3 + 24 * 60 * 60 * nanosPerSec, 0⟩ (by decide)
  obtain ⟨hstate, hfind, -⟩ := hdestroyed ⟨1⟩ _ ⟨_, 3, hget, rfl, hsince, by decide⟩ hget
  refine ⟨hsince, ?_, hfind⟩
  rw [hstate, Option.map_some, Session.moved_state]

end Witness

end SessionRegistry

end WayRay
