import WayRay.Collections.GuardedRun
import WayRay.Session.Lasting
import WayRay.Session.Restart

/-!
# The rows of the store and the sessions in memory

`Mirrors store sessions` says that the rows of the store are the records of the sessions in memory
that are not destroyed, and no others.

A registry that restored the rows of a database mirrors them if every row decodes
(`mirrors_onDatabase_iff`), and an operation keeps the agreement exactly if it satisfies `KeepsRows`
(`mirrors_step_iff`): a setter writes the row of the session it changes whatever state that is in,
and restoring deletes the row of a session that is being created but not the session.
-/

namespace WayRay

open GuardedRun

/-- The session stored under an id, if it is not destroyed. -/
def living (sessions : HashMap SessionId Session) (i : SessionId) : Option Session :=
  (sessions.get i).filter (·.state ≠ .destroyed)

theorem living_eq_some {sessions : HashMap SessionId Session} {i : SessionId} {s : Session} :
    living sessions i = some s ↔ sessions.get i = some s ∧ s.state ≠ .destroyed := by
  simp [living]

theorem living_congr {sessions sessions' : HashMap SessionId Session} {i : SessionId}
    (h : sessions.get i = sessions'.get i) : living sessions i = living sessions' i := by
  rw [living, h, living]

theorem living_insert_of_ne (sessions : HashMap SessionId Session) {id i : SessionId} (s : Session)
    (h : i ≠ id) : living (sessions.insert id s) i = living sessions i :=
  living_congr (HashMap.get_insert_of_ne _ _ h)

theorem living_insert_self (sessions : HashMap SessionId Session) (id : SessionId) (s : Session) :
    living (sessions.insert id s) id = if s.state ≠ .destroyed then some s else none := by
  rw [living, HashMap.get_insert_self, Option.filter_some]
  simp only [decide_eq_true_eq]

@[simp] theorem living_purgeDestroyed (r : SessionRegistry) (i : SessionId) :
    living r.purgeDestroyed.sessions i = living r.sessions i := by
  refine Option.ext fun s => ?_
  simp only [living_eq_some, SessionRegistry.purgeDestroyed, HashMap.get_retain_eq_some,
    decide_eq_true_eq]
  tauto

namespace SessionStore

/-- The rows of the store are the records of the sessions that are not destroyed, each as of some
clock reading. -/
def Mirrors (store : SessionStore) (sessions : HashMap SessionId Session) : Prop :=
  ∀ i, ∃ clk, store.rows.get i = (living sessions i).map (recordOf · clk)

variable {store store' : SessionStore} {sessions sessions' : HashMap SessionId Session}
  {id : SessionId} {s : Session} {clk : Clock}

theorem Mirrors.congr (h : store.Mirrors sessions) (hrows : store'.rows = store.rows)
    (hliving : ∀ i, living sessions' i = living sessions i) : store'.Mirrors sessions' := by
  intro i
  rw [hrows, hliving]
  exact h i

/-- A row belongs to a session that is not destroyed. -/
theorem Mirrors.rows_eq_none (h : store.Mirrors sessions) {i : SessionId}
    (hdead : ∀ s, sessions.get i = some s → s.state = .destroyed) : store.rows.get i = none := by
  obtain ⟨clk, hrow⟩ := h i
  rw [hrow, Option.map_eq_none_iff, Option.eq_none_iff_forall_ne_some]
  intro s hs
  exact (living_eq_some.mp hs).2 (hdead s (living_eq_some.mp hs).1)

/-- **Writing a row**: storing a session and its row keeps the agreement unless it is destroyed. -/
theorem Mirrors.persist_iff (h : store.Mirrors sessions) (hsql : store.isSqlite = true)
    (hid : s.id = id) :
    (store.persist clk s).Mirrors (sessions.insert id s) ↔ s.state ≠ .destroyed := by
  have hself : (store.persist clk s).rows.get id = some (recordOf s clk) := by
    rw [rows_persist_get, if_pos ⟨hid.symm, hsql⟩]
  constructor
  · intro h' hst
    obtain ⟨clk', hrow⟩ := h' id
    rw [hself, living_insert_self, if_neg (not_not_intro hst)] at hrow
    exact Option.some_ne_none _ hrow
  · intro hst i
    by_cases hi : i = id
    · subst hi
      exact ⟨clk, by rw [hself, living_insert_self, if_pos hst, Option.map_some]⟩
    · rw [rows_persist_get, if_neg fun hc => hi (hc.1.trans hid), living_insert_of_ne _ _ hi]
      exact h i

/-- **Deleting a row**: so does storing a destroyed session and deleting its row. -/
theorem Mirrors.remove (h : store.Mirrors sessions) (hst : s.state = .destroyed) :
    (store.remove id).Mirrors (sessions.insert id s) := by
  intro i
  by_cases hi : i = id
  · subst hi
    refine ⟨⟨0, 0⟩, ?_⟩
    rw [rows_remove_get, if_pos rfl, living_insert_self, if_neg (not_not_intro hst),
      Option.map_none]
  · rw [rows_remove_get, if_neg hi, living_insert_of_ne _ _ hi]
    exact h i

end SessionStore

namespace SessionRegistry

variable {r : SessionRegistry} {clk : Clock}

/-! ### Restoring -/

/-- Restoring puts a live row in step with its session, and of the other rows it deletes those that
decode. -/
theorem mirrors_restorePersisted_iff (find : Enumeration (SessionId × SessionRecord))
    (hsql : r.store.isSqlite = true) :
    (r.restorePersisted clk find).2.store.Mirrors (r.restorePersisted clk find).2.sessions ↔
      ∀ i, r.store.liveRow i = none →
        ∃ clk, (if r.store.load i = none then r.store.rows.get i else none) =
          (living r.sessions i).map (recordOf · clk) := by
  have hliving : ∀ i, r.store.liveRow i = none →
      living (r.restorePersisted clk find).2.sessions i = living r.sessions i := by
    intro i hlive
    refine living_congr ?_
    rw [sessions_restorePersisted, hlive, Option.map_none, Option.none_or]
  refine forall_congr' fun i => ?_
  rw [rows_restorePersisted clk find hsql]
  cases hlive : r.store.liveRow i with
  | none => simp only [hliving i hlive, Option.map_none, true_implies]
  | some p =>
    -- the restored session and its row
    have hload : r.store.load i ≠ none := by
      rw [(SessionStore.liveRow_eq_some.mp hlive).1]
      exact Option.some_ne_none p
    have hrestored : living (r.restorePersisted clk find).2.sessions i =
        some (restoredSession clk p) := by
      rw [living_eq_some, sessions_restorePersisted, hlive]
      exact ⟨rfl, by simp⟩
    rw [if_neg hload, hrestored]
    exact iff_of_true ⟨clk, rfl⟩ fun h => absurd h (Option.some_ne_none p)

/-- Every row of the table names a state the server knows. -/
def Decodes (db : SessionTable) : Prop :=
  ∀ i row, db.get i = some row → (parseState row.state).isSome

/-- A registry is in step with its database from the start if the database holds no row that is
skipped. -/
theorem mirrors_onDatabase_iff (localServerId : String) (capacity : ℕ) (db : SessionTable)
    (clk : Clock) (find : Enumeration (SessionId × SessionRecord)) :
    (onDatabase localServerId capacity db clk find).store.Mirrors
      (onDatabase localServerId capacity db clk find).sessions ↔ Decodes db := by
  let store : SessionStore := .sqlite (.openFile db)
  have hload : ∀ i, store.load i = (db.get i).bind (loadRow i) := fun _ => rfl
  refine (mirrors_restorePersisted_iff find rfl).trans (forall_congr' fun i => ?_)
  -- no session is in memory yet
  change (store.liveRow i = none →
    ∃ _ : Clock, (if store.load i = none then db.get i else none) = none) ↔ _
  constructor
  · intro h row hrow
    by_contra hstate
    rw [Option.not_isSome_iff_eq_none] at hstate
    have hskip : store.load i = none := by
      rw [hload, hrow, Option.bind_some, loadRow, hstate, Option.map_none]
    obtain ⟨-, hnone⟩ := h (SessionStore.liveRow_of_load_none hskip)
    rw [if_pos hskip, hrow] at hnone
    exact Option.some_ne_none row hnone
  · intro h _
    refine ⟨clk, ?_⟩
    split_ifs with hskip
    · refine Option.eq_none_iff_forall_ne_some.mpr fun row hrow => ?_
      obtain ⟨st, hst⟩ := Option.isSome_iff_exists.mp (h row hrow)
      obtain ⟨p, hp⟩ : ∃ p, store.load i = some p := SessionStore.exists_load hrow hst
      exact Option.some_ne_none p (hp.symm.trans hskip)
    · rfl

/-- While memory and store agree, restoring keeps them so unless a session is being created. -/
theorem mirrors_restoreAgain_iff (h : r.store.Mirrors r.sessions) (hsql : r.store.isSqlite = true)
    (hids : OwnIds r) (find : Enumeration (SessionId × SessionRecord)) :
    (r.restorePersisted clk find).2.store.Mirrors (r.restorePersisted clk find).2.sessions ↔
      ∀ i s, r.sessions.get i = some s → s.state ≠ .creating := by
  refine (mirrors_restorePersisted_iff find hsql).trans (forall_congr' fun i => ?_)
  obtain ⟨clk', hrow⟩ := h i
  cases hliving : living r.sessions i with
  | none =>
    rw [hliving, Option.map_none] at hrow
    have hload : r.store.load i = none := by rw [SessionStore.load, hrow, Option.bind_none]
    refine iff_of_true (fun _ => ⟨clk, by rw [if_pos hload, hrow, Option.map_none]⟩) ?_
    -- a session that is being created is not destroyed
    intro s hs hst
    rw [(living_eq_some.mpr ⟨hs, by rw [hst]; decide⟩ : living r.sessions i = some s)] at hliving
    exact Option.some_ne_none s hliving
  | some s =>
    obtain ⟨hs, hst⟩ := living_eq_some.mp hliving
    obtain rfl := hids hs
    rw [hliving, Option.map_some] at hrow
    obtain ⟨p, hload, hstate⟩ : ∃ p, r.store.load s.id = some p ∧ p.state = s.state :=
      ⟨_, by rw [SessionStore.load, hrow, Option.bind_some, loadRow_recordOf], rfl⟩
    rw [SessionStore.liveRow_of_load hload, hload, hstate, if_neg (Option.some_ne_none p)]
    constructor
    · intro h' s' hs' hcreating
      obtain rfl := Option.some.inj (hs.symm.trans hs')
      -- its row is gone
      obtain ⟨clk'', hgone⟩ := h' (by rw [hcreating]; rfl)
      exact Option.some_ne_none _ hgone.symm
    · intro h' hdead
      have hlive := SessionState.resumable_iff_ne.mpr ⟨h' s hs, hst⟩
      rw [if_pos hlive] at hdead
      exact absurd hdead (Option.some_ne_none p)

/-! ### Every operation -/

/-- Memory and store agree after every transition. -/
theorem mirrors_transition (h : r.store.Mirrors r.sessions) (hsql : r.store.isSqlite = true)
    (hids : OwnIds r) (id : SessionId) (next : SessionState) :
    (r.transition clk id next).2.store.Mirrors (r.transition clk id next).2.sessions := by
  rcases r.transition_cases clk id next with ⟨e, hsame⟩ | ⟨s, hs, hc⟩
  · rwa [hsame]
  · rw [transition_of_can hs hc]
    split_ifs with hn
    · exact h.remove (by rw [Session.moved_state, hn])
    · exact (h.persist_iff hsql ((Session.moved_id _ _ _).trans (hids hs))).mpr hn

theorem mirrors_cleanup (ids : List SessionId) (h : r.store.Mirrors r.sessions)
    (hsql : r.store.isSqlite = true) (hids : OwnIds r) :
    let r' := ids.foldl (fun r id => (r.destroy clk id).2) r
    r'.store.Mirrors r'.sessions := by
  induction ids generalizing r with
  | nil => exact h
  | cons id ids ih =>
    exact ih (mirrors_transition h hsql hids id .destroyed)
      ((isSqlite_step clk (.destroy id)).trans hsql)
      (step_invariant ownIds_move hids (.destroy id))

/-- A setter keeps memory and store in agreement unless it changes a destroyed session. -/
theorem mirrors_update_iff (h : r.store.Mirrors r.sessions) (hsql : r.store.isSqlite = true)
    (hids : OwnIds r) (id : SessionId) {f : Session → Session} (hf : IsSetter f) :
    (r.update clk id f).store.Mirrors (r.update clk id f).sessions ↔
      ∀ s, r.sessions.get id = some s → s.state ≠ .destroyed := by
  unfold update
  cases hs : r.sessions.get id with
  | none => exact iff_of_true h fun s hs => absurd hs.symm (Option.some_ne_none s)
  | some s =>
    refine (h.persist_iff hsql ((hf.id_eq s).trans (hids hs))).trans ?_
    rw [hf.state_eq]
    exact ⟨fun hst s' hs' => Option.some.inj hs' ▸ hst, fun hst => hst s rfl⟩

/-- The operation changes no destroyed session, and restores rows only while no session is being
created. -/
def KeepsRows (r : SessionRegistry) : RegistryOp → Prop
  | .setUser id _ | .setSuspendTimeout id _ =>
    ∀ s, r.sessions.get id = some s → s.state ≠ .destroyed
  | .restorePersisted _ => ∀ i s, r.sessions.get i = some s → s.state ≠ .creating
  | _ => True

/-- **Step lemma**: an operation keeps memory and store in agreement exactly if it is of these. -/
theorem mirrors_step_iff (hcons : Consistent r) (hsql : r.store.isSqlite = true)
    (h : r.store.Mirrors r.sessions) (op : RegistryOp) :
    r.KeepsRows op ↔ (r.step clk op).2.store.Mirrors (r.step clk op).2.sessions := by
  have hids : OwnIds r := hcons.own_id
  cases op with
  | createSession token =>
    refine iff_of_true trivial ((h.persist_iff hsql ?_).mpr ?_)
    · rfl
    · simp [Session.new]
  | activate id => exact iff_of_true trivial (mirrors_transition h hsql hids id .active)
  | suspend id => exact iff_of_true trivial (mirrors_transition h hsql hids id .suspended)
  | destroy id => exact iff_of_true trivial (mirrors_transition h hsql hids id .destroyed)
  | transition id next => exact iff_of_true trivial (mirrors_transition h hsql hids id next)
  | setUser id user => exact (mirrors_update_iff h hsql hids id (isSetter_user user)).symm
  | setSuspendTimeout id timeout =>
    exact (mirrors_update_iff h hsql hids id (isSetter_suspendTimeout timeout)).symm
  | noteRemoteSession _ _ | pruneRemoteSessions => exact iff_of_true trivial h
  | cleanupExpired => exact iff_of_true trivial (mirrors_cleanup _ h hsql hids)
  | purgeDestroyed => exact iff_of_true trivial (h.congr rfl (living_purgeDestroyed r))
  | restorePersisted find => exact (mirrors_restoreAgain_iff h hsql hids find).symm

/-! ### Destroyed sessions -/

/-- While memory and store agree, no operation brings a destroyed session back. -/
theorem destroyed_step (h : r.store.Mirrors r.sessions) {i : SessionId}
    (hdead : r.HoldsUnder (·.state = .destroyed) i) (op : RegistryOp) :
    (r.step clk op).2.HoldsUnder (·.state = .destroyed) i := by
  refine hdead.step op ?_ (fun s _ hs => hs) (fun _ _ s hs => hs) ?_
  · intro s next hs hc
    rw [hs, SessionState.destroyed_canTransitionTo] at hc
    exact absurd hc Bool.false_ne_true
  · -- it has no row that could be restored
    intro p hp
    have hload := (SessionStore.liveRow_eq_some.mp hp).1
    rw [SessionStore.load, h.rows_eq_none hdead.2, Option.bind_none] at hload
    exact absurd hload.symm (Option.some_ne_none p)

/-- **Run lemma**: throughout a history in which memory and store agree, a session that is destroyed
stays so and has no row. -/
theorem destroyed_run {history : List (Clock × RegistryOp)} {i : SessionId}
    (hdead : r.HoldsUnder (·.state = .destroyed) i)
    (h : ∀ pre, pre <+: history → (r.run pre).store.Mirrors (r.run pre).sessions) :
    (r.run history).HoldsUnder (·.state = .destroyed) i := by
  induction history generalizing r with
  | nil => exact hdead
  | cons e history ih =>
    refine ih (destroyed_step (h [] List.nil_prefix) hdead e.2) fun pre hpre => ?_
    exact h (e :: pre) (List.cons_prefix_cons.mpr ⟨rfl, hpre⟩)

/-- So a session that is destroyed at some time of a history has no row at any later one. -/
theorem rows_eq_none_of_destroyed {pre post : List (Clock × RegistryOp)} {i : SessionId}
    (hids : Consistent (r.run pre)) {s : Session} (hs : (r.run pre).sessions.get i = some s)
    (hst : s.state = .destroyed)
    (h : ∀ history, history <+: pre ++ post →
      (r.run history).store.Mirrors (r.run history).sessions) :
    (r.run (pre ++ post)).store.rows.get i = none := by
  have hdead : (r.run pre).HoldsUnder (·.state = .destroyed) i := by
    refine ⟨hids.below hs, fun s' hs' => ?_⟩
    rwa [Option.some.inj (hs'.symm.trans hs)]
  refine (h _ List.prefix_rfl).rows_eq_none ?_
  rw [run_append]
  refine (destroyed_run hdead fun post' hpost' => ?_).2
  rw [← run_append]
  exact h _ ((List.prefix_append_right_inj pre).mpr hpost')

/-! ### Histories -/

/-- **The store mirrors memory.**  On a registry opened on a database, the rows of the store are
the records of the sessions that are not destroyed after every operation, and the row of a destroyed
session never comes back, exactly if every row of the database decodes and every operation satisfies
`KeepsRows`. -/
theorem store_mirrors_iff (localServerId : String) (capacity : ℕ) (db : SessionTable) (clk : Clock)
    (find : Enumeration (SessionId × SessionRecord)) (history : List (Clock × RegistryOp)) :
    let start := onDatabase localServerId capacity db clk find
    ((∀ pre, pre <+: history → (start.run pre).store.Mirrors (start.run pre).sessions) ∧
      ∀ pre post, pre ++ post <+: history →
        ∀ i s, (start.run pre).sessions.get i = some s → s.state = .destroyed →
          (start.run (pre ++ post)).store.rows.get i = none) ↔
    Decodes db ∧
      Along (fun r e => (r.step e.1 e.2).2) (fun r (e : Clock × RegistryOp) => r.KeepsRows e.2)
        start history := by
  intro start
  have hboot := mirrors_onDatabase_iff localServerId capacity db clk find
  have hcons := consistent_onDatabase localServerId capacity db clk find
  have hrun : Decodes db →
      (Along (fun r e => (r.step e.1 e.2).2) (fun r (e : Clock × RegistryOp) => r.KeepsRows e.2)
          start history ↔
        ∀ pre, pre <+: history → (start.run pre).store.Mirrors (start.run pre).sessions) :=
    fun hdb => along_iff_forall_initial (I := fun r => Consistent r ∧ r.store.isSqlite = true)
      (G := fun r => r.store.Mirrors r.sessions)
      (fun r e hr => ⟨step_invariant consistent_move hr.1 e.2,
        (isSqlite_step e.1 e.2).trans hr.2⟩)
      (fun r e hr h => mirrors_step_iff hr.1 hr.2 h e.2)
      ⟨hcons, isSqlite_onDatabase _ _ _ _ _⟩ (hboot.mpr hdb)
  constructor
  · rintro ⟨hmirrors, -⟩
    have hdb := hboot.mp (hmirrors [] List.nil_prefix)
    exact ⟨hdb, (hrun hdb).mpr hmirrors⟩
  · rintro ⟨hdb, hkeeps⟩
    have hmirrors := (hrun hdb).mp hkeeps
    refine ⟨hmirrors, fun pre post hpre i s hs hst => ?_⟩
    exact rows_eq_none_of_destroyed (run_invariant consistent_move hcons pre) hs hst
      fun history' hhistory => hmirrors history' (hhistory.trans hpre)

/-- A session is activated and destroyed on an empty database, and then its user is set: its row is
back. -/
theorem destroyed_row_returns :
    let start := onDatabase "a" 1 ∅ ⟨0, 0⟩ .stored
    let history : List (Clock × RegistryOp) :=
      [(⟨0, 0⟩, .createSession ⟨"t"⟩), (⟨0, 0⟩, .activate ⟨1⟩), (⟨0, 0⟩, .destroy ⟨1⟩),
        (⟨0, 0⟩, .setUser ⟨1⟩ "u")]
    ¬ (start.run history).store.Mirrors (start.run history).sessions ∧
      (((start.run history).sessions.get ⟨1⟩).map (·.state)) = some .destroyed ∧
      ((start.run history).store.rows.get ⟨1⟩).map (·.state) = some "destroyed" := by
  refine ⟨fun h => ?_, by decide, by decide⟩
  have hgone := h.rows_eq_none (i := ⟨1⟩) (by decide)
  exact absurd hgone (by decide)

end SessionRegistry

end WayRay
