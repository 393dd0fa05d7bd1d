import WayRay.Session.Restore

/-!
# The rows of the live sessions

`LiveRows r` says that every session a client may resume has the row that `record_of` makes of it,
and that every row in a resumable state belongs to such a session.  It holds after every restore and
is kept by every move, whatever sessions share a token.
-/

namespace WayRay

namespace SessionRegistry

/-- The live rows of the store are the rows of the live sessions in memory. -/
structure LiveRows (r : SessionRegistry) : Prop where
  own_id : OwnIds r
  row_of_live : ∀ {i s}, r.store.isSqlite = true → r.sessions.get i = some s →
    s.state.resumable = true → ∃ clk, r.store.rows.get i = some (recordOf s clk)
  live_of_row : ∀ {i row st}, r.store.rows.get i = some row → parseState row.state = some st →
    st.resumable = true → ∃ s, r.sessions.get i = some s ∧ s.state.resumable = true

variable {G : SessionRegistry → SessionToken → Prop} {clk : Clock} {r r' : SessionRegistry}

/-! ### Replacing a session and its row -/

section Persist

variable {id : SessionId} {s : Session}

private theorem row_of_live_persist (h : LiveRows r) (hid : s.id = id) {i : SessionId}
    {s' : Session} (hsql : (r.store.persist clk s).isSqlite = true)
    (hs' : (r.sessions.insert id s).get i = some s') (hlive : s'.state.resumable = true) :
    ∃ clk', (r.store.persist clk s).rows.get i = some (recordOf s' clk') := by
  rw [SessionStore.isSqlite_persist] at hsql
  rw [HashMap.get_insert] at hs'
  rw [SessionStore.rows_persist_get, hid]
  split_ifs at hs' with hi
  · obtain rfl := Option.some.inj hs'
    exact ⟨clk, if_pos ⟨hi, hsql⟩⟩
  · rw [if_neg fun hc => hi hc.1]
    exact h.row_of_live hsql hs' hlive

private theorem live_of_row_persist (h : LiveRows r) (hid : s.id = id) {i : SessionId}
    {row : SessionRecord} {st : SessionState}
    (hrow : (r.store.persist clk s).rows.get i = some row)
    (hst : parseState row.state = some st) (hlive : st.resumable = true) :
    ∃ s', (r.sessions.insert id s).get i = some s' ∧ s'.state.resumable = true := by
  have hsql := SessionStore.isSqlite_of_rows_get hrow
  rw [SessionStore.isSqlite_persist] at hsql
  rw [SessionStore.rows_persist_get, hid] at hrow
  by_cases hi : i = id
  · rw [if_pos ⟨hi, hsql⟩] at hrow
    obtain rfl := Option.some.inj hrow
    rw [recordOf_state, parseState_stateStr, Option.some.injEq] at hst
    exact ⟨s, by rw [hi, HashMap.get_insert_self], by rwa [hst]⟩
  · rw [if_neg fun hc => hi hc.1] at hrow
    rw [HashMap.get_insert_of_ne _ _ hi]
    exact h.live_of_row hrow hst hlive

end Persist

private theorem row_of_live_remove (h : LiveRows r) {id i : SessionId} {s : Session} (hi : i ≠ id)
    (hsql : (r.store.remove id).isSqlite = true) (hs : r.sessions.get i = some s)
    (hlive : s.state.resumable = true) :
    ∃ clk', (r.store.remove id).rows.get i = some (recordOf s clk') := by
  rw [SessionStore.isSqlite_remove] at hsql
  rw [SessionStore.rows_remove_get, if_neg hi]
  exact h.row_of_live hsql hs hlive

/-! ### The moves -/

private theorem liveRows_destroy (h : LiveRows r) {id : SessionId} {s : Session}
    (hown : OwnIds { r with sessions := r.sessions.insert id (s.moved clk.now .destroyed) }) :
    LiveRows { r with
      sessions := r.sessions.insert id (s.moved clk.now .destroyed)
      tokenIndex := r.tokenIndex.remove s.token
      store := r.store.remove id } := by
  refine { own_id := hown, row_of_live := ?_, live_of_row := ?_ }
  · intro i s' hsql hs' hlive
    rw [HashMap.get_insert] at hs'
    split_ifs at hs' with hi
    · obtain rfl := Option.some.inj hs'
      exact absurd hlive (by simp [SessionState.resumable])
    · exact row_of_live_remove h hi hsql hs' hlive
  · intro i row st hrow hst hlive
    rw [SessionStore.rows_remove_get] at hrow
    split_ifs at hrow with hi
    rw [HashMap.get_insert_of_ne _ _ hi]
    exact h.live_of_row hrow hst hlive

private theorem liveRows_drop (h : LiveRows r) {row : PersistedSession} {rec : SessionRecord}
    (hrec : r.store.rows.get row.id = some rec) (hrow : loadRow row.id rec = some row)
    (hdead : row.state.resumable = false) :
    LiveRows { r with
      nextId := max r.nextId (row.id.raw + 1)
      store := r.store.remove row.id } := by
  refine { own_id := h.own_id, row_of_live := ?_, live_of_row := ?_ }
  · intro i s hsql hs hlive
    refine row_of_live_remove h ?_ hsql hs hlive
    rintro rfl
    -- a live session has a live row
    obtain ⟨clk', hrec'⟩ := h.row_of_live (by simpa using hsql) hs hlive
    have hst := loadRow_state hrow
    rw [hrec, Option.some.injEq] at hrec'
    rw [hrec', recordOf_state, parseState_stateStr, Option.some.injEq] at hst
    rw [hst, hdead] at hlive
    exact absurd hlive (by simp)
  · intro i rec' st hrec' hst hlive
    rw [SessionStore.rows_remove_get] at hrec'
    split_ifs at hrec'
    exact h.live_of_row hrec' hst hlive

/-- **Every move keeps the live rows in step with the live sessions.** -/
theorem liveRows_move (h : LiveRows r) (hm : Move G clk r r') : LiveRows r' := by
  have hown : OwnIds r' := ownIds_move h.own_id hm
  cases hm with
  | @create token _ =>
    have hid : (Session.new ⟨r.nextId⟩ token r.localServerId clk.now).id = ⟨r.nextId⟩ := rfl
    exact ⟨hown, row_of_live_persist h hid, live_of_row_persist h hid⟩
  | @advance id s next hs _ _ =>
    have hid : (s.moved clk.now next).id = id := (s.moved_id _ _).trans (h.own_id hs)
    exact ⟨hown, row_of_live_persist h hid, live_of_row_persist h hid⟩
  | destroy _ _ => exact liveRows_destroy h hown
  | @update id s f hs hf =>
    have hid : (f s).id = id := (hf.id_eq s).trans (h.own_id hs)
    exact ⟨hown, row_of_live_persist h hid, live_of_row_persist h hid⟩
  | remote _ => exact ⟨hown, h.row_of_live, h.live_of_row⟩
  | purge =>
    refine ⟨hown, fun hsql hs => h.row_of_live hsql (HashMap.get_retain_eq_some.mp hs).1, ?_⟩
    intro i row st hrow hst hlive
    obtain ⟨s, hs, hs'⟩ := h.live_of_row hrow hst hlive
    have hkeep : s.state ≠ .destroyed := SessionState.ne_destroyed_of_resumable hs'
    exact ⟨s, HashMap.get_retain_eq_some.mpr ⟨hs, by simpa using hkeep⟩, hs'⟩
  | flush find =>
    refine ⟨hown, ?_, ?_⟩
    · intro i s hsql hs hlive
      rw [SessionStore.isSqlite_loadAll] at hsql
      rw [SessionStore.rows_loadAll]
      exact h.row_of_live hsql hs hlive
    · intro i row st hrow
      rw [SessionStore.rows_loadAll] at hrow
      exact h.live_of_row hrow
  | @restore row _ _ _ _ =>
    have hid : (restoredSession clk row).id = row.id := rfl
    exact ⟨hown, row_of_live_persist h hid, live_of_row_persist h hid⟩
  | drop hrec hrow hdead => exact liveRows_drop h hrec hrow hdead

/-! ### Booting -/

/-- A fresh registry that restores a store. -/
theorem sessions_restoreFresh (localServerId : String) (capacity : ℕ) (store : SessionStore)
    (clk : Clock) (find : Enumeration (SessionId × SessionRecord)) (i : SessionId) :
    (((withCluster localServerId capacity).withStore store).restorePersisted clk
      find).2.sessions.get i = (store.liveRow i).map (restoredSession clk) := by
  have hnone : ((withCluster localServerId capacity).withStore store).sessions.get i = none :=
    HashMap.get_empty i
  rw [sessions_restorePersisted, hnone, Option.or_none, withStore]

theorem liveRows_boot (localServerId : String) (capacity : ℕ) (store : SessionStore) (clk : Clock)
    (find : Enumeration (SessionId × SessionRecord)) :
    LiveRows
      (((withCluster localServerId capacity).withStore store).restorePersisted clk find).2 := by
  have hsessions := sessions_restoreFresh localServerId capacity store clk find
  have hcons : Consistent
      (((withCluster localServerId capacity).withStore store).restorePersisted clk find).2 :=
    step_invariant consistent_move (consistent_withStore localServerId capacity store)
      (.restorePersisted find)
  refine { own_id := hcons.own_id, row_of_live := ?_, live_of_row := ?_ }
  · intro i s hsql hs _
    rw [isSqlite_restorePersisted] at hsql
    rw [hsessions] at hs
    obtain ⟨p, hp, rfl⟩ := Option.map_eq_some_iff.mp hs
    have hload : store.load i ≠ none := by
      rw [(SessionStore.liveRow_eq_some.mp hp).1]
      exact Option.some_ne_none p
    refine ⟨clk, ?_⟩
    rw [rows_restorePersisted clk find hsql, withStore, if_neg hload]
    exact congrArg (Option.map _) hp
  · intro i row st hrow hst hlive
    have hsql := SessionStore.isSqlite_of_rows_get hrow
    rw [isSqlite_restorePersisted] at hsql
    rw [rows_restorePersisted clk find hsql] at hrow
    rw [hsessions]
    split_ifs at hrow with hload
    · -- a row that decodes has been loaded
      obtain ⟨p, hp⟩ := SessionStore.exists_load hrow hst
      rw [hload] at hp
      exact absurd hp (by simp)
    · obtain ⟨p, hp, -⟩ := Option.map_eq_some_iff.mp hrow
      exact ⟨_, congrArg (Option.map _) hp, rfl⟩

/-- A registry that opens a database on its start. -/
def onDatabase (localServerId : String) (capacity : ℕ) (db : SessionTable) (clk : Clock)
    (find : Enumeration (SessionId × SessionRecord)) : SessionRegistry :=
  (((withCluster localServerId capacity).withStore (.sqlite (.openFile db))).restorePersisted clk
    find).2

@[simp] theorem isSqlite_onDatabase (localServerId : String) (capacity : ℕ) (db : SessionTable)
    (clk : Clock) (find : Enumeration (SessionId × SessionRecord)) :
    (onDatabase localServerId capacity db clk find).store.isSqlite = true := by
  rw [onDatabase, isSqlite_restorePersisted]
  rfl

theorem consistent_onDatabase (localServerId : String) (capacity : ℕ) (db : SessionTable)
    (clk : Clock) (find : Enumeration (SessionId × SessionRecord)) :
    Consistent (onDatabase localServerId capacity db clk find) :=
  step_invariant consistent_move
    (consistent_withStore localServerId capacity (.sqlite (.openFile db))) (.restorePersisted find)

end SessionRegistry

end WayRay
