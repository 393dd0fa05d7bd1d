import WayRay.Session.Moves

/-!
# The index invariant

`Indexed r` says that the index of a registry is sound: an entry `t → i` names an existing session
with id `i` and token `t` that is not destroyed, sessions are stored under their own ids, all ids
lie below the counter, and a suspend clock runs exactly while its session is suspended.

It is not inductive alone: `restore_persisted` overwrites the session of a row, and would orphan the
index entry of a session whose row carries another token.  `Consistent` adds that the row of a
session in memory carries the session's token; it is kept by every move (`consistent_move`) and
holds of a registry with any store attached before its first operation (`consistent_withStore`).
-/

namespace WayRay

namespace SessionRegistry

/-- Every session is stored under its own id. -/
def OwnIds (r : SessionRegistry) : Prop := ∀ ⦃i s⦄, r.sessions.get i = some s → s.id = i

/-- The index invariant of a registry. -/
structure Indexed (r : SessionRegistry) : Prop where
  index : ∀ {t i}, r.tokenIndex.get t = some i →
    ∃ s, r.sessions.get i = some s ∧ s.id = i ∧ s.token = t ∧ s.state ≠ .destroyed
  own_id : OwnIds r
  below : ∀ {i s}, r.sessions.get i = some s → i.raw < r.nextId
  clock : ∀ {i s}, r.sessions.get i = some s → s.ClockRuns

/-- The index invariant, and what it needs of the store: a session in memory and its row carry the
same token. -/
structure Consistent (r : SessionRegistry) : Prop extends Indexed r where
  row_token : ∀ {i s rec}, r.sessions.get i = some s → r.store.rows.get i = some rec →
    rec.token = s.token.str

/-- A registry without sessions is consistent whatever its store holds. -/
theorem consistent_withStore (localServerId : String) (capacity : ℕ) (store : SessionStore) :
    Consistent ((withCluster localServerId capacity).withStore store) where
  index h := by simp [withStore, withCluster, new] at h
  own_id _ _ h := by simp [withStore, withCluster, new] at h
  below h := by simp [withStore, withCluster, new] at h
  clock h := by simp [withStore, withCluster, new] at h
  row_token h := by simp [withStore, withCluster, new] at h

variable {G : SessionRegistry → SessionToken → Prop} {clk : Clock} {r r' : SessionRegistry}

/-! ### Changing one session

Most moves replace one session `s` under `id` by one with the same id and token. -/

private theorem ownIds_insert (h : OwnIds r) {id : SessionId} {s : Session} (hs : s.id = id)
    ⦃i : SessionId⦄ ⦃s' : Session⦄ (h' : (r.sessions.insert id s).get i = some s') : s'.id = i :=
  HashMap.of_get_insert (P := fun i s => s.id = i) h' hs fun hold => h hold

/-- Every move keeps sessions under their own ids, whatever the store holds. -/
theorem ownIds_move (h : OwnIds r) (hm : Move G clk r r') : OwnIds r' := by
  cases hm with
  | @create token _ =>
    exact ownIds_insert h (s := Session.new ⟨r.nextId⟩ token r.localServerId clk.now) rfl
  | advance hs _ _ => exact ownIds_insert h ((Session.moved_id _ _ _).trans (h hs))
  | destroy hs _ => exact ownIds_insert h ((Session.moved_id _ _ _).trans (h hs))
  | update hs hf => exact ownIds_insert h ((hf.id_eq _).trans (h hs))
  | purge => exact fun _ _ hs => h (HashMap.get_retain_eq_some.mp hs).1
  | restore _ _ _ => exact ownIds_insert h (restoredSession_id clk _)
  | remote | flush | drop => exact h

private theorem clock_insert (h : Indexed r) {id : SessionId} {s : Session} (hs : s.ClockRuns)
    {i : SessionId} {s' : Session} (h' : (r.sessions.insert id s).get i = some s') :
    s'.ClockRuns :=
  HashMap.of_get_insert (P := fun _ s => s.ClockRuns) h' hs h.clock

private theorem below_insert (h : Indexed r) {id : SessionId} {s s₀ : Session}
    (hs : r.sessions.get id = some s₀) {i : SessionId} {s' : Session}
    (h' : (r.sessions.insert id s).get i = some s') : i.raw < r.nextId :=
  HashMap.of_get_insert (P := fun i _ => i.raw < r.nextId) h' (h.below hs) h.below

/-- An index entry survives the replacement of a session by one with the same id and token that is
not destroyed. -/
private theorem index_insert (h : Indexed r) {id : SessionId} {s s₀ : Session}
    (hs₀ : r.sessions.get id = some s₀) (hid : s.id = id) (htok : s.token = s₀.token)
    (hst : s₀.state ≠ .destroyed → s.state ≠ .destroyed) {t : SessionToken} {i : SessionId}
    (h' : r.tokenIndex.get t = some i) :
    ∃ s', (r.sessions.insert id s).get i = some s' ∧ s'.id = i ∧ s'.token = t ∧
      s'.state ≠ .destroyed := by
  obtain ⟨s', hs', hid', htok', hst'⟩ := h.index h'
  by_cases hi : i = id
  · subst hi
    obtain rfl : s₀ = s' := Option.some.inj (hs₀.symm.trans hs')
    exact ⟨s, HashMap.get_insert_self _ _ _, hid, htok.trans htok', hst hst'⟩
  · exact ⟨s', by rw [HashMap.get_insert_of_ne _ _ hi, hs'], hid', htok', hst'⟩

private theorem row_token_persist (h : Consistent r) {id : SessionId} {s : Session}
    (hid : s.id = id) {i : SessionId} {s' : Session} {rec : SessionRecord}
    (hs' : (r.sessions.insert id s).get i = some s')
    (hrec : (r.store.persist clk s).rows.get i = some rec) : rec.token = s'.token.str := by
  rw [HashMap.get_insert] at hs'
  rw [SessionStore.rows_persist_get] at hrec
  by_cases hi : i = id
  · subst hi
    rw [if_pos rfl, Option.some.injEq] at hs'
    subst hs'
    -- without a database there are no rows to disagree
    cases hst : r.store with
    | null => simp [hst, SessionStore.isSqlite] at hrec
    | sqlite st =>
      rw [if_pos ⟨hid.symm, by rw [hst]; rfl⟩, Option.some.injEq] at hrec
      rw [← hrec, recordOf_token]
  · rw [if_neg hi] at hs'
    rw [if_neg fun hc => hi (hc.1.trans hid)] at hrec
    exact h.row_token hs' hrec

/-! ### The moves -/

private theorem consistent_create (h : Consistent r) (token : SessionToken) :
    Consistent (r.createSession clk token).2 := by
  have hfresh : ∀ {i s}, r.sessions.get i = some s → i ≠ ⟨r.nextId⟩ := by
    rintro i s hs rfl
    exact absurd (h.below hs) (lt_irrefl _)
  refine { index := ?_, own_id := ?_, below := ?_, clock := ?_, row_token := ?_ }
  · intro t i hi
    simp only [createSession, HashMap.get_insert] at hi ⊢
    by_cases ht : t = token
    · -- the token of the new session leads to it
      obtain rfl : _ = i := by simpa [ht] using hi
      exact ⟨_, if_pos rfl, rfl, ht.symm, by simp [Session.new]⟩
    · rw [if_neg ht] at hi
      obtain ⟨s, hs, hrest⟩ := h.index hi
      exact ⟨s, by rw [if_neg (hfresh hs), hs], hrest⟩
  · exact ownIds_move (G := fun _ _ => True) h.own_id (.create trivial)
  · intro i s hs
    exact HashMap.of_get_insert (P := fun i _ => i.raw < r.nextId + 1) hs (Nat.lt_succ_self _)
      fun hold => Nat.lt_succ_of_lt (h.below hold)
  · exact clock_insert h.toIndexed (Session.clockRuns_new _ _ _ _)
  · intro i s rec hs hrec
    exact row_token_persist h (s := Session.new ⟨r.nextId⟩ token r.localServerId clk.now) rfl hs
      hrec

/-- The token of a destroyed session leads to no other session. -/
private theorem consistent_destroy (h : Consistent r) {id : SessionId} {s : Session}
    (hs : r.sessions.get id = some s) :
    Consistent { r with
      sessions := r.sessions.insert id (s.moved clk.now .destroyed)
      tokenIndex := r.tokenIndex.remove s.token
      store := r.store.remove id } := by
  have hid : (s.moved clk.now .destroyed).id = id := (s.moved_id _ _).trans (h.own_id hs)
  refine
    { index := ?_
      own_id := ownIds_insert h.own_id hid
      below := below_insert h.toIndexed hs
      clock := clock_insert h.toIndexed (Session.clockRuns_moved _ _ _)
      row_token := ?_ }
  · intro t i hi
    simp only [HashMap.get_remove] at hi
    split_ifs at hi with ht
    obtain ⟨s', hs', hid', htok', hst'⟩ := h.index hi
    -- an entry for the destroyed session would be the one under its own token
    have hne : i ≠ id := by
      rintro rfl
      rw [hs, Option.some.injEq] at hs'
      exact ht (htok'.symm.trans (congrArg Session.token hs'.symm))
    exact ⟨s', by rw [HashMap.get_insert_of_ne _ _ hne, hs'], hid', htok', hst'⟩
  · intro i s' rec hs' hrec
    simp only [SessionStore.rows_remove_get] at hrec
    split_ifs at hrec with hi
    rw [HashMap.get_insert_of_ne _ _ hi] at hs'
    exact h.row_token hs' hrec

/-- Forgetting destroyed sessions takes none away that the index names. -/
private theorem consistent_purge (h : Consistent r) : Consistent r.purgeDestroyed := by
  refine { index := ?_, own_id := ?_, below := ?_, clock := ?_, row_token := ?_ }
  · intro t i hi
    obtain ⟨s, hs, hid, htok, hst⟩ := h.index hi
    exact ⟨s, HashMap.get_retain_eq_some.mpr ⟨hs, by simpa using hst⟩, hid, htok, hst⟩
  · exact fun _ _ hs => h.own_id (HashMap.get_retain_eq_some.mp hs).1
  · exact fun hs => h.below (HashMap.get_retain_eq_some.mp hs).1
  · exact fun hs => h.clock (HashMap.get_retain_eq_some.mp hs).1
  · exact fun hs => h.row_token (HashMap.get_retain_eq_some.mp hs).1

/-- A restored session takes the place of one with its token, if of any. -/
private theorem consistent_restore (h : Consistent r) {row : PersistedSession} {rec : SessionRecord}
    (hrec : r.store.rows.get row.id = some rec) (hrow : loadRow row.id rec = some row) :
    Consistent { r with
      nextId := max r.nextId (row.id.raw + 1)
      store := r.store.persist clk (restoredSession clk row)
      tokenIndex := r.tokenIndex.insert ⟨row.token⟩ row.id
      sessions := r.sessions.insert row.id (restoredSession clk row) } := by
  refine
    { index := ?_
      own_id := ownIds_insert h.own_id (restoredSession_id clk row)
      below := ?_
      clock := clock_insert h.toIndexed (by simp [Session.ClockRuns])
      row_token := row_token_persist h (restoredSession_id clk row) }
  · intro t i hi
    simp only [HashMap.get_insert] at hi ⊢
    by_cases ht : t = ⟨row.token⟩
    · obtain rfl : row.id = i := by simpa [ht] using hi
      exact ⟨_, if_pos rfl, rfl, ht.symm, by simp⟩
    · rw [if_neg ht] at hi
      obtain ⟨s, hs, hid, htok, hst⟩ := h.index hi
      -- the overwritten session, if any, carries the token of its row
      have hne : i ≠ row.id := by
        rintro rfl
        refine ht ?_
        rw [← htok, loadRow_token hrow, h.row_token hs hrec]
      exact ⟨s, by rw [if_neg hne, hs], hid, htok, hst⟩
  · intro i s hs
    exact HashMap.of_get_insert (P := fun i _ => i.raw < max r.nextId (row.id.raw + 1)) hs
      (lt_max_of_lt_right (Nat.lt_succ_self _)) fun hold => lt_max_of_lt_left (h.below hold)

/-- Deleting a row raises the counter at most. -/
private theorem consistent_drop (h : Consistent r) (row : PersistedSession) :
    Consistent { r with
      nextId := max r.nextId (row.id.raw + 1)
      store := r.store.remove row.id } := by
  refine { h with below := fun hs => lt_max_of_lt_left (h.below hs), row_token := ?_ }
  intro i s rec hs hrec
  simp only [SessionStore.rows_remove_get] at hrec
  split_ifs at hrec
  exact h.row_token hs hrec

/-- **Every move keeps the index invariant.** -/
theorem consistent_move (h : Consistent r) (hm : Move G clk r r') : Consistent r' := by
  have hown := ownIds_move h.own_id hm
  cases hm with
  | create _ => exact consistent_create h _
  | @advance id s next hs hc hn =>
    have hid : (s.moved clk.now next).id = id := (s.moved_id _ _).trans (h.own_id hs)
    exact
      { index := index_insert h.toIndexed hs hid rfl fun _ => hn
        own_id := hown
        below := below_insert h.toIndexed hs
        clock := clock_insert h.toIndexed (Session.clockRuns_moved _ _ _)
        row_token := row_token_persist h hid }
  | destroy hs _ => exact consistent_destroy h hs
  | @update id s f hs hf =>
    have hid : (f s).id = id := (hf.id_eq s).trans (h.own_id hs)
    have hclock : (f s).ClockRuns := by
      have hrun := h.clock hs
      rwa [Session.ClockRuns, ← hf.suspendedAt_eq s, ← hf.state_eq s] at hrun
    exact
      { index := index_insert h.toIndexed hs hid (hf.token_eq s) fun hst => by rwa [hf.state_eq]
        own_id := hown
        below := below_insert h.toIndexed hs
        clock := clock_insert h.toIndexed hclock
        row_token := row_token_persist h hid }
  | remote m => exact { h with }
  | purge => exact consistent_purge h
  | flush find => exact { h with row_token := fun hs hrec => h.row_token hs (by simpa using hrec) }
  | restore hrec hrow _ => exact consistent_restore h hrec hrow
  | @drop row _ _ _ _ => exact consistent_drop h row

theorem consistent_run (localServerId : String) (capacity : ℕ) (store : SessionStore)
    (history : List (Clock × RegistryOp)) :
    Consistent (((withCluster localServerId capacity).withStore store).run history) :=
  run_invariant consistent_move (consistent_withStore localServerId capacity store) history

/-! ### Errors -/

/-- Only a refused transition answers with an error, and it changes nothing. -/
theorem step_eq_of_error (op : RegistryOp) {e : SessionTransitionError}
    (h : (r.step clk op).1 = .transitioned (.error e)) : (r.step clk op).2 = r := by
  cases op with
  | activate id | suspend id | destroy id | transition id next =>
    simp only [step, Prod.map_fst, RegistryAnswer.transitioned.injEq] at h
    exact transition_eq_of_error h
  | _ => exact absurd h (by simp [step])

end SessionRegistry

end WayRay
