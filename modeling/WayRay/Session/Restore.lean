import WayRay.Session.Index

/-!
# What restoring does

`restore_persisted` goes through the rows of the store one by one; as their ids differ, its effect
on a session, on a row and on the id counter can be read off the store it starts from:

* `sessions_restorePersisted` — the live rows become suspended sessions, every other session stays;
* `rows_restorePersisted` — live rows are rewritten, the other decodable rows deleted;
* `tokenIndex_restorePersisted` — where live rows carry different tokens, each token leads to its
  row;
* `nextId_restorePersisted` — the counter moves past every row that decodes, and no further.
-/

namespace WayRay

namespace SessionStore

/-- The `Active` or `Suspended` session stored under an id. -/
def liveRow (store : SessionStore) (id : SessionId) : Option PersistedSession :=
  (store.load id).filter (·.state.resumable)

theorem liveRow_eq_some {store : SessionStore} {id : SessionId} {p : PersistedSession} :
    store.liveRow id = some p ↔ store.load id = some p ∧ p.state.resumable = true :=
  Option.filter_eq_some_iff

@[simp] theorem liveRow_reopen (store : SessionStore) (id : SessionId) :
    store.reopen.liveRow id = store.liveRow id := by
  rw [liveRow, load_reopen, liveRow]

theorem liveRow_of_load {store : SessionStore} {id : SessionId} {p : PersistedSession}
    (h : store.load id = some p) :
    store.liveRow id = if p.state.resumable = true then some p else none := by
  rw [liveRow, h, Option.filter_some]

theorem liveRow_of_load_none {store : SessionStore} {id : SessionId} (h : store.load id = none) :
    store.liveRow id = none := by
  rw [liveRow, h, Option.filter_none]

/-- No two live rows carry one token. -/
def LiveTokensDistinct (store : SessionStore) : Prop :=
  ∀ ⦃i j p q⦄, store.liveRow i = some p → store.liveRow j = some q → p.token = q.token → i = j

end SessionStore

namespace SessionRegistry

variable {clk : Clock} {r : SessionRegistry}

/-! ### One row -/

theorem sessions_restoreRow (row : PersistedSession) (i : SessionId) :
    (restoreRow clk r row).sessions.get i =
      if i = row.id ∧ row.state.resumable = true then some (restoredSession clk row)
      else r.sessions.get i := by
  unfold restoreRow
  cases row.state <;> simp [HashMap.get_insert, SessionState.resumable]

theorem rows_restoreRow_self (hsql : r.store.isSqlite = true) (row : PersistedSession) :
    (restoreRow clk r row).store.rows.get row.id =
      if row.state.resumable = true then some (recordOf (restoredSession clk row) clk)
      else none := by
  unfold restoreRow
  cases row.state <;>
    simp [SessionStore.rows_persist_get, SessionStore.rows_remove_get, SessionState.resumable, hsql]

theorem tokenIndex_restoreRow (row : PersistedSession) (t : SessionToken) :
    (restoreRow clk r row).tokenIndex.get t =
      if t = ⟨row.token⟩ ∧ row.state.resumable = true then some row.id
      else r.tokenIndex.get t := by
  unfold restoreRow
  cases row.state <;> simp [HashMap.get_insert, SessionState.resumable]

@[simp] theorem nextId_restoreRow (row : PersistedSession) :
    (restoreRow clk r row).nextId = max r.nextId (row.id.raw + 1) := by
  unfold restoreRow
  cases row.state <;> rfl

@[simp] theorem isSqlite_restoreRow (row : PersistedSession) :
    (restoreRow clk r row).store.isSqlite = r.store.isSqlite := by
  unfold restoreRow
  cases row.state <;> simp

@[simp] theorem localServerId_restoreRow (row : PersistedSession) :
    (restoreRow clk r row).localServerId = r.localServerId := by
  unfold restoreRow
  cases row.state <;> rfl

@[simp] theorem remoteSessions_restoreRow (row : PersistedSession) :
    (restoreRow clk r row).remoteSessions = r.remoteSessions := by
  unfold restoreRow
  cases row.state <;> rfl

@[simp] theorem capacity_restoreRow (row : PersistedSession) :
    (restoreRow clk r row).capacity = r.capacity := by
  unfold restoreRow
  cases row.state <;> rfl

/-! ### All rows

A view `f` of the registry that only the row `p` touches is, after all rows, as `p` leaves it. -/

variable {α : Type*}

private theorem foldl_restoreRow_frame (f : SessionRegistry → α) (rows : List PersistedSession)
    (hframe : ∀ q ∈ rows, ∀ r, f (restoreRow clk r q) = f r) (r : SessionRegistry) :
    f (rows.foldl (restoreRow clk) r) = f r := by
  induction rows generalizing r with
  | nil => rfl
  | cons q rows ih =>
    rw [List.foldl_cons, ih (fun p hp => hframe p (List.mem_cons_of_mem _ hp)),
      hframe q List.mem_cons_self]

private theorem foldl_restoreRow_at (clk : Clock) (f : SessionRegistry → α)
    {rows : List PersistedSession}
    (hnd : (rows.map (·.id)).Nodup) {p : PersistedSession} (hp : p ∈ rows)
    (hframe : ∀ q ∈ rows, q.id ≠ p.id → ∀ r, f (restoreRow clk r q) = f r) (r : SessionRegistry) :
    ∃ r', f r' = f r ∧ r'.store.isSqlite = r.store.isSqlite ∧
      f (rows.foldl (restoreRow clk) r) = f (restoreRow clk r' p) := by
  -- the rows before and after `p` have other ids
  obtain ⟨pre, post, rfl⟩ := List.append_of_mem hp
  rw [List.map_append, List.map_cons, List.nodup_append] at hnd
  obtain ⟨-, hpost, hdisj⟩ := hnd
  have hpre : ∀ q ∈ pre, q.id ≠ p.id := fun q hq =>
    hdisj q.id (List.mem_map_of_mem hq) p.id List.mem_cons_self
  have hpost : ∀ q ∈ post, q.id ≠ p.id := fun q hq heq =>
    (List.nodup_cons.mp hpost).1 (heq ▸ List.mem_map_of_mem hq)
  refine ⟨pre.foldl (restoreRow clk) r, ?_, ?_, ?_⟩
  · exact foldl_restoreRow_frame f pre
      (fun q hq => hframe q (List.mem_append_left _ hq) (hpre q hq)) r
  · exact foldl_restoreRow_frame (·.store.isSqlite) pre (fun q _ r => isSqlite_restoreRow q) r
  · rw [List.foldl_append, List.foldl_cons]
    exact foldl_restoreRow_frame f post (fun q hq =>
      hframe q (List.mem_append_right _ (List.mem_cons_of_mem _ hq)) (hpost q hq)) _

variable (clk) (find : Enumeration (SessionId × SessionRecord))

omit clk in
private theorem id_ne_of_load_none {i : SessionId} (hload : r.store.load i = none) :
    ∀ q ∈ (r.store.loadAll find).1, q.id ≠ i := by
  rintro q hq rfl
  rw [SessionStore.mem_loadAll, hload] at hq
  exact absurd hq (by simp)

/-- The live rows become suspended sessions; every other session stays. -/
theorem sessions_restorePersisted (i : SessionId) :
    (r.restorePersisted clk find).2.sessions.get i =
      ((r.store.liveRow i).map (restoredSession clk)).or (r.sessions.get i) := by
  have hframe : ∀ q : PersistedSession, q.id ≠ i → ∀ r : SessionRegistry,
      (restoreRow clk r q).sessions.get i = r.sessions.get i := fun q hq r => by
    rw [sessions_restoreRow, if_neg fun h => hq h.1.symm]
  rw [restorePersisted_eq]
  cases hload : r.store.load i with
  | none =>
    -- no row that decodes touches the session
    rw [SessionStore.liveRow_of_load_none hload, Option.map_none, Option.none_or]
    exact foldl_restoreRow_frame (·.sessions.get i) _
      (fun q hq => hframe q (id_ne_of_load_none find hload q hq)) _
  | some p =>
    obtain rfl := SessionStore.load_id hload
    obtain ⟨r', hr', -, heq⟩ := foldl_restoreRow_at clk (·.sessions.get p.id)
      (r.store.nodup_ids_loadAll find) (SessionStore.mem_loadAll.mpr hload)
      (fun q _ => hframe q) { r with store := (r.store.loadAll find).2 }
    refine heq.trans ?_
    rw [sessions_restoreRow, SessionStore.liveRow_of_load hload]
    by_cases hlive : p.state.resumable = true
    · rw [if_pos ⟨rfl, hlive⟩, if_pos hlive, Option.map_some, Option.some_or]
    · rw [if_neg fun h => hlive h.2, if_neg hlive, Option.map_none, Option.none_or]
      exact hr'

/-- Live rows are rewritten as restored, the other rows that decode are deleted. -/
theorem rows_restorePersisted (hsql : r.store.isSqlite = true) (i : SessionId) :
    (r.restorePersisted clk find).2.store.rows.get i =
      if r.store.load i = none then r.store.rows.get i
      else (r.store.liveRow i).map fun p => recordOf (restoredSession clk p) clk := by
  have hframe : ∀ q : PersistedSession, q.id ≠ i → ∀ r : SessionRegistry,
      (restoreRow clk r q).store.rows.get i = r.store.rows.get i :=
    fun q hq r => rows_restoreRow_of_ne r q hq.symm
  rw [restorePersisted_eq]
  cases hload : r.store.load i with
  | none =>
    rw [if_pos rfl]
    refine (foldl_restoreRow_frame (·.store.rows.get i) _
      (fun q hq => hframe q (id_ne_of_load_none find hload q hq)) _).trans ?_
    rw [SessionStore.rows_loadAll]
  | some p =>
    obtain rfl := SessionStore.load_id hload
    obtain ⟨r', -, hr', heq⟩ := foldl_restoreRow_at clk (·.store.rows.get p.id)
      (r.store.nodup_ids_loadAll find) (SessionStore.mem_loadAll.mpr hload)
      (fun q _ => hframe q) { r with store := (r.store.loadAll find).2 }
    refine heq.trans ?_
    simp only [SessionStore.isSqlite_loadAll, hsql] at hr'
    rw [rows_restoreRow_self hr', if_neg (Option.some_ne_none p),
      SessionStore.liveRow_of_load hload]
    split_ifs <;> rfl

/-- A token that some live row carries leads to that row, if no other live row carries it; every
other token leads where it did. -/
theorem tokenIndex_restorePersisted (hdist : r.store.LiveTokensDistinct) :
    (∀ i p, r.store.liveRow i = some p →
      (r.restorePersisted clk find).2.tokenIndex.get ⟨p.token⟩ = some i) ∧
    ∀ t, (∀ i p, r.store.liveRow i = some p → (⟨p.token⟩ : SessionToken) ≠ t) →
      (r.restorePersisted clk find).2.tokenIndex.get t = r.tokenIndex.get t := by
  constructor
  · intro i p hp
    obtain ⟨hload, hlive⟩ := SessionStore.liveRow_eq_some.mp hp
    obtain rfl := SessionStore.load_id hload
    have hframe : ∀ q ∈ (r.store.loadAll find).1, q.id ≠ p.id → ∀ r : SessionRegistry,
        (restoreRow clk r q).tokenIndex.get ⟨p.token⟩ = r.tokenIndex.get ⟨p.token⟩ := by
      intro q hq hne r'
      rw [tokenIndex_restoreRow, if_neg]
      rintro ⟨ht, hq'⟩
      exact hne (hdist (SessionStore.liveRow_eq_some.mpr ⟨SessionStore.mem_loadAll.mp hq, hq'⟩) hp
        (congrArg SessionToken.str ht).symm)
    obtain ⟨r', -, -, heq⟩ := foldl_restoreRow_at clk (·.tokenIndex.get ⟨p.token⟩)
      (r.store.nodup_ids_loadAll find) (SessionStore.mem_loadAll.mpr hload) hframe
      { r with store := (r.store.loadAll find).2 }
    refine heq.trans ?_
    rw [tokenIndex_restoreRow, if_pos ⟨rfl, hlive⟩]
  · intro t ht
    refine foldl_restoreRow_frame (·.tokenIndex.get t) _ (fun q hq r' => ?_) _
    rw [tokenIndex_restoreRow, if_neg]
    rintro ⟨rfl, hq'⟩
    exact ht q.id q (SessionStore.liveRow_eq_some.mpr ⟨SessionStore.mem_loadAll.mp hq, hq'⟩) rfl

private theorem nextId_foldl_restoreRow (clk : Clock) (rows : List PersistedSession)
    (r : SessionRegistry) :
    r.nextId ≤ (rows.foldl (restoreRow clk) r).nextId ∧
    (∀ p ∈ rows, p.id.raw < (rows.foldl (restoreRow clk) r).nextId) ∧
    ((rows.foldl (restoreRow clk) r).nextId = r.nextId ∨
      ∃ p ∈ rows, (rows.foldl (restoreRow clk) r).nextId = p.id.raw + 1) := by
  induction rows generalizing r with
  | nil => simp
  | cons q rows ih =>
    obtain ⟨hle, hlt, heq⟩ := ih (restoreRow clk r q)
    rw [nextId_restoreRow] at hle heq
    rw [List.foldl_cons]
    refine ⟨by omega, ?_, ?_⟩
    · intro p hp
      rcases List.mem_cons.mp hp with rfl | hp
      · omega
      · exact hlt p hp
    · rcases heq with heq | ⟨p, hp, heq⟩
      · rcases max_choice r.nextId (q.id.raw + 1) with hmax | hmax
        · exact Or.inl (heq.trans hmax)
        · exact Or.inr ⟨q, List.mem_cons_self, heq.trans hmax⟩
      · exact Or.inr ⟨p, List.mem_cons_of_mem _ hp, heq⟩

/-- The id counter moves past every row that decodes, and no further. -/
theorem nextId_restorePersisted :
    r.nextId ≤ (r.restorePersisted clk find).2.nextId ∧
    (∀ i p, r.store.load i = some p → i.raw < (r.restorePersisted clk find).2.nextId) ∧
    ((r.restorePersisted clk find).2.nextId = r.nextId ∨
      ∃ i p, r.store.load i = some p ∧
        (r.restorePersisted clk find).2.nextId = i.raw + 1) := by
  obtain ⟨hle, hlt, heq⟩ := nextId_foldl_restoreRow clk (r.store.loadAll find).1
    { r with store := (r.store.loadAll find).2 }
  refine ⟨hle, fun i p hp => ?_, heq.imp_right ?_⟩
  · obtain rfl := SessionStore.load_id hp
    exact hlt p (SessionStore.mem_loadAll.mpr hp)
  · rintro ⟨p, hp, heq⟩
    exact ⟨p.id, p, SessionStore.mem_loadAll.mp hp, heq⟩

@[simp] theorem isSqlite_restorePersisted :
    (r.restorePersisted clk find).2.store.isSqlite = r.store.isSqlite :=
  (foldl_restoreRow_frame (·.store.isSqlite) _ (fun q _ _ => isSqlite_restoreRow q) _).trans
    (r.store.isSqlite_loadAll find)

@[simp] theorem localServerId_restorePersisted :
    (r.restorePersisted clk find).2.localServerId = r.localServerId :=
  foldl_restoreRow_frame (·.localServerId) _ (fun q _ _ => localServerId_restoreRow q) _

@[simp] theorem remoteSessions_restorePersisted :
    (r.restorePersisted clk find).2.remoteSessions = r.remoteSessions :=
  foldl_restoreRow_frame (·.remoteSessions) _ (fun q _ _ => remoteSessions_restoreRow q) _

@[simp] theorem capacity_restorePersisted :
    (r.restorePersisted clk find).2.capacity = r.capacity :=
  foldl_restoreRow_frame (·.capacity) _ (fun q _ _ => capacity_restoreRow q) _

end SessionRegistry

end WayRay
