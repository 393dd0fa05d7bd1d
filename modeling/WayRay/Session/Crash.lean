import WayRay.Session.Mirror

/-!
# Crashes

A crash leaves in the database file what the writer task had applied: some prefix of the queued
writes. `PrefixesDistinct` says that the live rows of every such prefix carry different tokens,
which is what a later boot needs.  It is kept along with the mirror invariant (`crashSafe_move`) and
established by booting (`crashSafe_boot`).
-/

namespace WayRay

namespace SessionStore

/-- A live row is what the rows of the store say. -/
theorem liveRow_congr {store store' : SessionStore} {i : SessionId}
    (h : store.rows.get i = store'.rows.get i) : store.liveRow i = store'.liveRow i := by
  rw [liveRow, liveRow, load, load, h]

theorem liveTokensDistinct_congr {store store' : SessionStore} (h : store.rows = store'.rows)
    (hd : store.LiveTokensDistinct) : store'.LiveTokensDistinct := by
  intro i j p q hp hq
  have hrow : ∀ i, store'.liveRow i = store.liveRow i := fun i => liveRow_congr (by rw [h])
  rw [hrow] at hp hq
  exact hd hp hq

/-- Whatever prefix of the queued writes a crash lets through, the live rows carry different
tokens. -/
def PrefixesDistinct : SessionStore → Prop
  | null => True
  | sqlite s => ∀ k, (sqlite (.openFile (s.crashAfter k))).LiveTokensDistinct

private theorem prefixesDistinct_send {s : SqliteStore} {op : StoreOp}
    (h : (sqlite s).PrefixesDistinct) (hfull : (sqlite (s.send op)).LiveTokensDistinct) :
    (sqlite (s.send op)).PrefixesDistinct := by
  intro k
  by_cases hk : k ≤ s.queue.length
  · have htake : (s.send op).crashAfter k = s.crashAfter k := by
      rw [SqliteStore.crashAfter, SqliteStore.send, List.take_append_of_le_length hk]
      rfl
    rw [htake]
    exact h k
  · -- the crash comes after the last write
    refine liveTokensDistinct_congr ?_ hfull
    have hlen : (s.send op).queue.length ≤ k := by
      rw [SqliteStore.send, List.length_append, List.length_singleton]
      omega
    rw [rows_openFile, SqliteStore.crashAfter, List.take_of_length_le hlen]
    rfl

theorem prefixesDistinct_persist {store : SessionStore} {clk : Clock} {s : Session}
    (h : store.PrefixesDistinct) (hfull : (store.persist clk s).LiveTokensDistinct) :
    (store.persist clk s).PrefixesDistinct := by
  cases store with
  | null => trivial
  | sqlite st => exact prefixesDistinct_send h hfull

theorem prefixesDistinct_remove {store : SessionStore} {id : SessionId}
    (h : store.PrefixesDistinct) (hfull : (store.remove id).LiveTokensDistinct) :
    (store.remove id).PrefixesDistinct := by
  cases store with
  | null => trivial
  | sqlite st => exact prefixesDistinct_send h hfull

/-- Once flushed, there is nothing to lose. -/
theorem prefixesDistinct_loadAll {store : SessionStore}
    (find : Enumeration (SessionId × SessionRecord)) (hd : store.LiveTokensDistinct) :
    (store.loadAll find).2.PrefixesDistinct := by
  cases store with
  | null => trivial
  | sqlite s =>
    intro k
    have hdb : (SqliteStore.crashAfter s.flush k) = s.flush.db := by
      rw [SqliteStore.crashAfter, SqliteStore.flush, List.take_nil, List.foldl_nil]
    show (sqlite (.openFile (SqliteStore.crashAfter s.flush k))).LiveTokensDistinct
    rw [hdb]
    exact liveTokensDistinct_congr (rows_openFile _).symm hd

end SessionStore

namespace SessionRegistry

variable {clk : Clock} {r r' : SessionRegistry}

/-- A registry that agrees with its store, now and after a crash. -/
structure CrashSafe (r : SessionRegistry) : Prop extends Mirrored r where
  prefixes : r.store.PrefixesDistinct

theorem crashSafe_move (h : CrashSafe r) (hm : Move Vacant clk r r') : CrashSafe r' := by
  have hmirror := mirrored_move h.toMirrored hm
  refine { hmirror with prefixes := ?_ }
  have hdist := hmirror.liveTokensDistinct
  cases hm with
  | create _ => exact SessionStore.prefixesDistinct_persist h.prefixes hdist
  | advance _ _ _ | update _ _ | restore _ _ _ =>
    exact SessionStore.prefixesDistinct_persist h.prefixes hdist
  | destroy _ _ | drop _ _ _ => exact SessionStore.prefixesDistinct_remove h.prefixes hdist
  | remote _ | purge => exact h.prefixes
  | flush find => exact SessionStore.prefixesDistinct_loadAll find h.toMirrored.liveTokensDistinct

/-- Restoring a row rewrites it under its own token or deletes it. -/
private theorem liveTokensDistinct_restoreRow {row : PersistedSession}
    (h : r.store.LiveTokensDistinct) (hload : r.store.load row.id = some row) :
    (restoreRow clk r row).store.LiveTokensDistinct := by
  have hsql : r.store.isSqlite = true := by
    obtain ⟨rec, hrec, -⟩ := SessionStore.load_eq_some.mp hload
    exact SessionStore.isSqlite_of_rows_get hrec
  have hold : ∀ {i p'}, (restoreRow clk r row).store.liveRow i = some p' →
      ∃ p, r.store.liveRow i = some p ∧ p.token = p'.token := by
    intro i p' hp'
    by_cases hi : i = row.id
    · subst hi
      obtain ⟨hload', hlive'⟩ := SessionStore.liveRow_eq_some.mp hp'
      obtain ⟨rec, hrec, hdec⟩ := SessionStore.load_eq_some.mp hload'
      rw [rows_restoreRow_self hsql] at hrec
      split_ifs at hrec with hlive
      obtain rfl := Option.some.inj hrec
      exact ⟨row, SessionStore.liveRow_eq_some.mpr ⟨hload, hlive⟩, (loadRow_token hdec).symm⟩
    · rw [SessionStore.liveRow_congr (rows_restoreRow_of_ne r row hi)] at hp'
      exact ⟨p', hp', rfl⟩
  intro i j p q hp hq htok
  obtain ⟨p₀, hp₀, hpt⟩ := hold hp
  obtain ⟨q₀, hq₀, hqt⟩ := hold hq
  exact h hp₀ hq₀ (hpt.trans (htok.trans hqt.symm))

private theorem prefixesDistinct_restoreRow {row : PersistedSession}
    (hp : r.store.PrefixesDistinct) (hd : r.store.LiveTokensDistinct)
    (hload : r.store.load row.id = some row) :
    (restoreRow clk r row).store.PrefixesDistinct := by
  have hd' : (restoreRow clk r row).store.LiveTokensDistinct :=
    liveTokensDistinct_restoreRow hd hload
  revert hd'
  unfold restoreRow
  cases row.state with
  | active | suspended => exact SessionStore.prefixesDistinct_persist hp
  | creating | destroyed => exact SessionStore.prefixesDistinct_remove hp

/-- **Booting** on a store whose live rows carry different tokens is safe at every moment. -/
theorem crashSafe_boot (localServerId : String) (capacity : ℕ) {store : SessionStore}
    (hdist : store.LiveTokensDistinct) (clk : Clock)
    (find : Enumeration (SessionId × SessionRecord)) :
    CrashSafe
      (((withCluster localServerId capacity).withStore store).restorePersisted clk find).2 := by
  refine { mirrored_boot localServerId capacity hdist clk find with prefixes := ?_ }
  let booted :=
    (((withCluster localServerId capacity).withStore store).restorePersisted clk find).2
  have hboth : booted.store.LiveTokensDistinct ∧ booted.store.PrefixesDistinct := by
    refine restorePersisted_induction
      (P := fun r => r.store.LiveTokensDistinct ∧ r.store.PrefixesDistinct) find ⟨?_, ?_⟩ ?_
    · exact SessionStore.liveTokensDistinct_congr (SessionStore.rows_loadAll _ _).symm hdist
    · exact SessionStore.prefixesDistinct_loadAll find hdist
    · exact fun r row h hload =>
        ⟨liveTokensDistinct_restoreRow h.1 hload, prefixesDistinct_restoreRow h.2 h.1 hload⟩
  exact hboth.2

theorem crashSafe_step (h : CrashSafe r) (clk : Clock) (op : RegistryOp)
    (hvacant : ∀ token, op = .createSession token → r.Vacant token) :
    CrashSafe (r.step clk op).2 :=
  moves_invariant crashSafe_move h (step_moves r op hvacant)

/-- A registry without sessions and without a store. -/
theorem crashSafe_withCluster (localServerId : String) (capacity : ℕ) :
    CrashSafe (withCluster localServerId capacity) := by
  have hdist : SessionStore.null.LiveTokensDistinct := by
    intro i j p q hp
    exact absurd hp (by simp [SessionStore.liveRow, SessionStore.load])
  -- restoring from no store changes nothing
  exact crashSafe_boot localServerId capacity hdist ⟨0, 0⟩ .stored

end SessionRegistry

end WayRay
