import WayRay.Session.LiveRows
import WayRay.Session.Resolved

/-!
# Memory and store agree

`Mirrored r` says that the store holds what a restart needs: every `Active` or `Suspended` session
has the row that `record_of` makes of it, every row in one of these states belongs to such a
session, and every session that is not destroyed is the one its token resolves to.

Every move keeps it, as long as a session is created only for a token that is `Vacant`
(`mirrored_move`), and restoring a store whose live rows carry different tokens establishes it
(`mirrored_boot`).
-/

namespace WayRay

namespace SessionRegistry

/-- The store mirrors the sessions a client may resume, and every session that is not destroyed is
found by its token. -/
structure Mirrored (r : SessionRegistry) : Prop extends Consistent r where
  resolves : ∀ {i s}, r.sessions.get i = some s → s.state ≠ .destroyed →
    r.tokenIndex.get s.token = some i
  row_of_live : ∀ {i s}, r.store.isSqlite = true → r.sessions.get i = some s →
    s.state.resumable = true → ∃ clk, r.store.rows.get i = some (recordOf s clk)
  live_of_row : ∀ {i row st}, r.store.rows.get i = some row → parseState row.state = some st →
    st.resumable = true → ∃ s, r.sessions.get i = some s ∧ s.state.resumable = true

variable {clk : Clock} {r r' : SessionRegistry}

theorem Mirrored.toResolved (h : Mirrored r) : Resolved r := { h with }

/-- Two sessions with one token that are not destroyed are the same. -/
theorem Mirrored.id_eq (h : Mirrored r) {i j : SessionId} {s s' : Session}
    (hs : r.sessions.get i = some s) (hs' : r.sessions.get j = some s')
    (hst : s.state ≠ .destroyed) (hst' : s'.state ≠ .destroyed) (htok : s.token = s'.token) :
    i = j :=
  h.toResolved.id_eq hs hs' hst hst' htok

theorem Mirrored.toLiveRows (h : Mirrored r) : LiveRows r where
  own_id := h.own_id
  row_of_live := h.row_of_live
  live_of_row := h.live_of_row

/-! ### The moves -/

/-- A restored session takes the place of one with its token. -/
private theorem resolves_restore (h : Mirrored r) {row : PersistedSession} {rec : SessionRecord}
    (hrec : r.store.rows.get row.id = some rec) (hrow : loadRow row.id rec = some row)
    (hlive : row.state.resumable = true) {i : SessionId} {s' : Session}
    (hs' : (r.sessions.insert row.id (restoredSession clk row)).get i = some s')
    (hst' : s'.state ≠ .destroyed) :
    (r.tokenIndex.insert ⟨row.token⟩ row.id).get s'.token = some i := by
  -- the row mirrors a session in memory, which carries its token
  obtain ⟨s, hs, hslive⟩ := h.live_of_row hrec (loadRow_state hrow) hlive
  have htok : (restoredSession clk row).token = s.token := by
    rw [restoredSession_token, loadRow_token hrow, h.row_token hs hrec]
  have hst : s.state ≠ .destroyed := SessionState.ne_destroyed_of_resumable hslive
  have hres := h.toResolved.resolves_insert hs htok (fun _ => hst) hs' hst'
  rw [HashMap.get_insert]
  split_ifs with ht
  · rw [ht, ← restoredSession_token clk row, htok, h.resolves hs hst] at hres
    exact hres
  · exact hres

private theorem resolves_move (h : Mirrored r) (hm : Move Vacant clk r r') {i : SessionId}
    {s : Session} (hs : r'.sessions.get i = some s) (hst : s.state ≠ .destroyed) :
    r'.tokenIndex.get s.token = some i := by
  cases hm with
  | create hvacant => exact (h.toResolved.create hvacant).resolves hs hst
  | @advance id s₀ next hs₀ hc _ =>
    refine h.toResolved.resolves_insert hs₀ (s₀.moved_token clk.now next) (fun _ hdead => ?_) hs hst
    rw [hdead, SessionState.destroyed_canTransitionTo] at hc
    exact absurd hc (by simp)
  | destroy hs₀ hd => exact (h.toResolved.destroy hs₀ hd).resolves hs hst
  | @update id s₀ f hs₀ hf =>
    refine h.toResolved.resolves_insert hs₀ (hf.token_eq s₀) (fun hst₀ => ?_) hs hst
    rwa [hf.state_eq] at hst₀
  | purge => exact h.resolves (HashMap.get_retain_eq_some.mp hs).1 hst
  | remote _ | flush _ | drop _ _ _ => exact h.resolves hs hst
  | restore hrec hrow hlive => exact resolves_restore h hrec hrow hlive hs hst

/-- **Every move keeps memory and store in agreement**, if it creates sessions for vacant tokens
only. -/
theorem mirrored_move (h : Mirrored r) (hm : Move Vacant clk r r') : Mirrored r' :=
  { consistent_move h.toConsistent hm, liveRows_move h.toLiveRows hm with
    resolves := resolves_move h hm }

/-! ### Booting -/

/-- A live row belongs to a live session, whose token it carries. -/
theorem Mirrored.session_of_liveRow (h : Mirrored r) {i : SessionId} {p : PersistedSession}
    (hp : r.store.liveRow i = some p) :
    ∃ s, r.sessions.get i = some s ∧ s.state.resumable = true ∧ p.token = s.token.str := by
  obtain ⟨hload, hlive⟩ := SessionStore.liveRow_eq_some.mp hp
  obtain ⟨row, hrow, hdec⟩ := SessionStore.load_eq_some.mp hload
  obtain ⟨s, hs, hs'⟩ := h.live_of_row hrow (loadRow_state hdec) hlive
  exact ⟨s, hs, hs', by rw [loadRow_token hdec, h.row_token hs hrow]⟩

/-- The live rows of a mirrored registry carry different tokens. -/
theorem Mirrored.liveTokensDistinct (h : Mirrored r) : r.store.LiveTokensDistinct := by
  intro i j p q hp hq htok
  obtain ⟨s, hs, hs', htp⟩ := h.session_of_liveRow hp
  obtain ⟨u, hu, hu', htq⟩ := h.session_of_liveRow hq
  refine h.id_eq hs hu (SessionState.ne_destroyed_of_resumable hs')
    (SessionState.ne_destroyed_of_resumable hu') ?_
  cases hts : s.token
  cases htu : u.token
  simp_all

/-- **Booting**: a fresh registry that restores a store whose live rows carry different tokens
agrees with the store. -/
theorem mirrored_boot (localServerId : String) (capacity : ℕ) {store : SessionStore}
    (hdist : store.LiveTokensDistinct) (clk : Clock)
    (find : Enumeration (SessionId × SessionRecord)) :
    Mirrored
      (((withCluster localServerId capacity).withStore store).restorePersisted clk find).2 := by
  have hcons : Consistent
      (((withCluster localServerId capacity).withStore store).restorePersisted clk find).2 :=
    step_invariant consistent_move (consistent_withStore localServerId capacity store)
      (.restorePersisted find)
  refine
    { hcons, liveRows_boot localServerId capacity store clk find with
      resolves := ?_ }
  intro i s hs _
  rw [sessions_restoreFresh] at hs
  obtain ⟨p, hp, rfl⟩ := Option.map_eq_some_iff.mp hs
  exact (tokenIndex_restorePersisted clk find hdist).1 i p hp

end SessionRegistry

end WayRay
