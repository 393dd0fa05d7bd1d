import WayRay.Session.Restart
import Mathlib.Data.List.Induction

/-!
# Freshness of session ids

`issued r events` lists the ids that `create_session` returns over a life of a database.  A restart
recovers the id counter from the rows that are left, and `destroy` deletes rows, so an id may be
issued again.  `issued_nodup_iff` says exactly when none is: at every restart that some later
`create_session` follows, the database still holds the row of the last id below the counter
(`LastIdKept`). `issued_twice` is the shortest life that issues an id twice.

`Counted` is the invariant behind it: sessions and rows lie below the counter, and so does no id
that was never issued.
-/

namespace WayRay

open SessionRegistry

/-- The id an event issues. -/
def LifeEvent.issues (r : SessionRegistry) : LifeEvent → List SessionId
  | op clk o =>
    match (r.step clk o).1 with
    | .created id => [id]
    | _ => []
  | restart .. => []

def LifeEvent.isCreate : LifeEvent → Bool
  | op _ (.createSession _) => true
  | _ => false

def LifeEvent.isRestart : LifeEvent → Bool
  | restart .. => true
  | op .. => false

namespace SessionRegistry

/-- The ids issued over a life, in order. -/
def issued : SessionRegistry → List LifeEvent → List SessionId
  | _, [] => []
  | r, e :: events => e.issues r ++ issued (e.apply r) events

/-- The database holds the row of the last id below the counter, or the counter is at its start. -/
def LastIdKept (r : SessionRegistry) : Prop :=
  r.nextId = 1 ∨ ∃ row, r.store.rows.get ⟨r.nextId - 1⟩ = some row

variable {r : SessionRegistry}

theorem issued_append (r : SessionRegistry) (events events' : List LifeEvent) :
    r.issued (events ++ events') = r.issued events ++ (r.life events).issued events' := by
  induction events generalizing r with
  | nil => rfl
  | cons e events ih =>
    simp only [List.cons_append, issued, ih, List.append_assoc, life, List.foldl_cons]

theorem issues_eq (r : SessionRegistry) (e : LifeEvent) :
    e.issues r = if e.isCreate = true then [⟨r.nextId⟩] else [] := by
  cases e with
  | restart => rfl
  | op clk o => cases o <;> rfl

/-! ### The counter -/

/-- What the id counter owes to sessions and rows: it lies above all of them, and every row
decodes. -/
structure Counted (r : SessionRegistry) : Prop where
  own_id : OwnIds r
  sqlite : r.store.isSqlite = true
  pos : 1 ≤ r.nextId
  sessions_below : ∀ {i s}, r.sessions.get i = some s → i.raw < r.nextId
  rows_below : ∀ {i row}, r.store.rows.get i = some row → i.raw < r.nextId
  rows_decode : ∀ {i row}, r.store.rows.get i = some row → ∃ st, parseState row.state = some st

theorem counted_onEmptyDatabase (localServerId : String) (capacity : ℕ) :
    Counted (onEmptyDatabase localServerId capacity) where
  own_id _ _ h := by simp [onEmptyDatabase, withStore, withCluster, new] at h
  sqlite := rfl
  pos := le_refl 1
  sessions_below h := by simp [onEmptyDatabase, withStore, withCluster, new] at h
  rows_below h := by simp [onEmptyDatabase, withStore] at h
  rows_decode h := by simp [onEmptyDatabase, withStore] at h

variable {G : SessionRegistry → SessionToken → Prop} {clk : Clock} {r' : SessionRegistry}

private theorem sessions_below_insert (h : Counted r) {n : ℕ} (hn : r.nextId ≤ n) {id : SessionId}
    (hid : id.raw < n) {s : Session} {i : SessionId} {s' : Session}
    (hs' : (r.sessions.insert id s).get i = some s') : i.raw < n :=
  HashMap.of_get_insert (P := fun i _ => i.raw < n) hs' hid fun hold =>
    lt_of_lt_of_le (h.sessions_below hold) hn

private theorem rows_below_persist (h : Counted r) {n : ℕ} (hn : r.nextId ≤ n) {s : Session}
    (hid : s.id.raw < n) {i : SessionId} {row : SessionRecord}
    (hrow : (r.store.persist clk s).rows.get i = some row) : i.raw < n := by
  rw [SessionStore.rows_persist_get] at hrow
  split_ifs at hrow with hi
  · rwa [hi.1]
  · exact lt_of_lt_of_le (h.rows_below hrow) hn

private theorem rows_decode_persist (h : Counted r) {s : Session} {i : SessionId}
    {row : SessionRecord} (hrow : (r.store.persist clk s).rows.get i = some row) :
    ∃ st, parseState row.state = some st := by
  rw [SessionStore.rows_persist_get] at hrow
  split_ifs at hrow
  · obtain rfl := Option.some.inj hrow
    exact ⟨s.state, by rw [recordOf_state, parseState_stateStr]⟩
  · exact h.rows_decode hrow

/-- A session with an id below the counter is written and persisted under it. -/
private theorem Counted.write (h : Counted r) (hown : OwnIds r')
    (hsql : r'.store.isSqlite = true) (hn : r.nextId ≤ r'.nextId) {id : SessionId}
    (hid : id.raw < r'.nextId) {s : Session} (hs : s.id = id)
    (hsessions : r'.sessions = r.sessions.insert id s) (hstore : r'.store = r.store.persist clk s) :
    Counted r' where
  own_id := hown
  sqlite := hsql
  pos := h.pos.trans hn
  sessions_below hget := sessions_below_insert h hn hid (hsessions ▸ hget)
  rows_below hrow := rows_below_persist h hn (hs ▸ hid) (hstore ▸ hrow)
  rows_decode hrow := rows_decode_persist h (hstore ▸ hrow)

private theorem rows_get_of_remove {id i : SessionId} {row : SessionRecord}
    (hrow : (r.store.remove id).rows.get i = some row) : r.store.rows.get i = some row := by
  rw [SessionStore.rows_remove_get] at hrow
  split_ifs at hrow
  exact hrow

theorem counted_move (h : Counted r) (hm : Move G clk r r') : Counted r' := by
  have hown := ownIds_move h.own_id hm
  have hsql := (isSqlite_move hm).trans h.sqlite
  cases hm with
  | create _ => exact h.write hown hsql (Nat.le_succ _) (Nat.lt_succ_self _) rfl rfl rfl
  | @advance id s next hs _ _ =>
    have hid : (s.moved clk.now next).id = id := (Session.moved_id ..).trans (h.own_id hs)
    exact h.write hown hsql le_rfl (h.sessions_below hs) hid rfl rfl
  | @update id s f hs hf =>
    exact h.write hown hsql le_rfl (h.sessions_below hs) ((hf.id_eq s).trans (h.own_id hs)) rfl rfl
  | @restore row rec hrec _ _ =>
    exact h.write hown hsql (le_max_left _ _) (lt_max_of_lt_left (h.rows_below hrec)) rfl rfl rfl
  | @destroy id s hs _ =>
    exact
      { own_id := hown
        sqlite := hsql
        pos := h.pos
        sessions_below := sessions_below_insert h le_rfl (h.sessions_below hs)
        rows_below := fun hrow => h.rows_below (rows_get_of_remove hrow)
        rows_decode := fun hrow => h.rows_decode (rows_get_of_remove hrow) }
  | remote m => exact { h with }
  | purge =>
    exact { h with
      own_id := hown
      sessions_below := fun hs => h.sessions_below (HashMap.get_retain_eq_some.mp hs).1 }
  | flush find =>
    exact { h with
      sqlite := hsql
      rows_below := fun hrow => h.rows_below (by rwa [SessionStore.rows_loadAll] at hrow)
      rows_decode := fun hrow => h.rows_decode (by rwa [SessionStore.rows_loadAll] at hrow) }
  | @drop row rec hrec _ _ =>
    have hle := le_max_left r.nextId (row.id.raw + 1)
    exact
      { own_id := hown
        sqlite := hsql
        pos := h.pos.trans hle
        sessions_below := fun hs => lt_of_lt_of_le (h.sessions_below hs) hle
        rows_below := fun hrow => lt_of_lt_of_le (h.rows_below (rows_get_of_remove hrow)) hle
        rows_decode := fun hrow => h.rows_decode (rows_get_of_remove hrow) }

/-- Only `create_session` moves the counter: the rows a running registry restores lie below it. -/
private theorem nextId_move (h : Counted r) (hm : Move (fun _ _ => False) clk r r') :
    r'.nextId = r.nextId := by
  cases hm with
  | create hG => exact hG.elim
  | restore hrec _ _ | drop hrec _ _ => exact max_eq_left (Nat.succ_le_of_lt (h.rows_below hrec))
  | advance _ _ _ | destroy _ _ | update _ _ | remote _ | purge | flush _ => rfl

/-! ### Events -/

theorem counted_restart (h : Counted r) (clk : Clock) (localServerId : String) (capacity : ℕ)
    (find : Enumeration (SessionId × SessionRecord)) :
    Counted (r.restart clk localServerId capacity find) := by
  obtain ⟨hpos, hlt, -⟩ := nextId_restart (r := r) clk localServerId capacity find
  have hbelow : ∀ {i p}, r.store.liveRow i = some p →
      i.raw < (r.restart clk localServerId capacity find).nextId := fun {i p} hp =>
    hlt i p (SessionStore.liveRow_eq_some.mp hp).1
  have hrows : ∀ {i row}, (r.restart clk localServerId capacity find).store.rows.get i = some row →
      ∃ p, r.store.liveRow i = some p ∧ recordOf (restoredSession clk p) clk = row := by
    intro i row hrow
    rw [rows_restart clk localServerId capacity find h.sqlite] at hrow
    split_ifs at hrow with hload
    · -- no row fails to decode
      obtain ⟨st, hst⟩ := h.rows_decode hrow
      obtain ⟨p, hp⟩ := SessionStore.exists_load hrow hst
      rw [hload] at hp
      exact absurd hp (by simp)
    · exact Option.map_eq_some_iff.mp hrow
  refine
    { own_id := ?_
      sqlite := (isSqlite_restart clk localServerId capacity find).trans h.sqlite
      pos := hpos
      sessions_below := ?_
      rows_below := ?_
      rows_decode := ?_ }
  · exact step_invariant ownIds_move
      (fun i s hs => by simp [withStore, withCluster, new] at hs) (.restorePersisted find)
  · intro i s hs
    rw [sessions_restart] at hs
    obtain ⟨p, hp, -⟩ := Option.map_eq_some_iff.mp hs
    exact hbelow hp
  · intro i row hrow
    obtain ⟨p, hp, -⟩ := hrows hrow
    exact hbelow hp
  · intro i row hrow
    obtain ⟨p, -, rfl⟩ := hrows hrow
    exact ⟨_, by rw [recordOf_state, parseState_stateStr]⟩

theorem counted_apply (h : Counted r) (e : LifeEvent) : Counted (e.apply r) := by
  cases e with
  | op clk o => exact step_invariant counted_move h o
  | restart clk localServerId capacity find =>
    exact counted_restart h clk localServerId capacity find

theorem counted_life (h : Counted r) (events : List LifeEvent) : Counted (r.life events) :=
  List.foldlRecOn (motive := Counted) events _ h fun _ hr e _ => counted_apply hr e

/-- Every row decodes, so the counter of a restart lies above each of them. -/
private theorem row_lt_nextId_restart (h : Counted r) (clk : Clock) (localServerId : String)
    (capacity : ℕ) (find : Enumeration (SessionId × SessionRecord)) {i : SessionId}
    {row : SessionRecord} (hrow : r.store.rows.get i = some row) :
    i.raw < (r.restart clk localServerId capacity find).nextId := by
  obtain ⟨-, hlt, -⟩ := nextId_restart (r := r) clk localServerId capacity find
  obtain ⟨st, hst⟩ := h.rows_decode hrow
  obtain ⟨p, hp⟩ := SessionStore.exists_load hrow hst
  exact hlt i p hp

/-- A restart never finds a counter beyond the one before. -/
theorem nextId_restart_le (h : Counted r) (clk : Clock) (localServerId : String) (capacity : ℕ)
    (find : Enumeration (SessionId × SessionRecord)) :
    (r.restart clk localServerId capacity find).nextId ≤ r.nextId := by
  rcases (nextId_restart (r := r) clk localServerId capacity find).2.2 with
    heq | ⟨i, p, hp, heq⟩
  · exact heq ▸ h.pos
  · obtain ⟨row, hrow, -⟩ := SessionStore.load_eq_some.mp hp
    exact heq ▸ h.rows_below hrow

/-- A restart finds the counter again if the last row is kept. -/
theorem nextId_restart_of_kept (h : Counted r) (hkept : LastIdKept r) (clk : Clock)
    (localServerId : String) (capacity : ℕ) (find : Enumeration (SessionId × SessionRecord)) :
    (r.restart clk localServerId capacity find).nextId = r.nextId := by
  refine le_antisymm (nextId_restart_le h clk localServerId capacity find) ?_
  rcases hkept with hone | ⟨row, hrow⟩
  · exact hone ▸ (nextId_restart (r := r) clk localServerId capacity find).1
  · have hlt := row_lt_nextId_restart h clk localServerId capacity find hrow
    simp only at hlt
    omega

/-- A restart without the last row falls behind. -/
theorem nextId_restart_of_lost (h : Counted r) (hlost : ¬ LastIdKept r) (clk : Clock)
    (localServerId : String) (capacity : ℕ) (find : Enumeration (SessionId × SessionRecord)) :
    (r.restart clk localServerId capacity find).nextId < r.nextId := by
  rcases (nextId_restart (r := r) clk localServerId capacity find).2.2 with
    heq | ⟨i, p, hp, heq⟩
  · have hne : r.nextId ≠ 1 := fun hone => hlost (Or.inl hone)
    have hpos := h.pos
    omega
  · obtain ⟨row, hrow, -⟩ := SessionStore.load_eq_some.mp hp
    have hi := h.rows_below hrow
    have hne : i.raw ≠ r.nextId - 1 := by
      intro hi
      obtain rfl : i = ⟨r.nextId - 1⟩ := congrArg SessionId.mk hi
      exact hlost (Or.inr ⟨row, hrow⟩)
    omega

theorem nextId_apply_create {e : LifeEvent} (he : e.isCreate = true) :
    (e.apply r).nextId = r.nextId + 1 := by
  cases e with
  | restart => exact absurd he (by simp [LifeEvent.isCreate])
  | op clk o => cases o <;> first | rfl | exact absurd he (by simp [LifeEvent.isCreate])

/-- An operation that creates no session leaves the counter. -/
theorem nextId_apply_of_op (h : Counted r) {e : LifeEvent} (he : e.isCreate = false)
    (hop : e.isRestart = false) : (e.apply r).nextId = r.nextId := by
  cases e with
  | restart => exact absurd hop (by simp [LifeEvent.isRestart])
  | op clk o =>
    have hG : ∀ token, o = .createSession token → False := by
      rintro token rfl
      exact absurd he (by simp [LifeEvent.isCreate])
    have hkeep : Counted (r.step clk o).2 ∧ (r.step clk o).2.nextId = r.nextId :=
      moves_invariant (P := fun r' => Counted r' ∧ r'.nextId = r.nextId)
        (fun hr hm => ⟨counted_move hr.1 hm, (nextId_move hr.1 hm).trans hr.2⟩) ⟨h, rfl⟩
        (step_moves (G := fun _ _ => False) r o hG)
    exact hkeep.2

/-- An event that creates no session does not raise the counter. -/
theorem nextId_apply_le (h : Counted r) {e : LifeEvent} (he : e.isCreate = false) :
    (e.apply r).nextId ≤ r.nextId := by
  cases e with
  | op clk o => exact (nextId_apply_of_op h he rfl).le
  | restart clk localServerId capacity find =>
    exact nextId_restart_le h clk localServerId capacity find

theorem nextId_life_le (h : Counted r) {events : List LifeEvent}
    (hno : ∀ e ∈ events, e.isCreate = false) : (r.life events).nextId ≤ r.nextId := by
  induction events generalizing r with
  | nil => exact le_rfl
  | cons e events ih =>
    exact (ih (counted_apply h e) fun e' he' => hno e' (List.mem_cons_of_mem _ he')).trans
      (nextId_apply_le h (hno e List.mem_cons_self))

/-! ### Issued ids -/

theorem life_concat (r : SessionRegistry) (events : List LifeEvent) (e : LifeEvent) :
    r.life (events ++ [e]) = e.apply (r.life events) :=
  life_append r events [e]

theorem issued_concat (r : SessionRegistry) (events : List LifeEvent) (e : LifeEvent) :
    r.issued (events ++ [e]) = r.issued events ++ e.issues (r.life events) := by
  rw [issued_append, issued, issued, List.append_nil]

/-- Every id between the first and the counter has been issued. -/
theorem mem_issued_of_lt (h : Counted r) (hone : r.nextId = 1) (events : List LifeEvent) {k : ℕ}
    (hk : 1 ≤ k) (hlt : k < (r.life events).nextId) : ⟨k⟩ ∈ r.issued events := by
  induction events using List.reverseRecOn with
  | nil =>
    change k < r.nextId at hlt
    omega
  | append_singleton events e ih =>
    rw [life_concat] at hlt
    rw [issued_concat, List.mem_append]
    by_cases he : e.isCreate = true
    · -- either the id just issued or one from before
      rw [nextId_apply_create he] at hlt
      by_cases hk' : k = (r.life events).nextId
      · rw [issues_eq, if_pos he, hk']
        exact Or.inr List.mem_cons_self
      · exact Or.inl (ih (by omega))
    · have hle := nextId_apply_le (counted_life h events) (eq_false_of_ne_true he)
      exact Or.inl (ih (by omega))

/-- If every restart finds the last row, every issued id stays below the counter. -/
private theorem issued_lt_of_kept (h : Counted r) (events : List LifeEvent)
    (hkept : ∀ pre e post, events = pre ++ e :: post → e.isRestart = true →
      LastIdKept (r.life pre)) :
    ∀ id ∈ r.issued events, id.raw < (r.life events).nextId := by
  induction events using List.reverseRecOn with
  | nil => exact fun id hid => absurd hid List.not_mem_nil
  | append_singleton events e ih =>
    have ih := ih fun pre e' post heq => hkept pre e' (post ++ [e]) (by rw [heq, List.append_assoc,
      List.cons_append])
    intro id hid
    rw [issued_concat, List.mem_append, issues_eq] at hid
    rw [life_concat]
    by_cases he : e.isCreate = true
    · rw [nextId_apply_create he]
      rw [if_pos he, List.mem_singleton] at hid
      rcases hid with hid | rfl
      · exact Nat.lt_succ_of_lt (ih id hid)
      · exact Nat.lt_succ_self _
    · rw [if_neg he] at hid
      have hid := ih id (hid.resolve_right List.not_mem_nil)
      -- operations leave the counter, and a restart finds it again
      cases hr : e.isRestart with
      | false =>
        rwa [nextId_apply_of_op (counted_life h events) (eq_false_of_ne_true he) hr]
      | true =>
        cases e with
        | op => exact absurd hr (by simp [LifeEvent.isRestart])
        | restart clk localServerId capacity find =>
          have hk := hkept events _ [] rfl hr
          rw [LifeEvent.apply, nextId_restart_of_kept (counted_life h events) hk]
          exact hid

/-- After a restart that does not find the last row, the next id issued is one from before it. -/
private theorem mem_issued_of_lost (h : Counted r) (hone : r.nextId = 1)
    {pre between : List LifeEvent} {e : LifeEvent} (he : e.isRestart = true)
    (hlost : ¬ LastIdKept (r.life pre))
    (hno : ∀ e' ∈ between, e'.isCreate = false) :
    ⟨((e.apply (r.life pre)).life between).nextId⟩ ∈ r.issued pre := by
  have hlt : (e.apply (r.life pre)).nextId < (r.life pre).nextId := by
    cases e with
    | op => exact absurd he (by simp [LifeEvent.isRestart])
    | restart clk localServerId capacity find =>
      exact nextId_restart_of_lost (counted_life h pre) hlost clk localServerId capacity find
  have hcounted : Counted (e.apply (r.life pre)) := counted_apply (counted_life h pre) e
  have hle : ((e.apply (r.life pre)).life between).nextId ≤ (e.apply (r.life pre)).nextId :=
    nextId_life_le hcounted hno
  have hpos : 1 ≤ ((e.apply (r.life pre)).life between).nextId :=
    (counted_life hcounted between).pos
  exact mem_issued_of_lt h hone pre hpos (lt_of_le_of_lt hle hlt)

/-- If every restart before some `create_session` finds the last row, no id is issued twice. -/
private theorem nodup_issued_of_kept (h : Counted r) (events : List LifeEvent)
    (hkept : ∀ pre e post, events = pre ++ e :: post → e.isRestart = true →
      (∃ c ∈ post, c.isCreate = true) → LastIdKept (r.life pre)) :
    (r.issued events).Nodup := by
  induction events using List.reverseRecOn with
  | nil => exact List.nodup_nil
  | append_singleton events e ih =>
    have hsplit : ∀ {pre e' post}, events = pre ++ e' :: post →
        events ++ [e] = pre ++ e' :: (post ++ [e]) := by
      rintro pre e' post rfl
      rw [List.append_assoc, List.cons_append]
    have hnodup : (r.issued events).Nodup := ih fun pre e' post heq he' hpost => by
      obtain ⟨c, hc, hcreate⟩ := hpost
      exact hkept pre e' (post ++ [e]) (hsplit heq) he' ⟨c, List.mem_append_left _ hc, hcreate⟩
    rw [issued_concat, issues_eq]
    by_cases he : e.isCreate = true
    · -- every restart so far is followed by this `create_session`
      have hlt := issued_lt_of_kept h events fun pre e' post heq he' =>
        hkept pre e' (post ++ [e]) (hsplit heq) he'
          ⟨e, List.mem_append_right _ List.mem_cons_self, he⟩
      rw [if_pos he]
      refine List.nodup_append.mpr ⟨hnodup, List.nodup_singleton _, ?_⟩
      rintro id hid _ hnew rfl
      obtain rfl := List.mem_singleton.mp hnew
      exact lt_irrefl _ (hlt _ hid)
    · rwa [if_neg he, List.append_nil]

/-- **Freshness, exactly.**  Over the whole life of a database, no id is issued twice if and only if
every restart that some later `create_session` follows finds the row of the last id below the
counter. -/
theorem issued_nodup_iff (localServerId : String) (capacity : ℕ) (events : List LifeEvent) :
    ((onEmptyDatabase localServerId capacity).issued events).Nodup ↔
      ∀ pre e post, events = pre ++ e :: post → e.isRestart = true →
        (∃ c ∈ post, c.isCreate = true) →
        LastIdKept ((onEmptyDatabase localServerId capacity).life pre) := by
  have h := counted_onEmptyDatabase localServerId capacity
  have hone : (onEmptyDatabase localServerId capacity).nextId = 1 := rfl
  generalize onEmptyDatabase localServerId capacity = r at h hone ⊢
  constructor
  · rintro hnodup pre e post rfl he ⟨c, hc, hcreate⟩
    by_contra hlost
    -- the first `create_session` after the restart issues an id again
    obtain ⟨c, between, rest, hbetween, hcreate, rfl, -⟩ := List.exists_of_eraseP hc hcreate
    have hno : ∀ e' ∈ between, e'.isCreate = false := fun e' he' =>
      eq_false_of_ne_true (hbetween e' he')
    have hold := mem_issued_of_lost h hone he hlost hno
    rw [issued_append, issued, issued_append, issued, issues_eq _ c, if_pos hcreate] at hnodup
    exact List.disjoint_of_nodup_append hnodup hold (by simp)
  · exact nodup_issued_of_kept h events

/-- The last session is destroyed, the server restarts, and another session is created. -/
def destroyRestartCreate : List LifeEvent :=
  [.op ⟨0, 0⟩ (.createSession ⟨"t"⟩), .op ⟨0, 0⟩ (.activate ⟨1⟩), .op ⟨0, 0⟩ (.destroy ⟨1⟩),
    .restart ⟨0, 0⟩ "a" 50 .stored, .op ⟨0, 0⟩ (.createSession ⟨"u"⟩)]

/-- **An id issued twice.**  The new session gets the id of the destroyed one. -/
theorem issued_twice :
    (onEmptyDatabase "a" 50).issued destroyRestartCreate = [⟨1⟩, ⟨1⟩] ∧
      ¬ ((onEmptyDatabase "a" 50).issued destroyRestartCreate).Nodup := by
  decide

end SessionRegistry

end WayRay
