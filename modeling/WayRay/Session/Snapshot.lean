import WayRay.Collections.Keyed
import WayRay.Protocol.Admin
import WayRay.Session.Index

/-!
# What an administrator sees

`stateCounts` and `adminSnapshot` of `session/registry.rs`: how many sessions there are in each
state, and one entry for each session, in the order of the ids.

A snapshot shows every session (`isSnapshot_adminSnapshot`) but no more of its token than the first
characters (`adminSnapshot_eq`).  That its times are in order rests on the clock: a session is
suspended after it was created (`allCreatedFirst_run`).
-/

namespace WayRay

open Keyed

namespace SessionRegistry

/-- Count one more session in its state. -/
def countSession (counts : SessionCounts) (session : Session) : SessionCounts :=
  match session.state with
  | .creating => { counts with creating := counts.creating + 1 }
  | .active => { counts with active := counts.active + 1 }
  | .suspended => { counts with suspended := counts.suspended + 1 }
  | .destroyed => { counts with destroyed := counts.destroyed + 1 }

/-- Session counts broken down by state. -/
def stateCounts (r : SessionRegistry) (find : Enumeration Session) : SessionCounts :=
  (find.order r.sessions.values).foldl countSession ⟨0, 0, 0, 0⟩

/-- The entry of one session.  `connectedClient` is the session that the connected client is bound
to, with the address of the client.  One reading of the clock stands for the two calls of `elapsed`
that the code makes one after the other. -/
def snapshotEntry (clk : Clock) (connectedClient : Option (SessionId × Option String))
    (s : Session) : SessionEntry :=
  let uptimeSecs := Instant.elapsedSecs s.createdAt clk.now
  -- the subtractions saturate
  let createdAtEpochSecs := clk.epoch - uptimeSecs
  { id := s.id.raw
    tokenPrefix := redactToken s.token.str
    user := s.user
    state := s.state.display
    createdAtEpochSecs := createdAtEpochSecs
    lastActiveEpochSecs :=
      match s.state with
      | .active => clk.epoch
      | .suspended | .destroyed =>
        (s.suspendedAt.map fun t => clk.epoch - Instant.elapsedSecs t clk.now).getD
          createdAtEpochSecs
      | .creating => createdAtEpochSecs
    uptimeSecs := uptimeSecs
    clientAddr :=
      match connectedClient with
      | some (id, addr) => if id = s.id then addr else none
      | none => none }

/-- Snapshot of every session, sorted by id.  The clock is read for all of them at one instant. -/
def adminSnapshot (r : SessionRegistry) (clk : Clock)
    (connectedClient : Option (SessionId × Option String)) (find : Enumeration Session) :
    List SessionEntry :=
  sortByKey SessionEntry.id
    ((find.order r.sessions.values).map (snapshotEntry clk connectedClient))

variable {r r' : SessionRegistry} {clk : Clock}
  {connectedClient : Option (SessionId × Option String)} {find find' : Enumeration Session}

/-! ### One entry for each session -/

theorem mem_entries {e : SessionEntry} :
    e ∈ (find.order r.sessions.values).map (snapshotEntry clk connectedClient) ↔
      ∃ id s, r.get id = some s ∧ snapshotEntry clk connectedClient s = e := by
  simp only [List.mem_map, Enumeration.mem_order, HashMap.mem_values]
  constructor
  · rintro ⟨s, ⟨id, hs⟩, he⟩
    exact ⟨id, s, hs, he⟩
  · rintro ⟨id, s, hs, he⟩
    exact ⟨s, ⟨id, hs⟩, he⟩

theorem mem_adminSnapshot {e : SessionEntry} :
    e ∈ r.adminSnapshot clk connectedClient find ↔
      ∃ id s, r.get id = some s ∧ snapshotEntry clk connectedClient s = e := by
  rw [adminSnapshot, mem_sortByKey, mem_entries]

/-- The ids that the sessions carry are the ones they are stored under. -/
theorem OwnIds.map_id_values (h : OwnIds r) : r.sessions.values.map (·.id) = r.sessions.keys := by
  rw [HashMap.values, List.map_map, AList.keys, List.keys]
  exact List.map_congr_left fun e he => h (HashMap.get_eq_some_iff.mpr he)

/-- No two entries have the same id. -/
theorem OwnIds.nodup_entries (h : OwnIds r) :
    (((find.order r.sessions.values).map (snapshotEntry clk connectedClient)).map
      SessionEntry.id).Nodup := by
  have hids : (r.sessions.values.map fun s => s.id.raw).Nodup := by
    have hraw : Function.Injective SessionId.raw := fun ⟨i⟩ ⟨j⟩ hij => congrArg SessionId.mk hij
    have hkeys := h.map_id_values ▸ r.sessions.keys_nodup
    exact List.map_map (f := Session.id) (g := SessionId.raw) ▸ hkeys.map hraw
  rw [List.map_map]
  exact ((find.perm r.sessions.values).map _).nodup_iff.mpr hids

/-! ### The counts -/

/-- The entries, in whatever order the sessions come. -/
theorem adminSnapshot_perm :
    (r.adminSnapshot clk connectedClient find).Perm
      (r.sessions.values.map (snapshotEntry clk connectedClient)) :=
  (List.perm_insertionSort _ _).trans ((find.perm r.sessions.values).map _)

theorem foldl_countSession (sessions : List Session) (counts : SessionCounts) :
    sessions.foldl countSession counts =
      ⟨counts.creating + sessions.countP (·.state = .creating),
        counts.active + sessions.countP (·.state = .active),
        counts.suspended + sessions.countP (·.state = .suspended),
        counts.destroyed + sessions.countP (·.state = .destroyed)⟩ := by
  induction sessions generalizing counts with
  | nil => rfl
  | cons s sessions ih =>
    rw [List.foldl_cons, ih, countSession]
    cases hs : s.state <;> simp [hs, Nat.add_assoc, Nat.add_comm 1]

/-- The counts are those of the sessions in each state. -/
theorem stateCounts_eq :
    r.stateCounts find =
      ⟨r.countByState .creating, r.countByState .active, r.countByState .suspended,
        r.countByState .destroyed⟩ := by
  rw [stateCounts, foldl_countSession]
  simp only [(find.perm r.sessions.values).countP_eq, Nat.zero_add, countByState,
    List.countP_eq_length_filter]

/-- Each session is counted once. -/
theorem total_stateCounts : (r.stateCounts find).total = r.sessions.keys.length := by
  have hone : ∀ counts session, (countSession counts session).total = counts.total + 1 := by
    intro counts session
    cases hs : session.state <;> simp only [countSession, hs, SessionCounts.total] <;> omega
  have hall : ∀ (sessions : List Session) counts,
      (sessions.foldl countSession counts).total = counts.total + sessions.length := by
    intro sessions
    induction sessions with
    | nil => exact fun _ => rfl
    | cons session sessions ih =>
      intro counts
      rw [List.foldl_cons, ih, hone, List.length_cons]
      omega
  rw [stateCounts, hall, (find.perm _).length_eq, HashMap.values, AList.keys, List.keys,
    List.length_map, List.length_map]
  exact Nat.zero_add _

/-- A snapshot shows as many sessions in each state as there are. -/
theorem countByState_eq_snapshot (state : SessionState) :
    r.countByState state =
      (r.adminSnapshot clk connectedClient find).countP fun e => e.state = state.display := by
  have hdisplay : ∀ s : Session,
      ((snapshotEntry clk connectedClient s).state = state.display) = (s.state = state) := by
    intro s
    change (s.state.display = state.display) = _
    cases s.state <;> cases state <;> decide
  rw [adminSnapshot_perm.countP_eq, List.countP_map, countByState, List.countP_eq_length_filter]
  simp only [Function.comp_def, hdisplay]

/-! ### Hidden characters -/

/-- The sessions differ at most in the characters of their tokens that a redacted one does not
show. -/
structure SameButSecret (s s' : Session) : Prop where
  same : { s with token := s'.token } = s'
  long : tokenPrefixLen < s.token.str.toList.length
  long' : tokenPrefixLen < s'.token.str.toList.length
  shown : s.token.str.toList.take tokenPrefixLen = s'.token.str.toList.take tokenPrefixLen

theorem SameButSecret.id_eq {s s' : Session} (h : SameButSecret s s') : s.id = s'.id :=
  h.same ▸ rfl

theorem SameButSecret.snapshotEntry_eq {s s' : Session} (h : SameButSecret s s') :
    snapshotEntry clk connectedClient s = snapshotEntry clk connectedClient s' := by
  have hredact : redactToken s.token.str = redactToken s'.token.str :=
    redactToken_eq h.long h.long' h.shown
  rw [← h.same]
  simp only [snapshotEntry, hredact]

private theorem sameButSecret_get {x y : Option Session} (h : Option.Rel SameButSecret x y) :
    (∀ s, x = some s → ∃ s', y = some s' ∧ SameButSecret s s') ∧
      ∀ s', y = some s' → ∃ s, x = some s ∧ SameButSecret s s' := by
  cases h with
  | none => exact ⟨nofun, nofun⟩
  | @some s s' h =>
    constructor
    · exact fun _ hs => ⟨s', rfl, Option.some.inj hs ▸ h⟩
    · exact fun _ hs' => ⟨s, rfl, Option.some.inj hs' ▸ h⟩

/-- **A snapshot shows no more of the tokens** than redacted ones: it does not tell registries apart
that differ in the rest. -/
theorem adminSnapshot_eq (hids : OwnIds r)
    (hsame : ∀ id, Option.Rel SameButSecret (r.get id) (r'.get id)) :
    r.adminSnapshot clk connectedClient find = r'.adminSnapshot clk connectedClient find' := by
  have hids' : OwnIds r' := by
    intro id s' hs'
    obtain ⟨s, hs, h⟩ := (sameButSecret_get (hsame id)).2 s' hs'
    exact h.id_eq.symm.trans (hids hs)
  refine sortByKey_eq hids.nodup_entries hids'.nodup_entries fun e => ?_
  rw [mem_entries, mem_entries]
  refine exists_congr fun id => ?_
  obtain ⟨hto, hfrom⟩ := sameButSecret_get (hsame id)
  constructor
  · rintro ⟨s, hs, rfl⟩
    obtain ⟨s', hs', h⟩ := hto s hs
    exact ⟨s', hs', h.snapshotEntry_eq.symm⟩
  · rintro ⟨s', hs', rfl⟩
    obtain ⟨s, hs, h⟩ := hfrom s' hs'
    exact ⟨s, hs, h.snapshotEntry_eq⟩

/-- Nor do the counts. -/
theorem stateCounts_eq_of_same (hids : OwnIds r)
    (hsame : ∀ id, Option.Rel SameButSecret (r.get id) (r'.get id)) :
    r.stateCounts find = r'.stateCounts find' := by
  -- as they are those of the snapshot
  have hcount : ∀ state, r.countByState state = r'.countByState state := by
    intro state
    have hsnapshot : r.adminSnapshot ⟨0, 0⟩ none find = r'.adminSnapshot ⟨0, 0⟩ none find' :=
      adminSnapshot_eq hids hsame
    rw [r.countByState_eq_snapshot, r'.countByState_eq_snapshot, hsnapshot]
  rw [stateCounts_eq, stateCounts_eq]
  simp only [hcount]

/-! ### Times -/

/-- The session was created before `now`, and before it was suspended. -/
structure CreatedFirst (now : Instant) (s : Session) : Prop where
  created : s.createdAt ≤ now
  suspended : ∀ t, s.suspendedAt = some t → s.createdAt ≤ t

theorem CreatedFirst.moved {now : Instant} {s : Session} (h : CreatedFirst now s)
    (next : SessionState) : CreatedFirst now (s.moved now next) where
  created := h.created
  suspended t ht := by
    simp only [Session.moved, Option.ite_none_right_eq_some, Option.some.injEq] at ht
    exact ht.2 ▸ h.created

theorem createdFirst_restoredSession (clk : Clock) (row : PersistedSession) :
    CreatedFirst clk.now (restoredSession clk row) := by
  have hle : (restoredSession clk row).createdAt ≤ clk.now := by
    simp only [restoredSession]
    exact Instant.getD_checkedSub_le _ _
  exact ⟨hle, fun t ht => Option.some.inj ht ▸ hle⟩

/-- Every session was created before `now`, and before it was suspended. -/
def AllCreatedFirst (now : Instant) (r : SessionRegistry) : Prop :=
  ∀ i s, r.sessions.get i = some s → CreatedFirst now s

private theorem allCreatedFirst_insert {now : Instant} (h : r.AllCreatedFirst now)
    (id : SessionId) {s : Session} (hs : CreatedFirst now s) (i : SessionId) (s' : Session)
    (h' : (r.sessions.insert id s).get i = some s') : CreatedFirst now s' :=
  HashMap.of_get_insert (P := fun _ s => CreatedFirst now s) h' hs (h i s')

theorem allCreatedFirst_move {G : SessionRegistry → SessionToken → Prop}
    (h : r.AllCreatedFirst clk.now) (hm : Move G clk r r') : r'.AllCreatedFirst clk.now := by
  cases hm with
  | @create token _ =>
    exact allCreatedFirst_insert h _
      (s := Session.new ⟨r.nextId⟩ token r.localServerId clk.now) ⟨le_refl clk.now, nofun⟩
  | advance hs _ _ | destroy hs _ => exact allCreatedFirst_insert h _ ((h _ _ hs).moved _)
  | @update id s f hs hf =>
    obtain ⟨hcreated, hsuspended⟩ := h id s hs
    refine allCreatedFirst_insert h id ⟨(hf.createdAt_eq s).trans_le hcreated, fun t ht => ?_⟩
    exact (hf.createdAt_eq s).trans_le (hsuspended t ((hf.suspendedAt_eq s).symm.trans ht))
  | purge => exact fun i s hs => h i s (HashMap.get_retain_eq_some.mp hs).1
  | restore _ _ _ => exact allCreatedFirst_insert h _ (createdFirst_restoredSession clk _)
  | remote | flush | drop => exact h

/-- **Under a clock that does not run backwards** every session was created before it was
suspended. -/
theorem allCreatedFirst_run {start : Instant} (h : r.AllCreatedFirst start)
    {history : List (Clock × RegistryOp)} (hstart : ∀ e ∈ history, start ≤ e.1.now)
    (hclock : history.Pairwise fun e e' => e.1.now ≤ e'.1.now) :
    ∃ now, (r.run history).AllCreatedFirst now := by
  induction history generalizing r start with
  | nil => exact ⟨start, h⟩
  | cons e history ih =>
    rw [List.pairwise_cons] at hclock
    have hle := hstart e List.mem_cons_self
    have hnow : r.AllCreatedFirst e.1.now :=
      fun i s hs => ⟨(h i s hs).created.trans hle, (h i s hs).suspended⟩
    exact ih (step_invariant allCreatedFirst_move hnow e.2) hclock.1 hclock.2

/-- So that the times of its entry are in order. -/
theorem CreatedFirst.times {now : Instant} {s : Session} (h : CreatedFirst now s) :
    (snapshotEntry clk connectedClient s).createdAtEpochSecs ≤
        (snapshotEntry clk connectedClient s).lastActiveEpochSecs ∧
      (snapshotEntry clk connectedClient s).lastActiveEpochSecs ≤ clk.epoch := by
  have hcreated : clk.epoch - Instant.elapsedSecs s.createdAt clk.now ≤ clk.epoch := Nat.sub_le _ _
  have hsuspended : ∀ t, s.suspendedAt = some t →
      clk.epoch - Instant.elapsedSecs s.createdAt clk.now ≤
          clk.epoch - Instant.elapsedSecs t clk.now ∧
        clk.epoch - Instant.elapsedSecs t clk.now ≤ clk.epoch := by
    intro t ht
    have hle := Instant.elapsedSecs_le_of_le (h.suspended t ht) clk.now
    exact ⟨Nat.sub_le_sub_left hle _, Nat.sub_le _ _⟩
  simp only [snapshotEntry]
  cases s.state with
  | creating => exact ⟨le_rfl, hcreated⟩
  | active => exact ⟨hcreated, le_rfl⟩
  | suspended | destroyed =>
    cases ht : s.suspendedAt with
    | none => exact ⟨le_rfl, hcreated⟩
    | some t => exact hsuspended t ht

/-! ### Whole histories -/

/-- The entries show the sessions of the registry as they are at the time of the clock. -/
structure IsSnapshot (r : SessionRegistry) (clk : Clock)
    (connectedClient : Option (SessionId × Option String)) (entries : List SessionEntry) :
    Prop where
  increasing : entries.Pairwise fun e e' => e.id < e'.id
  entry : ∀ id s, r.get id = some s → ∃! e, e ∈ entries ∧ e.id = id.raw
  session : ∀ e ∈ entries, ∃ s, r.get ⟨e.id⟩ = some s
  times : ∀ e ∈ entries, e.createdAtEpochSecs ≤ e.lastActiveEpochSecs ∧
    e.lastActiveEpochSecs ≤ clk.epoch
  address : ∀ e ∈ entries, ∀ addr,
    e.clientAddr = some addr ↔ connectedClient = some (⟨e.id⟩, some addr)

theorem isSnapshot_adminSnapshot (hids : OwnIds r) {now : Instant} (h : r.AllCreatedFirst now) :
    IsSnapshot r clk connectedClient (r.adminSnapshot clk connectedClient find) where
  increasing := pairwise_sortByKey hids.nodup_entries
  entry id s hs := by
    refine ⟨snapshotEntry clk connectedClient s, ⟨mem_adminSnapshot.mpr ⟨id, s, hs, rfl⟩, ?_⟩, ?_⟩
    · exact congrArg SessionId.raw (hids hs)
    · rintro e ⟨he, hid⟩
      -- the entry is that of the session stored under its id
      obtain ⟨id', s', hs', rfl⟩ := mem_adminSnapshot.mp he
      obtain rfl : id' = id := by
        rw [← hids hs']
        exact congrArg SessionId.mk hid
      rw [Option.some.inj (hs.symm.trans hs')]
  session e he := by
    obtain ⟨id, s, hs, rfl⟩ := mem_adminSnapshot.mp he
    obtain rfl : s.id = id := hids hs
    exact ⟨s, hs⟩
  times e he := by
    obtain ⟨id, s, hs, rfl⟩ := mem_adminSnapshot.mp he
    exact (h id s hs).times
  address e he addr := by
    obtain ⟨-, s, -, rfl⟩ := mem_adminSnapshot.mp he
    simp only [snapshotEntry]
    cases connectedClient with
    | none => simp
    | some client =>
      obtain ⟨id, addr'⟩ := client
      simp only [Option.ite_none_right_eq_some, Option.some.injEq, Prod.mk.injEq]

/-- **An administrator sees every session and no token.**  Registries that differ in the hidden
characters of their tokens look alike; a snapshot holds each session once, in the order of the ids,
with its times in order and the address of the client that is connected to it, and each session is
counted once. -/
theorem adminSnapshot_redacted_complete (localServerId : String) (capacity : ℕ)
    (store : SessionStore) (history : List (Clock × RegistryOp))
    (hclock : history.Pairwise fun e e' => e.1.now ≤ e'.1.now) :
    let r := ((withCluster localServerId capacity).withStore store).run history
    (∀ r' : SessionRegistry, (∀ id, Option.Rel SameButSecret (r.get id) (r'.get id)) →
      ∀ clk connectedClient find find',
        r.adminSnapshot clk connectedClient find = r'.adminSnapshot clk connectedClient find' ∧
          r.stateCounts find = r'.stateCounts find') ∧
    ∀ clk connectedClient find,
      IsSnapshot r clk connectedClient (r.adminSnapshot clk connectedClient find) ∧
        (r.stateCounts find).total = r.sessions.keys.length := by
  intro r
  have hstart := consistent_withStore localServerId capacity store
  have hids : OwnIds r := run_invariant ownIds_move hstart.own_id history
  have hempty : ((withCluster localServerId capacity).withStore store).AllCreatedFirst 0 :=
    fun i s hs => by simp [withStore, withCluster, new] at hs
  have hcreated : ∃ now, r.AllCreatedFirst now :=
    allCreatedFirst_run hempty (fun e _ => Nat.zero_le e.1.now) hclock
  constructor
  · intro r' hsame clk connectedClient find find'
    exact ⟨adminSnapshot_eq hids hsame, stateCounts_eq_of_same hids hsame⟩
  · intro clk connectedClient find
    obtain ⟨now, hnow⟩ := hcreated
    exact ⟨isSnapshot_adminSnapshot hids hnow, total_stateCounts⟩

/-- Two registries with one session each. -/
theorem adminSnapshot_redacted_complete_one :
    let r := ((withCluster "a" 50).withStore .null).run
      [(⟨5, 1000⟩, .createSession ⟨"0123456789"⟩)]
    let r' := ((withCluster "a" 50).withStore .null).run
      [(⟨5, 1000⟩, .createSession ⟨"01234567-other"⟩)]
    r.adminSnapshot ⟨9, 1000⟩ none .stored = r'.adminSnapshot ⟨9, 1000⟩ none .stored ∧
      IsSnapshot r ⟨9, 1000⟩ none (r.adminSnapshot ⟨9, 1000⟩ none .stored) := by
  intro r r'
  obtain ⟨hredacted, hcomplete⟩ := adminSnapshot_redacted_complete "a" 50 .null
    [(⟨5, 1000⟩, .createSession ⟨"0123456789"⟩)] (List.pairwise_singleton _ _)
  refine ⟨(hredacted r' (fun id => ?_) _ _ _ _).1, (hcomplete _ _ _).1⟩
  change Option.Rel SameButSecret
    (HashMap.get (HashMap.insert ∅ ⟨1⟩ (Session.new ⟨1⟩ ⟨"0123456789"⟩ "a" 5)) id)
    (HashMap.get (HashMap.insert ∅ ⟨1⟩ (Session.new ⟨1⟩ ⟨"01234567-other"⟩ "a" 5)) id)
  rw [HashMap.get_insert, HashMap.get_insert]
  split_ifs
  · exact .some ⟨rfl, by decide, by decide, by decide⟩
  · exact .none

end SessionRegistry

end WayRay
