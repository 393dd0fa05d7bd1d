import WayRay.Collections.GuardedRun
import WayRay.Session.Restore

/-!
# The id counter as a machine integer

`next_id` is a `u64`, and the registry adds one to it in two places: past the id of a new session,
and past the ids of the rows that are restored.  Here both additions wrap, as they do in a build
without overflow checks (with the checks the operation panics, and reaches no state).

The other modules count in natural numbers.  `runU64_eq_run` says that the two count alike as long
as no addition wraps; `indexed_runU64_iff` that the index invariant holds exactly as long as none
does that concerns a session: where the largest `u64` becomes the id of a session, that id is not
below the counter.
-/

namespace WayRay

open GuardedRun

namespace SessionRegistry

/-! ### Operations -/

/-- `n + 1` on `u64`. -/
def wrappingSucc (n : ℕ) : ℕ := (n + 1) % 2 ^ 64

/-- `create_session`, with a counter that wraps. -/
def createSessionU64 (r : SessionRegistry) (clk : Clock) (token : SessionToken) :
    SessionId × SessionRegistry :=
  let (id, r') := r.createSession clk token
  (id, { r' with nextId := wrappingSucc r.nextId })

/-- The counter after the rows of the store. -/
def nextIdAfter (nextId : ℕ) (rows : List PersistedSession) : ℕ :=
  rows.foldl (fun nextId row => max nextId (wrappingSucc row.id.raw)) nextId

/-- `restore_persisted`, with a counter that wraps. -/
def restorePersistedU64 (r : SessionRegistry) (clk : Clock)
    (find : Enumeration (SessionId × SessionRecord)) : ℕ × SessionRegistry :=
  let (restored, r') := r.restorePersisted clk find
  (restored, { r' with nextId := nextIdAfter r.nextId (r.store.loadAll find).1 })

/-- Perform one operation. -/
def stepU64 (r : SessionRegistry) (clk : Clock) : RegistryOp → RegistryAnswer × SessionRegistry
  | .createSession token => (r.createSessionU64 clk token).map .created id
  | .restorePersisted find => (r.restorePersistedU64 clk find).map .restored id
  | op => r.step clk op

/-- The registry after an operation. -/
def afterU64 (r : SessionRegistry) (e : Clock × RegistryOp) : SessionRegistry :=
  (r.stepU64 e.1 e.2).2

/-- Perform a history of operations. -/
def runU64 (r : SessionRegistry) (history : List (Clock × RegistryOp)) : SessionRegistry :=
  history.foldl afterU64 r

/-- The operation gives no session the largest `u64` as its id. -/
def IdsFit (r : SessionRegistry) (e : Clock × RegistryOp) : Prop :=
  match e.2 with
  | .createSession _ => r.nextId + 1 < 2 ^ 64
  | .restorePersisted _ => ∀ i p, r.store.liveRow i = some p → i.raw + 1 < 2 ^ 64
  | _ => True

variable {clk : Clock} {r : SessionRegistry}

/-! ### The counter -/

theorem wrappingSucc_lt (n : ℕ) : wrappingSucc n < 2 ^ 64 := Nat.mod_lt _ (by decide)

theorem wrappingSucc_of_lt {n : ℕ} (h : n + 1 < 2 ^ 64) : wrappingSucc n = n + 1 :=
  Nat.mod_eq_of_lt h

theorem le_nextIdAfter (nextId : ℕ) (rows : List PersistedSession) :
    nextId ≤ nextIdAfter nextId rows ∧
      ∀ row ∈ rows, wrappingSucc row.id.raw ≤ nextIdAfter nextId rows := by
  induction rows generalizing nextId with
  | nil => exact ⟨le_rfl, fun _ hrow => absurd hrow List.not_mem_nil⟩
  | cons row rows ih =>
    obtain ⟨hle, hrows⟩ := ih (max nextId (wrappingSucc row.id.raw))
    refine ⟨(le_max_left _ _).trans hle, fun row' hrow' => ?_⟩
    rcases List.mem_cons.mp hrow' with rfl | hrow'
    · exact (le_max_right _ _).trans hle
    · exact hrows row' hrow'

theorem nextIdAfter_lt {nextId : ℕ} (h : nextId < 2 ^ 64) (rows : List PersistedSession) :
    nextIdAfter nextId rows < 2 ^ 64 :=
  List.foldlRecOn (motive := (· < 2 ^ 64)) rows _ h fun _ hlt row _ =>
    max_lt hlt (wrappingSucc_lt row.id.raw)

theorem nextIdAfter_of_lt (nextId : ℕ) {rows : List PersistedSession}
    (h : ∀ row ∈ rows, row.id.raw + 1 < 2 ^ 64) (r : SessionRegistry) (hr : r.nextId = nextId) :
    nextIdAfter nextId rows = (rows.foldl (restoreRow clk) r).nextId := by
  induction rows generalizing nextId r with
  | nil => exact hr.symm
  | cons row rows ih =>
    rw [List.forall_mem_cons] at h
    refine ih _ h.2 _ ?_
    dsimp only
    rw [nextId_restoreRow, hr, wrappingSucc_of_lt h.1]

theorem nextId_afterU64_lt (h : r.nextId < 2 ^ 64) (e : Clock × RegistryOp) :
    (r.afterU64 e).nextId < 2 ^ 64 := by
  obtain ⟨clk, op⟩ := e
  have htransition : ∀ id next, (r.transition clk id next).2.nextId < 2 ^ 64 := by
    intro id next
    rwa [nextId_transition]
  have hupdate : ∀ id f, (r.update clk id f).nextId < 2 ^ 64 := by
    intro id f
    unfold update
    split
    · exact h
    · exact h
  cases op with
  | createSession token => exact wrappingSucc_lt _
  | restorePersisted find => exact nextIdAfter_lt h _
  | activate id | suspend id | destroy id | transition id next => exact htransition _ _
  | setUser id user => exact hupdate _ _
  | setSuspendTimeout id timeout => exact hupdate _ _
  | noteRemoteSession _ _ | pruneRemoteSessions | purgeDestroyed => exact h
  | cleanupExpired =>
    change (List.foldl _ r (r.expiredIds clk)).nextId < 2 ^ 64
    refine List.foldlRecOn (motive := fun r : SessionRegistry => r.nextId < 2 ^ 64) _ _ h ?_
    intro r hr id _
    rwa [destroy, nextId_transition]

/-! ### Counting alike -/

/-- No addition of the operation wraps. -/
def CountsAlike (r : SessionRegistry) (e : Clock × RegistryOp) : Prop :=
  match e.2 with
  | .createSession _ => r.nextId + 1 < 2 ^ 64
  | .restorePersisted _ => ∀ i p, r.store.load i = some p → i.raw + 1 < 2 ^ 64
  | _ => True

theorem stepU64_eq_step {e : Clock × RegistryOp} (h : r.CountsAlike e) :
    r.stepU64 e.1 e.2 = r.step e.1 e.2 := by
  obtain ⟨clk, op⟩ := e
  cases op with
  | createSession token =>
    change Prod.map _ id (_, { (r.createSession clk token).2 with
      nextId := wrappingSucc r.nextId }) = _
    rw [wrappingSucc_of_lt h]
    rfl
  | restorePersisted find =>
    change Prod.map _ id (_, { (r.restorePersisted clk find).2 with
      nextId := nextIdAfter r.nextId (r.store.loadAll find).1 }) = _
    rw [nextIdAfter_of_lt r.nextId (fun row hrow => h row.id row (SessionStore.mem_loadAll.mp hrow))
      { r with store := (r.store.loadAll find).2 } rfl, ← restorePersisted_eq]
    rfl
  | activate _ | suspend _ | destroy _ | transition _ _ | setUser _ _ | setSuspendTimeout _ _
  | noteRemoteSession _ _ | pruneRemoteSessions | cleanupExpired | purgeDestroyed => rfl

/-- **The two registries count alike** as long as no addition wraps. -/
theorem runU64_eq_run {history : List (Clock × RegistryOp)}
    (h : Along afterU64 CountsAlike r history) :
    r.runU64 history = r.run history := by
  induction history generalizing r with
  | nil => rfl
  | cons e history ih =>
    have hstep : r.afterU64 e = (r.step e.1 e.2).2 := congrArg Prod.snd (stepU64_eq_step h.1)
    have hrest : (r.afterU64 e).runU64 history = (r.afterU64 e).run history := ih h.2
    rw [hstep] at hrest
    change (r.afterU64 e).runU64 history = ((r.step e.1 e.2).2).run history
    rw [hstep]
    exact hrest

/-! ### The index invariant -/

theorem consistent_stepU64 (h : Consistent r) {e : Clock × RegistryOp} (hfit : r.IdsFit e) :
    Consistent (r.afterU64 e) := by
  obtain ⟨clk, op⟩ := e
  have hstep : Consistent (r.step clk op).2 := step_invariant consistent_move h op
  cases op with
  | createSession token =>
    have halike : r.CountsAlike (clk, .createSession token) := hfit
    rw [afterU64, stepU64_eq_step halike]
    exact hstep
  | restorePersisted find =>
    refine ⟨⟨hstep.index, hstep.own_id, fun {i s} hs => ?_, hstep.clock⟩, hstep.row_token⟩
    obtain ⟨hle, hrows⟩ := le_nextIdAfter r.nextId (r.store.loadAll find).1
    change (r.restorePersisted clk find).2.sessions.get i = some s at hs
    rw [sessions_restorePersisted] at hs
    cases hlive : r.store.liveRow i with
    | none =>
      rw [hlive] at hs
      exact (h.below hs).trans_le hle
    | some p =>
      have hload := (SessionStore.liveRow_eq_some.mp hlive).1
      have hid := SessionStore.load_id hload
      have hrow := hrows p (SessionStore.mem_loadAll.mpr (hid ▸ hload))
      rw [hid, wrappingSucc_of_lt (hfit i p hlive)] at hrow
      exact hrow
  | activate _ | suspend _ | destroy _ | transition _ _ | setUser _ _ | setSuspendTimeout _ _
  | noteRemoteSession _ _ | pruneRemoteSessions | cleanupExpired | purgeDestroyed => exact hstep

/-- A session with the largest id is not below the counter. -/
theorem idsFit_of_indexed (hlt : r.nextId < 2 ^ 64) {e : Clock × RegistryOp}
    (h : Indexed (r.afterU64 e)) : r.IdsFit e := by
  obtain ⟨clk, op⟩ := e
  cases op with
  | createSession token =>
    change r.nextId + 1 < 2 ^ 64
    by_contra hmax
    have hlast : r.nextId + 1 = 2 ^ 64 := by omega
    have hbelow : r.nextId < wrappingSucc r.nextId := h.below (HashMap.get_insert_self _ _ _)
    rw [wrappingSucc, hlast, Nat.mod_self] at hbelow
    exact Nat.not_lt_zero _ hbelow
  | restorePersisted find =>
    intro i p hlive
    have hsession :
        (r.restorePersisted clk find).2.sessions.get i = some (restoredSession clk p) := by
      rw [sessions_restorePersisted, hlive]
      rfl
    have hbelow : i.raw < nextIdAfter r.nextId (r.store.loadAll find).1 := h.below hsession
    have hbound := nextIdAfter_lt hlt (r.store.loadAll find).1
    omega
  | activate _ | suspend _ | destroy _ | transition _ _ | setUser _ _ | setSuspendTimeout _ _
  | noteRemoteSession _ _ | pruneRemoteSessions | cleanupExpired | purgeDestroyed => trivial

/-- An operation that answers with an error changes nothing. -/
theorem stepU64_eq_of_error (op : RegistryOp) {e : SessionTransitionError}
    (h : (r.stepU64 clk op).1 = .transitioned (.error e)) : (r.stepU64 clk op).2 = r := by
  cases op with
  | createSession _ | restorePersisted _ => cases h
  | activate _ | suspend _ | destroy _ | transition _ _ | setUser _ _ | setSuspendTimeout _ _
  | noteRemoteSession _ _ | pruneRemoteSessions | cleanupExpired | purgeDestroyed =>
    exact step_eq_of_error _ h

/-- **The index invariant.**  A registry with any store attached before its first operation is
indexed in every state of a history, and there an operation that answers with an error changes
neither the registry nor its store, if and only if the largest `u64` never becomes the id of a
session. -/
theorem indexed_runU64_iff (localServerId : String) (capacity : ℕ) (store : SessionStore)
    (history : List (Clock × RegistryOp)) :
    let r₀ := (withCluster localServerId capacity).withStore store
    Along afterU64 IdsFit r₀ history ↔
      ∀ pre, pre <+: history → let r := r₀.runU64 pre
        Indexed r ∧ ∀ clk op e, (r.stepU64 clk op).1 = .transitioned (.error e) →
          (r.stepU64 clk op).2 = r := by
  intro r₀
  have hindexed : Along afterU64 IdsFit r₀ history ↔
      ∀ pre, pre <+: history → Indexed (r₀.runU64 pre) :=
    along_iff_forall_guarded (I := fun r => Consistent r ∧ r.nextId < 2 ^ 64)
      (fun r e h hfit => ⟨consistent_stepU64 h.1 hfit, nextId_afterU64_lt h.2 e⟩)
      (fun r e h => ⟨fun hfit => (consistent_stepU64 h.1 hfit).toIndexed, idsFit_of_indexed h.2⟩)
      ⟨consistent_withStore localServerId capacity store, Nat.one_lt_two_pow (by decide)⟩
      (consistent_withStore localServerId capacity store).toIndexed
  rw [hindexed]
  exact forall₂_congr fun pre _ =>
    (and_iff_left fun clk op e herror => stepU64_eq_of_error op herror).symm

/-- A database with one suspended session, under the key that holds the bits of the largest
`u64`. -/
def lastRow : SessionTable :=
  (∅ : SessionTable).insert ⟨2 ^ 64 - 1⟩ ⟨"t", "suspended", none, "", 0, some 0, 60⟩

/-- Its session is restored above the counter. -/
theorem lastRow_restored :
    let r := ((withCluster "" 1).withStore (.sqlite (.openFile lastRow))).runU64
      [(⟨0, 0⟩, .restorePersisted .stored)]
    (r.sessions.get ⟨2 ^ 64 - 1⟩).isSome ∧ r.nextId = 1 ∧ ¬ Indexed r := by
  intro r
  have hsession : (r.sessions.get ⟨2 ^ 64 - 1⟩).isSome := by decide +kernel
  have hnext : r.nextId = 1 := by decide +kernel
  refine ⟨hsession, hnext, fun h => ?_⟩
  obtain ⟨s, hs⟩ := Option.isSome_iff_exists.mp hsession
  have hbelow := h.below hs
  rw [hnext] at hbelow
  exact absurd hbelow (by decide)

end SessionRegistry

end WayRay
