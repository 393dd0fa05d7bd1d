import WayRay.Session.Resolved
import WayRay.Collections.GuardedRun

/-!
# Where a token lives

`locate` answers from two maps and a clock.  `locate_refines` equates its answer with one read off
the history: the session that holds the token, else the server the token was last noted for since a
session was last created for it (`lastNote`), as long as the note is younger than the TTL.

Pruning drops only notes that `locate` does not look at any more, so that histories differing in
their `prune_remote_sessions` alone get the same answers.  `filter_remoteSessions_run` is the
invariant: at a time that no operation has passed, the fresh note in the map is the fresh note of
the history.
-/

namespace WayRay

open GuardedRun

/-- The note is young enough to be trusted. -/
def RemoteEntry.isFresh (now : Instant) (e : RemoteEntry) : Bool :=
  Instant.elapsed e.notedAt now < remoteSessionTtl

theorem RemoteEntry.isFresh_eq_true {now : Instant} {e : RemoteEntry} :
    e.isFresh now = true ↔ Instant.elapsed e.notedAt now < remoteSessionTtl :=
  decide_eq_true_iff

/-- The operation prunes the remote notes. -/
def RegistryOp.isPrune : RegistryOp → Bool
  | .pruneRemoteSessions => true
  | _ => false

namespace SessionRegistry

/-- The last note of a token, after one more operation. -/
def noteAfter (t : SessionToken) (note : Option RemoteEntry) (e : Clock × RegistryOp) :
    Option RemoteEntry :=
  match e.2 with
  | .noteRemoteSession token serverId => if t = token then some ⟨serverId, e.1.now⟩ else note
  | .createSession token => if t = token then none else note
  | _ => note

/-- The last `note_remote_session` for a token since the last `create_session` for it. -/
def lastNote (t : SessionToken) (history : List (Clock × RegistryOp)) : Option RemoteEntry :=
  history.foldl (noteAfter t) none

variable {clk : Clock} {r : SessionRegistry} {t : SessionToken}

/-! ### The notes -/

@[simp] theorem remoteSessions_transition (r : SessionRegistry) (clk : Clock) (id : SessionId)
    (next : SessionState) : (r.transition clk id next).2.remoteSessions = r.remoteSessions :=
  (r.transition_frame clk id next).2.2

@[simp] theorem remoteSessions_update (r : SessionRegistry) (clk : Clock) (id : SessionId)
    (f : Session → Session) : (r.update clk id f).remoteSessions = r.remoteSessions := by
  unfold update
  cases r.sessions.get id <;> rfl

@[simp] theorem remoteSessions_cleanupExpired (r : SessionRegistry) (clk : Clock) :
    (r.cleanupExpired clk).2.remoteSessions = r.remoteSessions :=
  List.foldlRecOn (motive := fun r' => r'.remoteSessions = r.remoteSessions) (r.expiredIds clk)
    (fun r id => (r.destroy clk id).2) rfl
    fun r' hr' id _ => (remoteSessions_transition r' clk id .destroyed).trans hr'

/-- What an operation other than pruning does to the note of a token. -/
theorem remoteSessions_step {op : RegistryOp} (hop : op.isPrune = false) :
    (r.step clk op).2.remoteSessions.get t =
      noteAfter t (r.remoteSessions.get t) (clk, op) := by
  cases op with
  | createSession token => exact HashMap.get_remove _ _ _
  | noteRemoteSession token serverId => exact HashMap.get_insert _ _ _ _
  | pruneRemoteSessions => exact absurd hop (by simp [RegistryOp.isPrune])
  | activate id | suspend id | destroy id | transition id next =>
    exact congrArg (·.get t) (remoteSessions_transition r clk id _)
  | setUser id user | setSuspendTimeout id timeout =>
    exact congrArg (·.get t) (remoteSessions_update r clk id _)
  | cleanupExpired => exact congrArg (·.get t) (remoteSessions_cleanupExpired r clk)
  | purgeDestroyed => rfl
  | restorePersisted find => exact congrArg (·.get t) (remoteSessions_restorePersisted clk find)

/-- A note that is fresh was fresh before. -/
theorem isFresh_of_le {now now' : Instant} (hle : now' ≤ now) {e : RemoteEntry}
    (h : e.isFresh now = true) : e.isFresh now' = true := by
  rw [RemoteEntry.isFresh_eq_true] at h ⊢
  exact lt_of_le_of_lt (Nat.sub_le_sub_right hle e.notedAt) h

/-- Pruning drops no note that is still fresh later. -/
theorem filter_pruneRemoteSessions {now : Instant} (hle : clk.now ≤ now) :
    ((r.pruneRemoteSessions clk).remoteSessions.get t).filter (·.isFresh now) =
      (r.remoteSessions.get t).filter (·.isFresh now) := by
  have hget : (r.pruneRemoteSessions clk).remoteSessions.get t =
      (r.remoteSessions.get t).filter (·.isFresh clk.now) :=
    HashMap.get_retain _ _ _
  ext e
  rw [hget, Option.filter_eq_some_iff, Option.filter_eq_some_iff, Option.filter_eq_some_iff]
  constructor
  · rintro ⟨⟨he, -⟩, hfresh⟩
    exact ⟨he, hfresh⟩
  · rintro ⟨he, hfresh⟩
    exact ⟨⟨he, isFresh_of_le hle hfresh⟩, hfresh⟩

/-- Of the earlier note, an operation keeps or forgets the freshness too. -/
theorem filter_noteAfter {now : Instant} {note note' : Option RemoteEntry}
    (h : note.filter (·.isFresh now) = note'.filter (·.isFresh now)) (e : Clock × RegistryOp) :
    (noteAfter t note e).filter (·.isFresh now) = (noteAfter t note' e).filter (·.isFresh now) := by
  unfold noteAfter
  split
  · split_ifs
    · rfl
    · exact h
  · split_ifs
    · rfl
    · exact h
  · exact h

/-- **The fresh note in the map is the fresh note of the history**, at any time that no operation
has passed. -/
theorem filter_remoteSessions_run {now : Instant} {note : Option RemoteEntry}
    (h0 : (r.remoteSessions.get t).filter (·.isFresh now) = note.filter (·.isFresh now))
    {history : List (Clock × RegistryOp)} (htime : ∀ e ∈ history, e.1.now ≤ now) :
    ((r.run history).remoteSessions.get t).filter (·.isFresh now) =
      (history.foldl (noteAfter t) note).filter (·.isFresh now) := by
  induction history generalizing r note with
  | nil => exact h0
  | cons e history ih =>
    refine ih ?_ fun e' he' => htime e' (List.mem_cons_of_mem e he')
    obtain ⟨clk, op⟩ := e
    cases hop : op.isPrune with
    | false =>
      rw [remoteSessions_step hop]
      exact filter_noteAfter h0 _
    | true =>
      -- the history has no note to forget when the map drops one
      cases op with
      | pruneRemoteSessions =>
        exact (filter_pruneRemoteSessions (htime _ List.mem_cons_self)).trans h0
      | _ => exact absurd hop (by simp [RegistryOp.isPrune])

/-! ### Pruning is invisible -/

/-- The registry but for its remote notes. -/
def forgetRemote (r : SessionRegistry) : SessionRegistry := { r with remoteSessions := ∅ }

private theorem forgetRemote_transition (r : SessionRegistry) (clk : Clock) (id : SessionId)
    (next : SessionState) :
    (r.forgetRemote.transition clk id next).2.forgetRemote =
      (r.transition clk id next).2.forgetRemote := by
  cases hs : r.sessions.get id with
  | none => simp [transition, forgetRemote, hs]
  | some s =>
    cases hc : s.state.canTransitionTo next with
    | false => simp [transition, forgetRemote, hs, Session.transition_error hc]
    | true =>
      rw [transition_of_can hs hc, transition_of_can (r := r.forgetRemote) hs hc]
      split_ifs <;> rfl

private theorem forgetRemote_update (r : SessionRegistry) (clk : Clock) (id : SessionId)
    (f : Session → Session) :
    (r.forgetRemote.update clk id f).forgetRemote = (r.update clk id f).forgetRemote := by
  unfold update forgetRemote
  cases r.sessions.get id <;> rfl

/-- Two loops over one list end in registries that differ in their notes alone, if each turn
disregards the notes. -/
private theorem forgetRemote_foldl {α : Type*} {f : SessionRegistry → α → SessionRegistry}
    (hf : ∀ r a, (f r.forgetRemote a).forgetRemote = (f r a).forgetRemote) (l : List α)
    {r r' : SessionRegistry} (h : r.forgetRemote = r'.forgetRemote) :
    (l.foldl f r).forgetRemote = (l.foldl f r').forgetRemote := by
  induction l generalizing r r' with
  | nil => exact h
  | cons a l ih => exact ih (by rw [← hf r, ← hf r', h])

/-- No operation looks at the notes but to answer `locate`. -/
theorem forgetRemote_step (r : SessionRegistry) (clk : Clock) (op : RegistryOp) :
    (r.forgetRemote.step clk op).2.forgetRemote = (r.step clk op).2.forgetRemote := by
  cases op with
  | createSession token => rfl
  | activate id | suspend id | destroy id | transition id next =>
    exact forgetRemote_transition r clk id _
  | setUser id user | setSuspendTimeout id timeout => exact forgetRemote_update r clk id _
  | noteRemoteSession token serverId => rfl
  | pruneRemoteSessions => rfl
  | cleanupExpired =>
    exact forgetRemote_foldl (fun r id => forgetRemote_transition r clk id .destroyed) _ rfl
  | purgeDestroyed => rfl
  | restorePersisted find =>
    refine forgetRemote_foldl (fun r row => ?_) _ rfl
    unfold restoreRow
    cases row.state <;> rfl

/-- A history may be pruned of its prunings. -/
theorem forgetRemote_run_filter {r r' : SessionRegistry} (h : r.forgetRemote = r'.forgetRemote)
    (history : List (Clock × RegistryOp)) :
    (r.run history).forgetRemote =
      (r'.run (history.filter fun e => !e.2.isPrune)).forgetRemote := by
  induction history generalizing r r' with
  | nil => exact h
  | cons e history ih =>
    obtain ⟨clk, op⟩ := e
    cases hop : op.isPrune with
    | false =>
      rw [List.filter_cons_of_pos (by simp [hop])]
      exact ih (by rw [← forgetRemote_step, ← forgetRemote_step r', h])
    | true =>
      rw [List.filter_cons_of_neg (by simp [hop])]
      cases op with
      | pruneRemoteSessions => exact ih h
      | _ => exact absurd hop (by simp [RegistryOp.isPrune])

theorem lastNote_filter (t : SessionToken) (history : List (Clock × RegistryOp)) :
    lastNote t (history.filter fun e => !e.2.isPrune) = lastNote t history := by
  rw [lastNote, List.foldl_filter, lastNote]
  congr 1
  funext note ⟨clk, op⟩
  cases op <;> simp [noteAfter, RegistryOp.isPrune]

/-! ### The answer -/

/-- `locate` looks at the index and at the fresh note. -/
theorem locate_eq (r : SessionRegistry) (clk : Clock) (t : SessionToken) :
    r.locate clk t =
      match r.tokenIndex.get t, (r.remoteSessions.get t).filter (·.isFresh clk.now) with
      | some id, _ => .localTo id
      | none, some e => .remote e.serverId
      | none, none => .unknown := by
  unfold locate
  cases r.tokenIndex.get t with
  | some id => rfl
  | none =>
    cases r.remoteSessions.get t with
    | none => rfl
    | some e =>
      by_cases hfresh : Instant.elapsed e.notedAt clk.now < remoteSessionTtl
      · simp [Option.filter_some, RemoteEntry.isFresh, hfresh]
      · simp [Option.filter_some, RemoteEntry.isFresh, hfresh]

/-- Registries that differ in notes which are not fresh give the same answer. -/
theorem locate_congr {r r' : SessionRegistry} (h : r.forgetRemote = r'.forgetRemote)
    (hnote : (r.remoteSessions.get t).filter (·.isFresh clk.now) =
      (r'.remoteSessions.get t).filter (·.isFresh clk.now)) :
    r.locate clk t = r'.locate clk t := by
  have hindex : r.tokenIndex = r'.tokenIndex := congrArg (·.tokenIndex) h
  rw [locate_eq, locate_eq, hindex, hnote]

theorem locate_eq_localTo_iff {r : SessionRegistry} {clk : Clock} {t : SessionToken}
    {id : SessionId} : r.locate clk t = .localTo id ↔ r.tokenIndex.get t = some id := by
  rw [locate_eq]
  cases r.tokenIndex.get t with
  | some id' => simp
  | none => cases (r.remoteSessions.get t).filter (·.isFresh clk.now) <;> simp

theorem locate_eq_remote_iff {r : SessionRegistry} {clk : Clock} {t : SessionToken}
    {serverId : String} :
    r.locate clk t = .remote serverId ↔ r.tokenIndex.get t = none ∧
      ∃ e, (r.remoteSessions.get t).filter (·.isFresh clk.now) = some e ∧
        e.serverId = serverId := by
  rw [locate_eq]
  cases r.tokenIndex.get t with
  | some id => simp
  | none => cases (r.remoteSessions.get t).filter (·.isFresh clk.now) <;> simp

theorem locate_eq_unknown_iff {r : SessionRegistry} {clk : Clock} {t : SessionToken} :
    r.locate clk t = .unknown ↔ r.tokenIndex.get t = none ∧
      (r.remoteSessions.get t).filter (·.isFresh clk.now) = none := by
  rw [locate_eq]
  cases r.tokenIndex.get t with
  | some id => simp
  | none => cases (r.remoteSessions.get t).filter (·.isFresh clk.now) <;> simp

/-- A registry that finds every live session by its token, after every history that takes vacant
tokens only. -/
theorem resolved_run (localServerId : String) (capacity : ℕ) (store : SessionStore)
    {history : List (Clock × RegistryOp)}
    (hvacant : Along (fun r e => (r.step e.1 e.2).2) (fun r e => r.TakesVacant e.2)
      ((withCluster localServerId capacity).withStore store) history) :
    Resolved (((withCluster localServerId capacity).withStore store).run history) := by
  refine hvacant.invariant (I := Resolved) (fun r e hr hop => resolved_step hr hop) ?_
  exact { consistent_withStore localServerId capacity store with
    resolves := fun h => by simp [withStore, withCluster, new] at h }

/-- **Affinity.**  In every history that creates and restores sessions for vacant tokens only, at a
time that no operation has passed: a token lives here exactly while a session that is not destroyed
holds it, else on the server it was last noted for since its last creation if that note is younger
than the TTL, else nowhere known.  Pruning more or less often gives the same answers. -/
theorem locate_refines (localServerId : String) (capacity : ℕ) (store : SessionStore)
    (history : List (Clock × RegistryOp)) (clk : Clock) (t : SessionToken)
    (hvacant : Along (fun r e => (r.step e.1 e.2).2) (fun r e => r.TakesVacant e.2)
      ((withCluster localServerId capacity).withStore store) history)
    (htime : ∀ e ∈ history, e.1.now ≤ clk.now) :
    let start := (withCluster localServerId capacity).withStore store
    let r := start.run history
    (∀ i, r.locate clk t = .localTo i ↔
      ∃ s, r.sessions.get i = some s ∧ s.token = t ∧ s.state ≠ .destroyed) ∧
    (∀ serverId, r.locate clk t = .remote serverId ↔
      r.Vacant t ∧ ∃ noted, lastNote t history = some ⟨serverId, noted⟩ ∧
        Instant.elapsed noted clk.now < remoteSessionTtl) ∧
    (r.locate clk t = .unknown ↔
      r.Vacant t ∧ ∀ note, lastNote t history = some note →
        remoteSessionTtl ≤ Instant.elapsed note.notedAt clk.now) ∧
    ∀ history' : List (Clock × RegistryOp),
      (history'.filter fun e => !e.2.isPrune) = (history.filter fun e => !e.2.isPrune) →
      (∀ e ∈ history', e.1.now ≤ clk.now) →
      (start.run history').locate clk t = r.locate clk t := by
  intro start r
  have hr : Resolved r := resolved_run localServerId capacity store hvacant
  have hnote : ∀ {history : List (Clock × RegistryOp)}, (∀ e ∈ history, e.1.now ≤ clk.now) →
      ((start.run history).remoteSessions.get t).filter (·.isFresh clk.now) =
        (lastNote t history).filter (·.isFresh clk.now) :=
    filter_remoteSessions_run rfl
  refine ⟨fun i => ?_, fun serverId => ?_, ?_, fun history' hfilter htime' => ?_⟩
  · rw [← hr.tokenIndex_eq_some, locate_eq_localTo_iff]
  · have hfresh : (∃ noted, lastNote t history = some ⟨serverId, noted⟩ ∧
        Instant.elapsed noted clk.now < remoteSessionTtl) ↔
        ∃ e, (lastNote t history).filter (·.isFresh clk.now) = some e ∧ e.serverId = serverId := by
      simp only [Option.filter_eq_some_iff, RemoteEntry.isFresh_eq_true]
      constructor
      · rintro ⟨noted, hlast, hyoung⟩
        exact ⟨⟨serverId, noted⟩, ⟨hlast, hyoung⟩, rfl⟩
      · rintro ⟨e, ⟨hlast, hyoung⟩, rfl⟩
        exact ⟨e.notedAt, hlast, hyoung⟩
    rw [locate_eq_remote_iff, hnote htime, ← hr.tokenIndex_eq_none, hfresh]
  · have hold : (∀ note, lastNote t history = some note →
        remoteSessionTtl ≤ Instant.elapsed note.notedAt clk.now) ↔
        (lastNote t history).filter (·.isFresh clk.now) = none := by
      simp only [Option.filter_eq_none_iff, RemoteEntry.isFresh_eq_true, not_lt]
    rw [locate_eq_unknown_iff, hnote htime, ← hr.tokenIndex_eq_none, hold]
  · refine locate_congr ?_ ?_
    · rw [forgetRemote_run_filter rfl history', hfilter, ← forgetRemote_run_filter rfl history]
    · rw [hnote htime', hnote htime, ← lastNote_filter, hfilter, lastNote_filter]

/-- A token is noted for another server, a session is created for a second one, and the notes are
pruned a second later. -/
def notedOnce : List (Clock × RegistryOp) :=
  [(⟨0, 0⟩, .noteRemoteSession ⟨"t"⟩ "b"), (⟨0, 0⟩, .createSession ⟨"u"⟩),
    (⟨nanosPerSec, 0⟩, .pruneRemoteSessions)]

/-- The first token lives on the other server, with or without the pruning. -/
theorem locate_refines_notedOnce :
    (((withCluster "a" 50).withStore .null).run notedOnce).locate ⟨2 * nanosPerSec, 0⟩ ⟨"t"⟩ =
        .remote "b" ∧
      (((withCluster "a" 50).withStore .null).run (notedOnce.take 2)).locate
        ⟨2 * nanosPerSec, 0⟩ ⟨"t"⟩ = .remote "b" := by
  have hvacant : Along (fun r e => (r.step e.1 e.2).2) (fun r e => r.TakesVacant e.2)
      ((withCluster "a" 50).withStore .null) notedOnce := by
    refine ⟨trivial, fun i s hs => ?_, trivial, trivial⟩
    simp [step, noteRemoteSession, withStore, withCluster, new] at hs
  have hother : ∀ s ∈ (((withCluster "a" 50).withStore .null).run notedOnce).sessions.values,
      s.token ≠ ⟨"t"⟩ := by decide
  obtain ⟨-, hremote, -, hprune⟩ := locate_refines "a" 50 .null notedOnce ⟨2 * nanosPerSec, 0⟩
    ⟨"t"⟩ hvacant (by decide)
  have hb := (hremote "b").mpr
    ⟨fun i s hs _ => hother s (HashMap.mem_values.mpr ⟨i, hs⟩), 0, by decide, by decide⟩
  exact ⟨hb, (hprune (notedOnce.take 2) rfl (by decide)).trans hb⟩

end SessionRegistry

end WayRay
