import WayRay.Session.Finality
import WayRay.Headless.Binding

/-!
# The published cluster state

The loop publishes the resumable tokens and the number of active sessions, for the network thread to
answer peers with.  `Accurate` says that what is published is what the registry holds.

* Clients that come and go leave the publication accurate (`accurate_applyEvent`).
* The restore at start-up does not publish, nor does the cleanup, so that the publication goes stale
  with the first restored row or the first expired session: `published_accurate_iff`.
* The count is published as a `u32`, which loses nothing: one session is active at most
  (`activeCount_le_one`).
-/

namespace WayRay

open SessionRegistry

namespace CalloopData

variable {S : Type} {d d' : CalloopData S} {env : Surroundings}

/-- The network thread tells the peers what the registry holds. -/
structure Accurate (d : CalloopData S) : Prop where
  tokens : ∀ t, t ∈ d.localTokens ↔ t ∈ d.sessionRegistry.resumableTokens
  active : d.activeSessions = d.sessionRegistry.countByState .active

theorem accurate_publishClusterState (d : CalloopData S) : Accurate d.publishClusterState :=
  ⟨fun _ => Iff.rfl, rfl⟩

/-- Only the sessions and the publication matter. -/
theorem Accurate.congr (h : Accurate d)
    (hsessions : d'.sessionRegistry.sessions = d.sessionRegistry.sessions)
    (htokens : d'.localTokens = d.localTokens) (hactive : d'.activeSessions = d.activeSessions) :
    Accurate d' := by
  constructor
  · intro t
    rw [htokens, h.tokens t, resumableTokens, resumableTokens, hsessions]
  · rw [hactive, h.active, countByState, countByState, hsessions]

/-! ### One step -/

/-- A client that is sent elsewhere changes no session, one that is bound has it published. -/
theorem accurate_connectClient (h : Accurate d) (hello : ClientHello) (remoteAddr : String) :
    Accurate (d.connectClient env hello remoteAddr).2 := by
  have hconnects := d.connectClient_connects env hello remoteAddr
  generalize d.connectClient env hello remoteAddr = answer at hconnects ⊢
  obtain ⟨notes, hnotes⟩ := d.findHome_notes env ⟨hello.token.getD env.randomToken⟩
  cases hconnects with
  | home _ _ | shed _ _ _ =>
    rw [hnotes]
    exact h.congr rfl rfl rfl
  | resumed _ _ | created _ _ => exact accurate_publishClusterState _

/-- A cleanup that finds no expired session drops notes only. -/
theorem cleanupTick_of_expiredIds_eq_nil {cleanedAt prunedAt : Clock}
    (hnone : d.sessionRegistry.expiredIds cleanedAt = []) :
    d.cleanupTick cleanedAt prunedAt =
      { d with sessionRegistry := d.sessionRegistry.pruneRemoteSessions prunedAt } := by
  simp only [cleanupTick, cleanupExpired, hnone, List.isEmpty_nil, if_true, List.foldl_nil]

/-- **Step lemma**: every event keeps the publication accurate, if a cleanup finds no expired
session. -/
theorem accurate_applyEvent (desktop : Desktop S) (h : Accurate d) (event : LoopEvent S)
    (hcleanup : ∀ cleanedAt prunedAt, event = .cleanup cleanedAt prunedAt →
      d.sessionRegistry.expiredIds cleanedAt = []) :
    Accurate (applyEvent desktop d event) := by
  cases event with
  | netClosed | turn _ _ => exact h.congr rfl rfl rfl
  | cleanup cleanedAt prunedAt =>
    rw [applyEvent, cleanupTick_of_expiredIds_eq_nil (hcleanup cleanedAt prunedAt rfl)]
    exact h.congr rfl rfl rfl
  | net env event =>
    cases event with
    | input _ => exact h.congr rfl rfl rfl
    | control msg => cases msg <;> exact h.congr rfl rfl rfl
    | clientDisconnected => exact accurate_publishClusterState _
    | clientConnected hello remoteAddr => exact accurate_connectClient h hello remoteAddr

/-- The sessions that a cleanup leaves are those that have not expired. -/
theorem get_cleanupTick_of_resumable {cleanedAt prunedAt : Clock} {i : SessionId} {s : Session}
    (hs : (d.cleanupTick cleanedAt prunedAt).sessionRegistry.sessions.get i = some s)
    (hlive : s.state.resumable = true) :
    d.sessionRegistry.sessions.get i = some s ∧ i ∉ d.sessionRegistry.expiredIds cleanedAt := by
  have hcleaned : (d.sessionRegistry.cleanupExpired cleanedAt).2.sessions.get i = some s := by
    simp only [cleanupTick] at hs
    split_ifs at hs
    · exact hs
    · exact (HashMap.get_retain_eq_some.mp hs).1
  rw [cleanupExpired, sessions_destroyAll] at hcleaned
  split_ifs at hcleaned with hexp
  · -- it would have been destroyed
    obtain ⟨s', -, rfl⟩ := Option.map_eq_some_iff.mp hcleaned
    rw [ended_state] at hlive
    exact absurd hlive (by decide)
  · exact ⟨hcleaned, hexp⟩

/-- A cleanup that finds an expired session leaves its token published. -/
theorem not_accurate_cleanupTick (h : Accurate d) (hserving : Serving d.sessionRegistry)
    {cleanedAt prunedAt : Clock} (hexp : d.sessionRegistry.expiredIds cleanedAt ≠ []) :
    ¬ Accurate (d.cleanupTick cleanedAt prunedAt) := by
  intro hclean
  obtain ⟨i, hi⟩ := List.exists_mem_of_ne_nil _ hexp
  obtain ⟨s, hs, hst, -⟩ := hserving.own_id.mem_expiredIds.mp hi
  have hlive : s.state.resumable = true := by rw [hst]; rfl
  have hpublished : s.token.str ∈ (d.cleanupTick cleanedAt prunedAt).localTokens := by
    have hkept : (d.cleanupTick cleanedAt prunedAt).localTokens = d.localTokens := by
      simp only [cleanupTick]
      split_ifs <;> rfl
    rw [hkept, h.tokens]
    exact mem_resumableTokens.mpr ⟨i, s, hs, hlive, rfl⟩
  obtain ⟨j, s', hs', hlive', htok⟩ := mem_resumableTokens.mp ((hclean.tokens _).mp hpublished)
  obtain ⟨hold, hnot⟩ := get_cleanupTick_of_resumable hs' hlive'
  -- no other live session carries the token
  have hij : j = i := hserving.id_eq hold hs
    (SessionState.ne_destroyed_of_resumable hlive')
    (SessionState.ne_destroyed_of_resumable hlive) (congrArg SessionToken.mk htok)
  exact hnot (hij ▸ hi)

/-! ### Whole runs -/

/-- No cleanup of the run finds an expired session. -/
def NothingExpires (desktop : Desktop S) (d : CalloopData S) (events : List (LoopEvent S)) : Prop :=
  ∀ before cleanedAt prunedAt, before ++ [.cleanup cleanedAt prunedAt] <+: events →
    (runLoop desktop d before).sessionRegistry.expiredIds cleanedAt = []

/-- **Run lemma**: the publication stays accurate throughout a run in which nothing expires. -/
theorem accurate_runLoop (desktop : Desktop S) (h : Accurate d) {events : List (LoopEvent S)}
    (hexp : NothingExpires desktop d events) : Accurate (runLoop desktop d events) := by
  induction events using List.reverseRecOn with
  | nil => exact h
  | append_singleton events event ih =>
    have hbefore : Accurate (runLoop desktop d events) :=
      ih fun before cleanedAt prunedAt hpre =>
        hexp before cleanedAt prunedAt (hpre.trans (List.prefix_append _ _))
    rw [runLoop, List.foldl_append]
    refine accurate_applyEvent desktop hbefore event fun cleanedAt prunedAt heq => ?_
    exact hexp events cleanedAt prunedAt (by rw [heq])

/-- At start-up nothing is published, whatever has been restored. -/
theorem accurate_boot_iff (state : S) (frame : FrameState) (cluster : ClusterConfig)
    (peerRt launcherLinked : Bool) (stateDb : Option SessionTable) (clk : Clock)
    (find : Enumeration (SessionId × SessionRecord)) :
    Accurate (boot state frame cluster peerRt launcherLinked stateDb clk find) ↔
      ∀ db, stateDb = some db → ∀ i, (SessionStore.sqlite (.openFile db)).liveRow i = none := by
  have hempty : ∀ i, (withCluster cluster.localId defaultCapacity).sessions.get i = none :=
    HashMap.get_empty
  constructor
  · rintro h db rfl i
    cases hrow : (SessionStore.sqlite (.openFile db)).liveRow i with
    | none => rfl
    | some row =>
      -- its token can be resumed, and is not published
      have hrestored : (boot state frame cluster peerRt launcherLinked (some db) clk
          find).sessionRegistry.sessions.get i = some (restoredSession clk row) := by
        simp only [boot, sessions_restorePersisted, withStore, hrow, Option.map_some,
          Option.some_or]
      have htoken := (h.tokens row.token).mpr
        (mem_resumableTokens.mpr ⟨i, _, hrestored, rfl, rfl⟩)
      exact absurd htoken (List.not_mem_nil)
  · intro hrows
    have hnone : ∀ i, (boot state frame cluster peerRt launcherLinked stateDb clk
        find).sessionRegistry.sessions.get i = none := by
      intro i
      cases stateDb with
      | none => exact hempty i
      | some db =>
        simp only [boot, sessions_restorePersisted, withStore, hrows db rfl i, Option.map_none,
          Option.none_or]
        exact hempty i
    have hvalues : (boot state frame cluster peerRt launcherLinked stateDb clk
        find).sessionRegistry.sessions.values = [] := by
      refine List.eq_nil_iff_forall_not_mem.mpr fun s hs => ?_
      obtain ⟨i, hi⟩ := HashMap.mem_values.mp hs
      exact absurd (hi.symm.trans (hnone i)) (by simp)
    constructor
    · intro t
      rw [resumableTokens, hvalues]
      exact Iff.rfl
    · rw [countByState, hvalues]
      rfl

/-- **Exactly when what is published is right.**  Every state of a run of the main loop publishes
the resumable tokens and the number of active sessions that the registry holds if and only if no
session was restored at start-up and no cleanup of the run finds an expired session. -/
theorem published_accurate_iff (desktop : Desktop S) (state : S) (frame : FrameState)
    (cluster : ClusterConfig) (peerRt launcherLinked : Bool) (stateDb : Option SessionTable)
    (clk : Clock) (find : Enumeration (SessionId × SessionRecord)) (events : List (LoopEvent S)) :
    let d := boot state frame cluster peerRt launcherLinked stateDb clk find
    (∀ before, before <+: events → Accurate (runLoop desktop d before)) ↔
      (∀ db, stateDb = some db → ∀ i, (SessionStore.sqlite (.openFile db)).liveRow i = none) ∧
      NothingExpires desktop d events := by
  intro d
  have hboot := accurate_boot_iff state frame cluster peerRt launcherLinked stateDb clk find
  constructor
  · intro h
    have hrows := hboot.mp (h [] (List.nil_prefix))
    refine ⟨hrows, fun before cleanedAt prunedAt hpre => ?_⟩
    have hserving : Serving (runLoop desktop d before).sessionRegistry := by
      refine serving_runLoop desktop
        (serving_boot state frame cluster peerRt launcherLinked clk find
          fun db hdb i j p q hp => ?_) before
      exact absurd (hp.symm.trans (hrows db hdb i)) (by simp)
    by_contra hexp
    have hafter := h _ hpre
    rw [runLoop, List.foldl_append] at hafter
    exact not_accurate_cleanupTick (h before ((List.prefix_append _ _).trans hpre)) hserving hexp
      hafter
  · rintro ⟨hrows, hexp⟩ before hpre
    exact accurate_runLoop desktop (hboot.mpr hrows) fun before' cleanedAt prunedAt hbefore =>
      hexp before' cleanedAt prunedAt (hbefore.trans hpre)

section Witness

/-- The row that a client of token `"t"` leaves in the database when it leaves. -/
def leftRow : SessionTable := (∅ : SessionTable).insert ⟨1⟩ (recordOf leftBehind ⟨0, 0⟩)

/-- A day after the client has left, its session is cleaned up. -/
def dayAfter : Clock := ⟨86400 * nanosPerSec, 86400⟩

/-- A restored session is not published, and an expired one still is. -/
theorem published_stale :
    ¬ Accurate (boot () ⟨[], 0, false, 0⟩ ⟨"", "", []⟩ false false (some leftRow) ⟨0, 0⟩ .stored) ∧
    ¬ Accurate (runLoop nullDesktop
      (boot () ⟨[], 0, false, 0⟩ ⟨"", "", []⟩ false false none ⟨0, 0⟩ .stored)
      (cameAndLeft ++ [.cleanup dayAfter dayAfter])) := by
  constructor
  · exact fun h => absurd ((h.tokens "t").mpr (by decide)) (by decide)
  · exact fun h => absurd ((h.tokens "t").mp (by decide)) (by decide)

end Witness

/-! ### The count -/

/-- **One session is active at most**, whenever the network thread speaks the event language. -/
theorem Bound.activeCount_le_one {begun : Bool} (h : Bound begun d) :
    d.sessionRegistry.countByState .active ≤ 1 := by
  refine HashMap.length_filter_values_le_one fun i j s s' hs hs' hst hst' => ?_
  have hi := (h.active_iff i).mp ⟨s, hs, of_decide_eq_true hst⟩
  have hj := (h.active_iff j).mp ⟨s', hs', of_decide_eq_true hst'⟩
  exact Option.some.inj (hi.symm.trans hj)

theorem activeCount_le_one (desktop : Desktop S) (state : S) (frame : FrameState)
    (cluster : ClusterConfig) (peerRt launcherLinked : Bool) (stateDb : Option SessionTable)
    (clk : Clock) (find : Enumeration (SessionId × SessionRecord)) (events : List (LoopEvent S))
    (hword : ∃ word ∈ EventLanguage.eventLanguage,
      events.filterMap LoopEvent.netEvent? <+: word) :
    (runLoop desktop (boot state frame cluster peerRt launcherLinked stateDb clk find)
      events).sessionRegistry.countByState .active ≤ 1 := by
  obtain ⟨begun, h⟩ := bound_runLoop desktop
    (bound_boot state frame cluster peerRt launcherLinked stateDb clk find)
    (EventLanguage.speaks_iff.mpr hword)
  exact h.activeCount_le_one

end CalloopData

end WayRay
