import WayRay.Headless.Lifetimes
import WayRay.Session.Expiry

/-!
# What the launcher is told

The loop tells the session launcher of a session when it creates it, and again when the cleanup has
destroyed it.  `launcher_mirror` says that for each token these events are a session's creation, its
end, the creation of the next session for the token, and so on (`lifecycle`), and that what has been
created and not ended is what a client may resume.

A creation is announced without an id, so the ids are taken from the answers to the clients
(`createdBy`).  `Told` is what holds for one token between two events.  The cleanup destroys one
session of a token at most, since a token has one live session at most.
-/

namespace WayRay

open SessionRegistry

/-- The token that an event is about. -/
def LauncherEvent.token : LauncherEvent → String
  | .sessionCreated token => token
  | .sessionDestroyed token _ => token

/-- The events of a token: those of the sessions that have ended, and the creation of the one that
is live. -/
def lifecycle (token : String) (ended : List SessionId) (live : Option SessionId) :
    List LauncherEvent :=
  ended.flatMap (fun id => [.sessionCreated token, .sessionDestroyed token id.raw]) ++
    live.toList.map fun _ => .sessionCreated token

/-- The events end each session as often as it has ended. -/
theorem count_lifecycle (token : String) (ended : List SessionId) (live : Option SessionId)
    (id : SessionId) :
    (lifecycle token ended live).count (.sessionDestroyed token id.raw) = ended.count id := by
  have hlive : (live.toList.map fun _ => LauncherEvent.sessionCreated token).count
      (.sessionDestroyed token id.raw) = 0 := by
    cases live <;> simp
  rw [lifecycle, List.count_append, hlive, Nat.add_zero]
  induction ended with
  | nil => rfl
  | cons id' ended ih =>
    have hraw : id'.raw = id.raw ↔ id' = id :=
      ⟨fun heq => by cases id'; cases id; exact congrArg SessionId.mk heq, congrArg SessionId.raw⟩
    rw [List.flatMap_cons, List.count_append, ih, List.count_cons, Nat.add_comm]
    simp [List.count_cons, hraw]

namespace SessionRegistry

/-- The session is one that a client may resume with the token. -/
def Carries (r : SessionRegistry) (id : SessionId) (token : String) : Prop :=
  ∃ s, r.Live id s ∧ s.token.str = token

/-- What holds of a token between two events: `created` are the ids of the sessions created for it
so far, `ended` those of them that have ended. -/
structure Told (token : String) (created : List SessionId) (r : SessionRegistry)
    (log : List LauncherEvent) (ended : List SessionId) (live : Option SessionId) : Prop where
  created_eq : created = ended ++ live.toList
  log_eq : log.filter (fun event => event.token = token) = lifecycle token ended live
  live_iff : ∀ id, live = some id ↔ r.Carries id token

variable {r r' : SessionRegistry} {token : String} {created ended : List SessionId}
  {log : List LauncherEvent} {live : Option SessionId}

/-- Only the tokens of the live sessions matter. -/
theorem Told.congr (h : Told token created r log ended live)
    (hsame : ∀ id, r'.Carries id token ↔ r.Carries id token) :
    Told token created r' log ended live :=
  { h with live_iff := fun id => (h.live_iff id).trans (hsame id).symm }

/-! ### A session is created -/

/-- The tokens of the live sessions once a session is created. -/
theorem carries_created (h : Indexed r) (createdAt activatedAt : Clock) (newToken : SessionToken)
    (id : SessionId) (token : String) :
    ((r.createSession createdAt newToken).2.activate activatedAt ⟨r.nextId⟩).2.Carries id token ↔
      r.Carries id token ∨ id = ⟨r.nextId⟩ ∧ token = newToken.str := by
  have hsessions := sessions_activate_createSession (r := r) createdAt activatedAt newToken id
  constructor
  · rintro ⟨s, ⟨hs, hlive⟩, htoken⟩
    rw [hsessions] at hs
    split_ifs at hs with hid
    · right
      rw [← htoken, ← Option.some.inj hs]
      exact ⟨hid, rfl⟩
    · exact Or.inl ⟨s, ⟨hs, hlive⟩, htoken⟩
  · rintro (⟨s, ⟨hs, hlive⟩, htoken⟩ | ⟨rfl, rfl⟩)
    · have hid : id ≠ ⟨r.nextId⟩ := by
        rintro rfl
        exact absurd (h.below hs) (lt_irrefl _)
      exact ⟨s, ⟨hsessions.trans ((if_neg hid).trans hs), hlive⟩, htoken⟩
    · exact ⟨_, ⟨hsessions.trans (if_pos rfl), rfl⟩, rfl⟩

/-- For another token nothing happens. -/
theorem Told.created_other (h : Told token created r log ended live) (hr : Indexed r)
    (createdAt activatedAt : Clock) {newToken : SessionToken} (hne : token ≠ newToken.str) :
    Told token created
      ((r.createSession createdAt newToken).2.activate activatedAt ⟨r.nextId⟩).2
      (log ++ [.sessionCreated newToken.str]) ended live where
  created_eq := h.created_eq
  log_eq := by
    have hother : ¬ (LauncherEvent.sessionCreated newToken.str).token = token := fun heq =>
      hne heq.symm
    rw [List.filter_append, h.log_eq, List.filter_singleton]
    simp [hother]
  live_iff id := by
    rw [h.live_iff, carries_created hr, or_iff_left fun hid => hne hid.2]

/-- For a vacant token the new session is the live one. -/
theorem Told.created_same (h : Told token created r log ended live) (hr : Indexed r)
    (createdAt activatedAt : Clock) (hvacant : ∀ id, ¬ r.Carries id token) :
    Told token (created ++ [⟨r.nextId⟩])
      ((r.createSession createdAt ⟨token⟩).2.activate activatedAt ⟨r.nextId⟩).2
      (log ++ [.sessionCreated token]) ended (some ⟨r.nextId⟩) := by
  have hnone : live = none := by
    cases hlive : live with
    | none => rfl
    | some id => exact absurd ((h.live_iff id).mp hlive) (hvacant id)
  subst hnone
  refine ⟨?_, ?_, fun id => ?_⟩
  · rw [h.created_eq, Option.toList_none, List.append_nil, Option.toList_some]
  · rw [List.filter_append, h.log_eq]
    simp [lifecycle, LauncherEvent.token]
  · rw [carries_created hr, Option.some.injEq, eq_comm, or_iff_right (hvacant id)]
    exact ⟨fun hid => ⟨hid, rfl⟩, And.left⟩

/-! ### Sessions expire -/

/-- Of different elements, the one asked for is found once at most. -/
theorem filterMap_eq_of_nodup {α β : Type} [DecidableEq α] {l : List α} (hl : l.Nodup)
    (wanted : Option α) (f : α → β) :
    (l.filterMap fun a => if wanted = some a then some (f a) else none) =
      ((wanted.filter (· ∈ l)).toList.map f) := by
  induction l with
  | nil => cases wanted <;> rfl
  | cons a l ih =>
    rw [List.nodup_cons] at hl
    rw [List.filterMap_cons, ih hl.2]
    cases wanted with
    | none => rfl
    | some b =>
      by_cases hab : b = a
      · subst hab
        simp [Option.filter, hl.1]
      · simp [Option.filter, hab]

/-- Of the destroyed sessions that are announced, one at most had the token. -/
theorem filter_destroyedEvents (hr : OwnIds r) (clk : Clock)
    (hlive : ∀ id, live = some id ↔ r.Carries id token) :
    (CalloopData.destroyedEvents (r.cleanupExpired clk).2 (r.expiredIds clk)).filter
        (fun event => event.token = token) =
      (live.filter (· ∈ r.expiredIds clk)).toList.map fun id =>
        .sessionDestroyed token id.raw := by
  rw [CalloopData.destroyedEvents, List.filter_filterMap,
    ← filterMap_eq_of_nodup hr.nodup_expiredIds]
  refine List.filterMap_congr fun id hid => ?_
  obtain ⟨s, hs, hst, -⟩ := hr.mem_expiredIds.mp hid
  have hresumable : s.state.resumable = true := by rw [hst]; rfl
  have hget : (r.cleanupExpired clk).2.get id = some (s.moved clk.now .destroyed) := by
    refine (sessions_destroyAll _ _).trans ?_
    rw [if_pos hid, hs, Option.map_some, ended,
      if_neg (SessionState.ne_destroyed_of_resumable hresumable)]
  rw [hget, Option.map_some, Option.filter_some, Session.moved_token]
  by_cases htoken : s.token.str = token
  · rw [if_pos ((hlive id).mpr ⟨s, ⟨hs, hresumable⟩, htoken⟩)]
    simp [LauncherEvent.token, htoken]
  · have hother : live ≠ some id := by
      intro heq
      obtain ⟨s', ⟨hs', -⟩, htoken'⟩ := (hlive id).mp heq
      obtain rfl := Option.some.inj (hs.symm.trans hs')
      exact htoken htoken'
    rw [if_neg hother]
    simp [LauncherEvent.token, htoken]

end SessionRegistry

namespace CalloopData

variable {S : Type} {d d' : CalloopData S} {env : Surroundings} {now : Instant}

/-! ### One event -/

theorem Evolves.carries_iff (h : Evolves now none [] d d') (id : SessionId) (token : String) :
    d'.sessionRegistry.Carries id token ↔ d.sessionRegistry.Carries id token := by
  constructor
  · rintro ⟨s', hs', rfl⟩
    rcases h.back hs' with ⟨s, hs, hcontinues⟩ | hnew
    · exact ⟨s, hs, by rw [hcontinues.token]⟩
    · exact absurd hnew (by simp)
  · rintro ⟨s, hs, rfl⟩
    obtain ⟨s', hs', hcontinues⟩ := h.forth hs List.not_mem_nil
    exact ⟨s', hs', by rw [hcontinues.token]⟩

/-- A cleanup takes the sessions that have expired, and no others. -/
theorem carries_cleanupTick (d : CalloopData S) (cleanedAt prunedAt : Clock) (id : SessionId)
    (token : String) :
    (d.cleanupTick cleanedAt prunedAt).sessionRegistry.Carries id token ↔
      d.sessionRegistry.Carries id token ∧ id ∉ d.sessionRegistry.expiredIds cleanedAt := by
  constructor
  · rintro ⟨s, ⟨hs, hlive⟩, htoken⟩
    obtain ⟨hs, hid⟩ := get_cleanupTick_of_resumable hs hlive
    exact ⟨⟨s, ⟨hs, hlive⟩, htoken⟩, hid⟩
  · rintro ⟨⟨s, hs, rfl⟩, hid⟩
    obtain ⟨s', hs', hcontinues⟩ := (evolves_cleanupTick d cleanedAt prunedAt).forth hs hid
    exact ⟨s', hs', by rw [hcontinues.token]⟩

theorem launcher_cleanupTick (d : CalloopData S) (cleanedAt prunedAt : Clock) :
    (d.cleanupTick cleanedAt prunedAt).launcher =
      d.launcher.map (· ++ destroyedEvents (d.sessionRegistry.cleanupExpired cleanedAt).2
        (d.sessionRegistry.expiredIds cleanedAt)) := by
  by_cases hnone : d.sessionRegistry.expiredIds cleanedAt = []
  · rw [cleanupTick_of_expiredIds_eq_nil hnone, hnone]
    simp [destroyedEvents]
  · have hsome : (d.sessionRegistry.cleanupExpired cleanedAt).1.isEmpty = false :=
      List.isEmpty_eq_false_iff.mpr hnone
    simp only [cleanupTick, hsome, Bool.false_eq_true, if_false]
    rfl

/-- The session that an event creates, with its token: that of a client that is bound without having
resumed one. -/
def createdBy (desktop : Desktop S) (d : CalloopData S) : LoopEvent S → Option (String × SessionId)
  | .net env event =>
    match (drainEvent desktop d env event).1 with
    | some (.bind ⟨id, false, token⟩) => some (token, ⟨id⟩)
    | _ => none
  | _ => none

/-- The sessions that a run creates, with their tokens. -/
def creations (desktop : Desktop S) : CalloopData S → List (LoopEvent S) →
    List (String × SessionId)
  | _, [] => []
  | d, event :: events =>
    (createdBy desktop d event).toList ++ creations desktop (applyEvent desktop d event) events

/-- The ids of the sessions created for a token. -/
def createdFor (token : String) (created : List (String × SessionId)) : List SessionId :=
  (created.filter fun entry => entry.1 = token).map Prod.snd

/-- What holds between two events of the loop, `created` being the sessions created so far. -/
structure Mirrors (created : List (String × SessionId)) (d : CalloopData S) : Prop where
  serving : Serving d.sessionRegistry
  below : ∀ entry ∈ created, entry.2.raw < d.sessionRegistry.nextId
  nodup : (created.map Prod.snd).Nodup
  told : ∃ log, d.launcher = some log ∧ ∀ token, ∃ ended live,
    Told token (createdFor token created) d.sessionRegistry log ended live

variable {created : List (String × SessionId)}

/-- Ids are never given back. -/
theorem nextId_le_applyEvent (desktop : Desktop S) (d : CalloopData S) (event : LoopEvent S) :
    d.sessionRegistry.nextId ≤ (applyEvent desktop d event).sessionRegistry.nextId := by
  refine registry_invariant (P := fun r => d.sessionRegistry.nextId ≤ r.nextId) ?_ desktop le_rfl
    event
  intro clk r r' hle hm
  cases hm with
  | create _ => exact Nat.le_succ_of_le hle
  | advance _ _ _ | destroy _ _ | update _ _ | remote _ | purge | flush _ => exact hle
  | restore _ _ _ | drop _ _ _ => exact le_max_of_le_left hle

/-- An event that creates no session, and of which the launcher is not told. -/
theorem Mirrors.evolves (h : Mirrors created d) (hserving : Serving d'.sessionRegistry)
    (hnext : d.sessionRegistry.nextId ≤ d'.sessionRegistry.nextId)
    (hlauncher : d'.launcher = d.launcher) (hevolves : Evolves now none [] d d') :
    Mirrors created d' := by
  obtain ⟨log, hlog, htold⟩ := h.told
  refine ⟨hserving, fun entry hentry => (h.below entry hentry).trans_le hnext, h.nodup, log,
    hlauncher.trans hlog, fun token => ?_⟩
  obtain ⟨ended, live, htoken⟩ := htold token
  exact ⟨ended, live, htoken.congr fun id => hevolves.carries_iff id token⟩

/-- A client gets a new session. -/
theorem Mirrors.startSession (h : Mirrors created d) {token : SessionToken} {remoteAddr : String}
    (hserving : Serving ((d.startSession env token).2.bindClient ⟨d.sessionRegistry.nextId⟩ false
      token remoteAddr).2.sessionRegistry)
    (hres : d.sessionRegistry.isResumable token = none) :
    Mirrors (created ++ [(token.str, ⟨d.sessionRegistry.nextId⟩)])
      ((d.startSession env token).2.bindClient ⟨d.sessionRegistry.nextId⟩ false token
        remoteAddr).2 := by
  obtain ⟨log, hlog, htold⟩ := h.told
  have hindexed : Indexed d.sessionRegistry := h.serving.toIndexed
  have hnext : ((d.startSession env token).2.bindClient ⟨d.sessionRegistry.nextId⟩ false token
      remoteAddr).2.sessionRegistry.nextId = d.sessionRegistry.nextId + 1 :=
    nextId_transition _ _ _ _
  have hvacant : ∀ id, ¬ d.sessionRegistry.Carries id token.str := by
    rintro id ⟨s, ⟨hs, hlive⟩, htoken⟩
    exact h.serving.vacant hres hs (SessionState.ne_destroyed_of_resumable hlive)
      (congrArg SessionToken.mk htoken)
  refine ⟨hserving, fun entry hentry => ?_, ?_, log ++ [.sessionCreated token.str], ?_,
    fun token' => ?_⟩
  · rw [hnext]
    rcases List.mem_append.mp hentry with hentry | hentry
    · exact Nat.lt_succ_of_lt (h.below entry hentry)
    · rw [List.mem_singleton.mp hentry]
      exact Nat.lt_succ_self _
  · rw [List.map_append, List.nodup_append]
    refine ⟨h.nodup, List.nodup_singleton _, fun id hid id' hid' heq => ?_⟩
    obtain ⟨entry, hentry, rfl⟩ := List.mem_map.mp hid
    have hbelow := h.below entry hentry
    rw [heq, List.mem_singleton.mp hid'] at hbelow
    exact absurd hbelow (lt_irrefl _)
  · change d.launcher.map (· ++ [LauncherEvent.sessionCreated token.str]) = _
    rw [hlog, Option.map_some]
  · obtain ⟨ended, live, htoken⟩ := htold token'
    by_cases hsame : token' = token.str
    · subst hsame
      have hcreated : createdFor token.str (created ++ [(token.str, ⟨d.sessionRegistry.nextId⟩)]) =
          createdFor token.str created ++ [⟨d.sessionRegistry.nextId⟩] := by
        simp [createdFor, List.filter_append]
      rw [hcreated]
      exact ⟨ended, _, htoken.created_same hindexed env.createdAt env.activatedAt hvacant⟩
    · have hcreated : createdFor token' (created ++ [(token.str, ⟨d.sessionRegistry.nextId⟩)]) =
          createdFor token' created := by
        have hother : ¬ token.str = token' := fun heq => hsame heq.symm
        simp [createdFor, List.filter_append, hother]
      rw [hcreated]
      exact ⟨ended, live, htoken.created_other hindexed env.createdAt env.activatedAt hsame⟩

/-- Sessions expire, and the launcher is told before they are purged. -/
theorem Mirrors.cleanupTick (h : Mirrors created d) (cleanedAt prunedAt : Clock)
    (hnext : d.sessionRegistry.nextId ≤ (d.cleanupTick cleanedAt prunedAt).sessionRegistry.nextId) :
    Mirrors created (d.cleanupTick cleanedAt prunedAt) := by
  obtain ⟨log, hlog, htold⟩ := h.told
  refine ⟨serving_cleanupTick h.serving cleanedAt prunedAt,
    fun entry hentry => (h.below entry hentry).trans_le hnext, h.nodup, _,
    (launcher_cleanupTick d cleanedAt prunedAt).trans (congrArg _ hlog), fun token => ?_⟩
  obtain ⟨ended, live, htoken⟩ := htold token
  have hevents := filter_destroyedEvents h.serving.own_id cleanedAt htoken.live_iff
  have hcarries := carries_cleanupTick d cleanedAt prunedAt
  by_cases hexpired : ∃ id ∈ d.sessionRegistry.expiredIds cleanedAt, live = some id
  · obtain ⟨id, hid, rfl⟩ := hexpired
    refine ⟨ended ++ [id], none, ?_, ?_, fun id' => ?_⟩
    · rw [htoken.created_eq, Option.toList_some, Option.toList_none, List.append_nil]
    · rw [List.filter_append, htoken.log_eq, hevents, Option.filter_some,
        if_pos (by simpa using hid)]
      simp [lifecycle]
    · rw [hcarries, ← htoken.live_iff]
      refine iff_of_false (Option.some_ne_none id').symm ?_
      rintro ⟨heq, hid'⟩
      exact hid' (Option.some.inj heq ▸ hid)
  · have hnone : live.filter (· ∈ d.sessionRegistry.expiredIds cleanedAt) = none := by
      refine Option.filter_eq_none_iff.mpr fun id hlive hid => hexpired ⟨id, ?_, hlive⟩
      simpa using hid
    refine ⟨ended, live, htoken.created_eq, ?_, fun id => ?_⟩
    · rw [List.filter_append, htoken.log_eq, hevents, hnone]
      simp
    · rw [hcarries, ← htoken.live_iff]
      exact ⟨fun hlive => ⟨hlive, fun hid => hexpired ⟨id, hid, hlive⟩⟩, And.left⟩

/-- **Step lemma**: every event keeps the launcher's view. -/
theorem mirrors_applyEvent (desktop : Desktop S) (h : Mirrors created d) (event : LoopEvent S) :
    Mirrors (created ++ (createdBy desktop d event).toList) (applyEvent desktop d event) := by
  have hserving := serving_applyEvent desktop h.serving event
  have hnext := nextId_le_applyEvent desktop d event
  have hquiet : ∀ {now}, createdBy desktop d event = none →
      (applyEvent desktop d event).launcher = d.launcher →
      Evolves now none [] d (applyEvent desktop d event) →
      Mirrors (created ++ (createdBy desktop d event).toList) (applyEvent desktop d event) := by
    intro now hnone hlauncher hevolves
    rw [hnone, Option.toList_none, List.append_nil]
    exact h.evolves hserving hnext hlauncher hevolves
  cases event with
  | netClosed | turn _ _ => exact hquiet rfl rfl (evolves_of_eq 0 rfl rfl rfl rfl rfl)
  | cleanup cleanedAt prunedAt =>
    rw [show createdBy desktop d (.cleanup cleanedAt prunedAt) = none from rfl,
      Option.toList_none, List.append_nil]
    exact h.cleanupTick cleanedAt prunedAt hnext
  | net env event =>
    cases event with
    | input _ => exact hquiet rfl rfl (evolves_of_eq 0 rfl rfl rfl rfl rfl)
    | control msg =>
      cases msg <;> exact hquiet rfl rfl (evolves_of_eq 0 rfl rfl rfl rfl rfl)
    | clientDisconnected =>
      refine hquiet rfl ?_ (evolves_disconnectClient desktop d env)
      simp only [applyEvent, drainEvent, disconnectClient, publishClusterState]
      cases d.activeSession <;> rfl
    | clientConnected hello remoteAddr =>
      have hconnects := d.connectClient_connects env hello remoteAddr
      obtain ⟨notes, hnotes⟩ := d.findHome_notes env ⟨hello.token.getD env.randomToken⟩
      have hnoted : Mirrors created (d.withNotes notes) :=
        h.evolves (hnotes ▸ serving_findHome h.serving env _) le_rfl rfl (evolves_redirect 0 notes)
      simp only [createdBy, applyEvent, drainEvent, Prod.map_fst, Prod.map_snd, id] at *
      generalize d.connectClient env hello remoteAddr = answer at *
      cases hconnects with
      | home _ _ | shed _ _ _ =>
        rw [hnotes]
        simpa using hnoted
      | @resumed i _ hres =>
        rw [hnotes] at *
        obtain ⟨s, hs, hlive⟩ := h.serving.own_id.of_isResumable hres
        have hresumed : (d.withNotes notes).sessionRegistry.Live i s := ⟨hs, hlive⟩
        have hevolves : Evolves env.activatedAt.now none [] (d.withNotes notes)
            (((d.withNotes notes).resumeSession env i).bindClient i true
              ⟨hello.token.getD env.randomToken⟩ remoteAddr).2 :=
          evolves_resumed hresumed _ _
        have hlauncher : ((d.withNotes notes).resumeSession env i).launcher = d.launcher := by
          unfold resumeSession
          split <;> rfl
        have hbound := hnoted.evolves hserving hnext hlauncher hevolves
        rw [← List.append_nil created] at hbound
        exact hbound
      | created _ hres =>
        rw [hnotes] at *
        exact hnoted.startSession hserving hres

/-- **Run lemma.** -/
theorem mirrors_runLoop (desktop : Desktop S) (h : Mirrors created d)
    (events : List (LoopEvent S)) :
    Mirrors (created ++ creations desktop d events) (runLoop desktop d events) := by
  induction events generalizing created d with
  | nil =>
    rw [creations, List.append_nil]
    exact h
  | cons event events ih =>
    rw [creations, ← List.append_assoc]
    exact ih (mirrors_applyEvent desktop h event)

/-! ### Whole runs -/

/-- A registry without live rows to restore starts empty. -/
theorem mirrors_boot (state : S) (frame : FrameState) (cluster : ClusterConfig) (peerRt : Bool)
    {stateDb : Option SessionTable} (clk : Clock) (find : Enumeration (SessionId × SessionRecord))
    (hempty : ∀ db, stateDb = some db →
      ∀ i, (SessionStore.sqlite (.openFile db)).liveRow i = none) :
    Mirrors [] (boot state frame cluster peerRt true stateDb clk find) where
  serving := serving_boot state frame cluster peerRt true clk find fun db hdb i j p q hp =>
    absurd (hp.symm.trans (hempty db hdb i)) (Option.some_ne_none p)
  below _ h := absurd h List.not_mem_nil
  nodup := List.nodup_nil
  told := by
    refine ⟨[], rfl, fun token => ⟨[], none, rfl, rfl, fun id => ?_⟩⟩
    refine iff_of_false (Option.some_ne_none id).symm ?_
    rintro ⟨s, ⟨hs, hlive⟩, -⟩
    cases stateDb with
    | none => exact absurd hs (by simp [boot, withCluster, new])
    | some db =>
      simp only [boot, sessions_restorePersisted, withStore, hempty db rfl id, Option.map_none,
        Option.none_or] at hs
      exact absurd hs (by simp [withCluster, new])

/-- **The launcher mirrors the sessions.**  In every run of the loop with a linked launcher, from a
registry without sessions, the events of a token are those of the sessions created for it, one after
the other: its creation and, with its id, its end.  A session is not ended exactly if it is `Active`
or `Suspended`, and it is ended once. -/
theorem launcher_mirror (desktop : Desktop S) (state : S) (frame : FrameState)
    (cluster : ClusterConfig) (peerRt : Bool) (stateDb : Option SessionTable) (clk : Clock)
    (find : Enumeration (SessionId × SessionRecord))
    (hempty : ∀ db, stateDb = some db → ∀ i, (SessionStore.sqlite (.openFile db)).liveRow i = none)
    (events : List (LoopEvent S)) :
    let start := boot state frame cluster peerRt true stateDb clk find
    let d := runLoop desktop start events
    ∃ log, d.launcher = some log ∧ ∀ token, ∃ ended live,
      createdFor token (creations desktop start events) = ended ++ live.toList ∧
        log.filter (fun event => event.token = token) = lifecycle token ended live ∧
        (∀ id, live = some id ↔ ∃ s, d.sessionRegistry.sessions.get id = some s ∧
          s.token.str = token ∧ (s.state = .active ∨ s.state = .suspended)) ∧
        ∀ id ∈ ended, log.count (.sessionDestroyed token id.raw) = 1 := by
  intro start d
  have h := mirrors_runLoop desktop (mirrors_boot state frame cluster peerRt clk find hempty) events
  rw [List.nil_append] at h
  obtain ⟨log, hlog, htold⟩ := h.told
  refine ⟨log, hlog, fun token => ?_⟩
  obtain ⟨ended, live, htoken⟩ := htold token
  refine ⟨ended, live, htoken.created_eq, htoken.log_eq, fun id => ?_, fun id hid => ?_⟩
  · rw [htoken.live_iff]
    constructor
    · rintro ⟨s, ⟨hs, hlive⟩, htok⟩
      exact ⟨s, hs, htok, SessionState.resumable_iff.mp hlive⟩
    · rintro ⟨s, hs, htok, hlive⟩
      exact ⟨s, ⟨hs, SessionState.resumable_iff.mpr hlive⟩, htok⟩
  · -- ids are created once, so that one of the events of the token ends it
    have hnodup : (createdFor token (creations desktop start events)).Nodup :=
      h.nodup.sublist (List.filter_sublist.map _)
    have hended : ended.Nodup := by
      rw [htoken.created_eq] at hnodup
      exact (List.nodup_append.mp hnodup).1
    rw [← List.count_filter (p := fun event => event.token = token) (by simp [LauncherEvent.token]),
      htoken.log_eq, count_lifecycle, List.count_eq_one_of_mem hended hid]

/-- A session is announced, and its end a day after its client has left. -/
theorem launcher_mirror_day_after :
    let d := runLoop nullDesktop
      (boot () ⟨[], 0, false, 0⟩ ⟨"", "", []⟩ false true none ⟨0, 0⟩ .stored)
      (cameAndLeft ++ [.cleanup dayAfter dayAfter])
    d.launcher = some [.sessionCreated "t", .sessionDestroyed "t" 1] ∧
      ∃ log ended live, d.launcher = some log ∧
        log.filter (fun event => event.token = "t") = lifecycle "t" ended live := by
  refine ⟨by decide, ?_⟩
  obtain ⟨log, hlog, htokens⟩ := launcher_mirror nullDesktop () ⟨[], 0, false, 0⟩ ⟨"", "", []⟩ false
    none ⟨0, 0⟩ .stored (fun db hdb => absurd hdb.symm (Option.some_ne_none db))
    (cameAndLeft ++ [.cleanup dayAfter dayAfter])
  obtain ⟨ended, live, -, hlifecycle, -⟩ := htokens "t"
  exact ⟨log, ended, live, hlog, hlifecycle⟩

end CalloopData

end WayRay
