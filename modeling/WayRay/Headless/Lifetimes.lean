import WayRay.Headless.Published

/-!
# What becomes of the live sessions

`Evolves now new lost d d'` says what one event of the main loop does to the sessions that a client
may resume, and to what is published of them: each goes on under its id, at most suspended or
resumed, unless it is among `lost`; no other appears but `new`.  There is one lemma for each event
that announces no client (`evolves_disconnectClient`, `evolves_cleanupTick`; `evolves_of_eq` for one
that touches no session) and one for each way a client is answered (`evolves_redirect`,
`evolves_resumed`, `evolves_created`).
-/

namespace WayRay

open SessionRegistry

/-- The session goes on, perhaps suspended or resumed at `now`. -/
structure Session.Continues (now : Instant) (s s' : Session) : Prop where
  token : s'.token = s.token
  createdAt : s'.createdAt = s.createdAt
  suspendTimeout : s'.suspendTimeout = s.suspendTimeout
  suspendedAt : ∀ u, s'.suspendedAt = some u → s.suspendedAt = some u ∨ u = now

theorem Session.Continues.refl (now : Instant) (s : Session) : s.Continues now s :=
  ⟨rfl, rfl, rfl, fun _ hu => .inl hu⟩

theorem Session.continues_moved (now : Instant) (s : Session) (next : SessionState) :
    s.Continues now (s.moved now next) := by
  refine ⟨rfl, rfl, rfl, fun u hu => .inr ?_⟩
  rw [moved] at hu
  split_ifs at hu
  exact (Option.some.inj hu).symm

namespace SessionRegistry

/-- A session that a client may resume. -/
structure Live (r : SessionRegistry) (i : SessionId) (s : Session) : Prop where
  get : r.sessions.get i = some s
  resumable : s.state.resumable = true

variable {r : SessionRegistry} {clk : Clock} {i : SessionId}

theorem mem_resumableTokens_iff_live {t : String} :
    t ∈ r.resumableTokens ↔ ∃ i s, r.Live i s ∧ s.token.str = t := by
  rw [mem_resumableTokens]
  constructor
  · rintro ⟨i, s, hs, hlive, htok⟩
    exact ⟨i, s, ⟨hs, hlive⟩, htok⟩
  · rintro ⟨i, s, ⟨hs, hlive⟩, htok⟩
    exact ⟨i, s, hs, hlive, htok⟩

/-- One session at most is suspended, which was active. -/
theorem sessions_suspend (j : SessionId) :
    (r.suspend clk i).2.sessions.get j = r.sessions.get j ∨
      j = i ∧ ∃ s, r.sessions.get i = some s ∧ s.state = .active ∧
        (r.suspend clk i).2.sessions.get i = some (s.moved clk.now .suspended) := by
  rcases suspend_cases r clk i with ⟨s, hs, hst, hsessions⟩ | ⟨-, hsame⟩
  · rw [hsessions]
    by_cases hj : j = i
    · exact .inr ⟨hj, s, hs, hst, HashMap.get_insert_self _ _ _⟩
    · exact .inl (HashMap.get_insert_of_ne _ _ hj)
  · exact .inl (by rw [hsame])

end SessionRegistry

namespace CalloopData

variable {S : Type} {d d' : CalloopData S} {env : Surroundings} {now : Instant}

/-- What an event does to the live sessions and to what is published of them. -/
structure Evolves (now : Instant) (new : Option Session) (lost : List SessionId)
    (d d' : CalloopData S) : Prop where
  cluster : d'.cluster = d.cluster
  peerRt : d'.peerRt = d.peerRt
  capacity : d'.sessionRegistry.capacity = d.sessionRegistry.capacity
  back : ∀ {i s'}, d'.sessionRegistry.Live i s' →
    (∃ s, d.sessionRegistry.Live i s ∧ s.Continues now s') ∨ new = some s'
  forth : ∀ {i s}, d.sessionRegistry.Live i s → i ∉ lost →
    ∃ s', d'.sessionRegistry.Live i s' ∧ s.Continues now s'
  created : ∀ s', new = some s' → ∃ i, d'.sessionRegistry.Live i s'
  published : (new = none ∧ d'.localTokens = d.localTokens) ∨
    d'.localTokens = d'.sessionRegistry.resumableTokens

/-- An event that touches no session and publishes nothing. -/
theorem evolves_of_eq (now : Instant) (hcluster : d'.cluster = d.cluster)
    (hpeerRt : d'.peerRt = d.peerRt)
    (hcapacity : d'.sessionRegistry.capacity = d.sessionRegistry.capacity)
    (hsessions : d'.sessionRegistry.sessions = d.sessionRegistry.sessions)
    (htokens : d'.localTokens = d.localTokens) : Evolves now none [] d d' where
  cluster := hcluster
  peerRt := hpeerRt
  capacity := hcapacity
  back h := .inl ⟨_, ⟨hsessions ▸ h.get, h.resumable⟩, .refl now _⟩
  forth h _ := ⟨_, ⟨hsessions ▸ h.get, h.resumable⟩, .refl now _⟩
  created _ h := absurd h (by simp)
  published := .inl ⟨rfl, htokens⟩

/-! ### No client is announced -/

theorem evolves_disconnectClient (desktop : Desktop S) (d : CalloopData S) (env : Surroundings) :
    Evolves env.suspendedAt.now none [] d (disconnectClient desktop d env) := by
  cases hact : d.activeSession with
  | none =>
    simp only [disconnectClient, hact]
    exact ⟨rfl, rfl, rfl, fun h => .inl ⟨_, h, .refl _ _⟩, fun h _ => ⟨_, h, .refl _ _⟩,
      fun _ h => absurd h (by simp), .inr rfl⟩
  | some i =>
    simp only [disconnectClient, hact]
    have hsuspend := @sessions_suspend d.sessionRegistry env.suspendedAt i
    refine
      ⟨rfl, rfl, (transition_frame _ _ _ _).2.1, ?_, ?_, fun _ h => absurd h (by simp), .inr rfl⟩
    · rintro j s' ⟨hs', hlive⟩
      left
      rcases hsuspend j with hsame | ⟨rfl, s, hs, hst, hmoved⟩
      · exact ⟨s', ⟨hsame.symm.trans hs', hlive⟩, .refl _ _⟩
      · obtain rfl := Option.some.inj (hmoved.symm.trans hs')
        exact ⟨s, ⟨hs, by rw [hst]; rfl⟩, s.continues_moved _ _⟩
    · rintro j s ⟨hs, hlive⟩ -
      rcases hsuspend j with hsame | ⟨rfl, s₁, hs₁, -, hmoved⟩
      · exact ⟨s, ⟨hsame.trans hs, hlive⟩, .refl _ _⟩
      · obtain rfl := Option.some.inj (hs₁.symm.trans hs)
        exact ⟨_, ⟨hmoved, rfl⟩, s₁.continues_moved _ _⟩

theorem evolves_cleanupTick (d : CalloopData S) (cleanedAt prunedAt : Clock) :
    Evolves cleanedAt.now none (d.sessionRegistry.expiredIds cleanedAt) d
      (d.cleanupTick cleanedAt prunedAt) where
  cluster := by
    simp only [cleanupTick]
    split_ifs <;> rfl
  peerRt := by
    simp only [cleanupTick]
    split_ifs <;> rfl
  capacity := by
    have hcleaned : (d.sessionRegistry.cleanupExpired cleanedAt).2.capacity =
        d.sessionRegistry.capacity := by
      rw [cleanupExpired]
      exact List.foldlRecOn (motive := fun r : SessionRegistry =>
        r.capacity = d.sessionRegistry.capacity) _ _ rfl
        fun r hr id _ => (transition_frame r cleanedAt id .destroyed).2.1.trans hr
    simp only [cleanupTick]
    split_ifs <;> exact hcleaned
  back h := by
    obtain ⟨hs, -⟩ := get_cleanupTick_of_resumable h.get h.resumable
    exact .inl ⟨_, ⟨hs, h.resumable⟩, .refl _ _⟩
  forth {i s} h hlost := by
    have hcleaned : (d.sessionRegistry.cleanupExpired cleanedAt).2.sessions.get i = some s := by
      rw [cleanupExpired, sessions_destroyAll, if_neg hlost]
      exact h.get
    refine ⟨s, ⟨?_, h.resumable⟩, .refl _ _⟩
    simp only [cleanupTick]
    split_ifs
    · exact hcleaned
    · refine HashMap.get_retain_eq_some.mpr ⟨hcleaned, ?_⟩
      simpa using SessionState.ne_destroyed_of_resumable h.resumable
  created _ h := absurd h (by simp)
  published := by
    refine .inl ⟨rfl, ?_⟩
    simp only [cleanupTick]
    split_ifs <;> rfl

/-! ### A client is announced -/

/-- A client that is sent elsewhere changes no session. -/
theorem evolves_redirect (now : Instant) (notes : HashMap SessionToken RemoteEntry) :
    Evolves now none [] d (d.withNotes notes) :=
  evolves_of_eq now rfl rfl rfl rfl rfl

/-- A client is bound to a live session. -/
theorem evolves_resumed {i : SessionId} {s : Session} (h : d.sessionRegistry.Live i s)
    (token : SessionToken) (remoteAddr : String) :
    Evolves env.activatedAt.now none [] d
      ((d.resumeSession env i).bindClient i true token remoteAddr).2 := by
  have hsessions := sessions_resumeSession env h.get h.resumable
  have hcontinues : s.Continues env.activatedAt.now
      (if s.state = .suspended then s.moved env.activatedAt.now .active else s) := by
    split_ifs
    · exact s.continues_moved _ _
    · exact .refl _ _
  have hframe : (d.resumeSession env i).cluster = d.cluster ∧
      (d.resumeSession env i).peerRt = d.peerRt ∧
      (d.resumeSession env i).sessionRegistry.capacity = d.sessionRegistry.capacity := by
    unfold resumeSession
    cases ((d.sessionRegistry.get i).map (·.state)).getD .destroyed with
    | creating | active | destroyed => exact ⟨rfl, rfl, rfl⟩
    | suspended => exact ⟨rfl, rfl, (transition_frame _ _ _ _).2.1⟩
  refine ⟨hframe.1, hframe.2.1, hframe.2.2, ?_, ?_, fun _ h => absurd h (by simp), .inr rfl⟩
  · rintro j s' ⟨hs', hlive⟩
    left
    have hget := (hsessions j).symm.trans hs'
    by_cases hj : j = i
    · subst hj
      obtain rfl := Option.some.inj ((if_pos rfl).symm.trans hget)
      exact ⟨s, h, hcontinues⟩
    · exact ⟨s', ⟨(if_neg hj).symm.trans hget, hlive⟩, .refl _ _⟩
  · rintro j s₁ ⟨hs₁, hlive₁⟩ -
    by_cases hj : j = i
    · subst hj
      obtain rfl := Option.some.inj (h.get.symm.trans hs₁)
      refine ⟨_, ⟨(hsessions j).trans (if_pos rfl), ?_⟩, hcontinues⟩
      split_ifs
      · rfl
      · exact hlive₁
    · exact ⟨s₁, ⟨((hsessions j).trans (if_neg hj)).trans hs₁, hlive₁⟩, .refl _ _⟩

/-- The session that a client gets that finds none. -/
def newSession (d : CalloopData S) (env : Surroundings) (token : SessionToken) : Session :=
  (Session.new ⟨d.sessionRegistry.nextId⟩ token d.sessionRegistry.localServerId
    env.createdAt.now).moved env.activatedAt.now .active

/-- A client gets a new session. -/
theorem evolves_created (h : Indexed d.sessionRegistry) (token : SessionToken)
    (remoteAddr : String) :
    Evolves now (some (d.newSession env token)) [] d
      ((d.startSession env token).2.bindClient ⟨d.sessionRegistry.nextId⟩ false token
        remoteAddr).2 := by
  have hsessions := sessions_activate_createSession (r := d.sessionRegistry) env.createdAt
    env.activatedAt token
  refine ⟨rfl, rfl, (transition_frame _ _ _ _).2.1, ?_, ?_, ?_, .inr rfl⟩
  · rintro j s' ⟨hs', hlive⟩
    have hs' := (hsessions j).symm.trans hs'
    split_ifs at hs' with hj
    · exact .inr hs'
    · exact .inl ⟨s', ⟨hs', hlive⟩, .refl _ _⟩
  · rintro j s ⟨hs, hlive⟩ -
    -- the new id is not taken
    have hj : j ≠ ⟨d.sessionRegistry.nextId⟩ := by
      rintro rfl
      exact absurd (h.below hs) (lt_irrefl _)
    exact ⟨s, ⟨((hsessions j).trans (if_neg hj)).trans hs, hlive⟩, .refl _ _⟩
  · rintro s' hs'
    exact ⟨⟨d.sessionRegistry.nextId⟩, (hsessions _).trans ((if_pos rfl).trans hs'),
      by rw [← Option.some.inj hs']; rfl⟩

end CalloopData

end WayRay
