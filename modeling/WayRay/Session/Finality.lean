import WayRay.Session.Restart

/-!
# Destroyed is final

A destroyed session stays in memory until it is purged, its setters write it to the store again, and
the store is read back at every restart.  None of this brings its token back: `destroyed_final`, for
every life of a database in which a session is created only for a vacant token.

The invariant is `Vacant` itself.  In a registry that agrees with its store, a token that no live
session holds stays vacant under every move but the creation of a session for it (`vacant_move`),
and across a restart (`vacant_restart`).  Destroying a session makes its token vacant, as no other
live session carries it (`vacant_of_destroyed`).
-/

namespace WayRay

namespace SessionRegistry

variable {clk : Clock} {r r' : SessionRegistry} {t : SessionToken}

/-! ### Under a vacant token nothing is found -/

/-- The index holds no entry for a vacant token. -/
theorem Indexed.tokenIndex_of_vacant (h : Indexed r) (hv : r.Vacant t) :
    r.tokenIndex.get t = none := by
  cases hi : r.tokenIndex.get t with
  | none => rfl
  | some i =>
    obtain ⟨s, hs, -, htok, hst⟩ := h.index hi
    exact absurd htok (hv hs hst)

theorem Indexed.isResumable_of_vacant (h : Indexed r) (hv : r.Vacant t) :
    r.isResumable t = none := by
  rw [isResumable, findByToken, h.tokenIndex_of_vacant hv]
  rfl

theorem Indexed.locate_of_vacant (h : Indexed r) (hv : r.Vacant t) (clk : Clock) (i : SessionId) :
    r.locate clk t ≠ .localTo i := by
  rw [locate, h.tokenIndex_of_vacant hv]
  dsimp only
  cases r.remoteSessions.get t with
  | none => simp
  | some entry =>
    dsimp only
    split_ifs <;> simp

theorem mem_resumableTokens {str : String} :
    str ∈ r.resumableTokens ↔
      ∃ i s, r.sessions.get i = some s ∧ s.state.resumable = true ∧ s.token.str = str := by
  simp only [resumableTokens, List.mem_map, List.mem_filter, HashMap.mem_values]
  constructor
  · rintro ⟨s, ⟨⟨i, hs⟩, hlive⟩, hstr⟩
    exact ⟨i, s, hs, hlive, hstr⟩
  · rintro ⟨i, s, hs, hlive, hstr⟩
    exact ⟨s, ⟨⟨i, hs⟩, hlive⟩, hstr⟩

theorem resumableTokens_of_vacant (hv : r.Vacant t) : t.str ∉ r.resumableTokens := by
  intro hmem
  obtain ⟨i, s, hs, hlive, hstr⟩ := mem_resumableTokens.mp hmem
  refine hv hs (SessionState.ne_destroyed_of_resumable hlive) ?_
  cases hst : s.token
  rw [hst] at hstr
  exact congrArg SessionToken.mk hstr

/-! ### A vacant token stays vacant -/

private theorem vacant_insert (hv : r.Vacant t) {id : SessionId} {s : Session}
    (hs : s.state ≠ .destroyed → s.token ≠ t) ⦃i : SessionId⦄ ⦃s' : Session⦄
    (hs' : (r.sessions.insert id s).get i = some s') (hst' : s'.state ≠ .destroyed) :
    s'.token ≠ t :=
  HashMap.of_get_insert (P := fun _ s' => s'.state ≠ .destroyed → s'.token ≠ t) hs' hs
    (fun hold => hv hold) hst'

/-- Every move but the creation of a session for it leaves a token vacant. -/
theorem vacant_move (h : Mirrored r) (hv : r.Vacant t)
    (hm : Move (fun _ token => token ≠ t) clk r r') : r'.Vacant t := by
  cases hm with
  | create hne => exact vacant_insert hv fun _ => hne
  | advance hs hc hn =>
    refine vacant_insert hv fun _ => ?_
    rw [Session.moved_token]
    refine hv hs fun hst => ?_
    -- a destroyed session does not move
    rw [hst, SessionState.destroyed_canTransitionTo] at hc
    exact absurd hc (by simp)
  | destroy hs hd => exact vacant_insert hv fun hst => absurd (Session.moved_state _ _ _) hst
  | update hs hf =>
    refine vacant_insert hv fun hst => ?_
    rw [hf.token_eq]
    exact hv hs (by rwa [hf.state_eq] at hst)
  | restore hrec hrow hlive =>
    refine vacant_insert hv fun _ => ?_
    -- the row of a live session
    obtain ⟨s, hs, hs'⟩ := h.live_of_row hrec (loadRow_state hrow) hlive
    rw [restoredSession_token, loadRow_token hrow, h.row_token hs hrec]
    exact hv hs (SessionState.ne_destroyed_of_resumable hs')
  | purge => exact fun _ _ hs => hv (HashMap.get_retain_eq_some.mp hs).1
  | remote _ | flush _ | drop _ _ _ => exact hv

theorem vacant_restart (h : Mirrored r) (hv : r.Vacant t) (clk : Clock) (localServerId : String)
    (capacity : ℕ) (find : Enumeration (SessionId × SessionRecord)) :
    (r.restart clk localServerId capacity find).Vacant t := by
  intro i s hs _
  rw [sessions_restart] at hs
  obtain ⟨p, hp, rfl⟩ := Option.map_eq_some_iff.mp hs
  obtain ⟨s', hs', hlive, htok⟩ := h.session_of_liveRow hp
  rw [restoredSession_token, htok]
  exact hv hs' (SessionState.ne_destroyed_of_resumable hlive)

end SessionRegistry

/-- The event creates a session for the token. -/
def LifeEvent.Creates (t : SessionToken) : LifeEvent → Prop
  | .op _ (.createSession token) => token = t
  | _ => False

namespace SessionRegistry

variable {r : SessionRegistry} {t : SessionToken}

/-- **Step lemma**: a vacant token stays vacant until a session is created for it. -/
theorem vacant_apply (h : Mirrored r) (hv : r.Vacant t) {e : LifeEvent} (hguard : e.Guarded r)
    (hne : ¬ e.Creates t) : (e.apply r).Vacant t := by
  cases e with
  | restart clk localServerId capacity find =>
    exact vacant_restart h hv clk localServerId capacity find
  | op clk o =>
    have hG : ∀ token, o = .createSession token → r.Vacant token ∧ token ≠ t := by
      rintro token rfl
      exact ⟨hguard, hne⟩
    have hkeep : Mirrored (r.step clk o).2 ∧ (r.step clk o).2.Vacant t :=
      moves_invariant (G := fun r token => r.Vacant token ∧ token ≠ t)
        (P := fun r => Mirrored r ∧ r.Vacant t)
        (fun hr hm => ⟨mirrored_move hr.1 (hm.mono fun _ _ hG => hG.1),
          vacant_move hr.1 hr.2 (hm.mono fun _ _ hG => hG.2)⟩)
        ⟨h, hv⟩ (step_moves r o hG)
    exact hkeep.2

/-- **Run lemma**: it stays vacant throughout a life that creates no session for it. -/
theorem vacant_life (h : Mirrored r) (hv : r.Vacant t) {events : List LifeEvent}
    (hvacant : CreatesVacant r events) (hno : ∀ e ∈ events, ¬ e.Creates t) :
    (r.life events).Vacant t := by
  induction events generalizing r with
  | nil => exact hv
  | cons e events ih =>
    have hkept := vacant_apply h hv hvacant.1 (hno e List.mem_cons_self)
    have hmirrored : Mirrored (e.apply r) :=
      @mirrored_life _ [e] h ⟨hvacant.1, trivial⟩
    exact ih hmirrored hkept hvacant.2 fun e' he' => hno e' (List.mem_cons_of_mem _ he')

/-! ### Ending a session makes its token vacant -/

/-- The session under `i` is alive and carries the token. -/
def Holds (r : SessionRegistry) (i : SessionId) (t : SessionToken) : Prop :=
  ∃ s, r.sessions.get i = some s ∧ s.token = t ∧ s.state ≠ .destroyed

private theorem holds_insert {i : SessionId} (h : r.Holds i t) {id : SessionId} {s : Session}
    (hs : ∀ s₀, r.sessions.get id = some s₀ → s₀.state ≠ .destroyed →
      s.token = s₀.token ∧ s.state ≠ .destroyed) :
    ∃ s', (r.sessions.insert id s).get i = some s' ∧ s'.token = t ∧ s'.state ≠ .destroyed := by
  obtain ⟨s₀, hs₀, htok, hst⟩ := h
  by_cases hi : i = id
  · subst hi
    obtain ⟨htok', hst'⟩ := hs s₀ hs₀ hst
    exact ⟨s, HashMap.get_insert_self _ _ _, htok'.trans htok, hst'⟩
  · exact ⟨s₀, by rw [HashMap.get_insert_of_ne _ _ hi, hs₀], htok, hst⟩

/-- Until the session that holds a token is destroyed, it holds it. -/
private theorem holds_or_vacant_move {clk : Clock} {i : SessionId} (h : Mirrored r)
    (hi : r.Holds i t) (hm : Move (fun _ token => token ≠ t) clk r r') :
    r'.Holds i t ∨ r'.Vacant t := by
  cases hm with
  | @create token hne =>
    left
    obtain ⟨s, hs, htok, hst⟩ := hi
    have hne' : i ≠ ⟨r.nextId⟩ := by
      rintro rfl
      exact absurd (h.below hs) (lt_irrefl _)
    exact ⟨s, (HashMap.get_insert_of_ne _ _ hne').trans hs, htok, hst⟩
  | @advance id s next hs hc hn =>
    left
    refine holds_insert hi fun s₀ hs₀ _ => ⟨?_, hn⟩
    rw [Session.moved_token, Option.some.inj (hs.symm.trans hs₀)]
  | @destroy id s hs hd =>
    obtain ⟨s₀, hs₀, htok, hst⟩ := hi
    by_cases hid : i = id
    · -- no other live session carries the token
      right
      intro j s' hs' hst' htok'
      simp only [HashMap.get_insert] at hs'
      split_ifs at hs' with hj
      · rw [← Option.some.inj hs'] at hst'
        exact hst' rfl
      · exact hj ((h.id_eq hs' hs₀ hst' hst (htok'.trans htok.symm)).trans hid)
    · left
      exact ⟨s₀, (HashMap.get_insert_of_ne _ _ hid).trans hs₀, htok, hst⟩
  | @update id s f hs hf =>
    left
    refine holds_insert hi fun s₀ hs₀ hst₀ => ?_
    obtain rfl := Option.some.inj (hs.symm.trans hs₀)
    exact ⟨hf.token_eq s, by rwa [hf.state_eq]⟩
  | @restore row rec hrec hrow hlive =>
    left
    refine holds_insert hi fun s₀ hs₀ _ => ⟨?_, by simp⟩
    rw [restoredSession_token, loadRow_token hrow, h.row_token hs₀ hrec]
  | purge =>
    left
    obtain ⟨s, hs, htok, hst⟩ := hi
    exact ⟨s, HashMap.get_retain_eq_some.mpr ⟨hs, by simpa using hst⟩, htok, hst⟩
  | remote _ | flush _ | drop _ _ _ => exact Or.inl hi

/-- An event that destroys a session makes its token vacant. -/
theorem vacant_of_destroyed (h : Mirrored r) {e : LifeEvent} (hguard : e.Guarded r)
    {i : SessionId} {s s' : Session} (hs : r.sessions.get i = some s) (hlive : s.state ≠ .destroyed)
    (hs' : (e.apply r).sessions.get i = some s') (hdead : s'.state = .destroyed) :
    (e.apply r).Vacant s.token := by
  cases e with
  | restart clk localServerId capacity find =>
    -- a restored session is suspended
    rw [LifeEvent.apply, sessions_restart] at hs'
    obtain ⟨p, -, rfl⟩ := Option.map_eq_some_iff.mp hs'
    exact absurd hdead (by simp)
  | op clk o =>
    have hG : ∀ token, o = .createSession token → r.Vacant token ∧ token ≠ s.token := by
      rintro token rfl
      exact ⟨hguard, fun htok => hguard hs hlive htok.symm⟩
    have hkeep : Mirrored (r.step clk o).2 ∧
        ((r.step clk o).2.Holds i s.token ∨ (r.step clk o).2.Vacant s.token) := by
      refine moves_invariant (G := fun r token => r.Vacant token ∧ token ≠ s.token)
        (P := fun r => Mirrored r ∧ (r.Holds i s.token ∨ r.Vacant s.token)) ?_
        ⟨h, Or.inl ⟨s, hs, rfl, hlive⟩⟩ (step_moves r o hG)
      intro r r' hr hm
      have hm' := hm.mono fun _ _ hG => hG.2
      exact ⟨mirrored_move hr.1 (hm.mono fun _ _ hG => hG.1),
        hr.2.elim (fun hi => holds_or_vacant_move hr.1 hi hm')
          fun hv => Or.inr (vacant_move hr.1 hv hm')⟩
    rcases hkeep.2 with ⟨s₁, hs₁, -, hst⟩ | hv
    · rw [LifeEvent.apply, hs₁, Option.some.injEq] at hs'
      exact absurd (hs' ▸ hdead) hst
    · exact hv

/-! ### Whole lives -/

/-- A registry on a store without rows. -/
theorem mirrored_withStore (localServerId : String) (capacity : ℕ) {store : SessionStore}
    (hempty : store.rows = ∅) :
    Mirrored ((withCluster localServerId capacity).withStore store) where
  toConsistent := consistent_withStore localServerId capacity store
  resolves h := by simp [withStore, withCluster, new] at h
  row_of_live _ h := by simp [withStore, withCluster, new] at h
  live_of_row h := by simp [withStore, hempty] at h

/-- **Destroyed is final.**  In the life of a registry, started without rows in its store, that
creates sessions for vacant tokens only: once an event has destroyed a session, its token can not be
resumed, does not lead to a local session and is not among the resumable ones, until a session is
created for it again. -/
theorem destroyed_final (localServerId : String) (capacity : ℕ) (store : SessionStore)
    (hempty : store.rows = ∅) (pre post : List LifeEvent) (e : LifeEvent)
    (hvacant : CreatesVacant ((withCluster localServerId capacity).withStore store)
      (pre ++ e :: post))
    (i : SessionId) (s s' : Session) :
    let start := (withCluster localServerId capacity).withStore store
    (start.life pre).sessions.get i = some s → s.state ≠ .destroyed →
    (start.life (pre ++ [e])).sessions.get i = some s' → s'.state = .destroyed →
    (∀ e' ∈ post, ¬ e'.Creates s.token) →
    let r := start.life (pre ++ e :: post)
    r.isResumable s.token = none ∧ (∀ clk j, r.locate clk s.token ≠ .localTo j) ∧
      s.token.str ∉ r.resumableTokens := by
  intro start hs hlive hs' hdead hno r
  have hstart : Mirrored start := mirrored_withStore localServerId capacity hempty
  have hpre : Mirrored (start.life pre) := mirrored_life hstart hvacant.of_append
  obtain ⟨hguard, hpost⟩ := hvacant.after
  have hone : start.life (pre ++ [e]) = e.apply (start.life pre) := life_append _ _ _
  have hall : r = (e.apply (start.life pre)).life post := life_append _ _ _
  rw [hone] at hs'
  have hmirrored : Mirrored (e.apply (start.life pre)) :=
    @mirrored_life _ [e] hpre ⟨hguard, trivial⟩
  have hv : r.Vacant s.token := by
    rw [hall]
    exact vacant_life hmirrored (vacant_of_destroyed hpre hguard hs hlive hs' hdead) hpost hno
  have hr : Mirrored r := mirrored_life hstart hvacant
  exact ⟨hr.isResumable_of_vacant hv, hr.locate_of_vacant hv, resumableTokens_of_vacant hv⟩

section Witness

/-- A session is created, used and suspended. -/
def usedOnce : List LifeEvent :=
  [.op ⟨0, 0⟩ (.createSession ⟨"t"⟩), .op ⟨0, 0⟩ (.activate ⟨1⟩), .op ⟨0, 0⟩ (.suspend ⟨1⟩)]

/-- A cleanup a day later. -/
def cleanupNextDay : LifeEvent := .op ⟨24 * 60 * 60 * nanosPerSec, 0⟩ .cleanupExpired

/-- The session as `usedOnce` leaves it. -/
def suspendedOnce : Session :=
  { Session.new ⟨1⟩ ⟨"t"⟩ "a" 0 with state := .suspended, suspendedAt := some 0 }

/-- It expires; a setter writes it to the database again, and the server restarts. -/
theorem destroyed_final_cleanup :
    let r := (onEmptyDatabase "a" 50).life (usedOnce ++ cleanupNextDay ::
      [.op ⟨0, 0⟩ (.setUser ⟨1⟩ "u"), .restart ⟨0, 0⟩ "a" 50 .stored])
    r.isResumable ⟨"t"⟩ = none ∧ (∀ clk j, r.locate clk ⟨"t"⟩ ≠ .localTo j) ∧
      "t" ∉ r.resumableTokens := by
  have hvacant : (onEmptyDatabase "a" 50).Vacant ⟨"t"⟩ := fun i s hs => by
    simp [onEmptyDatabase, withStore, withCluster, new] at hs
  refine destroyed_final "a" 50 (.sqlite (.openFile ∅)) rfl usedOnce
    [.op ⟨0, 0⟩ (.setUser ⟨1⟩ "u"), .restart ⟨0, 0⟩ "a" 50 .stored] cleanupNextDay
    ⟨hvacant, trivial, trivial, trivial, trivial, trivial, trivial⟩ ⟨1⟩ suspendedOnce
    { suspendedOnce with state := .destroyed, suspendedAt := none } ?_ ?_ ?_ rfl ?_
  · decide
  · decide
  · decide
  · intro e he
    simp only [List.mem_cons, List.not_mem_nil, or_false] at he
    rcases he with rfl | rfl <;> exact not_false

end Witness

end SessionRegistry

end WayRay
