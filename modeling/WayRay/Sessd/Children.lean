import WayRay.Collections.Custody
import WayRay.Collections.GuardedRun
import WayRay.Sessd.Daemon

/-!
# The children of the launcher

The launcher keeps its children with the sessions they were started for, and kills them when the
session ends.  So the sessions keep the children in custody: `custody` is the ledger, and each
request is one move on it (`exists_move`).

A second request for a token replaces the session of the first one, and with it the record of its
children.  `noOrphans_iff` says that all children stay recorded, and can be cleaned up, exactly if
this happens only to sessions without children.
-/

namespace WayRay

open Custody GuardedRun

namespace Sessd

variable {os : ℕ → Option String} {s s' : Sessd} {a : Arrival}

/-! ### Steps -/

/-- The request ends the session of a token. -/
def Ends (token : String) : LauncherRequest → Prop
  | .sessionLogout token' _ | .killSession token' => token' = token
  | _ => False

/-- A session is requested only where none with children would be replaced. -/
def ForgetsNone (s : Sessd) (a : Arrival) : Prop :=
  match a.request with
  | .sessionRequested token _ =>
    ∀ session, s.sessions.get token = some session → session.children = []
  | _ => True

theorem forgetsNone_of_ends {token : String} (h : Ends token a.request) : s.ForgetsNone a := by
  unfold ForgetsNone
  cases hrequest : a.request with
  | sessionRequested token' waylandDisplay =>
    rw [hrequest] at h
    exact h.elim
  | sessionAuthenticated | sessionLogout | listSessions | killSession => trivial

/-- What a request does. -/
inductive Stepped (s : Sessd) (a : Arrival) : Sessd → Prop
  | requested (token waylandDisplay : String) (children : List Child)
    (hrequest : a.request = .sessionRequested token waylandDisplay)
    (hchildren : ∀ child ∈ children, child.pid = s.attempts ∧
      ∃ binary, child.command = waylandClient binary waylandDisplay) :
    Stepped s a
      { s with
        sessions := s.sessions.insert token ⟨token, none, children, waylandDisplay⟩
        attempts := s.attempts + 1
        spawned := s.spawned ++ children }
  | authenticated (token user : String) (session : ManagedSession) (count : ℕ)
    (children : List Child) (hrequest : a.request = .sessionAuthenticated token user)
    (hget : s.sessions.get token = some session)
    (hchildren : ∀ child ∈ children, (s.attempts ≤ child.pid ∧ child.pid < s.attempts + count) ∧
      ∃ binary, child.command = waylandClient binary session.waylandDisplay) :
    Stepped s a
      { s with
        sessions := s.sessions.insert token
          { session with user := some user, children := session.children ++ children }
        attempts := s.attempts + count
        spawned := s.spawned ++ children }
  | ended (token : String) (session : ManagedSession) (hrequest : Ends token a.request)
    (hget : s.sessions.get token = some session) :
    Stepped s a
      { s with
        sessions := s.sessions.remove token
        killed := s.killed ++ session.children }
  | unchanged (hforgets : s.ForgetsNone a)
    (hends : ∀ token, Ends token a.request → s.sessions.get token = none) : Stepped s a s

theorem stepped (os : ℕ → Option String) (s : Sessd) (a : Arrival) :
    Stepped s a (s.step os a) := by
  obtain ⟨request, loaded⟩ := a
  cases request with
  | sessionRequested token waylandDisplay =>
    simp only [step, handle, handleSessionRequested, spawn]
    cases hos : os s.attempts with
    | none =>
      refine .requested token waylandDisplay [_] rfl fun child hchild => ?_
      rw [List.mem_singleton.mp hchild]
      exact ⟨rfl, _, rfl⟩
    | some e =>
      have h : Stepped s ⟨.sessionRequested token waylandDisplay, loaded⟩ _ :=
        .requested token waylandDisplay [] rfl fun child hchild => absurd hchild List.not_mem_nil
      rw [List.append_nil] at h
      exact h
  | sessionAuthenticated token user =>
    simp only [step, handle, handleSessionAuthenticated]
    cases hget : s.sessions.get token with
    | none => exact .unchanged trivial fun _ h => h.elim
    | some session =>
      dsimp only
      rw [launchAll_eq]
      exact .authenticated token user session _ _ rfl hget fun child hchild =>
        ⟨(mem_launched hchild).1, (mem_launched hchild).2.2⟩
  | sessionLogout token sessionId =>
    simp only [step, handle, handleSessionLogout, endSession]
    cases hget : s.sessions.get token with
    | none => exact .unchanged trivial fun token' h => (show token = token' from h) ▸ hget
    | some session => exact .ended token session rfl hget
  | listSessions => exact .unchanged trivial fun _ h => h.elim
  | killSession token =>
    simp only [step, handle, killSession, endSession]
    cases hget : s.sessions.get token with
    | none => exact .unchanged trivial fun token' h => (show token = token' from h) ▸ hget
    | some session => exact .ended token session rfl hget

/-! ### The ledger -/

/-- The children in the custody of the sessions. -/
def custody (s : Sessd) : Ledger String Child where
  held token := ((s.sessions.get token).map (·.children)).getD []
  taken := s.spawned
  released := s.killed

theorem held_of_get {token : String} {session : ManagedSession}
    (h : s.sessions.get token = some session) : s.custody.held token = session.children := by
  simp [custody, h]

/-- Storing a session changes what is held for its token. -/
theorem held_insert (sessions : HashMap String ManagedSession) (token : String)
    (session : ManagedSession) :
    (fun token' => (((sessions.insert token session).get token').map (·.children)).getD []) =
      Function.update (fun token' => ((sessions.get token').map (·.children)).getD []) token
        session.children := by
  funext token'
  by_cases htoken : token' = token
  · subst htoken
    simp
  · rw [HashMap.get_insert_of_ne _ _ htoken, Function.update_of_ne htoken]

theorem held_remove (sessions : HashMap String ManagedSession) (token : String) :
    (fun token' => (((sessions.remove token).get token').map (·.children)).getD []) =
      Function.update (fun token' => ((sessions.get token').map (·.children)).getD []) token
        [] := by
  funext token'
  by_cases htoken : token' = token
  · subst htoken
    simp
  · rw [HashMap.get_remove_of_ne _ htoken, Function.update_of_ne htoken]

/-- **Each request is a move on the ledger**, with new children, which forgets none exactly if the
request does. -/
theorem Stepped.exists_move (h : Stepped s a s') :
    ∃ move, s'.custody = s.custody.apply move ∧
      (∀ child ∈ move.fresh, s.attempts ≤ child.pid ∧ child.pid < s'.attempts) ∧
      s.attempts ≤ s'.attempts ∧ (s.custody.Keeps move ↔ s.ForgetsNone a) := by
  cases h with
  | requested token waylandDisplay children hrequest hchildren =>
    refine ⟨.begin token children, ?_, fun child hchild => ?_, Nat.le_succ _, ?_⟩
    · exact Ledger.ext (held_insert _ _ _) rfl rfl
    · have hpid := (hchildren child hchild).1
      exact ⟨hpid.ge, by dsimp only; omega⟩
    · unfold ForgetsNone
      rw [hrequest]
      cases hget : s.sessions.get token with
      | none => simp [Ledger.Keeps, custody, hget]
      | some session => simp [Ledger.Keeps, held_of_get hget, hget]
  | authenticated token user session count children hrequest hget hchildren =>
    refine ⟨.take token children, ?_, fun child hchild => (hchildren child hchild).1,
      Nat.le_add_right _ _, ?_⟩
    · refine Ledger.ext ((held_insert _ _ _).trans ?_) rfl rfl
      simp only [Ledger.apply]
      rw [held_of_get hget]
      rfl
    · simp [Ledger.Keeps, ForgetsNone, hrequest]
  | ended token session hrequest hget =>
    refine ⟨.release token, ?_, fun child hchild => absurd hchild List.not_mem_nil, le_rfl, ?_⟩
    · refine Ledger.ext (held_remove _ _) rfl ?_
      simp only [Ledger.apply]
      rw [held_of_get hget]
      rfl
    · exact iff_of_true trivial (forgetsNone_of_ends hrequest)
  | unchanged hforgets hends =>
    refine ⟨.take "" [], ?_, fun child hchild => absurd hchild List.not_mem_nil, le_rfl,
      iff_of_true trivial hforgets⟩
    simp [Ledger.apply]

/-! ### Invariants -/

/-- No child is in two hands, attempts are numbered, and sessions are stored under their tokens. -/
structure Tracked (s : Sessd) : Prop where
  sound : s.custody.Sound
  pid_lt : ∀ child ∈ s.spawned, child.pid < s.attempts
  token_eq : ∀ {token session}, s.sessions.get token = some session → session.token = token

theorem tracked_new : Tracked new where
  sound := by
    constructor <;> simp [custody, new, Launcher.new]
  pid_lt child hchild := absurd hchild List.not_mem_nil
  token_eq hget := by simp [new, Launcher.new] at hget

theorem Stepped.token_eq (h : Stepped s a s')
    (htoken : ∀ {token session}, s.sessions.get token = some session → session.token = token)
    {token : String} {session : ManagedSession} (hget : s'.sessions.get token = some session) :
    session.token = token := by
  cases h with
  | requested token' waylandDisplay children =>
    exact HashMap.of_get_insert (P := fun token session => session.token = token) hget rfl htoken
  | authenticated token' user session' count children _ hget' =>
    exact HashMap.of_get_insert (P := fun token session => session.token = token) hget
      (htoken hget') htoken
  | ended token' session' =>
    rw [HashMap.get_remove] at hget
    split_ifs at hget
    exact htoken hget
  | unchanged => exact htoken hget

/-- New children are numbered by new attempts. -/
theorem Tracked.fresh (h : s.Tracked) {move : Move String Child}
    (hfresh : ∀ child ∈ move.fresh, s.attempts ≤ child.pid) :
    ∀ child ∈ move.fresh, child ∉ s.custody.taken := by
  intro child hnew hold
  exact absurd (h.pid_lt child hold) (hfresh child hnew).not_gt

theorem Tracked.stepped (h : s.Tracked) (hstep : Stepped s a s') : s'.Tracked := by
  obtain ⟨move, hmove, hfresh, hattempts, -⟩ := hstep.exists_move
  have hnew := h.fresh fun child hchild => (hfresh child hchild).1
  have hspawned : s'.spawned = s.spawned ++ move.fresh :=
    (congrArg Ledger.taken hmove).trans (Ledger.taken_apply s.custody move)
  refine ⟨?_, fun child hchild => ?_, hstep.token_eq h.token_eq⟩
  · rw [hmove]
    exact h.sound.apply hnew
  · rw [hspawned, List.mem_append] at hchild
    rcases hchild with hold | hchild
    · exact (h.pid_lt child hold).trans_le hattempts
    · exact (hfresh child hchild).2

/-- **A request keeps the children accounted for** exactly if it forgets none. -/
theorem Tracked.accounted_iff (h : s.Tracked) (hstep : Stepped s a s') :
    s'.custody.Accounted ↔ s.custody.Accounted ∧ s.ForgetsNone a := by
  obtain ⟨move, hmove, hfresh, -, hkeeps⟩ := hstep.exists_move
  have hnew := h.fresh fun child hchild => (hfresh child hchild).1
  rw [hmove, Ledger.accounted_apply_iff h.sound hnew, hkeeps]

theorem tracked_run (os : ℕ → Option String) (h : s.Tracked) (arrivals : List Arrival) :
    (arrivals.foldl (step os) s).Tracked := by
  induction arrivals generalizing s with
  | nil => exact h
  | cons a arrivals ih => exact ih (h.stepped (stepped os s a))

theorem accounted_run_iff (os : ℕ → Option String) (h : s.Tracked) (arrivals : List Arrival) :
    (arrivals.foldl (step os) s).custody.Accounted ↔
      s.custody.Accounted ∧ Along (step os) ForgetsNone s arrivals :=
  foldl_iff_along (I := Tracked) (G := fun s => s.custody.Accounted)
    (fun s a h => h.stepped (stepped os s a)) (fun s a h => h.accounted_iff (stepped os s a)) h

/-! ### Cleaning up -/

/-- No child that was started and not killed is without a session that records it. -/
def NoOrphans (s : Sessd) : Prop :=
  ∀ child ∈ s.spawned, child ∉ s.killed →
    ∃ token session, s.sessions.get token = some session ∧ child ∈ session.children

/-- Every child has been killed. -/
def NoneRunning (s : Sessd) : Prop := ∀ child ∈ s.spawned, child ∈ s.killed

/-- Requests that end sessions, among them all that are listed. -/
def CleansUp (s : Sessd) (cleanup : List Arrival) : Prop :=
  (∀ a ∈ cleanup, ∃ token, Ends token a.request) ∧
    ∀ info ∈ s.listSessions, ∃ a ∈ cleanup, Ends info.token a.request

theorem noOrphans_iff_accounted : s.NoOrphans ↔ s.custody.Accounted := by
  refine forall_congr' fun child => forall_congr' fun _ => forall_congr' fun _ => ?_
  refine exists_congr fun token => ?_
  cases hget : s.sessions.get token with
  | none => simp [custody, hget]
  | some session => simp [custody, hget]

theorem Ends.eq {token token' : String} (h : Ends token a.request) (h' : Ends token' a.request) :
    token = token' := by
  cases hrequest : a.request with
  | sessionLogout token'' sessionId | killSession token'' =>
    rw [hrequest] at h h'
    exact Eq.trans (Eq.symm h) h'
  | sessionRequested | sessionAuthenticated | listSessions =>
    rw [hrequest] at h
    exact h.elim

/-- A request that ends a session leaves the others as they are. -/
theorem Stepped.get_of_ends (h : Stepped s a s') {ended : String} (hends : Ends ended a.request)
    {token : String} {session : ManagedSession} (hget : s'.sessions.get token = some session) :
    s.sessions.get token = some session ∧ ¬Ends token a.request := by
  cases h with
  | requested token' waylandDisplay children hrequest =>
    rw [hrequest] at hends
    exact hends.elim
  | authenticated token' user session' count children hrequest =>
    rw [hrequest] at hends
    exact hends.elim
  | ended token' session' hrequest =>
    rw [HashMap.get_remove] at hget
    split_ifs at hget with htoken
    exact ⟨hget, fun h => htoken (h.eq hrequest)⟩
  | unchanged hforgets hnone =>
    refine ⟨hget, fun h => ?_⟩
    rw [hnone token h] at hget
    exact absurd hget.symm (Option.some_ne_none session)

theorem get_cleanup {cleanup : List Arrival} (hends : ∀ a ∈ cleanup, ∃ token, Ends token a.request)
    {token : String} {session : ManagedSession}
    (hget : (cleanup.foldl (step os) s).sessions.get token = some session) :
    s.sessions.get token = some session ∧ ∀ a ∈ cleanup, ¬Ends token a.request := by
  induction cleanup generalizing s with
  | nil => exact ⟨hget, fun a ha => absurd ha List.not_mem_nil⟩
  | cons a cleanup ih =>
    obtain ⟨hafter, hrest⟩ := ih (fun a' ha' => hends a' (List.mem_cons_of_mem a ha')) hget
    obtain ⟨ended, hended⟩ := hends a List.mem_cons_self
    obtain ⟨hbefore, hnot⟩ := (stepped os s a).get_of_ends hended hafter
    exact ⟨hbefore, List.forall_mem_cons.mpr ⟨hnot, hrest⟩⟩

/-- Once all listed sessions have ended, there is none. -/
theorem get_eq_none_of_cleansUp (h : s.Tracked) {cleanup : List Arrival}
    (hcleanup : s.CleansUp cleanup) (token : String) :
    (cleanup.foldl (step os) s).sessions.get token = none := by
  cases hget : (cleanup.foldl (step os) s).sessions.get token with
  | none => rfl
  | some session =>
    obtain ⟨hbefore, hnot⟩ := get_cleanup hcleanup.1 hget
    have hlisted : (⟨session.token, session.user, session.children.length⟩ : SessionInfo) ∈
        s.listSessions := List.mem_map_of_mem (HashMap.mem_values.mpr ⟨token, hbefore⟩)
    obtain ⟨a, ha, hends⟩ := hcleanup.2 _ hlisted
    dsimp only at hends
    rw [h.token_eq hbefore] at hends
    exact absurd hends (hnot a ha)

theorem along_forgetsNone_of_ends {cleanup : List Arrival}
    (hends : ∀ a ∈ cleanup, ∃ token, Ends token a.request) :
    Along (step os) ForgetsNone s cleanup := by
  refine along_iff_forall_split.mpr fun pre a post heq => ?_
  obtain ⟨token, h⟩ := hends a (heq ▸ List.mem_append_right pre List.mem_cons_self)
  exact forgetsNone_of_ends h

/-- **No orphans**: after any requests, every child that was started and not killed is recorded in a
session if and only if a session was requested only where none with children was replaced.  And
once all sessions that are listed then have been logged out or killed, in any order, no child is
left running if and only if the same is true. -/
theorem noOrphans_iff (os : ℕ → Option String) (arrivals : List Arrival) :
    ((arrivals.foldl (step os) new).NoOrphans ↔ Along (step os) ForgetsNone new arrivals) ∧
      ∀ cleanup, (arrivals.foldl (step os) new).CleansUp cleanup →
        ((cleanup.foldl (step os) (arrivals.foldl (step os) new)).NoneRunning ↔
          Along (step os) ForgetsNone new arrivals) := by
  have htracked := tracked_run os tracked_new arrivals
  have hnew : new.custody.Accounted := fun child hchild => absurd hchild List.not_mem_nil
  have haccounted : (arrivals.foldl (step os) new).custody.Accounted ↔
      Along (step os) ForgetsNone new arrivals :=
    (accounted_run_iff os tracked_new arrivals).trans (and_iff_right hnew)
  refine ⟨noOrphans_iff_accounted.trans haccounted, fun cleanup hcleanup => ?_⟩
  -- nothing is held after the cleanup, which forgets nothing
  have hheld : ∀ token,
      (cleanup.foldl (step os) (arrivals.foldl (step os) new)).custody.held token = [] := by
    intro token
    simp [custody, get_eq_none_of_cleansUp htracked hcleanup token]
  have hkept := accounted_run_iff os htracked cleanup
  rw [Ledger.accounted_iff_of_held_eq_nil hheld] at hkept
  exact hkept.trans ((and_iff_left (along_forgetsNone_of_ends hcleanup.1)).trans haccounted)

/-- One session, whose desktop is started and ended. -/
theorem noOrphans_iff_one :
    let os : ℕ → Option String := fun _ => none
    let arrivals : List Arrival := [⟨.sessionRequested "t" "wayland-1", .ok .default⟩,
      ⟨.sessionAuthenticated "t" "alice", .ok .default⟩]
    let cleanup : List Arrival := [⟨.killSession "t", .ok .default⟩]
    (cleanup.foldl (step os) (arrivals.foldl (step os) new)).NoneRunning ↔
      Along (step os) ForgetsNone new arrivals := by
  refine (noOrphans_iff _ _).2 _ ⟨?_, ?_⟩
  · intro a ha
    rw [List.mem_singleton.mp ha]
    exact ⟨"t", rfl⟩
  · intro info hinfo
    have hlist : (List.foldl (step fun _ => none) new
        [⟨.sessionRequested "t" "wayland-1", .ok .default⟩,
          ⟨.sessionAuthenticated "t" "alice", .ok .default⟩]).listSessions =
        [⟨"t", some "alice", 2⟩] := by decide
    rw [hlist] at hinfo
    rw [List.mem_singleton.mp hinfo]
    exact ⟨_, List.mem_singleton_self _, rfl⟩

/-- The greeter of a session that is requested twice is an orphan, and survives the session. -/
theorem not_noOrphans_twice :
    let os : ℕ → Option String := fun _ => none
    let arrivals : List Arrival := [⟨.sessionRequested "t" "wayland-1", .ok .default⟩,
      ⟨.sessionRequested "t" "wayland-1", .ok .default⟩]
    ¬(arrivals.foldl (step os) new).NoOrphans ∧
      ¬(step os (arrivals.foldl (step os) new) ⟨.killSession "t", .ok .default⟩).NoneRunning := by
  intro os arrivals
  let greeter : Child := ⟨0, waylandClient "wrlogin" "wayland-1", "t"⟩
  constructor
  · intro h
    obtain ⟨token, session, hget, hmem⟩ := h greeter (by decide) (by decide)
    have hvalue := HashMap.mem_values.mpr ⟨token, hget⟩
    have hnone : ∀ session ∈ (arrivals.foldl (step os) new).sessions.values,
        greeter ∉ session.children := by decide
    exact hnone session hvalue hmem
  · unfold NoneRunning
    decide

end Sessd

end WayRay
