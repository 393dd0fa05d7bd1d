import WayRay.Headless.Launcher
import WayRay.Sessd.Children
import Mathlib.Data.List.Chain

/-!
# The compositor and the launcher

`launcher_link.rs`: a worker takes the lifecycle events from the channel of the compositor, one at a
time, and sends a request for each to the launcher.  A request that does not get through is only
warned about.  Greeters and administrators send requests of their own in between.

`LaunchSystem` is the three together.  `Linked` is its invariant, and `Linked.step` keeps it: a
session is recorded at the launcher only while the last event delivered for its token is a creation.
A creation may be lost; what must get through is the notice that a session has ended (`Notified`).
-/

namespace WayRay

open GuardedRun

/-! ### The events of a token -/

/-- The request that the worker sends for an event. -/
def LauncherEvent.request (waylandDisplay : String) : LauncherEvent → LauncherRequest
  | .sessionCreated token => .sessionRequested token waylandDisplay
  | .sessionDestroyed token sessionId => .sessionLogout token (.ofNat sessionId)

/-- The last event of the token is a creation. -/
def Awaited (token : String) (log : List LauncherEvent) : Prop :=
  (log.filter fun event => event.token = token).getLast? = some (.sessionCreated token)

section Events

variable {token : String} {log : List LauncherEvent}

theorem awaited_concat_of_ne (event : LauncherEvent) (h : event.token ≠ token) :
    Awaited token (log ++ [event]) ↔ Awaited token log := by
  simp [Awaited, List.filter_append, h]

theorem awaited_concat_of_eq (event : LauncherEvent) (h : event.token = token) :
    Awaited token (log ++ [event]) ↔ event = .sessionCreated token := by
  simp [Awaited, List.filter_append, h]

/-- In a lifecycle a session ends before the next one is created. -/
theorem isChain_lifecycle (token : String) (ended : List SessionId) (live : Option SessionId) :
    (lifecycle token ended live).IsChain
      fun before after => before = .sessionCreated token → after ≠ .sessionCreated token := by
  induction ended with
  | nil => cases live <;> simp [lifecycle]
  | cons id ended ih =>
    rw [lifecycle, List.flatMap_cons, List.append_assoc]
    refine List.isChain_cons_cons.mpr ⟨fun _ => LauncherEvent.noConfusion, ?_⟩
    exact List.isChain_cons.mpr ⟨fun _ _ hcreated => LauncherEvent.noConfusion hcreated, ih⟩

/-- A token whose events make up a lifecycle is awaited if its session is live. -/
theorem awaited_iff_of_lifecycle {ended : List SessionId} {live : Option SessionId}
    (h : log.filter (fun event => event.token = token) = lifecycle token ended live) :
    Awaited token log ↔ live ≠ none := by
  rw [Awaited, h, lifecycle]
  cases live with
  | some id => simp
  | none =>
    refine iff_of_false (fun hlast => ?_) (not_not_intro rfl)
    rw [Option.toList_none, List.map_nil, List.append_nil] at hlast
    obtain rfl | ⟨init, id, rfl⟩ := ended.eq_nil_or_concat
    · simp at hlast
    · simp at hlast

end Events

/-! ### Both ends -/

/-- An event of the loop adds to what the launcher is told. -/
theorem CalloopData.launcher_applyEvent {S : Type} (desktop : Desktop S) (d : CalloopData S)
    (event : LoopEvent S) :
    ∃ more, (applyEvent desktop d event).launcher = d.launcher.map (· ++ more) := by
  have hsame : ∃ more, d.launcher = d.launcher.map (· ++ more) := ⟨[], by simp⟩
  cases event with
  | netClosed | turn _ _ => exact hsame
  | cleanup cleanedAt prunedAt => exact ⟨_, launcher_cleanupTick d cleanedAt prunedAt⟩
  | net env event =>
    cases event with
    | input _ => exact hsame
    | control msg => cases msg <;> exact hsame
    | clientDisconnected =>
      simp only [applyEvent, drainEvent, disconnectClient, publishClusterState]
      cases d.activeSession <;> exact hsame
    | clientConnected hello remoteAddr =>
      have hconnects := d.connectClient_connects env hello remoteAddr
      obtain ⟨notes, hnotes⟩ := d.findHome_notes env ⟨hello.token.getD env.randomToken⟩
      simp only [applyEvent, drainEvent, Prod.map_snd, id]
      generalize d.connectClient env hello remoteAddr = answer at hconnects ⊢
      cases hconnects with
      | home _ _ | shed _ _ _ =>
        rw [hnotes]
        exact hsame
      | resumed _ _ =>
        rw [hnotes]
        simp only [bindClient, publishClusterState, resumeSession]
        split <;> exact hsame
      | created _ _ =>
        rw [hnotes]
        exact ⟨_, rfl⟩

namespace Sessd

variable {os : ℕ → Option String} {s : Sessd} {a : Arrival}

/-- A session is recorded for the token. -/
def Manages (s : Sessd) (token : String) : Prop := ∃ session, s.sessions.get token = some session

/-- A session that is requested is recorded, even if its greeter fails. -/
theorem manages_requested (s : Sessd) (token token' waylandDisplay : String)
    (loaded : Except SessionConfigError SessionConfig) :
    (s.step os ⟨.sessionRequested token waylandDisplay, loaded⟩).Manages token' ↔
      token' = token ∨ s.Manages token' := by
  have hinsert : ∀ (m : HashMap String ManagedSession) session,
      (∃ session', (m.insert token session).get token' = some session') ↔
        token' = token ∨ ∃ session', m.get token' = some session' := by
    intro m session
    by_cases htoken : token' = token
    · simp [htoken]
    · simp [HashMap.get_insert_of_ne m session htoken, htoken]
  simp only [Manages, step, handle, handleSessionRequested, spawn]
  cases os s.attempts <;> exact hinsert _ _

theorem manages_ends {token : String} (h : Ends token a.request) (token' : String) :
    (s.step os a).Manages token' ↔ token' ≠ token ∧ s.Manages token' := by
  have hstepped := stepped os s a
  generalize s.step os a = s' at hstepped ⊢
  cases hstepped with
  | requested token'' _ _ hrequest =>
    rw [hrequest] at h
    exact h.elim
  | authenticated token'' _ _ _ _ hrequest =>
    rw [hrequest] at h
    exact h.elim
  | ended token'' session hends hget =>
    obtain rfl := h.eq hends
    simp only [Manages, HashMap.get_remove]
    split_ifs with htoken
    · simp [htoken]
    · simp [htoken]
  | unchanged _ hnone =>
    refine (and_iff_right_of_imp ?_).symm
    rintro ⟨session, hget⟩ rfl
    exact absurd ((hnone _ h).symm.trans hget) (Option.some_ne_none session).symm

/-- Other requests leave the sessions recorded. -/
theorem manages_other (hrequested : ∀ token display, a.request ≠ .sessionRequested token display)
    (hends : ∀ token, ¬Ends token a.request) (token' : String) :
    (s.step os a).Manages token' ↔ s.Manages token' := by
  have hstepped := stepped os s a
  generalize s.step os a = s' at hstepped ⊢
  cases hstepped with
  | requested token display _ hrequest => exact absurd hrequest (hrequested token display)
  | authenticated token _ session _ _ _ hget =>
    by_cases htoken : token' = token
    · subst htoken
      simp [Manages, hget]
    · simp [Manages, HashMap.get_insert_of_ne s.sessions _ htoken]
  | ended token _ hend => exact absurd hend (hends token)
  | unchanged => exact Iff.rfl

/-- A request that asks for no session records none. -/
theorem manages_of_not_requested
    (hrequested : ∀ token display, a.request ≠ .sessionRequested token display) {token' : String}
    (h : (s.step os a).Manages token') : s.Manages token' := by
  by_cases hends : ∃ token, Ends token a.request
  · obtain ⟨token, hend⟩ := hends
    exact ((manages_ends hend token').mp h).2
  · exact (manages_other hrequested (not_exists.mp hends) token').mp h

end Sessd

/-! ### The system -/

/-- The compositor, the launcher, and how many of the events the worker has taken. -/
structure LaunchSystem (S : Type) where
  compositor : CalloopData S
  taken : ℕ
  sessd : Sessd

/-- What happens next. -/
inductive LaunchStep (S : Type) where
  | compositor (event : LoopEvent S)
  /-- The worker takes an event; its request reaches the launcher or is lost. -/
  | work (reached : Bool) (loaded : Except SessionConfigError SessionConfig)
  /-- A request of a greeter or an administrator. -/
  | client (a : Sessd.Arrival)

namespace LaunchSystem

variable {S : Type} {os : ℕ → Option String} {desktop : Desktop S} {waylandDisplay : String}
  {l : LaunchSystem S}

/-- The events sent to the worker so far. -/
def events (l : LaunchSystem S) : List LauncherEvent := l.compositor.launcher.getD []

def step (os : ℕ → Option String) (desktop : Desktop S) (waylandDisplay : String)
    (l : LaunchSystem S) : LaunchStep S → LaunchSystem S
  | .compositor event =>
    { l with compositor := CalloopData.applyEvent desktop l.compositor event }
  | .work reached loaded =>
    match l.events[l.taken]? with
    -- nothing to receive
    | none => l
    | some event =>
      { l with
        taken := l.taken + 1
        sessd :=
          if reached then l.sessd.step os ⟨event.request waylandDisplay, loaded⟩ else l.sessd }
  | .client a => { l with sessd := l.sessd.step os a }

/-- The launcher knows of every session that has ended: no such notice is lost, and only the worker
requests sessions. -/
def Notified (l : LaunchSystem S) : LaunchStep S → Prop
  | .compositor _ => True
  | .work reached _ =>
    reached = false → ∀ token sessionId,
      l.events[l.taken]? ≠ some (.sessionDestroyed token sessionId)
  | .client a => ∀ token waylandDisplay, a.request ≠ .sessionRequested token waylandDisplay

/-- Nothing is lost, and only the worker requests or ends sessions. -/
def Faithful (_ : LaunchSystem S) : LaunchStep S → Prop
  | .compositor _ => True
  | .work reached _ => reached = true
  | .client a => (∀ token waylandDisplay, a.request ≠ .sessionRequested token waylandDisplay) ∧
      ∀ token, ¬Sessd.Ends token a.request

/-- The compositor has just started, and so has the launcher. -/
def start (compositor : CalloopData S) : LaunchSystem S := ⟨compositor, 0, .new⟩

/-! ### Invariants -/

/-- What holds of the compositor and of the events taken, whatever is lost. -/
structure Running (l : LaunchSystem S) : Prop where
  mirrors : ∃ created, CalloopData.Mirrors created l.compositor
  taken_le : l.taken ≤ l.events.length

/-- The events of a token, those taken and those still to come, make up a lifecycle. -/
theorem Running.lifecycle (h : l.Running) (token : String) :
    ∃ ended live, l.events.filter (fun event => event.token = token) =
        WayRay.lifecycle token ended live ∧
      ∀ id, live = some id ↔ l.compositor.sessionRegistry.Carries id token := by
  obtain ⟨created, hmirrors⟩ := h.mirrors
  obtain ⟨log, hlog, htold⟩ := hmirrors.told
  obtain ⟨ended, live, htoken⟩ := htold token
  refine ⟨ended, live, ?_, htoken.live_iff⟩
  rw [← htoken.log_eq, events, hlog, Option.getD_some]

/-- A token is not awaited twice. -/
theorem Running.not_awaited (h : l.Running) {token : String}
    (hnext : l.events[l.taken]? = some (.sessionCreated token)) :
    ¬Awaited token (l.events.take l.taken) := by
  obtain ⟨ended, live, hevents, -⟩ := h.lifecycle token
  have hchain := isChain_lifecycle token ended live
  have hsplit : l.events = l.events.take l.taken ++ .sessionCreated token ::
      l.events.drop (l.taken + 1) := by
    rw [List.getElem?_eq_some_iff] at hnext
    obtain ⟨hlt, hget⟩ := hnext
    rw [← hget, ← List.drop_eq_getElem_cons hlt, List.take_append_drop]
  rw [← hevents, hsplit, List.filter_append] at hchain
  intro hawaited
  refine (List.isChain_append.mp hchain).2.2 _ hawaited _ ?_ rfl rfl
  simp [LauncherEvent.token]

/-- Once the worker has taken all events, a token is awaited if it has a live session. -/
theorem Running.awaited_iff (h : l.Running) (htaken : l.taken = l.events.length) (token : String) :
    Awaited token (l.events.take l.taken) ↔
      ∃ id, l.compositor.sessionRegistry.Carries id token := by
  obtain ⟨ended, live, hevents, hlive⟩ := h.lifecycle token
  rw [htaken, List.take_length, awaited_iff_of_lifecycle hevents, Option.ne_none_iff_exists']
  exact exists_congr hlive

/-- What holds of the launcher if no notice of a session's end is lost. -/
structure Linked (l : LaunchSystem S) : Prop extends Running l where
  tracked : l.sessd.Tracked
  accounted : l.sessd.custody.Accounted
  awaited : ∀ token, l.sessd.Manages token → Awaited token (l.events.take l.taken)

/-! ### One step -/

theorem events_compositor (os : ℕ → Option String) (desktop : Desktop S) (waylandDisplay : String)
    (l : LaunchSystem S) (event : LoopEvent S) :
    ∃ more, (l.step os desktop waylandDisplay (.compositor event)).events = l.events ++ more ∨
      (l.step os desktop waylandDisplay (.compositor event)).events = [] ∧ l.events = [] := by
  obtain ⟨more, hmore⟩ := CalloopData.launcher_applyEvent desktop l.compositor event
  simp only [step, events, hmore]
  cases l.compositor.launcher with
  | none => exact ⟨[], Or.inr ⟨rfl, rfl⟩⟩
  | some log => exact ⟨more, Or.inl rfl⟩

/-- The events that have been taken stay the same while the compositor runs. -/
theorem take_compositor (h : l.Running) (event : LoopEvent S) :
    (l.step os desktop waylandDisplay (.compositor event)).events.take l.taken =
        l.events.take l.taken ∧
      l.taken ≤ (l.step os desktop waylandDisplay (.compositor event)).events.length := by
  obtain ⟨more, hevents | ⟨hevents, hnone⟩⟩ := events_compositor os desktop waylandDisplay l event
  · rw [hevents, List.take_append_of_le_length h.taken_le, List.length_append]
    exact ⟨rfl, h.taken_le.trans (Nat.le_add_right _ _)⟩
  · have htaken := h.taken_le
    rw [hevents, hnone] at *
    exact ⟨rfl, htaken⟩

/-- What the worker does with the event it takes. -/
theorem step_work {event : LauncherEvent} (hnext : l.events[l.taken]? = some event)
    (reached : Bool) (loaded : Except SessionConfigError SessionConfig) :
    l.step os desktop waylandDisplay (.work reached loaded) =
      { l with
        taken := l.taken + 1
        sessd := if reached then l.sessd.step os ⟨event.request waylandDisplay, loaded⟩
          else l.sessd } := by
  simp only [step, hnext]

theorem step_work_none (hnext : l.events[l.taken]? = none) (reached : Bool)
    (loaded : Except SessionConfigError SessionConfig) :
    l.step os desktop waylandDisplay (.work reached loaded) = l := by
  simp only [step, hnext]

theorem take_succ {event : LauncherEvent} (hnext : l.events[l.taken]? = some event) :
    l.events.take (l.taken + 1) = l.events.take l.taken ++ [event] := by
  rw [List.take_add_one, hnext, Option.toList_some]

theorem running_step (h : l.Running) (next : LaunchStep S) :
    (l.step os desktop waylandDisplay next).Running := by
  cases next with
  | compositor event =>
    obtain ⟨created, hmirrors⟩ := h.mirrors
    exact ⟨⟨_, CalloopData.mirrors_applyEvent desktop hmirrors event⟩, (take_compositor h event).2⟩
  | client a => exact ⟨h.mirrors, h.taken_le⟩
  | work reached loaded =>
    cases hnext : l.events[l.taken]? with
    | none =>
      rw [step_work_none hnext]
      exact h
    | some event =>
      rw [step_work hnext]
      exact ⟨h.mirrors, (List.getElem?_eq_some_iff.mp hnext).1⟩

/-- **Step lemma**: the launcher stays linked while it is notified. -/
theorem Linked.step (h : l.Linked) (next : LaunchStep S) (hnext : l.Notified next) :
    (l.step os desktop waylandDisplay next).Linked := by
  have hrunning : (l.step os desktop waylandDisplay next).Running := running_step h.toRunning next
  cases next with
  | compositor event =>
    refine ⟨hrunning, h.tracked, h.accounted, fun token hmanages => ?_⟩
    exact (take_compositor h.toRunning event).1 ▸ h.awaited token hmanages
  | client a =>
    have hstepped := Sessd.stepped os l.sessd a
    refine ⟨hrunning, h.tracked.stepped hstepped, (h.tracked.accounted_iff hstepped).mpr
      ⟨h.accounted, ?_⟩, fun token hmanages => ?_⟩
    · unfold Sessd.ForgetsNone
      cases hrequest : a.request with
      | sessionRequested token display => exact absurd hrequest (hnext token display)
      | sessionAuthenticated | sessionLogout | listSessions | killSession => trivial
    · exact h.awaited token (Sessd.manages_of_not_requested hnext hmanages)
  | work reached loaded =>
    cases hevent : l.events[l.taken]? with
    | none =>
      rw [step_work_none hevent]
      exact h
    | some event =>
      rw [step_work hevent] at hrunning ⊢
      cases event with
      | sessionCreated token =>
        -- the session that is requested replaces none
        have hforgets : l.sessd.ForgetsNone ⟨.sessionRequested token waylandDisplay, loaded⟩ := by
          intro session hget
          exact absurd (h.awaited token ⟨session, hget⟩) (h.not_awaited hevent)
        have hawaited : ∀ token', token' = token ∨ l.sessd.Manages token' →
            Awaited token' (l.events.take (l.taken + 1)) := by
          intro token' hmanages
          rw [take_succ hevent]
          by_cases htoken : token' = token
          · exact (awaited_concat_of_eq (.sessionCreated token) htoken.symm).mpr (htoken ▸ rfl)
          · exact (awaited_concat_of_ne (.sessionCreated token) (Ne.symm htoken)).mpr
              (h.awaited token' (hmanages.resolve_left htoken))
        cases reached with
        | false => exact ⟨hrunning, h.tracked, h.accounted, fun token' hmanages =>
            hawaited token' (Or.inr hmanages)⟩
        | true =>
          have hstepped := Sessd.stepped os l.sessd ⟨.sessionRequested token waylandDisplay, loaded⟩
          exact ⟨hrunning, h.tracked.stepped hstepped,
            (h.tracked.accounted_iff hstepped).mpr ⟨h.accounted, hforgets⟩, fun token' hmanages =>
            hawaited token' ((Sessd.manages_requested _ _ _ _ loaded).mp hmanages)⟩
      | sessionDestroyed token sessionId =>
        cases reached with
        | false => exact absurd hevent (hnext rfl token sessionId)
        | true =>
          let ended : Sessd.Arrival := ⟨.sessionLogout token (.ofNat sessionId), loaded⟩
          have hends : Sessd.Ends token ended.request := rfl
          have hstepped := Sessd.stepped os l.sessd ended
          refine ⟨hrunning, h.tracked.stepped hstepped, (h.tracked.accounted_iff hstepped).mpr
            ⟨h.accounted, Sessd.forgetsNone_of_ends hends⟩, fun token' hmanages => ?_⟩
          have hgone : (l.sessd.step os ended).Manages token' ↔
              token' ≠ token ∧ l.sessd.Manages token' := Sessd.manages_ends hends token'
          obtain ⟨hother, hmanages⟩ := hgone.mp hmanages
          change Awaited token' (l.events.take (l.taken + 1))
          rw [take_succ hevent]
          exact (awaited_concat_of_ne (.sessionDestroyed token sessionId) (Ne.symm hother)).mpr
            (h.awaited token' hmanages)

theorem Faithful.notified {next : LaunchStep S} (h : l.Faithful next) : l.Notified next := by
  cases next with
  | compositor event => trivial
  | work reached loaded => exact fun hlost => absurd (h.symm.trans hlost) (by decide)
  | client a => exact h.1

/-- If nothing is lost, the launcher records all sessions that are awaited. -/
theorem manages_step (h : l.Running)
    (hall : ∀ token, Awaited token (l.events.take l.taken) → l.sessd.Manages token)
    (next : LaunchStep S) (hnext : l.Faithful next) (token : String)
    (hawaited : Awaited token ((l.step os desktop waylandDisplay next).events.take
      (l.step os desktop waylandDisplay next).taken)) :
    (l.step os desktop waylandDisplay next).sessd.Manages token := by
  cases next with
  | compositor event =>
    have htake : (l.step os desktop waylandDisplay (.compositor event)).events.take l.taken =
        l.events.take l.taken := (take_compositor h event).1
    exact hall token (htake ▸ hawaited)
  | client a => exact (Sessd.manages_other hnext.1 hnext.2 token).mpr (hall token hawaited)
  | work reached loaded =>
    obtain rfl : reached = true := hnext
    cases hevent : l.events[l.taken]? with
    | none =>
      rw [step_work_none hevent] at hawaited ⊢
      exact hall token hawaited
    | some event =>
      rw [step_work hevent] at hawaited ⊢
      change Awaited token (l.events.take (l.taken + 1)) at hawaited
      rw [take_succ hevent] at hawaited
      by_cases htoken : event.token = token
      · obtain rfl := (awaited_concat_of_eq _ htoken).mp hawaited
        exact (Sessd.manages_requested _ _ _ _ loaded).mpr (Or.inl rfl)
      · have hmanages := hall token ((awaited_concat_of_ne _ htoken).mp hawaited)
        cases event with
        | sessionCreated token' =>
          exact (Sessd.manages_requested _ _ _ _ loaded).mpr (Or.inr hmanages)
        | sessionDestroyed token' sessionId =>
          let ended : Sessd.Arrival := ⟨.sessionLogout token' (.ofNat sessionId), loaded⟩
          have hends : Sessd.Ends token' ended.request := rfl
          have hgone : (l.sessd.step os ended).Manages token ↔
              token ≠ token' ∧ l.sessd.Manages token := Sessd.manages_ends hends token
          exact hgone.mpr ⟨Ne.symm htoken, hmanages⟩

/-! ### Whole runs -/

section Runs

variable (os desktop waylandDisplay) (state : S) (frame : FrameState) (cluster : ClusterConfig)
  (peerRt : Bool) {stateDb : Option SessionTable} (clk : Clock)
  (find : Enumeration (SessionId × SessionRecord))

theorem linked_start (hempty : ∀ db, stateDb = some db → ∀ i,
    (SessionStore.sqlite (.openFile db)).liveRow i = none) :
    (start (CalloopData.boot state frame cluster peerRt true stateDb clk find)).Linked where
  mirrors := ⟨_, CalloopData.mirrors_boot state frame cluster peerRt clk find hempty⟩
  taken_le := Nat.zero_le _
  tracked := Sessd.tracked_new
  accounted child hchild := absurd hchild List.not_mem_nil
  awaited token hmanages := by
    obtain ⟨session, hget⟩ := hmanages
    exact absurd hget (by simp [start, Sessd.new, Launcher.new])

/-- **No orphans.**  The compositor runs, the worker sends its requests, and greeters and
administrators send theirs, in any order, from a start without sessions.  If no notice of a
session's end is lost, and nobody but the worker requests sessions, the launcher can account for
every process it has started, in every state: it has been killed or is recorded with a session.
Once the worker has caught up, each session recorded belongs to a token with a live session; and if
there is none, no process is left running. -/
theorem noOrphans_of_notified
    (hempty : ∀ db, stateDb = some db → ∀ i, (SessionStore.sqlite (.openFile db)).liveRow i = none)
    (steps : List (LaunchStep S)) :
    let boot := start (CalloopData.boot state frame cluster peerRt true stateDb clk find)
    let l := steps.foldl (step os desktop waylandDisplay) boot
    Along (step os desktop waylandDisplay) Notified boot steps →
      l.sessd.NoOrphans ∧
        (l.taken = l.events.length →
          (∀ token, l.sessd.Manages token →
            ∃ id, l.compositor.sessionRegistry.Carries id token) ∧
          ((∀ token id, ¬l.compositor.sessionRegistry.Carries id token) →
            l.sessd.NoneRunning)) := by
  intro boot l h
  have hlinked : l.Linked := h.invariant (fun l next hlinked hnext => hlinked.step next hnext)
    (linked_start state frame cluster peerRt clk find hempty)
  have horphans := Sessd.noOrphans_iff_accounted.mpr hlinked.accounted
  refine ⟨horphans, fun htaken => ?_⟩
  have hlive : ∀ token, l.sessd.Manages token →
      ∃ id, l.compositor.sessionRegistry.Carries id token := fun token hmanages =>
    (hlinked.awaited_iff htaken token).mp (hlinked.awaited token hmanages)
  refine ⟨hlive, fun hnone child hchild => ?_⟩
  by_contra hkilled
  obtain ⟨token, session, hget, -⟩ := horphans child hchild hkilled
  obtain ⟨id, hcarries⟩ := hlive token ⟨session, hget⟩
  exact hnone token id hcarries

/-- A session comes, its user logs in, and it expires: every process is killed in the end. -/
def visit : List (LaunchStep Unit) :=
  (CalloopData.cameAndLeft.map .compositor) ++
    [.work true (.ok .default), .client ⟨.sessionAuthenticated "t" "alice", .ok .default⟩,
      .compositor (.cleanup CalloopData.dayAfter CalloopData.dayAfter), .work true (.ok .default)]

theorem noOrphans_of_notified_visit :
    let l := visit.foldl (step (fun _ => none) CalloopData.nullDesktop "wayland-1")
      (start (CalloopData.boot () ⟨[], 0, false, 0⟩ ⟨"", "", []⟩ false true none ⟨0, 0⟩ .stored))
    l.sessd.spawned.length = 2 ∧ l.sessd.NoneRunning := by
  refine ⟨by decide, ?_⟩
  have hnone : (visit.foldl (step (fun _ => none) CalloopData.nullDesktop "wayland-1")
      (start (CalloopData.boot () ⟨[], 0, false, 0⟩ ⟨"", "", []⟩ false true none ⟨0, 0⟩
        .stored))).compositor.sessionRegistry.sessions.values = [] := by decide
  have h := noOrphans_of_notified (fun _ => none) CalloopData.nullDesktop "wayland-1" ()
    ⟨[], 0, false, 0⟩ ⟨"", "", []⟩ false ⟨0, 0⟩ .stored
    (fun db hdb => absurd hdb.symm (Option.some_ne_none db)) visit ?_
  · refine (h.2 (by decide)).2 ?_
    rintro token id ⟨session, ⟨hget, -⟩, -⟩
    exact absurd (HashMap.mem_values.mpr ⟨id, hget⟩) (by simp [hnone])
  · exact ⟨trivial, trivial, fun hlost => absurd hlost (by decide), fun token display => by simp,
      trivial, fun hlost => absurd hlost (by decide), trivial⟩

/-- **The launcher follows the compositor.**  If moreover no creation is lost, and nobody but the
worker ends sessions, a session is recorded for a token exactly while the last event delivered for
it is a creation; and once the worker has caught up, exactly if the token has a live session. -/
theorem manages_iff_of_faithful
    (hempty : ∀ db, stateDb = some db → ∀ i, (SessionStore.sqlite (.openFile db)).liveRow i = none)
    (steps : List (LaunchStep S)) :
    let boot := start (CalloopData.boot state frame cluster peerRt true stateDb clk find)
    let l := steps.foldl (step os desktop waylandDisplay) boot
    Along (step os desktop waylandDisplay) Faithful boot steps → ∀ token,
      (l.sessd.Manages token ↔ Awaited token (l.events.take l.taken)) ∧
        (l.taken = l.events.length → (l.sessd.Manages token ↔
          ∃ id, l.compositor.sessionRegistry.Carries id token)) := by
  intro boot l h token
  have hstep : ∀ (l : LaunchSystem S) next,
      (l.Linked ∧ ∀ token, Awaited token (l.events.take l.taken) → l.sessd.Manages token) →
      l.Faithful next → (l.step os desktop waylandDisplay next).Linked ∧ ∀ token,
        Awaited token ((l.step os desktop waylandDisplay next).events.take
          (l.step os desktop waylandDisplay next).taken) →
        (l.step os desktop waylandDisplay next).sessd.Manages token := fun l next hl hnext =>
    ⟨hl.1.step next hnext.notified, manages_step hl.1.toRunning hl.2 next hnext⟩
  have hboot : ∀ token, Awaited token (boot.events.take boot.taken) → boot.sessd.Manages token :=
    fun token hawaited => absurd hawaited (by simp [Awaited, boot, start])
  obtain ⟨hlinked, hall⟩ := h.invariant hstep
    ⟨linked_start state frame cluster peerRt clk find hempty, hboot⟩
  have hiff : l.sessd.Manages token ↔ Awaited token (l.events.take l.taken) :=
    ⟨hlinked.awaited token, hall token⟩
  exact ⟨hiff, fun htaken => hiff.trans (hlinked.awaited_iff htaken token)⟩

/-- While the session lives, the launcher records it. -/
theorem manages_iff_of_faithful_visit :
    ((visit.take 3).foldl (step (fun _ => none) CalloopData.nullDesktop "wayland-1")
      (start (CalloopData.boot () ⟨[], 0, false, 0⟩ ⟨"", "", []⟩ false true none ⟨0, 0⟩
        .stored))).sessd.Manages "t" := by
  have h := manages_iff_of_faithful (fun _ => none) CalloopData.nullDesktop "wayland-1" ()
    ⟨[], 0, false, 0⟩ ⟨"", "", []⟩ false ⟨0, 0⟩ .stored
    (fun db hdb => absurd hdb.symm (Option.some_ne_none db)) (visit.take 3) ?_ "t"
  · exact h.1.mpr (by unfold Awaited; decide)
  · exact ⟨trivial, trivial, rfl, trivial⟩

end Runs

end LaunchSystem

end WayRay
