import WayRay.Desktop.Frames
import WayRay.Wm.Workspaces

/-!
# Workspace visibility

Workspaces, tags and outputs say which windows can be seen, and each frame is meant to bring the
arrangement in line with them.  `HidesInvisible` says that no window is mapped that they hide.

Both sides are read off the events of a run.  `changes` are the changes that its requests make to
the workspace state, so that `History.Visible` says which windows can be seen.  `Shown` says which
windows are mapped: a frame decides about that only while no external WM is connected
(`mem_elements_run_iff`).  A frame under an external WM leaves the windows as they are, and so hides
nothing (`visibility_recomputed_iff`).
-/

namespace WayRay

/-! ### Changes of the workspace state -/

namespace WmProtocolState

/-- The change that an event makes to the workspace state.  A request for an object that stands for
no window makes none. -/
def workspaceChange (s : WmProtocolState) : WmEvent → Option WorkspaceChange
  | .windowRequest id (.setOutput outputName) => some (.setWindowOutput id outputName)
  | .workspaceRequest _ (.createWorkspace name) => some (.createWorkspace name)
  | .workspaceRequest _ (.destroyWorkspace name) => some (.destroyWorkspace name)
  | .workspaceRequest _ (.setActiveWorkspace outputName workspaceName) =>
    some (.setActiveWorkspace outputName workspaceName)
  | .workspaceRequest _ (.assignWindow window workspaceName) =>
    (s.windowIdForResource window).map fun id => .assignWindow id workspaceName
  | .workspaceRequest _ (.setWindowTags window tags) =>
    (s.windowIdForResource window).map fun id => .setWindowTags id tags
  | .workspaceRequest _ (.setActiveTags outputName tags) => some (.setActiveTags outputName tags)
  | _ => none

theorem workspace_announce (s : WmProtocolState) (manager : ObjectId) (window : WindowSnapshot)
    (object : Option ObjectId) : (s.announce manager window object).workspace = s.workspace := by
  cases object <;> rfl

theorem workspace_notifyNewWindow (s : WmProtocolState) (window : WindowSnapshot)
    (object : Option ObjectId) : (s.notifyNewWindow window object).workspace = s.workspace := by
  unfold notifyNewWindow
  cases s.wmClient with
  | none => rfl
  | some manager => exact s.workspace_announce manager window object

theorem workspace_notifyWindowClosed (s : WmProtocolState) (id : WindowId) :
    (s.notifyWindowClosed id).workspace = s.workspace := by
  unfold notifyWindowClosed
  dsimp only
  split <;> rfl

theorem workspace_startManagePhase (s : WmProtocolState) :
    s.startManagePhase.workspace = s.workspace := by
  unfold startManagePhase
  cases s.wmClient <;> rfl

theorem workspace_renderPhase (s : WmProtocolState) :
    s.renderPhase.2.workspace = s.workspace := by
  unfold renderPhase startRenderPhase
  cases hclient : s.wmClient <;> simp [isWmConnected, hclient, takeRenderCommands, send]

theorem workspace_bind (s : WmProtocolState) (manager : ObjectId)
    (outputs : List (String × ℤ × ℤ)) (existing : List (WindowSnapshot × Option ObjectId)) :
    (s.bind manager outputs existing).workspace = s.workspace := by
  unfold bind
  dsimp only
  refine List.foldlRecOn (motive := fun s' : WmProtocolState => s'.workspace = s.workspace)
    existing _ ?_ fun s' hs' entry _ => (s'.workspace_announce manager _ _).trans hs'
  cases s.wmClient <;> rfl

/-- **An event changes the workspace state as said.** -/
theorem workspace_step (s : WmProtocolState) (event : WmEvent) :
    (s.step event).workspace =
      (s.workspaceChange event).toList.foldl WorkspaceState.apply s.workspace := by
  cases event with
  | bind manager outputs existing => exact s.workspace_bind manager outputs existing
  | managerRequest request => cases request <;> rfl
  | managerDestroyed manager =>
    simp only [step, managerDestroyed]
    split_ifs <;> rfl
  | windowRequest id request =>
    simp only [step, windowRequest]
    cases hrender : s.renderRequest request with
    | some render => cases request <;> first | rfl | exact absurd hrender nofun
    | none =>
      cases request with
      | setBorders red green blue alpha width =>
        dsimp only
        cases BorderSpec.fromProtocol red green blue alpha width <;> rfl
      | _ => rfl
  | windowDestroyed id => rfl
  | seatRequest seat request => cases request <;> rfl
  | workspaceRequest resource request =>
    cases request with
    | assignWindow window workspaceName | setWindowTags window tags =>
      simp only [step, workspaceRequest, workspaceChange]
      cases s.windowIdForResource window <;> rfl
    | _ => rfl
  | newWindow window object => exact s.workspace_notifyNewWindow window object
  | windowClosed id => exact s.workspace_notifyWindowClosed id
  | managePhase => exact s.workspace_startManagePhase
  | tick => exact s.workspace_renderPhase

end WmProtocolState

namespace DesktopState

variable {P : Type} (ops : StackedSpace P) (d : DesktopState P)

def workspaceChange : DesktopEvent P → Option WorkspaceChange
  | .user _ => none
  | .wm event => d.protocol.bind fun proto => proto.workspaceChange event

/-- The changes that the requests of a run make to the workspace state. -/
def changes : DesktopState P → List (DesktopEvent P) → List WorkspaceChange
  | _, [] => []
  | d, event :: events => (d.workspaceChange event).toList ++ changes (d.frameStep ops event) events

theorem changes_concat (events : List (DesktopEvent P)) (event : DesktopEvent P) :
    d.changes ops (events ++ [event]) =
      d.changes ops events ++
        ((events.foldl (frameStep ops) d).workspaceChange event).toList := by
  induction events generalizing d with
  | nil => exact List.append_nil _
  | cons e events ih =>
    rw [List.cons_append, changes, ih, changes, List.append_assoc, List.foldl_cons]

/-- The protocol server is there, with the workspace state of a history of changes. -/
def Recorded (history : List WorkspaceChange) : Prop :=
  ∃ proto, d.protocol = some proto ∧ proto.workspace = WorkspaceState.run history

/-! ### What input leaves as it is -/

/-- The protocol state stays as it is, and the same windows are mapped. -/
structure SameScreen (d d' : DesktopState P) : Prop where
  protocol : d'.protocol = d.protocol
  mem_elements : ∀ window, window ∈ ops.elements d'.space ↔ window ∈ ops.elements d.space

variable {ops d}

theorem mem_raiseElement (window other : Surface) (space : P) :
    other ∈ ops.elements (ops.raiseElement window space) ↔ other ∈ ops.elements space := by
  rw [← ops.isSome_location, ops.location_raiseElement, ops.isSome_location]

variable (ops d)

theorem SameScreen.refl : SameScreen ops d d := ⟨rfl, fun _ => Iff.rfl⟩

theorem sameScreen_performShortcut (keycode : UInt32) :
    SameScreen ops d (d.performShortcut ops.toSpaceOps keycode) := by
  unfold performShortcut
  cases d.focusedWindow with
  | none => exact .refl ops d
  | some window =>
    dsimp only
    split_ifs
    · exact ⟨rfl, fun _ => Iff.rfl⟩
    · exact ⟨rfl, fun other => mem_raiseElement window other d.space⟩
    · exact ⟨rfl, fun _ => Iff.rfl⟩
    · exact .refl ops d

theorem sameScreen_injectNetworkInput (h : d.Managed) (msg : InputMessage) :
    SameScreen ops d (d.injectNetworkInput ops.toSpaceOps msg) := by
  cases msg with
  | pointerMotion ev | pointerAxis ev => exact ⟨rfl, fun _ => Iff.rfl⟩
  | pointerButton ev =>
    simp only [injectNetworkInput, injectButton]
    cases ev.state with
    | released => exact ⟨rfl, fun _ => Iff.rfl⟩
    | pressed =>
      rcases d.clickToFocus_cases ops.toSpaceOps h with hclick | ⟨id, window, -, hclick⟩
      · rw [hclick]
        exact ⟨rfl, fun _ => Iff.rfl⟩
      · rw [hclick]
        exact ⟨rfl, fun other => mem_raiseElement window other d.space⟩
  | keyboard ev =>
    simp only [injectNetworkInput]
    rcases d.injectKeyboard_cases ops.toSpaceOps ev with ⟨-, _, hev⟩ | ⟨-, -, hev⟩ | ⟨-, hev⟩
    · rw [hev]
      exact ⟨rfl, fun _ => Iff.rfl⟩
    · rw [hev]
      obtain ⟨hprotocol, hmem⟩ := sameScreen_performShortcut ops { d with
        modifiers := d.modifiersAfter ev
        builtin := (d.builtin.onKeyBinding ev.keycode (d.modifiersAfter ev).mask).2 } ev.keycode
      exact ⟨hprotocol, hmem⟩
    · rw [hev]
      exact ⟨rfl, fun _ => Iff.rfl⟩

/-- The requests of a window manager leave the mapped windows mapped. -/
theorem mem_elements_wmStep (event : WmEvent) (window : Surface) :
    window ∈ ops.elements (d.wmStep ops.toSpaceOps event).space ↔
      window ∈ ops.elements d.space := by
  cases event with
  | windowRequest id request =>
    change window ∈ ops.elements (d.windowAction ops.toSpaceOps id request).space ↔ _
    unfold windowAction
    cases d.windowForId id with
    | none => exact Iff.rfl
    | some raised =>
      cases request with
      | setFocus => exact mem_raiseElement raised window d.space
      | _ => exact Iff.rfl
  | _ => exact Iff.rfl

/-- A window that is closed leaves the others mapped. -/
theorem mem_elements_toplevelDestroyed {surface window : Surface} (hne : window ≠ surface) :
    window ∈ ops.elements (d.toplevelDestroyed ops.toSpaceOps surface).space ↔
      window ∈ ops.elements d.space := by
  unfold toplevelDestroyed
  cases hfind : d.windowIds.find? fun entry => entry.2 = surface with
  | none => exact Iff.rfl
  | some entry =>
    obtain rfl : entry.2 = surface := by simpa using List.find?_some hfind
    dsimp only
    rw [ops.elements_unmapElem, Recency.touch, if_neg Bool.false_ne_true,
      List.mem_erase_of_ne hne]

/-! ### The workspace state over runs -/

/-- A new or a closed window changes nothing about the workspaces. -/
theorem workspace_userStep (h : d.Managed) {proto : WmProtocolState}
    (hprotocol : d.protocol = some proto) (event : UserEvent P) :
    ∃ proto', (d.userStep ops.toSpaceOps event).protocol = some proto' ∧
      proto'.workspace = proto.workspace := by
  cases event with
  | input msg =>
    exact ⟨proto, (sameScreen_injectNetworkInput ops d h msg).protocol.trans hprotocol, rfl⟩
  | newToplevel object =>
    refine ⟨_, congrArg (Option.map _) hprotocol, ?_⟩
    dsimp only
    split_ifs
    · rw [WmProtocolState.workspace_startManagePhase, WmProtocolState.workspace_notifyNewWindow]
    · rfl
  | toplevelDestroyed surface =>
    simp only [userStep, toplevelDestroyed]
    cases d.windowIds.find? fun entry => entry.2 = surface with
    | none => exact ⟨proto, hprotocol, rfl⟩
    | some entry =>
      refine ⟨_, congrArg (Option.map _) hprotocol, ?_⟩
      dsimp only
      split_ifs
      · exact proto.workspace_notifyWindowClosed entry.1
      · rfl
  | arranged space => exact ⟨proto, hprotocol, rfl⟩

/-- So does a frame. -/
theorem workspace_renderFrame {proto : WmProtocolState} (hprotocol : d.protocol = some proto) :
    ∃ proto', (d.renderFrame ops).protocol = some proto' ∧
      proto'.workspace = proto.workspace := by
  cases hclient : proto.wmClient with
  | none =>
    have hconnected : d.wmConnected = false := by
      rw [wmConnected, hprotocol, Option.any_some, WmProtocolState.isWmConnected, hclient]
      rfl
    rw [renderFrame_of_not_connected hconnected]
    exact ⟨proto, hprotocol, rfl⟩
  | some manager =>
    rw [renderFrame_of_connected hprotocol hclient]
    exact ⟨_, rfl, rfl⟩

variable {d}

/-- A step records the change that it makes. -/
theorem Recorded.frameStep {history : List WorkspaceChange} (hrecorded : d.Recorded history)
    (h : d.Managed) (event : DesktopEvent P) :
    (d.frameStep ops event).Recorded (history ++ (d.workspaceChange event).toList) := by
  obtain ⟨proto, hprotocol, hworkspace⟩ := hrecorded
  have hrun : WorkspaceState.run (history ++ (d.workspaceChange event).toList) =
      (d.workspaceChange event).toList.foldl WorkspaceState.apply proto.workspace := by
    rw [WorkspaceState.run, List.foldl_append, ← WorkspaceState.run, hworkspace]
  rw [Recorded, hrun]
  cases event with
  | user event => exact workspace_userStep ops d h hprotocol event
  | wm event =>
    by_cases htick : event = .tick
    · subst htick
      have hnone : d.workspaceChange (.wm .tick) = none := by
        rw [workspaceChange, hprotocol]
        rfl
      rw [hnone]
      exact workspace_renderFrame ops d hprotocol
    · rw [frameStep_wm htick]
      refine ⟨proto.step event, ?_, ?_⟩
      · rw [protocol_wmStep, hprotocol, Option.map_some]
      · rw [workspaceChange, hprotocol]
        exact proto.workspace_step event

/-- **The changes of a run are those of its workspace state.** -/
theorem Recorded.run {d : DesktopState P} (hrecorded : d.Recorded []) (h : d.Tracked)
    (events : List (DesktopEvent P)) :
    (events.foldl (DesktopState.frameStep ops) d).Recorded (d.changes ops events) := by
  induction events using List.reverseRecOn with
  | nil => exact hrecorded
  | append_singleton events event ih =>
    rw [List.foldl_append, changes_concat]
    exact ih.frameStep ops (h.run events).managed event

theorem Recorded.workspaceVisible_iff {history : List WorkspaceChange} (h : d.Recorded history)
    (id : WindowId) :
    d.workspaceVisible id = true ↔ History.Visible history id defaultOutput := by
  obtain ⟨proto, hprotocol, hworkspace⟩ := h
  rw [workspaceVisible, hprotocol]
  dsimp only
  rw [hworkspace, WorkspaceState.isVisible_run]

/-! ### Which windows are mapped -/

/-- The event decides anew which of the open windows are mapped. -/
def Decides (d : DesktopState P) : DesktopEvent P → Prop
  | .user (.arranged _) => True
  | .wm .tick => d.wmConnected = false
  | _ => False

/-- The history of a run from `d` shows the window, if it is open: the window has been created, or
rearranged on the screen, or a frame without an external WM has found it visible; and nothing has
been decided since. -/
inductive Shown (ops : StackedSpace P) (d : DesktopState P) :
    List (DesktopEvent P) → WindowId × Surface → Prop
  | created (events : List (DesktopEvent P)) (object : Option ObjectId) :
    Shown ops d (events ++ [.user (.newToplevel object)])
      (⟨(events.foldl (frameStep ops) d).nextWindowId⟩,
        ⟨(events.foldl (frameStep ops) d).surfaces⟩)
  | arranged (events : List (DesktopEvent P)) {space : P} {entry : WindowId × Surface} :
    entry.2 ∈ ops.elements space → Shown ops d (events ++ [.user (.arranged space)]) entry
  | framed {events : List (DesktopEvent P)} {entry : WindowId × Surface} :
    (events.foldl (frameStep ops) d).wmConnected = false →
    History.Visible (d.changes ops events) entry.1 defaultOutput →
    Shown ops d (events ++ [.wm .tick]) entry
  | kept {events : List (DesktopEvent P)} {event : DesktopEvent P} {entry : WindowId × Surface} :
    Shown ops d events entry → ¬ (events.foldl (frameStep ops) d).Decides event →
    Shown ops d (events ++ [event]) entry

variable {ops}

theorem shown_concat {events : List (DesktopEvent P)} {event : DesktopEvent P}
    {entry : WindowId × Surface} :
    Shown ops d (events ++ [event]) entry ↔
      (∃ object, event = .user (.newToplevel object) ∧
        entry = (⟨(events.foldl (frameStep ops) d).nextWindowId⟩,
          ⟨(events.foldl (frameStep ops) d).surfaces⟩)) ∨
      (∃ space, event = .user (.arranged space) ∧ entry.2 ∈ ops.elements space) ∨
      (event = .wm .tick ∧ (events.foldl (frameStep ops) d).wmConnected = false ∧
        History.Visible (d.changes ops events) entry.1 defaultOutput) ∨
      Shown ops d events entry ∧ ¬ (events.foldl (frameStep ops) d).Decides event := by
  constructor
  · intro h
    generalize hfull : events ++ [event] = full at h
    cases h with
    | created events' object =>
      obtain ⟨rfl, he⟩ := List.append_inj' hfull rfl
      exact .inl ⟨object, List.head_eq_of_cons_eq he, rfl⟩
    | arranged events' hmem =>
      obtain ⟨-, he⟩ := List.append_inj' hfull rfl
      exact .inr (.inl ⟨_, List.head_eq_of_cons_eq he, hmem⟩)
    | framed hconnected hvisible =>
      obtain ⟨rfl, he⟩ := List.append_inj' hfull rfl
      exact .inr (.inr (.inl ⟨List.head_eq_of_cons_eq he, hconnected, hvisible⟩))
    | kept hshown hdecides =>
      obtain ⟨rfl, he⟩ := List.append_inj' hfull rfl
      obtain rfl := List.head_eq_of_cons_eq he
      exact .inr (.inr (.inr ⟨hshown, hdecides⟩))
  · rintro (⟨object, rfl, rfl⟩ | ⟨space, rfl, hmem⟩ | ⟨rfl, hconnected, hvisible⟩ |
      ⟨hshown, hdecides⟩)
    · exact .created events object
    · exact .arranged events hmem
    · exact .framed hconnected hvisible
    · exact .kept hshown hdecides

/-- A new window is mapped, above the others. -/
theorem elements_newToplevel (d : DesktopState P) (object : Option ObjectId) :
    ops.elements (d.frameStep ops (.user (.newToplevel object))).space =
      Recency.touch (ops.elements d.space) (⟨d.surfaces⟩, true) :=
  ops.elements_mapElement _ _ _

/-- A window that is open after a step has been open before, or has just been created. -/
theorem mem_windowIds_frameStep {event : DesktopEvent P} {entry : WindowId × Surface}
    (h : d.Managed) (hentry : entry ∈ (d.frameStep ops event).windowIds) :
    entry ∈ d.windowIds ∨ ∃ object, event = .user (.newToplevel object) ∧
      entry = (⟨d.nextWindowId⟩, ⟨d.surfaces⟩) := by
  cases event with
  | wm event =>
    left
    by_cases htick : event = .tick
    · subst htick
      rwa [← (d.sameWm_renderFrame ops).windowIds]
    · rw [frameStep_wm htick] at hentry
      rwa [← (d.sameWm_wmStep ops.toSpaceOps event).windowIds]
  | user event =>
    cases event with
    | input msg =>
      exact .inl ((d.sameWindows_injectNetworkInput ops.toSpaceOps h msg).windowIds ▸ hentry)
    | newToplevel object =>
      rcases List.mem_append.mp hentry with hold | hnew
      · exact .inl hold
      · exact .inr ⟨object, rfl, List.mem_singleton.mp hnew⟩
    | toplevelDestroyed surface =>
      left
      rcases d.toplevelDestroyed_cases ops.toSpaceOps surface with ⟨-, hd⟩ | ⟨id, before, after, hc⟩
      · rw [frameStep_user, userStep, hd] at hentry
        exact hentry
      · exact hc.sublist.subset hentry
    | arranged space => exact .inl hentry

/-- A window that stays open stays mapped or unmapped where nothing is decided. -/
theorem mem_elements_frameStep (h : d.Tracked) {event : DesktopEvent P}
    (hdecides : ¬ d.Decides event) {entry : WindowId × Surface} (hopen : entry ∈ d.windowIds)
    (hentry : entry ∈ (d.frameStep ops event).windowIds) :
    entry.2 ∈ ops.elements (d.frameStep ops event).space ↔ entry.2 ∈ ops.elements d.space := by
  cases event with
  | wm event =>
    by_cases htick : event = .tick
    · subst htick
      have hconnected : d.wmConnected = true := Bool.not_eq_false _ ▸ hdecides
      obtain ⟨proto, hprotocol, hbound⟩ := (Option.any_eq_true _ _).mp hconnected
      obtain ⟨manager, hclient⟩ := Option.isSome_iff_exists.mp hbound
      rw [frameStep, renderFrame_of_connected hprotocol hclient]
    · rw [frameStep_wm htick]
      exact mem_elements_wmStep ops d event entry.2
  | user event =>
    cases event with
    | input msg => exact (sameScreen_injectNetworkInput ops d h.managed msg).mem_elements entry.2
    | newToplevel object =>
      have hne : entry.2 ≠ ⟨d.surfaces⟩ := fun heq =>
        Nat.lt_irrefl _ (congrArg Surface.raw heq ▸ h.managed.surfaces_lt entry hopen)
      rw [elements_newToplevel, Recency.touch, if_pos rfl, List.mem_append, List.mem_singleton,
        List.mem_erase_of_ne hne]
      exact or_iff_left hne
    | toplevelDestroyed surface =>
      refine mem_elements_toplevelDestroyed ops d ?_
      rcases d.toplevelDestroyed_cases ops.toSpaceOps surface with ⟨hnone, -⟩ | ⟨id, _, _, hc⟩
      · exact hnone entry hopen
      · exact ne_of_mem_of_not_mem (List.mem_map_of_mem hentry) (hc.notMem_windows h.managed)
    | arranged space => exact absurd trivial hdecides

/-- What an event decides about the windows that are open. -/
theorem mem_elements_of_decides (h : d.Tracked) {history : List WorkspaceChange}
    (hrecorded : d.Recorded history) {event : DesktopEvent P} (hdecides : d.Decides event)
    {entry : WindowId × Surface} (hopen : entry ∈ d.windowIds) :
    entry.2 ∈ ops.elements (d.frameStep ops event).space ↔
      (∃ space, event = .user (.arranged space) ∧ entry.2 ∈ ops.elements space) ∨
      event = .wm .tick ∧ d.wmConnected = false ∧
        History.Visible history entry.1 defaultOutput := by
  cases event with
  | user event =>
    cases event with
    | arranged space =>
      constructor
      · exact fun hmem => .inl ⟨space, rfl, hmem⟩
      · rintro (⟨_, heq, hmem⟩ | ⟨htick, -⟩)
        · cases heq
          exact hmem
        · exact absurd htick nofun
    | _ => exact hdecides.elim
  | wm event =>
    cases event with
    | tick =>
      have hconnected : d.wmConnected = false := hdecides
      rw [frameStep, renderFrame_of_not_connected hconnected,
        mem_elements_applyWmRenderCommands h hopen, hrecorded.workspaceVisible_iff]
      constructor
      · exact fun hvisible => .inr ⟨rfl, hconnected, hvisible⟩
      · rintro (⟨_, htick, -⟩ | ⟨-, -, hvisible⟩)
        · exact absurd htick nofun
        · exact hvisible
    | _ => exact hdecides.elim

/-- **The history shows the mapped windows.** -/
theorem mem_elements_run_iff (h : d.Tracked) (hrecorded : d.Recorded [])
    (hclosed : d.windowIds = []) (events : List (DesktopEvent P)) {entry : WindowId × Surface}
    (hentry : entry ∈ (events.foldl (frameStep ops) d).windowIds) :
    entry.2 ∈ ops.elements (events.foldl (frameStep ops) d).space ↔
      Shown ops d events entry := by
  induction events using List.reverseRecOn generalizing entry with
  | nil =>
    rw [List.foldl_nil, hclosed] at hentry
    exact absurd hentry List.not_mem_nil
  | append_singleton events event ih =>
    have htracked : (events.foldl (frameStep ops) d).Tracked := h.run events
    have hchanges := hrecorded.run ops h events
    rw [shown_concat]
    rw [List.foldl_append, List.foldl_cons, List.foldl_nil] at hentry ⊢
    generalize events.foldl (frameStep ops) d = d' at htracked hchanges hentry ih ⊢
    rcases mem_windowIds_frameStep htracked.managed hentry with hopen | ⟨object, rfl, rfl⟩
    · have hold : entry ≠ (⟨d'.nextWindowId⟩, ⟨d'.surfaces⟩) := fun heq =>
        Nat.lt_irrefl _ (heq ▸ htracked.managed.ids_lt entry hopen)
      rw [or_iff_right fun hnew => hold hnew.choose_spec.2]
      by_cases hdecides : d'.Decides event
      · rw [mem_elements_of_decides htracked hchanges hdecides hopen]
        exact or_congr_right (or_iff_left fun hkept => hkept.2 hdecides).symm
      · rw [mem_elements_frameStep htracked hdecides hopen hentry, ih hopen]
        constructor
        · exact fun hshown => .inr (.inr ⟨hshown, hdecides⟩)
        · rintro (⟨space, rfl, -⟩ | ⟨rfl, hconnected, -⟩ | ⟨hshown, -⟩)
          · exact absurd trivial hdecides
          · exact absurd hconnected hdecides
          · exact hshown
    · refine iff_of_true ?_ (.inl ⟨object, rfl, rfl⟩)
      rw [elements_newToplevel, Recency.touch, if_pos rfl]
      exact List.mem_append_right _ List.mem_cons_self

/-! ### Visibility -/

/-- No window is mapped that the workspace state hides. -/
def HidesInvisible (ops : StackedSpace P) (d : DesktopState P) : Prop :=
  ∀ entry ∈ d.windowIds, d.workspaceVisible entry.1 = false → entry.2 ∉ ops.elements d.space

/-- A frame under an external WM leaves things as they are, any other one hides what is
invisible. -/
theorem hidesInvisible_renderFrame_iff (h : d.Tracked) :
    (d.renderFrame ops).HidesInvisible ops ↔
      (d.wmConnected = true → d.HidesInvisible ops) := by
  cases hconnected : d.wmConnected with
  | false =>
    rw [renderFrame_of_not_connected hconnected]
    refine iff_of_true (fun entry hentry hinvisible hmapped => ?_) nofun
    have hvisible := (mem_elements_applyWmRenderCommands h hentry).mp hmapped
    exact Bool.false_ne_true (hinvisible.symm.trans hvisible)
  | true =>
    rw [forall_prop_of_true rfl]
    obtain ⟨proto, hprotocol, hbound⟩ := (Option.any_eq_true _ _).mp hconnected
    obtain ⟨manager, hclient⟩ := Option.isSome_iff_exists.mp hbound
    rw [renderFrame_of_connected hprotocol hclient]
    refine forall₂_congr fun entry _ => ?_
    unfold workspaceVisible
    rw [hprotocol]

/-- **Visibility over runs with frames.**  After every frame no window is mapped that the workspace
state hides, if and only if, at every frame with an external WM connected, the requests so far leave
every open window visible that the history shows. -/
theorem visibility_recomputed_iff (space : P) (output : ℤ × ℤ) (events : List (DesktopEvent P)) :
    (∀ before, before ++ [.wm .tick] <+: events →
      ((before ++ [.wm .tick]).foldl (frameStep ops)
        (start space output (some .new))).HidesInvisible ops) ↔
    ∀ before, before ++ [.wm .tick] <+: events →
      let first := start space output (some .new)
      let d := before.foldl (frameStep ops) first
      d.wmConnected = true → ∀ entry ∈ d.windowIds, Shown ops first before entry →
        History.Visible (first.changes ops before) entry.1 defaultOutput := by
  have htracked := tracked_start space output (some .new)
  have hrecorded : (start space output (some .new)).Recorded [] := ⟨.new, rfl, rfl⟩
  refine forall₂_congr fun before _ => ?_
  have hchanges := hrecorded.run ops htracked before
  rw [List.foldl_append]
  refine (hidesInvisible_renderFrame_iff (htracked.run before)).trans
    (imp_congr_right fun _ => ?_)
  refine forall₂_congr fun entry hentry => ?_
  rw [← mem_elements_run_iff htracked hrecorded rfl before hentry,
    ← hchanges.workspaceVisible_iff, ← Bool.not_eq_true, not_imp_not]

/-- A window manager assigns the only window to a workspace and activates another one. -/
theorem other_workspace_mapped :
    ¬ ∀ events : List (DesktopEvent PlacedWindows),
      ((events ++ [DesktopEvent.wm .tick]).foldl (frameStep placedWindows)
        (start .empty (1000, 800) (some .new))).HidesInvisible placedWindows := by
  intro h
  have hhidden := h [.user (.newToplevel none),
    .wm (.bind ⟨1⟩ [] [(⟨⟨1⟩, none, none, 800, 600⟩, some ⟨2⟩)]),
    .wm (.workspaceRequest ⟨3⟩ (.assignWindow ⟨2⟩ "mail")),
    .wm (.workspaceRequest ⟨3⟩ (.setActiveWorkspace defaultOutput "web"))]
  unfold HidesInvisible at hhidden
  exact absurd hhidden (by decide +kernel)

end DesktopState

end WayRay
