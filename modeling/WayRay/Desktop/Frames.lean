import WayRay.Desktop.Render

/-!
# Frames

A frame applies the commands of the window manager.  With an external WM connected these are none,
since a frame clears the commands before it takes them (`renderFrame_of_connected`).  Any other
frame applies those of the built-in WM.  It shows every window it manages, so such a frame maps just
the windows that the workspace state lets be seen (`mem_elements_applyWmRenderCommands`).

`Tracked` says that the built-in WM manages and shows all windows, which every run keeps
(`Tracked.run`).
-/

namespace WayRay

/-! ### The windows of the built-in WM -/

namespace BuiltinFloatingWm

variable {wm wm' wm'' : BuiltinFloatingWm}

/-- The built-in WM manages the window, and shows it. -/
def ShowsWindow (wm : BuiltinFloatingWm) (id : WindowId) : Prop :=
  (wm.windows.get id).map WindowState.visible = some true

theorem ShowsWindow.of_sameWindows {id : WindowId} (h : wm.ShowsWindow id)
    (hsame : SameWindows wm wm') : wm'.ShowsWindow id :=
  (hsame id).trans h

end BuiltinFloatingWm

namespace DesktopState

open BuiltinFloatingWm

variable {P : Type} {ops : StackedSpace P} {d : DesktopState P}

/-! ### Known windows -/

/-- The built-in WM shows every window. -/
def Known (d : DesktopState P) : Prop := ∀ entry ∈ d.windowIds, d.builtin.ShowsWindow entry.1

theorem Known.of_sameWindows {d' : DesktopState P} (h : d.Known)
    (hwindows : d'.windowIds = d.windowIds)
    (hsame : BuiltinFloatingWm.SameWindows d.builtin d'.builtin) : d'.Known := by
  intro entry hentry
  rw [hwindows] at hentry
  exact (h entry hentry).of_sameWindows hsame

theorem Known.of_sameWm {d' : DesktopState P} (h : d.Known) (hsame : SameWm d d') : d'.Known :=
  h.of_sameWindows hsame.windowIds (hsame.builtin ▸ sameWindows_refl d.builtin)

variable (d)

theorem sameWm_renderFrame (ops : StackedSpace P) : SameWm d (d.renderFrame ops) := by
  unfold renderFrame
  cases d.protocol with
  | none => exact ⟨rfl, rfl, rfl, rfl⟩
  | some proto =>
    dsimp only
    cases proto.renderPhase.1 <;> exact ⟨rfl, rfl, rfl, rfl⟩

variable {d}

theorem Known.injectNetworkInput (hknown : d.Known) (h : d.Managed) (ops : SpaceOps P)
    (msg : InputMessage) : (d.injectNetworkInput ops msg).Known := by
  cases msg with
  | pointerMotion ev | pointerAxis ev => exact hknown
  | pointerButton ev =>
    simp only [DesktopState.injectNetworkInput, injectButton]
    cases ev.state with
    | released => exact hknown
    | pressed =>
      rcases d.clickToFocus_cases ops h with hclick | ⟨id, window, -, hclick⟩
      · rw [hclick]
        exact hknown
      · rw [hclick]
        exact hknown.of_sameWindows rfl (sameWindows_raiseToTop d.builtin id)
  | keyboard ev =>
    simp only [DesktopState.injectNetworkInput]
    rcases d.injectKeyboard_cases ops ev with ⟨-, _, hev⟩ | ⟨-, -, hev⟩ | ⟨-, hev⟩
    · rw [hev]
      exact hknown
    · rw [hev]
      refine Known.of_sameWm ?_ (sameWm_performShortcut ops _ ev.keycode)
      exact hknown.of_sameWindows rfl
        (BuiltinFloatingWm.sameWindows_onKeyBinding d.builtin ev.keycode _)
    · rw [hev]
      exact hknown

theorem Known.newToplevel (hknown : d.Known) (h : d.Managed) (ops : SpaceOps P)
    (object : Option ObjectId) : (d.newToplevel ops object).Known := by
  intro entry hentry
  rcases List.mem_append.mp hentry with hold | hnew
  · have hne : entry.1 ≠ ⟨d.nextWindowId⟩ := fun heq =>
      Nat.lt_irrefl _ (congrArg WindowId.raw heq ▸ h.ids_lt entry hold)
    exact (congrArg _ (HashMap.get_insert_of_ne _ _ hne)).trans (hknown entry hold)
  · rw [List.mem_singleton.mp hnew]
    exact congrArg _ (HashMap.get_insert_self _ _ _)

theorem Known.closes (hknown : d.Known) (h : d.Managed) {id : WindowId} {surface : Surface}
    {before after : List (WindowId × Surface)} {d' : DesktopState P}
    (hc : Closes d id surface before after d') : d'.Known := by
  intro entry hentry
  have hold := hknown entry (hc.sublist.subset hentry)
  have hne : entry.1 ≠ id := ne_of_mem_of_not_mem (List.mem_map_of_mem hentry) (hc.notMem_ids h)
  rw [hc.builtin]
  exact (congrArg _ (HashMap.get_remove_of_ne _ hne)).trans hold

theorem Known.userStep (hknown : d.Known) (h : d.Managed) (ops : SpaceOps P)
    (event : UserEvent P) : (d.userStep ops event).Known := by
  cases event with
  | input msg => exact hknown.injectNetworkInput h ops msg
  | newToplevel object => exact hknown.newToplevel h ops object
  | toplevelDestroyed surface =>
    rcases d.toplevelDestroyed_cases ops surface with ⟨-, hd⟩ | ⟨id, before, after, hc⟩
    · rw [DesktopState.userStep, hd]
      exact hknown
    · exact hknown.closes h hc
  | arranged space => exact hknown

/-! ### Runs -/

/-- A step of the desktop, where a frame applies its commands. -/
def frameStep (ops : StackedSpace P) (d : DesktopState P) : DesktopEvent P → DesktopState P
  | .wm .tick => d.renderFrame ops
  | event => d.step ops.toSpaceOps event

theorem frameStep_user (event : UserEvent P) :
    d.frameStep ops (.user event) = d.userStep ops.toSpaceOps event := rfl

theorem frameStep_wm {event : WmEvent} (h : event ≠ .tick) :
    d.frameStep ops (.wm event) = d.wmStep ops.toSpaceOps event := by
  cases event with
  | tick => exact absurd rfl h
  | _ => rfl

/-- What holds of every state that a run with frames reaches. -/
structure Tracked (d : DesktopState P) : Prop where
  managed : d.Managed
  known : d.Known

theorem Tracked.frameStep (h : d.Tracked) (event : DesktopEvent P) :
    (d.frameStep ops event).Tracked := by
  cases event with
  | user event => exact ⟨h.managed.userStep _ event, h.known.userStep h.managed _ event⟩
  | wm event =>
    have hsame : SameWm d (d.frameStep ops (.wm event)) := by
      by_cases htick : event = .tick
      · rw [htick]
        exact d.sameWm_renderFrame ops
      · rw [frameStep_wm htick]
        exact d.sameWm_wmStep ops.toSpaceOps event
    exact ⟨h.managed.of_sameWindows hsame.sameWindows, h.known.of_sameWm hsame⟩

theorem tracked_start (space : P) (output : ℤ × ℤ) (protocol : Option WmProtocolState) :
    (start space output protocol).Tracked :=
  ⟨managed_start space output protocol, nofun⟩

theorem Tracked.run (h : d.Tracked) (events : List (DesktopEvent P)) :
    (events.foldl (DesktopState.frameStep ops) d).Tracked :=
  List.foldlRecOn (motive := Tracked) events _ h fun _ h event _ => h.frameStep event

/-! ### Frames -/

/-- Every window has a command of its own in the built-in WM's batch, which shows it. -/
theorem exists_lastFor_onRender (h : d.Tracked) {entry : WindowId × Surface}
    (hentry : entry ∈ d.windowIds) :
    ∃ cmd, lastFor (d.builtin.onRender (d.windowIds.map Prod.fst)) entry.1 = some cmd ∧
      cmd.id = entry.1 ∧ cmd.visible = true := by
  obtain ⟨state, hstate, hvisible⟩ := Option.map_eq_some_iff.mp (h.known entry hentry)
  have hmem : (⟨entry.1, state.position, .preserve, state.visible⟩ : RenderCommand) ∈
      (d.builtin.onRender (d.windowIds.map Prod.fst)).filter fun cmd => cmd.id = entry.1 := by
    refine List.mem_filter.mpr ⟨List.mem_filterMap.mpr ⟨entry.1, ?_, ?_⟩, decide_eq_true rfl⟩
    · exact List.mem_map_of_mem hentry
    · rw [hstate]
      rfl
  have hne := List.ne_nil_of_mem hmem
  obtain ⟨hrender, hid⟩ := List.mem_filter.mp (List.getLast_mem hne)
  have hid := of_decide_eq_true hid
  refine ⟨_, List.getLast?_eq_some_getLast hne, hid, ?_⟩
  -- the batch has the state of the window in every command for it
  obtain ⟨id, -, hcmd⟩ := List.mem_filterMap.mp hrender
  obtain ⟨state', hstate', heq⟩ := Option.map_eq_some_iff.mp hcmd
  rw [← heq] at hid ⊢
  obtain rfl : id = entry.1 := hid
  obtain rfl := Option.some.inj (hstate.symm.trans hstate')
  exact hvisible

/-- The built-in WM's frame maps just the windows that can be seen. -/
theorem mem_elements_applyWmRenderCommands (h : d.Tracked) {entry : WindowId × Surface}
    (hentry : entry ∈ d.windowIds) :
    entry.2 ∈ ops.elements (d.applyWmRenderCommands ops).space ↔
      d.workspaceVisible entry.1 = true := by
  obtain ⟨cmd, hlast, hid, hvisible⟩ := exists_lastFor_onRender h hentry
  have hlocation : ops.location entry.2 (d.applyWmRenderCommands ops).space =
      if d.workspaceVisible entry.1 = true then some cmd.position else none := by
    refine (location_restackSpace _ _ entry.2).trans ?_
    rw [location_foldl_placeWindow h.managed hentry, hlast]
    simp only [shows, hvisible, Bool.true_and, hid]
  rw [← ops.isSome_location, hlocation]
  split_ifs with hseen
  · exact iff_of_true rfl hseen
  · exact iff_of_false Bool.false_ne_true hseen

/-- A frame under an external WM takes no commands, so it changes nothing but the protocol state. -/
theorem renderFrame_of_connected {proto : WmProtocolState} {manager : ObjectId}
    (hprotocol : d.protocol = some proto) (hclient : proto.wmClient = some manager) :
    d.renderFrame ops = { d with protocol := some { proto with
      pendingRenderCommands := []
      renderPhaseActive := true
      sent := proto.sent ++ [.renderStart manager] } } := by
  have hphase : proto.renderPhase = (some [], { proto with
      pendingRenderCommands := []
      renderPhaseActive := true
      sent := proto.sent ++ [.renderStart manager] }) := by
    simp [WmProtocolState.renderPhase, WmProtocolState.isWmConnected,
      WmProtocolState.startRenderPhase, WmProtocolState.takeRenderCommands, WmProtocolState.send,
      hclient]
  rw [renderFrame, hprotocol]
  dsimp only
  rw [hphase]
  dsimp only [applyRenderCommands]
  rw [restackSpace_of_preserve fun cmd hcmd => absurd hcmd List.not_mem_nil]
  rfl

/-- Any other frame applies the built-in WM's batch. -/
theorem renderFrame_of_not_connected (h : d.wmConnected = false) :
    d.renderFrame ops = d.applyWmRenderCommands ops := by
  unfold renderFrame
  cases hprotocol : d.protocol with
  | none => rfl
  | some proto =>
    rw [wmConnected, hprotocol, Option.any_some] at h
    have hphase : proto.renderPhase = (none, proto) := by
      rw [WmProtocolState.renderPhase, h]
      rfl
    dsimp only
    rw [hphase, ← hprotocol]

end DesktopState

end WayRay
