import WayRay.Collections.GuardedRun
import WayRay.Collections.Keyed
import WayRay.Desktop.Keys

/-!
# Keyboard focus

The built-in WM's focus stack and the seat's keyboard focus are two states.  `Managed` says how the
windows, their ids and the stack belong together, in every state that users and applications can
reach.  `FocusAgrees` says that the seat's focus is the window the WM reports as focused.

Opening, clicking and cycling move both, so the only event that parts them is one that moves the
stack alone: the focused window is closed while others are open (`focusAgrees_userStep_iff`,
`focus_agreement_iff`).
-/

namespace WayRay

open GuardedRun Keyed

namespace DesktopState

variable {P : Type} (ops : SpaceOps P) {d d' : DesktopState P}

/-! ### The windows -/

/-- How the windows, their ids and the focus stack belong together. -/
structure Managed (d : DesktopState P) : Prop where
  /-- The focus stack holds the ids of the windows. -/
  perm : d.builtin.focusStack.Perm (d.windowIds.map Prod.fst)
  nodup_ids : (d.windowIds.map Prod.fst).Nodup
  nodup_windows : (d.windowIds.map Prod.snd).Nodup
  ids_lt : ∀ entry ∈ d.windowIds, entry.1.raw < d.nextWindowId
  surfaces_lt : ∀ entry ∈ d.windowIds, entry.2.raw < d.surfaces

/-- At least one window is managed, and the seat's keyboard focus is the one that the built-in WM
reports as focused; or there is none. -/
def FocusAgrees (d : DesktopState P) : Prop :=
  d.windowIds ≠ [] → ∃ window, d.focusedWindow = some window ∧ d.seat.focus = some window

/-- The windows stay as they are, and the focus stack is at most rearranged. -/
structure SameWindows (d d' : DesktopState P) : Prop where
  windowIds : d'.windowIds = d.windowIds
  nextWindowId : d'.nextWindowId = d.nextWindowId
  surfaces : d'.surfaces = d.surfaces
  perm : d'.builtin.focusStack.Perm d.builtin.focusStack

theorem Managed.of_sameWindows (h : d.Managed) (hsame : SameWindows d d') : d'.Managed where
  perm := by rw [hsame.windowIds]; exact hsame.perm.trans h.perm
  nodup_ids := by rw [hsame.windowIds]; exact h.nodup_ids
  nodup_windows := by rw [hsame.windowIds]; exact h.nodup_windows
  ids_lt := by rw [hsame.windowIds, hsame.nextWindowId]; exact h.ids_lt
  surfaces_lt := by rw [hsame.windowIds, hsame.surfaces]; exact h.surfaces_lt

/-- The windows and the built-in WM stay as they are. -/
structure SameWm (d d' : DesktopState P) : Prop where
  builtin : d'.builtin = d.builtin
  windowIds : d'.windowIds = d.windowIds
  nextWindowId : d'.nextWindowId = d.nextWindowId
  surfaces : d'.surfaces = d.surfaces

theorem SameWm.sameWindows (h : SameWm d d') : SameWindows d d' where
  windowIds := h.windowIds
  nextWindowId := h.nextWindowId
  surfaces := h.surfaces
  perm := List.Perm.of_eq (congrArg BuiltinFloatingWm.focusStack h.builtin)

theorem Managed.windowForId_eq_some (h : d.Managed) {id : WindowId} {window : Surface} :
    d.windowForId id = some window ↔ (id, window) ∈ d.windowIds := by
  unfold windowForId
  rw [map_find?_eq_some (List.inj_on_of_nodup_map h.nodup_ids)]
  constructor
  · rintro ⟨⟨_, _⟩, hmem, rfl, rfl⟩
    exact hmem
  · exact fun hmem => ⟨(id, window), hmem, rfl, rfl⟩

theorem managed_start (space : P) (output : ℤ × ℤ) (protocol : Option WmProtocolState) :
    (start space output protocol).Managed :=
  ⟨List.Perm.refl _, List.nodup_nil, List.nodup_nil, nofun, nofun⟩

/-- The WM reports a window as focused, if there is one. -/
theorem Managed.exists_focusedWindow (h : d.Managed) (hne : d.windowIds ≠ []) :
    ∃ id window, d.builtin.focused = some id ∧ (id, window) ∈ d.windowIds := by
  have hstack : d.builtin.focusStack ≠ [] := fun hnil =>
    hne (List.map_eq_nil_iff.mp (List.nil_perm.mp (hnil ▸ h.perm)))
  obtain ⟨id, hid, hfocused⟩ := BuiltinFloatingWm.exists_focused hstack
  obtain ⟨⟨_, window⟩, hmem, rfl⟩ := List.mem_map.mp (h.perm.mem_iff.mp hid)
  exact ⟨_, window, hfocused, hmem⟩

theorem Managed.focusedWindow_eq (h : d.Managed) {id : WindowId} {window : Surface}
    (hfocused : d.builtin.focused = some id) (hmem : (id, window) ∈ d.windowIds) :
    d.focusedWindow = some window := by
  rw [focusedWindow, hfocused]
  exact h.windowForId_eq_some.mpr hmem

/-- The focus still agrees where nothing about it changes. -/
theorem FocusAgrees.congr (hf : d.FocusAgrees) (hwindows : d'.windowIds = d.windowIds)
    (hstack : d'.builtin.focusStack = d.builtin.focusStack)
    (hfocus : d'.seat.focus = d.seat.focus) : d'.FocusAgrees := by
  have hfocused : d'.focusedWindow = d.focusedWindow := by
    unfold focusedWindow BuiltinFloatingWm.focused windowForId
    rw [hwindows, hstack]
  unfold FocusAgrees
  rw [hwindows, hfocused, hfocus]
  exact hf

/-! ### Input -/

section Input

variable (d)

/-- A click finds no window to focus, or a managed one, which comes on top. -/
theorem clickToFocus_cases (h : d.Managed) :
    d.clickToFocus ops = (none, d.builtin) ∨
      ∃ id window, (id, window) ∈ d.windowIds ∧
        d.clickToFocus ops = (some window, d.builtin.raiseToTop id) := by
  unfold clickToFocus
  cases hid : (ops.elementUnder d.seat.pointer d.space).bind d.windowIdFor with
  | none => exact .inl rfl
  | some id =>
    obtain ⟨surface, -, hfor⟩ := Option.bind_eq_some_iff.mp hid
    obtain ⟨⟨_, window⟩, hfind, rfl⟩ := Option.map_eq_some_iff.mp hfor
    have hmem := List.mem_of_find?_eq_some hfind
    dsimp only
    unfold BuiltinFloatingWm.onPointerFocus
    split_ifs
    · refine .inr ⟨_, window, hmem, ?_⟩
      exact congrArg (·, _) (h.windowForId_eq_some.mpr hmem)
    · exact .inl rfl

/-- Of the shortcuts, only cycling moves the seat's focus. -/
theorem performShortcut_of_ne {keycode : UInt32} (h : keycode ≠ keyTab) :
    ∃ requests, d.performShortcut ops keycode = { d with requests := requests } := by
  unfold performShortcut
  cases d.focusedWindow with
  | none => exact ⟨d.requests, rfl⟩
  | some window =>
    dsimp only
    rw [if_neg h]
    split_ifs
    · exact ⟨_, rfl⟩
    · exact ⟨_, rfl⟩
    · exact ⟨d.requests, rfl⟩

theorem sameWm_performShortcut (keycode : UInt32) :
    SameWm d (d.performShortcut ops keycode) := by
  unfold performShortcut
  cases d.focusedWindow with
  | none => exact ⟨rfl, rfl, rfl, rfl⟩
  | some window =>
    dsimp only
    split_ifs <;> exact ⟨rfl, rfl, rfl, rfl⟩

/-- Cycling gives the seat's focus to the window that the WM reports. -/
theorem focusAgrees_performShortcut_tab (h : d.Managed) :
    (d.performShortcut ops keyTab).FocusAgrees := by
  intro hne
  rw [(d.sameWm_performShortcut ops keyTab).windowIds] at hne
  obtain ⟨id, window, hfocused, hmem⟩ := h.exists_focusedWindow hne
  have hwindow := h.focusedWindow_eq hfocused hmem
  have hperformed : d.performShortcut ops keyTab = d.raiseAndFocus ops window := by
    unfold performShortcut
    rw [hwindow]
    rfl
  rw [hperformed]
  exact ⟨window, hwindow, rfl⟩

/-- The desktop when a shortcut is to be performed. -/
theorem sameWindows_onKeyBinding (ev : KeyboardEvent) :
    SameWindows d { d with
      modifiers := d.modifiersAfter ev
      builtin := (d.builtin.onKeyBinding ev.keycode (d.modifiersAfter ev).mask).2 } :=
  ⟨rfl, rfl, rfl, d.builtin.onKeyBinding_perm ev.keycode (d.modifiersAfter ev).mask⟩

theorem SameWindows.trans {d d' d'' : DesktopState P} (h : SameWindows d d')
    (h' : SameWindows d' d'') : SameWindows d d'' :=
  ⟨h'.windowIds.trans h.windowIds, h'.nextWindowId.trans h.nextWindowId,
    h'.surfaces.trans h.surfaces, h'.perm.trans h.perm⟩

/-- Input rearranges the focus stack at most. -/
theorem sameWindows_injectNetworkInput (h : d.Managed) (msg : InputMessage) :
    SameWindows d (d.injectNetworkInput ops msg) := by
  cases msg with
  | pointerMotion ev | pointerAxis ev => exact ⟨rfl, rfl, rfl, List.Perm.refl _⟩
  | pointerButton ev =>
    simp only [injectNetworkInput, injectButton]
    cases ev.state with
    | released => exact ⟨rfl, rfl, rfl, List.Perm.refl _⟩
    | pressed =>
      rcases d.clickToFocus_cases ops h with hclick | ⟨id, window, hmem, hclick⟩
      · rw [hclick]
        exact ⟨rfl, rfl, rfl, List.Perm.refl _⟩
      · rw [hclick]
        have hid : id ∈ d.builtin.focusStack := h.perm.mem_iff.mpr (List.mem_map.mpr ⟨_, hmem, rfl⟩)
        exact ⟨rfl, rfl, rfl, BuiltinFloatingWm.raiseToTop_perm
          (h.perm.nodup_iff.mpr h.nodup_ids) hid⟩
  | keyboard ev =>
    simp only [injectNetworkInput]
    rcases d.injectKeyboard_cases ops ev with ⟨-, _, hev⟩ | ⟨-, -, hev⟩ | ⟨-, hev⟩
    · rw [hev]
      exact ⟨rfl, rfl, rfl, List.Perm.refl _⟩
    · rw [hev]
      exact (d.sameWindows_onKeyBinding ev).trans
        (sameWm_performShortcut ops _ ev.keycode).sameWindows
    · rw [hev]
      exact ⟨rfl, rfl, rfl, List.Perm.refl _⟩

/-- The seat's focus follows the WM's over every input. -/
theorem focusAgrees_injectNetworkInput (h : d.Managed) (hf : d.FocusAgrees) (msg : InputMessage) :
    (d.injectNetworkInput ops msg).FocusAgrees := by
  have hsame := d.sameWindows_injectNetworkInput ops h msg
  have hmanaged := h.of_sameWindows hsame
  cases msg with
  | pointerMotion ev | pointerAxis ev => exact hf.congr rfl rfl rfl
  | pointerButton ev =>
    simp only [injectNetworkInput, injectButton] at hmanaged ⊢
    cases hstate : ev.state with
    | released => exact hf
    | pressed =>
      rw [hstate] at hmanaged
      rcases d.clickToFocus_cases ops h with hclick | ⟨id, window, hmem, hclick⟩
      · rw [hclick]
        exact hf.congr rfl rfl rfl
      · rw [hclick] at hmanaged ⊢
        have hfocused := BuiltinFloatingWm.focused_of_focusStack_concat
          (d.builtin.raiseToTop_focusStack id)
        exact fun _ => ⟨window, hmanaged.focusedWindow_eq hfocused hmem, rfl⟩
  | keyboard ev =>
    simp only [injectNetworkInput]
    rcases d.injectKeyboard_cases ops ev with ⟨-, _, hev⟩ | ⟨-, -, hev⟩ | ⟨-, hev⟩
    · rw [hev]
      exact hf.congr rfl rfl rfl
    · rw [hev]
      by_cases hkey : ev.keycode = keyTab
      · rw [hkey]
        exact focusAgrees_performShortcut_tab ops _
          (h.of_sameWindows (hkey ▸ d.sameWindows_onKeyBinding ev))
      · -- the other shortcuts leave both as they are
        obtain ⟨requests, hperformed⟩ := performShortcut_of_ne ops { d with
          modifiers := d.modifiersAfter ev
          builtin := (d.builtin.onKeyBinding ev.keycode (d.modifiersAfter ev).mask).2 } hkey
        rw [hperformed]
        exact hf.congr rfl (d.builtin.onKeyBinding_focusStack hkey (d.modifiersAfter ev).mask) rfl
    · rw [hev]
      exact hf.congr rfl rfl (SeatState.input_focus _ _ _)

end Input

/-! ### Toplevels -/

theorem Managed.newToplevel (h : d.Managed) (object : Option ObjectId) :
    (d.newToplevel ops object).Managed := by
  have hid : (⟨d.nextWindowId⟩ : WindowId) ∉ d.windowIds.map Prod.fst :=
    notMem_map_of_lt h.ids_lt
  have hsurface : (⟨d.surfaces⟩ : Surface) ∉ d.windowIds.map Prod.snd :=
    notMem_map_of_lt h.surfaces_lt
  have hwindows : (d.newToplevel ops object).windowIds =
      d.windowIds ++ [(⟨d.nextWindowId⟩, ⟨d.surfaces⟩)] := rfl
  refine ⟨?_, ?_, ?_, ?_, ?_⟩
  · rw [hwindows, List.map_append]
    exact h.perm.append_right _
  · rw [hwindows, List.map_append]
    exact List.nodup_append_comm.mp (List.nodup_cons.mpr ⟨hid, h.nodup_ids⟩)
  · rw [hwindows, List.map_append]
    exact List.nodup_append_comm.mp (List.nodup_cons.mpr ⟨hsurface, h.nodup_windows⟩)
  · rw [hwindows]
    exact lt_succ_of_mem_concat h.ids_lt
  · rw [hwindows]
    exact lt_succ_of_mem_concat h.surfaces_lt

/-- A new window comes on top and gets the focus. -/
theorem Managed.focusAgrees_newToplevel (h : d.Managed) (object : Option ObjectId) :
    (d.newToplevel ops object).FocusAgrees := by
  have hmanaged := h.newToplevel ops object
  have hmem : ((⟨d.nextWindowId⟩, ⟨d.surfaces⟩) : WindowId × Surface) ∈
      (d.newToplevel ops object).windowIds :=
    List.mem_append_right _ (List.mem_singleton_self _)
  have hfocused : (d.newToplevel ops object).builtin.focused = some ⟨d.nextWindowId⟩ :=
    BuiltinFloatingWm.focused_of_focusStack_concat rfl
  exact fun _ => ⟨⟨d.surfaces⟩, hmanaged.focusedWindow_eq hfocused hmem, rfl⟩

/-- A managed window is closed: it leaves the windows, the stack and the focus. -/
structure Closes (d : DesktopState P) (id : WindowId) (surface : Surface)
    (before after : List (WindowId × Surface)) (d' : DesktopState P) : Prop where
  split : d.windowIds = before ++ (id, surface) :: after
  windowIds : d'.windowIds = before ++ after
  builtin : d'.builtin = d.builtin.onCloseToplevel id
  focus : d'.seat.focus = d.seat.focus.filter (· ≠ surface)
  nextWindowId : d'.nextWindowId = d.nextWindowId
  surfaces : d'.surfaces = d.surfaces

variable (d) in
/-- A toplevel that is destroyed is no managed window, or it is closed. -/
theorem toplevelDestroyed_cases (surface : Surface) :
    ((∀ entry ∈ d.windowIds, entry.2 ≠ surface) ∧ d.toplevelDestroyed ops surface =
      { d with seat := d.seat.surfaceDestroyed surface }) ∨
    ∃ id before after, Closes d id surface before after (d.toplevelDestroyed ops surface) := by
  unfold toplevelDestroyed
  cases hfind : d.windowIds.find? fun entry => entry.2 = surface with
  | none =>
    refine .inl ⟨fun entry hentry => ?_, rfl⟩
    simpa using List.find?_eq_none.mp hfind entry hentry
  | some entry =>
    obtain ⟨id, window⟩ := entry
    obtain ⟨hwindow, before, after, hsplit, hbefore⟩ := List.find?_eq_some_iff_append.mp hfind
    obtain rfl : window = surface := by simpa using hwindow
    have herase : (d.windowIds.eraseP fun entry => entry.2 = window) = before ++ after := by
      rw [hsplit, List.eraseP_append_right _ (by simpa using hbefore)]
      simp
    exact .inr ⟨id, before, after, hsplit, herase, rfl, rfl, rfl, rfl⟩

section Closes

variable {id : WindowId} {surface : Surface} {before after : List (WindowId × Surface)}

theorem Closes.sublist (hc : Closes d id surface before after d') :
    d'.windowIds.Sublist d.windowIds := by
  rw [hc.windowIds, hc.split]
  exact (List.sublist_cons_self _ _).append_left before

/-- The closed window's id is gone ... -/
theorem Closes.notMem_ids (hc : Closes d id surface before after d') (h : d.Managed) :
    id ∉ d'.windowIds.map Prod.fst := by
  have hnodup := h.nodup_ids
  rw [hc.split, List.map_append, List.map_cons] at hnodup
  rw [hc.windowIds, List.map_append]
  exact (List.nodup_middle.mp hnodup).notMem

/-- ... and so is the window ... -/
theorem Closes.notMem_windows (hc : Closes d id surface before after d') (h : d.Managed) :
    surface ∉ d'.windowIds.map Prod.snd := by
  have hnodup := h.nodup_windows
  rw [hc.split, List.map_append, List.map_cons] at hnodup
  rw [hc.windowIds, List.map_append]
  exact (List.nodup_middle.mp hnodup).notMem

/-- ... and the others are still there. -/
theorem Closes.mem_ids (hc : Closes d id surface before after d') (h : d.Managed)
    {other : WindowId} :
    other ∈ d'.windowIds.map Prod.fst ↔ other ∈ d.windowIds.map Prod.fst ∧ other ≠ id := by
  constructor
  · exact fun hmem => ⟨(hc.sublist.map _).subset hmem, ne_of_mem_of_not_mem hmem (hc.notMem_ids h)⟩
  · rintro ⟨hmem, hne⟩
    rw [hc.split, List.map_append, List.map_cons, List.mem_append, List.mem_cons] at hmem
    rw [hc.windowIds, List.map_append, List.mem_append]
    exact hmem.imp_right fun htail => htail.resolve_left hne

theorem Managed.closes (h : d.Managed) (hc : Closes d id surface before after d') :
    d'.Managed := by
  refine ⟨?_, h.nodup_ids.sublist (hc.sublist.map _), h.nodup_windows.sublist (hc.sublist.map _),
    ?_, ?_⟩
  · -- the stack loses the id, and so do the windows
    have hid : id ∉ (before ++ after).map Prod.fst := hc.windowIds ▸ hc.notMem_ids h
    have hkept : ∀ w ∈ (before ++ after).map Prod.fst, decide (w ≠ id) = true :=
      fun w hw => decide_eq_true (ne_of_mem_of_not_mem hw hid)
    have hperm := h.perm.filter fun w => w ≠ id
    rw [hc.split, List.map_append, List.map_cons, List.filter_append,
      List.filter_cons_of_neg (by simp), ← List.filter_append, ← List.map_append,
      List.filter_eq_self.mpr hkept] at hperm
    rw [hc.windowIds, hc.builtin]
    exact hperm
  · rw [hc.nextWindowId]
    exact fun entry hentry => h.ids_lt entry (hc.sublist.subset hentry)
  · rw [hc.surfaces]
    exact fun entry hentry => h.surfaces_lt entry (hc.sublist.subset hentry)

/-- Closing the focused window parts the two, unless it is the only one. -/
theorem Closes.focusAgrees_iff_of_focus (hc : Closes d id surface before after d')
    (hfocus : d.seat.focus = some surface) : d'.FocusAgrees ↔ d.windowIds.length ≤ 1 := by
  have hnone : d'.seat.focus = none := by
    rw [hc.focus, hfocus]
    exact Option.filter_some_neg (by simp)
  have hlength : d.windowIds.length = d'.windowIds.length + 1 := by
    rw [hc.split, hc.windowIds]
    simp only [List.length_append, List.length_cons]
    omega
  have hnil : d'.FocusAgrees ↔ d'.windowIds = [] := by
    constructor
    · intro hf
      by_contra hne
      obtain ⟨window, -, hwindow⟩ := hf hne
      exact absurd (hnone.symm.trans hwindow) nofun
    · exact fun hnil hne => absurd hnil hne
  rw [hnil, ← List.length_eq_zero_iff]
  omega

/-- Closing another window leaves both as they are. -/
theorem Closes.focusAgrees (hc : Closes d id surface before after d') (h : d.Managed)
    (hf : d.FocusAgrees) (hfocus : d.seat.focus ≠ some surface) : d'.FocusAgrees := by
  have hne : d.windowIds ≠ [] := by
    rw [hc.split]
    exact List.append_ne_nil_of_right_ne_nil _ (List.cons_ne_nil _ _)
  obtain ⟨window, hwindow, hseat⟩ := hf hne
  obtain ⟨focused, hfocused, hfor⟩ := Option.bind_eq_some_iff.mp hwindow
  have hmem := h.windowForId_eq_some.mp hfor
  have hother : window ≠ surface := fun heq => hfocus (heq ▸ hseat)
  have hclosed : (id, surface) ∈ d.windowIds := by
    rw [hc.split]
    exact List.mem_append_right _ List.mem_cons_self
  have hid : focused ≠ id := fun heq => hother
    (Option.some.inj ((h.windowForId_eq_some.mpr (heq ▸ hmem)).symm.trans
      (h.windowForId_eq_some.mpr hclosed)))
  have hfocused' : d'.builtin.focused = some focused := by
    rw [hc.builtin]
    exact BuiltinFloatingWm.focused_onCloseToplevel hfocused hid
  have hmem' : (focused, window) ∈ d'.windowIds := by
    rw [hc.windowIds]
    rw [hc.split] at hmem
    rcases List.mem_append.mp hmem with hbefore | hafter
    · exact List.mem_append_left _ hbefore
    · rcases List.mem_cons.mp hafter with heq | hafter
      · exact absurd (congrArg Prod.fst heq) hid
      · exact List.mem_append_right _ hafter
  refine fun _ => ⟨window, (h.closes hc).focusedWindow_eq hfocused' hmem', ?_⟩
  rw [hc.focus, hseat]
  exact Option.filter_some_pos (decide_eq_true hother)

end Closes

/-! ### Requests of an external WM -/

theorem sameWm_windowAction (d : DesktopState P) (id : WindowId) (request : WindowRequest) :
    SameWm d (d.windowAction ops id request) := by
  unfold windowAction
  cases d.windowForId id with
  | none => exact ⟨rfl, rfl, rfl, rfl⟩
  | some window => cases request <;> exact ⟨rfl, rfl, rfl, rfl⟩

/-- An external WM does not manage the windows of the built-in one. -/
theorem sameWm_wmStep (d : DesktopState P) (event : WmEvent) : SameWm d (d.wmStep ops event) := by
  cases event with
  | windowRequest id request =>
    obtain ⟨hbuiltin, hwindowIds, hnext, hsurfaces⟩ := d.sameWm_windowAction ops id request
    exact ⟨hbuiltin, hwindowIds, hnext, hsurfaces⟩
  | _ => exact ⟨rfl, rfl, rfl, rfl⟩

/-- What a window request asks of the window does not concern the protocol server. -/
theorem protocol_windowAction (d : DesktopState P) (id : WindowId) (request : WindowRequest) :
    (d.windowAction ops id request).protocol = d.protocol := by
  unfold windowAction
  cases d.windowForId id with
  | none => rfl
  | some window => cases request <;> rfl

theorem protocol_wmStep (d : DesktopState P) (event : WmEvent) :
    (d.wmStep ops event).protocol = d.protocol.map fun proto => proto.step event := by
  cases event with
  | windowRequest id request =>
    exact congrArg (Option.map _) (protocol_windowAction ops d id request)
  | _ => rfl

theorem Managed.wmStep (h : d.Managed) (event : WmEvent) : (d.wmStep ops event).Managed :=
  h.of_sameWindows (d.sameWm_wmStep ops event).sameWindows

/-! ### Steps -/

/-- A toplevel is not destroyed while it has the focus and others are managed. -/
def KeepsFocus (d : DesktopState P) : UserEvent P → Prop
  | .toplevelDestroyed surface => d.seat.focus = some surface → d.windowIds.length ≤ 1
  | _ => True

theorem Managed.userStep (h : d.Managed) (event : UserEvent P) :
    (d.userStep ops event).Managed := by
  cases event with
  | input msg => exact h.of_sameWindows (d.sameWindows_injectNetworkInput ops h msg)
  | newToplevel object => exact h.newToplevel ops object
  | toplevelDestroyed surface =>
    rcases d.toplevelDestroyed_cases ops surface with ⟨-, hd⟩ | ⟨id, before, after, hc⟩
    · rw [DesktopState.userStep, hd]
      exact h.of_sameWindows ⟨rfl, rfl, rfl, List.Perm.refl _⟩
    · exact h.closes hc
  | arranged space => exact h.of_sameWindows ⟨rfl, rfl, rfl, List.Perm.refl _⟩

/-- **An event keeps the agreement exactly if it closes no focused window among others.** -/
theorem focusAgrees_userStep_iff (h : d.Managed) (hf : d.FocusAgrees) (event : UserEvent P) :
    d.KeepsFocus event ↔ (d.userStep ops event).FocusAgrees := by
  cases event with
  | input msg => exact iff_of_true trivial (d.focusAgrees_injectNetworkInput ops h hf msg)
  | newToplevel object => exact iff_of_true trivial (h.focusAgrees_newToplevel ops object)
  | arranged space => exact iff_of_true trivial (hf.congr rfl rfl rfl)
  | toplevelDestroyed surface =>
    simp only [KeepsFocus, userStep]
    by_cases hfocus : d.seat.focus = some surface
    · rw [forall_prop_of_true hfocus]
      rcases d.toplevelDestroyed_cases ops surface with ⟨hunmanaged, hd⟩ | ⟨id, before, after, hc⟩
      · -- a focused surface that is not managed: there are no windows
        have hnil : d.windowIds = [] := by
          by_contra hne
          obtain ⟨window, hwindow, hseat⟩ := hf hne
          obtain ⟨id, -, hfor⟩ := Option.bind_eq_some_iff.mp hwindow
          obtain rfl : window = surface := Option.some.inj (hseat.symm.trans hfocus)
          exact hunmanaged _ (h.windowForId_eq_some.mp hfor) rfl
        rw [hd]
        refine iff_of_true ?_ fun hne => absurd hnil hne
        rw [hnil]
        exact Nat.zero_le 1
      · exact (hc.focusAgrees_iff_of_focus hfocus).symm
    · refine iff_of_true (fun heq => absurd heq hfocus) ?_
      rcases d.toplevelDestroyed_cases ops surface with ⟨-, hd⟩ | ⟨id, before, after, hc⟩
      · rw [hd]
        refine hf.congr rfl rfl ?_
        cases hseat : d.seat.focus with
        | none => simp [SeatState.surfaceDestroyed, hseat]
        | some focus =>
          have hother : focus ≠ surface := fun heq => hfocus (heq ▸ hseat)
          simp [SeatState.surfaceDestroyed, hseat, hother]
      · exact hc.focusAgrees h hf hfocus

/-- **Focus agreement.**  Over every sequence of toplevels that are created and destroyed, clicks,
shortcuts and other input, with no external WM at work: in every state with a window the seat's
keyboard focus is the window that the built-in WM reports as focused, if and only if no toplevel is
destroyed while it has the keyboard focus and another one is managed. -/
theorem focus_agreement_iff (space : P) (output : ℤ × ℤ) (protocol : Option WmProtocolState)
    (events : List (UserEvent P)) :
    (∀ pre, pre <+: events → (pre.foldl (userStep ops) (start space output protocol)).FocusAgrees) ↔
      Along (userStep ops) KeepsFocus (start space output protocol) events := by
  exact (along_iff_forall_initial (I := Managed) (G := FocusAgrees)
    (fun _ event h => h.userStep ops event)
    (fun _ event h hf => focusAgrees_userStep_iff ops h hf event)
    (managed_start space output protocol)
    fun hne => absurd rfl hne).symm

/-- Two windows are opened, and the second one, which has the focus, is closed. -/
theorem focus_parted_closed :
    ¬ ∀ events : List (UserEvent Unit),
      (events.foldl (userStep noSpace) (start () (800, 600) (some .new))).FocusAgrees := by
  intro h
  obtain ⟨window, hfocused, hseat⟩ := h [.newToplevel none, .newToplevel none,
    .toplevelDestroyed ⟨1⟩] (by decide)
  have hnone : Option.isSome (none : Option Surface) = true := Option.isSome_of_eq_some hseat
  exact absurd hnone Bool.false_ne_true

end DesktopState

end WayRay
