import WayRay.Desktop.Focus
import WayRay.Desktop.Space
import WayRay.Wm.Stacking

/-!
# Applying render commands

What a frame does to the arrangement of windows: `applyRenderCommands` positions, shows and hides
the windows of a batch of commands and then restacks them; `renderFrame` applies what an external
WM has accumulated, or the batch of the built-in WM.

Of several commands for a window the last one says where it is mapped
(`location_foldl_placeWindow`), and a window that is mapped comes on top
(`elements_foldl_placeWindow`).  The second pass leaves the positions alone and brings the windows
into the order that `restack` computes (`stack_restackSpace`).
-/

namespace WayRay

open Keyed Recency

namespace BuiltinFloatingWm

/-- The commands for a frame. -/
def onRender (wm : BuiltinFloatingWm) (windows : List WindowId) : List RenderCommand :=
  windows.filterMap fun id => (wm.windows.get id).map fun state =>
    ⟨id, state.position, .preserve, state.visible⟩

end BuiltinFloatingWm

namespace DesktopState

variable {P : Type} (ops : StackedSpace P)

/-! ### Commands -/

/-- Whether workspaces, tags and outputs let a window be seen. -/
def workspaceVisible (d : DesktopState P) (id : WindowId) : Bool :=
  match d.protocol with
  | some proto => proto.workspace.isVisible id defaultOutput
  | none => true

/-- Whether a command shows its window. -/
def shows (d : DesktopState P) (cmd : RenderCommand) : Bool :=
  cmd.visible && d.workspaceVisible cmd.id

/-- Position the window of a command, or hide it. -/
def placeWindow (d : DesktopState P) (space : P) (cmd : RenderCommand) : P :=
  match d.windowForId cmd.id with
  | some window =>
    if d.shows cmd then ops.mapElement window cmd.position space else ops.unmapElem window space
  | none => space

/-- The known windows in stacking order. -/
def stack (d : DesktopState P) (space : P) : List WindowId :=
  (ops.elements space).filterMap d.windowIdFor

def raiseWindow (d : DesktopState P) (space : P) (id : WindowId) : P :=
  match d.windowForId id with
  | some window => ops.raiseElement window space
  | none => space

/-- Raise the windows from the bottom up, so that they end up in the order that the z-order
directives ask for. -/
def restackSpace (d : DesktopState P) (space : P) (commands : List RenderCommand) : P :=
  if commands.any fun cmd => cmd.zOrder ≠ .preserve then
    let current := d.stack ops space
    let desired := restack current commands
    if desired ≠ current then desired.foldl (d.raiseWindow ops) space else space
  else space

/-- Apply a batch of render commands: position and visibility, then z-order. -/
def applyRenderCommands (d : DesktopState P) (commands : List RenderCommand) : DesktopState P :=
  { d with space := d.restackSpace ops (commands.foldl (d.placeWindow ops) d.space) commands }

/-- Apply the built-in WM's commands. -/
def applyWmRenderCommands (d : DesktopState P) : DesktopState P :=
  d.applyRenderCommands ops (d.builtin.onRender (d.windowIds.map Prod.fst))

/-- Apply the commands for a frame: those of an external WM, if one is connected. -/
def renderFrame (d : DesktopState P) : DesktopState P :=
  match d.protocol with
  | none => d.applyWmRenderCommands ops
  | some proto =>
    let (externalCommands, proto) := proto.renderPhase
    let d := { d with protocol := some proto }
    match externalCommands with
    | some commands => d.applyRenderCommands ops commands
    | none => d.applyWmRenderCommands ops

/-! ### The first pass -/

variable {ops} {d : DesktopState P} {id : WindowId} {window : Surface}

/-- The last command for a window. -/
def lastFor (commands : List RenderCommand) (id : WindowId) : Option RenderCommand :=
  (commands.filter fun cmd => cmd.id = id).getLast?

theorem lastFor_concat (commands : List RenderCommand) (cmd : RenderCommand) (id : WindowId) :
    lastFor (commands ++ [cmd]) id = if cmd.id = id then some cmd else lastFor commands id := by
  unfold lastFor
  rw [List.filter_append]
  split_ifs with h
  · rw [List.filter_cons_of_pos (by simpa using h), List.filter_nil, List.getLast?_concat]
  · rw [List.filter_cons_of_neg (by simpa using h), List.filter_nil, List.append_nil]

/-- A window is where the last command for it says, if there is one. -/
theorem location_foldl_placeWindow (h : d.Managed) (hwindow : (id, window) ∈ d.windowIds)
    (space : P) (commands : List RenderCommand) :
    ops.location window (commands.foldl (d.placeWindow ops) space) =
      match lastFor commands id with
      | some cmd => if d.shows cmd then some cmd.position else none
      | none => ops.location window space := by
  induction commands using List.reverseRecOn with
  | nil => rfl
  | append_singleton commands cmd ih =>
    rw [List.foldl_append, List.foldl_cons, List.foldl_nil, lastFor_concat]
    have hfor := h.windowForId_eq_some.mpr hwindow
    by_cases hid : cmd.id = id
    · subst hid
      simp only [placeWindow, hfor, if_true]
      cases d.shows cmd <;> simp
    · rw [if_neg hid, ← ih]
      unfold placeWindow
      cases hother : d.windowForId cmd.id with
      | none => rfl
      | some other =>
        have hne : window ≠ other := by
          rintro rfl
          have hmem := h.windowForId_eq_some.mp hother
          exact hid (congrArg Prod.fst (List.inj_on_of_nodup_map h.nodup_windows hmem hwindow rfl))
        dsimp only
        cases d.shows cmd <;> simp [hne]

/-- The windows that commands show or hide. -/
def placements (d : DesktopState P) (commands : List RenderCommand) : List (Surface × Bool) :=
  commands.filterMap fun cmd => (d.windowForId cmd.id).map fun window => (window, d.shows cmd)

/-- A window that a command shows comes on top. -/
theorem elements_foldl_placeWindow (space : P) (commands : List RenderCommand) :
    ops.elements (commands.foldl (d.placeWindow ops) space) =
      touchAll (ops.elements space) (d.placements commands) := by
  induction commands generalizing space with
  | nil => rfl
  | cons cmd commands ih =>
    rw [List.foldl_cons, ih]
    unfold placements placeWindow
    rw [List.filterMap_cons]
    cases d.windowForId cmd.id with
    | none => rfl
    | some window =>
      dsimp only [Option.map_some]
      rw [touchAll, touchAll, List.foldl_cons]
      cases d.shows cmd <;> simp

/-! ### The second pass -/

theorem location_restackSpace (space : P) (commands : List RenderCommand) (window : Surface) :
    ops.location window (d.restackSpace ops space commands) = ops.location window space := by
  have hraise : ∀ (ids : List WindowId) (space : P),
      ops.location window (ids.foldl (d.raiseWindow ops) space) = ops.location window space := by
    intro ids
    induction ids with
    | nil => exact fun _ => rfl
    | cons id ids ih =>
      intro space
      rw [List.foldl_cons, ih]
      unfold raiseWindow
      cases d.windowForId id with
      | none => rfl
      | some other => exact ops.location_raiseElement other space window
  unfold restackSpace
  split_ifs
  · dsimp only
    split_ifs
    · exact hraise _ space
    · rfl
  · rfl

/-- Without z-order directives there is no second pass. -/
theorem restackSpace_of_preserve {commands : List RenderCommand}
    (h : ∀ cmd ∈ commands, cmd.zOrder = .preserve) (space : P) :
    d.restackSpace ops space commands = space := by
  have hnone : ¬ (commands.any fun cmd => cmd.zOrder ≠ .preserve) = true := by
    simpa using h
  rw [restackSpace, if_neg hnone]

theorem Managed.windowIdFor_eq_some (h : d.Managed) :
    d.windowIdFor window = some id ↔ (id, window) ∈ d.windowIds := by
  unfold windowIdFor
  rw [map_find?_eq_some (List.inj_on_of_nodup_map h.nodup_windows)]
  constructor
  · rintro ⟨⟨_, _⟩, hmem, rfl, rfl⟩
    exact hmem
  · exact fun hmem => ⟨(id, window), hmem, rfl, rfl⟩

/-- Raising mapped windows one after the other. -/
theorem elements_foldl_raiseWindow {ids : List WindowId} {windows : List Surface} {space : P}
    (hids : ids.map d.windowForId = windows.map some)
    (hmapped : ∀ window ∈ windows, window ∈ ops.elements space) :
    ops.elements (ids.foldl (d.raiseWindow ops) space) =
      touchAll (ops.elements space) (windows.map fun window => (window, true)) := by
  induction ids generalizing windows space with
  | nil =>
    rw [List.map_nil, eq_comm, List.map_eq_nil_iff] at hids
    rw [hids]
    rfl
  | cons id ids ih =>
    cases windows with
    | nil => exact absurd hids (List.cons_ne_nil _ _)
    | cons window windows =>
      obtain ⟨hid, hids⟩ := List.cons.inj hids
      obtain ⟨hwindow, hwindows⟩ := List.forall_mem_cons.mp hmapped
      have hraise : d.raiseWindow ops space id = ops.raiseElement window space := by
        rw [raiseWindow, hid]
      have helements : ops.elements (ops.raiseElement window space) =
          touch (ops.elements space) (window, true) := by
        rw [ops.elements_raiseElement, if_pos hwindow]
      rw [List.foldl_cons, hraise, ih hids, helements]
      · rfl
      · intro other hother
        rw [helements, touch, if_pos rfl]
        by_cases heq : other = window
        · exact List.mem_append_right _ (List.mem_singleton.mpr heq)
        · exact List.mem_append_left _ ((List.mem_erase_of_ne heq).mpr (hwindows other hother))

/-- A mapped window whose id is in the stack. -/
theorem Managed.mem_stack (h : d.Managed) {space : P} : id ∈ d.stack ops space ↔
    ∃ window ∈ ops.elements space, d.windowForId id = some window := by
  rw [stack, List.mem_filterMap]
  refine exists_congr fun window => and_congr_right fun _ => ?_
  rw [h.windowIdFor_eq_some, h.windowForId_eq_some]

theorem Managed.nodup_stack (h : d.Managed) (space : P) : (d.stack ops space).Nodup := by
  refine (ops.nodup_elements space).filterMap fun window window' id hid hid' => ?_
  have hmem := h.windowIdFor_eq_some.mp hid
  have hmem' := h.windowIdFor_eq_some.mp hid'
  exact congrArg Prod.snd (List.inj_on_of_nodup_map h.nodup_ids hmem hmem' rfl)

/-- Raising the windows of a rearranged stack brings them into its order. -/
theorem Managed.stack_foldl_raiseWindow (h : d.Managed) {space : P} {desired : List WindowId}
    (hperm : desired.Perm (d.stack ops space)) :
    d.stack ops (desired.foldl (d.raiseWindow ops) space) = desired := by
  obtain ⟨entries, hdesired, hentries⟩ := exists_map_fst_eq
    (R := fun id window => window ∈ ops.elements space ∧ d.windowForId id = some window)
    fun id hid => h.mem_stack.mp (hperm.mem_iff.mp hid)
  have hids : desired.map d.windowForId = (entries.map Prod.snd).map some := by
    rw [← hdesired, List.map_map, List.map_map]
    exact List.map_congr_left fun entry hentry => (hentries entry hentry).2
  have hmapped : ∀ window ∈ entries.map Prod.snd, window ∈ ops.elements space := by
    intro window hwindow
    obtain ⟨entry, hentry, rfl⟩ := List.mem_map.mp hwindow
    exact (hentries entry hentry).1
  have hwindows : (entries.map Prod.snd).Nodup := by
    have hnodup : (entries.map Prod.fst).Nodup :=
      hdesired ▸ hperm.nodup_iff.mpr (h.nodup_stack space)
    refine hnodup.of_map.map_on fun entry hentry entry' hentry' heq => ?_
    exact List.inj_on_of_nodup_map h.nodup_windows
      (h.windowForId_eq_some.mp (hentries entry hentry).2)
      (h.windowForId_eq_some.mp (hentries entry' hentry').2) heq
  -- the windows below them are unknown
  have hunknown : ((ops.elements space).filter fun w => w ∉ entries.map Prod.snd).filterMap
      d.windowIdFor = [] := by
    refine List.filterMap_eq_nil_iff.mpr fun window hwindow => ?_
    obtain ⟨hmem, hnotMem⟩ := List.mem_filter.mp hwindow
    refine Option.eq_none_iff_forall_ne_some.mpr fun id hid => of_decide_eq_true hnotMem ?_
    have hfor := h.windowForId_eq_some.mpr (h.windowIdFor_eq_some.mp hid)
    have hstack : id ∈ entries.map Prod.fst :=
      hdesired ▸ hperm.mem_iff.mpr (h.mem_stack.mpr ⟨window, hmem, hfor⟩)
    obtain ⟨entry, hentry, rfl⟩ := List.mem_map.mp hstack
    exact List.mem_map.mpr
      ⟨entry, hentry, Option.some.inj ((hentries entry hentry).2.symm.trans hfor)⟩
  have hknown : (entries.map Prod.snd).filterMap d.windowIdFor = desired := by
    rw [List.filterMap_map, ← hdesired, ← List.filterMap_eq_map]
    refine List.filterMap_congr fun entry hentry => ?_
    exact h.windowIdFor_eq_some.mpr (h.windowForId_eq_some.mp (hentries entry hentry).2)
  rw [stack, elements_foldl_raiseWindow hids hmapped,
    touchAll_map_true (ops.nodup_elements space) hwindows, List.filterMap_append, hunknown, hknown,
    List.nil_append]

/-- **The commands restack the known windows** as their z-order directives say. -/
theorem Managed.stack_restackSpace (h : d.Managed) (space : P) (commands : List RenderCommand) :
    d.stack ops (d.restackSpace ops space commands) = restack (d.stack ops space) commands := by
  by_cases hpreserve : ∀ cmd ∈ commands, cmd.zOrder = .preserve
  · rw [restackSpace_of_preserve hpreserve, WmProtocolState.restack_of_preserve hpreserve]
  · have hsome : (commands.any fun cmd => cmd.zOrder ≠ .preserve) = true := by
      simpa using hpreserve
    rw [restackSpace, if_pos hsome]
    dsimp only
    split_ifs with hdesired
    · exact h.stack_foldl_raiseWindow (WmProtocolState.restack_perm _ commands)
    · exact (not_not.mp hdesired).symm

end DesktopState

end WayRay
