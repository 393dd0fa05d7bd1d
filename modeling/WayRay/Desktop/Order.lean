import WayRay.Desktop.Render

/-!
# Stacking without directives

A batch whose z-order directives are all `preserve` is meant to leave the stacking order alone.  But
a window that is mapped to set its position comes on top, and without directives there is no second
pass that would restore the order.  So the windows that stay mapped end up in the order of their
commands, above those without one; `preserve_keepsOrder_iff` says when this is the order they had.
-/

namespace WayRay

open Recency

namespace DesktopState

variable {P : Type} (ops : StackedSpace P) (d : DesktopState P)

/-- The windows that are mapped before and after are stacked in the same order. -/
def KeepsOrder (before after : P) : Prop :=
  ((ops.elements after).filter fun window => window ∈ ops.elements before) =
    (ops.elements before).filter fun window => window ∈ ops.elements after

instance (before after : P) : Decidable (KeepsOrder ops before after) :=
  inferInstanceAs (Decidable (_ = _))

/-- The mapped windows that the last of their commands does not hide are stacked in the order of
these commands, above those without a command. -/
def InCommandOrder (commands : List RenderCommand) : Prop :=
  ((ops.elements d.space).filter (stays (d.placements commands))).Pairwise fun lower upper =>
    staleness (d.placements commands) upper ≤ staleness (d.placements commands) lower

theorem onRender_preserve (wm : BuiltinFloatingWm) (windows : List WindowId) :
    ∀ cmd ∈ wm.onRender windows, cmd.zOrder = .preserve := by
  intro cmd hcmd
  obtain ⟨id, -, hid⟩ := List.mem_filterMap.mp hcmd
  obtain ⟨state, -, rfl⟩ := Option.map_eq_some_iff.mp hid
  rfl

/-- **A batch without z-order directives keeps the stacking order** of the windows that stay mapped
exactly if they are in command order already; so does the batch of the built-in WM for a frame. -/
theorem preserve_keepsOrder_iff :
    (∀ commands : List RenderCommand, (∀ cmd ∈ commands, cmd.zOrder = .preserve) →
      (KeepsOrder ops d.space (d.applyRenderCommands ops commands).space ↔
        d.InCommandOrder ops commands)) ∧
    (KeepsOrder ops d.space (d.applyWmRenderCommands ops).space ↔
      d.InCommandOrder ops (d.builtin.onRender (d.windowIds.map Prod.fst))) := by
  have hbatch : ∀ commands : List RenderCommand, (∀ cmd ∈ commands, cmd.zOrder = .preserve) →
      (KeepsOrder ops d.space (d.applyRenderCommands ops commands).space ↔
        d.InCommandOrder ops commands) := by
    intro commands hpreserve
    have helements : ops.elements (d.applyRenderCommands ops commands).space =
        touchAll (ops.elements d.space) (d.placements commands) := by
      rw [← elements_foldl_placeWindow]
      exact congrArg ops.elements (restackSpace_of_preserve hpreserve _)
    rw [KeepsOrder, helements]
    exact order_kept_iff _ (ops.nodup_elements d.space)
  exact ⟨hbatch, hbatch _ (onRender_preserve _ _)⟩

/-- Two windows are open, the second one above the first. -/
def twoWindows : DesktopState PlacedWindows :=
  [UserEvent.newToplevel none, .newToplevel none].foldl (userStep placedWindows.toSpaceOps)
    (start .empty (1000, 800) (some .new))

/-- The upper window is moved. -/
theorem preserve_keepsOrder_upper :
    KeepsOrder placedWindows twoWindows.space
      (twoWindows.applyRenderCommands placedWindows [⟨⟨2⟩, (50, 60), .preserve, true⟩]).space :=
  ((preserve_keepsOrder_iff placedWindows twoWindows).1 _ (by simp)).mpr
    (by unfold InCommandOrder; decide +kernel)

/-- The lower window comes on top by a focus switch, and goes back with the next frame. -/
theorem focus_switch_undone :
    ¬ ∀ events : List (UserEvent PlacedWindows),
      let d := events.foldl (userStep placedWindows.toSpaceOps)
        (start .empty (1000, 800) (some .new))
      KeepsOrder placedWindows d.space (d.renderFrame placedWindows).space := by
  intro h
  have hswitched := h [.newToplevel none, .newToplevel none, .input (.keyboard ⟨56, .pressed, 0⟩),
    .input (.keyboard ⟨15, .pressed, 0⟩)]
  exact absurd hswitched (by decide +kernel)

end DesktopState

end WayRay
