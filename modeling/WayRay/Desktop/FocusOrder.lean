import WayRay.Collections.GuardedRun
import WayRay.Collections.Rotation
import WayRay.Desktop.Floating

/-!
# The focus order of the built-in window manager

The `BuiltinFloatingWm` keeps the managed windows in two containers, a map with their states and the
stack by focus.  `InStep` says that they hold the same windows; every callback keeps them in step,
also one for a window that is not managed (`InStep.step`).

Cycling the focus cycles the stack (`focusNext_focusStack`), so as many calls as there are windows
focus each of them once and give the stack back (`focusOrder_run`).
-/

namespace WayRay

open GuardedRun Rotation

/-- A call of the built-in WM that changes its state. -/
inductive FloatingCall where
  | newToplevel (id : WindowId) (info : WindowInfo)
  | closeToplevel (id : WindowId)
  | fullscreenRequest (id : WindowId)
  | pointerFocus (id : WindowId)
  | keyBinding (key modifiers : UInt32)
  | focusNext

namespace BuiltinFloatingWm

def step (wm : BuiltinFloatingWm) : FloatingCall → BuiltinFloatingWm
  | .newToplevel id info => (wm.onNewToplevel id info).2
  | .closeToplevel id => wm.onCloseToplevel id
  | .fullscreenRequest id => (wm.onFullscreenRequest id).2
  | .pointerFocus id => (wm.onPointerFocus id).2
  | .keyBinding key modifiers => (wm.onKeyBinding key modifiers).2
  | .focusNext => wm.focusNext

/-- A new toplevel comes with an id that is not managed. -/
def FreshId (wm : BuiltinFloatingWm) : FloatingCall → Prop
  | .newToplevel id _ => wm.windows.get id = none
  | _ => True

/-- Several calls of `focus_next`: the windows they return, and the state afterwards. -/
def focusNextTimes : ℕ → BuiltinFloatingWm → List (Option WindowId) × BuiltinFloatingWm
  | 0, wm => ([], wm)
  | k + 1, wm =>
    let rest := focusNextTimes k wm.focusNext
    (wm.focusNextResult :: rest.1, rest.2)

/-! ### The two containers -/

/-- The focus stack holds each managed window once. -/
structure InStep (wm : BuiltinFloatingWm) : Prop where
  nodup : wm.focusStack.Nodup
  mem_iff : ∀ id, id ∈ wm.focusStack ↔ (wm.windows.get id).isSome

section Callbacks

variable {wm wm' : BuiltinFloatingWm}

theorem InStep.perm_keys (h : wm.InStep) : wm.focusStack.Perm wm.windows.keys := by
  rw [List.perm_ext_iff_of_nodup h.nodup wm.windows.keys_nodup]
  intro id
  rw [h.mem_iff, HashMap.mem_keys, Option.isSome_iff_exists]

/-- Rearranging the stack keeps the containers in step. -/
theorem InStep.rearrange (h : wm.InStep) (hperm : wm'.focusStack.Perm wm.focusStack)
    (hsame : SameWindows wm wm') : wm'.InStep where
  nodup := hperm.nodup_iff.mpr h.nodup
  mem_iff id := by rw [hperm.mem_iff, h.mem_iff, hsame.isSome]

theorem InStep.raiseToTop (h : wm.InStep) {id : WindowId} (hid : (wm.windows.get id).isSome) :
    (wm.raiseToTop id).InStep :=
  h.rearrange (raiseToTop_perm h.nodup ((h.mem_iff id).mpr hid)) (sameWindows_raiseToTop wm id)

theorem InStep.onNewToplevel (h : wm.InStep) {id : WindowId} (hid : wm.windows.get id = none)
    (info : WindowInfo) : (wm.onNewToplevel id info).2.InStep where
  nodup := by
    have hnew : id ∉ wm.focusStack := by
      rw [h.mem_iff, hid]
      exact Bool.false_ne_true
    exact (List.perm_append_singleton id wm.focusStack).nodup_iff.mpr
      (List.nodup_cons.mpr ⟨hnew, h.nodup⟩)
  mem_iff other := by
    have hold := h.mem_iff other
    simp only [BuiltinFloatingWm.onNewToplevel, List.mem_append, List.mem_singleton,
      HashMap.get_insert]
    split_ifs with hother
    · simp [hother]
    · simp [hother, hold]

theorem InStep.onCloseToplevel (h : wm.InStep) (id : WindowId) :
    (wm.onCloseToplevel id).InStep where
  nodup := h.nodup.filter _
  mem_iff other := by
    have hold := h.mem_iff other
    simp only [BuiltinFloatingWm.onCloseToplevel, List.mem_filter, HashMap.get_remove]
    split_ifs with hother
    · simp [hother]
    · simp [hother, hold]

theorem InStep.onFullscreenRequest (h : wm.InStep) (id : WindowId) :
    (wm.onFullscreenRequest id).2.InStep := by
  unfold BuiltinFloatingWm.onFullscreenRequest
  cases hget : wm.windows.get id with
  | none => exact h
  | some state =>
    let covering : WindowState :=
      { state with position := (0, 0), size := (wm.outputWidth, wm.outputHeight) }
    have hvisible : ∀ other, ((wm.windows.insert id covering).get other).map WindowState.visible =
        (wm.windows.get other).map WindowState.visible := visible_get_insert hget rfl
    have hcovered : InStep { wm with windows := wm.windows.insert id covering } :=
      h.rearrange (List.Perm.refl _) hvisible
    exact hcovered.raiseToTop (Option.isSome_of_eq_some (HashMap.get_insert_self _ _ _))

theorem InStep.onPointerFocus (h : wm.InStep) (id : WindowId) :
    (wm.onPointerFocus id).2.InStep := by
  unfold BuiltinFloatingWm.onPointerFocus
  split_ifs with hid
  · exact h.raiseToTop hid
  · exact h

/-- Every callback keeps the containers in step. -/
theorem InStep.step (h : wm.InStep) {call : FloatingCall} (hfresh : wm.FreshId call) :
    (wm.step call).InStep := by
  cases call with
  | newToplevel id info => exact h.onNewToplevel hfresh info
  | closeToplevel id => exact h.onCloseToplevel id
  | fullscreenRequest id => exact h.onFullscreenRequest id
  | pointerFocus id => exact h.onPointerFocus id
  | keyBinding key modifiers =>
    exact h.rearrange (wm.onKeyBinding_perm key modifiers)
      (sameWindows_onKeyBinding wm key modifiers)
  | focusNext => exact h.rearrange wm.focusNext_perm (sameWindows_focusNext wm)

theorem inStep_new (outputWidth outputHeight : ℤ) : (new outputWidth outputHeight).InStep where
  nodup := List.nodup_nil
  mem_iff id := by simp [new]

end Callbacks

/-! ### Cycling -/

section Cycling

variable (wm : BuiltinFloatingWm)

theorem focusNext_focusStack : wm.focusNext.focusStack = cycle wm.focusStack := by
  unfold focusNext
  split_ifs with hlength
  · exact (cycle_of_length_lt_two hlength).symm
  · dsimp only
    cases focused { wm with focusStack := wm.focused.toList ++ wm.focusStack.dropLast } with
    | none => rfl
    | some newFocus => exact raise_focusStack

/-- Cycling returns the window that is focused afterwards. -/
theorem focusNextResult_eq : wm.focusNextResult = wm.focusNext.focused := by
  have hcycled : wm.focusNext.focused = (cycle wm.focusStack).getLast? := by
    rw [focused, focusNext_focusStack]
  unfold focusNextResult
  split_ifs with hlength
  · rw [hcycled, cycle_of_length_lt_two hlength]
    rfl
  · exact hcycled.symm

/-- Several calls cycle the stack, and return its last element after each cycle. -/
theorem focusNextTimes_eq (k : ℕ) :
    (focusNextTimes k wm).1 = tops k (cycle wm.focusStack) ∧
      (focusNextTimes k wm).2.focusStack = cycle^[k] wm.focusStack := by
  induction k generalizing wm with
  | zero => exact ⟨rfl, rfl⟩
  | succ k ih =>
    obtain ⟨hfocused, hstack⟩ := ih wm.focusNext
    constructor
    · rw [focusNextTimes, tops, hfocused, focusNextResult_eq, focused, focusNext_focusStack]
    · rw [focusNextTimes, hstack, focusNext_focusStack, Function.iterate_succ_apply]

/-- **Cycling through all windows** focuses each of them once and gives the stack back. -/
theorem focusNextTimes_length :
    (focusNextTimes wm.focusStack.length wm).1.Perm (wm.focusStack.map some) ∧
      (focusNextTimes wm.focusStack.length wm).2.focusStack = wm.focusStack := by
  obtain ⟨hfocused, hstack⟩ := wm.focusNextTimes_eq wm.focusStack.length
  have hcycled := cycle_perm wm.focusStack
  constructor
  · rw [hfocused, ← hcycled.length_eq, tops_length]
    exact ((List.reverse_perm _).trans hcycled).map some
  · rw [hstack, iterate_cycle_length]

end Cycling

/-- **The focus order**: after any calls with any ids, where new toplevels come with ids that are
not managed, the focus stack is a rearrangement of the managed windows, none of which occurs twice;
and as many calls of `focus_next` as there are windows return each managed window once and give the
stack back. -/
theorem focusOrder_run {outputWidth outputHeight : ℤ} {calls : List FloatingCall}
    (hfresh : Along step FreshId (new outputWidth outputHeight) calls) :
    let wm := calls.foldl step (new outputWidth outputHeight)
    wm.focusStack.Nodup ∧ wm.focusStack.Perm wm.windows.keys ∧
      (focusNextTimes wm.windows.keys.length wm).1.Perm (wm.windows.keys.map some) ∧
      (focusNextTimes wm.windows.keys.length wm).2.focusStack = wm.focusStack := by
  intro wm
  have hstep : wm.InStep :=
    hfresh.invariant (I := InStep) (fun _ _ h hcall => h.step hcall) (inStep_new _ _)
  obtain ⟨hfocused, hstack⟩ := wm.focusNextTimes_length
  have hkeys := hstep.perm_keys
  rw [hkeys.length_eq] at hfocused hstack
  exact ⟨hstep.nodup, hkeys, hfocused.trans (hkeys.map some), hstack⟩

/-- Two windows, one of them clicked, and calls for a window that is not there. -/
theorem focusOrder_run_clicked :
    let info : WindowInfo := ⟨none, none, 1280, 720, none, none⟩
    let wm := [FloatingCall.newToplevel ⟨1⟩ info, .newToplevel ⟨2⟩ info, .pointerFocus ⟨1⟩,
      .fullscreenRequest ⟨7⟩, .closeToplevel ⟨7⟩, .focusNext].foldl step (new 1280 720)
    wm.focusStack.Nodup ∧ wm.focusStack.Perm wm.windows.keys ∧
      (focusNextTimes wm.windows.keys.length wm).1.Perm (wm.windows.keys.map some) ∧
      (focusNextTimes wm.windows.keys.length wm).2.focusStack = wm.focusStack :=
  focusOrder_run ⟨rfl, rfl, trivial, trivial, trivial, trivial, trivial⟩

end BuiltinFloatingWm

end WayRay
