import Mathlib.Data.List.Perm.Basic
import WayRay.Desktop.Modifiers
import WayRay.Wm.Types

/-!
# The built-in window manager

`wm/floating.rs`: the `BuiltinFloatingWm` places new windows in the centre of the output, keeps the
stack of windows by focus, and handles the keyboard shortcuts.

`focused` is the last window of the focus stack.  The lemmas say what each operation does to the
stack: a new or a clicked window comes on top, cycling and raising rearrange the stack, closing a
window that is not focused leaves the focused one on top.
-/

namespace WayRay

/-! ### Policy types -/

/-- What a window manager learns about a new toplevel. -/
structure WindowInfo where
  title : Option String
  appId : Option String
  outputWidth : ℤ
  outputHeight : ℤ
  /-- Size hints from the client. -/
  minSize : Option (ℤ × ℤ)
  maxSize : Option (ℤ × ℤ)

inductive DecorationMode where
  | serverSide
  | clientSide
deriving DecidableEq

/-- A window manager's answer for a new toplevel. -/
structure ManageResponse where
  size : ℤ × ℤ
  position : ℤ × ℤ
  /-- Whether the window should receive keyboard focus. -/
  focus : Bool
  decoration : DecorationMode
deriving DecidableEq

/-! ### Shortcuts -/

def keyF4 : UInt32 := 62
def keyTab : UInt32 := 15
def keyUp : UInt32 := 103
def keyLeft : UInt32 := 105
def keyRight : UInt32 := 106
def keyDown : UInt32 := 108

/-- Half of the output that a window can be snapped to. -/
inductive SnapHalf where
  | left
  | right
  | top
  | bottom
deriving DecidableEq

/-- Map an arrow keycode to its snap half, if it is one. -/
def SnapHalf.fromKey (key : UInt32) : Option SnapHalf :=
  if key = keyLeft then some .left
  else if key = keyRight then some .right
  else if key = keyUp then some .top
  else if key = keyDown then some .bottom
  else none

/-- Position and size of a half of the output; the far halves absorb the odd pixel. -/
def snapGeometry (outputWidth outputHeight : ℤ) : SnapHalf → (ℤ × ℤ) × (ℤ × ℤ)
  | .left => ((0, 0), (outputWidth.tdiv 2, outputHeight))
  | .right => ((outputWidth.tdiv 2, 0), (outputWidth - outputWidth.tdiv 2, outputHeight))
  | .top => ((0, 0), (outputWidth, outputHeight.tdiv 2))
  | .bottom => ((0, outputHeight.tdiv 2), (outputWidth, outputHeight - outputHeight.tdiv 2))

/-! ### The window manager -/

/-- State of a managed window. -/
structure WindowState where
  position : ℤ × ℤ
  size : ℤ × ℤ
  /-- Stack index: higher means more on top. -/
  zIndex : ℕ
  visible : Bool
deriving DecidableEq

structure BuiltinFloatingWm where
  windows : HashMap WindowId WindowState
  /-- The last element is the focused window. -/
  focusStack : List WindowId
  /-- Counter for z-ordering: the number of raises so far, which a `u32` has to hold. -/
  nextZ : ℕ
  outputWidth : ℤ
  outputHeight : ℤ

namespace BuiltinFloatingWm

def new (outputWidth outputHeight : ℤ) : BuiltinFloatingWm :=
  ⟨∅, [], 1, outputWidth, outputHeight⟩

/-- The focused window. -/
def focused (wm : BuiltinFloatingWm) : Option WindowId := wm.focusStack.getLast?

/-- Give a window the next stack index. -/
def raise (wm : BuiltinFloatingWm) (id : WindowId) : BuiltinFloatingWm :=
  match wm.windows.get id with
  | some state =>
    { wm with
      windows := wm.windows.insert id { state with zIndex := wm.nextZ }
      nextZ := wm.nextZ + 1 }
  | none => wm

/-- Cycle focus: the focused window goes to the bottom of the stack. -/
def focusNext (wm : BuiltinFloatingWm) : BuiltinFloatingWm :=
  if wm.focusStack.length < 2 then wm
  else
    let wm := { wm with focusStack := wm.focused.toList ++ wm.focusStack.dropLast }
    match wm.focused with
    | some newFocus => wm.raise newFocus
    | none => wm

/-- Move a window to the top of the focus stack. -/
def raiseToTop (wm : BuiltinFloatingWm) (id : WindowId) : BuiltinFloatingWm :=
  { wm with focusStack := (wm.focusStack.filter fun w => w ≠ id) ++ [id] }.raise id

/-- What cycling returns: the newly focused window. -/
def focusNextResult (wm : BuiltinFloatingWm) : Option WindowId :=
  if wm.focusStack.length < 2 then wm.focused
  else focused { wm with focusStack := wm.focused.toList ++ wm.focusStack.dropLast }

/-- Position and size of a managed window. -/
def geometryOf (wm : BuiltinFloatingWm) (id : WindowId) : Option ((ℤ × ℤ) × (ℤ × ℤ)) :=
  (wm.windows.get id).map fun s => (s.position, s.size)

/-- Snap the focused window to a half of the output; returns whether a window was snapped. -/
def snapFocused (wm : BuiltinFloatingWm) (half : SnapHalf) : Bool × BuiltinFloatingWm :=
  match wm.focused with
  | none => (false, wm)
  | some id =>
    match wm.windows.get id with
    | none => (false, wm)
    | some state =>
      let (position, size) := snapGeometry wm.outputWidth wm.outputHeight half
      (true, { wm with
        windows := wm.windows.insert id { state with position := position, size := size } })

/-- A length within the client's hints; the lower one is tried first. -/
def hinted (length : ℤ) (minLength maxLength : Option ℤ) : ℤ :=
  match minLength.filter (length < ·) with
  | some low => low
  | none =>
    match maxLength.filter (· < length) with
    | some high => high
    | none => length

def onNewToplevel (wm : BuiltinFloatingWm) (id : WindowId) (info : WindowInfo) :
    ManageResponse × BuiltinFloatingWm :=
  let width := hinted (min 800 info.outputWidth) (info.minSize.map Prod.fst)
    (info.maxSize.map Prod.fst)
  let height := hinted (min 600 info.outputHeight) (info.minSize.map Prod.snd)
    (info.maxSize.map Prod.snd)
  let position := ((wm.outputWidth - width).tdiv 2, (wm.outputHeight - height).tdiv 2)
  (⟨(width, height), position, true, .serverSide⟩,
    { wm with
      windows := wm.windows.insert id ⟨position, (width, height), wm.nextZ, true⟩
      focusStack := wm.focusStack ++ [id]
      nextZ := wm.nextZ + 1 })

def onCloseToplevel (wm : BuiltinFloatingWm) (id : WindowId) : BuiltinFloatingWm :=
  { wm with
    windows := wm.windows.remove id
    focusStack := wm.focusStack.filter fun w => w ≠ id }

/-- A managed window covers the output; returns whether it was granted. -/
def onFullscreenRequest (wm : BuiltinFloatingWm) (id : WindowId) : Bool × BuiltinFloatingWm :=
  match wm.windows.get id with
  | some state =>
    let state := { state with position := (0, 0), size := (wm.outputWidth, wm.outputHeight) }
    (true, { wm with windows := wm.windows.insert id state }.raiseToTop id)
  | none => (false, wm)

/-- Returns whether the key press is a shortcut. -/
def onKeyBinding (wm : BuiltinFloatingWm) (key modifiers : UInt32) : Bool × BuiltinFloatingWm :=
  if modifiers &&& modAlt ≠ 0 ∧ key = keyF4 then (true, wm)
  else if modifiers &&& modAlt ≠ 0 ∧ key = keyTab then (true, wm.focusNext)
  else if modifiers &&& modSuper ≠ 0 then
    match SnapHalf.fromKey key with
    | some half => wm.snapFocused half
    | none => (false, wm)
  else (false, wm)

/-- Returns the window that should receive focus when a window is clicked. -/
def onPointerFocus (wm : BuiltinFloatingWm) (id : WindowId) : Option WindowId × BuiltinFloatingWm :=
  if wm.windows.containsKey id then (some id, wm.raiseToTop id) else (none, wm)

/-! ### The focus stack -/

variable {wm : BuiltinFloatingWm} {id : WindowId}

@[simp] theorem raise_focusStack : (wm.raise id).focusStack = wm.focusStack := by
  unfold raise
  cases wm.windows.get id <;> rfl

variable (wm id) in
@[simp] theorem raiseToTop_focusStack :
    (wm.raiseToTop id).focusStack = (wm.focusStack.filter fun w => w ≠ id) ++ [id] :=
  raise_focusStack

@[simp] theorem snapFocused_focusStack (half : SnapHalf) :
    (wm.snapFocused half).2.focusStack = wm.focusStack := by
  unfold snapFocused
  cases wm.focused with
  | none => rfl
  | some id =>
    dsimp only
    cases wm.windows.get id <;> rfl

variable (wm) in
/-- Cycling rearranges the stack. -/
theorem focusNext_perm : (wm.focusNext).focusStack.Perm wm.focusStack := by
  unfold focusNext
  split_ifs with hlength
  · exact List.Perm.refl _
  · have hperm : (wm.focused.toList ++ wm.focusStack.dropLast).Perm wm.focusStack := by
      cases htop : wm.focused with
      | none =>
        rw [List.getLast?_eq_none_iff.mp htop]
        exact List.Perm.refl _
      | some top =>
        obtain ⟨lower, hstack⟩ := List.getLast?_eq_some_iff.mp htop
        rw [hstack, List.dropLast_concat]
        exact List.perm_append_comm
    dsimp only
    cases focused { wm with focusStack := wm.focused.toList ++ wm.focusStack.dropLast } with
    | none => exact hperm
    | some newFocus =>
      dsimp only
      rw [raise_focusStack]
      exact hperm

/-- Raising rearranges the stack. -/
theorem raiseToTop_perm (hnodup : wm.focusStack.Nodup) (hmem : id ∈ wm.focusStack) :
    (wm.raiseToTop id).focusStack.Perm wm.focusStack := by
  have herase : (wm.focusStack.filter fun w => w ≠ id) = wm.focusStack.erase id := by
    rw [hnodup.erase_eq_filter]
    exact List.filter_congr fun w _ => decide_not
  rw [raiseToTop_focusStack, herase]
  exact List.perm_append_comm.trans (List.perm_cons_erase hmem).symm

variable (wm) in
/-- So does a shortcut. -/
theorem onKeyBinding_perm (key modifiers : UInt32) :
    (wm.onKeyBinding key modifiers).2.focusStack.Perm wm.focusStack := by
  unfold onKeyBinding
  split_ifs
  · exact List.Perm.refl _
  · exact focusNext_perm wm
  · cases SnapHalf.fromKey key with
    | none => exact List.Perm.refl _
    | some half => exact List.Perm.of_eq (snapFocused_focusStack half)
  · exact List.Perm.refl _

variable (wm) in
/-- A shortcut other than cycling leaves the stack as it is. -/
theorem onKeyBinding_focusStack {key : UInt32} (hkey : key ≠ keyTab) (modifiers : UInt32) :
    (wm.onKeyBinding key modifiers).2.focusStack = wm.focusStack := by
  unfold onKeyBinding
  split_ifs with hf4 htab
  · rfl
  · exact absurd htab.2 hkey
  · cases SnapHalf.fromKey key with
    | none => rfl
    | some half => exact snapFocused_focusStack half
  · rfl

/-! ### The managed windows -/

/-- The same windows are managed, and as visible as before. -/
def SameWindows (wm wm' : BuiltinFloatingWm) : Prop :=
  ∀ id, (wm'.windows.get id).map WindowState.visible = (wm.windows.get id).map WindowState.visible

theorem sameWindows_refl (wm : BuiltinFloatingWm) : SameWindows wm wm := fun _ => rfl

theorem SameWindows.isSome {wm wm' : BuiltinFloatingWm} (h : SameWindows wm wm') (id : WindowId) :
    (wm'.windows.get id).isSome = (wm.windows.get id).isSome := by
  rw [← Option.isSome_map (f := WindowState.visible), h id, Option.isSome_map]

/-- A window that is managed can change its state. -/
theorem visible_get_insert {windows : HashMap WindowId WindowState} {state state' : WindowState}
    (h : windows.get id = some state) (hvisible : state'.visible = state.visible)
    (other : WindowId) :
    ((windows.insert id state').get other).map WindowState.visible =
      (windows.get other).map WindowState.visible := by
  rw [HashMap.get_insert]
  split_ifs with hid
  · rw [hid, h]
    exact congrArg some hvisible
  · rfl

theorem sameWindows_raise (wm : BuiltinFloatingWm) (id : WindowId) :
    SameWindows wm (wm.raise id) := by
  unfold raise
  cases hget : wm.windows.get id with
  | none => exact sameWindows_refl wm
  | some state => exact visible_get_insert hget rfl

theorem sameWindows_raiseToTop (wm : BuiltinFloatingWm) (id : WindowId) :
    SameWindows wm (wm.raiseToTop id) :=
  sameWindows_raise { wm with focusStack := (wm.focusStack.filter fun w => w ≠ id) ++ [id] } id

theorem sameWindows_focusNext (wm : BuiltinFloatingWm) : SameWindows wm wm.focusNext := by
  unfold focusNext
  split_ifs
  · exact sameWindows_refl wm
  · dsimp only
    cases focused { wm with focusStack := wm.focused.toList ++ wm.focusStack.dropLast } with
    | none => exact sameWindows_refl wm
    | some newFocus =>
      exact sameWindows_raise
        { wm with focusStack := wm.focused.toList ++ wm.focusStack.dropLast } newFocus

theorem sameWindows_snapFocused (wm : BuiltinFloatingWm) (half : SnapHalf) :
    SameWindows wm (wm.snapFocused half).2 := by
  unfold snapFocused
  cases wm.focused with
  | none => exact sameWindows_refl wm
  | some id =>
    dsimp only
    cases hget : wm.windows.get id with
    | none => exact sameWindows_refl wm
    | some state => exact visible_get_insert hget rfl

theorem sameWindows_onKeyBinding (wm : BuiltinFloatingWm) (key modifiers : UInt32) :
    SameWindows wm (wm.onKeyBinding key modifiers).2 := by
  unfold onKeyBinding
  split_ifs
  · exact sameWindows_refl wm
  · exact sameWindows_focusNext wm
  · cases SnapHalf.fromKey key with
    | none => exact sameWindows_refl wm
    | some half => exact sameWindows_snapFocused wm half
  · exact sameWindows_refl wm

/-! ### The focused window -/

theorem focused_of_focusStack_concat {lower : List WindowId} (h : wm.focusStack = lower ++ [id]) :
    wm.focused = some id := by
  rw [focused, h, List.getLast?_concat]

/-- A window is focused if there is one. -/
theorem exists_focused (h : wm.focusStack ≠ []) : ∃ id ∈ wm.focusStack, wm.focused = some id :=
  ⟨wm.focusStack.getLast h, List.getLast_mem h, List.getLast?_eq_some_getLast h⟩

/-- Closing another window leaves the focused one on top. -/
theorem focused_onCloseToplevel {closed : WindowId} (h : wm.focused = some id) (hne : id ≠ closed) :
    (wm.onCloseToplevel closed).focused = some id := by
  obtain ⟨lower, hstack⟩ := List.getLast?_eq_some_iff.mp h
  have hkept : (wm.onCloseToplevel closed).focusStack =
      (lower.filter fun w => w ≠ closed) ++ [id] := by
    simp [onCloseToplevel, hstack, hne]
  exact focused_of_focusStack_concat hkept

end BuiltinFloatingWm

end WayRay
