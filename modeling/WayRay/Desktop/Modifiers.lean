import Mathlib.Data.Finset.Fold
import Mathlib.Data.Finset.Image
import Mathlib.Data.UInt

/-!
# Held modifiers

The `ModifierTracker` of the compositor: the modifier keys held on the network input stream, and the
X11-style bitmask of them that key bindings are matched against.
-/

namespace WayRay

/-! ### Bits and keycodes -/

def modShift : UInt32 := 0x01
def modCtrl : UInt32 := 0x04
def modAlt : UInt32 := 0x08
def modSuper : UInt32 := 0x40

def keyLeftCtrl : UInt32 := 29
def keyLeftShift : UInt32 := 42
def keyRightShift : UInt32 := 54
def keyLeftAlt : UInt32 := 56
def keyRightCtrl : UInt32 := 97
def keyRightAlt : UInt32 := 100
def keyLeftMeta : UInt32 := 125
def keyRightMeta : UInt32 := 126

/-- Tracks which modifier keys are held; left and right variants are distinct keys. -/
@[ext] structure ModifierTracker where
  /-- Held modifier keycodes (evdev). -/
  held : Finset UInt32
deriving DecidableEq

namespace ModifierTracker

/-- Nothing is held. -/
def default : ModifierTracker := ⟨∅⟩

/-- The modifier bit a keycode contributes, if it is a modifier key. -/
def modifierBit (keycode : UInt32) : Option UInt32 :=
  if keycode = keyLeftShift ∨ keycode = keyRightShift then some modShift
  else if keycode = keyLeftCtrl ∨ keycode = keyRightCtrl then some modCtrl
  else if keycode = keyLeftAlt ∨ keycode = keyRightAlt then some modAlt
  else if keycode = keyLeftMeta ∨ keycode = keyRightMeta then some modSuper
  else none

/-- Record a key press or release.  Keys that are no modifiers are ignored. -/
def onKey (t : ModifierTracker) (keycode : UInt32) (pressed : Bool) : ModifierTracker :=
  if (modifierBit keycode).isNone then t
  else if pressed then ⟨insert keycode t.held⟩
  else ⟨t.held.erase keycode⟩

/-- The bitmask of held modifiers. -/
def mask (t : ModifierTracker) : UInt32 :=
  t.held.fold (· ||| ·) 0 fun keycode => (modifierBit keycode).getD 0

/-- Forget all held modifiers. -/
def reset (_ : ModifierTracker) : ModifierTracker := ⟨∅⟩

/-! ### What is held -/

/-- Other keys are ignored. -/
theorem onKey_of_modifierBit {keycode : UInt32} (h : modifierBit keycode = none)
    (t : ModifierTracker) (pressed : Bool) : t.onKey keycode pressed = t :=
  if_pos (Option.isNone_iff_eq_none.mpr h)

/-- A key that no event is about stays as it is. -/
theorem mem_onKey_of_ne {t : ModifierTracker} {keycode k : UInt32} {pressed : Bool}
    (h : k ≠ keycode) : k ∈ (t.onKey keycode pressed).held ↔ k ∈ t.held := by
  unfold onKey
  split_ifs
  · exact Iff.rfl
  · rw [Finset.mem_insert, or_iff_right h]
  · rw [Finset.mem_erase, and_iff_right h]

/-- A modifier key is held after its press, and only then. -/
theorem mem_onKey_self {t : ModifierTracker} {keycode : UInt32} {pressed : Bool}
    (h : (modifierBit keycode).isSome) :
    keycode ∈ (t.onKey keycode pressed).held ↔ pressed = true := by
  unfold onKey
  rw [if_neg (by simpa using Option.isSome_iff_ne_none.mp h)]
  cases pressed with
  | true => exact iff_of_true (Finset.mem_insert_self _ _) rfl
  | false => exact iff_of_false (Finset.notMem_erase _ _) Bool.false_ne_true

/-- What is held after an event of a modifier key. -/
theorem mem_onKey {t : ModifierTracker} {keycode k : UInt32} {pressed : Bool}
    (h : (modifierBit keycode).isSome = true) :
    k ∈ (t.onKey keycode pressed).held ↔ if k = keycode then pressed = true else k ∈ t.held := by
  split_ifs with hk
  · rw [hk, mem_onKey_self h]
  · exact mem_onKey_of_ne hk

end ModifierTracker

end WayRay
