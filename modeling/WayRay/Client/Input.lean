import Mathlib.Data.Nat.Notation
import WayRay.Protocol.Messages

/-!
# The client's input

`wrclient/input.rs` and the window events of the client: how keys, modifiers and the pointer become
input messages.

Modifier keys are not sent as keys.  The client sends the changes of the modifier state that its
window system reports (`convertModifiers`), and a letter that caps lock has changed between a press
and a release of Shift (`convertKeyboard`).
-/

namespace WayRay

namespace ClientInput

/-! ### Keys -/

/-- Physical keys. -/
inductive KeyCode where
  | escape | digit1 | digit2 | digit3 | digit4 | digit5 | digit6 | digit7 | digit8 | digit9
  | digit0 | minus | equal | backspace | tab | keyQ | keyW | keyE | keyR | keyT | keyY | keyU
  | keyI | keyO | keyP | bracketLeft | bracketRight | enter | controlLeft | keyA | keyS | keyD
  | keyF | keyG | keyH | keyJ | keyK | keyL | semicolon | quote | backquote | shiftLeft
  | backslash | keyZ | keyX | keyC | keyV | keyB | keyN | keyM | comma | period | slash
  | shiftRight | altLeft | space | capsLock | f1 | f2 | f3 | f4 | f5 | f6 | f7 | f8 | f9 | f10
  | numLock | scrollLock | f11 | f12 | controlRight | altRight | home | arrowUp | pageUp
  | arrowLeft | arrowRight | endKey | arrowDown | pageDown | insert | delete | superLeft
  | superRight
  /-- A key that is not mapped. -/
  | other (raw : ℕ)
deriving DecidableEq

/-- Map a physical key to its evdev keycode. -/
def keycodeToEvdev : KeyCode → Option UInt32
  | .escape => some 1
  | .digit1 => some 2
  | .digit2 => some 3
  | .digit3 => some 4
  | .digit4 => some 5
  | .digit5 => some 6
  | .digit6 => some 7
  | .digit7 => some 8
  | .digit8 => some 9
  | .digit9 => some 10
  | .digit0 => some 11
  | .minus => some 12
  | .equal => some 13
  | .backspace => some 14
  | .tab => some 15
  | .keyQ => some 16
  | .keyW => some 17
  | .keyE => some 18
  | .keyR => some 19
  | .keyT => some 20
  | .keyY => some 21
  | .keyU => some 22
  | .keyI => some 23
  | .keyO => some 24
  | .keyP => some 25
  | .bracketLeft => some 26
  | .bracketRight => some 27
  | .enter => some 28
  | .controlLeft => some 29
  | .keyA => some 30
  | .keyS => some 31
  | .keyD => some 32
  | .keyF => some 33
  | .keyG => some 34
  | .keyH => some 35
  | .keyJ => some 36
  | .keyK => some 37
  | .keyL => some 38
  | .semicolon => some 39
  | .quote => some 40
  | .backquote => some 41
  | .shiftLeft => some 42
  | .backslash => some 43
  | .keyZ => some 44
  | .keyX => some 45
  | .keyC => some 46
  | .keyV => some 47
  | .keyB => some 48
  | .keyN => some 49
  | .keyM => some 50
  | .comma => some 51
  | .period => some 52
  | .slash => some 53
  | .shiftRight => some 54
  | .altLeft => some 56
  | .space => some 57
  | .capsLock => some 58
  | .f1 => some 59
  | .f2 => some 60
  | .f3 => some 61
  | .f4 => some 62
  | .f5 => some 63
  | .f6 => some 64
  | .f7 => some 65
  | .f8 => some 66
  | .f9 => some 67
  | .f10 => some 68
  | .numLock => some 69
  | .scrollLock => some 70
  | .f11 => some 87
  | .f12 => some 88
  | .controlRight => some 97
  | .altRight => some 100
  | .home => some 102
  | .arrowUp => some 103
  | .pageUp => some 104
  | .arrowLeft => some 105
  | .arrowRight => some 106
  | .endKey => some 107
  | .arrowDown => some 108
  | .pageDown => some 109
  | .insert => some 110
  | .delete => some 111
  | .superLeft => some 125
  | .superRight => some 126
  | .other _ => none

def keyLeftShift : UInt32 := 42
def keyLeftCtrl : UInt32 := 29
def keyLeftAlt : UInt32 := 56
def keyLeftMeta : UInt32 := 125

/-- Whether a key is a modifier driven by `convertModifiers`. -/
def isModifierKey : KeyCode → Bool
  | .shiftLeft | .shiftRight | .controlLeft | .controlRight | .altLeft | .altRight | .superLeft
  | .superRight => true
  | _ => false

/-- The modifiers that the window system reports as held. -/
structure ModifiersState where
  shiftKey : Bool
  controlKey : Bool
  altKey : Bool
  superKey : Bool
deriving DecidableEq

def ModifiersState.empty : ModifiersState := ⟨false, false, false, false⟩

/-- A key event of the window system. -/
structure KeyEvent where
  /-- None for a key it cannot identify. -/
  physicalKey : Option KeyCode
  state : KeyState
  text : Option String

/-! ### Messages -/

def keyMessage (keycode : UInt32) (pressed : Bool) : InputMessage :=
  .keyboard ⟨keycode, if pressed then .pressed else .released, 0⟩

/-- The letter that a text consists of. -/
def letterOf (text : Option String) : Option Char :=
  match text.map String.toList with
  | some [c] => if c.isAlpha then some c else none
  | _ => none

/-- Convert a key event.  `realShift` is the physical state of Shift. -/
def convertKeyboard (event : KeyEvent) (realShift : Bool) : List InputMessage :=
  match event.physicalKey with
  | none => []
  | some code =>
    if isModifierKey code ∨ code = .capsLock then []
    else
      match keycodeToEvdev code with
      | none => []
      | some keycode =>
        let key := keyMessage keycode (event.state = .pressed)
        match if event.state = .pressed then letterOf event.text else none with
        | none => [key]
        | some c =>
          -- if the case is not what Shift makes it, caps lock is responsible
          if c.isUpper = realShift then [key]
          else [keyMessage keyLeftShift c.isUpper, key, keyMessage keyLeftShift realShift]

/-- The change of one modifier. -/
def emit (was is : Bool) (keycode : UInt32) : List InputMessage :=
  if was = is then [] else [keyMessage keycode is]

/-- The changes of the modifiers between two states. -/
def convertModifiers (prev now : ModifiersState) : List InputMessage :=
  emit prev.shiftKey now.shiftKey keyLeftShift ++ emit prev.controlKey now.controlKey keyLeftCtrl ++
    emit prev.altKey now.altKey keyLeftAlt ++ emit prev.superKey now.superKey keyLeftMeta

inductive MouseButton where
  | left
  | right
  | middle
  | back
  | forward
  | other (code : UInt16)
deriving DecidableEq

def convertMouseButton (button : MouseButton) (state : ButtonState) : InputMessage :=
  let code : UInt32 :=
    match button with
    | .left => 0x110
    | .right => 0x111
    | .middle => 0x112
    | .back => 0x116
    | .forward => 0x115
    | .other code => 0x110 + code.toUInt32
  .pointerButton ⟨code, state, 0⟩

/-! ### Window events -/

inductive WindowEvent where
  | keyboardInput (event : KeyEvent)
  | modifiersChanged (state : ModifiersState)
  | cursorMoved (x y : UInt64)
  | mouseInput (button : MouseButton) (state : ButtonState)
  /-- The amounts by which the axes are scrolled. -/
  | mouseWheel (amounts : List (Axis × UInt64))
  /-- An event that sends no input. -/
  | other

/-- The messages that a window event sends, and the modifiers after it. -/
def windowEvent (modifiers : ModifiersState) : WindowEvent → List InputMessage × ModifiersState
  | .keyboardInput event => (convertKeyboard event modifiers.shiftKey, modifiers)
  | .modifiersChanged state => (convertModifiers modifiers state, state)
  | .cursorMoved x y => ([.pointerMotion ⟨x, y, 0⟩], modifiers)
  | .mouseInput button state => ([convertMouseButton button state], modifiers)
  | .mouseWheel amounts =>
    (amounts.map fun amount => .pointerAxis ⟨amount.1, amount.2, 0⟩, modifiers)
  | .other => ([], modifiers)

end ClientInput

end WayRay
