import WayRay.Desktop.Floating
import WayRay.Protocol.Messages
import WayRay.Wm.Protocol

/-!
# The desktop

The compositor state of `state.rs` as far as input, focus and window management go, and the handlers
that change it: network input, toplevels that come and go, and the requests of window managers.

* `DesktopState P` is the state (`WayRay` in the source).  The arrangement of the windows on screen
  (`Space`) is a type parameter `P`, since what lies under the pointer also depends on what the
  clients draw; `SpaceOps` gives its operations.
* A `Surface` stands for a toplevel's surface and for the window made from it.
* `UserEvent` collects what users and applications do, `DesktopEvent` adds the window managers.

Pointer coordinates are those of the wire.
-/

namespace WayRay

/-- The surface of a toplevel. -/
structure Surface where
  raw : ℕ
deriving DecidableEq

/-! ### The seat -/

/-- What the seat's keyboard and pointer hold. -/
structure SeatState where
  /-- Pressed keys, as xkb keycodes. -/
  pressedKeys : Finset UInt32
  /-- The surface with the keyboard focus. -/
  focus : Option Surface
  pointer : UInt64 × UInt64
  /-- Pressed pointer buttons. -/
  pressedButtons : Finset UInt32

namespace SeatState

/-- A key event that is forwarded to the keyboard. -/
def input (seat : SeatState) (keycode : UInt32) : KeyState → SeatState
  | .pressed => { seat with pressedKeys := insert keycode seat.pressedKeys }
  | .released => { seat with pressedKeys := seat.pressedKeys.erase keycode }

@[simp] theorem input_focus (seat : SeatState) (keycode : UInt32) (state : KeyState) :
    (seat.input keycode state).focus = seat.focus := by
  cases state <;> rfl

/-- A button event: a press is held until the button is released. -/
def button (seat : SeatState) (button : UInt32) : ButtonState → SeatState
  | .pressed => { seat with pressedButtons := insert button seat.pressedButtons }
  | .released => { seat with pressedButtons := seat.pressedButtons.erase button }

/-- Keys are released one after the other; the order does not matter (`foldl_release`). -/
def releaseKeys (seat : SeatState) (keycodes : Finset UInt32) : SeatState :=
  { seat with pressedKeys := seat.pressedKeys \ keycodes }

def setFocus (seat : SeatState) (surface : Surface) : SeatState :=
  { seat with focus := some surface }

/-- A surface is destroyed. -/
def surfaceDestroyed (seat : SeatState) (surface : Surface) : SeatState :=
  { seat with focus := seat.focus.filter (· ≠ surface) }

end SeatState

/-- The xkb keycode of an evdev keycode. -/
def xkbKeycode (keycode : UInt32) : UInt32 := keycode + 8

/-- The operations on the arrangement of windows. -/
structure SpaceOps (P : Type) where
  mapElement : Surface → ℤ × ℤ → P → P
  unmapElem : Surface → P → P
  raiseElement : Surface → P → P
  /-- The window under a point. -/
  elementUnder : UInt64 × UInt64 → P → Option Surface

/-- What toplevels are asked for: changes of their pending state, and to close. -/
inductive ToplevelRequest where
  | size (surface : Surface) (size : ℤ × ℤ)
  | fullscreen (surface : Surface) (granted : Bool)
  | decoration (surface : Surface) (mode : DecorationMode)
  | close (surface : Surface)
deriving DecidableEq

/-- Whether the event is a press. -/
def KeyboardEvent.pressed (ev : KeyboardEvent) : Bool := ev.state = .pressed

/-! ### State -/

structure DesktopState (P : Type) where
  space : P
  seat : SeatState
  /-- The size of the output. -/
  output : ℤ × ℤ
  builtin : BuiltinFloatingWm
  protocol : Option WmProtocolState
  windowIds : List (WindowId × Surface)
  /-- Counter for allocating window ids. -/
  nextWindowId : ℕ
  /-- Keycodes held down via the network input stream (evdev). -/
  pressedKeys : Finset UInt32
  modifiers : ModifierTracker
  /-- Clipboard data received from the client, with its mime type. -/
  remoteClipboard : Option (String × Bytes)
  /-- The surfaces that applications have created. -/
  surfaces : ℕ
  /-- What toplevels have been asked for. -/
  requests : List ToplevelRequest
  /-- The events sent to the seat objects of window managers. -/
  seatEvents : List WmSeatEvent

/-- What users and applications do. -/
inductive UserEvent (P : Type) where
  | input (msg : InputMessage)
  /-- An application creates a toplevel; the object for an external WM. -/
  | newToplevel (object : Option ObjectId)
  /-- A toplevel is destroyed with its surface. -/
  | toplevelDestroyed (surface : Surface)
  /-- A frame is rendered, or applications draw: the arrangement changes. -/
  | arranged (space : P)

/-- What happens on the desktop. -/
inductive DesktopEvent (P : Type) where
  | user (event : UserEvent P)
  | wm (event : WmEvent)

namespace DesktopState

variable {P : Type}

/-- The state a compositor starts with. -/
def start (space : P) (output : ℤ × ℤ) (protocol : Option WmProtocolState) : DesktopState P where
  space := space
  seat := ⟨∅, none, (0, 0), ∅⟩
  output := output
  builtin := .new output.1 output.2
  protocol := protocol
  windowIds := []
  nextWindowId := 1
  pressedKeys := ∅
  modifiers := .default
  remoteClipboard := none
  surfaces := 0
  requests := []
  seatEvents := []

/-- The window id of a window. -/
def windowIdFor (d : DesktopState P) (surface : Surface) : Option WindowId :=
  (d.windowIds.find? fun entry => entry.2 = surface).map Prod.fst

/-- The window of a window id. -/
def windowForId (d : DesktopState P) (id : WindowId) : Option Surface :=
  (d.windowIds.find? fun entry => entry.1 = id).map Prod.snd

/-- The window that the built-in WM reports as focused. -/
def focusedWindow (d : DesktopState P) : Option Surface := d.builtin.focused.bind d.windowForId

/-- Whether an external WM is connected. -/
def wmConnected (d : DesktopState P) : Bool := d.protocol.any WmProtocolState.isWmConnected

def request (d : DesktopState P) (requests : List ToplevelRequest) : DesktopState P :=
  { d with requests := d.requests ++ requests }

/-- Raise a window and give it the keyboard focus. -/
def raiseAndFocus (ops : SpaceOps P) (d : DesktopState P) (surface : Surface) : DesktopState P :=
  { d with space := ops.raiseElement surface d.space, seat := d.seat.setFocus surface }

/-! ### Keyboard input -/

/-- The modifiers held when a key event is matched against bindings: its own key counts. -/
def modifiersAfter (d : DesktopState P) (ev : KeyboardEvent) : ModifierTracker :=
  d.modifiers.onKey ev.keycode ev.pressed

/-- The shortcuts of the built-in WM, as far as the compositor acts on them. -/
def performShortcut (ops : SpaceOps P) (d : DesktopState P) (keycode : UInt32) : DesktopState P :=
  match d.focusedWindow with
  | none => d
  | some window =>
    if keycode = keyF4 then d.request [.close window]
    else if keycode = keyTab then d.raiseAndFocus ops window
    else if (SnapHalf.fromKey keycode).isSome then
      d.request ((d.builtin.focused.bind d.builtin.geometryOf).toList.map fun geometry =>
        .size window geometry.2)
    else d

/-- Forward a key event to the seat's keyboard, and track the keys held. -/
def forwardKey (d : DesktopState P) (ev : KeyboardEvent) : DesktopState P :=
  { d with
    seat := d.seat.input (xkbKeycode ev.keycode) ev.state
    pressedKeys :=
      if ev.pressed then insert ev.keycode d.pressedKeys else d.pressedKeys.erase ev.keycode }

/-- Whether an external WM wants the key, and the event for its seat object. -/
def checkWmBinding (d : DesktopState P) (key modifiers : UInt32) (pressed : Bool) :
    Bool × List WmSeatEvent :=
  match d.protocol with
  | some proto => proto.checkKeyBinding key modifiers pressed
  | none => (false, [])

/-- A key event of the network client. -/
def injectKeyboard (ops : SpaceOps P) (d : DesktopState P) (ev : KeyboardEvent) :
    DesktopState P :=
  let d := { d with modifiers := d.modifiersAfter ev }
  let modifiers := d.modifiers.mask
  -- an external WM that wants the key gets it first, pressed or released
  let (bound, seatEvents) := d.checkWmBinding ev.keycode modifiers ev.pressed
  if bound then { d with seatEvents := d.seatEvents ++ seatEvents }
  else
    -- the built-in WM is asked about presses only
    let (shortcut, builtin) :=
      if ev.pressed then d.builtin.onKeyBinding ev.keycode modifiers else (false, d.builtin)
    let d := { d with builtin := builtin }
    if shortcut then d.performShortcut ops ev.keycode else d.forwardKey ev

/-- Release every key currently held via the network input stream. -/
def releaseAllKeys (d : DesktopState P) : DesktopState P :=
  let d := { d with modifiers := d.modifiers.reset }
  if d.pressedKeys = ∅ then d
  else
    { d with
      pressedKeys := ∅
      seat := d.seat.releaseKeys (d.pressedKeys.image xkbKeycode) }

/-! ### Pointer input -/

/-- The window that a click focuses, and the built-in WM after it. -/
def clickToFocus (ops : SpaceOps P) (d : DesktopState P) : Option Surface × BuiltinFloatingWm :=
  match (ops.elementUnder d.seat.pointer d.space).bind d.windowIdFor with
  | none => (none, d.builtin)
  | some id =>
    let (focus, builtin) := d.builtin.onPointerFocus id
    (focus.bind d.windowForId, builtin)

/-- A pointer button is pressed or released. -/
def injectButton (ops : SpaceOps P) (d : DesktopState P) (ev : PointerButton) : DesktopState P :=
  let d :=
    match ev.state with
    | .released => d
    | .pressed =>
      let (focusWindow, builtin) := d.clickToFocus ops
      let d := { d with builtin := builtin }
      match focusWindow with
      | some window => d.raiseAndFocus ops window
      | none => d
  { d with seat := d.seat.button ev.button ev.state }

/-- Inject an input event received from a network client. -/
def injectNetworkInput (ops : SpaceOps P) (d : DesktopState P) : InputMessage → DesktopState P
  | .keyboard ev => d.injectKeyboard ops ev
  | .pointerMotion ev => { d with seat := { d.seat with pointer := (ev.x, ev.y) } }
  | .pointerButton ev => d.injectButton ops ev
  | .pointerAxis _ => d

/-- Keep clipboard data received from the client. -/
def setRemoteClipboard (d : DesktopState P) (clip : ClipboardData) : DesktopState P :=
  { d with
    remoteClipboard := some (clip.mimeType, (capClipboardPayload clip.data clip.mimeType).2) }

/-! ### Toplevels come and go -/

/-- A new toplevel is placed and focused as the built-in WM answers; a connected WM is told. -/
def newToplevel (ops : SpaceOps P) (d : DesktopState P) (object : Option ObjectId) :
    DesktopState P :=
  let surface : Surface := ⟨d.surfaces⟩
  let id : WindowId := ⟨d.nextWindowId⟩
  let (response, builtin) :=
    d.builtin.onNewToplevel id ⟨none, none, d.output.1, d.output.2, none, none⟩
  let d := { d with
    surfaces := d.surfaces + 1
    nextWindowId := d.nextWindowId + 1
    windowIds := d.windowIds ++ [(id, surface)]
    builtin := builtin }.request [.size surface response.size]
  let d := { d with space := ops.mapElement surface response.position d.space }
  let d := if response.focus then { d with seat := d.seat.setFocus surface } else d
  { d with
    protocol := d.protocol.map fun proto =>
      if proto.isWmConnected then
        (proto.notifyNewWindow ⟨id, none, none, response.size.1, response.size.2⟩
          object).startManagePhase
      else proto }

/-- A toplevel is destroyed, and its surface with it. -/
def toplevelDestroyed (ops : SpaceOps P) (d : DesktopState P) (surface : Surface) :
    DesktopState P :=
  let d :=
    match d.windowIds.find? fun entry => entry.2 = surface with
    | some (id, window) =>
      { d with
        windowIds := d.windowIds.eraseP fun entry => entry.2 = surface
        builtin := d.builtin.onCloseToplevel id
        space := ops.unmapElem window d.space
        protocol := d.protocol.map fun (proto : WmProtocolState) =>
          if proto.isWmConnected then proto.notifyWindowClosed id else proto }
    | none => d
  -- the keyboard loses a focus that no longer exists
  { d with seat := d.seat.surfaceDestroyed surface }

/-! ### Requests of window managers -/

/-- A window request that acts on the window itself. -/
def windowAction (ops : SpaceOps P) (d : DesktopState P) (id : WindowId)
    (request : WindowRequest) : DesktopState P :=
  match d.windowForId id with
  | none => d
  | some window =>
    match request with
    | .proposeDimensions width height => d.request [.size window (width, height)]
    | .setFocus => d.raiseAndFocus ops window
    | .useSsd => d.request [.decoration window .serverSide]
    | .useCsd => d.request [.decoration window .clientSide]
    | .grantFullscreen => d.request [.fullscreen window true]
    | .denyFullscreen => d.request [.fullscreen window false]
    | .close => d.request [.close window]
    | _ => d

def wmStep (ops : SpaceOps P) (d : DesktopState P) (event : WmEvent) : DesktopState P :=
  let d :=
    match event with
    | .windowRequest id request => d.windowAction ops id request
    | _ => d
  { d with protocol := d.protocol.map fun proto => proto.step event }

/-! ### Steps -/

def userStep (ops : SpaceOps P) (d : DesktopState P) : UserEvent P → DesktopState P
  | .input msg => d.injectNetworkInput ops msg
  | .newToplevel object => d.newToplevel ops object
  | .toplevelDestroyed surface => d.toplevelDestroyed ops surface
  | .arranged space => { d with space := space }

def step (ops : SpaceOps P) (d : DesktopState P) : DesktopEvent P → DesktopState P
  | .user event => d.userStep ops event
  | .wm event => d.wmStep ops event

end DesktopState

end WayRay
