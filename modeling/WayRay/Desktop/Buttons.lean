import WayRay.Desktop.Keys

/-!
# Held buttons

The pointer of the seat holds a button from its press to its release.  Nothing but a button event
changes what it holds (`pressedButtons_headlessStep`), a disconnect neither: unlike keys, buttons
are not tracked and not released when the client leaves.

`pointer_neutral_iff` says when the pointer is neutral all the same.
-/

namespace WayRay

open Held

/-- A button event as an edge of its button. -/
def PointerButton.edge (ev : PointerButton) : UInt32 × Bool := (ev.button, ev.state = .pressed)

/-- The button event among the events of the desktop. -/
def DesktopEvent.button {P : Type} : DesktopEvent P → Option PointerButton
  | .user (.input (.pointerButton ev)) => some ev
  | _ => none

/-- The button event among the events of the compositor. -/
def HeadlessEvent.button {P : Type} : HeadlessEvent P → Option PointerButton
  | .net _ (.input msg) => DesktopEvent.button (P := P) (.user (.input msg))
  | .net _ _ => none
  | .desktop event => event.button

/-- The presses and releases among the events. -/
def buttonEdges {P : Type} (events : List (HeadlessEvent P)) : List (UInt32 × Bool) :=
  (events.filterMap HeadlessEvent.button).map PointerButton.edge

namespace DesktopState

variable {P : Type} (ops : SpaceOps P) (d : DesktopState P)

theorem pressedButtons_injectKeyboard (ev : KeyboardEvent) :
    (d.injectKeyboard ops ev).seat.pressedButtons = d.seat.pressedButtons := by
  rcases d.injectKeyboard_cases ops ev with ⟨-, seatEvents, h⟩ | ⟨-, -, h⟩ | ⟨-, h⟩
  · rw [h]
  · rw [h]
    unfold performShortcut
    split
    · rfl
    · split_ifs <;> rfl
  · rw [h]
    unfold forwardKey
    cases ev.state <;> rfl

theorem pressedButtons_injectButton (ev : PointerButton) :
    (d.injectButton ops ev).seat.pressedButtons = toggle d.seat.pressedButtons ev.edge := by
  obtain ⟨button, state, time⟩ := ev
  unfold injectButton
  cases state with
  | released => rfl
  | pressed =>
    dsimp only
    cases (d.clickToFocus ops).1 <;> rfl

theorem pressedButtons_toplevelDestroyed (surface : Surface) :
    (d.toplevelDestroyed ops surface).seat.pressedButtons = d.seat.pressedButtons := by
  unfold toplevelDestroyed
  cases d.windowIds.find? fun entry => entry.2 = surface <;> rfl

theorem pressedButtons_wmStep (event : WmEvent) :
    (d.wmStep ops event).seat.pressedButtons = d.seat.pressedButtons := by
  cases event with
  | windowRequest id request =>
    change (d.windowAction ops id request).seat.pressedButtons = _
    unfold windowAction
    cases d.windowForId id with
    | none => rfl
    | some window => cases request <;> rfl
  | _ => rfl

theorem pressedButtons_step (event : DesktopEvent P) :
    (d.step ops event).seat.pressedButtons =
      (event.button.map PointerButton.edge).toList.foldl toggle d.seat.pressedButtons := by
  cases event with
  | wm event => exact d.pressedButtons_wmStep ops event
  | user event =>
    cases event with
    | newToplevel _ | arranged _ => rfl
    | toplevelDestroyed surface => exact d.pressedButtons_toplevelDestroyed ops surface
    | input msg =>
      cases msg with
      | keyboard ev => exact d.pressedButtons_injectKeyboard ops ev
      | pointerMotion _ | pointerAxis _ => rfl
      | pointerButton ev => exact d.pressedButtons_injectButton ops ev

/-- Releasing the keys releases no button. -/
theorem pressedButtons_releaseAllKeys :
    d.releaseAllKeys.seat.pressedButtons = d.seat.pressedButtons := by
  unfold releaseAllKeys
  dsimp only
  split_ifs <;> rfl

end DesktopState

namespace CalloopData

variable {P : Type} (ops : SpaceOps P)

/-- A client that leaves has no button released. -/
theorem pressedButtons_disconnect (d : CalloopData (DesktopState P)) (env : Surroundings) :
    (drainEvent (DesktopState.desktop ops) d env
      .clientDisconnected).2.state.seat.pressedButtons = d.state.seat.pressedButtons := by
  simp only [drainEvent, disconnectClient_state]
  exact d.state.pressedButtons_releaseAllKeys

/-- **Nothing but a button event changes the buttons held.** -/
theorem pressedButtons_headlessStep (d : CalloopData (DesktopState P)) (event : HeadlessEvent P) :
    (d.headlessStep ops event).state.seat.pressedButtons =
      (event.button.map PointerButton.edge).toList.foldl toggle d.state.seat.pressedButtons := by
  cases event with
  | desktop event => exact d.state.pressedButtons_step ops event
  | net env event =>
    cases event with
    | input msg => exact d.state.pressedButtons_step ops (.user (.input msg))
    | clientConnected hello remoteAddr =>
      have hstate := d.connectClient_state env hello remoteAddr
      simp only [headlessStep, drainEvent, Prod.map_snd, id, hstate]
      rfl
    | clientDisconnected => exact pressedButtons_disconnect ops d env
    | control msg => cases msg <;> rfl

/-- The buttons held after a run. -/
theorem pressedButtons_run (d : CalloopData (DesktopState P)) (events : List (HeadlessEvent P)) :
    (events.foldl (headlessStep ops) d).state.seat.pressedButtons =
      (buttonEdges events).foldl toggle d.state.seat.pressedButtons := by
  induction events generalizing d with
  | nil => rfl
  | cons event events ih =>
    have hedges : buttonEdges (event :: events) =
        (event.button.map PointerButton.edge).toList ++ buttonEdges events := by
      unfold buttonEdges
      cases hbutton : event.button with
      | none => rw [List.filterMap_cons_none hbutton]; rfl
      | some ev => rw [List.filterMap_cons_some hbutton]; rfl
    rw [List.foldl_cons, ih, pressedButtons_headlessStep, hedges, List.foldl_append]

/-- **The pointer is neutral after a disconnect exactly if the client left it so.**  No button the
departed client pressed is held once its disconnect is handled if and only if it released again
every button it pressed; and no button is held at all if and only if that is true of all clients so
far. -/
theorem pointer_neutral_iff (space : P) (output : ℤ × ℤ) (protocol : Option WmProtocolState)
    (frame : FrameState) (cluster : ClusterConfig) (peerRt launcherLinked : Bool)
    (stateDb : Option SessionTable) (clk : Clock) (find : Enumeration (SessionId × SessionRecord))
    (history connection : List (HeadlessEvent P)) (env : Surroundings) :
    let d := (history ++ connection).foldl (headlessStep ops) (boot (.start space output protocol)
      frame cluster peerRt launcherLinked stateDb clk find)
    let d' := (drainEvent (DesktopState.desktop ops) d env .clientDisconnected).2
    ((∀ button, (button, true) ∈ buttonEdges connection →
        button ∉ d'.state.seat.pressedButtons) ↔ Settled (buttonEdges connection)) ∧
      (d'.state.seat.pressedButtons = ∅ ↔ Settled (buttonEdges (history ++ connection))) := by
  intro d d'
  let start : CalloopData (DesktopState P) :=
    boot (.start space output protocol) frame cluster peerRt launcherLinked stateDb clk find
  have hstart : start.state.seat.pressedButtons = ∅ := rfl
  have hdisconnect : d'.state.seat.pressedButtons = d.state.seat.pressedButtons :=
    pressedButtons_disconnect ops d env
  rw [hdisconnect]
  constructor
  · have hconnection : d.state.seat.pressedButtons = (buttonEdges connection).foldl toggle
        (history.foldl (headlessStep ops) start).state.seat.pressedButtons := by
      rw [← pressedButtons_run, ← List.foldl_append]
    rw [hconnection]
    exact pressed_notMem_foldl_toggle
  · rw [show d.state.seat.pressedButtons = _ from pressedButtons_run ops start _, hstart]
    exact foldl_toggle_eq_empty

/-- A client leaves with a button down, and the next one finds it down. -/
theorem button_left_down :
    let d : CalloopData (DesktopState Unit) := boot (.start () (800, 600) none) ⟨[], 0, false, 0⟩
      ⟨"", "", []⟩ false false none ⟨0, 0⟩ .stored
    let d' := [.net quiet (.clientConnected ⟨2, [], some "t"⟩ "c"),
      .net quiet (.input (.pointerButton ⟨272, .pressed, 0⟩)), .net quiet .clientDisconnected,
      .net quiet (.clientConnected ⟨2, [], some "t"⟩ "c")].foldl
        (headlessStep DesktopState.noSpace) d
    272 ∈ d'.state.seat.pressedButtons := by
  decide

end CalloopData

end WayRay
