import WayRay.Collections.Held
import WayRay.Desktop.State
import WayRay.Headless.Connect

/-!
# Held keys

What keeps track of keys: the seat, the set of keys held down via the network, and the modifier
tracker.  Together they are the `Keys` of a desktop, and `keys_step` says all that can happen to
them: a key event reaches the modifier tracker in any case, and the other two only if it is
forwarded.

* The tracked keys are those the seat holds, and a disconnect leaves nothing held
  (`keyboard_neutral`).
* Within a connection whose keys are all released in the end, the seat is left with no key exactly
  if the presses that are forwarded have releases that are forwarded too (`seat_released_iff`).  A
  binding of an external WM can take the release of a key whose press it did not take.
-/

namespace WayRay

open Held

/-- A key event as an edge of its key. -/
def KeyboardEvent.edge (ev : KeyboardEvent) : UInt32 × Bool := (ev.keycode, ev.pressed)

/-! ### Keys -/

/-- What keeps track of keys. -/
structure Keys where
  /-- The keys that the seat holds pressed (xkb). -/
  seat : Finset UInt32
  /-- The keys tracked as held (evdev). -/
  pressed : Finset UInt32
  modifiers : ModifierTracker
deriving DecidableEq

namespace Keys

/-- Nothing is held. -/
def neutral : Keys := ⟨∅, ∅, .default⟩

/-- A key event that is forwarded to the seat or not. -/
def onKey (k : Keys) (ev : KeyboardEvent) (forwarded : Bool) : Keys :=
  { seat := if forwarded then toggle k.seat (xkbKeycode ev.keycode, ev.pressed) else k.seat
    pressed := if forwarded then toggle k.pressed ev.edge else k.pressed
    modifiers := k.modifiers.onKey ev.keycode ev.pressed }

/-- The keys the seat holds are the tracked ones. -/
def Agree (k : Keys) : Prop := k.seat = k.pressed.image xkbKeycode

end Keys

theorem Keys.agree_neutral : neutral.Agree := rfl

theorem xkbKeycode_injective : Function.Injective xkbKeycode := fun _ _ h =>
  (UInt32.add_left_inj 8).mp h

theorem toggle_image (held : Finset UInt32) (keycode : UInt32) (pressed : Bool) :
    (toggle held (keycode, pressed)).image xkbKeycode =
      toggle (held.image xkbKeycode) (xkbKeycode keycode, pressed) := by
  cases pressed with
  | true => exact Finset.image_insert xkbKeycode keycode held
  | false => exact Finset.image_erase xkbKeycode_injective held keycode

/-- A key event keeps the agreement, forwarded or not. -/
theorem Keys.Agree.onKey {k : Keys} (h : k.Agree) (ev : KeyboardEvent) (forwarded : Bool) :
    (k.onKey ev forwarded).Agree := by
  cases forwarded with
  | false => exact h
  | true =>
    have himage := toggle_image k.pressed ev.keycode ev.pressed
    rw [← h] at himage
    exact himage.symm

namespace DesktopState

variable {P : Type} (ops : SpaceOps P) (d : DesktopState P)

def keys : Keys := ⟨d.seat.pressedKeys, d.pressedKeys, d.modifiers⟩

/-! ### Where a key event goes -/

/-- A binding of an external WM takes the event. -/
def boundByWm (ev : KeyboardEvent) : Bool :=
  match d.protocol with
  | some proto => proto.isBound ev.keycode (d.modifiersAfter ev).mask
  | none => false

/-- A shortcut of the built-in WM takes the event. -/
def isShortcut (ev : KeyboardEvent) : Bool :=
  ev.pressed && (d.builtin.onKeyBinding ev.keycode (d.modifiersAfter ev).mask).1

/-- The event is forwarded to the seat. -/
def forwards (ev : KeyboardEvent) : Bool := !d.boundByWm ev && !d.isShortcut ev

/-- An external WM takes the key exactly if one of its bindings matches. -/
theorem checkWmBinding_fst (ev : KeyboardEvent) :
    (d.checkWmBinding ev.keycode (d.modifiersAfter ev).mask ev.pressed).1 = d.boundByWm ev := by
  unfold checkWmBinding boundByWm
  cases d.protocol with
  | none => rfl
  | some proto =>
    dsimp only
    unfold WmProtocolState.checkKeyBinding
    cases proto.isBound ev.keycode (d.modifiersAfter ev).mask <;> rfl

/-- A key that is no shortcut leaves the built-in WM as it is. -/
theorem onKeyBinding_of_fst {wm : BuiltinFloatingWm} {key modifiers : UInt32}
    (h : (wm.onKeyBinding key modifiers).1 = false) : (wm.onKeyBinding key modifiers).2 = wm := by
  unfold BuiltinFloatingWm.onKeyBinding at h ⊢
  split_ifs at h ⊢
  · cases hhalf : SnapHalf.fromKey key with
    | none => rfl
    | some half =>
      rw [hhalf] at h
      unfold BuiltinFloatingWm.snapFocused at h ⊢
      cases hfocused : wm.focused with
      | none => rfl
      | some id =>
        rw [hfocused] at h
        dsimp only at h ⊢
        cases hstate : wm.windows.get id with
        | none => rfl
        | some state =>
          rw [hstate] at h
          exact absurd h Bool.true_eq_false_eq_False
  · rfl

/-- **The three ways of a key event**: to an external WM, to a shortcut, to the seat. -/
theorem injectKeyboard_cases (ev : KeyboardEvent) :
    (d.boundByWm ev = true ∧ ∃ seatEvents, d.injectKeyboard ops ev =
      { d with modifiers := d.modifiersAfter ev, seatEvents := seatEvents }) ∨
    (d.boundByWm ev = false ∧ d.isShortcut ev = true ∧ d.injectKeyboard ops ev =
      performShortcut ops { d with
        modifiers := d.modifiersAfter ev
        builtin := (d.builtin.onKeyBinding ev.keycode (d.modifiersAfter ev).mask).2 } ev.keycode) ∨
    (d.forwards ev = true ∧ d.injectKeyboard ops ev =
      forwardKey { d with modifiers := d.modifiersAfter ev } ev) := by
  have hcheck := d.checkWmBinding_fst ev
  unfold injectKeyboard
  dsimp only
  rw [show ∀ m, checkWmBinding { d with modifiers := m } = d.checkWmBinding from fun _ => rfl]
  cases hbound : d.boundByWm ev with
  | true =>
    rw [if_pos (hcheck.trans hbound)]
    exact .inl ⟨rfl, _, rfl⟩
  | false =>
    rw [if_neg (by rw [hcheck, hbound]; exact Bool.false_ne_true)]
    cases hpressed : ev.pressed with
    | false =>
      refine .inr (.inr ⟨?_, rfl⟩)
      rw [forwards, hbound, isShortcut, hpressed]
      rfl
    | true =>
      cases hkey : (d.builtin.onKeyBinding ev.keycode (d.modifiersAfter ev).mask).1 with
      | true =>
        refine .inr (.inl ⟨rfl, ?_, ?_⟩)
        · rw [isShortcut, hpressed, hkey]
          rfl
        · rw [if_pos rfl, if_pos hkey]
      | false =>
        refine .inr (.inr ⟨?_, ?_⟩)
        · rw [forwards, hbound, isShortcut, hpressed, hkey]
          rfl
        · rw [if_pos rfl, if_neg (by rw [hkey]; exact Bool.false_ne_true), onKeyBinding_of_fst hkey]

/-! ### Frames -/

theorem keys_performShortcut (keycode : UInt32) :
    (d.performShortcut ops keycode).keys = d.keys := by
  unfold performShortcut
  cases d.focusedWindow with
  | none => rfl
  | some window =>
    dsimp only
    split_ifs <;> rfl

theorem keys_forwardKey (ev : KeyboardEvent) :
    (d.forwardKey ev).keys = { d.keys with
      seat := toggle d.keys.seat (xkbKeycode ev.keycode, ev.pressed)
      pressed := toggle d.keys.pressed ev.edge } := by
  obtain ⟨keycode, state, time⟩ := ev
  cases state <;> rfl

/-- **What a key event does to the keys.** -/
theorem keys_injectKeyboard (ev : KeyboardEvent) :
    (d.injectKeyboard ops ev).keys = d.keys.onKey ev (d.forwards ev) := by
  rcases d.injectKeyboard_cases ops ev with
    ⟨hbound, seatEvents, h⟩ | ⟨hbound, hshortcut, h⟩ | ⟨hforwards, h⟩
  · rw [h, forwards, hbound]
    rfl
  · rw [h, keys_performShortcut, forwards, hbound, hshortcut]
    rfl
  · rw [h, keys_forwardKey, hforwards]
    rfl

theorem keys_injectButton (ev : PointerButton) : (d.injectButton ops ev).keys = d.keys := by
  unfold injectButton
  cases ev.state with
  | released => rfl
  | pressed =>
    dsimp only
    cases (d.clickToFocus ops).1 <;> rfl

theorem keys_toplevelDestroyed (surface : Surface) :
    (d.toplevelDestroyed ops surface).keys = d.keys := by
  unfold toplevelDestroyed
  cases d.windowIds.find? fun entry => entry.2 = surface <;> rfl

theorem keys_windowAction (id : WindowId) (request : WindowRequest) :
    (d.windowAction ops id request).keys = d.keys := by
  unfold windowAction
  cases d.windowForId id with
  | none => rfl
  | some window => cases request <;> rfl

theorem keys_wmStep (event : WmEvent) : (d.wmStep ops event).keys = d.keys := by
  cases event with
  | windowRequest id request => exact d.keys_windowAction ops id request
  | _ => rfl

end DesktopState

/-- The key event among the events of the desktop. -/
def DesktopEvent.key {P : Type} : DesktopEvent P → Option KeyboardEvent
  | .user (.input (.keyboard ev)) => some ev
  | _ => none

namespace DesktopState

variable {P : Type} (ops : SpaceOps P) (d : DesktopState P)

/-- **Nothing but a key event changes the keys.** -/
theorem keys_step (event : DesktopEvent P) :
    (d.step ops event).keys =
      match event.key with
      | some ev => d.keys.onKey ev (d.forwards ev)
      | none => d.keys := by
  cases event with
  | wm event => exact d.keys_wmStep ops event
  | user event =>
    cases event with
    | newToplevel _ | arranged _ => rfl
    | toplevelDestroyed surface => exact d.keys_toplevelDestroyed ops surface
    | input msg =>
      cases msg with
      | keyboard ev => exact d.keys_injectKeyboard ops ev
      | pointerMotion _ | pointerAxis _ => rfl
      | pointerButton ev => exact d.keys_injectButton ops ev

/-- The keys agree after every event. -/
theorem agree_step {d : DesktopState P} (h : d.keys.Agree) (event : DesktopEvent P) :
    (d.step ops event).keys.Agree := by
  rw [keys_step]
  cases event.key with
  | none => exact h
  | some ev => exact h.onKey ev _

/-- They agree after a run. -/
theorem agree_run {d : DesktopState P} (h : d.keys.Agree) (events : List (DesktopEvent P)) :
    (events.foldl (step ops) d).keys.Agree :=
  List.foldlRecOn (motive := fun d : DesktopState P => d.keys.Agree) events _ h
    fun _ hd event _ => agree_step ops hd event

/-! ### Releasing -/

/-- Releasing keys one after the other, in any order, releases the set of them. -/
theorem foldl_release (seat : SeatState) (keycodes : List UInt32) :
    keycodes.foldl (fun seat keycode => seat.input keycode .released) seat =
      seat.releaseKeys keycodes.toFinset := by
  induction keycodes generalizing seat with
  | nil => rw [List.foldl_nil, SeatState.releaseKeys, List.toFinset_nil, Finset.sdiff_empty]
  | cons keycode keycodes ih =>
    rw [List.foldl_cons, ih, List.toFinset_cons]
    simp only [SeatState.releaseKeys, SeatState.input]
    rw [Finset.sdiff_insert, Finset.erase_sdiff_comm]

/-- **Releasing leaves nothing held.** -/
theorem keys_releaseAllKeys {d : DesktopState P} (h : d.keys.Agree) :
    d.releaseAllKeys.keys = .neutral := by
  have hseat : d.seat.pressedKeys = d.pressedKeys.image xkbKeycode := h
  unfold releaseAllKeys
  dsimp only
  split_ifs with hempty
  · simp only [keys, hseat, hempty, Finset.image_empty]
    rfl
  · simp only [keys, SeatState.releaseKeys, hseat, Finset.sdiff_self]
    rfl

/-! ### The desktop of the headless compositor -/

/-- What network events do to the desktop. -/
def desktop : Desktop (DesktopState P) :=
  ⟨fun msg d => d.injectNetworkInput ops msg, releaseAllKeys,
    fun clip d => d.setRemoteClipboard clip⟩

end DesktopState

/-- What happens to the compositor: an event of the network thread, or one of the desktop. -/
inductive HeadlessEvent (P : Type) where
  | net (env : Surroundings) (event : NetToCompositor)
  | desktop (event : DesktopEvent P)

namespace CalloopData

variable {P : Type} (ops : SpaceOps P)

/-- Answering a client leaves the desktop as it is. -/
theorem connectClient_state {S : Type} (d : CalloopData S) (env : Surroundings)
    (hello : ClientHello) (remoteAddr : String) :
    (d.connectClient env hello remoteAddr).2.state = d.state := by
  have hconnects := d.connectClient_connects env hello remoteAddr
  obtain ⟨notes, hnotes⟩ := d.findHome_notes env ⟨hello.token.getD env.randomToken⟩
  have hfind : (d.findHome env ⟨hello.token.getD env.randomToken⟩).2.state = d.state := by
    rw [hnotes]
    rfl
  generalize d.connectClient env hello remoteAddr = answer at hconnects
  cases hconnects with
  | home _ _ | shed _ _ _ => exact hfind
  | @resumed id _ _ =>
    refine Eq.trans ?_ hfind
    dsimp only [bindClient, publishClusterState, resumeSession]
    split <;> rfl
  | created _ _ => exact hfind

/-- A client that leaves has its keys released. -/
theorem disconnectClient_state {S : Type} (desktop : Desktop S) (d : CalloopData S)
    (env : Surroundings) :
    (disconnectClient desktop d env).state = desktop.releaseAllKeys d.state := by
  unfold disconnectClient
  cases d.activeSession <;> rfl

def headlessStep (d : CalloopData (DesktopState P)) :
    HeadlessEvent P → CalloopData (DesktopState P)
  | .net env event => (drainEvent (DesktopState.desktop ops) d env event).2
  | .desktop event => { d with state := d.state.step ops event }

/-- The keys agree after every event of the compositor. -/
theorem agree_headlessStep (d : CalloopData (DesktopState P)) (event : HeadlessEvent P)
    (h : d.state.keys.Agree) : (d.headlessStep ops event).state.keys.Agree := by
  cases event with
  | desktop event => exact DesktopState.agree_step ops h event
  | net env event =>
    cases event with
    | input msg => exact DesktopState.agree_step ops h (.user (.input msg))
    | clientConnected hello remoteAddr =>
      have hstate := d.connectClient_state env hello remoteAddr
      simpa only [headlessStep, drainEvent, Prod.map_snd, id, hstate] using h
    | clientDisconnected =>
      have hneutral := DesktopState.keys_releaseAllKeys h
      simp only [headlessStep, drainEvent, disconnectClient_state]
      exact hneutral ▸ Keys.agree_neutral
    | control msg => cases msg <;> exact h

/-- The keys agree in every reachable state. -/
theorem agree_reached (space : P) (output : ℤ × ℤ) (protocol : Option WmProtocolState)
    (frame : FrameState) (cluster : ClusterConfig) (peerRt launcherLinked : Bool)
    (stateDb : Option SessionTable) (clk : Clock) (find : Enumeration (SessionId × SessionRecord))
    (history : List (HeadlessEvent P)) :
    (history.foldl (headlessStep ops) (boot (.start space output protocol) frame cluster peerRt
      launcherLinked stateDb clk find)).state.keys.Agree :=
  List.foldlRecOn (motive := fun d : CalloopData (DesktopState P) => d.state.keys.Agree) history _
    rfl fun d hd event _ => agree_headlessStep ops d event hd

/-- **The keyboard is neutral after a disconnect.**  After every run of the compositor, the tracked
keys are exactly the network-injected keys that the seat holds pressed; and once a disconnect is
handled the seat holds none, none is tracked, and the modifier mask is 0. -/
theorem keyboard_neutral (space : P) (output : ℤ × ℤ) (protocol : Option WmProtocolState)
    (frame : FrameState) (cluster : ClusterConfig) (peerRt launcherLinked : Bool)
    (stateDb : Option SessionTable) (clk : Clock) (find : Enumeration (SessionId × SessionRecord))
    (history : List (HeadlessEvent P)) :
    let d := history.foldl (headlessStep ops) (boot (.start space output protocol) frame cluster
      peerRt launcherLinked stateDb clk find)
    d.state.seat.pressedKeys = d.state.pressedKeys.image xkbKeycode ∧
      ∀ env, let d' := (drainEvent (DesktopState.desktop ops) d env .clientDisconnected).2
        d'.state.seat.pressedKeys = ∅ ∧ d'.state.pressedKeys = ∅ ∧ d'.state.modifiers.mask = 0 := by
  have hagree := agree_reached ops space output protocol frame cluster peerRt launcherLinked
    stateDb clk find history
  refine ⟨hagree, fun env => ?_⟩
  have hneutral := DesktopState.keys_releaseAllKeys hagree
  simp only [drainEvent, disconnectClient_state]
  refine ⟨congrArg Keys.seat hneutral, congrArg Keys.pressed hneutral, ?_⟩
  exact congrArg (fun keys => keys.modifiers.mask) hneutral

end CalloopData

/-! ### Presses and releases -/

namespace DesktopState

variable {P : Type} (ops : SpaceOps P) (d : DesktopState P)

/-- The presses and releases among the events. -/
def keyEdges (events : List (DesktopEvent P)) : List (UInt32 × Bool) :=
  (events.filterMap DesktopEvent.key).map KeyboardEvent.edge

/-- The presses and releases that are forwarded to the seat. -/
def forwardedEdges (ops : SpaceOps P) : DesktopState P → List (DesktopEvent P) →
    List (UInt32 × Bool)
  | _, [] => []
  | d, event :: events =>
    ((event.key.filter fun ev => d.forwards ev).map KeyboardEvent.edge).toList ++
      forwardedEdges ops (d.step ops event) events

/-- The tracked keys after a run are those that its forwarded events leave held. -/
theorem pressedKeys_run (events : List (DesktopEvent P)) :
    (events.foldl (step ops) d).pressedKeys =
      (forwardedEdges ops d events).foldl toggle d.pressedKeys := by
  induction events generalizing d with
  | nil => rfl
  | cons event events ih =>
    have hstep : (d.step ops event).pressedKeys =
        ((event.key.filter fun ev => d.forwards ev).map KeyboardEvent.edge).toList.foldl toggle
          d.pressedKeys := by
      refine (congrArg Keys.pressed (d.keys_step ops event)).trans ?_
      cases event.key with
      | none => rfl
      | some ev =>
        dsimp only [Keys.onKey]
        rw [Option.filter_some]
        cases d.forwards ev <;> rfl
    rw [List.foldl_cons, ih, hstep, forwardedEdges, List.foldl_append]

theorem keyEdges_cons (event : DesktopEvent P) (events : List (DesktopEvent P)) :
    keyEdges (event :: events) = (event.key.map KeyboardEvent.edge).toList ++ keyEdges events := by
  unfold keyEdges
  cases hkey : event.key with
  | none => rw [List.filterMap_cons_none hkey]; rfl
  | some ev => rw [List.filterMap_cons_some hkey]; rfl

/-- The modifier tracker records the edges of modifier keys. -/
theorem held_onKey (t : ModifierTracker) (keycode : UInt32) (pressed : Bool) :
    (t.onKey keycode pressed).held =
      if (ModifierTracker.modifierBit keycode).isSome then toggle t.held (keycode, pressed)
      else t.held := by
  unfold ModifierTracker.onKey
  cases ModifierTracker.modifierBit keycode with
  | none => rfl
  | some bit => cases pressed <;> rfl

/-- The held modifiers after a run are those that all its key events leave held. -/
theorem modifiers_run (events : List (DesktopEvent P)) :
    (events.foldl (step ops) d).modifiers.held =
      ((keyEdges events).filter fun edge =>
        (ModifierTracker.modifierBit edge.1).isSome).foldl toggle d.modifiers.held := by
  induction events generalizing d with
  | nil => rfl
  | cons event events ih =>
    have hstep := congrArg (fun keys => keys.modifiers.held) (d.keys_step ops event)
    change (d.step ops event).modifiers.held = _ at hstep
    rw [List.foldl_cons, ih, keyEdges_cons, List.filter_append, List.foldl_append, hstep]
    cases event.key with
    | none => rfl
    | some ev =>
      dsimp only [Keys.onKey, keys, Option.map_some, Option.toList_some]
      rw [held_onKey, List.filter_singleton]
      dsimp only [KeyboardEvent.edge]
      cases (ModifierTracker.modifierBit ev.keycode).isSome <;> rfl

/-- **Stuck keys.**  Within a connection in which every key that was pressed is released, whatever
window managers bind, unbind and activate meanwhile: in the end the seat holds no pressed key and
the modifier mask is 0, if and only if every press that is forwarded to the seat, taken by neither
window manager, is followed by a release of the same key that is forwarded too. -/
theorem seat_released_iff (space : P) (output : ℤ × ℤ) (protocol : Option WmProtocolState)
    (frame : FrameState) (cluster : ClusterConfig) (peerRt launcherLinked : Bool)
    (stateDb : Option SessionTable) (clk : Clock) (find : Enumeration (SessionId × SessionRecord))
    (history : List (HeadlessEvent P)) (events : List (DesktopEvent P))
    (hreleased : Settled (keyEdges events)) :
    let d := (history.foldl (CalloopData.headlessStep ops) (CalloopData.boot
      (.start space output protocol) frame cluster peerRt launcherLinked stateDb clk
      find)).state.releaseAllKeys
    let d' := events.foldl (step ops) d
    (d'.seat.pressedKeys = ∅ ∧ d'.modifiers.mask = 0) ↔ Settled (forwardedEdges ops d events) := by
  intro d d'
  have hneutral : d.keys = .neutral := keys_releaseAllKeys (CalloopData.agree_reached ops space
    output protocol frame cluster peerRt launcherLinked stateDb clk find history)
  have hagree : d'.keys.Agree := agree_run ops (hneutral ▸ Keys.agree_neutral) events
  have hseat : d'.seat.pressedKeys = ∅ ↔ d'.pressedKeys = ∅ := by
    rw [show d'.seat.pressedKeys = d'.pressedKeys.image xkbKeycode from hagree,
      Finset.image_eq_empty]
  have hpressed : d'.pressedKeys = (forwardedEdges ops d events).foldl toggle ∅ := by
    rw [← show d.pressedKeys = ∅ from congrArg Keys.pressed hneutral]
    exact d.pressedKeys_run ops events
  have hmask : d'.modifiers.mask = 0 := by
    have hheld := d.modifiers_run ops events
    rw [show d.modifiers.held = ∅ from congrArg (fun keys => keys.modifiers.held) hneutral,
      foldl_toggle_eq_empty.mpr (hreleased.filter fun keycode =>
        (ModifierTracker.modifierBit keycode).isSome)] at hheld
    rw [show d'.modifiers = .default from congrArg ModifierTracker.mk hheld]
    rfl
  rw [and_iff_left hmask, hseat, hpressed, foldl_toggle_eq_empty]

section Witness

/-- An arrangement that nothing is seen in. -/
def noSpace : SpaceOps Unit := ⟨fun _ _ _ => (), fun _ _ => (), fun _ _ => (), fun _ _ => none⟩

private def press (keycode : UInt32) : DesktopEvent Unit :=
  .user (.input (.keyboard ⟨keycode, .pressed, 0⟩))

private def release (keycode : UInt32) : DesktopEvent Unit :=
  .user (.input (.keyboard ⟨keycode, .released, 0⟩))

/-- Without bindings the seat releases what it pressed. -/
theorem seat_released_unbound :
    let d' := [press 42, press 30, release 30, release 42].foldl (step noSpace)
      (start () (800, 600) none).releaseAllKeys
    d'.seat.pressedKeys = ∅ ∧ d'.modifiers.mask = 0 :=
  (seat_released_iff noSpace () (800, 600) none ⟨[], 0, false, 0⟩ ⟨"", "", []⟩ false false none
    ⟨0, 0⟩ .stored [] [press 42, press 30, release 30, release 42]
    (foldl_toggle_eq_empty.mp (by decide))).mpr (foldl_toggle_eq_empty.mp (by decide))

/-- A window manager binds Super+A; the user presses A, then Super, and releases A. -/
private def chordFromA : List (DesktopEvent Unit) :=
  [.wm (.bind ⟨1⟩ [] []), .wm (.seatRequest ⟨2⟩ (.bindKey 30 modSuper "")), press 30,
    press keyLeftMeta, release 30, release keyLeftMeta]

/-- A stuck key: the release of A goes to the window manager, its press went to the seat. -/
theorem seat_stuck_chord :
    ¬ ∀ events : List (DesktopEvent Unit), Settled (keyEdges events) →
      let d' := events.foldl (step noSpace) (start () (800, 600) (some .new))
      d'.seat.pressedKeys = ∅ ∧ d'.modifiers.mask = 0 := by
  intro h
  have hstuck := (h chordFromA (foldl_toggle_eq_empty.mp (by decide))).1
  exact absurd hstuck (by decide)

end Witness

end DesktopState

end WayRay
