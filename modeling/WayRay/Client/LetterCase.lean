import WayRay.Client.Modifiers

/-!
# Letter case

The server has no caps lock.  The client sends a letter whose case is not the one Shift makes
between a press and a release of Shift, so that the server's Shift is down exactly at the press of
an upper-case letter (`shift_at_press`), and as the client's again after it.

A client only ever sends left-hand modifier keys (`LeftOnly`), so that a server whose modifier mask
is the client's holds the keys the client would have pressed (`eq_tracker_of_mask`).  The rest
follows from the order of the messages: whatever else happens on the server between them, its
tracked modifiers are those of the messages processed so far (`modifiers_served`).
-/

namespace WayRay

open ClientInput

/-! ### The keys the client presses -/

namespace ClientInput

/-- The modifier keys that the client sends. -/
def clientModifiers : Finset UInt32 := {keyLeftShift, keyLeftCtrl, keyLeftAlt, keyLeftMeta}

/-- The message is about no other modifier key. -/
def LeftOnly : InputMessage → Prop
  | .keyboard ev => ModifierTracker.modifierBit ev.keycode = none ∨ ev.keycode ∈ clientModifiers
  | _ => True

theorem leftOnly_keyMessage {keycode : UInt32} (pressed : Bool) (h : keycode ∈ clientModifiers) :
    LeftOnly (keyMessage keycode pressed) :=
  .inr h

theorem leftOnly_convertKeyboard {event : KeyEvent} {realShift : Bool} {msg : InputMessage}
    (h : msg ∈ convertKeyboard event realShift) : LeftOnly msg := by
  have hshift : ∀ pressed, LeftOnly (keyMessage keyLeftShift pressed) := fun pressed =>
    leftOnly_keyMessage pressed (by decide)
  rcases convertKeyboard_cases event realShift with hnone | ⟨_, keycode, -, -, hbit, hsent⟩
  · rw [hnone] at h
    exact absurd h List.not_mem_nil
  have hkey : ∀ pressed, LeftOnly (keyMessage keycode pressed) := fun _ => .inl hbit
  rcases hsent with ⟨hsent, -⟩ | ⟨c, -, -, hsent⟩
  · rw [hsent, List.mem_singleton] at h
    exact h ▸ hkey _
  · rw [hsent] at h
    simp only [List.mem_cons, List.not_mem_nil, or_false] at h
    rcases h with rfl | rfl | rfl
    · exact hshift _
    · exact hkey _
    · exact hshift _

theorem leftOnly_emit {was is : Bool} {keycode : UInt32} (hkey : keycode ∈ clientModifiers)
    {msg : InputMessage} (h : msg ∈ emit was is keycode) : LeftOnly msg := by
  unfold emit at h
  split_ifs at h
  · exact absurd h List.not_mem_nil
  · exact List.mem_singleton.mp h ▸ leftOnly_keyMessage is hkey

theorem leftOnly_windowEvent {m : ModifiersState} {event : WindowEvent} {msg : InputMessage}
    (h : msg ∈ (windowEvent m event).1) : LeftOnly msg := by
  cases event with
  | keyboardInput event => exact leftOnly_convertKeyboard h
  | modifiersChanged state =>
    simp only [windowEvent, convertModifiers, List.mem_append] at h
    rcases h with ((h | h) | h) | h <;> exact leftOnly_emit (by decide) h
  | cursorMoved _ _ | mouseInput _ _ =>
    rw [windowEvent, List.mem_singleton] at h
    exact h ▸ trivial
  | mouseWheel amounts =>
    obtain ⟨amount, -, rfl⟩ := List.mem_map.mp h
    trivial
  | other => exact absurd h List.not_mem_nil

/-- A message about no other modifier key leaves no other one held. -/
theorem held_onInput_subset {t : ModifierTracker} (h : t.held ⊆ clientModifiers)
    {msg : InputMessage} (hmsg : LeftOnly msg) : (t.onInput msg).held ⊆ clientModifiers := by
  cases msg with
  | keyboard ev =>
    change (t.onKey ev.keycode ev.pressed).held ⊆ clientModifiers
    rcases hmsg with hbit | hmem
    · rwa [ModifierTracker.onKey_of_modifierBit hbit]
    · unfold ModifierTracker.onKey
      split_ifs
      · exact h
      · exact Finset.insert_subset hmem h
      · exact (Finset.erase_subset _ _).trans h
  | _ => exact h

theorem ModifiersState.mask_injective : Function.Injective ModifiersState.mask := by
  have hbits : ∀ a b c d a' b' c' d' : Bool,
      (ModifiersState.mk a b c d).mask = (ModifiersState.mk a' b' c' d').mask →
        ModifiersState.mk a b c d = ModifiersState.mk a' b' c' d' := by decide
  rintro ⟨a, b, c, d⟩ ⟨a', b', c', d'⟩ h
  exact hbits a b c d a' b' c' d' h

/-- The Shift bit of a mask. -/
theorem ModifiersState.shift_bit (m : ModifiersState) :
    m.mask &&& modShift ≠ 0 ↔ m.shiftKey = true := by
  obtain ⟨shift, control, alt, super⟩ := m
  cases shift <;> cases control <;> cases alt <;> cases super <;> decide

/-- A tracker that holds only keys the client sends is known by its mask. -/
theorem eq_tracker_of_mask {t : ModifierTracker} (h : t.held ⊆ clientModifiers)
    {m : ModifiersState} (hmask : t.mask = m.mask) : t = m.tracker := by
  let m' : ModifiersState := ⟨keyLeftShift ∈ t.held, keyLeftCtrl ∈ t.held, keyLeftAlt ∈ t.held,
    keyLeftMeta ∈ t.held⟩
  have ht : t = m'.tracker := by
    ext k
    rw [ModifiersState.mem_tracker]
    simp only [m', decide_eq_true_eq]
    split_ifs with hmeta halt hctrl
    · rw [hmeta]
    · rw [halt]
    · rw [hctrl]
    · refine ⟨fun hk => ?_, fun hk => hk.1 ▸ hk.2⟩
      have hmem := h hk
      simp only [clientModifiers, Finset.mem_insert, Finset.mem_singleton, hmeta, halt, hctrl,
        or_false] at hmem
      exact ⟨hmem, hmem ▸ hk⟩
  rw [ht, ModifiersState.mask_tracker] at hmask
  rw [ht, ModifiersState.mask_injective hmask]

/-! ### Sequences of window events -/

/-- The messages that window events send. -/
def sent : ModifiersState → List WindowEvent → List InputMessage
  | _, [] => []
  | m, event :: events => (windowEvent m event).1 ++ sent (windowEvent m event).2 events

/-- The modifiers after window events. -/
def modifiersAfter (m : ModifiersState) (events : List WindowEvent) : ModifiersState :=
  events.foldl (fun m event => (windowEvent m event).2) m

theorem replay_sent (m : ModifiersState) (events : List WindowEvent) :
    m.tracker.replay (sent m events) = (modifiersAfter m events).tracker := by
  induction events generalizing m with
  | nil => rfl
  | cons event events ih =>
    rw [sent, ModifierTracker.replay_append, replay_windowEvent, ih, modifiersAfter, modifiersAfter,
      List.foldl_cons]

theorem ModifiersState.tracker_onKey_shift (m : ModifiersState) (pressed : Bool) :
    m.tracker.onKey keyLeftShift pressed =
      ({ m with shiftKey := pressed } : ModifiersState).tracker := by
  ext k
  rw [ModifierTracker.mem_onKey rfl, mem_tracker, mem_tracker]
  split_ifs with hshift hmeta halt hctrl
  · exact absurd (hshift.symm.trans hmeta) (by decide)
  · exact absurd (hshift.symm.trans halt) (by decide)
  · exact absurd (hshift.symm.trans hctrl) (by decide)
  · exact (and_iff_right hshift).symm
  · rfl
  · rfl
  · rfl
  · exact iff_of_false (fun h => hshift h.1) fun h => hshift h.1

/-- **Shift at the press of a letter** is down exactly for an upper-case one. -/
theorem shift_at_press {m : ModifiersState} {event : KeyEvent} {code : KeyCode} {keycode : UInt32}
    {c : Char} (hcode : event.physicalKey = some code)
    (hkeycode : keycodeToEvdev code = some keycode) (hpressed : event.state = .pressed)
    (hletter : letterOf event.text = some c) {pre post : List InputMessage}
    (hsplit : convertKeyboard event m.shiftKey = pre ++ keyMessage keycode true :: post) :
    m.tracker.replay (pre ++ [keyMessage keycode true]) =
      ({ m with shiftKey := c.isUpper } : ModifiersState).tracker := by
  rcases convertKeyboard_cases event m.shiftKey with
    hnone | ⟨code', keycode', hcode', hkeycode', hbit, hsent⟩
  · rw [hnone] at hsplit
    exact absurd hsplit.symm (List.append_ne_nil_of_right_ne_nil _ (List.cons_ne_nil _ _))
  obtain rfl : code = code' := Option.some.inj (hcode.symm.trans hcode')
  obtain rfl : keycode = keycode' := Option.some.inj (hkeycode.symm.trans hkeycode')
  rcases hsent with ⟨hkey, hcase⟩ | ⟨c', -, hletter', hbracket⟩
  · -- the key alone: the case is what Shift makes it
    rw [hkey] at hsplit
    obtain ⟨rfl, -⟩ : pre = [] ∧ post = [] := by
      have hlength := congrArg List.length hsplit
      simp only [List.length_append, List.length_cons, List.length_nil] at hlength
      exact ⟨List.length_eq_zero_iff.mp (by omega), List.length_eq_zero_iff.mp (by omega)⟩
    rw [hcase hpressed c hletter]
    exact onInput_of_modifierBit hbit _ _
  · obtain rfl : c = c' := Option.some.inj (hletter.symm.trans hletter')
    -- the key stands between the two events of Shift
    have hne : ∀ pressed, keyMessage keyLeftShift pressed ≠ keyMessage keycode true := by
      intro pressed heq
      obtain rfl : keyLeftShift = keycode := by injection heq with heq; injection heq
      exact absurd hbit (by decide)
    rw [hbracket] at hsplit
    obtain rfl : pre = [keyMessage keyLeftShift c.isUpper] := by
      match pre, hsplit with
      | [], h => exact absurd (List.cons.inj h).1 (hne _)
      | [_], h => rw [(List.cons.inj h).1]
      | [_, _], h => exact absurd (List.cons.inj (List.cons.inj (List.cons.inj h).2).2).1 (hne _)
      | _ :: _ :: _ :: pre, h =>
        have hlength := congrArg List.length h
        simp only [List.length_cons, List.length_append, List.length_nil] at hlength
        omega
    rw [← m.tracker_onKey_shift c.isUpper, ← onInput_keyMessage, ModifierTracker.replay_append]
    exact onInput_of_modifierBit hbit _ _

end ClientInput

/-! ### The server's side -/

/-- The input among the events of the desktop. -/
def DesktopEvent.inputMessage {P : Type} : DesktopEvent P → Option InputMessage
  | .user (.input msg) => some msg
  | _ => none

namespace Link

variable {P : Type} (ops : SpaceOps P)

theorem modifiers_step (d : DesktopState P) (event : DesktopEvent P) :
    (d.step ops event).modifiers = d.modifiers.replay event.inputMessage.toList := by
  have hkeys := congrArg Keys.modifiers (d.keys_step ops event)
  cases event with
  | wm event => exact hkeys
  | user event =>
    cases event with
    | input msg => exact modifiers_injectNetworkInput ops d msg
    | newToplevel _ | arranged _ | toplevelDestroyed _ => exact hkeys

/-- **The tracked modifiers are those of the messages processed so far**, whatever window managers
and applications do between them. -/
theorem modifiers_served (d : DesktopState P) (served : List (DesktopEvent P)) :
    (served.foldl (DesktopState.step ops) d).modifiers =
      d.modifiers.replay (served.filterMap DesktopEvent.inputMessage) := by
  induction served generalizing d with
  | nil => rfl
  | cons event served ih =>
    rw [List.foldl_cons, ih, modifiers_step, ← ModifierTracker.replay_append]
    refine congrArg d.modifiers.replay ?_
    rw [List.filterMap_eq_flatMap_toList, List.filterMap_eq_flatMap_toList, List.flatMap_cons]

/-- The server holds no modifier key but those the client sends, and no other is under way. -/
structure LeftHanded (l : Link P) : Prop where
  held : l.server.modifiers.held ⊆ clientModifiers
  queue : ∀ msg ∈ l.queue, LeftOnly msg
  inFlight : ∀ msg ∈ l.inFlight, LeftOnly msg

variable {ops}

theorem Stepped.leftHanded {l l' : Link P} {event : LinkEvent} (hstep : Stepped ops l event l')
    (h : l.LeftHanded) : l'.LeftHanded := by
  cases hstep with
  | stays => exact h
  | window event =>
    refine ⟨h.held, fun msg hmsg => ?_, h.inFlight⟩
    exact (List.mem_append.mp hmsg).elim (h.queue msg) leftOnly_windowEvent
  | send msg queue hqueue =>
    have hplain := h.queue
    rw [hqueue, List.forall_mem_cons] at hplain
    refine ⟨h.held, hplain.2, ?_⟩
    dsimp only
    split_ifs
    · intro msg' hmsg'
      rcases List.mem_append.mp hmsg' with hmem | hmem
      · exact h.inFlight msg' hmem
      · exact List.mem_singleton.mp hmem ▸ hplain.1
    · exact h.inFlight
  | sendFails msg queue hqueue =>
    have hplain := h.queue
    rw [hqueue, List.forall_mem_cons] at hplain
    exact ⟨h.held, hplain.2, h.inFlight⟩
  | clientDrops => exact ⟨h.held, h.queue, h.inFlight⟩
  | deliver msg inFlight _ hinFlight =>
    have hplain := h.inFlight
    rw [hinFlight, List.forall_mem_cons] at hplain
    refine ⟨?_, h.queue, hplain.2⟩
    rw [modifiers_injectNetworkInput]
    exact held_onInput_subset h.held hplain.1
  | serverDrops =>
    refine ⟨?_, h.queue, fun msg hmsg => absurd hmsg List.not_mem_nil⟩
    rw [modifiers_releaseAllKeys]
    exact Finset.empty_subset _
  | reconnect => exact ⟨h.held, h.queue, fun msg hmsg => absurd hmsg List.not_mem_nil⟩
  | wm event =>
    refine ⟨?_, h.queue, h.inFlight⟩
    rw [modifiers_wmStep]
    exact h.held

theorem leftHanded_run (d : DesktopState P) (events : List LinkEvent) :
    (events.foldl (step ops) (start d)).LeftHanded := by
  refine List.foldlRecOn (motive := LeftHanded) events _ ?_ fun l hl event _ =>
    (stepped ops l event).leftHanded hl
  refine ⟨?_, fun msg hmsg => absurd hmsg List.not_mem_nil,
    fun msg hmsg => absurd hmsg List.not_mem_nil⟩
  rw [show (start d).server.modifiers = .default from modifiers_releaseAllKeys d]
  exact Finset.empty_subset _

/-- **Letter case is faithful.**  After any connections before, let the modifier masks of client and
server be equal, let any window events happen, and let the server process what they send among other
events of the desktop.  Then the masks are equal again after the messages of each window event; and
at the press of a key whose text is a letter the Shift bit of the server is set exactly if the
letter is an upper-case one. -/
theorem letter_case_faithful (ops : SpaceOps P) (d : DesktopState P) (before : List LinkEvent)
    (events : List WindowEvent) (served : List (DesktopEvent P)) :
    let l := before.foldl (step ops) (start d)
    let modifiers := modifiersAfter l.modifiers events
    let server := served.foldl (DesktopState.step ops) l.server
    l.server.modifiers.mask = l.modifiers.mask →
    (served.filterMap DesktopEvent.inputMessage = sent l.modifiers events →
      server.modifiers.mask = modifiers.mask) ∧
    ∀ event code keycode c pre post, event.physicalKey = some code →
      keycodeToEvdev code = some keycode → event.state = .pressed →
      letterOf event.text = some c →
      (windowEvent modifiers (.keyboardInput event)).1 = pre ++ keyMessage keycode true :: post →
      served.filterMap DesktopEvent.inputMessage = sent l.modifiers events ++ pre →
      ((server.injectNetworkInput ops (keyMessage keycode true)).modifiers.mask &&& modShift ≠ 0 ↔
        c.isUpper = true) := by
  intro l modifiers server hmask
  have hstart : l.server.modifiers = l.modifiers.tracker :=
    eq_tracker_of_mask (leftHanded_run d before).held hmask
  have hserver : server.modifiers =
      l.modifiers.tracker.replay (served.filterMap DesktopEvent.inputMessage) := by
    rw [← hstart]
    exact modifiers_served ops l.server served
  constructor
  · intro hserved
    rw [hserver, hserved, replay_sent, ModifiersState.mask_tracker]
  · intro event code keycode c pre post hcode hkeycode hpressed hletter hsplit hserved
    have hpress : (server.injectNetworkInput ops (keyMessage keycode true)).modifiers =
        ({ modifiers with shiftKey := c.isUpper } : ModifiersState).tracker := by
      rw [← shift_at_press hcode hkeycode hpressed hletter hsplit, modifiers_injectNetworkInput,
        hserver, hserved, ModifierTracker.replay_append, replay_sent,
        ModifierTracker.replay_append]
      rfl
    rw [hpress, ModifiersState.mask_tracker]
    exact ModifiersState.shift_bit _

/-- Shift is held and caps lock is on: the letter is a lower-case one. -/
theorem letter_case_faithful_caps :
    let l := [.reconnect].foldl (step DesktopState.noSpace) (start (.start () (800, 600) none))
    let served : List (DesktopEvent Unit) := [.user (.input (keyMessage keyLeftShift true)),
      .user (.input (keyMessage keyLeftShift false))]
    let server := served.foldl (DesktopState.step DesktopState.noSpace) l.server
    (server.injectNetworkInput DesktopState.noSpace (keyMessage 16 true)).modifiers.mask &&&
      modShift ≠ 0 ↔ 'q'.isUpper = true :=
  (letter_case_faithful DesktopState.noSpace (.start () (800, 600) none) [.reconnect]
    [.modifiersChanged ⟨true, false, false, false⟩]
    [.user (.input (keyMessage keyLeftShift true)), .user (.input (keyMessage keyLeftShift false))]
    (by decide)).2 ⟨some .keyQ, .pressed, some "q"⟩ .keyQ 16 'q' [keyMessage keyLeftShift false]
    [keyMessage keyLeftShift true] rfl rfl rfl (by decide) (by decide) rfl

end Link

end WayRay
