import WayRay.Client.Input
import WayRay.Collections.GuardedRun
import WayRay.Desktop.Keys

/-!
# Modifiers on both sides

The client keeps the modifier state that its window system reports and sends the changes; the server
tracks the modifiers of the messages it receives, and forgets them when the connection ends.  A
`Link` is the two sides with the messages between them: those the client has queued, which outlive a
connection, and those in flight, which are lost with it.

* What the client sends turns its state before a window event into the one after it
  (`replay_windowEvent`).
* While the connection is up, the messages under way lead the server to the client's state (`Inv`).
  A new connection begins so only if the client holds no modifier but those whose press is still in
  the queue (`modifiers_agree`).
-/

namespace WayRay

open ClientInput GuardedRun

/-! ### Replaying messages -/

namespace ModifierTracker

/-- Record an input message. -/
def onInput (t : ModifierTracker) : InputMessage → ModifierTracker
  | .keyboard ev => t.onKey ev.keycode ev.pressed
  | _ => t

/-- The tracker after some messages. -/
def replay (t : ModifierTracker) (msgs : List InputMessage) : ModifierTracker :=
  msgs.foldl onInput t

theorem replay_append (t : ModifierTracker) (msgs msgs' : List InputMessage) :
    t.replay (msgs ++ msgs') = (t.replay msgs).replay msgs' :=
  List.foldl_append

theorem onKey_mono {t t' : ModifierTracker} (h : t.held ⊆ t'.held) (keycode : UInt32)
    (pressed : Bool) : (t.onKey keycode pressed).held ⊆ (t'.onKey keycode pressed).held := by
  unfold onKey
  split_ifs
  · exact h
  · exact Finset.insert_subset_insert keycode h
  · exact Finset.erase_subset_erase keycode h

/-- What is held after messages grows with what is held before. -/
theorem replay_mono {t t' : ModifierTracker} (h : t.held ⊆ t'.held) (msgs : List InputMessage) :
    (t.replay msgs).held ⊆ (t'.replay msgs).held := by
  induction msgs generalizing t t' with
  | nil => exact h
  | cons msg msgs ih =>
    refine ih ?_
    cases msg with
    | keyboard ev => exact onKey_mono h ev.keycode ev.pressed
    | _ => exact h

/-- A key that is as the event says stays so. -/
theorem onKey_eq_self {t : ModifierTracker} {keycode : UInt32} {pressed : Bool}
    (h : keycode ∈ t.held ↔ pressed = true) : t.onKey keycode pressed = t := by
  unfold onKey
  split_ifs with hbit hpressed
  · rfl
  · rw [Finset.insert_eq_self.mpr (h.mpr hpressed)]
  · rw [Finset.erase_eq_of_notMem fun hmem => hpressed (h.mp hmem)]

/-- Only the last event of a key counts. -/
theorem onKey_onKey (t : ModifierTracker) (keycode : UInt32) (pressed pressed' : Bool) :
    (t.onKey keycode pressed).onKey keycode pressed' = t.onKey keycode pressed' := by
  cases hbit : modifierBit keycode with
  | none => rw [onKey_of_modifierBit hbit t pressed]
  | some bit =>
    have hsome : (modifierBit keycode).isSome = true := Option.isSome_of_eq_some hbit
    ext k
    rw [mem_onKey hsome, mem_onKey hsome, mem_onKey hsome]
    split_ifs <;> rfl

end ModifierTracker

/-! ### What the client sends -/

namespace ClientInput

/-- The tracker that holds the modifiers of a state. -/
def ModifiersState.tracker (m : ModifiersState) : ModifierTracker :=
  (((ModifierTracker.default.onKey keyLeftShift m.shiftKey).onKey keyLeftCtrl m.controlKey).onKey
    keyLeftAlt m.altKey).onKey keyLeftMeta m.superKey

/-- The modifier mask of a state. -/
def ModifiersState.mask (m : ModifiersState) : UInt32 :=
  (if m.shiftKey then modShift else 0) ||| (if m.controlKey then modCtrl else 0) |||
    (if m.altKey then modAlt else 0) ||| (if m.superKey then modSuper else 0)

theorem ModifiersState.mask_tracker (m : ModifiersState) : m.tracker.mask = m.mask := by
  obtain ⟨shift, control, alt, super⟩ := m
  cases shift <;> cases control <;> cases alt <;> cases super <;> rfl

theorem onInput_keyMessage (t : ModifierTracker) (keycode : UInt32) (pressed : Bool) :
    t.onInput (keyMessage keycode pressed) = t.onKey keycode pressed := by
  cases pressed <;> rfl

theorem replay_emit (t : ModifierTracker) (was is : Bool) (keycode : UInt32)
    (h : keycode ∈ t.held ↔ was = true) : t.replay (emit was is keycode) = t.onKey keycode is := by
  unfold emit
  split_ifs with heq
  · exact (ModifierTracker.onKey_eq_self (heq ▸ h)).symm
  · exact onInput_keyMessage t keycode is

theorem ModifiersState.mem_tracker {m : ModifiersState} {k : UInt32} :
    k ∈ m.tracker.held ↔
      if k = keyLeftMeta then m.superKey = true else if k = keyLeftAlt then m.altKey = true
      else if k = keyLeftCtrl then m.controlKey = true
      else k = keyLeftShift ∧ m.shiftKey = true := by
  unfold ModifiersState.tracker
  rw [ModifierTracker.mem_onKey rfl, ModifierTracker.mem_onKey rfl, ModifierTracker.mem_onKey rfl,
    ModifierTracker.mem_onKey rfl]
  split_ifs with hmeta halt hctrl hshift
  · rfl
  · rfl
  · rfl
  · exact (and_iff_right hshift).symm
  · exact iff_of_false (Finset.notMem_empty k) fun h => hshift h.1

theorem ModifiersState.shift_mem_tracker (m : ModifiersState) :
    keyLeftShift ∈ m.tracker.held ↔ m.shiftKey = true := by
  simp [ModifiersState.mem_tracker, keyLeftShift, keyLeftCtrl, keyLeftAlt, keyLeftMeta]

/-- **The changes lead from one modifier state to the other.** -/
theorem replay_convertModifiers (prev now : ModifiersState) :
    prev.tracker.replay (convertModifiers prev now) = now.tracker := by
  have hcontrol : keyLeftCtrl ∈ (prev.tracker.onKey keyLeftShift now.shiftKey).held ↔
      prev.controlKey = true := by
    rw [ModifierTracker.mem_onKey_of_ne (by decide)]
    simp [ModifiersState.mem_tracker, keyLeftCtrl, keyLeftAlt, keyLeftMeta]
  have halt : keyLeftAlt ∈ ((prev.tracker.onKey keyLeftShift now.shiftKey).onKey keyLeftCtrl
      now.controlKey).held ↔ prev.altKey = true := by
    rw [ModifierTracker.mem_onKey_of_ne (by decide), ModifierTracker.mem_onKey_of_ne (by decide)]
    simp [ModifiersState.mem_tracker, keyLeftAlt, keyLeftMeta]
  have hsuper : keyLeftMeta ∈ (((prev.tracker.onKey keyLeftShift now.shiftKey).onKey keyLeftCtrl
      now.controlKey).onKey keyLeftAlt now.altKey).held ↔ prev.superKey = true := by
    rw [ModifierTracker.mem_onKey_of_ne (by decide), ModifierTracker.mem_onKey_of_ne (by decide),
      ModifierTracker.mem_onKey_of_ne (by decide)]
    simp [ModifiersState.mem_tracker]
  rw [convertModifiers, ModifierTracker.replay_append, ModifierTracker.replay_append,
    ModifierTracker.replay_append, replay_emit _ _ _ _ prev.shift_mem_tracker,
    replay_emit _ _ _ _ hcontrol, replay_emit _ _ _ _ halt, replay_emit _ _ _ _ hsuper]
  ext k
  rw [ModifierTracker.mem_onKey rfl, ModifierTracker.mem_onKey rfl, ModifierTracker.mem_onKey rfl,
    ModifierTracker.mem_onKey rfl, ModifiersState.mem_tracker, ModifiersState.mem_tracker]
  split_ifs with hmeta halt hctrl hshift
  · rfl
  · rfl
  · rfl
  · exact (and_iff_right hshift).symm
  · exact iff_of_false (fun h => hshift h.1) fun h => hshift h.1

/-- A key that is sent as a key is no modifier. -/
theorem modifierBit_of_keycodeToEvdev {code : KeyCode} {keycode : UInt32}
    (h : keycodeToEvdev code = some keycode) (hcode : isModifierKey code = false) :
    ModifierTracker.modifierBit keycode = none := by
  cases code with
  | other raw => exact absurd h nofun
  | shiftLeft | shiftRight | controlLeft | controlRight | altLeft | altRight | superLeft
  | superRight => exact absurd hcode (by decide)
  | _ =>
    obtain rfl := Option.some.inj h
    rfl

/-- **What a key event sends**: nothing, or its key alone, or a letter in a bracket of Shift. -/
theorem convertKeyboard_cases (event : KeyEvent) (realShift : Bool) :
    convertKeyboard event realShift = [] ∨
      ∃ code keycode, event.physicalKey = some code ∧ keycodeToEvdev code = some keycode ∧
        ModifierTracker.modifierBit keycode = none ∧
        ((convertKeyboard event realShift = [keyMessage keycode (event.state = .pressed)] ∧
            (event.state = .pressed → ∀ c, letterOf event.text = some c → c.isUpper = realShift)) ∨
          ∃ c, event.state = .pressed ∧ letterOf event.text = some c ∧
            convertKeyboard event realShift =
              [keyMessage keyLeftShift c.isUpper, keyMessage keycode true,
                keyMessage keyLeftShift realShift]) := by
  unfold convertKeyboard
  cases hphysical : event.physicalKey with
  | none => exact .inl rfl
  | some code =>
    dsimp only
    by_cases hcode : isModifierKey code = true ∨ code = .capsLock
    · exact .inl (if_pos hcode)
    · rw [if_neg hcode]
      cases hkeycode : keycodeToEvdev code with
      | none => exact .inl rfl
      | some keycode =>
        have hbit : ModifierTracker.modifierBit keycode = none :=
          modifierBit_of_keycodeToEvdev hkeycode (by simpa using fun h => hcode (.inl h))
        refine .inr ⟨code, keycode, rfl, hkeycode, hbit, ?_⟩
        dsimp only
        by_cases hpressed : event.state = .pressed
        · rw [if_pos hpressed]
          cases hletter : letterOf event.text with
          | none => exact .inl ⟨rfl, fun _ c hc => absurd hc.symm (Option.some_ne_none c)⟩
          | some c =>
            dsimp only
            by_cases hcase : c.isUpper = realShift
            · exact .inl ⟨if_pos hcase, fun _ c' hc' => Option.some.inj hc' ▸ hcase⟩
            · refine .inr ⟨c, hpressed, rfl, ?_⟩
              rw [if_neg hcase, hpressed]
              rfl
        · rw [if_neg hpressed]
          exact .inl ⟨rfl, fun h => absurd h hpressed⟩

theorem onInput_of_modifierBit {keycode : UInt32} (h : ModifierTracker.modifierBit keycode = none)
    (t : ModifierTracker) (pressed : Bool) : t.onInput (keyMessage keycode pressed) = t :=
  (onInput_keyMessage t keycode pressed).trans (ModifierTracker.onKey_of_modifierBit h t pressed)

/-- A key, with or without its caps-lock correction, leaves the modifiers as they are. -/
theorem replay_convertKeyboard (m : ModifiersState) (event : KeyEvent) :
    m.tracker.replay (convertKeyboard event m.shiftKey) = m.tracker := by
  rcases convertKeyboard_cases event m.shiftKey with hnone | ⟨_, keycode, -, -, hbit, hsent⟩
  · rw [hnone]
    rfl
  rcases hsent with ⟨hkey, -⟩ | ⟨c, -, -, hbracket⟩
  · rw [hkey]
    exact onInput_of_modifierBit hbit _ _
  · -- the bracket ends with the physical state of Shift
    rw [hbracket]
    simp only [ModifierTracker.replay, List.foldl_cons, List.foldl_nil, onInput_of_modifierBit hbit,
      onInput_keyMessage, ModifierTracker.onKey_onKey]
    exact ModifierTracker.onKey_eq_self m.shift_mem_tracker

/-- **What a window event sends leads to the modifiers after it.** -/
theorem replay_windowEvent (m : ModifiersState) (event : WindowEvent) :
    m.tracker.replay (windowEvent m event).1 = (windowEvent m event).2.tracker := by
  cases event with
  | keyboardInput event => exact replay_convertKeyboard m event
  | modifiersChanged state => exact replay_convertModifiers m state
  | cursorMoved _ _ | mouseInput _ _ | other => rfl
  | mouseWheel amounts =>
    simp only [windowEvent]
    induction amounts with
    | nil => rfl
    | cons amount amounts ih => exact ih

end ClientInput

/-! ### Client and server -/

/-- A client and a server, and the input messages between them. -/
structure Link (P : Type) where
  /-- The modifiers that the client's window system reports. -/
  modifiers : ModifiersState
  /-- The messages that the window has sent and the network loop has not taken. -/
  queue : List InputMessage
  clientUp : Bool
  /-- The messages sent on the connection that the server has not processed. -/
  inFlight : List InputMessage
  serverUp : Bool
  server : DesktopState P

inductive LinkEvent where
  | window (event : WindowEvent)
  /-- The client's network loop takes the next message and sends it. -/
  | send
  /-- It takes the next message and fails to send it, which ends the connection. -/
  | sendFails
  /-- The client notices that the connection has ended. -/
  | clientDrops
  /-- The server processes the next message. -/
  | deliver
  /-- The server notices that the connection has ended: the client's keys are released. -/
  | serverDrops
  | reconnect
  /-- A window manager binds keys or does something else. -/
  | wm (event : WmEvent)

namespace Link

variable {P : Type} (ops : SpaceOps P)

/-- No client has connected yet. -/
def start (d : DesktopState P) : Link P := ⟨.empty, [], false, [], false, d.releaseAllKeys⟩

def step (l : Link P) : LinkEvent → Link P
  | .window event =>
    let (msgs, modifiers) := windowEvent l.modifiers event
    { l with modifiers := modifiers, queue := l.queue ++ msgs }
  | .send =>
    match l.clientUp, l.queue with
    | true, msg :: queue =>
      -- nobody reads it any more if the server has ended the connection
      { l with queue := queue, inFlight := if l.serverUp then l.inFlight ++ [msg] else l.inFlight }
    | _, _ => l
  | .sendFails =>
    match l.clientUp, l.queue with
    | true, _ :: queue => { l with queue := queue, clientUp := false }
    | _, _ => l
  | .clientDrops => { l with clientUp := false }
  | .deliver =>
    match l.serverUp, l.inFlight with
    | true, msg :: inFlight =>
      { l with inFlight := inFlight, server := l.server.injectNetworkInput ops msg }
    | _, _ => l
  | .serverDrops =>
    if l.serverUp then
      { l with serverUp := false, inFlight := [], server := l.server.releaseAllKeys }
    else l
  | .reconnect =>
    if l.clientUp ∨ l.serverUp then l
    else { l with clientUp := true, serverUp := true, inFlight := [] }
  | .wm event => { l with server := l.server.wmStep ops event }

/-- The client does not reconnect with a modifier held whose press is no longer in the queue. -/
def ReconnectsFresh (l : Link P) : LinkEvent → Prop
  | .reconnect => l.clientUp = false → l.serverUp = false →
    l.modifiers.tracker.held ⊆ (ModifierTracker.default.replay l.queue).held
  | _ => True

/-- What holds after every run. -/
structure Inv (l : Link P) : Prop where
  /-- What is queued leads to the client's modifiers. -/
  queued : ∃ t : ModifierTracker, t.replay l.queue = l.modifiers.tracker
  /-- Without a connection the server holds none. -/
  released : l.serverUp = false → l.server.modifiers = .default

/-- While a connection is up, the messages under way lead the server to the client's modifiers. -/
def UnderWay (l : Link P) : Prop :=
  l.clientUp = true → l.serverUp = true →
    l.server.modifiers.replay (l.inFlight ++ l.queue) = l.modifiers.tracker

/-! ### The server's side -/

theorem modifiers_injectNetworkInput (d : DesktopState P) (msg : InputMessage) :
    (d.injectNetworkInput ops msg).modifiers = d.modifiers.onInput msg := by
  have hkeys := congrArg Keys.modifiers (d.keys_step ops (.user (.input msg)))
  cases msg <;> exact hkeys

theorem modifiers_wmStep (d : DesktopState P) (event : WmEvent) :
    (d.wmStep ops event).modifiers = d.modifiers :=
  congrArg Keys.modifiers (d.keys_wmStep ops event)

theorem modifiers_releaseAllKeys (d : DesktopState P) : d.releaseAllKeys.modifiers = .default := by
  unfold DesktopState.releaseAllKeys
  dsimp only
  split_ifs <;> rfl

/-! ### Steps -/

variable {ops}

theorem inv_start (d : DesktopState P) : (start d).Inv where
  queued := ⟨ModifiersState.empty.tracker, rfl⟩
  released _ := modifiers_releaseAllKeys d

/-- What an event does to the two sides. -/
inductive Stepped (ops : SpaceOps P) (l : Link P) : LinkEvent → Link P → Prop
  /-- There is nothing to send or to process, or the connection is down, or up already. -/
  | stays {event : LinkEvent} (hfresh : l.ReconnectsFresh event) : Stepped ops l event l
  | window (event : WindowEvent) : Stepped ops l (.window event)
      { l with
        modifiers := (windowEvent l.modifiers event).2
        queue := l.queue ++ (windowEvent l.modifiers event).1 }
  | send (msg : InputMessage) (queue : List InputMessage) (hqueue : l.queue = msg :: queue) :
    Stepped ops l .send
      { l with queue := queue, inFlight := if l.serverUp then l.inFlight ++ [msg] else l.inFlight }
  | sendFails (msg : InputMessage) (queue : List InputMessage) (hqueue : l.queue = msg :: queue) :
    Stepped ops l .sendFails { l with queue := queue, clientUp := false }
  | clientDrops : Stepped ops l .clientDrops { l with clientUp := false }
  | deliver (msg : InputMessage) (inFlight : List InputMessage) (hup : l.serverUp = true)
    (hinFlight : l.inFlight = msg :: inFlight) : Stepped ops l .deliver
      { l with inFlight := inFlight, server := l.server.injectNetworkInput ops msg }
  | serverDrops : Stepped ops l .serverDrops
      { l with serverUp := false, inFlight := [], server := l.server.releaseAllKeys }
  | reconnect (hclient : l.clientUp = false) (hserver : l.serverUp = false) :
    Stepped ops l .reconnect { l with clientUp := true, serverUp := true, inFlight := [] }
  | wm (event : WmEvent) : Stepped ops l (.wm event)
      { l with server := l.server.wmStep ops event }

variable (ops) in
theorem stepped (l : Link P) (event : LinkEvent) : Stepped ops l event (l.step ops event) := by
  cases event with
  | window event => exact .window event
  | send =>
    dsimp only [step]
    split
    · next msg queue _ hqueue => exact .send msg queue hqueue
    · exact .stays trivial
  | sendFails =>
    dsimp only [step]
    split
    · next msg queue _ hqueue => exact .sendFails msg queue hqueue
    · exact .stays trivial
  | clientDrops => exact .clientDrops
  | deliver =>
    dsimp only [step]
    split
    · next msg inFlight hup hinFlight => exact .deliver msg inFlight hup hinFlight
    · exact .stays trivial
  | serverDrops =>
    dsimp only [step]
    split_ifs
    · exact .serverDrops
    · exact .stays trivial
  | reconnect =>
    dsimp only [step]
    split_ifs with hup
    · refine .stays fun hclient hserver => ?_
      rw [hclient, hserver] at hup
      exact absurd hup (by decide)
    · rw [not_or, Bool.not_eq_true, Bool.not_eq_true] at hup
      exact .reconnect hup.1 hup.2
  | wm event => exact .wm event

section Stepped

variable {l l' : Link P} {event : LinkEvent}

theorem Stepped.inv (hstep : Stepped ops l event l') (h : l.Inv) : l'.Inv := by
  obtain ⟨t, ht⟩ := h.queued
  cases hstep with
  | stays => exact h
  | window event =>
    refine ⟨⟨t, ?_⟩, h.released⟩
    rw [ModifierTracker.replay_append, ht, replay_windowEvent]
  | send msg queue hqueue | sendFails msg queue hqueue =>
    exact ⟨⟨t.onInput msg, by rw [← ht, hqueue]; rfl⟩, h.released⟩
  | clientDrops => exact ⟨h.queued, h.released⟩
  | deliver msg inFlight hup hinFlight =>
    refine ⟨h.queued, fun hdown => ?_⟩
    rw [hup] at hdown
    exact absurd hdown (by decide)
  | serverDrops => exact ⟨h.queued, fun _ => modifiers_releaseAllKeys l.server⟩
  | reconnect => exact ⟨h.queued, nofun⟩
  | wm event =>
    exact ⟨h.queued, fun hdown => (modifiers_wmStep ops l.server event).trans (h.released hdown)⟩

/-- On a new connection the queue leads to the client's modifiers exactly if it holds the presses of
all of them. -/
theorem replay_queue_iff (h : l.Inv) :
    l.modifiers.tracker.held ⊆ (ModifierTracker.default.replay l.queue).held ↔
      ModifierTracker.default.replay l.queue = l.modifiers.tracker := by
  obtain ⟨t, ht⟩ := h.queued
  have hle : (ModifierTracker.default.replay l.queue).held ⊆ l.modifiers.tracker.held :=
    ht ▸ ModifierTracker.replay_mono (Finset.empty_subset t.held) l.queue
  constructor
  · intro hge
    exact ModifierTracker.ext (hle.antisymm hge)
  · intro heq
    rw [heq]

/-- **Only a reconnect can part the two sides**, and it does unless it is fresh. -/
theorem Stepped.underWay_iff (hstep : Stepped ops l event l') (h : l.Inv) (hway : l.UnderWay) :
    l.ReconnectsFresh event ↔ l'.UnderWay := by
  cases hstep with
  | stays hfresh => exact iff_of_true hfresh hway
  | window event =>
    refine iff_of_true trivial fun hclient hserver => ?_
    dsimp only
    rw [← List.append_assoc, ModifierTracker.replay_append, hway hclient hserver,
      replay_windowEvent]
  | send msg queue hqueue =>
    refine iff_of_true trivial fun hclient hserver => ?_
    have hall := hway hclient hserver
    rw [hqueue] at hall
    dsimp only at hserver ⊢
    rw [if_pos hserver, List.append_assoc]
    exact hall
  | sendFails | clientDrops | serverDrops => exact iff_of_true trivial nofun
  | deliver msg inFlight hup hinFlight =>
    refine iff_of_true trivial fun hclient hserver => ?_
    have hall := hway hclient hserver
    rw [hinFlight] at hall
    dsimp only
    rw [modifiers_injectNetworkInput]
    exact hall
  | reconnect hclient hserver =>
    simp only [ReconnectsFresh, UnderWay, hclient, hserver, h.released hserver, List.nil_append,
      forall_const]
    exact replay_queue_iff h
  | wm event =>
    refine iff_of_true trivial fun hclient hserver => ?_
    dsimp only
    rw [modifiers_wmStep]
    exact hway hclient hserver

end Stepped

/-! ### Runs -/

/-- The reconnects of a run are all fresh exactly if, whenever a connection is up, the messages
under way lead the server to the client's modifiers. -/
theorem along_iff_underWay (d : DesktopState P) (events : List LinkEvent) :
    Along (step ops) ReconnectsFresh (start d) events ↔
      ∀ pre, pre <+: events → (pre.foldl (step ops) (start d)).UnderWay :=
  along_iff_forall_initial (fun l event h => (stepped ops l event).inv h)
    (fun l event h hway => (stepped ops l event).underWay_iff h hway) (inv_start d) nofun

/-- **The modifiers agree across reconnects.**  In every run of window events, disconnects and
reconnects at whose reconnects the client holds no modifier but those whose press is still queued:
whenever a connection is up and all input messages have been sent and processed, the server's
modifier mask is that of the client's modifier state. -/
theorem modifiers_agree (ops : SpaceOps P) (d : DesktopState P) (events : List LinkEvent)
    (hfresh : Along (step ops) ReconnectsFresh (start d) events) :
    let l := events.foldl (step ops) (start d)
    l.clientUp = true → l.serverUp = true → l.queue = [] → l.inFlight = [] →
      l.server.modifiers.mask = l.modifiers.mask := by
  intro l hclient hserver hqueue hinFlight
  have hway := (along_iff_underWay d events).mp hfresh events List.prefix_rfl hclient hserver
  rw [hqueue, hinFlight] at hway
  rw [← ModifiersState.mask_tracker]
  exact congrArg ModifierTracker.mask hway

section Witness

private def desktop : DesktopState Unit := .start () (800, 600) none

private def shiftDown : LinkEvent := .window (.modifiersChanged ⟨true, false, false, false⟩)

/-- Shift is pressed on a connection. -/
theorem modifiers_agree_shift :
    let l := [.reconnect, shiftDown, .send, .deliver].foldl (step DesktopState.noSpace)
      (start desktop)
    l.server.modifiers.mask = l.modifiers.mask :=
  modifiers_agree DesktopState.noSpace desktop [.reconnect, shiftDown, .send, .deliver]
    ⟨fun _ _ => by decide, trivial, trivial, trivial, trivial⟩ (by decide) (by decide) rfl rfl

/-- The connection is lost while Shift is held: the client does not send it again. -/
theorem modifiers_part_held :
    let l := [.reconnect, shiftDown, .send, .deliver, .clientDrops, .serverDrops,
      .reconnect].foldl (step DesktopState.noSpace) (start desktop)
    ¬ (l.clientUp = true → l.serverUp = true → l.queue = [] → l.inFlight = [] →
      l.server.modifiers.mask = l.modifiers.mask) := by
  intro l h
  exact absurd (h (by decide) (by decide) rfl rfl) (by decide)

end Witness

end Link

end WayRay
