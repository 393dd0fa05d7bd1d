import WayRay.Desktop.Announced
import WayRay.Desktop.Render
import WayRay.Wm.Mentions

/-!
# What closed windows leave behind

The protocol server learns of a toplevel that is destroyed only if a window manager is connected,
and forgets the window's object and its border then.  Workspaces, tags, outputs and pending render
commands are not touched, and a manager can keep the object of a closed window and send requests for
it.

`Closing` is the desktop with the ids of the windows that have been closed.  `NoTrace` says that the
protocol state mentions none of them, `noTrace_step_iff` which events keep this so.
-/

namespace WayRay

open GuardedRun WmProtocolState

/-- The desktop, and which windows have been closed. -/
structure Closing (P : Type) where
  announcing : Announcing P
  /-- The windows whose toplevels have been destroyed. -/
  closed : Finset WindowId

/-- What applications and window managers do. -/
inductive ClosingEvent where
  /-- Windows, managers and window objects come and go. -/
  | announcing (event : AnnouncingEvent)
  /-- A request on a window object, also on that of a closed window. -/
  | windowRequest (object : ObjectId) (request : WindowRequest)
  | managerRequest (request : ManagerRequest)
  | seatRequest (seat : ObjectId) (request : SeatRequest)
  | workspaceRequest (workspaceManager : ObjectId) (request : WorkspaceRequest)
  /-- A frame is rendered. -/
  | tick

namespace Closing

variable {P : Type}

/-- The state a compositor starts with. -/
def start (space : P) (output : ℤ × ℤ) : Closing P := ⟨.start space output, ∅⟩

/-- The window that an object was created for. -/
def windowOf (t : Closing P) (object : ObjectId) : Option WindowId :=
  (t.announcing.created.find? fun entry => entry.1 = object).map Prod.snd

/-- The closed windows after an event. -/
def closedAfter (t : Closing P) : AnnouncingEvent → Finset WindowId
  | .toplevelDestroyed surface =>
    match t.announcing.desktop.windowIdFor surface with
    | some id => insert id t.closed
    | none => t.closed
  | _ => t.closed

variable (ops : SpaceOps P)

/-- The protocol server and the desktop handle an event. -/
def wmStep (t : Closing P) (event : WmEvent) : Closing P :=
  { t with announcing := { t.announcing with desktop := t.announcing.desktop.wmStep ops event } }

def step (t : Closing P) : ClosingEvent → Closing P
  | .announcing event =>
    { announcing := t.announcing.step ops event, closed := t.closedAfter event }
  | .windowRequest object request =>
    match t.windowOf object with
    | some id => t.wmStep ops (.windowRequest id request)
    | none => t
  | .managerRequest request => t.wmStep ops (.managerRequest request)
  | .seatRequest seat request => t.wmStep ops (.seatRequest seat request)
  | .workspaceRequest resource request => t.wmStep ops (.workspaceRequest resource request)
  | .tick => t.wmStep ops .tick

/-! ### Traces -/

/-- No part of the protocol state mentions a closed window. -/
def NoTrace (t : Closing P) : Prop :=
  ∀ proto, t.announcing.desktop.protocol = some proto → ∀ id ∈ t.closed, ¬ proto.Mentions id

/-- The event leaves nothing behind of a closed window. -/
def LeavesNothing (t : Closing P) : ClosingEvent → Prop
  /- The window has no workspace, tags, output or pending commands, and no border that a connected
  manager would have to be there for. -/
  | .announcing (.toplevelDestroyed surface) => ∀ proto id,
    t.announcing.desktop.protocol = some proto →
    t.announcing.desktop.windowIdFor surface = some id →
    ¬ proto.workspace.Mentions id ∧ ¬ proto.PendingFor id ∧
      (proto.isWmConnected = false → proto.borders.get id = none)
  /- A late request is none that is recorded. -/
  | .windowRequest object request => ∀ proto id,
    t.announcing.desktop.protocol = some proto → t.windowOf object = some id → id ∈ t.closed →
    ¬ proto.Records request
  | _ => True

/-! ### Steps -/

/-- What holds of every state. -/
structure Inv (t : Closing P) (proto : WmProtocolState) : Prop where
  managed : t.announcing.desktop.Managed
  protocol : t.announcing.desktop.protocol = some proto
  attached : proto.Attached
  closed_lt : ∀ id ∈ t.closed, id.raw < t.announcing.desktop.nextWindowId
  closed : ∀ id ∈ t.closed, id ∉ t.announcing.desktop.windowIds.map Prod.fst

variable {ops} {t : Closing P} {proto : WmProtocolState}

theorem Inv.noTrace_iff (h : t.Inv proto) : t.NoTrace ↔ ∀ id ∈ t.closed, ¬ proto.Mentions id := by
  constructor
  · exact fun hnone => hnone proto h.protocol
  · intro hnone proto' hprotocol
    obtain rfl := Option.some.inj (h.protocol.symm.trans hprotocol)
    exact hnone

/-- The protocol server handles an event, while objects may be created. -/
theorem Inv.wmStep (ops : SpaceOps P) (h : t.Inv proto) (event : WmEvent)
    (created : List (ObjectId × WindowId)) (next : ℕ) :
    Inv { t with announcing := { t.announcing with
      desktop := t.announcing.desktop.wmStep ops event
      created := created
      next := next } } (proto.step event) := by
  have hsame := t.announcing.desktop.sameWm_wmStep ops event
  exact
    { managed := h.managed.wmStep ops event
      protocol := by rw [DesktopState.protocol_wmStep, h.protocol, Option.map_some]
      attached := h.attached.step event
      closed_lt := by rw [hsame.nextWindowId]; exact h.closed_lt
      closed := by rw [hsame.windowIds]; exact h.closed }

/-- An event of a window manager that introduces no closed window leaves no trace of one. -/
theorem Inv.noTrace_wmStep (h : t.Inv proto) (hnone : t.NoTrace) {event : WmEvent}
    (hevent : ∀ id ∈ t.closed, ¬ proto.Introduces event id) :
    ∀ id ∈ t.closed, ¬ (proto.step event).Mentions id := by
  intro id hid hmentions
  rcases Mentions.of_step event hmentions with hold | hnew
  · exact h.noTrace_iff.mp hnone id hid hold
  · exact hevent id hid hnew

/-- The event keeps the invariant, and leaves no trace exactly if it should. -/
def Exact (ops : SpaceOps P) (t : Closing P) (event : ClosingEvent) : Prop :=
  ∃ proto', (t.step ops event).Inv proto' ∧
    (t.NoTrace → (t.LeavesNothing event ↔ (t.step ops event).NoTrace))

/-- Events that introduce no closed window are harmless. -/
theorem Inv.exact_of_wmStep (ops : SpaceOps P) (h : t.Inv proto) {event : ClosingEvent}
    {wmEvent : WmEvent} {created : List (ObjectId × WindowId)} {next : ℕ}
    (hstep : t.step ops event = { t with announcing := { t.announcing with
      desktop := t.announcing.desktop.wmStep ops wmEvent
      created := created
      next := next } })
    (hleaves : t.LeavesNothing event)
    (hevent : ∀ id ∈ t.closed, ¬ proto.Introduces wmEvent id) : Exact ops t event := by
  have hinv := h.wmStep ops wmEvent created next
  rw [← hstep] at hinv
  refine ⟨_, hinv, fun hnone => iff_of_true hleaves (hinv.noTrace_iff.mpr ?_)⟩
  rw [hstep]
  exact h.noTrace_wmStep hnone hevent

/-- A new window has an id that no closed window had. -/
theorem Inv.newToplevel (ops : SpaceOps P) (h : t.Inv proto) (couldCreate : Bool) :
    Exact ops t (.announcing (.newToplevel couldCreate)) := by
  let object : Option ObjectId :=
    if couldCreate && t.announcing.desktop.wmConnected then some ⟨t.announcing.next⟩ else none
  obtain ⟨window, hwindow, hprotocol⟩ := Announcing.protocol_newToplevel ops h.protocol object
  have hnew : ∀ id ∈ t.closed, id ≠ ⟨t.announcing.desktop.nextWindowId⟩ := by
    rintro id hid rfl
    exact Nat.lt_irrefl _ (h.closed_lt _ hid)
  have hattached : Attached (if proto.isWmConnected then
      (proto.notifyNewWindow window object).startManagePhase else proto) := by
    split
    · exact (h.attached.step (.newWindow window object)).step .managePhase
    · exact h.attached
  have hinv : (t.step ops (.announcing (.newToplevel couldCreate))).Inv _ :=
    { managed := h.managed.newToplevel ops object
      protocol := hprotocol
      attached := hattached
      closed_lt := fun id hid => Nat.lt_succ_of_lt (h.closed_lt id hid)
      closed := fun id hid hmem =>
        (Announcing.mem_windowIds_newToplevel.mp hmem).elim (h.closed id hid) (hnew id hid) }
  refine ⟨_, hinv, fun hnone => iff_of_true trivial (hinv.noTrace_iff.mpr fun id hid => ?_)⟩
  have hbefore := h.noTrace_iff.mp hnone id hid
  split
  · intro hmentions
    rcases Mentions.of_step .managePhase hmentions with hmentions | hfalse
    · rcases Mentions.of_step (.newWindow window object) hmentions with hold | hid'
      · exact hbefore hold
      · exact hnew id hid (hid'.symm.trans hwindow)
    · exact hfalse
  · exact hbefore

/-- Without a registered window nothing is closed. -/
theorem Inv.toplevelDestroyed_of_none (ops : SpaceOps P) (h : t.Inv proto) {surface : Surface}
    (hnone : t.announcing.desktop.windowIdFor surface = none)
    (hd : t.announcing.desktop.toplevelDestroyed ops surface =
      { t.announcing.desktop with seat := t.announcing.desktop.seat.surfaceDestroyed surface }) :
    Exact ops t (.announcing (.toplevelDestroyed surface)) := by
  have hstep : t.step ops (.announcing (.toplevelDestroyed surface)) = { t with
      announcing := { t.announcing with desktop := { t.announcing.desktop with
        seat := t.announcing.desktop.seat.surfaceDestroyed surface } } } := by
    simp only [step, Announcing.step, closedAfter, hnone, hd]
  unfold Exact
  rw [hstep]
  refine ⟨proto, ⟨h.managed.of_sameWindows ⟨rfl, rfl, rfl, List.Perm.refl _⟩, h.protocol,
    h.attached, h.closed_lt, h.closed⟩, fun hclean => iff_of_true ?_ hclean⟩
  exact fun _ id _ hsome => absurd (hnone.symm.trans hsome) (Option.some_ne_none id).symm

/-- What the protocol state mentions of the window once it is closed. -/
theorem Inv.mentions_closed_iff (h : t.Inv proto) (id : WindowId) :
    (if proto.isWmConnected then proto.notifyWindowClosed id else proto).Mentions id ↔
      ¬ (¬ proto.workspace.Mentions id ∧ ¬ proto.PendingFor id ∧
        (proto.isWmConnected = false → proto.borders.get id = none)) := by
  cases hconnected : proto.isWmConnected with
  | true =>
    rw [if_pos rfl, mentions_notifyWindowClosed_self hconnected]
    simp only [Bool.true_eq_false, false_implies, and_true, not_and_or, not_not]
  | false =>
    have hclient : proto.wmClient = none := by
      simpa [isWmConnected] using hconnected
    rw [if_neg Bool.false_ne_true, WmProtocolState.Mentions, h.attached hclient id]
    simp only [Option.isSome_none, Bool.false_eq_true, false_or, true_implies, not_and_or, not_not,
      ← Option.isSome_iff_ne_none]
    tauto

theorem Inv.toplevelDestroyed (ops : SpaceOps P) (h : t.Inv proto) (surface : Surface) :
    Exact ops t (.announcing (.toplevelDestroyed surface)) := by
  rcases t.announcing.desktop.toplevelDestroyed_cases ops surface with
    ⟨hnone, hd⟩ | ⟨id, before, after, hc⟩
  · refine h.toplevelDestroyed_of_none ops (Option.eq_none_iff_forall_ne_some.mpr ?_) hd
    exact fun id hid => hnone _ ((h.managed.windowIdFor_eq_some).mp hid) rfl
  · have hmem : (id, surface) ∈ t.announcing.desktop.windowIds := by
      rw [hc.split]
      exact List.mem_append_right _ List.mem_cons_self
    have hwindow := h.managed.windowIdFor_eq_some.mpr hmem
    have hprotocol := Announcing.protocol_toplevelDestroyed ops h.managed hmem
    rw [h.protocol, Option.map_some] at hprotocol
    have hclosed : (t.step ops (.announcing (.toplevelDestroyed surface))).closed =
        insert id t.closed := by
      simp only [step, closedAfter, hwindow]
    have hinv : (t.step ops (.announcing (.toplevelDestroyed surface))).Inv _ :=
      { managed := h.managed.closes hc
        protocol := hprotocol
        attached := by
          split
          · exact h.attached.step (.windowClosed id)
          · exact h.attached
        closed_lt := by
          rw [hclosed, Finset.forall_mem_insert]
          exact ⟨hc.nextWindowId ▸ h.managed.ids_lt _ hmem, hc.nextWindowId ▸ h.closed_lt⟩
        closed := by
          rw [hclosed, Finset.forall_mem_insert]
          exact ⟨hc.notMem_ids h.managed, fun id' hid' hmem' =>
            h.closed id' hid' ((hc.mem_ids h.managed).mp hmem').1⟩ }
    refine ⟨_, hinv, fun hclean => ?_⟩
    have hothers : ∀ id' ∈ t.closed, ¬ (if proto.isWmConnected then proto.notifyWindowClosed id
        else proto).Mentions id' := by
      intro id' hid' hmentions
      refine h.noTrace_iff.mp hclean id' hid' ?_
      split at hmentions
      · exact hmentions.of_notifyWindowClosed
      · exact hmentions
    rw [hinv.noTrace_iff, hclosed, Finset.forall_mem_insert, h.mentions_closed_iff, not_not]
    constructor
    · exact fun hleaves => ⟨hleaves proto id h.protocol hwindow, hothers⟩
    · rintro ⟨hleaves, -⟩ proto' id' hprotocol' hid'
      obtain rfl := Option.some.inj (h.protocol.symm.trans hprotocol')
      obtain rfl := Option.some.inj (hwindow.symm.trans hid')
      exact hleaves

/-- A late request leaves a trace if it is recorded. -/
theorem Inv.windowRequest (ops : SpaceOps P) (h : t.Inv proto) (object : ObjectId)
    (request : WindowRequest) : Exact ops t (.windowRequest object request) := by
  cases hwindow : t.windowOf object with
  | none =>
    have hstep : t.step ops (.windowRequest object request) = t := by simp only [step, hwindow]
    unfold Exact
    rw [hstep]
    refine ⟨proto, h, fun hclean => iff_of_true (fun _ id _ hsome => ?_) hclean⟩
    exact absurd (hwindow.symm.trans hsome) (Option.some_ne_none id).symm
  | some id =>
    have hstep : t.step ops (.windowRequest object request) =
        t.wmStep ops (.windowRequest id request) := by
      simp only [step, hwindow]
    have hinv := h.wmStep ops (.windowRequest id request) t.announcing.created t.announcing.next
    unfold Exact
    rw [hstep]
    refine ⟨_, hinv, fun hclean => ⟨fun hleaves => hinv.noTrace_iff.mpr ?_, fun hnone => ?_⟩⟩
    · refine h.noTrace_wmStep hclean fun id' hid' hintroduces => ?_
      obtain ⟨rfl, hrecords⟩ := hintroduces
      exact hleaves proto id h.protocol hwindow hid' hrecords
    · intro proto' id' hprotocol' hid' hclosed hrecords
      obtain rfl := Option.some.inj (h.protocol.symm.trans hprotocol')
      obtain rfl := Option.some.inj (hwindow.symm.trans hid')
      exact hinv.noTrace_iff.mp hnone id hclosed (mentions_of_records hrecords)

/-- **A step keeps the invariant, and leaves no trace exactly if it should.** -/
theorem noTrace_step_iff (ops : SpaceOps P) (h : t.Inv proto) (event : ClosingEvent) :
    Exact ops t event := by
  cases event with
  | announcing event =>
    cases event with
    | newToplevel couldCreate => exact h.newToplevel ops couldCreate
    | committed surface size =>
      refine ⟨proto, ?_, fun hclean => iff_of_true trivial ?_⟩
      · cases size <;> exact ⟨h.managed, h.protocol, h.attached, h.closed_lt, h.closed⟩
      · cases size <;> exact hclean
    | toplevelDestroyed surface => exact h.toplevelDestroyed ops surface
    | bind couldCreate =>
      refine h.exact_of_wmStep ops rfl trivial fun id hid hintroduces => ?_
      -- only registered windows are announced
      obtain ⟨entry, hentry, rfl⟩ := hintroduces
      have hwindow := WmProtocolState.mem_of_mem_allocate hentry
      rw [List.map_map] at hwindow
      obtain ⟨window, hexisting, heq⟩ := List.mem_map.mp hwindow
      obtain ⟨registered, hregistered, size, -, rfl⟩ := Announcing.mem_existingWindows.mp hexisting
      exact h.closed _ hid (List.mem_map.mpr ⟨registered, hregistered,
        congrArg WindowSnapshot.id heq⟩)
    | managerDestroyed manager => exact h.exact_of_wmStep ops rfl trivial fun _ _ => not_false
    | windowDestroyed object =>
      cases hobject : t.announcing.created.find? fun entry => entry.1 = object with
      | none =>
        have hstep : t.step ops (.announcing (.windowDestroyed object)) = t := by
          simp only [step, Announcing.step, hobject, closedAfter]
        unfold Exact
        rw [hstep]
        exact ⟨proto, h, fun hclean => iff_of_true trivial hclean⟩
      | some entry =>
        have hstep : t.step ops (.announcing (.windowDestroyed object)) =
            t.wmStep ops (.windowDestroyed entry.2) := by
          simp only [step, Announcing.step, hobject, closedAfter, wmStep]
        exact h.exact_of_wmStep ops hstep trivial fun _ _ => not_false
  | windowRequest object request => exact h.windowRequest ops object request
  | managerRequest request => exact h.exact_of_wmStep ops rfl trivial fun _ _ => not_false
  | seatRequest seat request => exact h.exact_of_wmStep ops rfl trivial fun _ _ => not_false
  | workspaceRequest resource request =>
    exact h.exact_of_wmStep ops rfl trivial fun _ _ => not_false
  | tick => exact h.exact_of_wmStep ops rfl trivial fun _ _ => not_false

/-! ### Runs -/

/-- **Closed windows leave no trace** in any state of a run, if and only if each window closes
without workspace, tags, output and pending commands, and without a border where no manager is
connected, and no request for a closed window is recorded. -/
theorem closed_windows_unmentioned_iff (ops : SpaceOps P) (space : P) (output : ℤ × ℤ)
    (events : List ClosingEvent) :
    (∀ pre, pre <+: events → (pre.foldl (step ops) (start space output)).NoTrace) ↔
      Along (step ops) LeavesNothing (start space output) events := by
  have hinv : (start space output).Inv WmProtocolState.new :=
    { managed := DesktopState.managed_start space output _
      protocol := rfl
      attached := fun _ => HashMap.get_empty
      closed_lt := by simp [start]
      closed := by simp [start] }
  refine (along_iff_forall_initial (I := fun t => ∃ proto, t.Inv proto) (G := NoTrace)
    (fun t event h => ?_) (fun t event h hclean => ?_) ⟨_, hinv⟩ ?_).symm
  · obtain ⟨proto, h⟩ := h
    obtain ⟨proto', h', -⟩ := noTrace_step_iff ops h event
    exact ⟨proto', h'⟩
  · obtain ⟨proto, h⟩ := h
    obtain ⟨-, -, hiff⟩ := noTrace_step_iff ops h event
    exact hiff hclean
  · exact hinv.noTrace_iff.mpr (by simp [start])

/-- A window is sent to an output and closed. -/
def closedWithOutput : List ClosingEvent :=
  [.announcing (.bind fun _ => true), .announcing (.newToplevel true),
    .windowRequest ⟨1⟩ (.setOutput "wayray-0"), .announcing (.toplevelDestroyed ⟨0⟩)]

/-- Its output is kept. -/
theorem closed_window_keeps_output :
    ¬ ∀ events : List ClosingEvent,
      (events.foldl (step DesktopState.noSpace) (start () (800, 600))).NoTrace := by
  intro h
  refine h closedWithOutput _ rfl ⟨1⟩ (by decide) (.inr (.inr (.inl (.inr (.inr ?_)))))
  decide

end Closing

end WayRay
