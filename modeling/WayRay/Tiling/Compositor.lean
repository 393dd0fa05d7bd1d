import WayRay.Desktop.Leftovers
import WayRay.Tiling.Client

/-!
# What the compositor sends to window managers

The compositor as the tiling window manager meets it: `Announcing` with the input of the user,
frames, the requests of other window managers (`CompositorEvent`), and the requests of the tiling WM
(`Announcing.handle`).

Whatever happens, the log of the events sent to window managers only grows, and `Sends` says by
what: objects are announced once and with new numbers, outputs with their size, and a manager that
is told that it has been replaced is no longer the current one.
-/

namespace WayRay

open WmProtocolState Tiling

/-- What happens at the compositor without the tiling WM. -/
inductive CompositorEvent where
  | announcing (event : AnnouncingEvent)
  | input (msg : InputMessage)
  /-- A frame is rendered. -/
  | tick
  /-- A request of another window manager. -/
  | request (request : WmEvent)

/-- Whether the event is a request. -/
def WmEvent.isRequest : WmEvent → Bool
  | .managerRequest _ | .windowRequest _ _ | .seatRequest _ _ | .workspaceRequest _ _ => true
  | .bind _ _ _ | .managerDestroyed _ | .windowDestroyed _ | .newWindow _ _ | .windowClosed _
  | .managePhase | .tick => false

namespace Announcing

variable {P : Type} (ops : SpaceOps P)

def wmStep (t : Announcing P) (event : WmEvent) : Announcing P :=
  { t with desktop := t.desktop.wmStep ops event }

def react (t : Announcing P) : CompositorEvent → Announcing P
  | .announcing event => t.step ops event
  | .input msg => { t with desktop := t.desktop.userStep ops (.input msg) }
  | .tick => t.wmStep ops .tick
  | .request request => if request.isRequest then t.wmStep ops request else t

/-- Handle a request of the tiling WM.  Workspaces are listed in the order of a hash map. -/
def handle (t : Announcing P) (keys : Enumeration String) : TilingRequest → Announcing P
  | .window object request =>
    match t.created.find? fun entry => entry.1 = object with
    | some (_, id) => t.wmStep ops (.windowRequest id request)
    | none => t
  | .manageDone => t.wmStep ops (.managerRequest .manageDone)
  | .renderDone => t.wmStep ops (.managerRequest .renderDone)
  | .getWorkspaceManager id => t.wmStep ops (.managerRequest (.getWorkspaceManager id keys))
  | .createWorkspace id name => t.wmStep ops (.workspaceRequest id (.createWorkspace name))
  | .setActiveWorkspace id outputName workspaceName =>
    t.wmStep ops (.workspaceRequest id (.setActiveWorkspace outputName workspaceName))

end Announcing

/-! ### What is sent -/

/-- After a step these events have been sent. -/
structure Sends {P : Type} (t t' : Announcing P) (proto proto' : WmProtocolState)
    (new : List WmServerEvent) : Prop where
  inv : t'.Inv proto'
  sent : proto'.sent = proto.sent ++ new
  next_le : t.next ≤ t'.next
  nodup : (new.filterMap TilingWm.announces).Nodup
  /-- The announced objects are new. -/
  new_range : ∀ object ∈ new.filterMap TilingWm.announces,
    t.next ≤ object.raw ∧ object.raw < t'.next
  output : t'.desktop.output = t.desktop.output
  outputs : ∀ {manager name width height}, .outputNew manager name width height ∈ new →
    (width, height) = t.desktop.output
  replaced : ∀ {manager}, .replaced manager ∈ new → proto'.wmClient ≠ some manager
  /-- Former managers do not come back. -/
  client : ∀ {manager}, manager.raw < t.next → proto'.wmClient = some manager →
    proto.wmClient = some manager
  /-- The objects of closed windows are not new. -/
  closed : ∀ {manager object}, .windowClosed manager object ∈ new → object.raw < t.next

/-- Events that announce and close nothing. -/
def WmServerEvent.Idle : WmServerEvent → Prop
  | .windowNew _ _ | .windowClosed _ _ | .outputNew _ _ _ _ | .replaced _ => False
  | .title _ _ | .appId _ _ | .dimensions _ _ _ | .done _ | .manageStart _ | .renderStart _
  | .workspaceCreated _ _ | .workspaceDestroyed _ _ => True

theorem WmServerEvent.Idle.announces {event : WmServerEvent} (h : event.Idle) :
    TilingWm.announces event = none := by
  cases event <;> first | rfl | exact absurd h id

theorem filterMap_announces_of_idle {new : List WmServerEvent} (h : ∀ event ∈ new, event.Idle) :
    new.filterMap TilingWm.announces = [] :=
  List.filterMap_eq_nil_iff.mpr fun event hevent => (h event hevent).announces

section Sends

variable {P : Type} (ops : SpaceOps P) {t t' : Announcing P} {proto proto' : WmProtocolState}
  {new : List WmServerEvent}

/-- Only idle events are sent, and the manager stays. -/
theorem Sends.of_idle (h : t.Inv proto) (hmanaged : t'.desktop.Managed)
    (hprotocol : t'.desktop.protocol = some proto') (hcreated : t'.created = t.created)
    (hnext : t'.next = t.next) (hids : t'.desktop.nextWindowId = t.desktop.nextWindowId)
    (houtput : t'.desktop.output = t.desktop.output)
    (hclient : proto'.wmClient = proto.wmClient)
    (hobjects : ∀ {id object}, proto'.windowObjects.get id = some object →
      proto.windowObjects.get id = some object)
    (hsent : proto'.sent = proto.sent ++ new) (hidle : ∀ event ∈ new, event.Idle) :
    Sends t t' proto proto' new := by
  have hsame : SameWindowEvents proto proto' := by
    constructor <;> intro manager object <;> rw [hsent, List.mem_append]
    · exact or_iff_left (hidle _)
    · exact or_iff_left (hidle _)
  refine ⟨⟨hmanaged, hprotocol, ?_, ?_⟩, hsent, hnext.ge, ?_, ?_, houtput, ?_, ?_, ?_, ?_⟩
  · rw [hcreated, hnext]
    exact h.ledger.of_same hsame hclient hobjects
  · rw [hcreated, hids]
    exact h.ids_lt
  · rw [filterMap_announces_of_idle hidle]
    exact List.nodup_nil
  · rw [filterMap_announces_of_idle hidle]
    exact fun object hmem => absurd hmem List.not_mem_nil
  · exact fun hmem => absurd (hidle _ hmem) id
  · exact fun hmem => absurd (hidle _ hmem) id
  · exact fun _ hmanager => hclient.symm.trans hmanager
  · exact fun hmem => absurd (hidle _ hmem) id

/-- Events that list workspaces. -/
def WmServerEvent.Listing : WmServerEvent → Prop
  | .workspaceCreated _ _ | .workspaceDestroyed _ _ => True
  | _ => False

theorem WmServerEvent.Listing.idle {event : WmServerEvent} (h : event.Listing) : event.Idle := by
  cases event <;> trivial

/-- Nothing is sent. -/
theorem Sends.refl (h : t.Inv proto) : Sends t t proto proto [] :=
  .of_idle h h.managed h.protocol rfl rfl rfl rfl rfl id (List.append_nil _).symm
    fun _ hmem => absurd hmem List.not_mem_nil

/-- The manager's side of a WM event. -/
theorem Announcing.protocol_wmStep (h : t.Inv proto) (event : WmEvent) :
    (t.wmStep ops event).desktop.protocol = some (proto.step event) :=
  (DesktopState.protocol_wmStep ops t.desktop event).trans
    (congrArg (Option.map fun proto => proto.step event) h.protocol)

theorem Announcing.output_wmStep (t : Announcing P) (event : WmEvent) :
    (t.wmStep ops event).desktop.output = t.desktop.output := by
  unfold Announcing.wmStep DesktopState.wmStep
  cases event with
  | windowRequest id request =>
    simp only [DesktopState.windowAction]
    cases t.desktop.windowForId id with
    | none => rfl
    | some window => cases request <;> rfl
  | _ => rfl

/-- A WM event that sends idle events only, and keeps the manager. -/
theorem Sends.wmStep (h : t.Inv proto) (event : WmEvent)
    (hclient : (proto.step event).wmClient = proto.wmClient)
    (hobjects : ∀ {id object}, (proto.step event).windowObjects.get id = some object →
      proto.windowObjects.get id = some object)
    (hsent : (proto.step event).sent = proto.sent ++ new) (hidle : ∀ event ∈ new, event.Idle) :
    Sends t (t.wmStep ops event) proto (proto.step event) new := by
  exact .of_idle h (h.managed.wmStep ops event) (Announcing.protocol_wmStep ops h event) rfl rfl
    (t.desktop.sameWm_wmStep ops event).nextWindowId (Announcing.output_wmStep ops t event) hclient
    hobjects hsent hidle

theorem Sends.tick (h : t.Inv proto) :
    Sends t (t.wmStep ops .tick) proto (proto.step .tick)
        (proto.wmClient.toList.map WmServerEvent.renderStart) ∧
      (proto.step .tick).wmClient = proto.wmClient := by
  have hproto : (proto.step .tick).wmClient = proto.wmClient ∧
      (proto.step .tick).windowObjects = proto.windowObjects ∧
      (proto.step .tick).sent =
        proto.sent ++ proto.wmClient.toList.map WmServerEvent.renderStart := by
    cases hclient : proto.wmClient with
    | none =>
      have hstep : proto.step .tick = proto := by
        simp [WmProtocolState.step, renderPhase, isWmConnected, hclient]
      rw [hstep]
      exact ⟨hclient, rfl, (List.append_nil _).symm⟩
    | some manager =>
      have hstep : proto.step .tick = WmProtocolState.send
          { proto with pendingRenderCommands := [], renderPhaseActive := true }
          [.renderStart manager] := by
        simp [WmProtocolState.step, renderPhase, isWmConnected, startRenderPhase,
          takeRenderCommands, send, hclient]
      rw [hstep]
      exact ⟨hclient, rfl, rfl⟩
  obtain ⟨hclient, hobjects, hsent⟩ := hproto
  refine ⟨.wmStep ops h .tick hclient (fun hget => hobjects ▸ hget) hsent
    fun event hevent => ?_, hclient⟩
  obtain ⟨manager, -, rfl⟩ := List.mem_map.mp hevent
  trivial

/-- A request is answered by listing workspaces at most. -/
theorem Sends.request (h : t.Inv proto) {request : WmEvent} (hrequest : request.isRequest = true) :
    ∃ new, Sends t (t.wmStep ops request) proto (proto.step request) new ∧
      (proto.step request).wmClient = proto.wmClient ∧ ∀ event ∈ new, event.Listing := by
  have hproto : ∃ new, (proto.step request).sent = proto.sent ++ new ∧
      (∀ event ∈ new, event.Listing) ∧ (proto.step request).wmClient = proto.wmClient ∧
      (proto.step request).windowObjects = proto.windowObjects := by
    have hnone : ∀ event ∈ ([] : List WmServerEvent), event.Listing :=
      fun event hmem => absurd hmem List.not_mem_nil
    have hnil : proto.sent = proto.sent ++ [] := (List.append_nil _).symm
    cases request with
    | managerRequest request =>
      cases request with
      | getWorkspaceManager id keys =>
        refine ⟨_, rfl, fun event hevent => ?_, rfl, rfl⟩
        obtain ⟨name, -, rfl⟩ := List.mem_map.mp hevent
        trivial
      | _ => exact ⟨[], hnil, hnone, rfl, rfl⟩
    | windowRequest id request =>
      refine ⟨[], ?_⟩
      simp only [WmProtocolState.step, windowRequest, List.append_nil]
      cases proto.renderRequest request with
      | some render => exact ⟨rfl, hnone, rfl, rfl⟩
      | none =>
        cases request with
        | setBorders red green blue alpha width =>
          dsimp only
          cases BorderSpec.fromProtocol red green blue alpha width <;>
            exact ⟨rfl, hnone, rfl, rfl⟩
        | _ => exact ⟨rfl, hnone, rfl, rfl⟩
    | seatRequest seat request =>
      cases request <;> exact ⟨[], hnil, hnone, rfl, rfl⟩
    | workspaceRequest id request =>
      cases request with
      | createWorkspace name | destroyWorkspace name =>
        refine ⟨_, rfl, fun event hevent => ?_, rfl, rfl⟩
        rw [List.mem_singleton.mp hevent]
        trivial
      | assignWindow window workspaceName | setWindowTags window tags =>
        refine ⟨[], ?_⟩
        simp only [WmProtocolState.step, workspaceRequest, List.append_nil]
        cases proto.windowIdForResource window <;> exact ⟨rfl, hnone, rfl, rfl⟩
      | _ => exact ⟨[], hnil, hnone, rfl, rfl⟩
    | _ => exact absurd hrequest Bool.false_ne_true
  obtain ⟨new, hsent, hlisting, hclient, hobjects⟩ := hproto
  exact ⟨new, .wmStep ops h request hclient (fun hget => hobjects ▸ hget) hsent
    fun event hevent => (hlisting event hevent).idle, hclient, hlisting⟩

/-- So do the requests of the tiling WM. -/
theorem Sends.handle (h : t.Inv proto) (keys : Enumeration String) (request : TilingRequest) :
    ∃ proto' new, Sends t (t.handle ops keys request) proto proto' new ∧
      proto'.wmClient = proto.wmClient ∧ ∀ event ∈ new, event.Listing := by
  cases request with
  | window object request =>
    simp only [Announcing.handle]
    cases t.created.find? fun entry => entry.1 = object with
    | none => exact ⟨proto, [], .refl h, rfl, fun _ hmem => absurd hmem List.not_mem_nil⟩
    | some entry => exact ⟨_, Sends.request ops h rfl⟩
  | manageDone | renderDone | getWorkspaceManager _ | createWorkspace _ _
  | setActiveWorkspace _ _ _ => exact ⟨_, Sends.request ops h rfl⟩

/-! ### Announcements -/

/-- The properties of a new window. -/
def description (window : WindowSnapshot) (object : ObjectId) : List WmServerEvent :=
  window.title.toList.map (.title object) ++ window.appId.toList.map (.appId object) ++
    [.dimensions object window.width window.height, .done object]

/-- What a manager is sent about a new window. -/
def announcement (manager : ObjectId) (window : WindowSnapshot) :
    Option ObjectId → List WmServerEvent
  | none => []
  | some object => .windowNew manager object :: description window object

theorem idle_description {window : WindowSnapshot} {object : ObjectId} {event : WmServerEvent}
    (h : event ∈ description window object) : event.Idle := by
  simp only [description, List.mem_append, List.mem_map, List.mem_cons, List.not_mem_nil,
    or_false] at h
  rcases h with (⟨_, -, rfl⟩ | ⟨_, -, rfl⟩) | rfl | rfl <;> trivial

theorem sent_announce (s : WmProtocolState) (manager : ObjectId) (window : WindowSnapshot)
    (object : Option ObjectId) :
    (s.announce manager window object).sent = s.sent ++ announcement manager window object := by
  cases object with
  | none => exact (List.append_nil _).symm
  | some object => rfl

theorem announces_announcement (manager : ObjectId) (window : WindowSnapshot)
    (object : Option ObjectId) :
    (announcement manager window object).filterMap TilingWm.announces = object.toList := by
  cases object with
  | none => rfl
  | some object =>
    exact congrArg (object :: ·) (filterMap_announces_of_idle fun _ => idle_description)

/-- An announcement is about a window only. -/
theorem mem_announcement {manager : ObjectId} {window : WindowSnapshot} {object : Option ObjectId}
    {event : WmServerEvent} (h : event ∈ announcement manager window object) :
    event.Idle ∨ ∃ object, event = .windowNew manager object := by
  cases object with
  | none => exact absurd h List.not_mem_nil
  | some object =>
    rcases List.mem_cons.mp h with rfl | hdescription
    · exact .inr ⟨object, rfl⟩
    · exact .inl (idle_description hdescription)

theorem sent_announceAll (s : WmProtocolState) (manager : ObjectId)
    (windows : List (WindowSnapshot × Option ObjectId)) :
    (s.announceAll manager windows).sent =
        s.sent ++ windows.flatMap (fun entry => announcement manager entry.1 entry.2) ∧
      (s.announceAll manager windows).wmClient = s.wmClient := by
  induction windows generalizing s with
  | nil => exact ⟨(List.append_nil _).symm, rfl⟩
  | cons entry windows ih =>
    obtain ⟨hsent, hclient⟩ := ih (s.announce manager entry.1 entry.2)
    refine ⟨?_, hclient.trans (wmClient_announce ..)⟩
    rw [List.flatMap_cons, ← List.append_assoc, ← sent_announce]
    exact hsent

theorem announces_announcements (manager : ObjectId)
    (windows : List (WindowSnapshot × Option ObjectId)) :
    (windows.flatMap fun entry => announcement manager entry.1 entry.2).filterMap
      TilingWm.announces = windows.filterMap Prod.snd := by
  induction windows with
  | nil => rfl
  | cons entry windows ih =>
    rw [List.flatMap_cons, List.filterMap_append, announces_announcement, ih]
    cases hobject : entry.2 with
    | none => rw [List.filterMap_cons_none hobject]; rfl
    | some object => rw [List.filterMap_cons_some hobject]; rfl

/-- Objects are created with increasing numbers. -/
theorem objects_allocate (next : ℕ) (windows : List (WindowSnapshot × Bool)) :
    ((allocate next windows).filterMap Prod.snd).Nodup ∧
      ∀ object ∈ (allocate next windows).filterMap Prod.snd,
        next ≤ object.raw ∧ object.raw < next + windows.length := by
  induction windows generalizing next with
  | nil => exact ⟨List.nodup_nil, fun object hmem => absurd hmem List.not_mem_nil⟩
  | cons entry windows ih =>
    obtain ⟨window, couldCreate⟩ := entry
    obtain ⟨hnodup, hrange⟩ := ih (next + 1)
    rw [List.length_cons]
    cases couldCreate with
    | false =>
      refine ⟨hnodup, fun object hmem => ?_⟩
      have hobject := hrange object hmem
      omega
    | true =>
      refine ⟨List.nodup_cons.mpr ⟨fun hmem => ?_, hnodup⟩, fun object hmem => ?_⟩
      · exact absurd (hrange _ hmem).1 (Nat.not_succ_le_self next)
      · rcases List.mem_cons.mp hmem with rfl | hmem
        · exact ⟨le_rfl, Nat.lt_add_of_pos_right (Nat.succ_pos _)⟩
        · have hobject := hrange object hmem
          omega

/-! ### Windows and managers that come and go -/

/-- A window manager may be told of a new toplevel. -/
theorem Sends.newToplevel (h : t.Inv proto) (couldCreate : Bool) :
    ∃ proto' new, Sends t (t.step ops (.newToplevel couldCreate)) proto proto' new ∧
      ∀ manager, proto.wmClient = some manager → proto'.wmClient = some manager ∧
        (couldCreate = true → ∃ window,
          new = .windowNew manager ⟨t.next⟩ :: description window ⟨t.next⟩ ++
            [.manageStart manager]) := by
  obtain ⟨proto', hinv, -⟩ := h.newToplevel ops couldCreate
  obtain ⟨object, hobject⟩ : ∃ object : Option ObjectId,
    object = if couldCreate && t.desktop.wmConnected then some ⟨t.next⟩ else none := ⟨_, rfl⟩
  obtain ⟨window, -, hprotocol⟩ := Announcing.protocol_newToplevel ops h.protocol object
  have hdesktop : (t.step ops (.newToplevel couldCreate)).desktop =
      t.desktop.newToplevel ops object := by
    rw [hobject]
    rfl
  have hproto :=
    hinv.protocol.symm.trans ((congrArg DesktopState.protocol hdesktop).trans hprotocol)
  rw [h.wmConnected] at hobject
  cases hclient : proto.wmClient with
  | none =>
    rw [Announcing.isWmConnected_of_none hclient] at hproto
    obtain rfl := Option.some.inj hproto
    refine ⟨proto', [], ?_, fun manager hmanager => absurd hmanager nofun⟩
    exact ⟨hinv, (List.append_nil _).symm, Nat.le_succ _, List.nodup_nil,
      fun _ hmem => absurd hmem List.not_mem_nil, rfl, fun hmem => absurd hmem List.not_mem_nil,
      fun hmem => absurd hmem List.not_mem_nil, fun _ hmanager => hmanager,
      fun hmem => absurd hmem List.not_mem_nil⟩
  | some manager =>
    have hconnected := Announcing.isWmConnected_of_some hclient
    rw [hconnected, if_pos rfl, Announcing.notifyNewWindow_startManagePhase hclient] at hproto
    obtain rfl := Option.some.inj hproto
    have hannounces : (announcement manager window object ++
        [WmServerEvent.manageStart manager]).filterMap TilingWm.announces = object.toList := by
      rw [List.filterMap_append, announces_announcement]
      exact List.append_nil _
    have hevents : ∀ event ∈ announcement manager window object ++ [.manageStart manager],
        event.Idle ∨ ∃ object, event = .windowNew manager object := by
      intro event hevent
      rcases List.mem_append.mp hevent with hevent | hevent
      · exact mem_announcement hevent
      · rw [List.mem_singleton.mp hevent]
        exact .inl trivial
    have hnumber : ∀ object' ∈ object.toList, object' = (⟨t.next⟩ : ObjectId) := by
      intro object' hmem
      rw [hobject, Option.mem_toList] at hmem
      split_ifs at hmem
      exact (Option.some.inj hmem).symm
    refine ⟨_, announcement manager window object ++ [.manageStart manager],
      ⟨hinv, ?_, Nat.le_succ _, ?_, ?_, rfl, ?_, ?_, ?_, ?_⟩, ?_⟩
    · rw [← List.append_assoc, ← sent_announce]
      rfl
    · rw [hannounces]
      cases object with
      | none => exact List.nodup_nil
      | some object => exact List.nodup_singleton object
    · rw [hannounces]
      intro object' hmem
      rw [hnumber object' hmem]
      exact ⟨le_rfl, Nat.lt_succ_self _⟩
    · intro manager' name width height hmem
      rcases hevents _ hmem with hidle | ⟨_, heq⟩
      · exact absurd hidle id
      · exact absurd heq nofun
    · intro manager' hmem
      rcases hevents _ hmem with hidle | ⟨_, heq⟩
      · exact absurd hidle id
      · exact absurd heq nofun
    · intro manager' _ hmanager'
      have hstays : (proto.announce manager window object).wmClient = some manager' := hmanager'
      rw [wmClient_announce] at hstays
      exact hstays
    · intro manager' object' hmem
      rcases hevents _ hmem with hidle | ⟨_, heq⟩
      · exact absurd hidle id
      · exact absurd heq nofun
    · intro manager' hmanager'
      obtain rfl := Option.some.inj (hmanager'.symm.trans rfl)
      refine ⟨(wmClient_announce proto _ window object).trans hclient,
        fun hcouldCreate => ⟨window, ?_⟩⟩
      rw [hobject, hcouldCreate, hconnected]
      rfl

/-- The closing of a window may be reported. -/
theorem Sends.toplevelDestroyed (h : t.Inv proto) (surface : Surface) :
    ∃ proto' new, Sends t (t.step ops (.toplevelDestroyed surface)) proto proto' new := by
  obtain ⟨proto', hinv, -⟩ := h.toplevelDestroyed ops surface
  have houtput : (t.desktop.toplevelDestroyed ops surface).output = t.desktop.output := by
    unfold DesktopState.toplevelDestroyed
    cases t.desktop.windowIds.find? fun entry => entry.2 = surface <;> rfl
  have hproto : ∃ new, proto'.sent = proto.sent ++ new ∧ proto'.wmClient = proto.wmClient ∧
      ∀ event ∈ new, ∃ manager object, event = .windowClosed manager object ∧
        object.raw < t.next := by
    have hnone : ∃ new, proto.sent = proto.sent ++ new ∧ proto.wmClient = proto.wmClient ∧
        ∀ event ∈ new, ∃ manager object, event = .windowClosed manager object ∧
          object.raw < t.next :=
      ⟨[], (List.append_nil _).symm, rfl, fun _ hmem => absurd hmem List.not_mem_nil⟩
    rcases t.desktop.toplevelDestroyed_cases ops surface with
      ⟨-, hd⟩ | ⟨id, before, after, hc⟩
    · have hprotocol := hinv.protocol
      change (t.desktop.toplevelDestroyed ops surface).protocol = some proto' at hprotocol
      rw [hd] at hprotocol
      obtain rfl := Option.some.inj (h.protocol.symm.trans hprotocol)
      exact hnone
    · have hmem : (id, surface) ∈ t.desktop.windowIds := by
        rw [hc.split]
        exact List.mem_append_right _ List.mem_cons_self
      have hprotocol := Announcing.protocol_toplevelDestroyed ops h.managed hmem
      rw [h.protocol, Option.map_some] at hprotocol
      obtain rfl := Option.some.inj (hinv.protocol.symm.trans hprotocol)
      split_ifs
      · unfold notifyWindowClosed
        dsimp only
        split
        · next manager object _ hget =>
          obtain ⟨-, -, -, hcreated⟩ := h.ledger.kept hget
          refine ⟨[.windowClosed manager object], rfl, rfl, fun event hevent => ?_⟩
          exact ⟨manager, object, List.mem_singleton.mp hevent, h.ledger.created_lt _ hcreated⟩
        · exact hnone
      · exact hnone
  obtain ⟨new, hsent, hclient, hnew⟩ := hproto
  have hannounces : new.filterMap TilingWm.announces = [] := by
    refine List.filterMap_eq_nil_iff.mpr fun event hevent => ?_
    obtain ⟨manager, object, rfl, -⟩ := hnew event hevent
    rfl
  refine ⟨proto', new, hinv, hsent, le_rfl, ?_, ?_, houtput, fun hmem => ?_, fun hmem => ?_,
    fun _ hmanager => hclient.symm.trans hmanager, fun hmem => ?_⟩
  · rw [hannounces]
    exact List.nodup_nil
  · rw [hannounces]
    exact fun object hmem => absurd hmem List.not_mem_nil
  · obtain ⟨_, _, heq, -⟩ := hnew _ hmem
    exact absurd heq nofun
  · obtain ⟨_, _, heq, -⟩ := hnew _ hmem
    exact absurd heq nofun
  · obtain ⟨_, object, heq, hlt⟩ := hnew _ hmem
    obtain ⟨-, rfl⟩ := WmServerEvent.windowClosed.inj heq
    exact hlt

/-- A manager that binds is told of the output and of the windows, and the former one that it has
been replaced. -/
theorem Sends.bind (h : t.Inv proto) (couldCreate : WindowId → Bool) :
    ∃ proto' new, Sends t (t.step ops (.bind couldCreate)) proto proto' new ∧
      proto'.wmClient = some ⟨t.next⟩ ∧
      (∃ name, .outputNew ⟨t.next⟩ name t.desktop.output.1 t.desktop.output.2 ∈ new) ∧
      ∀ manager object, .windowClosed manager object ∉ new := by
  obtain ⟨proto', hinv, -⟩ := h.bind ops couldCreate
  obtain ⟨windows, hwindows⟩ : ∃ windows, windows = t.windowsOnBind couldCreate := ⟨_, rfl⟩
  have hprotocol : (t.step ops (.bind couldCreate)).desktop.protocol =
      some (proto.bind ⟨t.next⟩ t.outputs windows) := by
    rw [hwindows]
    exact congrArg (Option.map _) h.protocol
  obtain rfl := Option.some.inj (hinv.protocol.symm.trans hprotocol)
  obtain ⟨hsent, hclient⟩ := sent_announceAll (proto.bound ⟨t.next⟩ t.outputs) ⟨t.next⟩ windows
  rw [← bind_eq_announceAll] at hsent hclient
  have hbound : (proto.bound ⟨t.next⟩ t.outputs).sent =
      proto.sent ++ (proto.wmClient.toList.map WmServerEvent.replaced ++
        [.outputNew ⟨t.next⟩ defaultOutput t.desktop.output.1 t.desktop.output.2]) := by
    unfold bound
    cases proto.wmClient with
    | none => rfl
    | some old => exact List.append_assoc _ _ _
  rw [hbound, List.append_assoc, List.append_assoc] at hsent
  have hclient' : (proto.bind ⟨t.next⟩ t.outputs windows).wmClient = some ⟨t.next⟩ := hclient
  obtain ⟨hnodup, hrange⟩ := objects_allocate (t.next + 1)
    (t.existingWindows.map fun window => (window, couldCreate window.id))
  have hannounces : (proto.wmClient.toList.map WmServerEvent.replaced ++
      ([WmServerEvent.outputNew ⟨t.next⟩ defaultOutput t.desktop.output.1 t.desktop.output.2] ++
        windows.flatMap fun entry => announcement ⟨t.next⟩ entry.1 entry.2)).filterMap
      TilingWm.announces = windows.filterMap Prod.snd := by
    have hreplaced : (proto.wmClient.toList.map WmServerEvent.replaced).filterMap
        TilingWm.announces = [] := by
      refine List.filterMap_eq_nil_iff.mpr fun event hevent => ?_
      obtain ⟨manager, -, rfl⟩ := List.mem_map.mp hevent
      rfl
    rw [List.filterMap_append, List.filterMap_append, hreplaced, announces_announcements]
    rfl
  have hevents : ∀ event ∈ proto.wmClient.toList.map WmServerEvent.replaced ++
      ([.outputNew ⟨t.next⟩ defaultOutput t.desktop.output.1 t.desktop.output.2] ++
        windows.flatMap fun entry => announcement ⟨t.next⟩ entry.1 entry.2),
      event.Idle ∨ (∃ object, event = .windowNew ⟨t.next⟩ object) ∨
        (∃ old, proto.wmClient = some old ∧ event = .replaced old) ∨
        event = .outputNew ⟨t.next⟩ defaultOutput t.desktop.output.1 t.desktop.output.2 := by
    intro event hevent
    rcases List.mem_append.mp hevent with hevent | hevent
    · obtain ⟨old, hold, rfl⟩ := List.mem_map.mp hevent
      exact .inr (.inr (.inl ⟨old, Option.mem_toList.mp hold, rfl⟩))
    · rcases List.mem_append.mp hevent with hevent | hevent
      · exact .inr (.inr (.inr (List.mem_singleton.mp hevent)))
      · obtain ⟨entry, -, hevent⟩ := List.mem_flatMap.mp hevent
        rcases mem_announcement hevent with hidle | hnew
        · exact .inl hidle
        · exact .inr (.inl hnew)
  have hclosed : ∀ manager object, .windowClosed manager object ∉
      proto.wmClient.toList.map WmServerEvent.replaced ++
        ([.outputNew ⟨t.next⟩ defaultOutput t.desktop.output.1 t.desktop.output.2] ++
          windows.flatMap fun entry => announcement ⟨t.next⟩ entry.1 entry.2) := by
    intro manager object hmem
    rcases hevents _ hmem with hidle | ⟨_, heq⟩ | ⟨_, -, heq⟩ | heq
    · exact absurd hidle id
    · exact absurd heq nofun
    · exact absurd heq nofun
    · exact absurd heq nofun
  refine ⟨_, _, ⟨hinv, hsent, ?_, ?_, ?_, rfl, ?_, ?_, ?_, fun hmem => absurd hmem (hclosed _ _)⟩,
    hclient', ⟨defaultOutput, ?_⟩, hclosed⟩
  · change t.next ≤ t.next + 1 + t.existingWindows.length
    omega
  · rw [hannounces, hwindows]
    exact hnodup
  · rw [hannounces, hwindows]
    intro object hmem
    obtain ⟨hle, hlt⟩ := hrange object hmem
    rw [List.length_map] at hlt
    exact ⟨(Nat.le_succ _).trans hle, hlt⟩
  · intro manager name width height hmem
    rcases hevents _ hmem with hidle | ⟨_, heq⟩ | ⟨_, -, heq⟩ | heq
    · exact absurd hidle id
    · exact absurd heq nofun
    · exact absurd heq nofun
    · obtain ⟨-, -, rfl, rfl⟩ := WmServerEvent.outputNew.inj heq
      rfl
  · intro manager hmem hmanager
    rw [hclient'] at hmanager
    rcases hevents _ hmem with hidle | ⟨_, heq⟩ | ⟨old, hold, heq⟩ | heq
    · exact absurd hidle id
    · exact absurd heq nofun
    · obtain rfl := WmServerEvent.replaced.inj heq
      obtain rfl := Option.some.inj hmanager
      exact Nat.lt_irrefl _ (h.ledger.client_lt hold)
    · exact absurd heq nofun
  · intro manager hlt hmanager
    obtain rfl := Option.some.inj (hclient'.symm.trans hmanager)
    exact absurd hlt (Nat.lt_irrefl _)
  · exact List.mem_append_right _ (List.mem_append_left _ List.mem_cons_self)

theorem Sends.managerDestroyed (h : t.Inv proto) (manager : ObjectId) :
    ∃ proto', Sends t (t.step ops (.managerDestroyed manager)) proto proto' [] := by
  obtain ⟨proto', hinv, -⟩ := h.managerDestroyed ops manager
  have hprotocol := Announcing.protocol_wmStep ops h (.managerDestroyed manager)
  obtain rfl := Option.some.inj (hinv.protocol.symm.trans hprotocol)
  have hproto : (proto.step (.managerDestroyed manager)).sent = proto.sent ∧
      ∀ {manager'}, (proto.step (.managerDestroyed manager)).wmClient = some manager' →
        proto.wmClient = some manager' := by
    simp only [WmProtocolState.step, WmProtocolState.managerDestroyed]
    split_ifs
    · exact ⟨rfl, False.elim⟩
    · exact ⟨rfl, id⟩
  exact ⟨_, hinv, by rw [hproto.1, List.append_nil], le_rfl, List.nodup_nil,
    fun _ hmem => absurd hmem List.not_mem_nil, rfl, fun hmem => absurd hmem List.not_mem_nil,
    fun hmem => absurd hmem List.not_mem_nil, fun _ hmanager => hproto.2 hmanager,
    fun hmem => absurd hmem List.not_mem_nil⟩

theorem Sends.windowDestroyed (h : t.Inv proto) (object : ObjectId) :
    ∃ proto', Sends t (t.step ops (.windowDestroyed object)) proto proto' [] := by
  simp only [Announcing.step]
  cases t.created.find? fun entry => entry.1 = object with
  | none => exact ⟨proto, .refl h⟩
  | some entry =>
    refine ⟨_, Sends.wmStep ops h (.windowDestroyed entry.2) rfl (fun {id object} hget => ?_)
      (List.append_nil _).symm fun _ hmem => absurd hmem List.not_mem_nil⟩
    have hremoved : (proto.windowObjects.remove entry.2).get id = some object := hget
    rw [HashMap.get_remove] at hremoved
    split_ifs at hremoved
    exact hremoved

/-- Input concerns neither the protocol server nor the output. -/
theorem sameServer_injectNetworkInput (d : DesktopState P) (msg : InputMessage) :
    (d.injectNetworkInput ops msg).protocol = d.protocol ∧
      (d.injectNetworkInput ops msg).output = d.output := by
  cases msg with
  | pointerMotion ev | pointerAxis ev => exact ⟨rfl, rfl⟩
  | pointerButton ev =>
    simp only [DesktopState.injectNetworkInput, DesktopState.injectButton]
    cases ev.state with
    | released => exact ⟨rfl, rfl⟩
    | pressed =>
      dsimp only
      cases (d.clickToFocus ops).1 <;> exact ⟨rfl, rfl⟩
  | keyboard ev =>
    simp only [DesktopState.injectNetworkInput]
    rcases d.injectKeyboard_cases ops ev with ⟨-, _, hev⟩ | ⟨-, -, hev⟩ | ⟨-, hev⟩
    · rw [hev]
      exact ⟨rfl, rfl⟩
    · rw [hev]
      unfold DesktopState.performShortcut
      split
      · exact ⟨rfl, rfl⟩
      · split_ifs <;> exact ⟨rfl, rfl⟩
    · rw [hev]
      exact ⟨rfl, rfl⟩

theorem Sends.input (h : t.Inv proto) (msg : InputMessage) :
    Sends t (t.react ops (.input msg)) proto proto [] := by
  obtain ⟨hprotocol, houtput⟩ := sameServer_injectNetworkInput ops t.desktop msg
  exact .of_idle h (h.managed.userStep ops (.input msg)) (hprotocol.trans h.protocol) rfl rfl
    (t.desktop.sameWindows_injectNetworkInput ops h.managed msg).nextWindowId houtput rfl id
    (List.append_nil _).symm fun _ hmem => absurd hmem List.not_mem_nil

theorem Sends.committed (h : t.Inv proto) (surface : Surface) (size : Option (ℤ × ℤ)) :
    Sends t (t.step ops (.committed surface size)) proto proto [] := by
  cases size <;> exact .of_idle h h.managed h.protocol rfl rfl rfl rfl rfl id
    (List.append_nil _).symm fun _ hmem => absurd hmem List.not_mem_nil

/-- **Whatever happens, this much is known about what is sent.** -/
theorem Sends.react (h : t.Inv proto) (event : CompositorEvent) :
    ∃ proto' new, Sends t (t.react ops event) proto proto' new := by
  cases event with
  | announcing event =>
    cases event with
    | newToplevel couldCreate =>
      obtain ⟨proto', new, hsends, -⟩ := Sends.newToplevel ops h couldCreate
      exact ⟨proto', new, hsends⟩
    | committed surface size => exact ⟨proto, [], .committed ops h surface size⟩
    | toplevelDestroyed surface => exact Sends.toplevelDestroyed ops h surface
    | bind couldCreate =>
      obtain ⟨proto', new, hsends, -⟩ := Sends.bind ops h couldCreate
      exact ⟨proto', new, hsends⟩
    | managerDestroyed manager =>
      obtain ⟨proto', hsends⟩ := Sends.managerDestroyed ops h manager
      exact ⟨proto', [], hsends⟩
    | windowDestroyed object =>
      obtain ⟨proto', hsends⟩ := Sends.windowDestroyed ops h object
      exact ⟨proto', [], hsends⟩
  | input msg => exact ⟨proto, [], .input ops h msg⟩
  | tick => exact ⟨_, _, (Sends.tick ops h).1⟩
  | request request =>
    simp only [Announcing.react]
    split_ifs with hrequest
    · obtain ⟨new, hsends, -⟩ := Sends.request ops h hrequest
      exact ⟨_, new, hsends⟩
    · exact ⟨proto, [], .refl h⟩

end Sends

end WayRay
