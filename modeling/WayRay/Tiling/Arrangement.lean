import WayRay.Tiling.Link

/-!
# What the windows are asked for

`Outcome` is what a window manager gets done at once: the size that each window has been asked for
last, and the keyboard focus.  `TilingSystem.settled` is the outcome once all events and requests on
their way have been dealt with; as long as nobody else interferes (`Quiet`), it stays the same
(`settled_step`).  So it suffices to compute it when a window has just been created.
-/

namespace WayRay

open WmProtocolState Tiling

/-! ### Outcomes -/

/-- Note the size if the toplevel is asked for one. -/
def noteSize (surface : Surface) (last : Option (ℤ × ℤ)) : ToplevelRequest → Option (ℤ × ℤ)
  | .size surface' size => if surface' = surface then some size else last
  | _ => last

/-- The size that a toplevel has been asked for last. -/
def lastSize (surface : Surface) (requests : List ToplevelRequest) : Option (ℤ × ℤ) :=
  requests.foldl (noteSize surface) none

/-- What windows have been asked for, and the focus. -/
@[ext]
structure Outcome where
  size : Surface → Option (ℤ × ℤ)
  focus : Option Surface

/-- The effect of a request of the tiling WM, if its object stands for a window. -/
def Outcome.apply (target : ObjectId → Option Surface) (o : Outcome) : TilingRequest → Outcome
  | .window object (.proposeDimensions width height) =>
    match target object with
    | some window => { o with size := Function.update o.size window (some (width, height)) }
    | none => o
  | .window object .setFocus =>
    match target object with
    | some window => { o with focus := some window }
    | none => o
  | _ => o

namespace Announcing

variable {P : Type}

def outcome (t : Announcing P) : Outcome where
  size := fun surface => lastSize surface t.desktop.requests
  focus := t.desktop.seat.focus

/-- The window that an object stands for. -/
def target (t : Announcing P) (object : ObjectId) : Option Surface :=
  ((t.created.find? fun entry => entry.1 = object).map Prod.snd).bind t.desktop.windowForId

end Announcing

section Handle

variable {P : Type} (ops : SpaceOps P) {t : Announcing P}

theorem lastSize_append_size (surface window : Surface) (requests : List ToplevelRequest)
    (size : ℤ × ℤ) : lastSize surface (requests ++ [.size window size]) =
      if window = surface then some size else lastSize surface requests :=
  List.foldl_append

/-- Other requests do not change the size. -/
theorem lastSize_append {requests : List ToplevelRequest} {request : ToplevelRequest}
    (hrequest : ∀ window size, request ≠ .size window size) (surface : Surface) :
    lastSize surface (requests ++ [request]) = lastSize surface requests := by
  refine List.foldl_append.trans ?_
  cases request with
  | size window size => exact absurd rfl (hrequest window size)
  | _ => rfl

theorem target_congr {t t' : Announcing P} (hcreated : t'.created = t.created)
    (hwindows : t'.desktop.windowIds = t.desktop.windowIds) : t'.target = t.target := by
  have hwindow : t'.desktop.windowForId = t.desktop.windowForId := by
    unfold DesktopState.windowForId
    rw [hwindows]
  unfold Announcing.target
  rw [hcreated, hwindow]

/-- What a window request gets done. -/
theorem outcome_windowRequest (t : Announcing P) {object : ObjectId} {id : WindowId}
    (hfind : (t.created.find? fun entry => entry.1 = object) = some (object, id))
    (request : WindowRequest) :
    (t.wmStep ops (.windowRequest id request)).outcome =
        t.outcome.apply t.target (.window object request) ∧
      (t.wmStep ops (.windowRequest id request)).target = t.target := by
  have htarget : t.target object = t.desktop.windowForId id := by
    unfold Announcing.target
    rw [hfind]
    rfl
  have hsame := t.desktop.sameWm_windowAction ops id request
  refine ⟨?_, ?_⟩
  · simp only [Announcing.wmStep, DesktopState.wmStep, DesktopState.windowAction]
    cases hwindow : t.desktop.windowForId id with
    | none =>
      rw [hwindow] at htarget
      cases request <;> simp only [Outcome.apply, htarget] <;> rfl
    | some window =>
      rw [hwindow] at htarget
      cases request with
      | proposeDimensions width height =>
        simp only [Outcome.apply, htarget]
        refine Outcome.ext (funext fun surface => ?_) rfl
        have hupdate := Function.update_apply t.outcome.size window (some (width, height)) surface
        refine (lastSize_append_size surface window _ _).trans (Eq.trans ?_ hupdate.symm)
        exact if_congr eq_comm rfl rfl
      | setFocus =>
        simp only [Outcome.apply, htarget]
        rfl
      | useSsd | useCsd | grantFullscreen | denyFullscreen | close =>
        exact Outcome.ext (funext fun surface =>
          lastSize_append (fun _ _ => by simp) surface) rfl
      | _ => rfl
  · have hwindows : (t.wmStep ops (.windowRequest id request)).desktop.windowIds =
        t.desktop.windowIds := hsame.windowIds
    exact target_congr rfl hwindows

theorem outcome_handle (t : Announcing P) (keys : Enumeration String) (request : TilingRequest) :
    (t.handle ops keys request).outcome = t.outcome.apply t.target request ∧
      (t.handle ops keys request).target = t.target := by
  cases request with
  | window object request =>
    simp only [Announcing.handle]
    cases hfind : t.created.find? fun entry => entry.1 = object with
    | none =>
      have htarget : t.target object = none := by
        unfold Announcing.target
        rw [hfind]
        rfl
      refine ⟨?_, rfl⟩
      cases request <;> simp only [Outcome.apply, htarget]
    | some entry =>
      obtain ⟨object', id⟩ := entry
      obtain rfl : object' = object := by simpa using List.find?_some hfind
      exact outcome_windowRequest ops t hfind request
  | manageDone | renderDone | getWorkspaceManager _ | createWorkspace _ _
  | setActiveWorkspace _ _ _ => exact ⟨rfl, rfl⟩

end Handle

/-! ### Harmless events -/

/-- Events that a WM answers without asking anything of the windows. -/
def WmServerEvent.Harmless : WmServerEvent → Prop
  | .renderStart _ | .workspaceCreated _ _ | .workspaceDestroyed _ _ => True
  | _ => False

theorem WmServerEvent.Listing.harmless {event : WmServerEvent} (h : event.Listing) :
    event.Harmless := by
  cases event <;> trivial

/-- Requests without an effect on windows. -/
def Tiling.TilingRequest.Idle (request : TilingRequest) : Prop :=
  ∀ (target : ObjectId → Option Surface) (o : Outcome), o.apply target request = o

theorem foldl_apply_idle {requests : List TilingRequest} (h : ∀ request ∈ requests, request.Idle)
    (target : ObjectId → Option Surface) (o : Outcome) :
    requests.foldl (Outcome.apply target) o = o := by
  induction requests generalizing o with
  | nil => rfl
  | cons request requests ih =>
    rw [List.foldl_cons, h request List.mem_cons_self target o]
    exact ih (fun request hmem => h request (List.mem_cons_of_mem _ hmem)) o

theorem Tiling.TilingWm.event_harmless {wm : TilingWm} (hlayout : ∃ layouts,
      wm.calculateLayout = some layouts) {event : WmServerEvent} (h : event.Harmless) :
    ∃ requests, wm.event event = some (wm, requests) ∧ ∀ request ∈ requests, request.Idle := by
  obtain ⟨layouts, hlayouts⟩ := hlayout
  cases event with
  | renderStart manager =>
    refine ⟨wm.arrange layouts ++ [.renderDone], ?_, fun request hrequest => ?_⟩
    · simp only [TilingWm.event, hlayouts]
      rfl
    · rcases List.mem_append.mp hrequest with harrange | hdone
      · obtain ⟨⟨window, tile⟩, -, hmem⟩ := List.mem_flatMap.mp harrange
        simp only [List.mem_cons, List.not_mem_nil, or_false] at hmem
        rcases hmem with rfl | rfl | rfl <;> exact fun _ _ => rfl
      · rw [List.mem_singleton.mp hdone]
        exact fun _ _ => rfl
  | workspaceCreated _ _ | workspaceDestroyed _ _ =>
    exact ⟨[], rfl, fun _ hmem => absurd hmem List.not_mem_nil⟩
  | _ => exact absurd h id

theorem Tiling.TilingWm.run_harmless {wm : TilingWm} (hlayout : ∃ layouts,
      wm.calculateLayout = some layouts) {events : List WmServerEvent}
    (h : ∀ event ∈ events, event.Harmless) :
    ∃ requests, wm.run events = some (wm, requests) ∧ ∀ request ∈ requests, request.Idle := by
  induction events with
  | nil => exact ⟨[], rfl, fun _ hmem => absurd hmem List.not_mem_nil⟩
  | cons event events ih =>
    obtain ⟨requests, hevent, hidle⟩ := event_harmless hlayout (h event List.mem_cons_self)
    obtain ⟨more, hrun, hmore⟩ := ih fun event hmem => h event (List.mem_cons_of_mem _ hmem)
    refine ⟨requests ++ more, by rw [run_cons, hevent, Option.bind_some, hrun]; rfl,
      fun request hrequest => ?_⟩
    exact (List.mem_append.mp hrequest).elim (hidle request) (hmore request)

theorem WmServerEvent.Harmless.idle {event : WmServerEvent} (h : event.Harmless) :
    event.Idle := by
  cases event <;> trivial

/-- Idle events change nothing about the windows that are known. -/
theorem foldl_knownAfter_idle {events : List WmServerEvent} (h : ∀ event ∈ events, event.Idle)
    (known : List ObjectId) : events.foldl TilingWm.knownAfter known = known := by
  induction events with
  | nil => rfl
  | cons event events ih =>
    have hone : TilingWm.knownAfter known event = known := by
      have hidle := h event List.mem_cons_self
      cases event <;> first | rfl | exact absurd hidle id
    rw [List.foldl_cons, hone]
    exact ih fun event hmem => h event (List.mem_cons_of_mem _ hmem)

/-! ### When everything is settled -/

namespace TilingSystem

variable {P : Type} (ops : SpaceOps P) {s : TilingSystem P} {proto proto' : WmProtocolState}
  {t : Announcing P} {new : List WmServerEvent} {manager : ObjectId} {wm : TilingWm}

/-- What the WM is going to answer to the events on their way. -/
def answers (s : TilingSystem P) : List TilingRequest :=
  match s.wm with
  | some (_, wm) => ((wm.run s.events).map Prod.snd).getD []
  | none => []

/-- The window objects that the WM knows when it has read them. -/
def known (s : TilingSystem P) : List ObjectId :=
  match s.wm with
  | some (_, wm) => s.events.foldl TilingWm.knownAfter wm.objects
  | none => []

/-- The outcome when all events and requests on their way have been dealt with. -/
def settled (s : TilingSystem P) : Outcome :=
  (s.requests ++ s.answers).foldl (Outcome.apply s.compositor.target) s.compositor.outcome

/-- Nothing is on its way. -/
def Drained (s : TilingSystem P) : Prop := s.events = [] ∧ s.requests = []

/-- The tiling WM runs and is the current manager. -/
structure Managing (s : TilingSystem P) (proto : WmProtocolState) (manager : ObjectId)
    (wm : TilingWm) : Prop where
  linked : s.Linked proto
  wm : s.wm = some (manager, wm)
  current : proto.wmClient = some manager

/-- The output and the number of objects are within the bounds of the layout. -/
structure InBounds (s : TilingSystem P) : Prop where
  width : 0 ≤ s.compositor.desktop.output.1 ∧ s.compositor.desktop.output.1 ≤ 2 ^ 16
  height : 0 ≤ s.compositor.desktop.output.2 ∧ s.compositor.desktop.output.2 ≤ 2 ^ 16
  objects : s.compositor.next ≤ 2 ^ 14

/-- Distinct objects are at most as many as there are numbers below the next one. -/
theorem length_le_next {objects : List ObjectId} {next : ℕ} (hnodup : objects.Nodup)
    (hlt : ∀ object ∈ objects, object.raw < next) : objects.length ≤ next := by
  have hraw : (objects.map ObjectId.raw).Nodup :=
    hnodup.map fun a b hab => by cases a; cases b; exact congrArg ObjectId.mk hab
  have hsub : objects.map ObjectId.raw ⊆ List.range next := by
    intro raw hmem
    obtain ⟨object, hobject, rfl⟩ := List.mem_map.mp hmem
    exact List.mem_range.mpr (hlt object hobject)
  calc objects.length = (objects.map ObjectId.raw).length := (List.length_map _).symm
    _ ≤ (List.range next).length := (hraw.subperm hsub).length_le
    _ = next := List.length_range

/-- A running WM stays within the bounds of the layout. -/
theorem Managing.bounded (h : s.Managing proto manager wm) (hbounds : s.InBounds) :
    wm.Bounded s.events := by
  have hrunning := h.linked.running manager wm h.wm
  have hdims : (0 ≤ wm.outputWidth ∧ wm.outputWidth ≤ 2 ^ 16) ∧
      0 ≤ wm.outputHeight ∧ wm.outputHeight ≤ 2 ^ 16 := by
    rcases hrunning.output with heq | heq
    · obtain ⟨hwidth, hheight⟩ := Prod.mk.inj heq
      rw [hwidth, hheight]
      exact ⟨hbounds.width, hbounds.height⟩
    · obtain ⟨hwidth, hheight⟩ := Prod.mk.inj heq
      rw [hwidth, hheight]
      decide
  refine ⟨hdims.1, hdims.2, fun manager name width height hmem => ?_, ?_⟩
  · obtain ⟨hwidth, hheight⟩ := Prod.mk.inj (hrunning.hears.outputs hmem)
    rw [hwidth, hheight]
    exact ⟨hbounds.width, hbounds.height⟩
  · have hlength := length_le_next hrunning.hears.nodup hrunning.hears.lt
    rw [List.length_append, TilingWm.objects, List.length_map] at hlength
    exact hlength.trans hbounds.objects

/-- It goes through the events on their way. -/
theorem Managing.exists_run (h : s.Managing proto manager wm) (hbounds : s.InBounds) :
    ∃ wm' requests, wm.run s.events = some (wm', requests) ∧ wm'.Bounded [] :=
  TilingWm.exists_run (h.bounded hbounds)
    ((h.linked.running manager wm h.wm).current h.current)

/-- The compositor sends the WM harmless events only. -/
theorem Managing.sends (h : s.Managing proto manager wm) (hbounds : s.InBounds)
    (hsends : Sends s.compositor t proto proto' new) (hclient : proto'.wmClient = proto.wmClient)
    (hharmless : ∀ event ∈ new, event.Harmless) (htarget : t.target = s.compositor.target) :
    (s.sends t).Managing proto' manager wm ∧ (s.sends t).known = s.known ∧
      (s.sends t).settled =
        (s.requests ++ s.answers).foldl (Outcome.apply s.compositor.target) t.outcome := by
  obtain ⟨wm', requests, hrun, hbounded⟩ := h.exists_run hbounds
  have hevents := events_sends h.linked.inv hsends h.wm
  have hfiltered : ∀ event ∈ new.filter fun event => event.isFor manager, event.Harmless :=
    fun event hmem => hharmless event (List.mem_of_mem_filter hmem)
  obtain ⟨more, hmore, hidle⟩ := TilingWm.run_harmless
    (hbounded.exists_calculateLayout.imp fun _ hlayouts => hlayouts.1) hfiltered
  have hwm : (s.sends t).wm = some (manager, wm) := h.wm
  have hanswers : s.answers = requests := by
    unfold answers
    rw [h.wm]
    dsimp only
    rw [hrun]
    rfl
  have hanswers' : (s.sends t).answers = requests ++ more := by
    unfold answers
    rw [hwm]
    dsimp only
    rw [hevents, TilingWm.run_append, hrun, Option.bind_some, hmore]
    rfl
  refine ⟨⟨h.linked.sends hsends, hwm, hclient.trans h.current⟩, ?_, ?_⟩
  · unfold known
    rw [hwm, h.wm]
    dsimp only
    rw [hevents, List.foldl_append,
      foldl_knownAfter_idle fun event hmem => (hfiltered event hmem).idle]
  · unfold settled
    have hcompositor : (s.sends t).compositor = t := rfl
    have hrequests : (s.sends t).requests = s.requests := rfl
    rw [hanswers', hanswers, hcompositor, hrequests, htarget, ← List.append_assoc,
      List.foldl_append, foldl_apply_idle hidle]

/-! ### Quiet steps -/

/-- Events and requests are dealt with, frames are rendered and toplevels commit, and the user
presses no key and no button. -/
def Quiet : TilingEvent → Prop
  | .deliver | .handle _ | .compositor .tick
  | .compositor (.announcing (.committed _ _)) => True
  | .compositor (.input (.keyboard ev)) => ev.state = .released
  | .compositor (.input (.pointerButton ev)) => ev.state = .released
  | .compositor (.input _) => True
  | _ => False

/-- Input without a press asks nothing of the windows. -/
theorem outcome_input {msg : InputMessage} (h : s.compositor.desktop.Managed)
    (hquiet : Quiet (.compositor (.input msg))) :
    (s.compositor.react ops (.input msg)).outcome = s.compositor.outcome ∧
      (s.compositor.react ops (.input msg)).target = s.compositor.target := by
  refine ⟨?_, target_congr rfl
    (s.compositor.desktop.sameWindows_injectNetworkInput ops h msg).windowIds⟩
  have hsame : (s.compositor.desktop.injectNetworkInput ops msg).requests =
      s.compositor.desktop.requests ∧
      (s.compositor.desktop.injectNetworkInput ops msg).seat.focus =
        s.compositor.desktop.seat.focus := by
    cases msg with
    | keyboard ev =>
      have hreleased : ev.state = .released := hquiet
      have hpressed : ev.pressed = false := by
        unfold KeyboardEvent.pressed
        rw [hreleased]
        rfl
      simp only [DesktopState.injectNetworkInput]
      rcases s.compositor.desktop.injectKeyboard_cases ops ev with
        ⟨-, _, hev⟩ | ⟨-, hshortcut, -⟩ | ⟨-, hev⟩
      · rw [hev]
        exact ⟨rfl, rfl⟩
      · rw [DesktopState.isShortcut, hpressed] at hshortcut
        exact absurd hshortcut Bool.false_ne_true
      · rw [hev]
        exact ⟨rfl, SeatState.input_focus _ _ _⟩
    | pointerButton ev =>
      have hreleased : ev.state = .released := hquiet
      have hinject : s.compositor.desktop.injectNetworkInput ops (.pointerButton ev) =
          { s.compositor.desktop with
            seat := s.compositor.desktop.seat.button ev.button .released } := by
        simp only [DesktopState.injectNetworkInput, DesktopState.injectButton, hreleased]
      rw [hinject]
      exact ⟨rfl, rfl⟩
    | pointerMotion ev | pointerAxis ev => exact ⟨rfl, rfl⟩
  obtain ⟨hrequests, hfocus⟩ := hsame
  refine Outcome.ext (funext fun surface => ?_) hfocus
  exact congrArg (lastSize surface) hrequests

/-- In the end it is the same. -/
structure SameEnd (s s' : TilingSystem P) : Prop where
  known : s'.known = s.known
  target : s'.compositor.target = s.compositor.target
  settled : s'.settled = s.settled

/-- The WM reads the next event, and does not fail. -/
theorem Managing.deliver (h : s.Managing proto manager wm) (hbounds : s.InBounds)
    {event : WmServerEvent} {events : List WmServerEvent} (hevents : s.events = event :: events) :
    ∃ wm' requests, wm.event event = some (wm', requests) ∧
      s.step ops .deliver = { s with
        wm := some (manager, wm')
        events := events
        requests := s.requests ++ requests } ∧
      (s.step ops .deliver).Managing proto manager wm' := by
  have hbounded := h.bounded hbounds
  have hnotReplaced := (h.linked.running manager wm h.wm).current h.current
  rw [hevents] at hbounded hnotReplaced
  obtain ⟨wm', requests, hevent, -⟩ := hbounded.exists_event
    fun manager heq => hnotReplaced manager (heq ▸ List.mem_cons_self)
  have hstep : s.step ops .deliver = { s with
      wm := some (manager, wm')
      events := events
      requests := s.requests ++ requests } := by
    simp only [TilingSystem.step, h.wm, hevents, hevent]
  obtain ⟨proto', hlinked, -⟩ := h.linked.step ops .deliver
  have hproto : proto' = proto := by
    have hprotocol := hlinked.inv.protocol
    rw [hstep] at hprotocol
    exact (Option.some.inj (h.linked.inv.protocol.symm.trans hprotocol)).symm
  refine ⟨wm', requests, hevent, hstep, hproto ▸ hlinked, ?_, h.current⟩
  rw [hstep]

/-- The compositor handles the next request, and lists workspaces at most. -/
theorem Managing.handle (h : s.Managing proto manager wm) (hbounds : s.InBounds)
    (keys : Enumeration String) {request : TilingRequest} {requests : List TilingRequest}
    (hrequests : s.requests = request :: requests) :
    ∃ proto' new, (s.step ops (.handle keys)).requests = requests ∧
      (s.step ops (.handle keys)).events = s.events ++ new ∧ (∀ event ∈ new, event.Listing) ∧
      (s.step ops (.handle keys)).compositor.next = s.compositor.next ∧
      (s.step ops (.handle keys)).Managing proto' manager wm ∧
      SameEnd s (s.step ops (.handle keys)) := by
  obtain ⟨proto', new, hsends, hclient, hlisting⟩ := Sends.handle ops h.linked.inv keys request
  obtain ⟨houtcome, htarget⟩ := outcome_handle ops s.compositor keys request
  have hpopped : Managing { s with requests := requests } proto manager wm :=
    ⟨⟨h.linked.inv, h.linked.running, h.linked.fresh⟩, h.wm, h.current⟩
  obtain ⟨hmanaging, hknown, hsettled⟩ := hpopped.sends
    ⟨hbounds.width, hbounds.height, hbounds.objects⟩ hsends hclient
    (fun event hmem => (hlisting event hmem).harmless) htarget
  have hstep : s.step ops (.handle keys) = { s with requests := requests }.sends
      (s.compositor.handle ops keys request) := by
    simp only [TilingSystem.step, hrequests]
  have hnext : (s.compositor.handle ops keys request).next = s.compositor.next := by
    cases request with
    | window object request =>
      simp only [Announcing.handle]
      cases s.compositor.created.find? fun entry => entry.1 = object <;> rfl
    | _ => rfl
  rw [hstep]
  refine ⟨proto', _, rfl, events_sends hpopped.linked.inv hsends hpopped.wm,
    fun event hmem => hlisting event (List.mem_of_mem_filter hmem), hnext, hmanaging, hknown,
    htarget, hsettled.trans ?_⟩
  rw [houtcome, settled, hrequests]
  rfl

/-- **A quiet step changes nothing in the end.** -/
theorem Managing.step (h : s.Managing proto manager wm) (hbounds : s.InBounds)
    {event : TilingEvent} (hquiet : Quiet event) :
    ∃ proto' wm', (s.step ops event).Managing proto' manager wm' ∧
      SameEnd s (s.step ops event) := by
  have hnone : ∀ event ∈ ([] : List WmServerEvent), event.Harmless :=
    fun _ hmem => absurd hmem List.not_mem_nil
  cases event with
  | connect couldCreate => exact absurd hquiet id
  | deliver =>
    cases hevents : s.events with
    | nil =>
      have hstep : s.step ops .deliver = s := by
        simp only [TilingSystem.step, h.wm, hevents]
      rw [hstep]
      exact ⟨proto, wm, h, rfl, rfl, rfl⟩
    | cons event events =>
      obtain ⟨wm', requests, hevent, hstep, hmanaging⟩ := h.deliver ops hbounds hevents
      rw [hstep] at hmanaging ⊢
      refine ⟨proto, wm', hmanaging, ?_, rfl, ?_⟩
      · simp only [known, h.wm, hevents, List.foldl_cons, (TilingWm.event_spec hevent).1]
      · obtain ⟨wm'', more, hrun, -⟩ := h.exists_run hbounds
        rw [hevents, TilingWm.run_cons, hevent, Option.bind_some] at hrun
        obtain ⟨⟨_, rest⟩, hrest, heq⟩ := Option.map_eq_some_iff.mp hrun
        simp only [settled, answers, h.wm, hevents, TilingWm.run_cons, hevent, hrest,
          Option.bind_some, Option.map_some, Option.getD_some, List.append_assoc]
  | handle keys =>
    cases hrequests : s.requests with
    | nil =>
      have hstep : s.step ops (.handle keys) = s := by
        simp only [TilingSystem.step, hrequests]
      rw [hstep]
      exact ⟨proto, wm, h, rfl, rfl, rfl⟩
    | cons request requests =>
      obtain ⟨proto', _, -, -, -, -, hmanaging, hend⟩ := h.handle ops hbounds keys hrequests
      exact ⟨proto', wm, hmanaging, hend⟩
  | compositor event =>
    have hquietly : ∀ {t proto' new}, Sends s.compositor t proto proto' new →
        proto'.wmClient = proto.wmClient → (∀ event ∈ new, event.Harmless) →
        t.outcome = s.compositor.outcome → t.target = s.compositor.target →
        ∃ proto' wm', (s.sends t).Managing proto' manager wm' ∧ SameEnd s (s.sends t) := by
      intro t proto' new hsends hclient hharmless houtcome htarget
      obtain ⟨hmanaging, hknown, hsettled⟩ := h.sends hbounds hsends hclient hharmless htarget
      exact ⟨proto', wm, hmanaging, hknown, htarget, hsettled.trans (by rw [houtcome]; rfl)⟩
    cases event with
    | tick =>
      obtain ⟨hsends, hclient⟩ := Sends.tick ops h.linked.inv
      refine hquietly hsends hclient (fun event hmem => ?_) rfl rfl
      obtain ⟨manager, -, rfl⟩ := List.mem_map.mp hmem
      trivial
    | input msg =>
      obtain ⟨hprotocol, houtput⟩ := sameServer_injectNetworkInput ops s.compositor.desktop msg
      obtain ⟨houtcome, htarget⟩ := outcome_input ops h.linked.inv.managed hquiet
      have hsends := Sends.input ops h.linked.inv msg
      exact hquietly hsends rfl hnone houtcome htarget
    | announcing event =>
      cases event with
      | committed surface size =>
        have hsends := Sends.committed ops h.linked.inv surface size
        exact hquietly hsends rfl hnone (by cases size <;> rfl) (by cases size <;> rfl)
      | _ => exact absurd hquiet id
    | request request => exact absurd hquiet id

/-- **Quiet runs** change nothing in the end. -/
theorem Managing.run (h : s.Managing proto manager wm) {events : List TilingEvent}
    (hquiet : ∀ event ∈ events, Quiet event)
    (hbounds : (events.foldl (TilingSystem.step ops) s).InBounds) :
    ∃ proto' wm', (events.foldl (TilingSystem.step ops) s).Managing proto' manager wm' ∧
      SameEnd s (events.foldl (TilingSystem.step ops) s) := by
  induction events generalizing s proto wm with
  | nil => exact ⟨proto, wm, h, rfl, rfl, rfl⟩
  | cons event events ih =>
    obtain ⟨_, -, hgrows⟩ := h.linked.run ops (event :: events)
    have hbounds' : s.InBounds :=
      ⟨hgrows.output ▸ hbounds.width, hgrows.output ▸ hbounds.height,
        hgrows.next_le.trans hbounds.objects⟩
    obtain ⟨proto₁, wm₁, hmanaging, hone⟩ :=
      h.step ops hbounds' (hquiet event List.mem_cons_self)
    obtain ⟨proto', wm', hrun, hmore⟩ :=
      ih hmanaging (fun event hmem => hquiet event (List.mem_cons_of_mem _ hmem)) hbounds
    exact ⟨proto', wm', hrun, hmore.known.trans hone.known, hmore.target.trans hone.target,
      hmore.settled.trans hone.settled⟩

end TilingSystem

end WayRay
