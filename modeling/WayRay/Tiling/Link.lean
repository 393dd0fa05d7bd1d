import WayRay.Tiling.Compositor

/-!
# The compositor and the tiling window manager

`TilingSystem` is the compositor and the tiling WM with what is on its way between them: the events
for the WM that it has not read, and its requests that have not been handled.  It starts once, and
ends when it is replaced or its connection is lost.

`Running` relates the WM, the events on their way and the log of the compositor: when it has read
them, the WM knows the output and the windows announced to it.
-/

namespace WayRay

open WmProtocolState Tiling

/-- Events for a manager.  Those for window and workspace objects say nothing to a client that does
not have the object. -/
def WmServerEvent.isFor (manager : ObjectId) : WmServerEvent → Bool
  | .outputNew manager' _ _ _ | .windowNew manager' _ | .windowClosed manager' _
  | .manageStart manager' | .renderStart manager' | .replaced manager' => manager' = manager
  | .title _ _ | .appId _ _ | .dimensions _ _ _ | .done _ | .workspaceCreated _ _
  | .workspaceDestroyed _ _ => true

/-- The events sent so far. -/
def Announcing.sent {P : Type} (t : Announcing P) : List WmServerEvent :=
  (t.desktop.protocol.map WmProtocolState.sent).getD []

structure TilingSystem (P : Type) where
  compositor : Announcing P
  /-- The tiling WM and its manager object, while it runs. -/
  wm : Option (ObjectId × TilingWm)
  /-- Whether it has been started. -/
  started : Bool
  /-- Events on their way to the WM. -/
  events : List WmServerEvent
  /-- Requests on their way to the compositor. -/
  requests : List TilingRequest

inductive TilingEvent where
  | compositor (event : CompositorEvent)
  /-- The tiling WM starts and binds; for which windows an object could be created. -/
  | connect (couldCreate : WindowId → Bool)
  /-- The WM reads an event. -/
  | deliver
  /-- The compositor handles a request; the order in which it lists workspaces. -/
  | handle (keys : Enumeration String)

namespace TilingSystem

variable {P : Type} (ops : SpaceOps P)

/-- The state a compositor starts with. -/
def start (space : P) (output : ℤ × ℤ) : TilingSystem P :=
  ⟨.start space output, none, false, [], []⟩

/-- The compositor has changed: what it has sent is on its way. -/
def sends (s : TilingSystem P) (t : Announcing P) : TilingSystem P :=
  { s with
    compositor := t
    events := s.events ++ ((t.sent.drop s.compositor.sent.length).filter fun event =>
      s.wm.any fun wm => event.isFor wm.1) }

/-- The tiling WM ends if its manager object is destroyed with its connection. -/
def disconnect (wm : Option (ObjectId × TilingWm)) : CompositorEvent → Option (ObjectId × TilingWm)
  | .announcing (.managerDestroyed manager) => wm.filter fun wm => wm.1 ≠ manager
  | _ => wm

def step (s : TilingSystem P) : TilingEvent → TilingSystem P
  | .compositor event =>
    { s with wm := disconnect s.wm event }.sends (s.compositor.react ops event)
  | .connect couldCreate =>
    if s.started then s
    else
      let t := s.compositor.step ops (.bind couldCreate)
      { { s with
          wm := some (⟨s.compositor.next⟩, .new)
          started := true
          requests := setUp ⟨t.next⟩ }.sends t with
        compositor := { t with next := t.next + 1 } }
  | .deliver =>
    match s.wm, s.events with
    | some (manager, wm), event :: events =>
      match wm.event event with
      | some (wm, requests) =>
        { s with
          wm := some (manager, wm)
          events := events
          requests := s.requests ++ requests }
      | none => { s with wm := none, events := events }
    | _, _ => s
  | .handle keys =>
    match s.requests with
    | request :: requests =>
      { s with requests := requests }.sends (s.compositor.handle ops keys request)
    | [] => s

end TilingSystem

/-! ### The WM and the log -/

/-- What the tiling WM has read and will read, against the log. -/
structure Hears {P : Type} (t : Announcing P) (proto : WmProtocolState) (manager : ObjectId)
    (known : List ObjectId) (events : List WmServerEvent) : Prop where
  nodup : (known ++ events.filterMap TilingWm.announces).Nodup
  lt : ∀ object ∈ known ++ events.filterMap TilingWm.announces, object.raw < t.next
  outputs : ∀ {manager' name width height}, .outputNew manager' name width height ∈ events →
    (width, height) = t.desktop.output
  knows : ∀ {object}, proto.IsOpen manager object → object ∈ events.foldl TilingWm.knownAfter known
  announced : ∀ {object}, object ∈ events.foldl TilingWm.knownAfter known →
    .windowNew manager object ∈ proto.sent
  closed : ∀ {object}, .windowClosed manager object ∈ proto.sent →
    object.raw < t.next ∧ object ∉ events.foldl TilingWm.knownAfter known

/-- The tiling WM runs. -/
structure Running {P : Type} (t : Announcing P) (proto : WmProtocolState) (manager : ObjectId)
    (wm : TilingWm) (events : List WmServerEvent) : Prop where
  hears : Hears t proto manager wm.objects events
  manager_lt : manager.raw < t.next
  output : (wm.outputWidth, wm.outputHeight) = t.desktop.output ∨
    (wm.outputWidth, wm.outputHeight) = (1280, 720)
  /-- The size of the output is known, or on its way. -/
  outputAfter : events.foldl TilingWm.outputAfter (wm.outputWidth, wm.outputHeight) =
    t.desktop.output
  current : proto.wmClient = some manager → ∀ manager', .replaced manager' ∉ events

section Hears

variable {P : Type} {t t' : Announcing P} {proto proto' : WmProtocolState} {manager : ObjectId}
  {known : List ObjectId} {events new : List WmServerEvent} {wm wm' : TilingWm}

/-- A window that is known, or gets known, stays known unless it is closed. -/
theorem mem_foldl_knownAfter {object : ObjectId}
    (hknown : object ∈ known ∨ ∃ manager, .windowNew manager object ∈ events)
    (hclosed : ∀ manager, .windowClosed manager object ∉ events) :
    object ∈ events.foldl TilingWm.knownAfter known := by
  induction events generalizing known with
  | nil => exact hknown.resolve_right fun ⟨_, hmem⟩ => absurd hmem List.not_mem_nil
  | cons event events ih =>
    refine ih ?_ fun manager hmem => hclosed manager (List.mem_cons_of_mem _ hmem)
    have hkept : object ∈ known → object ∈ TilingWm.knownAfter known event := by
      intro hmem
      cases event with
      | windowNew manager window => exact List.mem_append_left _ hmem
      | windowClosed manager window =>
        refine List.mem_filter.mpr ⟨hmem, decide_eq_true ?_⟩
        rintro rfl
        exact hclosed manager List.mem_cons_self
      | _ => exact hmem
    rcases hknown with hmem | ⟨manager, hmem⟩
    · exact .inl (hkept hmem)
    · rcases List.mem_cons.mp hmem with rfl | hmem
      · exact .inl (List.mem_append_right _ List.mem_cons_self)
      · exact .inr ⟨manager, hmem⟩

/-- A window that is closed is no longer known, unless it is announced again. -/
theorem notMem_foldl_knownAfter {object : ObjectId}
    (hclosed : .windowClosed manager object ∈ events)
    (hnew : object ∉ events.filterMap TilingWm.announces) :
    object ∉ events.foldl TilingWm.knownAfter known := by
  obtain ⟨before, after, rfl⟩ := List.append_of_mem hclosed
  rw [List.foldl_append, List.foldl_cons]
  intro hmem
  rcases List.mem_append.mp ((TilingWm.foldl_knownAfter_sublist _ _).mem hmem) with hold | hafter
  · exact of_decide_eq_true (List.mem_filter.mp hold).2 rfl
  · refine hnew ?_
    rw [List.filterMap_append]
    exact List.mem_append_right _ hafter

theorem announces_eq_some {event : WmServerEvent} {object : ObjectId}
    (h : TilingWm.announces event = some object) :
    ∃ manager, event = .windowNew manager object := by
  cases event with
  | windowNew manager window =>
    obtain rfl := Option.some.inj h
    exact ⟨manager, rfl⟩
  | _ => exact absurd h nofun

/-- What a manager is sent keeps what it hears in step with the log. -/
theorem Hears.sends (h : Hears t proto manager known events)
    (hsends : Sends t t' proto proto' new) :
    Hears t' proto' manager known
      (events ++ new.filter fun event => event.isFor manager) := by
  obtain ⟨filtered, hfiltered⟩ : ∃ filtered, filtered = new.filter fun event =>
    event.isFor manager := ⟨_, rfl⟩
  have hsublist : (filtered.filterMap TilingWm.announces).Sublist
      (new.filterMap TilingWm.announces) := by
    rw [hfiltered]
    exact List.filter_sublist.filterMap _
  have hmem : ∀ {event}, event ∈ filtered → event ∈ new ∧ event.isFor manager = true := by
    rw [hfiltered]
    exact fun hmem => List.mem_filter.mp hmem
  rw [← hfiltered]
  refine ⟨?_, ?_, ?_, ?_, ?_, ?_⟩
  · rw [List.filterMap_append, ← List.append_assoc]
    refine h.nodup.append (hsends.nodup.sublist hsublist) fun object hold hnew => ?_
    have hlt := h.lt object hold
    have hle := (hsends.new_range object (hsublist.mem hnew)).1
    exact absurd hlt (Nat.not_lt.mpr hle)
  · intro object hobject
    rw [List.filterMap_append, ← List.append_assoc] at hobject
    rcases List.mem_append.mp hobject with hold | hnew
    · exact (h.lt object hold).trans_le hsends.next_le
    · exact (hsends.new_range object (hsublist.mem hnew)).2
  · intro manager' name width height houtput
    rw [hsends.output]
    rcases List.mem_append.mp houtput with hold | hnew
    · exact h.outputs hold
    · exact hsends.outputs (hmem hnew).1
  · intro object hopen
    unfold WmProtocolState.IsOpen at hopen
    rw [hsends.sent, List.mem_append, List.mem_append, not_or] at hopen
    obtain ⟨hwindow, hclosed, hclosed'⟩ := hopen
    rw [List.foldl_append]
    refine mem_foldl_knownAfter ?_ fun manager' hmem' => ?_
    · rcases hwindow with hold | hnew
      · exact .inl (h.knows ⟨hold, hclosed⟩)
      · rw [hfiltered]
        exact .inr ⟨manager, List.mem_filter.mpr ⟨hnew, decide_eq_true rfl⟩⟩
    · obtain ⟨hnew, hfor⟩ := hmem hmem'
      obtain rfl : manager' = manager := of_decide_eq_true hfor
      exact hclosed' hnew
  · intro object hobject
    rw [List.foldl_append] at hobject
    rw [hsends.sent]
    rcases List.mem_append.mp ((TilingWm.foldl_knownAfter_sublist _ _).mem hobject) with
      hold | hnew
    · exact List.mem_append_left _ (h.announced hold)
    · obtain ⟨event, hevent, hannounces⟩ := List.mem_filterMap.mp hnew
      obtain ⟨manager', rfl⟩ := announces_eq_some hannounces
      obtain ⟨hnew, hfor⟩ := hmem hevent
      obtain rfl : manager' = manager := of_decide_eq_true hfor
      exact List.mem_append_right _ hnew
  · intro object hobject
    rw [hsends.sent, List.mem_append] at hobject
    -- an old object is not announced again
    have hold : ∀ {object : ObjectId}, object.raw < t.next →
        object ∉ filtered.filterMap TilingWm.announces := fun hlt hannounced =>
      absurd hlt (Nat.not_lt.mpr (hsends.new_range _ (hsublist.mem hannounced)).1)
    rw [List.foldl_append]
    rcases hobject with hclosed | hclosed
    · obtain ⟨hlt, hunknown⟩ := h.closed hclosed
      refine ⟨hlt.trans_le hsends.next_le, fun hmem => ?_⟩
      exact (List.mem_append.mp ((TilingWm.foldl_knownAfter_sublist _ _).mem hmem)).elim hunknown
        (hold hlt)
    · have hlt := hsends.closed hclosed
      have hheard : .windowClosed manager object ∈ filtered := by
        rw [hfiltered]
        exact List.mem_filter.mpr ⟨hclosed, decide_eq_true rfl⟩
      exact ⟨hlt.trans_le hsends.next_le, notMem_foldl_knownAfter hheard (hold hlt)⟩

/-- What the manager knows is what has been announced to it and not been closed. -/
theorem Hears.mem_iff (h : Hears t proto manager known events) {object : ObjectId} :
    object ∈ events.foldl TilingWm.knownAfter known ↔ proto.IsOpen manager object :=
  ⟨fun hmem => ⟨h.announced hmem, fun hclosed => (h.closed hclosed).2 hmem⟩, h.knows⟩

/-- The size of the output stays known. -/
theorem foldl_outputAfter {output : ℤ × ℤ} (hnew : ∀ {manager name width height},
    .outputNew manager name width height ∈ new → (width, height) = output) :
    new.foldl TilingWm.outputAfter output = output := by
  induction new with
  | nil => rfl
  | cons event new ih =>
    have hone : TilingWm.outputAfter output event = output := by
      cases event with
      | outputNew manager name width height => exact hnew List.mem_cons_self
      | _ => rfl
    rw [List.foldl_cons, hone]
    exact ih fun hmem => hnew (List.mem_cons_of_mem _ hmem)

/-- **A step of the compositor** keeps the WM and the log together. -/
theorem Running.sends (h : Running t proto manager wm events)
    (hsends : Sends t t' proto proto' new) :
    Running t' proto' manager wm (events ++ new.filter fun event => event.isFor manager) where
  hears := h.hears.sends hsends
  manager_lt := h.manager_lt.trans_le hsends.next_le
  output := by rw [hsends.output]; exact h.output
  outputAfter := by
    rw [List.foldl_append, h.outputAfter, hsends.output]
    exact foldl_outputAfter fun hmem => hsends.outputs (List.mem_of_mem_filter hmem)
  current := fun hclient manager' hmem => by
    rcases List.mem_append.mp hmem with hold | hnew
    · exact h.current (hsends.client h.manager_lt hclient) manager' hold
    · obtain ⟨hreplaced, hfor⟩ := List.mem_filter.mp hnew
      obtain rfl : manager' = manager := of_decide_eq_true hfor
      exact hsends.replaced hreplaced hclient

/-- **Reading an event** keeps them together. -/
theorem Running.reads {event : WmServerEvent} {requests : List TilingRequest}
    (h : Running t proto manager wm (event :: events))
    (hevent : wm.event event = some (wm', requests)) : Running t proto manager wm' events := by
  obtain ⟨hobjects, houtput⟩ := TilingWm.event_spec hevent
  have hsublist : (wm'.objects ++ events.filterMap TilingWm.announces).Sublist
      (wm.objects ++ (event :: events).filterMap TilingWm.announces) := by
    have hone := (TilingWm.knownAfter_sublist wm.objects event).append_right
      (events.filterMap TilingWm.announces)
    rw [← hobjects, List.append_assoc] at hone
    cases hannounces : TilingWm.announces event with
    | none =>
      rw [hannounces, Option.toList_none, List.nil_append] at hone
      rwa [List.filterMap_cons_none hannounces]
    | some object =>
      rw [hannounces] at hone
      rwa [List.filterMap_cons_some hannounces]
  refine ⟨⟨h.hears.nodup.sublist hsublist, fun object hmem => h.hears.lt object (hsublist.mem hmem),
    fun hmem => h.hears.outputs (List.mem_cons_of_mem _ hmem), ?_, ?_, ?_⟩, h.manager_lt, ?_, ?_,
    fun hclient manager' hmem => h.current hclient manager' (List.mem_cons_of_mem _ hmem)⟩
  · rw [hobjects]
    exact h.hears.knows
  · rw [hobjects]
    exact h.hears.announced
  · rw [hobjects]
    exact h.hears.closed
  · rw [houtput]
    cases event with
    | outputNew manager' name width height => exact .inl (h.hears.outputs List.mem_cons_self)
    | _ => exact h.output
  · rw [houtput]
    exact h.outputAfter

/-- **The WM starts**: it has been told nothing, and what is sent when it binds is all there is. -/
theorem Running.connect (h : t.Inv proto) (hsends : Sends t t' proto proto' new)
    (hclient : proto'.wmClient = some ⟨t.next⟩)
    (houtput : ∃ name, .outputNew ⟨t.next⟩ name t.desktop.output.1 t.desktop.output.2 ∈ new)
    (hnext : t.next < t'.next) :
    Running t' proto' ⟨t.next⟩ .new (new.filter fun event => event.isFor ⟨t.next⟩) := by
  have hears : Hears t proto ⟨t.next⟩ [] [] :=
    ⟨List.nodup_nil, fun object hmem => absurd hmem List.not_mem_nil,
      fun hmem => absurd hmem List.not_mem_nil,
      fun hopen => absurd (h.ledger.new_lt hopen.1).1 (Nat.lt_irrefl _),
      fun hmem => absurd hmem List.not_mem_nil,
      fun hclosed => ⟨(h.ledger.closed_lt hclosed).2, List.not_mem_nil⟩⟩
  refine ⟨hears.sends hsends, hnext, .inr rfl, ?_, fun _ manager' hmem => ?_⟩
  · obtain ⟨name, hmem⟩ := houtput
    have hfiltered : .outputNew ⟨t.next⟩ name t.desktop.output.1 t.desktop.output.2 ∈
        new.filter fun event => event.isFor ⟨t.next⟩ :=
      List.mem_filter.mpr ⟨hmem, decide_eq_true rfl⟩
    obtain ⟨before, after, hsplit⟩ := List.append_of_mem hfiltered
    have houtputs : ∀ {manager name width height}, .outputNew manager name width height ∈ after →
        (width, height) = t.desktop.output := by
      intro manager name width height hafter
      have hmem : .outputNew manager name width height ∈
          new.filter fun event => event.isFor ⟨t.next⟩ := by
        rw [hsplit]
        exact List.mem_append_right _ (List.mem_cons_of_mem _ hafter)
      exact hsends.outputs (List.mem_of_mem_filter hmem)
    rw [hsplit, List.foldl_append, List.foldl_cons, hsends.output]
    exact foldl_outputAfter houtputs
  · obtain ⟨hnew, hfor⟩ := List.mem_filter.mp hmem
    obtain rfl : manager' = ⟨t.next⟩ := of_decide_eq_true hfor
    exact hsends.replaced hnew hclient

end Hears

/-! ### Runs of the system -/

theorem Sends.addObject {P : Type} {t t' : Announcing P} {proto proto' : WmProtocolState}
    {new : List WmServerEvent} (h : Sends t t' proto proto' new) :
    Sends t { t' with next := t'.next + 1 } proto proto' new where
  inv := ⟨h.inv.managed, h.inv.protocol, h.inv.ledger.mono (Nat.le_succ _), h.inv.ids_lt⟩
  sent := h.sent
  next_le := h.next_le.trans (Nat.le_succ _)
  nodup := h.nodup
  new_range := fun object hmem =>
    ⟨(h.new_range object hmem).1, (h.new_range object hmem).2.trans (Nat.lt_succ_self _)⟩
  output := h.output
  outputs := h.outputs
  replaced := h.replaced
  client := h.client
  closed := h.closed

namespace TilingSystem

/-- The compositor and the WM, if it runs, belong together. -/
structure Linked {P : Type} (s : TilingSystem P) (proto : WmProtocolState) : Prop where
  inv : s.compositor.Inv proto
  running : ∀ manager wm, s.wm = some (manager, wm) →
    Running s.compositor proto manager wm s.events
  fresh : s.started = false → s.wm = none ∧ s.events = []

variable {P : Type} (ops : SpaceOps P) {s : TilingSystem P} {proto proto' : WmProtocolState}
  {t : Announcing P} {new : List WmServerEvent}

theorem linked_start (space : P) (output : ℤ × ℤ) : (start space output).Linked .new where
  inv :=
    { managed := DesktopState.managed_start space output _
      protocol := rfl
      ledger := ⟨List.nodup_nil, nofun, fun hnew => absurd hnew List.not_mem_nil,
        fun hclosed => absurd hclosed List.not_mem_nil, nofun,
        fun {id _} hget => absurd ((HashMap.get_empty id).symm.trans hget) nofun, nofun⟩
      ids_lt := nofun }
  running := nofun
  fresh := fun _ => ⟨rfl, rfl⟩

/-- What a running WM is sent. -/
theorem events_sends (h : s.compositor.Inv proto) (hsends : Sends s.compositor t proto proto' new)
    {manager : ObjectId} {wm : TilingWm} (hwm : s.wm = some (manager, wm)) :
    (s.sends t).events = s.events ++ new.filter fun event => event.isFor manager := by
  have hsent : s.compositor.sent = proto.sent := by
    rw [Announcing.sent, h.protocol]
    rfl
  have hsent' : t.sent = proto.sent ++ new := by
    rw [Announcing.sent, hsends.inv.protocol]
    exact hsends.sent
  simp only [sends, hsent, hsent', List.drop_left, hwm, Option.any_some]

theorem events_sends_of_none (hwm : s.wm = none) (t : Announcing P) :
    (s.sends t).events = s.events := by
  simp only [sends, hwm, Option.any_none, List.filter_false, List.append_nil]

/-- The compositor changes. -/
theorem Linked.sends (h : s.Linked proto) (hsends : Sends s.compositor t proto proto' new) :
    (s.sends t).Linked proto' := by
  refine ⟨hsends.inv, fun manager wm hwm => ?_, fun hstarted => ?_⟩
  · rw [events_sends h.inv hsends hwm]
    exact (h.running manager wm hwm).sends hsends
  · obtain ⟨hnone, hempty⟩ := h.fresh hstarted
    exact ⟨hnone, (events_sends_of_none hnone t).trans hempty⟩

/-- A WM that is still running has been running. -/
theorem of_disconnect {wm : Option (ObjectId × TilingWm)} {event : CompositorEvent}
    {running : ObjectId × TilingWm} (h : disconnect wm event = some running) :
    wm = some running := by
  unfold disconnect at h
  split at h
  · exact (Option.filter_eq_some_iff.mp h).1
  · exact h

/-- What no step changes, or makes smaller. -/
structure Grows (s s' : TilingSystem P) : Prop where
  output : s'.compositor.desktop.output = s.compositor.desktop.output
  next_le : s.compositor.next ≤ s'.compositor.next

/-- **Every step keeps the compositor and the WM together.** -/
theorem Linked.step (h : s.Linked proto) (event : TilingEvent) :
    ∃ proto', (s.step ops event).Linked proto' ∧ Grows s (s.step ops event) := by
  cases event with
  | compositor event =>
    obtain ⟨proto', new, hsends⟩ := Sends.react ops h.inv event
    have hlinked : Linked { s with wm := disconnect s.wm event } proto :=
      ⟨h.inv, fun manager wm hwm => h.running manager wm (of_disconnect hwm), fun hstarted => by
        obtain ⟨hnone, hempty⟩ := h.fresh hstarted
        refine ⟨?_, hempty⟩
        rw [hnone]
        unfold disconnect
        split <;> rfl⟩
    exact ⟨proto', hlinked.sends hsends, ⟨hsends.output, hsends.next_le⟩⟩
  | connect couldCreate =>
    simp only [TilingSystem.step]
    split_ifs with hstarted
    · exact ⟨proto, h, ⟨rfl, le_rfl⟩⟩
    · obtain ⟨hnone, hempty⟩ := h.fresh (Bool.not_eq_true _ ▸ hstarted)
      obtain ⟨proto', new, hsends, hclient, houtput, -⟩ :=
        Sends.bind ops h.inv couldCreate
      have hsends' := hsends.addObject
      have hevents := events_sends (s := { s with
          wm := some (⟨s.compositor.next⟩, .new)
          started := true
          requests := setUp ⟨(s.compositor.step ops (.bind couldCreate)).next⟩ })
        h.inv hsends' rfl
      refine ⟨proto', ⟨hsends'.inv, fun manager wm hwm => ?_, nofun⟩,
        ⟨hsends'.output, hsends'.next_le⟩⟩
      obtain ⟨rfl, rfl⟩ := Prod.mk.inj (Option.some.inj hwm)
      have hrunning := Running.connect h.inv hsends' hclient houtput
        (Nat.lt_succ_of_le hsends.next_le)
      rw [← List.nil_append (List.filter _ _), ← hempty] at hrunning
      rw [← hevents] at hrunning
      exact hrunning
  | deliver =>
    simp only [TilingSystem.step]
    split
    · next manager wm event events hwm hevents =>
      cases hevent : wm.event event with
      | none =>
        exact ⟨proto, ⟨h.inv, nofun, fun hstarted =>
          absurd ((h.fresh hstarted).1.symm.trans hwm) nofun⟩, ⟨rfl, le_rfl⟩⟩
      | some answer =>
        refine ⟨proto, ⟨h.inv, fun manager' wm' hwm' => ?_, fun hstarted => ?_⟩, ⟨rfl, le_rfl⟩⟩
        · obtain ⟨rfl, rfl⟩ := Prod.mk.inj (Option.some.inj hwm')
          have hrunning := h.running manager wm hwm
          rw [hevents] at hrunning
          exact hrunning.reads hevent
        · exact absurd ((h.fresh hstarted).1.symm.trans hwm) nofun
    · exact ⟨proto, h, ⟨rfl, le_rfl⟩⟩
  | handle keys =>
    simp only [TilingSystem.step]
    split
    · next request requests _ =>
      obtain ⟨proto', new, hsends, -⟩ := Sends.handle ops h.inv keys request
      have hlinked : Linked { s with requests := requests } proto := ⟨h.inv, h.running, h.fresh⟩
      exact ⟨proto', hlinked.sends hsends, ⟨hsends.output, hsends.next_le⟩⟩
    · exact ⟨proto, h, ⟨rfl, le_rfl⟩⟩

theorem Linked.run (h : s.Linked proto) (events : List TilingEvent) :
    ∃ proto', (events.foldl (TilingSystem.step ops) s).Linked proto' ∧
      Grows s (events.foldl (TilingSystem.step ops) s) := by
  induction events generalizing s proto with
  | nil => exact ⟨proto, h, ⟨rfl, le_rfl⟩⟩
  | cons event events ih =>
    obtain ⟨proto₁, hstep, hone⟩ := h.step ops event
    obtain ⟨proto', hrun, hmore⟩ := ih hstep
    exact ⟨proto', hrun, ⟨hmore.output.trans hone.output, hone.next_le.trans hmore.next_le⟩⟩

end TilingSystem

end WayRay
