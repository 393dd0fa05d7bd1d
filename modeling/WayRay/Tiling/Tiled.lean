import WayRay.Tiling.Arrangement

/-!
# Tiled windows

When a window is created, the compositor tells the tiling WM of it and asks it to arrange the
windows.  Once the answer has been dealt with, the windows that the WM knows have been asked for the
sizes of tiles that lie apart from each other inside the output, and the new window has the focus
(`tiled_run`).
-/

namespace WayRay

open WmProtocolState Tiling

/-! ### Proposals -/

section Proposals

variable {P : Type} {t : Announcing P} {proto : WmProtocolState} {object : ObjectId}
  {surface : Surface}

theorem target_eq_some_iff (h : t.Inv proto) : t.target object = some surface ↔
    ∃ id, (object, id) ∈ t.created ∧ (id, surface) ∈ t.desktop.windowIds := by
  have hfind : ∀ id, (t.created.find? fun entry => entry.1 = object).map Prod.snd = some id ↔
      (object, id) ∈ t.created := by
    intro id
    rw [Keyed.map_find?_eq_some (List.inj_on_of_nodup_map h.ledger.nodup)]
    constructor
    · rintro ⟨⟨_, _⟩, hmem, rfl, rfl⟩
      exact hmem
    · exact fun hmem => ⟨(object, id), hmem, rfl, rfl⟩
  unfold Announcing.target
  rw [Option.bind_eq_some_iff]
  exact exists_congr fun id => and_congr (hfind id) h.managed.windowForId_eq_some

/-- The objects of a manager stand for different windows. -/
theorem Hears.target_inj {manager : ObjectId} {known : List ObjectId}
    {events : List WmServerEvent} (h : Hears t proto manager known events) (hinv : t.Inv proto)
    (hclient : proto.wmClient = some manager) {object' : ObjectId}
    (hobject : object ∈ events.foldl TilingWm.knownAfter known)
    (hobject' : object' ∈ events.foldl TilingWm.knownAfter known)
    (htarget : t.target object = some surface) (htarget' : t.target object' = some surface) :
    object = object' := by
  obtain ⟨id, hcreated, hid⟩ := (target_eq_some_iff hinv).mp htarget
  obtain ⟨id', hcreated', hid'⟩ := (target_eq_some_iff hinv).mp htarget'
  obtain rfl : id = id' := congrArg Prod.fst
    (List.inj_on_of_nodup_map hinv.managed.nodup_windows hid hid' rfl)
  exact hinv.ledger.once hclient (h.announced hobject) (h.announced hobject') hcreated hcreated'

variable {target : ObjectId → Option Surface}

/-- The last size proposed for a window counts. -/
theorem size_propose {pairs : List (Tiling.WindowState × Tile)} {pair : Tiling.WindowState × Tile}
    (hmem : pair ∈ pairs) (htarget : target pair.1.obj = some surface)
    (hunique : ∀ other ∈ pairs, target other.1.obj = some surface → other = pair) (o : Outcome) :
    ((pairs.map fun (window, tile) =>
        TilingRequest.window window.obj (.proposeDimensions tile.w tile.h)).foldl
      (Outcome.apply target) o).size surface = some (pair.2.w, pair.2.h) := by
  induction pairs using List.reverseRecOn with
  | nil => exact absurd hmem List.not_mem_nil
  | append_singleton pairs last ih =>
    rw [List.map_append, List.foldl_append]
    generalize hbefore : (pairs.map fun (window, tile) =>
      TilingRequest.window window.obj (.proposeDimensions tile.w tile.h)).foldl
        (Outcome.apply target) o = before at ih ⊢
    simp only [List.map_cons, List.map_nil, List.foldl_cons, List.foldl_nil, Outcome.apply]
    by_cases hlast : target last.1.obj = some surface
    · rw [hlast, hunique last (List.mem_append_right _ List.mem_cons_self) hlast]
      exact Function.update_self ..
    · have hpair : pair ∈ pairs := by
        rcases List.mem_append.mp hmem with hpair | hpair
        · exact hpair
        · exact absurd (List.mem_singleton.mp hpair ▸ htarget) hlast
      have hold := ih hpair fun other hother =>
        hunique other (List.mem_append_left _ hother)
      cases hother : target last.1.obj with
      | none => exact hold
      | some other =>
        have hne : surface ≠ other := fun heq => hlast (heq ▸ hother)
        exact (Function.update_of_ne hne ..).trans hold

/-- The focus is set to the last window, and its sizes stay. -/
theorem apply_focusLast {wm : TilingWm} {front : List ObjectId}
    (hobjects : wm.objects = front ++ [object]) (htarget : target object = some surface)
    (o : Outcome) :
    (wm.focusLast ++ [TilingRequest.manageDone]).foldl (Outcome.apply target) o =
      { o with focus := some surface } := by
  have hlast : wm.windows.getLast?.map Tiling.WindowState.obj = some object := by
    rw [← List.getLast?_map]
    exact (congrArg List.getLast? hobjects).trans List.getLast?_concat
  obtain ⟨last, hgetLast, rfl⟩ := Option.map_eq_some_iff.mp hlast
  unfold TilingWm.focusLast
  rw [hgetLast]
  simp only [Option.toList_some, List.map_cons, List.map_nil, List.cons_append, List.nil_append,
    List.foldl_cons, List.foldl_nil, Outcome.apply, htarget]

end Proposals

/-! ### A window is created -/

namespace TilingSystem

variable {P : Type} (ops : SpaceOps P) {s : TilingSystem P} {proto : WmProtocolState}
  {manager : ObjectId} {wm : TilingWm}

/-- A window is created, and an object for it. -/
def createWindow (ops : SpaceOps P) (s : TilingSystem P) : TilingSystem P :=
  s.step ops (.compositor (.announcing (.newToplevel true)))

theorem isFor_description {window : WindowSnapshot} {object : ObjectId} {event : WmServerEvent}
    (h : event ∈ description window object) : event.isFor manager = true := by
  simp only [description, List.mem_append, List.mem_map, List.mem_cons, List.not_mem_nil,
    or_false] at h
  rcases h with (⟨_, -, rfl⟩ | ⟨_, -, rfl⟩) | rfl | rfl <;> rfl

/-- What is going to happen after a window has been created. -/
theorem Managing.createWindow (h : s.Managing proto manager wm)
    (hbounds : (s.createWindow ops).InBounds) :
    ∃ (proto' : WmProtocolState) (wm' : TilingWm) (layouts : List Tile) (front : List ObjectId)
        (o : Outcome), (s.createWindow ops).Managing proto' manager wm ∧
      wm'.calculateLayout = some layouts ∧ layouts.length = wm'.windows.length ∧
      (wm'.outputWidth, wm'.outputHeight) = s.compositor.desktop.output ∧
      wm'.objects = (s.createWindow ops).known ∧ wm'.objects = front ++ [⟨s.compositor.next⟩] ∧
      (s.createWindow ops).settled =
        (wm'.propose layouts ++ (wm'.focusLast ++ [TilingRequest.manageDone])).foldl
          (Outcome.apply (s.createWindow ops).compositor.target) o := by
  obtain ⟨proto', new, hsends, hannounced⟩ :=
    Sends.newToplevel ops h.linked.inv true
  obtain ⟨hclient, hnew⟩ := hannounced manager h.current
  obtain ⟨window, hnew⟩ := hnew rfl
  have hmanaging : (s.createWindow ops).Managing proto' manager wm :=
    ⟨h.linked.sends hsends, h.wm, hclient⟩
  have hfilter : new.filter (fun event => event.isFor manager) = new := by
    refine List.filter_eq_self.mpr fun event hmem => ?_
    rw [hnew] at hmem
    rcases List.mem_append.mp hmem with hmem | hmem
    · rcases List.mem_cons.mp hmem with rfl | hmem
      · exact decide_eq_true rfl
      · exact isFor_description hmem
    · rw [List.mem_singleton.mp hmem]
      exact decide_eq_true rfl
  obtain ⟨announced, hannounced⟩ : ∃ announced, announced = s.events ++
      (.windowNew manager ⟨s.compositor.next⟩ :: description window ⟨s.compositor.next⟩) :=
    ⟨_, rfl⟩
  have hevents : (s.createWindow ops).events = announced ++ [.manageStart manager] := by
    rw [hannounced, List.append_assoc, ← hnew]
    exact (events_sends h.linked.inv hsends h.wm).trans (congrArg (s.events ++ ·) hfilter)
  have hrunning := hmanaging.linked.running manager wm hmanaging.wm
  have hbounded := hmanaging.bounded hbounds
  have hreplaced := hrunning.current hclient
  rw [hevents] at hbounded hreplaced
  -- the WM reads all events but the last, then answers that
  obtain ⟨wm', before, hrun, hend⟩ := TilingWm.exists_run hbounded.of_append
    fun manager hmem => hreplaced manager (List.mem_append_left _ hmem)
  obtain ⟨layouts, hlayouts, hlength⟩ := hend.exists_calculateLayout
  obtain ⟨hobjects, houtput⟩ := TilingWm.run_spec hrun
  have hanswers : (s.createWindow ops).answers =
      before ++ (wm'.propose layouts ++ (wm'.focusLast ++ [TilingRequest.manageDone])) := by
    have hevent : wm'.event (.manageStart manager) =
        some (wm', wm'.propose layouts ++ wm'.focusLast ++ [TilingRequest.manageDone]) := by
      simp only [TilingWm.event, hlayouts]
      rfl
    unfold answers
    rw [hmanaging.wm]
    dsimp only
    rw [hevents, TilingWm.run_append, hrun, Option.bind_some, TilingWm.run_cons, hevent,
      Option.bind_some, ← List.append_assoc (wm'.propose layouts)]
    exact congrArg (before ++ ·) (List.append_nil _)
  refine ⟨proto', wm', layouts, s.events.foldl TilingWm.knownAfter wm.objects,
    ((s.createWindow ops).requests ++ before).foldl
      (Outcome.apply (s.createWindow ops).compositor.target)
      (s.createWindow ops).compositor.outcome,
    hmanaging, hlayouts, hlength, ?_, ?_, ?_, ?_⟩
  · have hafter := hrunning.outputAfter
    rw [hevents, List.foldl_append] at hafter
    exact houtput.trans (hafter.trans hsends.output)
  · unfold known
    rw [hmanaging.wm]
    dsimp only
    rw [hevents, List.foldl_append, hobjects]
    rfl
  · rw [hobjects, hannounced, List.foldl_append, List.foldl_cons,
      foldl_knownAfter_idle fun event => idle_description]
    rfl
  · unfold settled
    rw [hanswers, ← List.append_assoc, List.foldl_append]

/-! ### Tiles -/

/-- The tiling WM knows the window, or will when it has read the events on their way. -/
def Knows (s : TilingSystem P) (surface : Surface) : Prop :=
  ∃ object ∈ s.known, s.compositor.target object = some surface

theorem apart_symm {a b : Tile} (h : a.Apart b) : b.Apart a := by
  unfold Tile.Apart at h ⊢
  omega

/-- The window that is created next. -/
def nextWindow (s : TilingSystem P) : Surface := ⟨s.compositor.desktop.surfaces⟩

theorem Managing.target_nextWindow (h : s.Managing proto manager wm) {proto' : WmProtocolState}
    (h' : (s.createWindow ops).Managing proto' manager wm) :
    (s.createWindow ops).compositor.target ⟨s.compositor.next⟩ = some s.nextWindow := by
  refine (target_eq_some_iff h'.linked.inv).mpr ⟨⟨s.compositor.desktop.nextWindowId⟩, ?_, ?_⟩
  · have hconnected : s.compositor.desktop.wmConnected = true := by
      rw [h.linked.inv.wmConnected, Announcing.isWmConnected_of_some h.current]
    have hcreated : (s.createWindow ops).compositor.created = s.compositor.created ++
        (if true && s.compositor.desktop.wmConnected then
          some ⟨s.compositor.next⟩ else none : Option ObjectId).toList.map fun object =>
            (object, ⟨s.compositor.desktop.nextWindowId⟩) := rfl
    rw [hcreated, hconnected]
    exact List.mem_append_right _ List.mem_cons_self
  · exact List.mem_append_right _ List.mem_cons_self

section Layout

variable {layouts : List Tile} {surface : Surface}

theorem map_zip_obj {wm : TilingWm} (hlength : layouts.length = wm.windows.length) :
    (wm.windows.zip layouts).map (fun pair => pair.1.obj) = wm.objects := by
  have hfst : (wm.windows.zip layouts).map Prod.fst = wm.windows := List.map_fst_zip hlength.ge
  conv_rhs => rw [TilingWm.objects, ← hfst, List.map_map]
  rfl

/-- What is going to be asked of a window that has a tile. -/
theorem Managing.size_settled (h : s.Managing proto manager wm) {wm' : TilingWm}
    (hlength : layouts.length = wm'.windows.length) (hobjects : wm'.objects = s.known)
    {pair : Tiling.WindowState × Tile} (hpair : pair ∈ wm'.windows.zip layouts)
    (htarget : s.compositor.target pair.1.obj = some surface) (o : Outcome) :
    ((wm'.propose layouts).foldl (Outcome.apply s.compositor.target) o).size surface =
      some (pair.2.w, pair.2.h) := by
  have hears := (h.linked.running manager wm h.wm).hears
  have hknown : s.known = s.events.foldl TilingWm.knownAfter wm.objects := by
    unfold known
    rw [h.wm]
  have hmap : (wm'.windows.zip layouts).map (fun pair => pair.1.obj) = s.known := by
    rw [← hobjects]
    exact map_zip_obj hlength
  have hmem : ∀ other ∈ wm'.windows.zip layouts, other.1.obj ∈ s.known := by
    intro other hother
    rw [← hmap]
    exact List.mem_map_of_mem hother
  have hnodup : ((wm'.windows.zip layouts).map fun pair => pair.1.obj).Nodup := by
    rw [hmap, hknown]
    exact hears.nodup.sublist (TilingWm.foldl_knownAfter_sublist _ _)
  refine size_propose hpair htarget (fun other hother hsame => ?_) o
  have hobject := hears.target_inj h.linked.inv h.current (hknown ▸ hmem other hother)
    (hknown ▸ hmem pair hpair) hsame htarget
  exact List.inj_on_of_nodup_map hnodup hother hpair hobject

/-- The tile next to a window in the layout. -/
def tileIn (target : ObjectId → Option Surface) (pairs : List (Tiling.WindowState × Tile))
    (surface : Surface) : Tile :=
  ((pairs.find? fun pair => target pair.1.obj = some surface).map Prod.snd).getD ⟨0, 0, 0, 0⟩

/-- **The layout reaches the windows**: when a window has been created and all is settled, each
window that the WM knows has been asked for the size of its tile, and the new one has the focus. -/
theorem Managing.tiles (h : s.Managing proto manager wm)
    (hbounds : (s.createWindow ops).InBounds) :
    ∃ proto', (s.createWindow ops).Managing proto' manager wm ∧
      (s.createWindow ops).settled.focus = some s.nextWindow ∧
      (s.createWindow ops).Knows s.nextWindow ∧
      (8 * (s.createWindow ops).known.length + 2 * gap ≤ s.compositor.desktop.output.1 →
        8 * (s.createWindow ops).known.length + 2 * gap ≤ s.compositor.desktop.output.2 →
        ∃ tile : Surface → Tile,
          (∀ surface, (s.createWindow ops).Knows surface →
            (s.createWindow ops).settled.size surface = some ((tile surface).w, (tile surface).h) ∧
            (tile surface).Positive ∧ (tile surface).Inside ⟨gap, gap,
              s.compositor.desktop.output.1 - 2 * gap, s.compositor.desktop.output.2 - 2 * gap⟩) ∧
          ∀ surface surface', (s.createWindow ops).Knows surface →
            (s.createWindow ops).Knows surface' → surface ≠ surface' →
            (tile surface).Apart (tile surface')) := by
  obtain ⟨proto', wm', layouts, front, o, hmanaging, hlayouts, hlength, houtput, hknown, hfront,
    hsettled⟩ := h.createWindow ops hbounds
  have hnext := h.target_nextWindow ops hmanaging
  rw [List.foldl_append, apply_focusLast hfront hnext] at hsettled
  refine ⟨proto', hmanaging, congrArg Outcome.focus hsettled, ⟨⟨s.compositor.next⟩, ?_, hnext⟩,
    fun hwidth hheight => ?_⟩
  · rw [← hknown, hfront]
    exact List.mem_append_right _ List.mem_cons_self
  obtain ⟨target, htarget⟩ : ∃ target, target = (s.createWindow ops).compositor.target := ⟨_, rfl⟩
  have hwindows : wm'.windows.length = (s.createWindow ops).known.length := by
    rw [← hknown, TilingWm.objects, List.length_map]
  obtain ⟨houtputWidth, houtputHeight⟩ := Prod.mk.inj houtput
  obtain ⟨hgrowsWidth, hgrowsHeight⟩ : s.compositor.desktop.output.1 ≤ 2 ^ 16 ∧
      s.compositor.desktop.output.2 ≤ 2 ^ 16 := by
    obtain ⟨_, -, hgrows⟩ :=
      h.linked.step ops (.compositor (.announcing (.newToplevel true)))
    rw [← hgrows.output]
    exact ⟨hbounds.width.2, hbounds.height.2⟩
  obtain ⟨tiles, htiles, -, hapart, hinside⟩ := @calculateLayout_tiles wm'.outputWidth
    wm'.outputHeight wm'.windows.length
    ⟨by rw [hwindows, houtputWidth]; exact hwidth, houtputWidth ▸ hgrowsWidth⟩
    ⟨by rw [hwindows, houtputHeight]; exact hheight, houtputHeight ▸ hgrowsHeight⟩
  obtain rfl := Option.some.inj ((htiles _ le_rfl).symm.trans hlayouts)
  -- each window that the WM knows stands next to its tile
  have hpair : ∀ surface, (s.createWindow ops).Knows surface →
      ∃ pair ∈ wm'.windows.zip tiles, target pair.1.obj = some surface ∧
        tileIn target (wm'.windows.zip tiles) surface = pair.2 := by
    rintro surface ⟨object, hobject, hsurface⟩
    rw [← hknown, ← map_zip_obj hlength] at hobject
    obtain ⟨candidate, hcandidate, rfl⟩ := List.mem_map.mp hobject
    have hsome : ((wm'.windows.zip tiles).find? fun pair =>
        target pair.1.obj = some surface).isSome := by
      rw [List.find?_isSome]
      exact ⟨candidate, hcandidate, decide_eq_true (htarget ▸ hsurface)⟩
    obtain ⟨pair, hfind⟩ := Option.isSome_iff_exists.mp hsome
    refine ⟨pair, List.mem_of_find?_eq_some hfind, by simpa using List.find?_some hfind, ?_⟩
    unfold tileIn
    rw [hfind]
    rfl
  have hsnd : (wm'.windows.zip tiles).map Prod.snd = tiles := List.map_snd_zip hlength.le
  refine ⟨tileIn target (wm'.windows.zip tiles), fun surface hsurface => ?_,
    fun surface surface' hsurface hsurface' hne => ?_⟩
  · obtain ⟨pair, hmem, hpairTarget, htile⟩ := hpair surface hsurface
    have htileMem : pair.2 ∈ tiles := by
      rw [← hsnd]
      exact List.mem_map_of_mem hmem
    obtain ⟨hpositive, hin⟩ := hinside pair.2 htileMem
    rw [htile]
    refine ⟨?_, hpositive, by rw [← houtputWidth, ← houtputHeight]; exact hin⟩
    rw [hsettled]
    exact hmanaging.size_settled hlength hknown hmem (htarget ▸ hpairTarget) o
  · obtain ⟨pair, hmem, hpairTarget, htile⟩ := hpair surface hsurface
    obtain ⟨pair', hmem', hpairTarget', htile'⟩ := hpair surface' hsurface'
    rw [htile, htile']
    have : Std.Symm fun a b : Tiling.WindowState × Tile => a.2.Apart b.2 :=
      ⟨fun _ _ => apart_symm⟩
    rw [← hsnd, List.pairwise_map] at hapart
    refine hapart.forall hmem hmem' fun heq => hne ?_
    rw [heq, hpairTarget'] at hpairTarget
    exact (Option.some.inj hpairTarget).symm

end Layout

/-! ### Settling -/

/-- Events that a WM answers with requests. -/
def isPhase : WmServerEvent → Bool
  | .manageStart _ | .renderStart _ => true
  | _ => false

theorem requests_of_not_phase {wm' : TilingWm} {event : WmServerEvent}
    {requests : List TilingRequest} (hevent : wm.event event = some (wm', requests))
    (hphase : isPhase event = false) : requests = [] := by
  cases event with
  | manageStart _ | renderStart _ => exact absurd hphase nofun
  | replaced _ => exact absurd hevent nofun
  | _ => exact (Prod.mk.inj (Option.some.inj hevent)).2.symm

/-- **Everything can be settled**: in the end both sides have dealt with all that is on its way.
The WM reads the events first; then what the compositor answers to a request asks for nothing. -/
theorem Managing.exists_drained {s : TilingSystem P} {proto : WmProtocolState} {wm : TilingWm}
    (h : s.Managing proto manager wm) (hbounds : s.InBounds) :
    ∃ events : List TilingEvent, (∀ event ∈ events, Quiet event) ∧
      (events.foldl (TilingSystem.step ops) s).Drained := by
  have hthen : ∀ event : TilingEvent, Quiet event →
      (∃ events : List TilingEvent, (∀ event ∈ events, Quiet event) ∧
        (events.foldl (TilingSystem.step ops) (s.step ops event)).Drained) →
      ∃ events : List TilingEvent, (∀ event ∈ events, Quiet event) ∧
        (events.foldl (TilingSystem.step ops) s).Drained := by
    rintro event hquiet ⟨events, hevents, hdrained⟩
    exact ⟨event :: events, List.forall_mem_cons.mpr ⟨hquiet, hevents⟩, hdrained⟩
  cases hevents : s.events with
  | cons event events =>
    obtain ⟨wm', requests, hevent, hstep, hmanaging⟩ := h.deliver ops hbounds hevents
    rw [hstep] at hmanaging
    have hsmaller : Prod.Lex (· < ·) (Prod.Lex (· < ·) (· < ·))
        (events.countP isPhase, (s.requests ++ requests).length, events.length)
        (s.events.countP isPhase, s.requests.length, s.events.length) := by
      rw [hevents, List.length_cons]
      cases hphase : isPhase event with
      | true =>
        rw [List.countP_cons_of_pos hphase]
        exact .left _ _ (Nat.lt_succ_self _)
      | false =>
        rw [List.countP_cons_of_neg (ne_true_of_eq_false hphase),
          requests_of_not_phase hevent hphase, List.append_nil]
        exact .right _ (.right _ (Nat.lt_succ_self _))
    refine hthen .deliver trivial ?_
    rw [hstep]
    exact hmanaging.exists_drained ⟨hbounds.width, hbounds.height, hbounds.objects⟩
  | nil =>
    cases hrequests : s.requests with
    | nil => exact ⟨[], fun _ hmem => absurd hmem List.not_mem_nil, hevents, hrequests⟩
    | cons request requests =>
      obtain ⟨proto', new, hrest, hsent, hlisting, hnext, hmanaging, -⟩ :=
        h.handle ops hbounds .stored hrequests
      obtain ⟨_, -, hgrows⟩ := h.linked.step ops (.handle .stored)
      have hsmaller : Prod.Lex (· < ·) (Prod.Lex (· < ·) (· < ·))
          ((s.step ops (.handle .stored)).events.countP isPhase,
            (s.step ops (.handle .stored)).requests.length,
            (s.step ops (.handle .stored)).events.length)
          (s.events.countP isPhase, s.requests.length, s.events.length) := by
        have hcount : new.countP isPhase = 0 := by
          refine List.countP_eq_zero.mpr fun event hmem => ?_
          have hevent := hlisting event hmem
          cases event <;> first | exact Bool.false_ne_true | exact absurd hevent id
        rw [hsent, hrest, hevents, hrequests, List.nil_append, hcount, List.length_cons]
        exact .right _ (.left _ _ (Nat.lt_succ_self _))
      exact hthen (.handle .stored) trivial (hmanaging.exists_drained
        ⟨hgrows.output ▸ hbounds.width, hgrows.output ▸ hbounds.height,
          hnext.le.trans hbounds.objects⟩)
termination_by (s.events.countP isPhase, s.requests.length, s.events.length)
decreasing_by all_goals exact hsmaller

/-! ### Runs -/

/-- The system can get into the state. -/
def Reachable (ops : SpaceOps P) (output : ℤ × ℤ) (s : TilingSystem P) : Prop :=
  ∃ (space : P) (events : List TilingEvent), events.foldl (step ops) (start space output) = s

end TilingSystem

end WayRay
