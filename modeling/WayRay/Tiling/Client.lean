import WayRay.Tiling.Crowded
import WayRay.Wm.Protocol

/-!
# The tiling window manager as a client

`wr-wm-tiling` on its side of the connection: `TilingWm` is its state, `TilingWm.event` what it does
with an event and what it asks for, `TilingWm.run` how it goes through a list of events.  It ends
when it is replaced, and would end if the layout overflowed, which it does not (`exists_run`).

Where its windows come from is clear from the events alone (`knownAfter`).
-/

namespace WayRay

namespace Tiling

/-! ### Requests -/

/-- What the tiling WM asks for. -/
inductive TilingRequest where
  | window (object : ObjectId) (request : WindowRequest)
  | manageDone
  | renderDone
  | getWorkspaceManager (workspaceManager : ObjectId)
  | createWorkspace (workspaceManager : ObjectId) (name : String)
  | setActiveWorkspace (workspaceManager : ObjectId) (outputName workspaceName : String)
deriving DecidableEq

/-- Set up a default workspace. -/
def setUp (workspaceManager : ObjectId) : List TilingRequest :=
  [.getWorkspaceManager workspaceManager, .createWorkspace workspaceManager "main",
    .setActiveWorkspace workspaceManager "wayray-0" "main"]

/-! ### State -/

/-- Per-window state tracked by the tiling WM. -/
structure WindowState where
  obj : ObjectId
  width : ℤ
  height : ℤ
deriving DecidableEq

structure TilingWm where
  windows : List WindowState
  outputWidth : ℤ
  outputHeight : ℤ
deriving DecidableEq

namespace TilingWm

def new : TilingWm := ⟨[], 1280, 720⟩

def objects (wm : TilingWm) : List ObjectId := wm.windows.map WindowState.obj

def calculateLayout (wm : TilingWm) : Option (List Tile) :=
  Tiling.calculateLayout wm.windows.length wm.outputWidth wm.outputHeight wm.windows.length

/-- The dimensions that the windows are to have. -/
def propose (wm : TilingWm) (layouts : List Tile) : List TilingRequest :=
  (wm.windows.zip layouts).map fun (window, tile) =>
    .window window.obj (.proposeDimensions tile.w tile.h)

/-- Focus the last (most recent) window. -/
def focusLast (wm : TilingWm) : List TilingRequest :=
  wm.windows.getLast?.toList.map fun last => .window last.obj .setFocus

/-- Where the windows are to be. -/
def arrange (wm : TilingWm) (layouts : List Tile) : List TilingRequest :=
  (wm.windows.zip layouts).flatMap fun (window, tile) =>
    [.window window.obj (.setPosition tile.x tile.y), .window window.obj .setZTop,
      .window window.obj .showWindow]

/-- The new state and the requests; none if the WM ends. -/
def event (wm : TilingWm) : WmServerEvent → Option (TilingWm × List TilingRequest)
  | .windowNew _ window => some ({ wm with windows := wm.windows ++ [⟨window, 0, 0⟩] }, [])
  | .windowClosed _ window =>
    some ({ wm with windows := wm.windows.filter fun w => w.obj ≠ window }, [])
  | .manageStart _ => do
    let layouts ← wm.calculateLayout
    return (wm, wm.propose layouts ++ wm.focusLast ++ [.manageDone])
  | .renderStart _ => do
    let layouts ← wm.calculateLayout
    return (wm, wm.arrange layouts ++ [.renderDone])
  | .outputNew _ _ width height =>
    some ({ wm with outputWidth := width, outputHeight := height }, [])
  | .replaced _ => none
  | .dimensions window width height =>
    let index := wm.windows.findIdx fun w => w.obj = window
    some ({ wm with
      windows := wm.windows.modify index fun w => { w with width := width, height := height } }, [])
  | .title _ _ | .appId _ _ | .done _ | .workspaceCreated _ _ | .workspaceDestroyed _ _ =>
    some (wm, [])

/-- The events one after the other, with all requests. -/
def run (wm : TilingWm) : List WmServerEvent → Option (TilingWm × List TilingRequest)
  | [] => some (wm, [])
  | event :: events => do
    let (wm, requests) ← wm.event event
    let (wm, more) ← wm.run events
    return (wm, requests ++ more)

variable {wm wm' : TilingWm} {event : WmServerEvent} {events events' : List WmServerEvent}
  {requests requests' : List TilingRequest}

theorem run_cons (wm : TilingWm) (event : WmServerEvent) (events : List WmServerEvent) :
    wm.run (event :: events) = (wm.event event).bind fun first =>
      (first.1.run events).map fun rest => (rest.1, first.2 ++ rest.2) := by
  rw [run]
  cases wm.event event with
  | none => rfl
  | some first =>
    simp only [Option.bind_eq_bind, Option.bind_some]
    cases first.1.run events <;> rfl

/-- Events in two parts. -/
theorem run_append (wm : TilingWm) (events events' : List WmServerEvent) :
    wm.run (events ++ events') = (wm.run events).bind fun first =>
      (first.1.run events').map fun rest => (rest.1, first.2 ++ rest.2) := by
  induction events generalizing wm with
  | nil => exact Option.map_id'.symm
  | cons event events ih =>
    rw [List.cons_append, run_cons, run_cons]
    cases wm.event event with
    | none => rfl
    | some first =>
      obtain ⟨wm₁, requests₁⟩ := first
      rw [Option.bind_some, Option.bind_some, ih]
      cases wm₁.run events with
      | none => rfl
      | some second =>
        simp only [Option.bind_some, Option.map_map, Option.map_some, Function.comp_def,
          List.append_assoc]

/-! ### What the events say -/

/-- The window objects that are known after an event. -/
def knownAfter (known : List ObjectId) : WmServerEvent → List ObjectId
  | .windowNew _ window => known ++ [window]
  | .windowClosed _ window => known.filter (· ≠ window)
  | _ => known

/-- The size of the output after an event. -/
def outputAfter (output : ℤ × ℤ) : WmServerEvent → ℤ × ℤ
  | .outputNew _ _ width height => (width, height)
  | _ => output

/-- The window object that an event announces. -/
def announces : WmServerEvent → Option ObjectId
  | .windowNew _ window => some window
  | _ => none

/-- Dimensions do not change which objects are known. -/
theorem objects_modify (windows : List WindowState) (index : ℕ) (width height : ℤ) :
    (windows.modify index fun w => { w with width := width, height := height }).map
      WindowState.obj = windows.map WindowState.obj := by
  induction windows generalizing index with
  | nil => cases index <;> rfl
  | cons window windows ih =>
    cases index with
    | zero => rfl
    | succ index => exact congrArg (window.obj :: ·) (ih index)

/-- What an event does to the state. -/
theorem event_spec (h : wm.event event = some (wm', requests)) :
    wm'.objects = knownAfter wm.objects event ∧
      (wm'.outputWidth, wm'.outputHeight) =
        outputAfter (wm.outputWidth, wm.outputHeight) event := by
  cases event with
  | windowNew manager window =>
    obtain ⟨rfl, -⟩ := Prod.mk.inj (Option.some.inj h)
    exact ⟨List.map_append, rfl⟩
  | windowClosed manager window =>
    obtain ⟨rfl, -⟩ := Prod.mk.inj (Option.some.inj h)
    refine ⟨?_, rfl⟩
    simp only [objects, knownAfter, List.filter_map]
    rfl
  | manageStart manager | renderStart manager =>
    obtain ⟨layouts, -, heq⟩ := Option.bind_eq_some_iff.mp h
    obtain ⟨rfl, -⟩ := Prod.mk.inj (Option.some.inj heq)
    exact ⟨rfl, rfl⟩
  | dimensions window width height =>
    obtain ⟨rfl, -⟩ := Prod.mk.inj (Option.some.inj h)
    exact ⟨objects_modify _ _ _ _, rfl⟩
  | replaced manager => exact absurd h nofun
  | outputNew _ _ _ _ | title _ _ | appId _ _ | done _ | workspaceCreated _ _
  | workspaceDestroyed _ _ =>
    obtain ⟨rfl, -⟩ := Prod.mk.inj (Option.some.inj h)
    exact ⟨rfl, rfl⟩

theorem run_spec (h : wm.run events = some (wm', requests)) :
    wm'.objects = events.foldl knownAfter wm.objects ∧
      (wm'.outputWidth, wm'.outputHeight) =
        events.foldl outputAfter (wm.outputWidth, wm.outputHeight) := by
  induction events generalizing wm requests with
  | nil =>
    obtain ⟨rfl, rfl⟩ := Prod.mk.inj (Option.some.inj h)
    exact ⟨rfl, rfl⟩
  | cons event events ih =>
    rw [run_cons] at h
    obtain ⟨⟨wm₁, requests₁⟩, hevent, hrest⟩ := Option.bind_eq_some_iff.mp h
    obtain ⟨⟨_, more⟩, hrun, heq⟩ := Option.map_eq_some_iff.mp hrest
    obtain ⟨rfl, -⟩ := Prod.mk.inj heq
    obtain ⟨hobjects, houtput⟩ := event_spec hevent
    rw [List.foldl_cons, List.foldl_cons, ← hobjects, ← houtput]
    exact ih hrun

/-- Only announced objects get known. -/
theorem knownAfter_sublist (known : List ObjectId) (event : WmServerEvent) :
    (knownAfter known event).Sublist (known ++ (announces event).toList) := by
  cases event with
  | windowNew manager window => exact List.Sublist.refl _
  | windowClosed manager window =>
    exact List.filter_sublist.trans (List.sublist_append_left _ _)
  | _ => exact List.sublist_append_left _ _

theorem foldl_knownAfter_sublist (known : List ObjectId) (events : List WmServerEvent) :
    (events.foldl knownAfter known).Sublist (known ++ events.filterMap announces) := by
  induction events generalizing known with
  | nil => exact List.sublist_append_left _ _
  | cons event events ih =>
    have hone := (knownAfter_sublist known event).append_right (events.filterMap announces)
    have hall := (ih (knownAfter known event)).trans hone
    cases hannounces : announces event with
    | none =>
      rw [List.filterMap_cons_none hannounces]
      rw [hannounces] at hall
      simpa using hall
    | some object =>
      rw [List.filterMap_cons_some hannounces]
      rw [hannounces] at hall
      simpa using hall

/-! ### No overflow -/

/-- The output and the number of windows, now and after the events, are within the bounds of the
layout. -/
structure Bounded (wm : TilingWm) (events : List WmServerEvent) : Prop where
  width : 0 ≤ wm.outputWidth ∧ wm.outputWidth ≤ 2 ^ 16
  height : 0 ≤ wm.outputHeight ∧ wm.outputHeight ≤ 2 ^ 16
  outputs : ∀ manager name width height, .outputNew manager name width height ∈ events →
    (0 ≤ width ∧ width ≤ 2 ^ 16) ∧ 0 ≤ height ∧ height ≤ 2 ^ 16
  windows : wm.windows.length + (events.filterMap announces).length ≤ 2 ^ 14

theorem Bounded.of_append (h : wm.Bounded (events ++ events')) : wm.Bounded events := by
  refine ⟨h.width, h.height, fun manager name width height hmem =>
    h.outputs manager name width height (List.mem_append_left _ hmem), ?_⟩
  have hwindows := h.windows
  rw [List.filterMap_append, List.length_append] at hwindows
  omega

theorem Bounded.exists_calculateLayout (h : wm.Bounded events) :
    ∃ layouts, wm.calculateLayout = some layouts ∧ layouts.length = wm.windows.length :=
  calculateLayout_crowded h.width h.height ((Nat.le_add_right _ _).trans h.windows) le_rfl

theorem Bounded.exists_event (h : wm.Bounded (event :: events))
    (hreplaced : ∀ manager, event ≠ .replaced manager) :
    ∃ wm' requests, wm.event event = some (wm', requests) ∧ wm'.Bounded events := by
  obtain ⟨layouts, hlayouts, -⟩ := h.exists_calculateLayout
  obtain ⟨hwidth, hheight, houtputs, hwindows⟩ := h
  have houtputs' : ∀ manager name width height, .outputNew manager name width height ∈ events →
      (0 ≤ width ∧ width ≤ 2 ^ 16) ∧ 0 ≤ height ∧ height ≤ 2 ^ 16 :=
    fun manager name width height hmem =>
      houtputs manager name width height (List.mem_cons_of_mem _ hmem)
  cases event with
  | windowNew manager window =>
    refine ⟨_, _, rfl, hwidth, hheight, houtputs', ?_⟩
    have hannounces : announces (.windowNew manager window) = some window := rfl
    rw [List.filterMap_cons_some hannounces, List.length_cons] at hwindows
    rw [List.length_append, List.length_singleton]
    omega
  | windowClosed manager window =>
    refine ⟨_, _, rfl, hwidth, hheight, houtputs', ?_⟩
    have hfilter := List.length_filter_le (fun w => decide (w.obj ≠ window)) wm.windows
    rw [List.filterMap_cons_none rfl] at hwindows
    exact (Nat.add_le_add_right hfilter _).trans hwindows
  | manageStart manager | renderStart manager =>
    simp only [TilingWm.event, hlayouts]
    exact ⟨_, _, rfl, hwidth, hheight, houtputs', hwindows⟩
  | dimensions window width height =>
    refine ⟨_, _, rfl, hwidth, hheight, houtputs', ?_⟩
    rw [List.length_modify]
    exact hwindows
  | replaced manager => exact absurd rfl (hreplaced manager)
  | outputNew manager name width height =>
    obtain ⟨hwidth', hheight'⟩ := houtputs manager name width height List.mem_cons_self
    exact ⟨_, _, rfl, hwidth', hheight', houtputs', hwindows⟩
  | title _ _ | appId _ _ | done _ | workspaceCreated _ _ | workspaceDestroyed _ _ =>
    exact ⟨_, _, rfl, hwidth, hheight, houtputs', hwindows⟩

/-- **The WM goes through all events** until it is replaced. -/
theorem exists_run (h : wm.Bounded events) (hreplaced : ∀ manager, .replaced manager ∉ events) :
    ∃ wm' requests, wm.run events = some (wm', requests) ∧ wm'.Bounded [] := by
  induction events generalizing wm with
  | nil => exact ⟨wm, [], rfl, h⟩
  | cons event events ih =>
    obtain ⟨wm₁, requests₁, hevent, hbounded⟩ := h.exists_event
      fun manager heq => hreplaced manager (heq ▸ List.mem_cons_self)
    obtain ⟨wm', requests', hrun, hend⟩ := ih hbounded
      fun manager hmem => hreplaced manager (List.mem_cons_of_mem _ hmem)
    exact ⟨wm', requests₁ ++ requests', by rw [run_cons, hevent, Option.bind_some, hrun]; rfl, hend⟩

end TilingWm

end Tiling

end WayRay
