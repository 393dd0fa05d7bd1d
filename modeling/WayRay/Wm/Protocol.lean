import Mathlib.Data.Finset.Insert
import Mathlib.Data.Finset.Erase
import WayRay.Wm.Types

/-!
# The WM protocol server

`wm/protocol.rs`: the state the compositor keeps for an external window manager, and what the
requests of its five interfaces, the destruction of its objects and the compositor's own
notifications do to it.

* `WmProtocolState` is the state.  Protocol objects stand as identities (`ObjectId`); the log `sent`
  of the events sent to window managers takes the place of the connection.
* `WmEvent` collects what can happen between two states, `WmProtocolState.step` applies it.
* Requests that place windows are accumulated (`accumulate`) until a frame takes them
  (`renderPhase`).  Requests that act on the compositor only, such as focusing a window, leave the
  state as it is.
-/

namespace WayRay

/-- Identity of a protocol object. -/
structure ObjectId where
  raw : ℕ
deriving DecidableEq

/-- What a window manager is told about a window. -/
structure WindowSnapshot where
  id : WindowId
  title : Option String
  appId : Option String
  width : ℤ
  height : ℤ
deriving DecidableEq

/-- Events sent to window managers. -/
inductive WmServerEvent where
  | outputNew (manager : ObjectId) (name : String) (width height : ℤ)
  | windowNew (manager window : ObjectId)
  | title (window : ObjectId) (title : String)
  | appId (window : ObjectId) (appId : String)
  | dimensions (window : ObjectId) (width height : ℤ)
  | done (window : ObjectId)
  | windowClosed (manager window : ObjectId)
  | manageStart (manager : ObjectId)
  | renderStart (manager : ObjectId)
  | replaced (manager : ObjectId)
  | workspaceCreated (workspaceManager : ObjectId) (name : String)
  | workspaceDestroyed (workspaceManager : ObjectId) (name : String)
deriving DecidableEq

/-- Events sent to the seat objects of window managers. -/
inductive WmSeatEvent where
  | bindingPressed (seat : ObjectId) (key modifiers : UInt32)
  | bindingReleased (seat : ObjectId) (key modifiers : UInt32)
deriving DecidableEq

/-- State of the WM protocol server. -/
structure WmProtocolState where
  /-- The currently bound manager. -/
  wmClient : Option ObjectId
  windowObjects : HashMap WindowId ObjectId
  /-- Render commands collected since the last frame that took them. -/
  pendingRenderCommands : List RenderCommand
  managePhaseActive : Bool
  renderPhaseActive : Bool
  /-- Registered keybindings: key, modifiers, mode. -/
  keybindings : Finset (UInt32 × UInt32 × String)
  bindingModes : Finset String
  /-- The active binding mode; the empty string is the default mode. -/
  activeMode : String
  wmSeat : Option ObjectId
  workspace : WorkspaceState
  workspaceManager : Option ObjectId
  borders : HashMap WindowId BorderSpec
  /-- The events sent so far. -/
  sent : List WmServerEvent

/-! ### Requests -/

inductive ManagerRequest where
  | manageDone
  | renderDone
  | getSeat
  /-- The workspace names are resent in the order of a hash map. -/
  | getWorkspaceManager (id : ObjectId) (keys : Enumeration String)
  | destroy

inductive WindowRequest where
  | proposeDimensions (width height : ℤ)
  | setFocus
  | useSsd
  | useCsd
  | grantFullscreen
  | denyFullscreen
  | close
  | setPosition (x y : ℤ)
  | setZTop
  | setZBottom
  | setZAbove (sibling : ObjectId)
  | setZBelow (sibling : ObjectId)
  | showWindow
  | hideWindow
  | setBorders (red green blue alpha : UInt32) (width : ℤ)
  | setOutput (outputName : String)
  | destroy
deriving DecidableEq

inductive SeatRequest where
  | bindKey (key modifiers : UInt32) (mode : String)
  | unbindKey (key modifiers : UInt32) (mode : String)
  | createMode (name : String)
  | activateMode (name : String)
  | startMove
  | startResize
  | destroy
deriving DecidableEq

inductive WorkspaceRequest where
  | createWorkspace (name : String)
  | destroyWorkspace (name : String)
  | setActiveWorkspace (outputName workspaceName : String)
  | assignWindow (window : ObjectId) (workspaceName : String)
  | setWindowTags (window : ObjectId) (tags : UInt32)
  | setActiveTags (outputName : String) (tags : UInt32)
  | destroy
deriving DecidableEq

/-! ### Accumulating render requests -/

/-- A render-phase request, its sibling resolved. -/
inductive RenderRequest where
  | setPosition (x y : ℤ)
  | setZOrder (zOrder : ZOrder)
  | setVisible (visible : Bool)
deriving DecidableEq

/-- Change the first pending command for a window; without one, change a command that places it at
the origin and push that. -/
def amend (id : WindowId) (change : RenderCommand → RenderCommand) :
    List RenderCommand → List RenderCommand
  | [] => [change ⟨id, (0, 0), .preserve, true⟩]
  | cmd :: cmds => if cmd.id = id then change cmd :: cmds else cmd :: amend id change cmds

/-- Accumulate a request into the pending commands. -/
def accumulate (pending : List RenderCommand) (id : WindowId) : RenderRequest → List RenderCommand
  -- even if a command for the window is pending already
  | .setPosition x y => pending ++ [⟨id, (x, y), .preserve, true⟩]
  | .setZOrder zOrder => amend id (fun cmd => { cmd with zOrder := zOrder }) pending
  | .setVisible visible => amend id (fun cmd => { cmd with visible := visible }) pending

/-- What happens to the protocol state. -/
inductive WmEvent where
  /-- A client binds the manager global.  A window is announced if an object for it could be
  created. -/
  | bind (manager : ObjectId) (outputs : List (String × ℤ × ℤ))
    (existing : List (WindowSnapshot × Option ObjectId))
  | managerRequest (request : ManagerRequest)
  | managerDestroyed (manager : ObjectId)
  | windowRequest (id : WindowId) (request : WindowRequest)
  | windowDestroyed (id : WindowId)
  | seatRequest (seat : ObjectId) (request : SeatRequest)
  | workspaceRequest (workspaceManager : ObjectId) (request : WorkspaceRequest)
  /-- A toplevel is created. -/
  | newWindow (window : WindowSnapshot) (object : Option ObjectId)
  | windowClosed (id : WindowId)
  /-- The manage phase begins. -/
  | managePhase
  /-- A frame is rendered. -/
  | tick

namespace WmProtocolState

/-- The state a compositor starts with. -/
def new : WmProtocolState where
  wmClient := none
  windowObjects := ∅
  pendingRenderCommands := []
  managePhaseActive := false
  renderPhaseActive := false
  keybindings := ∅
  bindingModes := ∅
  activeMode := ""
  wmSeat := none
  workspace := .default
  workspaceManager := none
  borders := ∅
  sent := []

/-- Whether an external WM is currently connected. -/
def isWmConnected (s : WmProtocolState) : Bool := s.wmClient.isSome

def send (s : WmProtocolState) (events : List WmServerEvent) : WmProtocolState :=
  { s with sent := s.sent ++ events }

/-! ### Windows come and go -/

/-- Send `window_new` with the initial properties, if there is an object for the window. -/
def announce (s : WmProtocolState) (manager : ObjectId) (window : WindowSnapshot) :
    Option ObjectId → WmProtocolState
  | none => s
  | some object =>
    { s with windowObjects := s.windowObjects.insert window.id object }.send
      ([WmServerEvent.windowNew manager object] ++
        window.title.toList.map (WmServerEvent.title object) ++
        window.appId.toList.map (WmServerEvent.appId object) ++
        [WmServerEvent.dimensions object window.width window.height, WmServerEvent.done object])

def notifyNewWindow (s : WmProtocolState) (window : WindowSnapshot) (object : Option ObjectId) :
    WmProtocolState :=
  match s.wmClient with
  | none => s
  | some manager => s.announce manager window object

section NewWindow

variable {s : WmProtocolState}

@[simp]
theorem wmClient_announce (s : WmProtocolState) (manager : ObjectId) (window : WindowSnapshot)
    (object : Option ObjectId) : (s.announce manager window object).wmClient = s.wmClient := by
  cases object <;> rfl

theorem notifyNewWindow_of_not_connected (hclient : s.wmClient = none) (window : WindowSnapshot)
    (object : Option ObjectId) : s.notifyNewWindow window object = s := by
  rw [notifyNewWindow, hclient]

theorem notifyNewWindow_of_connected {manager : ObjectId} (hclient : s.wmClient = some manager)
    (window : WindowSnapshot) (object : Option ObjectId) :
    s.notifyNewWindow window object = s.announce manager window object := by
  rw [notifyNewWindow, hclient]

end NewWindow

def notifyWindowClosed (s : WmProtocolState) (id : WindowId) : WmProtocolState :=
  let s := { s with borders := s.borders.remove id }
  match s.wmClient, s.windowObjects.get id with
  | some manager, some object =>
    { s with windowObjects := s.windowObjects.remove id }.send [.windowClosed manager object]
  | _, _ => s

/-- Look up a window from its protocol object. -/
def windowIdForResource (s : WmProtocolState) (resource : ObjectId) : Option WindowId :=
  (s.windowObjects.toList.find? fun entry => entry.2 = resource).map Prod.fst

/-! ### Key bindings -/

/-- Whether a binding of the default mode, or of the active mode, is registered for the key and the
modifiers. -/
def isBound (s : WmProtocolState) (key modifiers : UInt32) : Bool :=
  decide ((key, modifiers, "") ∈ s.keybindings) ||
    (s.activeMode != "" && decide ((key, modifiers, s.activeMode) ∈ s.keybindings))

/-- Check if a binding is registered for the key and the modifiers.  Returns whether one is, and the
event for the WM's seat object. -/
def checkKeyBinding (s : WmProtocolState) (key modifiers : UInt32) (pressed : Bool) :
    Bool × List WmSeatEvent :=
  if !s.isBound key modifiers then (false, [])
  else
    (true, s.wmSeat.toList.map fun seat =>
      if pressed then .bindingPressed seat key modifiers
      else .bindingReleased seat key modifiers)

/-! ### Phases -/

/-- Send `manage_start` to begin the manage phase. -/
def startManagePhase (s : WmProtocolState) : WmProtocolState :=
  match s.wmClient with
  | some manager => { s with managePhaseActive := true }.send [.manageStart manager]
  | none => s

/-- Send `render_start` to begin the render phase. -/
def startRenderPhase (s : WmProtocolState) : WmProtocolState :=
  match s.wmClient with
  | some manager =>
    -- what has been collected since the last frame is dropped
    { s with pendingRenderCommands := [], renderPhaseActive := true }.send [.renderStart manager]
  | none => s

/-- Take the collected render commands. -/
def takeRenderCommands (s : WmProtocolState) : List RenderCommand × WmProtocolState :=
  (s.pendingRenderCommands, { s with pendingRenderCommands := [] })

/-- The render phase of a frame: the commands of the external WM that the frame applies; none if it
applies those of the built-in WM. -/
def renderPhase (s : WmProtocolState) : Option (List RenderCommand) × WmProtocolState :=
  if s.isWmConnected then
    let (commands, s) := s.startRenderPhase.takeRenderCommands
    (some commands, s)
  else (none, s)

/-! ### Dispatch -/

/-- A client binds the manager; a previous one is replaced. -/
def bind (s : WmProtocolState) (manager : ObjectId) (outputs : List (String × ℤ × ℤ))
    (existing : List (WindowSnapshot × Option ObjectId)) : WmProtocolState :=
  let s :=
    match s.wmClient with
    -- keybindings, binding mode and pending commands pass to the new manager
    | some old => { s with windowObjects := ∅, borders := ∅ }.send [.replaced old]
    | none => s
  let s := { s with wmClient := some manager }.send
    (outputs.map fun (name, width, height) => .outputNew manager name width height)
  existing.foldl (fun s (window, object) => s.announce manager window object) s

def managerRequest (s : WmProtocolState) : ManagerRequest → WmProtocolState
  | .manageDone => { s with managePhaseActive := false }
  | .renderDone => { s with renderPhaseActive := false }
  | .getWorkspaceManager id keys =>
    { s with workspaceManager := some id }.send
      ((keys.order s.workspace.workspaces.keys).map (.workspaceCreated id))
  | .getSeat | .destroy => s

def managerDestroyed (s : WmProtocolState) (manager : ObjectId) : WmProtocolState :=
  -- a manager that has been replaced takes nothing with it
  if s.wmClient = some manager then
    { s with
      wmClient := none
      windowObjects := ∅
      managePhaseActive := false
      renderPhaseActive := false
      keybindings := ∅
      wmSeat := none
      activeMode := ""
      borders := ∅ }
  else s

/-- The render request in a window request; none if it is of another kind or its sibling is
unknown. -/
def renderRequest (s : WmProtocolState) : WindowRequest → Option RenderRequest
  | .setPosition x y => some (.setPosition x y)
  | .setZTop => some (.setZOrder .top)
  | .setZBottom => some (.setZOrder .bottom)
  | .setZAbove sibling => (s.windowIdForResource sibling).map fun id => .setZOrder (.above id)
  | .setZBelow sibling => (s.windowIdForResource sibling).map fun id => .setZOrder (.below id)
  | .showWindow => some (.setVisible true)
  | .hideWindow => some (.setVisible false)
  | _ => none

def windowRequest (s : WmProtocolState) (id : WindowId) (request : WindowRequest) :
    WmProtocolState :=
  match s.renderRequest request with
  | some render =>
    { s with pendingRenderCommands := accumulate s.pendingRenderCommands id render }
  | none =>
    match request with
    | .setBorders red green blue alpha width =>
      match BorderSpec.fromProtocol red green blue alpha width with
      | some spec => { s with borders := s.borders.insert id spec }
      | none => { s with borders := s.borders.remove id }
    | .setOutput outputName => { s with workspace := s.workspace.setWindowOutput id outputName }
    | _ => s

def windowDestroyed (s : WmProtocolState) (id : WindowId) : WmProtocolState :=
  { s with windowObjects := s.windowObjects.remove id, borders := s.borders.remove id }

def seatRequest (s : WmProtocolState) (seat : ObjectId) (request : SeatRequest) : WmProtocolState :=
  -- the first request of a seat object makes it the one that binding events go to
  let s := { s with wmSeat := some (s.wmSeat.getD seat) }
  match request with
  | .bindKey key modifiers mode =>
    { s with keybindings := insert (key, modifiers, mode) s.keybindings }
  | .unbindKey key modifiers mode =>
    { s with keybindings := s.keybindings.erase (key, modifiers, mode) }
  | .createMode name => { s with bindingModes := insert name s.bindingModes }
  | .activateMode name => { s with activeMode := name }
  | .startMove | .startResize => s
  | .destroy => { s with wmSeat := none, keybindings := ∅ }

def workspaceRequest (s : WmProtocolState) (resource : ObjectId) :
    WorkspaceRequest → WmProtocolState
  | .createWorkspace name =>
    { s with workspace := s.workspace.createWorkspace name }.send [.workspaceCreated resource name]
  | .destroyWorkspace name =>
    { s with workspace := s.workspace.destroyWorkspace name }.send
      [.workspaceDestroyed resource name]
  | .setActiveWorkspace outputName workspaceName =>
    { s with workspace := s.workspace.setActiveWorkspace outputName workspaceName }
  | .assignWindow window workspaceName =>
    match s.windowIdForResource window with
    | some id => { s with workspace := s.workspace.assignWindow id workspaceName }
    | none => s
  | .setWindowTags window tags =>
    match s.windowIdForResource window with
    | some id => { s with workspace := s.workspace.setWindowTags id tags }
    | none => s
  | .setActiveTags outputName tags =>
    { s with workspace := s.workspace.setActiveTags outputName tags }
  | .destroy => { s with workspaceManager := none }

def step (s : WmProtocolState) : WmEvent → WmProtocolState
  | .bind manager outputs existing => s.bind manager outputs existing
  | .managerRequest request => s.managerRequest request
  | .managerDestroyed manager => s.managerDestroyed manager
  | .windowRequest id request => s.windowRequest id request
  | .windowDestroyed id => s.windowDestroyed id
  | .seatRequest seat request => s.seatRequest seat request
  | .workspaceRequest resource request => s.workspaceRequest resource request
  | .newWindow window object => s.notifyNewWindow window object
  | .windowClosed id => s.notifyWindowClosed id
  | .managePhase => s.startManagePhase
  | .tick => s.renderPhase.2

end WmProtocolState

end WayRay
