import Mathlib.Data.String.Basic
import WayRay.Collections.HashMap

/-!
# Window-manager types

The types of `wm/types.rs` that window managers and the compositor share: windows, render commands,
borders, and the workspace model with the requests that change it.
-/

namespace WayRay

/-- Unique identifier of a managed window, assigned in increasing order. -/
structure WindowId where
  raw : ℕ
deriving DecidableEq

/-! ### Render commands -/

/-- Z-ordering directive for a window. -/
inductive ZOrder where
  | top
  | bottom
  /-- Directly above the given sibling. -/
  | above (sibling : WindowId)
  /-- Directly below the given sibling. -/
  | below (sibling : WindowId)
  /-- Keep the current z-order. -/
  | preserve
deriving DecidableEq

/-- Visual placement of a window during the render phase. -/
structure RenderCommand where
  id : WindowId
  position : ℤ × ℤ
  zOrder : ZOrder
  visible : Bool
deriving DecidableEq

/-! ### Borders -/

/-- Server-side border of a window; color channels are those of the wire. -/
structure BorderSpec where
  red : UInt8
  green : UInt8
  blue : UInt8
  alpha : UInt8
  width : ℤ
  width_pos : 0 < width
deriving DecidableEq

/-- Build a border from the arguments of a `set_borders` request; a non-positive width means no
border, channels are clamped to 255. -/
def BorderSpec.fromProtocol (red green blue alpha : UInt32) (width : ℤ) : Option BorderSpec :=
  if h : 0 < width then
    some ⟨(min red 255).toUInt8, (min green 255).toUInt8, (min blue 255).toUInt8,
      (min alpha 255).toUInt8, width, h⟩
  else none

/-! ### Workspaces -/

/-- The default (and currently only) output name. -/
def defaultOutput : String := "wayray-0"

/-- Workspace and tag visibility model. -/
structure WorkspaceState where
  /-- All known workspaces by name. -/
  workspaces : HashMap String Unit
  /-- Active workspace per output. -/
  active : HashMap String String
  defaultOutput : String
  /-- The workspace a window is assigned to. -/
  windowWorkspace : HashMap WindowId String
  /-- The tag bitmask of a window. -/
  windowTags : HashMap WindowId UInt32
  /-- Active tag bitmask per output. -/
  activeTags : HashMap String UInt32
  /-- The output a window is assigned to. -/
  windowOutput : HashMap WindowId String

namespace WorkspaceState

/-- The state a compositor starts with: the first tag is active on the default output. -/
def default : WorkspaceState where
  workspaces := ∅
  active := ∅
  defaultOutput := WayRay.defaultOutput
  windowWorkspace := ∅
  windowTags := ∅
  activeTags := HashMap.insert ∅ WayRay.defaultOutput 1
  windowOutput := ∅

/-- Create a named workspace (idempotent). -/
def createWorkspace (s : WorkspaceState) (name : String) : WorkspaceState :=
  { s with workspaces := s.workspaces.insert name () }

/-- Destroy a workspace: unassign its windows, and where it was active on an output fall back to the
first remaining workspace by name, or to none. -/
def destroyWorkspace (s : WorkspaceState) (name : String) : WorkspaceState :=
  let workspaces := s.workspaces.remove name
  let fallback := workspaces.keys.min?
  let affected := (s.active.toList.filter fun entry => entry.2 = name).map Prod.fst
  { s with
    workspaces := workspaces
    windowWorkspace := s.windowWorkspace.retain fun _ workspace => workspace != name
    active := affected.foldl
      (fun active out =>
        match fallback with
        | some next => active.insert out next
        | none => active.remove out)
      s.active }

/-- Set the active workspace on an output. -/
def setActiveWorkspace (s : WorkspaceState) (outputName workspaceName : String) : WorkspaceState :=
  { s with active := s.active.insert outputName workspaceName }

/-- Set the active tag bitmask on an output. -/
def setActiveTags (s : WorkspaceState) (outputName : String) (tags : UInt32) : WorkspaceState :=
  { s with activeTags := s.activeTags.insert outputName tags }

/-- Assign a window to a workspace, which clears its tags. -/
def assignWindow (s : WorkspaceState) (id : WindowId) (workspaceName : String) : WorkspaceState :=
  { s with
    windowWorkspace := s.windowWorkspace.insert id workspaceName
    windowTags := s.windowTags.remove id }

/-- Set the tag bitmask of a window, which clears its workspace. -/
def setWindowTags (s : WorkspaceState) (id : WindowId) (tags : UInt32) : WorkspaceState :=
  { s with
    windowTags := s.windowTags.insert id tags
    windowWorkspace := s.windowWorkspace.remove id }

/-- Assign a window to a named output. -/
def setWindowOutput (s : WorkspaceState) (id : WindowId) (outputName : String) : WorkspaceState :=
  { s with windowOutput := s.windowOutput.insert id outputName }

/-! ### Visibility -/

/-- The output that a name stands for; unknown names stand for the default output. -/
def outputKey (s : WorkspaceState) (output : String) : String :=
  if s.active.containsKey output || s.activeTags.containsKey output ||
    output == s.defaultOutput then output
  else s.defaultOutput

/-- The active tag bitmask of an output; the first tag by default. -/
def activeTagsFor (s : WorkspaceState) (output : String) : UInt32 :=
  (s.activeTags.get (s.outputKey output)).getD 1

/-- The active workspace of an output, if any. -/
def activeWorkspaceFor (s : WorkspaceState) (output : String) : Option String :=
  s.active.get (s.outputKey output)

/-- Whether a window's tags or its workspace let it be seen on an output. -/
def isActive (s : WorkspaceState) (id : WindowId) (output : String) : Bool :=
  match s.windowTags.get id with
  | some tags => tags &&& s.activeTagsFor output != 0
  | none =>
    match s.windowWorkspace.get id with
    | some workspace => s.activeWorkspaceFor output == some workspace
    | none => true

/-- Whether a window should be visible on an output.  A window assigned to another output is not. -/
def isVisible (s : WorkspaceState) (id : WindowId) (output : String) : Bool :=
  match s.windowOutput.get id with
  | some assigned => s.outputKey assigned == s.outputKey output && s.isActive id output
  | none => s.isActive id output

end WorkspaceState

end WayRay
