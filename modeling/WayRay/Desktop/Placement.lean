import WayRay.Desktop.Render

/-!
# Placing windows by batches

A window manager that sends position and visibility requests one at a time moves and shows windows
as it says.  `requested` is what the requests of a batch amount to when read this way, and
`asRequested_iff` says for which windows applying the accumulated commands does the same.

It does not where a command has a field that no request set: a request to stack or show a window
without a position takes it to the origin, a position maps a window that is hidden, and a window
without any command is not looked at.
-/

namespace WayRay

open WmProtocolState

/-! ### One request at a time -/

/-- Where a window is and whether it is shown. -/
structure Placement where
  position : ℤ × ℤ
  mapped : Bool
deriving DecidableEq

namespace Placement

/-- A window after one request. -/
def perform (placement : Placement) : RenderRequest → Placement
  | .setPosition x y => { placement with position := (x, y) }
  | .setVisible visible => { placement with mapped := visible }
  | .setZOrder _ => placement

def performAll (placement : Placement) (requests : List RenderRequest) : Placement :=
  requests.foldl perform placement

/-- Where a window in the arrangement is. -/
def location (placement : Placement) : Option (ℤ × ℤ) :=
  if placement.mapped then some placement.position else none

end Placement

def RenderRequest.isVisibility : RenderRequest → Bool
  | .setVisible _ => true
  | .setPosition _ _ | .setZOrder _ => false

namespace Placement

variable {placement : Placement} {requests : List RenderRequest}

section Field

variable {β : Type} {field : Placement → β} {sets : RenderRequest → Bool}

/-- A field is what the last request that sets it says, where there is one ... -/
theorem field_performAll_congr
    (hset : ∀ request, sets request = true →
      ∀ p q, field (perform p request) = field (perform q request))
    (hkeep : ∀ request, sets request = false → ∀ p, field (perform p request) = field p)
    (h : requests.any sets = true) (other : Placement) :
    field (placement.performAll requests) = field (other.performAll requests) := by
  induction requests using List.reverseRecOn with
  | nil => exact absurd h Bool.false_ne_true
  | append_singleton requests request ih =>
    rw [performAll, performAll, List.foldl_append, List.foldl_append]
    cases hsets : sets request with
    | true => exact hset request hsets _ _
    | false =>
      have hany : requests.any sets = true := by simpa [hsets] using h
      exact (hkeep request hsets _).trans ((ih hany).trans (hkeep request hsets _).symm)

/-- ... and stays what it was, where there is none. -/
theorem field_performAll
    (hkeep : ∀ request, sets request = false → ∀ p, field (perform p request) = field p)
    (h : requests.any sets = false) : field (placement.performAll requests) = field placement := by
  induction requests generalizing placement with
  | nil => rfl
  | cons request requests ih =>
    rw [List.any_cons, Bool.or_eq_false_iff] at h
    exact (ih h.2).trans (hkeep request h.1 placement)

end Field

theorem position_perform {request : RenderRequest} (h : request.isPosition = false)
    (p : Placement) : (perform p request).position = p.position := by
  cases request with
  | setPosition _ _ => exact absurd h Bool.false_ne_true.symm
  | setZOrder _ | setVisible _ => rfl

theorem mapped_perform {request : RenderRequest} (h : request.isVisibility = false)
    (p : Placement) : (perform p request).mapped = p.mapped := by
  cases request with
  | setVisible _ => exact absurd h Bool.false_ne_true.symm
  | setZOrder _ | setPosition _ _ => rfl

theorem position_performAll (h : requests.any RenderRequest.isPosition = false) :
    (placement.performAll requests).position = placement.position :=
  field_performAll (fun _ h p => position_perform h p) h

theorem mapped_performAll (h : requests.any RenderRequest.isVisibility = false) :
    (placement.performAll requests).mapped = placement.mapped :=
  field_performAll (fun _ h p => mapped_perform h p) h

theorem position_performAll_congr (h : requests.any RenderRequest.isPosition = true)
    (other : Placement) :
    (placement.performAll requests).position = (other.performAll requests).position := by
  refine field_performAll_congr (fun request hset p q => ?_) (fun _ h p => position_perform h p) h
    other
  cases request with
  | setPosition _ _ => rfl
  | setZOrder _ | setVisible _ => exact absurd hset Bool.false_ne_true

theorem mapped_performAll_congr (h : requests.any RenderRequest.isVisibility = true)
    (other : Placement) :
    (placement.performAll requests).mapped = (other.performAll requests).mapped := by
  refine field_performAll_congr (fun request hset p q => ?_) (fun _ h p => mapped_perform h p) h
    other
  cases request with
  | setVisible _ => rfl
  | setZOrder _ | setPosition _ _ => exact absurd hset Bool.false_ne_true

end Placement

/-! ### The commands of one window -/

/-- What a command says about its window. -/
def placementOf (cmd : RenderCommand) : Placement := ⟨cmd.position, cmd.visible⟩

/-- The placement that a window is taken to have where no request says otherwise. -/
def defaultPlacement : Placement := ⟨(0, 0), true⟩

/-- The commands that the requests for one window amount to.  Without a position after another
request there is one, with what the requests make of the default placement; otherwise the last one
maps the window at the last position. -/
structure Amounts (id : WindowId) (requests : List RenderRequest)
    (commands : List RenderCommand) : Prop where
  ids : ∀ cmd ∈ commands, cmd.id = id
  single : requests ≠ [] → requests.tail.any RenderRequest.isPosition = false →
    ∃ cmd, commands = [cmd] ∧ placementOf cmd = defaultPlacement.performAll requests
  several : requests.tail.any RenderRequest.isPosition = true →
    ∃ cmds cmd, cmds ≠ [] ∧ commands = cmds ++ [cmd] ∧
      cmd.position = (defaultPlacement.performAll requests).position ∧ cmd.visible = true

@[simp] theorem placementOf_amended (cmd : RenderCommand) (request : RenderRequest) :
    placementOf (amended cmd request) = (placementOf cmd).perform request := by
  cases request <;> rfl

theorem accumulate_of_isPosition {request : RenderRequest} (h : request.isPosition = true)
    (pending : List RenderCommand) (id : WindowId) :
    accumulate pending id request = pending ++ [pushed id request] := by
  cases request with
  | setPosition _ _ => rfl
  | setZOrder _ | setVisible _ => exact absurd h Bool.false_ne_true

theorem accumulate_cons {request : RenderRequest} (h : request.isPosition = false)
    {id : WindowId} {cmd : RenderCommand} (hid : cmd.id = id) (cmds : List RenderCommand) :
    accumulate (cmd :: cmds) id request = amended cmd request :: cmds := by
  cases request with
  | setPosition _ _ => exact absurd h Bool.false_ne_true.symm
  | setZOrder _ | setVisible _ => exact if_pos hid

theorem amounts_accumulateAll (id : WindowId) (requests : List RenderRequest) :
    Amounts id requests (accumulateAll (requests.map fun request => (id, request))) := by
  induction requests using List.reverseRecOn with
  | nil => exact ⟨nofun, fun h => absurd rfl h, nofun⟩
  | append_singleton requests request ih =>
    rw [List.map_append, List.map_singleton, accumulateAll_concat]
    rcases eq_or_ne requests [] with rfl | hne
    · -- the first request makes a command of its own
      have hfirst : accumulate (accumulateAll []) id request = [pushed id request] := by
        cases request <;> rfl
      rw [List.map_nil, hfirst]
      refine ⟨fun cmd hcmd => ?_, fun _ _ => ⟨_, rfl, placementOf_amended _ request⟩, nofun⟩
      rw [List.mem_singleton.mp hcmd, pushed_id]
    · have htail : (requests ++ [request]).tail.any RenderRequest.isPosition =
          (requests.tail.any RenderRequest.isPosition || request.isPosition) := by
        rw [List.tail_append_of_ne_nil hne, List.any_append, List.any_cons, List.any_nil,
          Bool.or_false]
      have hperform : defaultPlacement.performAll (requests ++ [request]) =
          (defaultPlacement.performAll requests).perform request := List.foldl_append
      have hcommands : accumulateAll (requests.map fun request => (id, request)) ≠ [] := by
        rwa [Ne, accumulateAll_eq_nil, List.map_eq_nil_iff]
      cases hposition : request.isPosition with
      | true =>
        rw [accumulate_of_isPosition hposition]
        rw [hposition, Bool.or_true] at htail
        refine ⟨fun cmd hcmd => ?_, fun _ hnone => ?_, fun _ => ⟨_, _, hcommands, rfl, ?_⟩⟩
        · rcases List.mem_append.mp hcmd with hold | hnew
          · exact ih.ids cmd hold
          · rw [List.mem_singleton.mp hnew, pushed_id]
        · exact absurd (htail.symm.trans hnone) Bool.false_ne_true.symm
        · rw [hperform]
          cases request with
          | setPosition x y => exact ⟨rfl, rfl⟩
          | setZOrder _ | setVisible _ => exact absurd hposition Bool.false_ne_true
      | false =>
        rw [hposition, Bool.or_false] at htail
        obtain ⟨first, cmds, hsplit⟩ := List.exists_cons_of_ne_nil hcommands
        rw [hsplit] at ih ⊢
        obtain ⟨hfirst, hothers⟩ := List.forall_mem_cons.mp ih.ids
        rw [accumulate_cons hposition hfirst]
        refine ⟨List.forall_mem_cons.mpr ⟨(amended_id first request).trans hfirst, hothers⟩,
          fun _ hnone => ?_, fun hsome => ?_⟩
        · obtain ⟨cmd, heq, hcmd⟩ := ih.single hne (htail.symm.trans hnone)
          obtain ⟨rfl, rfl⟩ := List.cons.inj heq
          exact ⟨_, rfl, by rw [placementOf_amended, hcmd, hperform]⟩
        · obtain ⟨front, cmd, hfront, heq, hpos, hvisible⟩ := ih.several (htail.symm.trans hsome)
          obtain ⟨head, front, rfl⟩ := List.exists_cons_of_ne_nil hfront
          obtain ⟨rfl, rfl⟩ := List.cons.inj heq
          refine ⟨_, cmd, List.cons_ne_nil _ front, rfl, ?_, hvisible⟩
          rw [hperform, Placement.position_perform hposition, hpos]

/-! ### Batches -/

namespace DesktopState

variable {P : Type} {ops : StackedSpace P} {d : DesktopState P}

/-- The requests for a window. -/
def requestsOf (requests : List (WindowId × RenderRequest)) (id : WindowId) :
    List RenderRequest :=
  (requests.filter fun request => request.1 = id).map Prod.snd

/-- The placements that windows have in an arrangement; windows that are not mapped have one
too. -/
def Placed (ops : StackedSpace P) (d : DesktopState P) (placement : WindowId → Placement) : Prop :=
  ∀ entry ∈ d.windowIds, ops.location entry.2 d.space = (placement entry.1).location

/-- The placement of a window after its requests are performed one at a time, and its workspace is
taken into account. -/
def requested (d : DesktopState P) (placement : WindowId → Placement)
    (requests : List (WindowId × RenderRequest)) (id : WindowId) : Placement :=
  let performed := (placement id).performAll (requestsOf requests id)
  { performed with mapped := performed.mapped && d.workspaceVisible id }

/-- The window is placed as requested. -/
def AsRequested (ops : StackedSpace P) (d : DesktopState P) (placement : WindowId → Placement)
    (requests : List (WindowId × RenderRequest)) (entry : WindowId × Surface) : Prop :=
  ops.location entry.2 (d.applyRenderCommands ops (accumulateAll requests)).space =
    (d.requested placement requests entry.1).location

/-- No request of the batch relies on what the compositor fills in.  A window without requests is
not mapped while its workspace is not shown.  Of a window with requests, where its workspace is
shown: if it is to be shown, then the batch says where, unless it is at the origin; if it is not,
then the batch says so, and no position comes after another request for it. -/
def Explicit (before : Placement) (visible : Bool) : List RenderRequest → Prop
  | [] => before.mapped = true → visible = true
  | first :: rest => visible = true →
    if (before.performAll (first :: rest)).mapped then
      (first :: rest).any RenderRequest.isPosition = true ∨ before.position = (0, 0)
    else
      (first :: rest).any RenderRequest.isVisibility = true ∧
        rest.any RenderRequest.isPosition = false

/-- Where a window is after a batch: the last command that its own requests amount to says so. -/
theorem location_applyRenderCommands (h : d.Managed) (requests : List (WindowId × RenderRequest))
    {id : WindowId} {window : Surface} (hentry : (id, window) ∈ d.windowIds) :
    ops.location window (d.applyRenderCommands ops (accumulateAll requests)).space =
      match
        (accumulateAll ((requestsOf requests id).map fun request => (id, request))).getLast? with
      | some cmd => if d.shows cmd then some cmd.position else none
      | none => ops.location window d.space := by
  have hown : (requestsOf requests id).map (fun request => (id, request)) =
      requests.filter fun request => request.1 = id := by
    rw [requestsOf, List.map_map]
    refine (List.map_congr_left fun request hrequest => ?_).trans (List.map_id _)
    exact Prod.ext (of_decide_eq_true (List.mem_filter.mp hrequest).2).symm rfl
  rw [hown, ← filter_accumulateAll]
  exact (location_restackSpace _ _ window).trans (location_foldl_placeWindow h hentry d.space _)

/-- Nothing is requested of the window. -/
theorem location_eq_location_and_iff (before : Placement) (visible : Bool) :
    before.location = Placement.location { before with mapped := before.mapped && visible } ↔
      (before.mapped = true → visible = true) := by
  obtain ⟨position, mapped⟩ := before
  cases mapped <;> cases visible <;> simp [Placement.location]

/-- A window goes where the requests say, or to the origin. -/
theorem position_defaultPlacement_iff (requests : List RenderRequest) (before : Placement) :
    (defaultPlacement.performAll requests).position = (before.performAll requests).position ↔
      requests.any RenderRequest.isPosition = true ∨ before.position = (0, 0) := by
  cases hany : requests.any RenderRequest.isPosition with
  | true => exact iff_of_true (Placement.position_performAll_congr hany before) (.inl rfl)
  | false =>
    rw [Placement.position_performAll hany, Placement.position_performAll hany]
    exact eq_comm.trans (or_iff_right Bool.false_ne_true).symm

/-- The commands of a window whose workspace is shown place it as requested exactly if the requests
are explicit. -/
theorem location_getLast?_iff {id : WindowId} {first : RenderRequest} {rest : List RenderRequest}
    {commands : List RenderCommand} (hamounts : Amounts id (first :: rest) commands)
    {last : RenderCommand} (hlast : commands.getLast? = some last) (before : Placement) :
    (placementOf last).location = (before.performAll (first :: rest)).location ↔
      if (before.performAll (first :: rest)).mapped then
        (first :: rest).any RenderRequest.isPosition = true ∨ before.position = (0, 0)
      else
        (first :: rest).any RenderRequest.isVisibility = true ∧
          rest.any RenderRequest.isPosition = false := by
  have hposition := position_defaultPlacement_iff (first :: rest) before
  cases hrest : rest.any RenderRequest.isPosition with
  | true =>
    obtain ⟨cmds, cmd, -, heq, hpos, hvisible⟩ := hamounts.several hrest
    rw [heq, List.getLast?_concat] at hlast
    obtain rfl := Option.some.inj hlast
    have hany : (first :: rest).any RenderRequest.isPosition = true := by
      rw [List.any_cons, hrest, Bool.or_true]
    have hshown :
        (placementOf cmd).location = some (before.performAll (first :: rest)).position := by
      rw [Placement.location, placementOf, if_pos hvisible, hpos, hposition.mpr (.inl hany)]
    rw [hshown]
    cases hmapped : (before.performAll (first :: rest)).mapped <;>
      simp [Placement.location, hmapped, hany]
  | false =>
    obtain ⟨cmd, heq, hcmd⟩ := hamounts.single (List.cons_ne_nil _ _) hrest
    rw [heq, List.getLast?_singleton] at hlast
    obtain rfl := Option.some.inj hlast
    rw [hcmd]
    cases hvisibility : (first :: rest).any RenderRequest.isVisibility with
    | true =>
      -- both are shown, or none
      have hsame : (before.performAll (first :: rest)).mapped =
          (defaultPlacement.performAll (first :: rest)).mapped :=
        Placement.mapped_performAll_congr hvisibility defaultPlacement
      unfold Placement.location
      rw [hsame]
      split_ifs
      · rw [Option.some_inj]
        exact hposition
      · simp
    | false =>
      -- the command shows the window
      have hshown : (defaultPlacement.performAll (first :: rest)).mapped = true :=
        Placement.mapped_performAll hvisibility
      unfold Placement.location
      rw [if_pos hshown]
      split_ifs
      · rw [Option.some_inj]
        exact hposition
      · simp

/-- A window is placed as requested exactly if its requests are explicit. -/
theorem asRequested_iff (h : d.Managed) {placement : WindowId → Placement}
    (hplaced : d.Placed ops placement) (requests : List (WindowId × RenderRequest))
    {entry : WindowId × Surface} (hentry : entry ∈ d.windowIds) :
    d.AsRequested ops placement requests entry ↔
      Explicit (placement entry.1) (d.workspaceVisible entry.1) (requestsOf requests entry.1) := by
  obtain ⟨id, window⟩ := entry
  have hamounts := amounts_accumulateAll id (requestsOf requests id)
  rw [AsRequested, location_applyRenderCommands h requests hentry, hplaced _ hentry, requested]
  cases hown : requestsOf requests id with
  | nil => exact location_eq_location_and_iff (placement id) (d.workspaceVisible id)
  | cons first rest =>
    rw [hown] at hamounts
    cases hlast : (accumulateAll ((first :: rest).map fun request => (id, request))).getLast? with
    | none =>
      rw [List.getLast?_eq_none_iff, accumulateAll_eq_nil] at hlast
      exact absurd hlast (List.cons_ne_nil _ _)
    | some last =>
      have hid := hamounts.ids last (List.mem_of_getLast? hlast)
      have hiff := location_getLast?_iff hamounts hlast (placement id)
      simp only [shows, hid]
      cases d.workspaceVisible id with
      | false => simp [Explicit, Placement.location]
      | true =>
        rw [Bool.and_true, Bool.and_true]
        exact hiff.trans ⟨fun hcond _ => hcond, fun hexplicit => hexplicit rfl⟩

/-- **Batched position and visibility requests mean what they mean one at a time,** for all windows,
exactly if those of every window are explicit. -/
theorem batch_asRequested_iff (h : d.Managed) {placement : WindowId → Placement}
    (hplaced : d.Placed ops placement) (requests : List (WindowId × RenderRequest)) :
    (∀ entry ∈ d.windowIds, d.AsRequested ops placement requests entry) ↔
      ∀ entry ∈ d.windowIds, Explicit (placement entry.1) (d.workspaceVisible entry.1)
        (requestsOf requests entry.1) :=
  forall₂_congr fun _ hentry => asRequested_iff h hplaced requests hentry

/-- One window is open; it is at (100, 100). -/
def oneWindow : DesktopState PlacedWindows :=
  (start .empty (1000, 800) (some .new)).newToplevel placedWindows.toSpaceOps none

theorem managed_oneWindow : oneWindow.Managed :=
  (managed_start PlacedWindows.empty (1000, 800) (some .new)).newToplevel _ none

theorem placed_oneWindow : oneWindow.Placed placedWindows fun _ => ⟨(100, 100), true⟩ := by
  unfold Placed
  decide +kernel

/-- The window is placed, raised and hidden. -/
theorem batch_asRequested_hidden :
    oneWindow.AsRequested placedWindows (fun _ => ⟨(100, 100), true⟩)
      [(⟨1⟩, .setPosition 50 60), (⟨1⟩, .setZOrder .top), (⟨1⟩, .setVisible false)]
      (⟨1⟩, ⟨0⟩) := by
  have hiff := batch_asRequested_iff managed_oneWindow placed_oneWindow
    [(⟨1⟩, .setPosition 50 60), (⟨1⟩, .setZOrder .top), (⟨1⟩, .setVisible false)]
  refine hiff.mpr (fun entry hentry => ?_) (⟨1⟩, ⟨0⟩) (List.mem_singleton_self _)
  obtain rfl : entry = (⟨1⟩, ⟨0⟩) := List.mem_singleton.mp hentry
  exact fun _ => ⟨rfl, rfl⟩

/-- Raising a window takes it to the origin. -/
theorem raise_moves :
    ¬ ∀ (d : DesktopState PlacedWindows) (placement : WindowId → Placement)
      (requests : List (WindowId × RenderRequest)), d.Managed → d.Placed placedWindows placement →
      ∀ entry ∈ d.windowIds, d.AsRequested placedWindows placement requests entry := by
  intro h
  have hraised := h oneWindow (fun _ => ⟨(100, 100), true⟩) [(⟨1⟩, .setZOrder .top)]
    managed_oneWindow placed_oneWindow (⟨1⟩, ⟨0⟩) (List.mem_singleton_self _)
  unfold AsRequested at hraised
  exact absurd hraised (by decide +kernel)

end DesktopState

end WayRay
