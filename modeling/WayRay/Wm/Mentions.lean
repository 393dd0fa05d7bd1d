import WayRay.Wm.Announcements
import WayRay.Wm.Merging
import WayRay.Wm.Workspaces

/-!
# Where a window is mentioned

Six parts of the protocol state name windows: the window objects, the borders, the workspaces, tags
and outputs of windows, and the pending render commands, also as siblings (`Mentions`).

`Mentions.of_step` says which events can add a mention: a window that is announced, and a request
for it that is recorded (`Introduces`).  Everything else names only windows that have an object
already.
-/

namespace WayRay

/-- The command places the window, or another one next to it. -/
def RenderCommand.Mentions (cmd : RenderCommand) (id : WindowId) : Prop :=
  cmd.id = id ∨ cmd.zOrder = .above id ∨ cmd.zOrder = .below id

/-- The window has a workspace, tags or an output. -/
def WorkspaceState.Mentions (s : WorkspaceState) (id : WindowId) : Prop :=
  (s.windowWorkspace.get id).isSome ∨ (s.windowTags.get id).isSome ∨ (s.windowOutput.get id).isSome

theorem WorkspaceState.Mentions.of_apply {s : WorkspaceState} {e : WorkspaceChange} {id : WindowId}
    (h : (s.apply e).Mentions id) : s.Mentions id ∨ e.Places id ∨ e.Sends id := by
  simp only [Mentions, Option.isSome_iff_exists, apply_windowWorkspace, apply_windowTags,
    apply_windowOutput] at h ⊢
  rcases h with ⟨_, rfl | ⟨h, -⟩⟩ | ⟨_, rfl | ⟨h, -⟩⟩ | ⟨_, rfl | ⟨h, -⟩⟩
  · exact .inr (.inl rfl)
  · exact .inl (.inl ⟨_, h⟩)
  · exact .inr (.inl rfl)
  · exact .inl (.inr (.inl ⟨_, h⟩))
  · exact .inr (.inr rfl)
  · exact .inl (.inr (.inr ⟨_, h⟩))

namespace WmProtocolState

variable {s : WmProtocolState} {id : WindowId}

/-- A pending command mentions the window. -/
def PendingFor (s : WmProtocolState) (id : WindowId) : Prop :=
  ∃ cmd ∈ s.pendingRenderCommands, cmd.Mentions id

/-- Some part of the protocol state mentions the window. -/
def Mentions (s : WmProtocolState) (id : WindowId) : Prop :=
  (s.windowObjects.get id).isSome ∨ (s.borders.get id).isSome ∨ s.workspace.Mentions id ∨
    s.PendingFor id

/-- A request is recorded in the state, under the window it is for. -/
def Records (s : WmProtocolState) : WindowRequest → Prop
  | .setBorders _ _ _ _ width => 0 < width
  | .setOutput _ => True
  | request => (s.renderRequest request).isSome

/-- What an event adds mentions of. -/
def Introduces (s : WmProtocolState) : WmEvent → WindowId → Prop
  | .bind _ _ existing, id => ∃ entry ∈ existing, entry.1.id = id
  | .newWindow window _, id => window.id = id
  | .windowRequest id' request, id => id' = id ∧ s.Records request
  | _, _ => False

/-! ### Render commands -/

/-- A request names its window, and the sibling it is placed next to. -/
def RenderRequest.Names (request : RenderRequest) (id : WindowId) : Prop :=
  request = .setZOrder (.above id) ∨ request = .setZOrder (.below id)

theorem mentions_amended {cmd : RenderCommand} {request : RenderRequest}
    (h : (amended cmd request).Mentions id) : cmd.Mentions id ∨ RenderRequest.Names request id := by
  cases request with
  | setZOrder zOrder =>
    rcases h with h | rfl | rfl
    · exact .inl (.inl h)
    · exact .inr (.inl rfl)
    · exact .inr (.inr rfl)
  | _ => exact .inl h

/-- Accumulating a request adds a mention of its window, and of the sibling. -/
theorem mentions_accumulate {pending : List RenderCommand} {id' : WindowId}
    {request : RenderRequest} {cmd : RenderCommand} (hcmd : cmd ∈ accumulate pending id' request)
    (h : cmd.Mentions id) :
    (∃ c ∈ pending, c.Mentions id) ∨ id' = id ∨ RenderRequest.Names request id := by
  rcases accumulate_cases pending id' request with ⟨-, hresult⟩ | ⟨-, front, old, behind, hm⟩
  · rw [hresult, List.mem_append, List.mem_singleton] at hcmd
    rcases hcmd with hold | rfl
    · exact .inl ⟨cmd, hold, h⟩
    · rcases mentions_amended h with h | h
      · exact .inr (.inl (by simpa [RenderCommand.Mentions] using h))
      · exact .inr (.inr h)
  · rw [hm.result, List.mem_append, List.mem_cons] at hcmd
    rw [hm.split]
    rcases hcmd with hfront | rfl | hbehind
    · exact .inl ⟨cmd, List.mem_append_left _ hfront, h⟩
    · rcases mentions_amended h with h | h
      · exact .inl ⟨old, by simp, h⟩
      · exact .inr (.inr h)
    · exact .inl ⟨cmd, by simp [hbehind], h⟩

/-- There is a command for the window afterwards. -/
theorem exists_mem_accumulate (pending : List RenderCommand) (id : WindowId)
    (request : RenderRequest) : ∃ cmd ∈ accumulate pending id request, cmd.id = id := by
  rcases accumulate_cases pending id request with ⟨-, hresult⟩ | ⟨-, front, cmd, behind, hm⟩
  · rw [hresult]
    exact ⟨pushed id request, by simp, pushed_id id request⟩
  · rw [hm.result]
    exact ⟨amended cmd request, by simp, (amended_id cmd request).trans hm.cmd_id⟩

/-! ### Requests -/

/-- A window that an object stands for has that object. -/
theorem isSome_of_windowIdForResource {resource : ObjectId}
    (h : s.windowIdForResource resource = some id) : (s.windowObjects.get id).isSome := by
  obtain ⟨entry, hfind, rfl⟩ := Option.map_eq_some_iff.mp h
  exact Option.isSome_of_eq_some (HashMap.mem_toList.mp (List.mem_of_find?_eq_some hfind))

/-- Siblings are windows with objects. -/
theorem isSome_of_names {request : WindowRequest} {render : RenderRequest}
    (hrender : s.renderRequest request = some render) (h : RenderRequest.Names render id) :
    (s.windowObjects.get id).isSome := by
  cases request with
  | setZAbove sibling =>
    obtain ⟨id', hsibling, rfl⟩ := Option.map_eq_some_iff.mp hrender
    obtain rfl : id' = id := by simpa [RenderRequest.Names] using h
    exact isSome_of_windowIdForResource hsibling
  | setZBelow sibling =>
    obtain ⟨id', hsibling, rfl⟩ := Option.map_eq_some_iff.mp hrender
    obtain rfl : id' = id := by simpa [RenderRequest.Names] using h
    exact isSome_of_windowIdForResource hsibling
  | _ => rcases h with rfl | rfl <;> simp [renderRequest] at hrender

/-- Nothing is added. -/
theorem Mentions.mono {s' : WmProtocolState} (h : s'.Mentions id)
    (hobjects : (s'.windowObjects.get id).isSome → (s.windowObjects.get id).isSome)
    (hborders : (s'.borders.get id).isSome → (s.borders.get id).isSome)
    (hworkspace : s'.workspace = s.workspace)
    (hpending : s'.pendingRenderCommands ⊆ s.pendingRenderCommands) : s.Mentions id := by
  rcases h with h | h | h | ⟨cmd, hcmd, h⟩
  · exact .inl (hobjects h)
  · exact .inr (.inl (hborders h))
  · exact .inr (.inr (.inl (hworkspace ▸ h)))
  · exact .inr (.inr (.inr ⟨cmd, hpending hcmd, h⟩))

/-- A change of the workspaces. -/
theorem Mentions.of_change {s' : WmProtocolState} {e : WorkspaceChange} (h : s'.Mentions id)
    (hobjects : s'.windowObjects = s.windowObjects) (hborders : s'.borders = s.borders)
    (hpending : s'.pendingRenderCommands = s.pendingRenderCommands)
    (hworkspace : s'.workspace = s.workspace.apply e) :
    s.Mentions id ∨ e.Places id ∨ e.Sends id := by
  unfold Mentions PendingFor at h ⊢
  rw [hobjects, hborders, hpending, hworkspace] at h
  rcases h with h | h | h | h
  · exact .inl (.inl h)
  · exact .inl (.inr (.inl h))
  · exact h.of_apply.imp_left fun h => .inr (.inr (.inl h))
  · exact .inl (.inr (.inr (.inr h)))

theorem records_of_renderRequest {request : WindowRequest}
    (h : (s.renderRequest request).isSome) : s.Records request := by
  cases request with
  | setBorders _ _ _ _ _ => exact absurd h Bool.false_ne_true
  | setOutput _ => trivial
  | _ => exact h

/-- A recorded request is found under its window ... -/
theorem mentions_of_records {request : WindowRequest} (h : s.Records request) :
    (s.windowRequest id request).Mentions id := by
  unfold windowRequest
  cases hrender : s.renderRequest request with
  | some render =>
    obtain ⟨cmd, hcmd, hid⟩ := exists_mem_accumulate s.pendingRenderCommands id render
    exact .inr (.inr (.inr ⟨cmd, hcmd, .inl hid⟩))
  | none =>
    cases request with
    | setBorders red green blue alpha width =>
      have hwidth : 0 < width := h
      simp only [BorderSpec.fromProtocol, dif_pos hwidth]
      exact .inr (.inl (by simp))
    | setOutput outputName =>
      exact .inr (.inr (.inl (.inr (.inr (by simp [WorkspaceState.setWindowOutput])))))
    | _ => exact absurd h (by simp [Records, hrender])

/-- ... and no request is found under another window that has no object. -/
theorem Mentions.of_windowRequest {id' : WindowId} {request : WindowRequest}
    (h : (s.windowRequest id' request).Mentions id) :
    s.Mentions id ∨ id' = id ∧ s.Records request := by
  unfold windowRequest at h
  cases hrender : s.renderRequest request with
  | some render =>
    rw [hrender] at h
    rcases h with h | h | h | ⟨cmd, hcmd, h⟩
    · exact .inl (.inl h)
    · exact .inl (.inr (.inl h))
    · exact .inl (.inr (.inr (.inl h)))
    · rcases mentions_accumulate hcmd h with hold | rfl | hnames
      · exact .inl (.inr (.inr (.inr hold)))
      · exact .inr ⟨rfl, records_of_renderRequest (Option.isSome_of_eq_some hrender)⟩
      · exact .inl (.inl (isSome_of_names hrender hnames))
  | none =>
    rw [hrender] at h
    cases request with
    | setBorders red green blue alpha width =>
      by_cases hwidth : 0 < width
      · simp only [BorderSpec.fromProtocol, dif_pos hwidth] at h
        rcases h with h | h | h
        · exact .inl (.inl h)
        · rw [HashMap.get_insert] at h
          split_ifs at h with hid
          · exact .inr ⟨hid.symm, hwidth⟩
          · exact .inl (.inr (.inl h))
        · exact .inl (.inr (.inr h))
      · simp only [BorderSpec.fromProtocol, dif_neg hwidth] at h
        rcases h with h | h | h
        · exact .inl (.inl h)
        · rw [HashMap.get_remove] at h
          split_ifs at h with hid
          · exact absurd h Bool.false_ne_true
          · exact .inl (.inr (.inl h))
        · exact .inl (.inr (.inr h))
    | setOutput outputName =>
      rcases h.of_change (s := s) (e := .setWindowOutput id' outputName) rfl rfl rfl rfl
        with h | h | h
      · exact .inl h
      · exact False.elim h
      · exact .inr ⟨h, trivial⟩
    | _ => exact .inl h

/-- A workspace request changes the workspaces only, and places no window without an object. -/
theorem workspaceRequest_cases (s : WmProtocolState) (resource : ObjectId)
    (request : WorkspaceRequest) :
    ∃ workspace workspaceManager sent,
      s.workspaceRequest resource request = { s with
        workspace := workspace, workspaceManager := workspaceManager, sent := sent } ∧
      (workspace = s.workspace ∨ ∃ e, workspace = s.workspace.apply e ∧
        ∀ id, e.Places id ∨ e.Sends id → (s.windowObjects.get id).isSome) := by
  cases request with
  | createWorkspace name => exact ⟨_, _, _, rfl, .inr ⟨.createWorkspace name, rfl, by
      simp [WorkspaceChange.Places, WorkspaceChange.Sends]⟩⟩
  | destroyWorkspace name => exact ⟨_, _, _, rfl, .inr ⟨.destroyWorkspace name, rfl, by
      simp [WorkspaceChange.Places, WorkspaceChange.Sends]⟩⟩
  | setActiveWorkspace outputName name =>
    exact ⟨_, _, _, rfl, .inr ⟨.setActiveWorkspace outputName name, rfl, by
      simp [WorkspaceChange.Places, WorkspaceChange.Sends]⟩⟩
  | setActiveTags outputName tags =>
    exact ⟨_, _, _, rfl, .inr ⟨.setActiveTags outputName tags, rfl, by
      simp [WorkspaceChange.Places, WorkspaceChange.Sends]⟩⟩
  | assignWindow window name =>
    simp only [workspaceRequest]
    cases hwindow : s.windowIdForResource window with
    | none => exact ⟨_, _, _, rfl, .inl rfl⟩
    | some id =>
      refine ⟨_, _, _, rfl, .inr ⟨.assignWindow id name, rfl, fun id' h => ?_⟩⟩
      obtain rfl : id = id' := h.resolve_right not_false
      exact isSome_of_windowIdForResource hwindow
  | setWindowTags window tags =>
    simp only [workspaceRequest]
    cases hwindow : s.windowIdForResource window with
    | none => exact ⟨_, _, _, rfl, .inl rfl⟩
    | some id =>
      refine ⟨_, _, _, rfl, .inr ⟨.setWindowTags id tags, rfl, fun id' h => ?_⟩⟩
      obtain rfl : id = id' := h.resolve_right not_false
      exact isSome_of_windowIdForResource hwindow
  | destroy => exact ⟨_, _, _, rfl, .inl rfl⟩

theorem Mentions.of_workspaceRequest {resource : ObjectId} {request : WorkspaceRequest}
    (h : (s.workspaceRequest resource request).Mentions id) : s.Mentions id := by
  obtain ⟨workspace, workspaceManager, sent, heq, hworkspace⟩ :=
    s.workspaceRequest_cases resource request
  rw [heq] at h
  rcases hworkspace with rfl | ⟨e, rfl, hobjects⟩
  · exact h
  · rcases h.of_change (s := s) (e := e) rfl rfl rfl rfl with h | h
    · exact h
    · exact .inl (hobjects id h)

/-! ### Windows that come and go -/

theorem Mentions.of_announce {manager : ObjectId} {window : WindowSnapshot}
    {object : Option ObjectId} (h : (s.announce manager window object).Mentions id) :
    s.Mentions id ∨ window.id = id := by
  cases object with
  | none => exact .inl h
  | some object =>
    rcases h with h | h
    · have hget : ((s.windowObjects.insert window.id object).get id).isSome := h
      rw [HashMap.get_insert] at hget
      split_ifs at hget with hid
      · exact .inr hid.symm
      · exact .inl (.inl hget)
    · exact .inl (.inr h)

theorem Mentions.of_announceAll {manager : ObjectId}
    {windows : List (WindowSnapshot × Option ObjectId)}
    (h : (s.announceAll manager windows).Mentions id) :
    s.Mentions id ∨ ∃ entry ∈ windows, entry.1.id = id := by
  induction windows generalizing s with
  | nil => exact .inl h
  | cons entry windows ih =>
    rw [List.exists_mem_cons_iff]
    rcases ih h with h | h
    · exact h.of_announce.imp_right .inl
    · exact .inr (.inr h)

/-- Replacing a manager only takes mentions away. -/
theorem Mentions.of_bound {manager : ObjectId} {outputs : List (String × ℤ × ℤ)}
    (h : (s.bound manager outputs).Mentions id) : s.Mentions id := by
  unfold bound at h
  cases hclient : s.wmClient with
  | none =>
    rw [hclient] at h
    exact h
  | some old =>
    rw [hclient] at h
    exact h.mono (by simp [send]) (by simp [send]) rfl (List.Subset.refl _)

theorem Mentions.of_managerDestroyed {manager : ObjectId}
    (h : (s.managerDestroyed manager).Mentions id) : s.Mentions id := by
  unfold managerDestroyed at h
  split_ifs at h
  · exact h.mono (by simp) (by simp) rfl (List.Subset.refl _)
  · exact h

theorem Mentions.of_notifyWindowClosed {id' : WindowId}
    (h : (s.notifyWindowClosed id').Mentions id) : s.Mentions id := by
  obtain ⟨sent, windowObjects, hobjects, heq⟩ := Tracked.notifyWindowClosed_cases s id'
  rw [heq] at h
  rcases hobjects with rfl | rfl
  · exact h.mono (fun h => h) HashMap.isSome_get_of_remove rfl (List.Subset.refl _)
  · exact h.mono HashMap.isSome_get_of_remove HashMap.isSome_get_of_remove rfl
      (List.Subset.refl _)

/-- What a connected manager's window leaves behind when it closes. -/
theorem mentions_notifyWindowClosed_self (hconnected : s.isWmConnected = true) :
    (s.notifyWindowClosed id).Mentions id ↔ s.workspace.Mentions id ∨ s.PendingFor id := by
  obtain ⟨manager, hclient⟩ := Option.isSome_iff_exists.mp hconnected
  unfold notifyWindowClosed
  cases hobject : s.windowObjects.get id with
  | none => simp [hclient, hobject, Mentions, PendingFor]
  | some object => simp [hclient, hobject, Mentions, PendingFor, send]

/-- A frame takes the pending commands of a connected manager. -/
theorem Mentions.of_renderPhase (h : s.renderPhase.2.Mentions id) : s.Mentions id := by
  unfold renderPhase startRenderPhase takeRenderCommands isWmConnected at h
  cases hclient : s.wmClient with
  | none =>
    rw [hclient] at h
    exact h
  | some manager =>
    rw [hclient] at h
    exact h.mono (fun h => h) (fun h => h) rfl (List.nil_subset _)

/-- What an event adds mentions of. -/
theorem Mentions.of_step (event : WmEvent) (h : (s.step event).Mentions id) :
    s.Mentions id ∨ s.Introduces event id := by
  cases event with
  | bind manager outputs existing =>
    rw [step, bind_eq_announceAll] at h
    exact h.of_announceAll.imp_left Mentions.of_bound
  | managerRequest request => cases request <;> exact .inl h
  | managerDestroyed manager => exact .inl h.of_managerDestroyed
  | windowRequest id' request => exact h.of_windowRequest
  | windowDestroyed id' =>
    exact .inl (h.mono HashMap.isSome_get_of_remove HashMap.isSome_get_of_remove rfl
      (List.Subset.refl _))
  | seatRequest seat request => cases request <;> exact .inl h
  | workspaceRequest resource request => exact .inl h.of_workspaceRequest
  | newWindow window object =>
    rw [step] at h
    cases hclient : s.wmClient with
    | none =>
      rw [notifyNewWindow_of_not_connected hclient] at h
      exact .inl h
    | some manager =>
      rw [notifyNewWindow_of_connected hclient] at h
      exact h.of_announce
  | windowClosed id' => exact .inl h.of_notifyWindowClosed
  | managePhase =>
    unfold step startManagePhase at h
    cases hclient : s.wmClient with
    | none =>
      rw [hclient] at h
      exact .inl h
    | some manager =>
      rw [hclient] at h
      exact .inl h
  | tick => exact .inl h.of_renderPhase

/-! ### Without a manager -/

/-- Window objects are kept for a manager only. -/
def Attached (s : WmProtocolState) : Prop :=
  s.wmClient = none → ∀ id, s.windowObjects.get id = none

theorem Attached.step (h : s.Attached) (event : WmEvent) : (s.step event).Attached := by
  cases event with
  | bind manager outputs existing =>
    intro hnone
    have hmanager := (Tracked.windowObjects_bind s manager outputs existing).1
    exact absurd (hmanager.symm.trans hnone) (Option.some_ne_none manager)
  | managerRequest request => cases request <;> exact h
  | managerDestroyed manager =>
    simp only [WmProtocolState.step, managerDestroyed]
    split_ifs
    · exact fun _ => HashMap.get_empty
    · exact h
  | windowRequest id request =>
    simp only [WmProtocolState.step, windowRequest]
    split
    · exact h
    · split
      · split <;> exact h
      · exact h
      · exact h
  | windowDestroyed id =>
    intro hnone id'
    exact (HashMap.get_remove _ _ _).trans (by rw [h hnone id', ite_self])
  | seatRequest seat request => cases request <;> exact h
  | workspaceRequest resource request =>
    obtain ⟨workspace, workspaceManager, sent, heq, -⟩ := s.workspaceRequest_cases resource request
    rw [WmProtocolState.step, heq]
    exact h
  | newWindow window object =>
    rw [WmProtocolState.step]
    cases hclient : s.wmClient with
    | none =>
      rw [notifyNewWindow_of_not_connected hclient]
      exact h
    | some manager =>
      rw [notifyNewWindow_of_connected hclient]
      intro hnone
      rw [wmClient_announce, hclient] at hnone
      exact absurd hnone (Option.some_ne_none manager)
  | windowClosed id =>
    obtain ⟨sent, windowObjects, hobjects, heq⟩ := Tracked.notifyWindowClosed_cases s id
    rw [WmProtocolState.step, heq]
    rcases hobjects with rfl | rfl
    · exact h
    · intro hnone id'
      exact (HashMap.get_remove _ _ _).trans (by rw [h hnone id', ite_self])
  | managePhase =>
    simp only [WmProtocolState.step, startManagePhase]
    split <;> exact h
  | tick =>
    simp only [WmProtocolState.step, renderPhase, startRenderPhase, takeRenderCommands]
    split
    · split <;> exact h
    · exact h

end WmProtocolState

end WayRay
