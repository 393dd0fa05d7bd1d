import WayRay.Wm.Protocol

/-!
# Batches of render commands

An external WM places its windows by requests that the protocol server accumulates; each frame is
meant to apply what has accumulated before it.

A run is an endless sequence of events.  `AppliedBy` says that a run applies every render command as
it should, given the frame at which each of them is applied; `BatchesApplied` that there is such an
assignment.  Since a frame empties the accumulated commands before it takes them (`handed_tick`), no
run in which a connected WM issues a command applies it, and `batchesApplied_iff` says just that.
-/

namespace WayRay

namespace WmProtocolState

/-! ### Runs -/

/-- The state before the event at place `n` of a run. -/
def stateAt (s : WmProtocolState) (events : ℕ → WmEvent) : ℕ → WmProtocolState
  | 0 => s
  | n + 1 => (stateAt s events n).step (events n)

/-- The commands of the external WM that the event hands to `apply_render_commands`. -/
def handed (s : WmProtocolState) : WmEvent → Option (List RenderCommand)
  | .tick => s.renderPhase.1
  | _ => none

/-- The render command that the event issues while a WM is connected. -/
def issued (s : WmProtocolState) : WmEvent → Option (WindowId × RenderRequest)
  | .windowRequest id request =>
    if s.isWmConnected then (s.renderRequest request).map fun render => (id, render) else none
  | _ => none

/-- The commands that a list of requests amounts to. -/
def accumulateAll (requests : List (WindowId × RenderRequest)) : List RenderCommand :=
  requests.foldl (fun pending request => accumulate pending request.1 request.2) []

/-- The requests of a run that `frameOf` assigns to the frame at place `k`, in the order made. -/
def requestsFor (s : WmProtocolState) (events : ℕ → WmEvent) (frameOf : ℕ → ℕ) (k : ℕ) :
    List (WindowId × RenderRequest) :=
  (List.range k).filterMap fun n =>
    if frameOf n = k then (stateAt s events n).issued (events n) else none

/-- Two places of a run are in one batch: both come before the same `render_done`. -/
def SameBatch (events : ℕ → WmEvent) (m n : ℕ) : Prop :=
  ∃ last, m < last ∧ n < last ∧ events last = .managerRequest .renderDone ∧
    ∀ i, min m n ≤ i → i < last → events i ≠ .managerRequest .renderDone

/-- The run applies every render command as it should, the one issued at place `n` at the frame at
place `frameOf n`. -/
structure AppliedBy (s : WmProtocolState) (events : ℕ → WmEvent) (frameOf : ℕ → ℕ) : Prop where
  /-- Every command is handed over by some later frame. -/
  later : ∀ n, ((stateAt s events n).issued (events n)).isSome →
    n < frameOf n ∧ ((stateAt s events (frameOf n)).handed (events (frameOf n))).isSome
  /-- The commands of a batch are applied at one frame. -/
  whole : ∀ m n, ((stateAt s events m).issued (events m)).isSome →
    ((stateAt s events n).issued (events n)).isSome → SameBatch events m n → frameOf m = frameOf n
  /-- A frame applies its own commands, in the order in which they were requested, and no others. -/
  own : ∀ k commands, (stateAt s events k).handed (events k) = some commands →
    commands = accumulateAll (requestsFor s events frameOf k)

/-- The run applies every render command as it should. -/
def BatchesApplied (s : WmProtocolState) (events : ℕ → WmEvent) : Prop :=
  ∃ frameOf, AppliedBy s events frameOf

/-! ### What a frame takes -/

/-- A frame empties the accumulated commands, then takes them. -/
theorem handed_tick {s : WmProtocolState} {event : WmEvent} {commands : List RenderCommand}
    (h : s.handed event = some commands) : commands = [] := by
  cases event with
  | tick =>
    simp only [handed, renderPhase] at h
    split_ifs at h with hconnected
    obtain ⟨manager, hmanager⟩ := Option.isSome_iff_exists.1 hconnected
    simp only [startRenderPhase, hmanager, takeRenderCommands, send] at h
    exact (Option.some.inj h).symm
  | _ => exact absurd h (by simp [handed])

theorem amend_ne_nil (id : WindowId) (change : RenderCommand → RenderCommand)
    (pending : List RenderCommand) : amend id change pending ≠ [] := by
  cases pending with
  | nil => exact List.cons_ne_nil _ _
  | cons cmd cmds =>
    unfold amend
    split_ifs
    · exact List.cons_ne_nil _ _
    · exact List.cons_ne_nil _ _

theorem accumulate_ne_nil (pending : List RenderCommand) (id : WindowId) (request : RenderRequest) :
    accumulate pending id request ≠ [] := by
  cases request with
  | setPosition x y => exact List.append_ne_nil_of_right_ne_nil _ (List.cons_ne_nil _ _)
  | setZOrder zOrder => exact amend_ne_nil _ _ _
  | setVisible visible => exact amend_ne_nil _ _ _

/-- Requests amount to some command, if there are any. -/
theorem accumulateAll_eq_nil {requests : List (WindowId × RenderRequest)} :
    accumulateAll requests = [] ↔ requests = [] := by
  constructor
  · intro h
    rcases List.eq_nil_or_concat requests with hnil | ⟨earlier, request, rfl⟩
    · exact hnil
    · rw [accumulateAll, List.concat_eq_append, List.foldl_append] at h
      exact absurd h (accumulate_ne_nil _ _ _)
  · rintro rfl
    rfl

/-! ### Runs that issue commands -/

variable {s : WmProtocolState} {events : ℕ → WmEvent}

theorem mem_requestsFor {frameOf : ℕ → ℕ} {n : ℕ} {request : WindowId × RenderRequest}
    (hissued : (stateAt s events n).issued (events n) = some request) (hlater : n < frameOf n) :
    request ∈ requestsFor s events frameOf (frameOf n) := by
  refine List.mem_filterMap.2 ⟨n, List.mem_range.2 hlater, ?_⟩
  rw [if_pos rfl, hissued]

/-- A run that issues a command does not apply it. -/
theorem not_batchesApplied {n : ℕ} {request : WindowId × RenderRequest}
    (hissued : (stateAt s events n).issued (events n) = some request) :
    ¬ BatchesApplied s events := by
  rintro ⟨frameOf, h⟩
  obtain ⟨hlater, hhanded⟩ := h.later n (Option.isSome_of_eq_some hissued)
  obtain ⟨commands, hcommands⟩ := Option.isSome_iff_exists.1 hhanded
  have hown := h.own _ _ hcommands
  -- what the frame takes is empty, what it should take is not
  rw [handed_tick hcommands, eq_comm, accumulateAll_eq_nil] at hown
  have hmem := mem_requestsFor hissued hlater
  rw [hown] at hmem
  exact absurd hmem List.not_mem_nil

/-- A run that issues no command has none to apply. -/
theorem appliedBy_of_not_issued (h : ∀ n, (stateAt s events n).issued (events n) = none) :
    AppliedBy s events id := by
  refine ⟨fun n hissued => ?_, fun m n hissued => ?_, fun k commands hcommands => ?_⟩
  · exact absurd hissued (by simp [h n])
  · exact absurd hissued (by simp [h m])
  · have hnone : requestsFor s events id k = [] := by
      refine List.filterMap_eq_nil_iff.2 fun n _ => ?_
      rw [h n]
      exact ite_self none
    rw [handed_tick hcommands, hnone]
    rfl

/-- **A run applies the render commands of the external WM exactly if there are none.** -/
theorem batchesApplied_iff (s : WmProtocolState) (events : ℕ → WmEvent) :
    BatchesApplied s events ↔ ∀ n, (stateAt s events n).issued (events n) = none := by
  constructor
  · intro h n
    rw [Option.eq_none_iff_forall_not_mem]
    exact fun request hissued => not_batchesApplied hissued h
  · exact fun h => ⟨id, appliedBy_of_not_issued h⟩

/-! ### A batch lost -/

/-- A WM connects and moves a window, then frames are rendered for ever. -/
def oneMove : ℕ → WmEvent
  | 0 => .bind ⟨1⟩ [] [(⟨⟨1⟩, none, none, 800, 600⟩, some ⟨2⟩)]
  | 1 => .windowRequest ⟨1⟩ (.setPosition 10 20)
  | 2 => .managerRequest .renderDone
  | _ => .tick

/-- **A batch lost.**  The first frame after `render_done` takes no command, and so do all the
others. -/
theorem oneMove_lost :
    (stateAt new oneMove 3).pendingRenderCommands = [⟨⟨1⟩, (10, 20), .preserve, true⟩] ∧
      (stateAt new oneMove 3).handed .tick = some [] ∧ ¬ BatchesApplied new oneMove := by
  refine ⟨by decide, by decide, ?_⟩
  have hissued : (stateAt new oneMove 1).issued (oneMove 1) = some (⟨1⟩, .setPosition 10 20) := by
    decide
  exact not_batchesApplied hissued

end WmProtocolState

end WayRay
