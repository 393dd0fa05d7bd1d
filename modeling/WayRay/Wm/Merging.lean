import Mathlib.Data.List.TakeWhile
import WayRay.Wm.Batches

/-!
# How requests merge

A request to stack, show or hide a window is merged into the window's first pending command; a
position is always a command of its own (`accumulate_cases`).  So the first command of a window
stands where the window was first named (`sameOrder_accumulateAll`), only the first one can have a
z-order directive (`onlyFirst_accumulateAll`), and the commands of one window are those that its own
requests amount to (`filter_accumulateAll`).
-/

namespace WayRay

def RenderRequest.isPosition : RenderRequest → Bool
  | .setPosition _ _ => true
  | .setZOrder _ | .setVisible _ => false

namespace WmProtocolState

/-! ### One request -/

/-- A command with what a request asks for. -/
def amended (cmd : RenderCommand) : RenderRequest → RenderCommand
  | .setPosition x y => { cmd with position := (x, y) }
  | .setZOrder zOrder => { cmd with zOrder := zOrder }
  | .setVisible visible => { cmd with visible := visible }

@[simp] theorem amended_id (cmd : RenderCommand) (request : RenderRequest) :
    (amended cmd request).id = cmd.id := by
  cases request <;> rfl

/-- The command that a request pushes. -/
def pushed (id : WindowId) (request : RenderRequest) : RenderCommand :=
  amended ⟨id, (0, 0), .preserve, true⟩ request

@[simp] theorem pushed_id (id : WindowId) (request : RenderRequest) :
    (pushed id request).id = id :=
  amended_id _ request

/-- A request is merged into the first pending command of its window. -/
structure Merged (pending : List RenderCommand) (id : WindowId) (request : RenderRequest)
    (front : List RenderCommand) (cmd : RenderCommand) (behind : List RenderCommand) : Prop where
  split : pending = front ++ cmd :: behind
  others : ∀ c ∈ front, c.id ≠ id
  cmd_id : cmd.id = id
  result : accumulate pending id request = front ++ amended cmd request :: behind

/-- Without a pending command for the window one is pushed, else the first one is changed. -/
theorem amend_cases (id : WindowId) (change : RenderCommand → RenderCommand)
    (pending : List RenderCommand) :
    ((∀ cmd ∈ pending, cmd.id ≠ id) ∧
      amend id change pending = pending ++ [change ⟨id, (0, 0), .preserve, true⟩]) ∨
    ∃ front cmd behind, pending = front ++ cmd :: behind ∧ (∀ c ∈ front, c.id ≠ id) ∧
      cmd.id = id ∧ amend id change pending = front ++ change cmd :: behind := by
  induction pending with
  | nil => exact .inl ⟨nofun, rfl⟩
  | cons cmd cmds ih =>
    unfold amend
    split_ifs with hid
    · exact .inr ⟨[], cmd, cmds, rfl, nofun, hid, rfl⟩
    · rcases ih with ⟨hnone, hamend⟩ | ⟨front, found, behind, hsplit, hfront, hfound, hamend⟩
      · exact .inl ⟨List.forall_mem_cons.mpr ⟨hid, hnone⟩, congrArg (cmd :: ·) hamend⟩
      · exact .inr ⟨cmd :: front, found, behind, congrArg (cmd :: ·) hsplit,
          List.forall_mem_cons.mpr ⟨hid, hfront⟩, hfound, congrArg (cmd :: ·) hamend⟩

/-- A position, or a request for a window without pending commands, is pushed; any other request is
merged. -/
theorem accumulate_cases (pending : List RenderCommand) (id : WindowId) (request : RenderRequest) :
    ((request.isPosition = true ∨ ∀ cmd ∈ pending, cmd.id ≠ id) ∧
      accumulate pending id request = pending ++ [pushed id request]) ∨
    request.isPosition = false ∧
      ∃ front cmd behind, Merged pending id request front cmd behind := by
  cases request with
  | setPosition x y => exact .inl ⟨.inl rfl, rfl⟩
  | setZOrder zOrder =>
    rcases amend_cases id (fun cmd => { cmd with zOrder := zOrder }) pending with
      ⟨hnone, hamend⟩ | ⟨front, cmd, behind, hsplit, hfront, hid, hamend⟩
    · exact .inl ⟨.inr hnone, hamend⟩
    · exact .inr ⟨rfl, front, cmd, behind, hsplit, hfront, hid, hamend⟩
  | setVisible visible =>
    rcases amend_cases id (fun cmd => { cmd with visible := visible }) pending with
      ⟨hnone, hamend⟩ | ⟨front, cmd, behind, hsplit, hfront, hid, hamend⟩
    · exact .inl ⟨.inr hnone, hamend⟩
    · exact .inr ⟨rfl, front, cmd, behind, hsplit, hfront, hid, hamend⟩

theorem accumulateAll_concat (requests : List (WindowId × RenderRequest)) (id : WindowId)
    (request : RenderRequest) : accumulateAll (requests ++ [(id, request)]) =
      accumulate (accumulateAll requests) id request := by
  rw [accumulateAll, List.foldl_append]
  rfl

/-! ### The order of the commands -/

section Order

variable {pending : List RenderCommand} {id : WindowId} {request : RenderRequest}

/-- The windows that are named before `id`. -/
def namedBefore (id : WindowId) (ids : List WindowId) : List WindowId := ids.takeWhile (· ≠ id)

theorem namedBefore_of_notMem {ids : List WindowId} (h : id ∉ ids) : namedBefore id ids = ids :=
  List.takeWhile_eq_self_iff.mpr fun _ hx => decide_eq_true (ne_of_mem_of_not_mem hx h)

theorem mem_namedBefore_concat {ids : List WindowId} {next other : WindowId} :
    other ∈ namedBefore id (ids ++ [next]) ↔
      other ∈ namedBefore id ids ∨ id ∉ ids ∧ next ≠ id ∧ other = next := by
  by_cases hmem : id ∈ ids
  · have hsame : namedBefore id (ids ++ [next]) = namedBefore id ids := by
      unfold namedBefore
      rw [List.takeWhile_append, if_neg]
      intro hlength
      have hall := (List.takeWhile_prefix _).eq_of_length hlength
      exact of_decide_eq_true (List.takeWhile_eq_self_iff.mp hall id hmem) rfl
    rw [hsame]
    exact (or_iff_left fun h => h.1 hmem).symm
  · rw [namedBefore_of_notMem hmem]
    by_cases hnext : next = id
    · have hsame : namedBefore id (ids ++ [next]) = ids := by
        unfold namedBefore
        rw [List.takeWhile_append_of_pos fun x hx => decide_eq_true (ne_of_mem_of_not_mem hx hmem),
          List.takeWhile_cons_of_neg (by simpa using hnext), List.append_nil]
      rw [hsame]
      exact (or_iff_left fun h => h.2.1 hnext).symm
    · have hnotMem : id ∉ ids ++ [next] := by simp [hmem, Ne.symm hnext]
      rw [namedBefore_of_notMem hnotMem, List.mem_append, List.mem_singleton]
      exact or_congr_right ⟨fun heq => ⟨hmem, hnext, heq⟩, fun h => h.2.2⟩

/-- The windows of the commands are those of the requests, in the order in which they are first
named. -/
structure SameOrder (ids ids' : List WindowId) : Prop where
  mem_iff : ∀ id, id ∈ ids ↔ id ∈ ids'
  namedBefore : ∀ id other, other ∈ namedBefore id ids ↔ other ∈ namedBefore id ids'

theorem sameOrder_accumulateAll (requests : List (WindowId × RenderRequest)) :
    SameOrder (requests.map Prod.fst) ((accumulateAll requests).map RenderCommand.id) := by
  induction requests using List.reverseRecOn with
  | nil => exact ⟨fun _ => Iff.rfl, fun _ _ => Iff.rfl⟩
  | append_singleton requests next ih =>
    obtain ⟨id, request⟩ := next
    rw [List.map_append, List.map_singleton, accumulateAll_concat]
    rcases accumulate_cases (accumulateAll requests) id request with
      ⟨-, hpushed⟩ | ⟨-, front, cmd, behind, hm⟩
    · rw [hpushed, List.map_append, List.map_singleton, pushed_id]
      refine ⟨fun other => ?_, fun other other' => ?_⟩
      · rw [List.mem_append, List.mem_append, ih.mem_iff]
      · rw [mem_namedBefore_concat, mem_namedBefore_concat, ih.mem_iff, ih.namedBefore]
    · -- the window is named already
      have hids : (accumulate (accumulateAll requests) id request).map RenderCommand.id =
          (accumulateAll requests).map RenderCommand.id := by
        rw [hm.result, hm.split]
        simp
      have hmem : id ∈ (accumulateAll requests).map RenderCommand.id := by
        rw [hm.split]
        simp [hm.cmd_id]
      rw [hids]
      refine ⟨fun other => ?_, fun other other' => ?_⟩
      · rw [List.mem_append, ih.mem_iff, List.mem_singleton]
        exact or_iff_left_of_imp fun heq => heq ▸ hmem
      · rw [mem_namedBefore_concat, ih.mem_iff, ih.namedBefore]
        refine or_iff_left_of_imp ?_
        rintro ⟨hnotMem, -, rfl⟩
        rw [namedBefore_of_notMem hnotMem]
        exact hmem

/-! ### Directives -/

/-- Only the first command of a window can have a z-order directive. -/
theorem onlyFirst_accumulateAll (requests : List (WindowId × RenderRequest)) :
    (accumulateAll requests).Pairwise fun first later =>
      later.id = first.id → later.zOrder = .preserve := by
  induction requests using List.reverseRecOn with
  | nil => exact List.Pairwise.nil
  | append_singleton requests next ih =>
    obtain ⟨id, request⟩ := next
    rw [accumulateAll_concat]
    rcases accumulate_cases (accumulateAll requests) id request with
      ⟨hpushed, hresult⟩ | ⟨-, front, cmd, behind, hm⟩
    · rw [hresult, List.pairwise_append]
      refine ⟨ih, List.pairwise_singleton _ _, fun first hfirst later hlater hsame => ?_⟩
      rw [List.mem_singleton.mp hlater] at hsame ⊢
      rcases hpushed with hposition | hnone
      · cases request with
        | setPosition x y => rfl
        | setZOrder _ | setVisible _ => exact absurd hposition Bool.false_ne_true
      · exact absurd (hsame.symm.trans (pushed_id id request)) (hnone first hfirst)
    · rw [hm.split] at ih
      rw [hm.result]
      obtain ⟨hfront, hrest, hacross⟩ := List.pairwise_append.mp ih
      obtain ⟨hcmd, hbehind⟩ := List.pairwise_cons.mp hrest
      refine List.pairwise_append.mpr ⟨hfront, List.pairwise_cons.mpr ⟨?_, hbehind⟩, ?_⟩
      · rw [amended_id]
        exact hcmd
      · intro first hfirst later hlater hsame
        rcases List.mem_cons.mp hlater with rfl | hlater
        · rw [amended_id, hm.cmd_id] at hsame
          exact absurd hsame.symm (hm.others first hfirst)
        · exact hacross first hfirst later (List.mem_cons_of_mem _ hlater) hsame

/-- A z-order directive was requested. -/
theorem mem_of_zOrder_ne_preserve {requests : List (WindowId × RenderRequest)}
    {cmd : RenderCommand} (hcmd : cmd ∈ accumulateAll requests) (hzOrder : cmd.zOrder ≠ .preserve) :
    (cmd.id, .setZOrder cmd.zOrder) ∈ requests := by
  induction requests using List.reverseRecOn generalizing cmd with
  | nil => exact absurd hcmd List.not_mem_nil
  | append_singleton requests next ih =>
    obtain ⟨id, request⟩ := next
    rw [accumulateAll_concat] at hcmd
    -- a command that the request makes, or makes of an earlier one
    have hrequested : ∀ earlier : RenderCommand, earlier.id = id →
        cmd = amended earlier request →
        (earlier.zOrder ≠ .preserve → (earlier.id, .setZOrder earlier.zOrder) ∈ requests) →
        (cmd.id, .setZOrder cmd.zOrder) ∈ requests ++ [(id, request)] := by
      rintro earlier hid rfl hearlier
      cases request with
      | setZOrder zOrder =>
        rw [← hid]
        exact List.mem_append_right _ (List.mem_singleton_self _)
      | setPosition _ _ | setVisible _ => exact List.mem_append_left _ (hearlier hzOrder)
    rcases accumulate_cases (accumulateAll requests) id request with
      ⟨-, hresult⟩ | ⟨-, front, found, behind, hm⟩
    · rw [hresult] at hcmd
      rcases List.mem_append.mp hcmd with hold | hnew
      · exact List.mem_append_left _ (ih hold hzOrder)
      · exact hrequested ⟨id, (0, 0), .preserve, true⟩ rfl (List.mem_singleton.mp hnew)
          fun hne => absurd rfl hne
    · rw [hm.result] at hcmd
      rw [hm.split] at ih
      rcases List.mem_append.mp hcmd with hfront | hrest
      · exact List.mem_append_left _ (ih (List.mem_append_left _ hfront) hzOrder)
      · rcases List.mem_cons.mp hrest with heq | hbehind
        · exact hrequested found hm.cmd_id heq
            fun hne => ih (List.mem_append_right _ List.mem_cons_self) hne
        · exact List.mem_append_left _
            (ih (List.mem_append_right _ (List.mem_cons_of_mem _ hbehind)) hzOrder)

end Order

/-! ### The commands of one window -/

theorem filter_amend_self (id : WindowId) (change : RenderCommand → RenderCommand)
    (hchange : ∀ cmd, (change cmd).id = cmd.id) (pending : List RenderCommand) :
    (amend id change pending).filter (fun cmd => cmd.id = id) =
      amend id change (pending.filter fun cmd => cmd.id = id) := by
  induction pending with
  | nil => exact List.filter_cons_of_pos (decide_eq_true (hchange _))
  | cons cmd cmds ih =>
    by_cases hid : cmd.id = id
    · have hchanged : (change cmd).id = id := (hchange cmd).trans hid
      simp [amend, hid, hchanged]
    · simp [amend, hid, ih]

/-- A request for a window concerns that window's commands only. -/
theorem filter_accumulate (pending : List RenderCommand) (id id' : WindowId)
    (request : RenderRequest) :
    (accumulate pending id' request).filter (fun cmd => cmd.id = id) =
      if id' = id then accumulate (pending.filter fun cmd => cmd.id = id) id request
      else pending.filter fun cmd => cmd.id = id := by
  split_ifs with hid
  · subst hid
    cases request with
    | setPosition x y => simp [accumulate]
    | setZOrder zOrder =>
      exact filter_amend_self id' (fun cmd => { cmd with zOrder := zOrder }) (fun _ => rfl) pending
    | setVisible visible =>
      exact filter_amend_self id' (fun cmd => { cmd with visible := visible }) (fun _ => rfl)
        pending
  · rcases accumulate_cases pending id' request with ⟨-, hresult⟩ | ⟨-, front, cmd, behind, hm⟩
    · rw [hresult]
      simp [hid]
    · rw [hm.result, hm.split]
      simp [hm.cmd_id, hid]

/-- The commands of a window are those that its own requests amount to. -/
theorem filter_accumulateAll (requests : List (WindowId × RenderRequest)) (id : WindowId) :
    (accumulateAll requests).filter (fun cmd => cmd.id = id) =
      accumulateAll (requests.filter fun request => request.1 = id) := by
  induction requests using List.reverseRecOn with
  | nil => rfl
  | append_singleton requests next ih =>
    obtain ⟨id', request⟩ := next
    rw [accumulateAll_concat, filter_accumulate, ih, List.filter_append]
    split_ifs with hid
    · subst hid
      rw [List.filter_cons_of_pos (by simp), List.filter_nil, accumulateAll_concat]
    · rw [List.filter_cons_of_neg (by simpa using hid), List.filter_nil, List.append_nil]

end WmProtocolState

end WayRay
