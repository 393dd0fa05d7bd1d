import Mathlib.Data.List.InsertIdx
import Mathlib.Data.List.Nodup
import WayRay.Collections.GuardedRun
import WayRay.Wm.Merging

/-!
# Stacking

`restack` computes a stacking order (bottom first) from the z-order directives of render commands.
`performAll` is what the same requests do one at a time.

A directive moves one window and leaves the order of the others (`erase_place`), so the last of
several directives for a window counts (`place_place`).  A request that is merged into an earlier
command of its window takes that command's place among the others; `restack_accumulateAll` says when
this makes no difference.
-/

namespace WayRay

open GuardedRun

/-! ### Restacking -/

/-- Move a window as a z-order directive says.  Windows that are not in the stack and unknown
siblings are ignored; a window ordered relative to itself stays. -/
def place (order : List WindowId) (id : WindowId) (zOrder : ZOrder) : List WindowId :=
  match order.idxOf? id with
  | none => order
  | some pos =>
    match zOrder with
    | .preserve => order
    | .top => order.eraseIdx pos ++ [id]
    | .bottom => id :: order.eraseIdx pos
    | .above sibling =>
      if sibling = id then order
      else
        match (order.eraseIdx pos).idxOf? sibling with
        | some siblingPos => (order.eraseIdx pos).insertIdx (siblingPos + 1) id
        | none => (order.eraseIdx pos).insertIdx pos id
    | .below sibling =>
      if sibling = id then order
      else
        match (order.eraseIdx pos).idxOf? sibling with
        | some siblingPos => (order.eraseIdx pos).insertIdx siblingPos id
        | none => (order.eraseIdx pos).insertIdx pos id

/-- The stacking order after the z-order directives of commands are applied in order. -/
def restack (stack : List WindowId) (commands : List RenderCommand) : List WindowId :=
  commands.foldl (fun order cmd => place order cmd.id cmd.zOrder) stack

/-- What a request does to the stack, if it is performed at once. -/
def perform (stack : List WindowId) (id : WindowId) : RenderRequest → List WindowId
  | .setZOrder zOrder => place stack id zOrder
  | .setPosition _ _ | .setVisible _ => stack

/-- What requests do to the stack, if they are performed one after another. -/
def performAll (stack : List WindowId) (requests : List (WindowId × RenderRequest)) :
    List WindowId :=
  requests.foldl (fun stack request => perform stack request.1 request.2) stack

/-! ### One directive -/

/-- The directive moves a window in the stack: it is ordered relative to another window of the
stack, if relative to any. -/
def Moves (stack : List WindowId) (id : WindowId) : ZOrder → Prop
  | .top | .bottom => True
  | .above sibling | .below sibling => sibling ≠ id ∧ sibling ∈ stack
  | .preserve => False

/-- Put a window among the others of the stack. -/
def settle (others : List WindowId) (id : WindowId) : ZOrder → List WindowId
  | .top => others ++ [id]
  | .bottom => id :: others
  | .above sibling => others.insertIdx (others.idxOf sibling + 1) id
  | .below sibling => others.insertIdx (others.idxOf sibling) id
  | .preserve => others

variable {stack : List WindowId} {id : WindowId} {zOrder : ZOrder}

theorem place_of_notMem (h : id ∉ stack) : place stack id zOrder = stack := by
  rw [place, List.idxOf?_eq_none_iff.mpr h]

/-- A window in the stack is found at its place, and the others are the stack without it. -/
theorem exists_idxOf?_of_mem (h : id ∈ stack) : ∃ pos, stack.idxOf? id = some pos ∧
    stack.eraseIdx pos = stack.erase id ∧ (stack.erase id).insertIdx pos id = stack := by
  obtain ⟨pos, hpos⟩ := Option.isSome_iff_exists.mp (List.isSome_idxOf?.mpr h)
  have herase : stack.eraseIdx pos = stack.erase id := by rw [List.erase_eq_eraseIdx, hpos]
  obtain ⟨hlt, hget, -⟩ := List.idxOf?_eq_some_iff.mp hpos
  refine ⟨pos, hpos, herase, ?_⟩
  rw [← herase]
  conv_lhs => rw [← hget]
  exact List.insertIdx_eraseIdx_getElem hlt

/-- A directive that moves a window puts it among the others. -/
theorem place_eq_settle (h : id ∈ stack) (hmoves : Moves stack id zOrder) :
    place stack id zOrder = settle (stack.erase id) id zOrder := by
  obtain ⟨pos, hpos, herase, -⟩ := exists_idxOf?_of_mem h
  simp only [place, hpos, herase]
  cases zOrder with
  | top | bottom => rfl
  | preserve => exact hmoves.elim
  | above sibling | below sibling =>
    obtain ⟨hother, hmem⟩ := hmoves
    have hsibling : sibling ∈ stack.erase id := (List.mem_erase_of_ne hother).mpr hmem
    have hfound : (stack.erase id).idxOf? sibling = some ((stack.erase id).idxOf sibling) := by
      obtain ⟨i, hi⟩ := Option.isSome_iff_exists.mp (List.isSome_idxOf?.mpr hsibling)
      rw [List.idxOf_eq_getD_idxOf?, hi, Option.getD_some]
    simp only [if_neg hother, settle, hfound]

/-- Any other directive leaves the stack as it is. -/
theorem place_eq_self (hmoves : ¬ Moves stack id zOrder) : place stack id zOrder = stack := by
  by_cases h : id ∈ stack
  · obtain ⟨pos, hpos, herase, hback⟩ := exists_idxOf?_of_mem h
    simp only [place, hpos, herase]
    cases zOrder with
    | top | bottom => exact absurd trivial hmoves
    | preserve => rfl
    | above sibling | below sibling =>
      dsimp only
      split_ifs with hself
      · rfl
      · have hmem : sibling ∉ stack.erase id :=
          fun hmem => hmoves ⟨hself, List.mem_of_mem_erase hmem⟩
        rw [List.idxOf?_eq_none_iff.mpr hmem]
        exact hback
  · exact place_of_notMem h

theorem settle_perm {others : List WindowId} (hothers : others = stack.erase id)
    (hmoves : Moves stack id zOrder) : (settle others id zOrder).Perm (id :: others) := by
  cases zOrder with
  | top => exact List.perm_append_singleton id others
  | bottom => exact List.Perm.refl _
  | preserve => exact hmoves.elim
  | above sibling =>
    obtain ⟨hother, hmem⟩ := hmoves
    have hsibling : sibling ∈ others := hothers ▸ (List.mem_erase_of_ne hother).mpr hmem
    exact List.perm_insertIdx _ _ (List.idxOf_lt_length_iff.mpr hsibling)
  | below sibling => exact List.perm_insertIdx _ _ List.idxOf_le_length

/-- Restacking keeps the windows. -/
theorem place_perm (stack : List WindowId) (id : WindowId) (zOrder : ZOrder) :
    (place stack id zOrder).Perm stack := by
  by_cases h : id ∈ stack ∧ Moves stack id zOrder
  · rw [place_eq_settle h.1 h.2]
    exact (settle_perm rfl h.2).trans (List.perm_cons_erase h.1).symm
  · apply List.Perm.of_eq
    by_cases hmem : id ∈ stack
    · exact place_eq_self fun hmoves => h ⟨hmem, hmoves⟩
    · exact place_of_notMem hmem

theorem erase_insertIdx_self {others : List WindowId} (h : id ∉ others) (i : ℕ) :
    (others.insertIdx i id).erase id = others := by
  induction i generalizing others with
  | zero => exact List.erase_cons_head id others
  | succ i ih =>
    cases others with
    | nil => rfl
    | cons other others =>
      obtain ⟨hne, hnotMem⟩ := List.ne_and_not_mem_of_not_mem_cons h
      rw [List.insertIdx_succ_cons, List.erase_cons_tail (by simpa using hne.symm), ih hnotMem]

theorem erase_settle {others : List WindowId} (h : id ∉ others) (hmoves : Moves stack id zOrder) :
    (settle others id zOrder).erase id = others := by
  cases zOrder with
  | top => rw [settle, List.erase_append_right _ h, List.erase_cons_head, List.append_nil]
  | bottom => exact List.erase_cons_head id others
  | above sibling | below sibling => exact erase_insertIdx_self h _
  | preserve => exact hmoves.elim

/-- A directive leaves the order of the other windows. -/
theorem erase_place (hnodup : stack.Nodup) : (place stack id zOrder).erase id = stack.erase id := by
  by_cases h : id ∈ stack ∧ Moves stack id zOrder
  · rw [place_eq_settle h.1 h.2, erase_settle hnodup.not_mem_erase h.2]
  · by_cases hmem : id ∈ stack
    · rw [place_eq_self fun hmoves => h ⟨hmem, hmoves⟩]
    · rw [place_of_notMem hmem]

theorem moves_congr {stack' : List WindowId} (h : stack'.Perm stack) :
    Moves stack' id zOrder ↔ Moves stack id zOrder := by
  cases zOrder with
  | top | bottom | preserve => exact Iff.rfl
  | above sibling | below sibling => exact and_congr_right fun _ => h.mem_iff

/-- Of two directives for one window the second counts, if it moves the window. -/
theorem place_place {zOrder' : ZOrder} (hnodup : stack.Nodup) (hmoves : Moves stack id zOrder') :
    place (place stack id zOrder) id zOrder' = place stack id zOrder' := by
  have hperm := place_perm stack id zOrder
  by_cases h : id ∈ stack
  · rw [place_eq_settle h hmoves,
      place_eq_settle (hperm.mem_iff.mpr h) ((moves_congr hperm).mpr hmoves), erase_place hnodup]
  · rw [place_of_notMem h]

theorem place_preserve (stack : List WindowId) (id : WindowId) :
    place stack id .preserve = stack :=
  place_eq_self fun hmoves => hmoves

/-! ### Batches -/

namespace WmProtocolState

/-- A stacking request is in turn after earlier requests of its batch. -/
structure StacksInTurn (stack : List WindowId) (earlier : List (WindowId × RenderRequest))
    (id : WindowId) (zOrder : ZOrder) : Prop where
  /-- Any other window with a stacking request so far was named before the window was. -/
  others : ∀ other zOrder', (other, .setZOrder zOrder') ∈ earlier → other ≠ id →
    other ∈ namedBefore id (earlier.map Prod.fst)
  /-- It replaces an earlier stacking request only if it moves the window. -/
  replaces : ∀ zOrder', (id, .setZOrder zOrder') ∈ earlier → Moves stack id zOrder

/-- Other requests always are. -/
def InTurn (stack : List WindowId) (earlier : List (WindowId × RenderRequest)) :
    WindowId × RenderRequest → Prop
  | (id, .setZOrder zOrder) => StacksInTurn stack earlier id zOrder
  | (_, .setPosition _ _) | (_, .setVisible _) => True

/-- Every request of a batch is in turn. -/
def AllInTurn (stack : List WindowId) (requests : List (WindowId × RenderRequest)) : Prop :=
  Along (fun earlier request => earlier ++ [request]) (InTurn stack) [] requests

theorem restack_perm (stack : List WindowId) (commands : List RenderCommand) :
    (restack stack commands).Perm stack := by
  induction commands generalizing stack with
  | nil => exact List.Perm.refl _
  | cons cmd commands ih => exact (ih _).trans (place_perm stack cmd.id cmd.zOrder)

theorem restack_append (stack : List WindowId) (commands commands' : List RenderCommand) :
    restack stack (commands ++ commands') = restack (restack stack commands) commands' :=
  List.foldl_append

/-- Commands without directives leave the stack as it is. -/
theorem restack_of_preserve {stack : List WindowId} {commands : List RenderCommand}
    (h : ∀ cmd ∈ commands, cmd.zOrder = .preserve) : restack stack commands = stack := by
  induction commands with
  | nil => rfl
  | cons cmd commands ih =>
    obtain ⟨hcmd, hcommands⟩ := List.forall_mem_cons.mp h
    rw [restack, List.foldl_cons, hcmd, place_preserve]
    exact ih hcommands

/-- A stacking request in turn finds no other directive behind the command it is merged into. -/
theorem StacksInTurn.behind_preserve {stack : List WindowId}
    {earlier : List (WindowId × RenderRequest)} {id : WindowId} {zOrder : ZOrder}
    (h : StacksInTurn stack earlier id zOrder) {front behind : List RenderCommand}
    {cmd : RenderCommand}
    (hm : Merged (accumulateAll earlier) id (.setZOrder zOrder) front cmd behind) :
    ∀ later ∈ behind, later.zOrder = .preserve := by
  intro later hlater
  by_contra hne
  have honly := onlyFirst_accumulateAll earlier
  have hmem : later ∈ accumulateAll earlier := by
    rw [hm.split]
    exact List.mem_append_right _ (List.mem_cons_of_mem _ hlater)
  rw [hm.split] at honly
  obtain ⟨-, hrest, hacross⟩ := List.pairwise_append.mp honly
  have hother : later.id ≠ id := fun hid =>
    hne ((List.pairwise_cons.mp hrest).1 later hlater (hid.trans hm.cmd_id.symm))
  -- its window was named before, so it has a command in front
  have hnamed := h.others _ _ (mem_of_zOrder_ne_preserve hmem hne) hother
  rw [(sameOrder_accumulateAll earlier).namedBefore, hm.split, namedBefore, List.map_append,
    List.map_cons, hm.cmd_id, List.takeWhile_append_of_pos (by simpa using hm.others),
    List.takeWhile_cons_of_neg (by simp), List.append_nil] at hnamed
  obtain ⟨first, hfirst, hid⟩ := List.mem_map.mp hnamed
  exact hne (hacross first hfirst later (List.mem_cons_of_mem _ hlater) hid.symm)

theorem restack_concat (stack : List WindowId) (commands : List RenderCommand)
    (cmd : RenderCommand) : restack stack (commands ++ [cmd]) =
      place (restack stack commands) cmd.id cmd.zOrder :=
  restack_append stack commands [cmd]

/-- Restacking with commands behind one that have no directives. -/
theorem restack_behind {stack : List WindowId} {front behind : List RenderCommand}
    {cmd : RenderCommand} (h : ∀ later ∈ behind, later.zOrder = .preserve) :
    restack stack (front ++ cmd :: behind) = place (restack stack front) cmd.id cmd.zOrder := by
  rw [← List.concat_append, restack_append, restack_of_preserve h, List.concat_eq_append,
    restack_concat]

/-- A request in turn restacks as if it were performed at once. -/
theorem restack_accumulate {stack : List WindowId} (hnodup : stack.Nodup)
    {earlier : List (WindowId × RenderRequest)} {id : WindowId} {request : RenderRequest}
    (h : InTurn stack earlier (id, request)) :
    restack stack (accumulate (accumulateAll earlier) id request) =
      perform (restack stack (accumulateAll earlier)) id request := by
  rcases accumulate_cases (accumulateAll earlier) id request with
    ⟨-, hresult⟩ | ⟨hmerged, front, cmd, behind, hm⟩
  · rw [hresult, restack_concat]
    cases request with
    | setZOrder zOrder => rfl
    | setPosition _ _ | setVisible _ => exact place_preserve _ id
  · cases request with
    | setPosition x y => exact absurd hmerged Bool.false_ne_true.symm
    | setVisible visible =>
      rw [hm.result, hm.split, restack_append, restack_append]
      rfl
    | setZOrder zOrder =>
      have hbehind := StacksInTurn.behind_preserve h hm
      have hperm := restack_perm stack front
      have hplaces : place (place (restack stack front) id cmd.zOrder) id zOrder =
          place (restack stack front) id zOrder := by
        by_cases hcmd : cmd.zOrder = .preserve
        · rw [hcmd, place_preserve]
        · -- the window had a directive, which this one replaces
          have hmem : cmd ∈ accumulateAll earlier := by
            rw [hm.split]
            exact List.mem_append_right _ List.mem_cons_self
          have hreplaced := mem_of_zOrder_ne_preserve hmem hcmd
          rw [hm.cmd_id] at hreplaced
          exact place_place (hperm.nodup_iff.mpr hnodup)
            ((moves_congr hperm).mpr (StacksInTurn.replaces h _ hreplaced))
      calc restack stack (accumulate (accumulateAll earlier) id (.setZOrder zOrder))
          = place (restack stack front) id zOrder := by
            rw [hm.result, restack_behind hbehind, amended_id, hm.cmd_id]
            rfl
        _ = place (place (restack stack front) id cmd.zOrder) id zOrder := hplaces.symm
        _ = perform (restack stack (accumulateAll earlier)) id (.setZOrder zOrder) := by
            rw [hm.split, restack_behind hbehind, hm.cmd_id]
            rfl

/-- **Batched stacking requests mean what they mean one at a time,** if each of them is in turn: no
other window that was named later in the batch has had a stacking request before it, and it moves
its window if it replaces an earlier request. -/
theorem restack_accumulateAll {stack : List WindowId} (hnodup : stack.Nodup)
    {requests : List (WindowId × RenderRequest)} (h : AllInTurn stack requests) :
    restack stack (accumulateAll requests) = performAll stack requests := by
  induction requests using List.reverseRecOn with
  | nil => rfl
  | append_singleton requests next ih =>
    obtain ⟨id, request⟩ := next
    have hnext : InTurn stack requests (id, request) := by
      have hafter := (Along.after h).1
      rwa [List.foldl_append_eq_append, List.nil_append, ← List.flatMap_def,
        List.flatMap_singleton'] at hafter
    rw [accumulateAll_concat, restack_accumulate hnodup hnext, ih (Along.of_append h), performAll,
      performAll, List.foldl_append]
    rfl

/-- Two windows are raised, the second one is placed, then put below the first. -/
theorem restack_accumulateAll_siblings :
    restack [⟨1⟩, ⟨2⟩, ⟨3⟩] (accumulateAll [(⟨1⟩, .setZOrder .top), (⟨2⟩, .setZOrder .top),
        (⟨2⟩, .setPosition 50 60), (⟨2⟩, .setZOrder (.below ⟨1⟩))]) =
      performAll [⟨1⟩, ⟨2⟩, ⟨3⟩] [(⟨1⟩, .setZOrder .top), (⟨2⟩, .setZOrder .top),
        (⟨2⟩, .setPosition 50 60), (⟨2⟩, .setZOrder (.below ⟨1⟩))] :=
  restack_accumulateAll (by decide) ⟨⟨by simp, by simp⟩, ⟨by simp [namedBefore], by simp⟩, trivial,
    ⟨by simp +contextual [namedBefore, or_imp], by simp [Moves]⟩, trivial⟩

/-- A window that is raised again stays below one that was raised in between. -/
theorem raised_again_below :
    ¬ ∀ (stack : List WindowId) (requests : List (WindowId × RenderRequest)), stack.Nodup →
      (∀ request ∈ requests, request.1 ∈ stack) →
      restack stack (accumulateAll requests) = performAll stack requests := by
  intro h
  have heq := h [⟨1⟩, ⟨2⟩] [(⟨1⟩, .setZOrder .top), (⟨2⟩, .setZOrder .top),
    (⟨1⟩, .setZOrder .top)] (by decide) (by decide)
  exact absurd heq (by decide)

end WmProtocolState

end WayRay
