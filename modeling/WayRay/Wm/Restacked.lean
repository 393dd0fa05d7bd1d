import WayRay.Wm.Stacking

/-!
# What a batch of directives does to the stack

The order `restack` computes, in terms of the windows: it keeps them all, leaves those in order that
no directive moves, and puts a window where its directive says (`restack_restacked`).  A directive
that moves nothing has no part in the result.
-/

namespace WayRay

namespace WmProtocolState

variable {stack : List WindowId} {id : WindowId} {zOrder : ZOrder}

/-- The window is where the directive says. -/
def StandsAt (stack : List WindowId) (id : WindowId) : ZOrder → Prop
  | .top => ∃ below, stack = below ++ [id]
  | .bottom => ∃ above, stack = id :: above
  | .above sibling => ∃ below above, stack = below ++ sibling :: id :: above
  | .below sibling => ∃ below above, stack = below ++ id :: sibling :: above
  | .preserve => True

/-- The directive of a command is effective: its window is in the stack and is moved. -/
def Effective (stack : List WindowId) (cmd : RenderCommand) : Prop :=
  cmd.id ∈ stack ∧ Moves stack cmd.id cmd.zOrder

/-! ### One directive -/

/-- A window of a list stands between those before it and those after it. -/
theorem exists_split_idxOf {others : List WindowId} {sibling : WindowId} (h : sibling ∈ others) :
    ∃ below above, others = below ++ sibling :: above ∧ others.idxOf sibling = below.length := by
  have hlt := List.idxOf_lt_length_iff.mpr h
  refine ⟨others.take (others.idxOf sibling), others.drop (others.idxOf sibling + 1), ?_, ?_⟩
  · conv_lhs => rw [← List.take_append_drop (others.idxOf sibling) others]
    rw [List.drop_eq_getElem_cons hlt, List.getElem_idxOf hlt]
  · rw [List.length_take]
    omega

theorem insertIdx_length_append (below above : List WindowId) (id : WindowId) :
    (below ++ above).insertIdx below.length id = below ++ id :: above := by
  induction below with
  | nil => rfl
  | cons other below ih =>
    rw [List.cons_append, List.length_cons, List.insertIdx_succ_cons, ih, List.cons_append]

/-- A directive that moves a window puts it where it says. -/
theorem standsAt_place (h : id ∈ stack) (hmoves : Moves stack id zOrder) :
    StandsAt (place stack id zOrder) id zOrder := by
  rw [place_eq_settle h hmoves]
  cases zOrder with
  | top => exact ⟨stack.erase id, rfl⟩
  | bottom => exact ⟨stack.erase id, rfl⟩
  | preserve => trivial
  | above sibling =>
    obtain ⟨below, above, hsplit, hidx⟩ :=
      exists_split_idxOf ((List.mem_erase_of_ne hmoves.1).mpr hmoves.2)
    refine ⟨below, above, ?_⟩
    have hlen : below.length + 1 = (below ++ [sibling]).length := by
      rw [List.length_append, List.length_singleton]
    rw [settle, hidx, hsplit, hlen, List.append_cons below sibling above, insertIdx_length_append,
      List.append_assoc, List.singleton_append]
  | below sibling =>
    obtain ⟨below, above, hsplit, hidx⟩ :=
      exists_split_idxOf ((List.mem_erase_of_ne hmoves.1).mpr hmoves.2)
    exact ⟨below, above, by rw [settle, hidx, hsplit, insertIdx_length_append]⟩

/-- A directive that is not effective leaves the stack. -/
theorem place_of_not_effective {cmd : RenderCommand} (h : ¬ Effective stack cmd) :
    place stack cmd.id cmd.zOrder = stack := by
  by_cases hmem : cmd.id ∈ stack
  · exact place_eq_self fun hmoves => h ⟨hmem, hmoves⟩
  · exact place_of_notMem hmem

theorem effective_congr {stack' : List WindowId} (h : stack'.Perm stack) {cmd : RenderCommand} :
    Effective stack' cmd ↔ Effective stack cmd :=
  and_congr h.mem_iff (moves_congr h)

/-- Windows that are kept by a filter stay in order if a window that is not is taken out. -/
theorem filter_erase_of_neg {keeps : WindowId → Bool} (h : keeps id = false)
    (stack : List WindowId) : (stack.erase id).filter keeps = stack.filter keeps := by
  induction stack with
  | nil => rfl
  | cons other stack ih =>
    rw [List.erase_cons]
    split_ifs with hid
    · rw [eq_of_beq hid, List.filter_cons_of_neg (by rw [h]; exact Bool.false_ne_true)]
    · rw [List.filter_cons, List.filter_cons, ih]

theorem filter_place {keeps : WindowId → Bool} (hnodup : stack.Nodup) (h : keeps id = false) :
    (place stack id zOrder).filter keeps = stack.filter keeps := by
  rw [← filter_erase_of_neg h, erase_place hnodup, filter_erase_of_neg h]

/-! ### A batch -/

theorem restack_cons (stack : List WindowId) (cmd : RenderCommand) (commands : List RenderCommand) :
    restack stack (cmd :: commands) = restack (place stack cmd.id cmd.zOrder) commands :=
  List.foldl_cons ..

/-- What a batch of commands does to a stack. -/
structure Restacked (stack : List WindowId) (commands : List RenderCommand) : Prop where
  perm : (restack stack commands).Perm stack
  /-- Windows that no effective directive moves keep their order. -/
  unmoved : ∀ keeps : WindowId → Bool,
    (∀ cmd ∈ commands, Effective stack cmd → keeps cmd.id = false) →
      (restack stack commands).filter keeps = stack.filter keeps
  /-- Commands for unknown windows and siblings are ignored. -/
  ignores : ∀ front cmd behind, commands = front ++ cmd :: behind → ¬ Effective stack cmd →
    restack stack commands = restack stack (front ++ behind)
  /-- Right after an effective directive its window is where it says. -/
  stands : ∀ front cmd behind, commands = front ++ cmd :: behind → Effective stack cmd →
    StandsAt (restack stack (front ++ [cmd])) cmd.id cmd.zOrder
  /-- A directive leaves the order of the other windows. -/
  others : ∀ front cmd behind, commands = front ++ cmd :: behind →
    (restack stack (front ++ [cmd])).erase cmd.id = (restack stack front).erase cmd.id

theorem filter_restack {keeps : WindowId → Bool} (hnodup : stack.Nodup)
    {commands : List RenderCommand}
    (h : ∀ cmd ∈ commands, Effective stack cmd → keeps cmd.id = false) :
    (restack stack commands).filter keeps = stack.filter keeps := by
  induction commands using List.reverseRecOn with
  | nil => rfl
  | append_singleton commands cmd ih =>
    have hperm := restack_perm stack commands
    have hbefore := ih fun cmd' hcmd' => h cmd' (List.mem_append_left _ hcmd')
    rw [restack_concat]
    by_cases heffective : Effective stack cmd
    · rw [filter_place (hperm.nodup_iff.mpr hnodup)
        (h cmd (List.mem_append_right _ (List.mem_singleton_self cmd)) heffective), hbefore]
    · rw [place_of_not_effective fun h' => heffective ((effective_congr hperm).mp h'), hbefore]

/-- **Restacking** keeps the windows, leaves those in order that no effective directive moves,
ignores commands for unknown windows and siblings, and puts each window where its directive says,
among the others in their order. -/
theorem restack_restacked (stack : List WindowId) (commands : List RenderCommand)
    (hnodup : stack.Nodup) : Restacked stack commands where
  perm := restack_perm stack commands
  unmoved keeps h := filter_restack hnodup h
  ignores := by
    rintro front cmd behind rfl h
    have hperm := restack_perm stack front
    rw [restack_append, restack_append, restack_cons,
      place_of_not_effective fun h' => h ((effective_congr hperm).mp h')]
  stands := by
    rintro front cmd behind rfl h
    obtain ⟨hmem, hmoves⟩ := (effective_congr (restack_perm stack front)).mpr h
    rw [restack_concat]
    exact standsAt_place hmem hmoves
  others := by
    rintro front cmd behind rfl
    rw [restack_concat]
    exact erase_place ((restack_perm stack front).nodup_iff.mpr hnodup)

/-- The first window is raised, the second put above it, the third below an unknown one, and the
first above itself. -/
theorem restack_restacked_chain :
    Restacked [⟨1⟩, ⟨2⟩, ⟨3⟩] [⟨⟨1⟩, (0, 0), .top, true⟩, ⟨⟨2⟩, (0, 0), .above ⟨1⟩, true⟩,
      ⟨⟨3⟩, (0, 0), .below ⟨9⟩, true⟩, ⟨⟨1⟩, (0, 0), .above ⟨1⟩, true⟩] ∧
    restack [⟨1⟩, ⟨2⟩, ⟨3⟩] [⟨⟨1⟩, (0, 0), .top, true⟩, ⟨⟨2⟩, (0, 0), .above ⟨1⟩, true⟩,
      ⟨⟨3⟩, (0, 0), .below ⟨9⟩, true⟩, ⟨⟨1⟩, (0, 0), .above ⟨1⟩, true⟩] = [⟨3⟩, ⟨1⟩, ⟨2⟩] :=
  ⟨restack_restacked _ _ (by decide), by decide⟩

end WmProtocolState

end WayRay
