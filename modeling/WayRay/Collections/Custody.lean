import Mathlib.Logic.Function.Basic

/-!
# Resources in custody

A `Ledger` records which resources the keepers hold, which have been taken so far, and which have
been given back.  A keeper may take more resources, give back all it holds, or begin anew with
others, whereby it forgets those it held.

A ledger is `Accounted` if every resource that has not been given back is held by a keeper.  Taking
and giving back keep it so; a keeper that begins anew does exactly if it held nothing
(`accounted_apply_iff`).  A forgotten resource stays forgotten, since only new ones are taken.
-/

namespace Custody

universe u v

variable {K : Type u} {R : Type v}

@[ext]
structure Ledger (K : Type u) (R : Type v) where
  held : K → List R
  taken : List R
  released : List R

/-- What a keeper does. -/
inductive Move (K : Type u) (R : Type v) where
  /-- Hold these resources, and no others. -/
  | begin (k : K) (fresh : List R)
  | take (k : K) (fresh : List R)
  | release (k : K)

namespace Move

def keeper : Move K R → K
  | begin k _ | take k _ | release k => k

/-- The resources that are taken. -/
def fresh : Move K R → List R
  | begin _ fresh | take _ fresh => fresh
  | release _ => []

/-- The keeper no longer holds what it held. -/
def Drops : Move K R → K → Prop
  | begin k _, k' | release k, k' => k' = k
  | take _ _, _ => False

end Move

namespace Ledger

def apply [DecidableEq K] (c : Ledger K R) : Move K R → Ledger K R
  | .begin k fresh =>
    { c with held := Function.update c.held k fresh, taken := c.taken ++ fresh }
  | .take k fresh =>
    { c with held := Function.update c.held k (c.held k ++ fresh), taken := c.taken ++ fresh }
  | .release k =>
    { c with held := Function.update c.held k [], released := c.released ++ c.held k }

/-- What is held or given back has been taken, and is held by one keeper only. -/
structure Sound (c : Ledger K R) : Prop where
  taken_of_held : ∀ {k r}, r ∈ c.held k → r ∈ c.taken
  notMem_released : ∀ {k r}, r ∈ c.held k → r ∉ c.released
  unique : ∀ {k k' r}, r ∈ c.held k → r ∈ c.held k' → k = k'
  taken_of_released : ∀ {r}, r ∈ c.released → r ∈ c.taken

/-- Every resource that has not been given back is held. -/
def Accounted (c : Ledger K R) : Prop := ∀ r ∈ c.taken, r ∉ c.released → ∃ k, r ∈ c.held k

/-- A keeper that begins anew holds nothing. -/
def Keeps (c : Ledger K R) : Move K R → Prop
  | .begin k _ => c.held k = []
  | .take _ _ | .release _ => True

/-- What is given back. -/
def returned (c : Ledger K R) : Move K R → List R
  | .release k => c.held k
  | .begin _ _ | .take _ _ => []

section Apply

variable [DecidableEq K] {c : Ledger K R} {move : Move K R}

variable (c move) in
theorem taken_apply : (c.apply move).taken = c.taken ++ move.fresh := by
  cases move with
  | begin k fresh | take k fresh => rfl
  | release k => exact (List.append_nil _).symm

variable (c move) in
theorem released_apply : (c.apply move).released = c.released ++ c.returned move := by
  cases move with
  | begin k fresh | take k fresh => exact (List.append_nil _).symm
  | release k => rfl

variable (c move) in
theorem mem_held_apply_iff {k : K} {r : R} : r ∈ (c.apply move).held k ↔
    k = move.keeper ∧ r ∈ move.fresh ∨ r ∈ c.held k ∧ ¬move.Drops k := by
  cases move with
  | begin k' fresh | take k' fresh | release k' =>
    by_cases hk : k = k'
    · subst hk
      simp [Ledger.apply, Move.keeper, Move.fresh, Move.Drops, or_comm]
    · simp [Ledger.apply, Move.keeper, Move.fresh, Move.Drops, hk]

omit [DecidableEq K] in
/-- What is given back was held, by the keeper, which drops it. -/
theorem mem_returned {r : R} (h : r ∈ c.returned move) :
    r ∈ c.held move.keeper ∧ move.Drops move.keeper := by
  cases move with
  | begin k fresh | take k fresh => exact absurd h List.not_mem_nil
  | release k => exact ⟨h, rfl⟩

/-- Only new resources are taken, so the ledger stays sound. -/
theorem Sound.apply (h : c.Sound) (hfresh : ∀ r ∈ move.fresh, r ∉ c.taken) :
    (c.apply move).Sound where
  taken_of_held hr := by
    rw [taken_apply]
    rcases (mem_held_apply_iff c move).mp hr with ⟨-, hr⟩ | ⟨hr, -⟩
    · exact List.mem_append_right _ hr
    · exact List.mem_append_left _ (h.taken_of_held hr)
  notMem_released {k r} hr := by
    rw [released_apply, List.mem_append, not_or]
    rcases (mem_held_apply_iff c move).mp hr with ⟨-, hr⟩ | ⟨hr, hkept⟩
    · exact ⟨fun hrel => hfresh r hr (h.taken_of_released hrel),
        fun hret => hfresh r hr (h.taken_of_held (mem_returned hret).1)⟩
    · refine ⟨h.notMem_released hr, fun hret => ?_⟩
      obtain ⟨hheld, hdrops⟩ := mem_returned hret
      rw [h.unique hr hheld] at hkept
      exact hkept hdrops
  unique {k k' r} hr hr' := by
    rcases (mem_held_apply_iff c move).mp hr with ⟨hk, hr⟩ | ⟨hr, -⟩
    · rcases (mem_held_apply_iff c move).mp hr' with ⟨hk', -⟩ | ⟨hr', -⟩
      · exact hk.trans hk'.symm
      · exact absurd (h.taken_of_held hr') (hfresh r hr)
    · rcases (mem_held_apply_iff c move).mp hr' with ⟨-, hr'⟩ | ⟨hr', -⟩
      · exact absurd (h.taken_of_held hr) (hfresh r hr')
      · exact h.unique hr hr'
  taken_of_released {r} hr := by
    rw [released_apply, List.mem_append] at hr
    rw [taken_apply]
    refine List.mem_append_left _ ?_
    rcases hr with hr | hr
    · exact h.taken_of_released hr
    · exact h.taken_of_held (mem_returned hr).1

/-- **Resources stay accounted for** exactly if no keeper forgets what it holds. -/
theorem accounted_apply_iff (h : c.Sound) (hfresh : ∀ r ∈ move.fresh, r ∉ c.taken) :
    (c.apply move).Accounted ↔ c.Accounted ∧ c.Keeps move := by
  -- what is held afterwards and is not new was held before
  have hold : ∀ {k r}, r ∈ (c.apply move).held k → r ∈ c.taken →
      r ∈ c.held k ∧ ¬move.Drops k := by
    intro k r hr htaken
    rcases (mem_held_apply_iff c move).mp hr with ⟨-, hr⟩ | hr
    · exact absurd htaken (hfresh r hr)
    · exact hr
  constructor
  · intro haccounted
    have hafter : ∀ r ∈ c.taken, r ∉ c.released → r ∉ c.returned move →
        ∃ k, r ∈ c.held k ∧ ¬move.Drops k := by
      intro r htaken hreleased hreturned
      obtain ⟨k, hk⟩ := haccounted r (by rw [taken_apply]; exact List.mem_append_left _ htaken)
        (by rw [released_apply, List.mem_append, not_or]; exact ⟨hreleased, hreturned⟩)
      exact ⟨k, hold hk htaken⟩
    constructor
    · intro r htaken hreleased
      by_cases hreturned : r ∈ c.returned move
      · exact ⟨move.keeper, (mem_returned hreturned).1⟩
      · obtain ⟨k, hk, -⟩ := hafter r htaken hreleased hreturned
        exact ⟨k, hk⟩
    · cases move with
      | begin k fresh =>
        refine List.eq_nil_iff_forall_not_mem.mpr fun r hr => ?_
        obtain ⟨k', hk', hkept⟩ :=
          hafter r (h.taken_of_held hr) (h.notMem_released hr) List.not_mem_nil
        exact hkept (h.unique hk' hr)
      | take k fresh | release k => trivial
  · rintro ⟨haccounted, hkeeps⟩ r htaken hreleased
    rw [taken_apply, List.mem_append] at htaken
    rw [released_apply, List.mem_append, not_or] at hreleased
    rcases htaken with htaken | hnew
    · obtain ⟨k, hk⟩ := haccounted r htaken hreleased.1
      refine ⟨k, (mem_held_apply_iff c move).mpr (Or.inr ⟨hk, fun hdrops => ?_⟩)⟩
      cases move with
      | begin k' fresh =>
        rw [hdrops, show c.held k' = [] from hkeeps] at hk
        exact absurd hk List.not_mem_nil
      | take k' fresh => exact hdrops
      | release k' =>
        rw [hdrops] at hk
        exact hreleased.2 hk
    · exact ⟨move.keeper, (mem_held_apply_iff c move).mpr (Or.inl ⟨rfl, hnew⟩)⟩

end Apply

/-- If nobody holds anything, everything is accounted for exactly if all has been given back. -/
theorem accounted_iff_of_held_eq_nil {c : Ledger K R} (h : ∀ k, c.held k = []) :
    c.Accounted ↔ ∀ r ∈ c.taken, r ∈ c.released := by
  refine forall_congr' fun r => forall_congr' fun hr => ?_
  simp [h]

end Ledger

end Custody
