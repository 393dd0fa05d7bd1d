import Mathlib.Data.Finset.Insert
import Mathlib.Data.Finset.Erase

/-!
# What is held after presses and releases

An edge is a key with whether it is pressed (`true`) or released (`false`), and `toggle` records an
edge in the set of held keys.  A list of edges is `Settled` if every press in it is followed by a
release of the same key; exactly such a list leaves nothing held (`foldl_toggle_eq_empty`).
-/

namespace Held

universe u

variable {K : Type u} [DecidableEq K]

/-- Record a press or a release. -/
def toggle (held : Finset K) (edge : K × Bool) : Finset K :=
  if edge.2 then insert edge.1 held else held.erase edge.1

omit [DecidableEq K] in
/-- Every press is followed by a release of the same key. -/
def Settled (edges : List (K × Bool)) : Prop :=
  ∀ pre k post, edges = pre ++ (k, true) :: post → (k, false) ∈ post

theorem mem_toggle_of_ne {held : Finset K} (edge : K × Bool) {k : K} (h : k ≠ edge.1) :
    k ∈ toggle held edge ↔ k ∈ held := by
  unfold toggle
  split_ifs
  · rw [Finset.mem_insert, or_iff_right h]
  · rw [Finset.mem_erase, and_iff_right h]

theorem mem_toggle_self {held : Finset K} (edge : K × Bool) :
    edge.1 ∈ toggle held edge ↔ edge.2 = true := by
  unfold toggle
  split_ifs with h
  · exact iff_of_true (Finset.mem_insert_self _ _) h
  · exact iff_of_false (Finset.notMem_erase _ _) h

/-- A key is held after some edges if it was held and is not released, or pressed and not released
any more. -/
theorem mem_foldl_toggle {held : Finset K} {edges : List (K × Bool)} {k : K} :
    k ∈ edges.foldl toggle held ↔ (k ∈ held ∧ (k, false) ∉ edges) ∨
      ∃ pre post, edges = pre ++ (k, true) :: post ∧ (k, false) ∉ post := by
  induction edges generalizing held with
  | nil => simp
  | cons edge edges ih =>
    -- a last press is the first edge, or one of the others
    have hsplit : (∃ pre post, edge :: edges = pre ++ (k, true) :: post ∧ (k, false) ∉ post) ↔
        (edge = (k, true) ∧ (k, false) ∉ edges) ∨
          ∃ pre post, edges = pre ++ (k, true) :: post ∧ (k, false) ∉ post := by
      constructor
      · rintro ⟨pre, post, heq, hpost⟩
        cases pre with
        | nil =>
          obtain ⟨rfl, rfl⟩ := List.cons.inj heq
          exact .inl ⟨rfl, hpost⟩
        | cons _ pre => exact .inr ⟨pre, post, (List.cons.inj heq).2, hpost⟩
      · rintro (⟨rfl, hpost⟩ | ⟨pre, post, rfl, hpost⟩)
        · exact ⟨[], edges, rfl, hpost⟩
        · exact ⟨edge :: pre, post, rfl, hpost⟩
    rw [List.foldl_cons, ih, hsplit, ← or_assoc]
    refine or_congr_left ?_
    obtain ⟨key, pressed⟩ := edge
    by_cases hkey : k = key
    · subst hkey
      rw [mem_toggle_self (k, pressed)]
      cases pressed <;> simp
    · rw [mem_toggle_of_ne (key, pressed) hkey]
      simp [hkey, Ne.symm hkey]

/-- **No key pressed by some edges is held after them exactly if they are settled**, whatever was
held before. -/
theorem pressed_notMem_foldl_toggle {held : Finset K} {edges : List (K × Bool)} :
    (∀ k, (k, true) ∈ edges → k ∉ edges.foldl toggle held) ↔ Settled edges := by
  constructor
  · intro h pre k post heq
    by_contra hpost
    have hmem : (k, true) ∈ edges := heq ▸ List.mem_append_right _ List.mem_cons_self
    exact h k hmem (mem_foldl_toggle.mpr (.inr ⟨pre, post, heq, hpost⟩))
  · intro h k hmem hk
    rcases mem_foldl_toggle.mp hk with ⟨-, hnever⟩ | ⟨pre, post, heq, hpost⟩
    · obtain ⟨pre, post, rfl⟩ := List.append_of_mem hmem
      have hreleased := h pre k post rfl
      exact hnever (List.mem_append_right _ (List.mem_cons_of_mem _ hreleased))
    · exact hpost (h pre k post heq)

/-- **Nothing is held after edges exactly if they are settled.** -/
theorem foldl_toggle_eq_empty {edges : List (K × Bool)} :
    edges.foldl toggle ∅ = ∅ ↔ Settled edges := by
  rw [← @pressed_notMem_foldl_toggle K _ ∅, Finset.eq_empty_iff_forall_notMem]
  refine forall_congr' fun k => ⟨fun h _ => h, fun h hk => ?_⟩
  -- a held key has been pressed
  rcases mem_foldl_toggle.mp hk with ⟨hempty, -⟩ | ⟨pre, post, rfl, -⟩
  · exact Finset.notMem_empty k hempty
  · exact h (List.mem_append_right _ List.mem_cons_self) hk

omit [DecidableEq K] in
/-- The edges of some of the keys are settled if all are. -/
theorem Settled.filter {edges : List (K × Bool)} (h : Settled edges) (p : K → Bool) :
    Settled (edges.filter fun edge => p edge.1) := by
  intro pre k post heq
  obtain ⟨l₁, l₂, rfl, -, hl₂⟩ := List.filter_eq_append_iff.mp heq
  obtain ⟨m₁, m₂, rfl, -, hk, rfl⟩ := List.filter_eq_cons_iff.mp hl₂
  have hreleased : (k, false) ∈ m₂ := h (l₁ ++ m₁) k m₂ (List.append_assoc _ _ _).symm
  exact List.mem_filter.mpr ⟨hreleased, hk⟩

end Held
