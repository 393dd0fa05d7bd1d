import Mathlib.Data.List.Basic

/-!
# Guarded runs

A run applies a list of events to a state, one after the other.  `Along step guard s events` says
that each event of the run satisfies a guard in the state it meets.  `Along.invariant` is the rule
for properties that every guarded step keeps, `along_iff_forall_initial` the rule for guards that
are exact, and `Along.of_append` cuts a run short.
-/

namespace GuardedRun

universe u v

variable {σ : Type u} {ε : Type v} {step : σ → ε → σ} {guard : σ → ε → Prop}

/-- Every event of the run satisfies the guard in the state it meets. -/
def Along (step : σ → ε → σ) (guard : σ → ε → Prop) : σ → List ε → Prop
  | _, [] => True
  | s, e :: events => guard s e ∧ Along step guard (step s e) events

/-- What holds initially and is kept by every guarded step holds after a guarded run. -/
theorem Along.invariant {I : σ → Prop} (hstep : ∀ s e, I s → guard s e → I (step s e)) {s : σ}
    (h0 : I s) {events : List ε} (h : Along step guard s events) : I (events.foldl step s) := by
  induction events generalizing s with
  | nil => exact h0
  | cons e events ih => exact ih (hstep s e h0 h.1) h.2

/-- The beginning of a guarded run is one. -/
theorem Along.of_append {s : σ} {pre post : List ε} (h : Along step guard s (pre ++ post)) :
    Along step guard s pre := by
  induction pre generalizing s with
  | nil => trivial
  | cons e pre ih => exact ⟨h.1, ih h.2⟩

/-- So are its events after a beginning. -/
theorem Along.after {s : σ} {pre post : List ε} {e : ε}
    (h : Along step guard s (pre ++ e :: post)) :
    guard (pre.foldl step s) e ∧ Along step guard (step (pre.foldl step s) e) post := by
  induction pre generalizing s with
  | nil => exact h
  | cons e' pre ih => exact ih h.2

/-- Two guards are satisfied together. -/
theorem Along.and {guard' : σ → ε → Prop} {s : σ} {events : List ε} (h : Along step guard s events)
    (h' : Along step guard' s events) :
    Along step (fun s e => guard s e ∧ guard' s e) s events := by
  induction events generalizing s with
  | nil => trivial
  | cons e events ih => exact ⟨⟨h.1, h'.1⟩, ih h.2 h'.2⟩

/-- A run is guarded if every event of it is. -/
theorem along_iff_forall_split {s : σ} {events : List ε} :
    Along step guard s events ↔
      ∀ pre e post, events = pre ++ e :: post → guard (pre.foldl step s) e := by
  constructor
  · rintro h pre e post rfl
    exact h.after.1
  · intro h
    induction events generalizing s with
    | nil => trivial
    | cons e events ih =>
      refine ⟨h [] e events rfl, ih fun pre e' post heq => ?_⟩
      exact h (e :: pre) e' post (congrArg (e :: ·) heq)

/-- Guards that agree under an invariant of the guarded runs guard the same runs. -/
theorem along_congr {I : σ → Prop} {guard' : σ → ε → Prop}
    (hI : ∀ s e, I s → guard s e → I (step s e)) (hguard : ∀ s e, I s → (guard s e ↔ guard' s e))
    {s : σ} (h0 : I s) {events : List ε} :
    Along step guard s events ↔ Along step guard' s events := by
  induction events generalizing s with
  | nil => exact Iff.rfl
  | cons e events ih =>
    unfold Along
    rw [← hguard s e h0]
    exact and_congr_right fun he => ih (hI s e h0 he)

/-- If, under an invariant of the guarded runs, a step leads to a good state exactly where the guard
is satisfied, then the guarded runs are those in which every state is good. -/
theorem along_iff_forall_guarded {I G : σ → Prop} (hI : ∀ s e, I s → guard s e → I (step s e))
    (hG : ∀ s e, I s → (guard s e ↔ G (step s e))) {s : σ} (h0 : I s) (g0 : G s)
    {events : List ε} :
    Along step guard s events ↔ ∀ pre, pre <+: events → G (pre.foldl step s) := by
  induction events generalizing s with
  | nil =>
    refine iff_of_true trivial fun pre hpre => ?_
    rw [List.prefix_nil.mp hpre]
    exact g0
  | cons e events ih =>
    have hstep := hG s e h0
    constructor
    · rintro ⟨hguard, hrest⟩ pre hpre
      cases pre with
      | nil => exact g0
      | cons e' pre =>
        obtain ⟨rfl, hrest'⟩ := List.cons_prefix_cons.mp hpre
        exact (ih (hI s e' h0 hguard) (hstep.mp hguard)).mp hrest pre hrest'
    · intro h
      have hgood : G (step s e) := h [e] (List.prefix_iff_eq_take.mpr rfl)
      have hguard := hstep.mpr hgood
      refine ⟨hguard, (ih (hI s e h0 hguard) hgood).mpr fun pre hpre => ?_⟩
      exact h (e :: pre) (List.cons_prefix_cons.mpr ⟨rfl, hpre⟩)

/-- If, under an invariant, a good state is followed by a good one exactly where the guard is
satisfied, then the guarded runs are those in which every state is good. -/
theorem along_iff_forall_initial {I G : σ → Prop} (hI : ∀ s e, I s → I (step s e))
    (hG : ∀ s e, I s → G s → (guard s e ↔ G (step s e))) {s : σ} (h0 : I s) (g0 : G s)
    {events : List ε} :
    Along step guard s events ↔ ∀ pre, pre <+: events → G (pre.foldl step s) :=
  along_iff_forall_guarded (I := fun s => I s ∧ G s)
    (fun s e h hguard => ⟨hI s e h.1, (hG s e h.1 h.2).mp hguard⟩) (fun s e h => hG s e h.1 h.2)
    ⟨h0, g0⟩ g0

/-- If, under an invariant, a step leads to a good state exactly from a good one where the guard is
satisfied, then a run ends in a good state exactly if it begins in one and is guarded. -/
theorem foldl_iff_along {I G : σ → Prop} (hI : ∀ s e, I s → I (step s e))
    (hG : ∀ s e, I s → (G (step s e) ↔ G s ∧ guard s e)) {s : σ} (h0 : I s) {events : List ε} :
    G (events.foldl step s) ↔ G s ∧ Along step guard s events := by
  induction events generalizing s with
  | nil => exact (and_iff_left trivial).symm
  | cons e events ih => rw [List.foldl_cons, ih (hI s e h0), hG s e h0, Along, and_assoc]

end GuardedRun
