import Mathlib.Data.List.Induction
import Mathlib.Tactic.Tauto

/-!
# What holds since an event

`Since keeps a events` says that `a` occurs in a history of events, the earliest first, and that
every event since keeps what `a` did.  `foldl_iff_since` is the rule for a fact about the state of a
system that one event establishes, that some events keep and the others end: it holds after a run
iff it holds since that event, or held at first and has been kept all along.
-/

namespace PastEvents

universe u v

variable {ε : Type u} {σ : Type v} {keeps : ε → Prop} {a : ε}

/-- The event occurs, and all events after it keep what it did. -/
def Since (keeps : ε → Prop) (a : ε) (events : List ε) : Prop :=
  ∃ before after, events = before ++ a :: after ∧ ∀ e ∈ after, keeps e

@[simp] theorem not_since_nil : ¬ Since keeps a [] := by
  rintro ⟨before, after, heq, -⟩
  exact List.append_ne_nil_of_right_ne_nil before (List.cons_ne_nil a after) heq.symm

/-- Either the last event is the one, or it keeps what holds since before. -/
theorem since_concat {events : List ε} {e : ε} :
    Since keeps a (events ++ [e]) ↔ e = a ∨ Since keeps a events ∧ keeps e := by
  constructor
  · rintro ⟨before, after, heq, hkeeps⟩
    cases after using List.reverseRecOn with
    | nil =>
      left
      exact (List.append_inj' heq rfl).2 |> List.head_eq_of_cons_eq
    | append_singleton after last =>
      rw [← List.cons_append, ← List.append_assoc] at heq
      obtain ⟨hevents, hlast⟩ := List.append_inj' heq rfl
      obtain rfl : e = last := List.head_eq_of_cons_eq hlast
      exact .inr ⟨⟨before, after, hevents, fun e' he' =>
        hkeeps e' (List.mem_append_left _ he')⟩, hkeeps e (by simp)⟩
  · rintro (rfl | ⟨⟨before, after, rfl, hkeeps⟩, he⟩)
    · exact ⟨events, [], rfl, by simp⟩
    · refine ⟨before, after ++ [e], by simp, fun e' he' => ?_⟩
      rcases List.mem_append.mp he' with h | h
      · exact hkeeps e' h
      · rwa [List.mem_singleton.mp h]

theorem Since.mem {events : List ε} (h : Since keeps a events) : a ∈ events := by
  obtain ⟨before, after, rfl, -⟩ := h
  simp

/-- Of the events of a kind, if there are any, one is the last. -/
theorem exists_since_iff {P : ε → Prop} {events : List ε} :
    (∃ a, P a ∧ Since (fun e => ¬ P e) a events) ↔ ∃ e ∈ events, P e := by
  constructor
  · rintro ⟨a, ha, hsince⟩
    exact ⟨a, hsince.mem, ha⟩
  · induction events using List.reverseRecOn with
    | nil => simp
    | append_singleton events last ih =>
      rintro ⟨e, he, hP⟩
      by_cases hlast : P last
      · exact ⟨last, hlast, since_concat.mpr (.inl rfl)⟩
      · have hmem : e ∈ events := by grind
        obtain ⟨a, ha, hsince⟩ := ih ⟨e, hmem, hP⟩
        exact ⟨a, ha, since_concat.mpr (.inr ⟨hsince, hlast⟩)⟩

variable {step : σ → ε → σ} {R : σ → Prop}

/-- A fact that one event establishes, and that the others keep or end. -/
theorem foldl_iff_since (hstep : ∀ s e, R (step s e) ↔ e = a ∨ R s ∧ keeps e) (s : σ)
    (events : List ε) :
    R (events.foldl step s) ↔ Since keeps a events ∨ R s ∧ ∀ e ∈ events, keeps e := by
  induction events using List.reverseRecOn with
  | nil => simp
  | append_singleton events e ih =>
    rw [List.foldl_append, List.foldl_cons, List.foldl_nil, hstep, ih, since_concat,
      List.forall_mem_append, List.forall_mem_singleton]
    tauto

/-- The same of a fact that does not hold at first. -/
theorem foldl_iff_since_of_not (hstep : ∀ s e, R (step s e) ↔ e = a ∨ R s ∧ keeps e) {s : σ}
    (h0 : ¬ R s) (events : List ε) : R (events.foldl step s) ↔ Since keeps a events := by
  rw [foldl_iff_since hstep, or_iff_left fun h => h0 h.1]

end PastEvents
