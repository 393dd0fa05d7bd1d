import Mathlib.Data.List.Basic

/-!
# A parser repeated on the rest

A `FrontParser` takes a value off the front of a list, or says why it takes none.  `run` applies it
to the unconsumed rest as long as it takes something; `Reached` are the rests it is applied to.  Two
parsers yield the same if and only if they agree on every rest that one of them reaches
(`run_eq_iff`).
-/

universe u v w

/-- A parser of the front of a list; a value takes at least one element. -/
structure FrontParser (τ : Type u) (σ : Type v) (α : Type w) where
  /-- A value and the number of elements it took, or why there is none. -/
  parse : List τ → Except σ (α × ℕ)
  takes : ∀ {input a n}, parse input = .ok (a, n) → 0 < n ∧ n ≤ input.length

namespace FrontParser

variable {τ : Type u} {σ : Type v} {α : Type w}

/-- What repeating a parser yields. -/
@[ext] structure Outcome (τ : Type u) (σ : Type v) (α : Type w) where
  /-- The values, each with the number of elements it took. -/
  values : List (α × ℕ)
  ending : σ
  rest : List τ

/-- A value before those of an outcome. -/
def Outcome.cons (value : α × ℕ) (o : Outcome τ σ α) : Outcome τ σ α :=
  ⟨value :: o.values, o.ending, o.rest⟩

theorem Outcome.cons_inj {value value' : α × ℕ} {o o' : Outcome τ σ α} :
    o.cons value = o'.cons value' ↔ value = value' ∧ o = o' := by
  simp only [Outcome.cons, Outcome.ext_iff, List.cons.injEq, and_assoc]

theorem length_drop_lt (p : FrontParser τ σ α) {input : List τ} {a : α} {n : ℕ}
    (h : p.parse input = .ok (a, n)) : (input.drop n).length < input.length := by
  obtain ⟨hpos, hle⟩ := p.takes h
  rw [List.length_drop]
  omega

/-- Apply the parser to the unconsumed rest until it takes nothing. -/
def run (p : FrontParser τ σ α) (input : List τ) : Outcome τ σ α :=
  match h : p.parse input with
  | .error ending => ⟨[], ending, input⟩
  | .ok (a, n) =>
    have := p.length_drop_lt h
    (p.run (input.drop n)).cons (a, n)
termination_by input.length
decreasing_by assumption

/-- The rests that the parser is applied to. -/
inductive Reached (p : FrontParser τ σ α) : List τ → List τ → Prop
  | here (input : List τ) : Reached p input input
  | later {input rest : List τ} {a : α} {n : ℕ} (h : p.parse input = .ok (a, n))
      (hrest : Reached p (input.drop n) rest) : Reached p input rest

variable {p q : FrontParser τ σ α} {input rest : List τ} {a : α} {n : ℕ} {ending : σ}

theorem run_error (h : p.parse input = .error ending) : p.run input = ⟨[], ending, input⟩ := by
  rw [run]
  split
  · next ending' h' => rw [Except.error.inj (h'.symm.trans h)]
  · next h' => cases h'.symm.trans h

theorem run_ok (h : p.parse input = .ok (a, n)) :
    p.run input = (p.run (input.drop n)).cons (a, n) := by
  rw [run]
  split
  · next h' => cases h'.symm.trans h
  · next a' n' h' =>
    obtain ⟨rfl, rfl⟩ := Prod.mk.inj (Except.ok.inj (h'.symm.trans h))
    rfl

/-- Induction along a run. -/
theorem run_induction {motive : List τ → Prop} (p : FrontParser τ σ α)
    (stop : ∀ input ending, p.parse input = .error ending → motive input)
    (next : ∀ input a n, p.parse input = .ok (a, n) → motive (input.drop n) → motive input)
    (input : List τ) : motive input := by
  induction hlen : input.length using Nat.strongRecOn generalizing input with
  | ind len ih =>
    rcases hparse : p.parse input with ending | ⟨a, n⟩
    · exact stop input ending hparse
    · exact next input a n hparse (ih _ (hlen ▸ p.length_drop_lt hparse) _ rfl)

/-- A run ends at a rest from which the parser takes nothing. -/
theorem reached_run (p : FrontParser τ σ α) (input : List τ) :
    p.Reached input (p.run input).rest ∧
      p.parse (p.run input).rest = .error (p.run input).ending := by
  induction input using run_induction p with
  | stop input ending hparse =>
    rw [run_error hparse]
    exact ⟨.here input, hparse⟩
  | next input a n hparse ih =>
    rw [run_ok hparse]
    exact ⟨.later hparse ih.1, ih.2⟩

/-- A run says what the parser does first. -/
theorem parse_eq_of_run_eq (h : p.run input = q.run input) : p.parse input = q.parse input := by
  rcases hp : p.parse input with ending | ⟨a, n⟩ <;> rcases hq : q.parse input with ending' | ⟨b, m⟩
  · rw [run_error hp, run_error hq, Outcome.mk.injEq] at h
    rw [h.2.1]
  · rw [run_error hp, run_ok hq] at h
    cases congrArg Outcome.values h
  · rw [run_ok hp, run_error hq] at h
    cases congrArg Outcome.values h
  · rw [run_ok hp, run_ok hq, Outcome.cons_inj] at h
    rw [h.1]

/-- **Two parsers yield the same** if and only if they agree on every rest that one of them
reaches. -/
theorem run_eq_iff :
    p.run input = q.run input ↔ ∀ rest, p.Reached input rest → p.parse rest = q.parse rest := by
  constructor
  · intro h rest hreached
    induction hreached with
    | here input => exact parse_eq_of_run_eq h
    | later hparse _ ih =>
      have hq := (parse_eq_of_run_eq h).symm.trans hparse
      rw [run_ok hparse, run_ok hq, Outcome.cons_inj] at h
      exact ih h.2
  · intro h
    induction input using run_induction p with
    | stop input ending hparse =>
      rw [run_error hparse, run_error ((h input (.here input)).symm.trans hparse)]
    | next input a n hparse ih =>
      have hq := (h input (.here input)).symm.trans hparse
      rw [run_ok hparse, run_ok hq, ih fun rest hrest => h rest (.later hparse hrest)]

end FrontParser
