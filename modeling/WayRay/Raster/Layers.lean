import Mathlib.Data.Set.Basic
import Mathlib.Data.List.Basic

/-!
# Layers and buffers of different ages

A picture is composed of layers, the first one in front (`composite`).  A layer may hide what is
behind it at a point, or leave it as it is.

A picture that is drawn again and again need not be drawn anew if it is known where it has changed.
`Aged` is what this rests on when the buffers that are drawn into take turns: an older buffer
differs from the newest one only where the pictures drawn since were damaged.

Everything is over an arbitrary type of points and of colors.
-/

namespace Raster

universe u v

variable {P : Type u} {C : Type v}

/-! ### Layers -/

/-- The color of a point: each layer paints over what is behind it. -/
def composite (clear : C) (layers : List (P → C → C)) (p : P) : C :=
  layers.foldr (fun layer => layer p) clear

/-- Nothing shows through a layer. -/
def Hides (layer : P → C → C) (p : P) : Prop := ∀ c c', layer p c = layer p c'

variable {clear : C} {layer : P → C → C} {layers layers' : List (P → C → C)} {p : P}

@[simp] theorem composite_nil (clear : C) (p : P) : composite clear [] p = clear := rfl

@[simp] theorem composite_cons (clear : C) (layer : P → C → C) (layers : List (P → C → C)) (p : P) :
    composite clear (layer :: layers) p = layer p (composite clear layers p) := rfl

/-- What a layer does at a point; a missing layer does nothing. -/
def effectAt (layers : List (P → C → C)) (z : ℕ) (p : P) : C → C :=
  (layers[z]?).elim id fun layer => layer p

@[simp] theorem effectAt_nil (z : ℕ) (p : P) : effectAt ([] : List (P → C → C)) z p = id := rfl

@[simp] theorem effectAt_cons_zero : effectAt (layer :: layers) 0 p = layer p := rfl

@[simp] theorem effectAt_cons_succ (z : ℕ) :
    effectAt (layer :: layers) (z + 1) p = effectAt layers z p := rfl

theorem composite_eq_of_effectAt_nil (h : ∀ z, effectAt layers z p = id) :
    composite clear layers p = clear := by
  induction layers with
  | nil => rfl
  | cons layer layers ih =>
    have hlayer : layer p = id := h 0
    rw [composite_cons, hlayer, id, ih fun z => h (z + 1)]

/-- Layers that do the same at a point, one by one, compose the same color. -/
theorem composite_congr (h : ∀ z, effectAt layers z p = effectAt layers' z p) :
    composite clear layers p = composite clear layers' p := by
  induction layers generalizing layers' with
  | nil => exact (composite_eq_of_effectAt_nil fun z => (h z).symm).symm
  | cons layer layers ih =>
    cases layers' with
    | nil => exact composite_eq_of_effectAt_nil h
    | cons layer' layers' =>
      have hlayer : layer p = layer' p := h 0
      rw [composite_cons, composite_cons, hlayer, ih fun z => h (z + 1)]

/-! ### Buffers -/

/-- The points that one of the last pictures was damaged in. -/
def recent (damages : List (Set P)) (age : ℕ) : Set P := {p | ∃ d ∈ damages.take age, p ∈ d}

/-- Every buffer differs from the newest one only where the pictures drawn since were damaged. -/
def Aged (area : Set P) (buffers : List (P → C)) (damages : List (Set P)) : Prop :=
  ∀ k < damages.length, ∀ buffer newest, buffers[k]? = some buffer → buffers[0]? = some newest →
    ∀ p ∈ area, p ∉ recent damages k → buffer p = newest p

variable {area : Set P} {buffers : List (P → C)} {damages : List (Set P)} {damage : Set P}
  {picture : P → C}

@[simp] theorem mem_recent_cons (age : ℕ) :
    p ∈ recent (damage :: damages) (age + 1) ↔ p ∈ damage ∨ p ∈ recent damages age := by
  simp [recent]

theorem recent_take {age n : ℕ} (h : age ≤ n) :
    recent (damages.take n) age = recent damages age := by
  unfold recent
  rw [List.take_take, min_eq_left h]

/-- Old damage may be forgotten. -/
theorem Aged.take (h : Aged area buffers damages) (n : ℕ) :
    Aged area buffers (damages.take n) := by
  intro k hk buffer newest hbuffer hnewest p hp hout
  rw [List.length_take] at hk
  rw [recent_take (by omega)] at hout
  exact h k (by omega) buffer newest hbuffer hnewest p hp hout

/-- A picture that differs from the newest one only where it is damaged. -/
theorem Aged.push (h : Aged area buffers damages)
    (hpicture : ∀ newest, buffers[0]? = some newest → ∀ p ∈ area, p ∉ damage →
      newest p = picture p) :
    Aged area (picture :: buffers) (damage :: damages) := by
  intro k hk buffer newest hbuffer hnewest p hp hout
  obtain rfl := Option.some.inj hnewest
  cases k with
  | zero => rw [← Option.some.inj hbuffer]
  | succ k =>
    rw [mem_recent_cons, not_or] at hout
    have hold : buffers[k]? = some buffer := hbuffer
    obtain ⟨newest, hnewest⟩ : ∃ newest, buffers[0]? = some newest := by
      have hlt := (List.getElem?_eq_some_iff.mp hold).1
      exact ⟨buffers[0], List.getElem?_eq_getElem (by omega)⟩
    rw [h k (Nat.lt_of_succ_lt_succ hk) buffer newest hold hnewest p hp hout.2]
    exact hpicture newest hnewest p hp hout.1

/-- A picture that is damaged everywhere. -/
theorem aged_of_whole (h : ∀ p ∈ area, p ∈ damage) (picture : P → C) (buffers : List (P → C)) :
    Aged area (picture :: buffers) (damage :: damages) := by
  intro k hk buffer newest hbuffer hnewest p hp hout
  cases k with
  | zero => rw [← Option.some.inj hbuffer, ← Option.some.inj hnewest]
  | succ k =>
    rw [mem_recent_cons, not_or] at hout
    exact absurd (h p hp) hout.1

end Raster
