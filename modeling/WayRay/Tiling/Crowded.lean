import WayRay.Tiling.Bsp

/-!
# Crowded outputs

With more windows than an output has room for, sides get short, then negative, but no operation of
the layout overflows as long as there are at most 2^14 windows: a side that has been divided ends
at most two pixels outside the one it comes from (`Slim.divide`).
-/

namespace WayRay

namespace Tiling

/-- A side, perhaps negative, both ends of which are at most `slack` outside of the output. -/
structure Slim (slack start length : ℤ) : Prop where
  start_ge : -slack ≤ start
  start_le : start ≤ 2 ^ 16 + slack
  stop_ge : -slack ≤ start + length
  stop_le : start + length ≤ 2 ^ 16 + slack

theorem Slim.mono {slack start length : ℤ} (h : Slim slack start length) {slack' : ℤ}
    (hle : slack ≤ slack') : Slim slack' start length := by
  obtain ⟨h₁, h₂, h₃, h₄⟩ := h
  exact ⟨by omega, by omega, by omega, by omega⟩

/-- A share of at most a half lies between nothing and the half. -/
theorem share_between (length : ℤ) {half count : ℤ} (hcount : 0 < count) (hhalf : 0 ≤ half)
    (hle : 2 * half ≤ count) :
    (0 ≤ length → 0 ≤ (length * half).tdiv count ∧ 2 * (length * half).tdiv count ≤ length) ∧
      (length < 0 → (length * half).tdiv count ≤ 0 ∧ length ≤ 2 * (length * half).tdiv count) := by
  have hnonneg : ∀ length : ℤ, 0 ≤ length →
      0 ≤ (length * half).tdiv count ∧ 2 * (length * half).tdiv count ≤ length := by
    intro length hlength
    have hproduct : 0 ≤ length * half := mul_nonneg hlength hhalf
    rw [Int.tdiv_eq_ediv_of_nonneg hproduct]
    refine ⟨Int.ediv_nonneg hproduct hcount.le, ?_⟩
    have hshare : length * half / count * count ≤ length * half := Int.ediv_mul_le _ hcount.ne'
    have htwice : length * (2 * half) ≤ length * count := mul_le_mul_of_nonneg_left hle hlength
    refine le_of_mul_le_mul_right ?_ hcount
    calc 2 * (length * half / count) * count
        = 2 * (length * half / count * count) := by ring
      _ ≤ 2 * (length * half) := by omega
      _ = length * (2 * half) := by ring
      _ ≤ length * count := htwice
  refine ⟨hnonneg length, fun hneg => ?_⟩
  have hmirrored := hnonneg (-length) (by omega)
  rw [neg_mul, Int.neg_tdiv] at hmirrored
  omega

/-- Shares of sides around the output do not overflow. -/
theorem product_inRange {length half : ℤ} (hlength : -2 ^ 17 - 64 ≤ length ∧ length ≤ 2 ^ 17 + 64)
    (hhalf : 0 ≤ half ∧ half ≤ 2 ^ 13 + 8) : I32.InRange (length * half) := by
  have hupper : length * half ≤ (2 ^ 17 + 64) * half :=
    mul_le_mul_of_nonneg_right hlength.2 hhalf.1
  have hlower : (-2 ^ 17 - 64) * half ≤ length * half :=
    mul_le_mul_of_nonneg_right hlength.1 hhalf.1
  constructor <;> omega

/-- Dividing a side does not overflow, and both parts stay near it. -/
theorem Slim.divide {slack start length : ℤ} {count : ℕ} (h : Slim slack start length)
    (hcount : 2 ≤ count) (hslack : 0 ≤ slack ∧ slack + 2 * count ≤ 2 ^ 15 + 16) :
    ∃ first second, Tiling.divide length (count / 2) count = some (first, second) ∧
      behind start first = some (start + first + gap) ∧ Slim (slack + 2) start first ∧
      Slim (slack + 2) (start + first + gap) second := by
  obtain ⟨hstart, hstart', hstop, hstop'⟩ := h
  obtain ⟨half, hhalf⟩ : ∃ half, half = count / 2 := ⟨_, rfl⟩
  rw [← hhalf]
  have hproduct : I32.InRange (length * half) :=
    product_inRange ⟨by omega, by omega⟩ ⟨by omega, by omega⟩
  obtain ⟨hlong, hshort⟩ := @share_between length half count (by omega) (by omega) (by omega)
  have hquotient : I32.div (length * half) count = some ((length * half).tdiv count) := by
    rw [I32.div, if_neg (by omega)]
    exact I32.checked_of_inRange ⟨by omega, by omega⟩
  generalize (length * half).tdiv count = share at hlong hshort hquotient
  have hfirst : I32.sub share (gap.tdiv 2) = some (share - 2) :=
    I32.sub_of_inRange (b := 2) ⟨by omega, by omega⟩
  have hrest : I32.sub length (share - 2) = some (length - (share - 2)) :=
    I32.sub_of_inRange ⟨by omega, by omega⟩
  have hsecond : I32.sub (length - (share - 2)) gap = some (length - (share - 2) - gap) :=
    I32.sub_of_inRange (by unfold gap; exact ⟨by omega, by omega⟩)
  have hadd : I32.add start (share - 2) = some (start + (share - 2)) :=
    I32.add_of_inRange ⟨by omega, by omega⟩
  refine ⟨share - 2, length - (share - 2) - gap, ?_, ?_, ?_, ?_⟩
  · unfold Tiling.divide
    rw [I32.ofUsize_of_lt (by omega), I32.ofUsize_of_lt (by omega), I32.mul_of_inRange hproduct]
    simp only [Option.bind_eq_bind, Option.bind_some, hquotient, hfirst, hrest, hsecond]
    rfl
  · unfold behind
    rw [hadd, Option.bind_eq_bind, Option.bind_some]
    exact I32.add_of_inRange (by unfold gap; exact ⟨by omega, by omega⟩)
  · exact ⟨by omega, by omega, by omega, by omega⟩
  · unfold gap
    exact ⟨by omega, by omega, by omega, by omega⟩

/-- A crowded area is laid out without overflow, in as many tiles as there are windows. -/
theorem bspLayout_crowded {count : ℕ} (hcount : 1 ≤ count) {slack x y w h : ℤ}
    (hslack : 0 ≤ slack ∧ slack + 2 * count ≤ 2 ^ 15 + 16) (hw : Slim slack x w)
    (hh : Slim slack y h) (horizontal : Bool) (depth : ℕ) (hdepth : count ≤ depth)
    (layouts : List Tile) :
    ∃ tiles, bspLayout depth x y w h count horizontal layouts = some (layouts ++ tiles) ∧
      tiles.length = count := by
  induction count using Nat.strongRecOn generalizing slack x y w h horizontal depth layouts with
  | ind count ih =>
    obtain ⟨depth, rfl⟩ : ∃ d, depth = d + 1 := ⟨depth - 1, by omega⟩
    rcases Nat.lt_or_ge 1 count with htwo | hone
    · rw [bspLayout, if_neg (by omega)]
      have hslack' : ∀ part : ℕ, part + 1 ≤ count →
          0 ≤ slack + 2 ∧ slack + 2 + 2 * part ≤ 2 ^ 15 + 16 :=
        fun part hpart => ⟨by omega, by omega⟩
      cases horizontal with
      | true =>
        obtain ⟨first, second, hdivide, hbehind, hfirst, hsecond⟩ := hw.divide htwo hslack
        have hheight : Slim (slack + 2) y h := hh.mono (by omega)
        obtain ⟨tiles₁, hlays₁, hlength₁⟩ := ih (count / 2) (by omega) (by omega)
          (hslack' _ (by omega)) hfirst hheight false depth (by omega) layouts
        obtain ⟨tiles₂, hlays₂, hlength₂⟩ := ih (count - count / 2) (by omega) (by omega)
          (hslack' _ (by omega)) hsecond hheight false depth (by omega)
          (layouts ++ tiles₁)
        refine ⟨tiles₁ ++ tiles₂, ?_, ?_⟩
        · simp only [if_true, hdivide, Option.bind_eq_bind, Option.bind_some, Bool.not_true,
            hbehind, hlays₁, hlays₂, List.append_assoc]
        · rw [List.length_append, hlength₁, hlength₂]
          omega
      | false =>
        obtain ⟨first, second, hdivide, hbehind, hfirst, hsecond⟩ := hh.divide htwo hslack
        have hwidth : Slim (slack + 2) x w := hw.mono (by omega)
        obtain ⟨tiles₁, hlays₁, hlength₁⟩ := ih (count / 2) (by omega) (by omega)
          (hslack' _ (by omega)) hwidth hfirst true depth (by omega) layouts
        obtain ⟨tiles₂, hlays₂, hlength₂⟩ := ih (count - count / 2) (by omega) (by omega)
          (hslack' _ (by omega)) hwidth hsecond true depth (by omega)
          (layouts ++ tiles₁)
        refine ⟨tiles₁ ++ tiles₂, ?_, ?_⟩
        · simp only [Bool.false_eq_true, if_false, hdivide, Option.bind_eq_bind, Option.bind_some,
            Bool.not_false, hbehind, hlays₁, hlays₂, List.append_assoc]
        · rw [List.length_append, hlength₁, hlength₂]
          omega
    · obtain rfl : count = 1 := by omega
      exact ⟨[⟨x, y, w, h⟩], by rw [bspLayout, if_pos rfl], rfl⟩

/-- **The layout of an output never overflows**, with up to 2^14 windows. -/
theorem calculateLayout_crowded {outputWidth outputHeight : ℤ} {windows depth : ℕ}
    (hw : 0 ≤ outputWidth ∧ outputWidth ≤ 2 ^ 16) (hh : 0 ≤ outputHeight ∧ outputHeight ≤ 2 ^ 16)
    (hwindows : windows ≤ 2 ^ 14) (hdepth : windows ≤ depth) :
    ∃ tiles, calculateLayout depth outputWidth outputHeight windows = some tiles ∧
      tiles.length = windows := by
  rcases Nat.eq_zero_or_pos windows with rfl | hpos
  · exact ⟨[], rfl, rfl⟩
  have hmargins : I32.mul 2 gap = some (2 * gap) := I32.mul_of_inRange (by decide)
  have hinner : ∀ length : ℤ, 0 ≤ length ∧ length ≤ 2 ^ 16 →
      I32.sub length (2 * gap) = some (length - 2 * gap) ∧ Slim 4 gap (length - 2 * gap) := by
    unfold gap
    exact fun length hlength => ⟨I32.sub_of_inRange ⟨by omega, by omega⟩,
      ⟨by omega, by omega, by omega, by omega⟩⟩
  obtain ⟨hwidth, hslimWidth⟩ := hinner _ hw
  obtain ⟨hheight, hslimHeight⟩ := hinner _ hh
  rw [calculateLayout, if_neg (by omega)]
  simp only [hmargins, hwidth, hheight, Option.bind_eq_bind, Option.bind_some]
  split_ifs with hone
  · exact ⟨_, rfl, by rw [List.length_singleton, hone]⟩
  · obtain ⟨tiles, hlays, hlength⟩ := bspLayout_crowded hpos ⟨by omega, by omega⟩ hslimWidth
      hslimHeight true depth hdepth []
    exact ⟨tiles, hlays, hlength⟩

end Tiling

end WayRay
