import WayRay.Arithmetic.I32
import WayRay.Collections.Splits
import Mathlib.Tactic.Ring

/-!
# The tiling window manager

`wr-wm-tiling`: the windows tile the output by binary space partitioning.  `bspLayout` halves the
number of windows and divides the area in proportion, alternately along the two axes, with a gap
between the two parts.  It has no end for no windows, so its calls are counted: `depth` bounds how
deeply they are nested.

An area whose sides are at least eight times the number of windows, less six, divides into two such
areas (`Side.divide`).  So the layout of such an area results from splitting it (`Splits`,
`exists_lays`): `bspLayout_tiles`.
-/

namespace WayRay

open Splitting

namespace Tiling

/-! ### The layout -/

/-- Position and size of a window. -/
structure Tile where
  x : ℤ
  y : ℤ
  w : ℤ
  h : ℤ
deriving DecidableEq

/-- The space around and between windows. -/
def gap : ℤ := 4

/-- Divide a side between the first half of the windows and the others. -/
def divide (length : ℤ) (firstHalf count : ℕ) : Option (ℤ × ℤ) := do
  let product ← I32.mul length (I32.ofUsize firstHalf)
  let share ← I32.div product (I32.ofUsize count)
  let first ← I32.sub share (gap.tdiv 2)
  let rest ← I32.sub length first
  let second ← I32.sub rest gap
  return (first, second)

/-- Where the second part begins. -/
def behind (start first : ℤ) : Option ℤ := do
  let stop ← I32.add start first
  I32.add stop gap

/-- Append the tiles of an area; `none` if an operation overflows, or calls are nested more deeply
than `depth`. -/
def bspLayout : ℕ → ℤ → ℤ → ℤ → ℤ → ℕ → Bool → List Tile → Option (List Tile)
  | 0, _, _, _, _, _, _, _ => none
  | depth + 1, x, y, w, h, count, horizontal, layouts =>
    if count = 1 then some (layouts ++ [⟨x, y, w, h⟩])
    else
      let firstHalf := count / 2
      let secondHalf := count - firstHalf
      if horizontal then do
        let (firstW, secondW) ← divide w firstHalf count
        let layouts ← bspLayout depth x y firstW h firstHalf (!horizontal) layouts
        let secondX ← behind x firstW
        bspLayout depth secondX y secondW h secondHalf (!horizontal) layouts
      else do
        let (firstH, secondH) ← divide h firstHalf count
        let layouts ← bspLayout depth x y w firstH firstHalf (!horizontal) layouts
        let secondY ← behind y firstH
        bspLayout depth x secondY w secondH secondHalf (!horizontal) layouts

/-- The tiles of an output with a number of windows. -/
def calculateLayout (depth : ℕ) (outputWidth outputHeight : ℤ) (windows : ℕ) :
    Option (List Tile) :=
  if windows = 0 then some []
  else do
    let margins ← I32.mul 2 gap
    let w ← I32.sub outputWidth margins
    let h ← I32.sub outputHeight margins
    if windows = 1 then return [⟨gap, gap, w, h⟩]
    else bspLayout depth gap gap w h windows true []

/-! ### Tiles of an area -/

namespace Tile

/-- The tile lies inside the area. -/
structure Inside (t area : Tile) : Prop where
  left : area.x ≤ t.x
  top : area.y ≤ t.y
  right : t.x + t.w ≤ area.x + area.w
  bottom : t.y + t.h ≤ area.y + area.h

/-- There is a gap between the tiles, in one axis at least. -/
def Apart (a b : Tile) : Prop :=
  a.x + a.w + gap ≤ b.x ∨ b.x + b.w + gap ≤ a.x ∨ a.y + a.h + gap ≤ b.y ∨ b.y + b.h + gap ≤ a.y

instance : IsPreorder Tile Inside where
  refl _ := ⟨le_rfl, le_rfl, le_rfl, le_rfl⟩
  trans _ _ _ h h' :=
    ⟨h'.left.trans h.left, h'.top.trans h.top, h.right.trans h'.right, h.bottom.trans h'.bottom⟩

theorem inheritsApart : InheritsApart Inside Apart := by
  rintro a b a' b' hapart ⟨hal, hat, har, hab⟩ ⟨hbl, hbt, hbr, hbb⟩
  unfold Apart at hapart ⊢
  omega

/-- The sides are positive. -/
structure Positive (t : Tile) : Prop where
  w_pos : 0 < t.w
  h_pos : 0 < t.h

end Tile

/-! ### Dividing a side -/

/-- A side of an area that suffices for a number of windows and keeps sums of coordinates small. -/
structure Side (count : ℕ) (start length : ℤ) : Prop where
  le_length : 8 * (count : ℤ) - 6 ≤ length
  length_le : length ≤ 2 ^ 16
  start_nonneg : 0 ≤ start
  stop_le : start + length ≤ 2 ^ 17

theorem Side.mono {count count' : ℕ} {start length : ℤ} (h : Side count start length)
    (hle : count' ≤ count) : Side count' start length :=
  ⟨by have := h.le_length; omega, h.length_le, h.start_nonneg, h.stop_le⟩

/-- The share of the first half of the windows, rounded down, is large enough for them, and leaves
enough for the others. -/
theorem share_bounds {count half length : ℤ} (hcount : 0 < count) (hhalf : 2 * half ≤ count)
    (hnonneg : 0 ≤ half) (hrest : 6 * (count - half) < 5 * count)
    (hlow : 8 * count - 6 ≤ length) :
    8 * half - 4 ≤ length * half / count ∧
      length * half / count ≤ length - 8 * (count - half) + 4 := by
  have hfirst : (8 * count - 6) * half ≤ length * half := mul_le_mul_of_nonneg_right hlow hnonneg
  have hsecond : (8 * count - 6) * (count - half) ≤ length * (count - half) :=
    mul_le_mul_of_nonneg_right hlow (by omega)
  constructor
  · rw [Int.le_ediv_iff_mul_le hcount]
    calc (8 * half - 4) * count
        = (8 * count - 6) * half - (4 * count - 6 * half) := by ring
      _ ≤ (8 * count - 6) * half := by omega
      _ ≤ length * half := hfirst
  · rw [← Int.lt_add_one_iff, Int.ediv_lt_iff_lt_mul hcount]
    calc length * half
        = length * count - length * (count - half) := by ring
      _ ≤ length * count - (8 * count - 6) * (count - half) := by omega
      _ < length * count - (8 * count - 6) * (count - half) + (5 * count - 6 * (count - half)) := by
        omega
      _ = (length - 8 * (count - half) + 4 + 1) * count := by ring

section Divide

variable {count : ℕ} {start length first : ℤ}

/-- The first part of a side is its share, less half a gap, and the second is what is left. -/
theorem divide_eq_some {half : ℕ} (hhalf : half < 2 ^ 31) (hcount : 0 < count ∧ count < 2 ^ 31)
    (hproduct : 0 ≤ length * half ∧ length * half < 2 ^ 31) (hlength : length < 2 ^ 31)
    (hfirst : 0 ≤ length * half / count - 2)
    (hsecond : 0 ≤ length - (length * half / count - 2) - 4) :
    divide length half count =
      some (length * half / count - 2, length - (length * half / count - 2) - 4) := by
  have hrange : I32.InRange (length * half) := ⟨by omega, hproduct.2⟩
  have hcountPos : (0 : ℤ) < count := by omega
  have hshare : I32.div (length * half) count = some (length * half / count) :=
    I32.div_of_nonneg hproduct.1 hcountPos hrange
  generalize length * half / count = share at hshare hfirst hsecond ⊢
  have hfirstSub : I32.sub share (gap.tdiv 2) = some (share - 2) :=
    I32.sub_of_inRange (b := 2) ⟨by omega, by omega⟩
  have hrestSub : I32.sub length (share - 2) = some (length - (share - 2)) :=
    I32.sub_of_inRange ⟨by omega, by omega⟩
  have hsecondSub : I32.sub (length - (share - 2)) gap = some (length - (share - 2) - 4) :=
    I32.sub_of_inRange ⟨by unfold gap; omega, by unfold gap; omega⟩
  unfold divide
  rw [I32.ofUsize_of_lt hhalf, I32.ofUsize_of_lt hcount.2, I32.mul_of_inRange hrange]
  simp only [Option.bind_eq_bind, Option.bind_some, hshare, hfirstSub, hrestSub, hsecondSub]
  rfl

/-- Where the second part begins is within the range. -/
theorem behind_eq_some (hstart : 0 ≤ start) (hfirst : 0 ≤ first)
    (hstop : start + first + gap ≤ 2 ^ 17) : behind start first = some (start + first + gap) := by
  unfold gap at hstop
  have hadd : I32.add start first = some (start + first) := I32.add_of_inRange ⟨by omega, by omega⟩
  unfold behind
  rw [hadd, Option.bind_eq_bind, Option.bind_some]
  exact I32.add_of_inRange ⟨by unfold gap; omega, by unfold gap; omega⟩

/-- A side that suffices for several windows divides into sides that suffice for the halves. -/
theorem Side.divide (h : Side count start length) (hcount : 2 ≤ count) :
    ∃ first second, Tiling.divide length (count / 2) count = some (first, second) ∧
      behind start first = some (start + first + gap) ∧ first + gap + second = length ∧
      Side (count / 2) start first ∧ Side (count - count / 2) (start + first + gap) second := by
  obtain ⟨hlow, hhigh, hstart, hstop⟩ := h
  obtain ⟨half, hhalf⟩ : ∃ half, half = count / 2 := ⟨_, rfl⟩
  rw [← hhalf]
  obtain ⟨hshareLow, hshareHigh⟩ : 8 * (half : ℤ) - 4 ≤ length * half / count ∧
      length * half / count ≤ length - 8 * (count - half) + 4 :=
    share_bounds (by omega) (by omega) (by omega) (by omega) hlow
  have hproductLow : 0 ≤ length * half := mul_nonneg (by omega) (by omega)
  have hproductHigh : length * half ≤ 2 ^ 16 * 2 ^ 12 :=
    mul_le_mul hhigh (by omega) (by omega) (by norm_num)
  have hdivide : Tiling.divide length half count =
      some (length * half / count - 2, length - (length * half / count - 2) - 4) :=
    divide_eq_some (by omega) (by omega) ⟨hproductLow, by omega⟩ (by omega) (by omega) (by omega)
  generalize length * half / count = share at hshareLow hshareHigh hdivide
  have hbehind : behind start (share - 2) = some (start + (share - 2) + gap) :=
    behind_eq_some hstart (by omega) (by unfold gap; omega)
  refine ⟨_, _, hdivide, hbehind, by unfold gap; ring, ?_, ?_⟩
  · exact ⟨by omega, by omega, hstart, by omega⟩
  · unfold gap
    exact ⟨by omega, by omega, by omega, by omega⟩

end Divide

/-! ### The tiles of a layout -/

/-- Both sides of the area suffice for a number of windows. -/
structure Tile.Roomy (count : ℕ) (area : Tile) : Prop where
  horizontal : Side count area.x area.w
  vertical : Side count area.y area.h

/-- Calls that may be nested as deeply as there are windows lay out the area in these tiles. -/
structure Lays (area : Tile) (count : ℕ) (horizontal : Bool) (tiles : List Tile) : Prop where
  runs : ∀ depth layouts, count ≤ depth →
    bspLayout depth area.x area.y area.w area.h count horizontal layouts = some (layouts ++ tiles)
  length_eq : tiles.length = count
  positive : ∀ t ∈ tiles, t.Positive
  splits : Splits Tile.Inside Tile.Apart area tiles

theorem lays_one {area : Tile} (hroomy : area.Roomy 1) (horizontal : Bool) :
    Lays area 1 horizontal [area] where
  runs depth layouts hdepth := by
    obtain ⟨depth, rfl⟩ := Nat.exists_eq_add_of_le' hdepth
    rfl
  length_eq := rfl
  positive t ht := by
    have hw := hroomy.horizontal.le_length
    have hh := hroomy.vertical.le_length
    rw [List.mem_singleton.mp ht]
    exact ⟨by omega, by omega⟩
  splits := .whole area

section Halves

variable {area : Tile} {count : ℕ} {a b : ℤ} {firstTiles secondTiles : List Tile}

/-- The layouts of two areas apart, one after the other, are a layout of an area around both. -/
theorem Lays.join {first second : Tile} {h₁ h₂ horizontal : Bool} (hcount : 2 ≤ count)
    (hfirst : Lays first (count / 2) h₁ firstTiles)
    (hsecond : Lays second (count - count / 2) h₂ secondTiles)
    (hinside₁ : first.Inside area) (hinside₂ : second.Inside area) (hapart : first.Apart second)
    (hruns : ∀ depth layouts, count ≤ depth →
      bspLayout depth area.x area.y area.w area.h count horizontal layouts =
        some (layouts ++ (firstTiles ++ secondTiles))) :
    Lays area count horizontal (firstTiles ++ secondTiles) where
  runs := hruns
  length_eq := by
    rw [List.length_append, hfirst.length_eq, hsecond.length_eq]
    omega
  positive t ht := (List.mem_append.mp ht).elim (hfirst.positive t) (hsecond.positive t)
  splits := .split hinside₁ hinside₂ hapart hfirst.splits hsecond.splits

/-- The layouts of the halves side by side. -/
theorem Lays.beside (hcount : 2 ≤ count)
    (hdivide : divide area.w (count / 2) count = some (a, b))
    (hbehind : behind area.x a = some (area.x + a + gap)) (hsum : a + gap + b = area.w)
    (ha : 0 ≤ a) (hb : 0 ≤ b)
    (hfirst : Lays ⟨area.x, area.y, a, area.h⟩ (count / 2) false firstTiles)
    (hsecond : Lays ⟨area.x + a + gap, area.y, b, area.h⟩ (count - count / 2) false secondTiles) :
    Lays area count true (firstTiles ++ secondTiles) := by
  unfold gap at hsum
  refine .join hcount hfirst hsecond ?_ ?_ (Or.inl le_rfl) fun depth layouts hdepth => ?_
  · exact ⟨le_rfl, le_rfl, by dsimp only; omega, le_rfl⟩
  · exact ⟨by unfold gap; dsimp only; omega, le_rfl, by unfold gap; dsimp only; omega, le_rfl⟩
  · obtain ⟨depth, rfl⟩ : ∃ d, depth = d + 1 := ⟨depth - 1, by omega⟩
    rw [bspLayout, if_neg (by omega)]
    simp only [if_true, hdivide, Option.bind_eq_bind, Option.bind_some, Bool.not_true, hbehind]
    rw [hfirst.runs depth layouts (by omega), Option.bind_some,
      hsecond.runs depth _ (by omega), List.append_assoc]

/-- The layouts of the halves one above the other. -/
theorem Lays.above (hcount : 2 ≤ count)
    (hdivide : divide area.h (count / 2) count = some (a, b))
    (hbehind : behind area.y a = some (area.y + a + gap)) (hsum : a + gap + b = area.h)
    (ha : 0 ≤ a) (hb : 0 ≤ b)
    (hfirst : Lays ⟨area.x, area.y, area.w, a⟩ (count / 2) true firstTiles)
    (hsecond : Lays ⟨area.x, area.y + a + gap, area.w, b⟩ (count - count / 2) true secondTiles) :
    Lays area count false (firstTiles ++ secondTiles) := by
  unfold gap at hsum
  refine .join hcount hfirst hsecond ?_ ?_ (Or.inr (Or.inr (Or.inl le_rfl)))
    fun depth layouts hdepth => ?_
  · exact ⟨le_rfl, le_rfl, le_rfl, by dsimp only; omega⟩
  · exact ⟨le_rfl, by unfold gap; dsimp only; omega, le_rfl, by unfold gap; dsimp only; omega⟩
  · obtain ⟨depth, rfl⟩ : ∃ d, depth = d + 1 := ⟨depth - 1, by omega⟩
    rw [bspLayout, if_neg (by omega)]
    simp only [Bool.false_eq_true, if_false, hdivide, Option.bind_eq_bind, Option.bind_some,
      Bool.not_false, hbehind]
    rw [hfirst.runs depth layouts (by omega), Option.bind_some,
      hsecond.runs depth _ (by omega), List.append_assoc]

end Halves

/-- An area with enough room is laid out, in whichever direction it is divided first. -/
theorem exists_lays {count : ℕ} (hcount : 1 ≤ count) {area : Tile} (hroomy : area.Roomy count)
    (horizontal : Bool) : ∃ tiles, Lays area count horizontal tiles := by
  induction count using Nat.strongRecOn generalizing area horizontal with
  | ind count ih =>
    rcases Nat.lt_or_ge 1 count with htwo | hone
    · obtain ⟨hhorizontal, hvertical⟩ := hroomy
      have hless : count / 2 < count := by omega
      have hrest : count - count / 2 < count := by omega
      cases horizontal with
      | true =>
        obtain ⟨a, b, hdivide, hbehind, hsum, ha, hb⟩ := hhorizontal.divide htwo
        have hleft : Tile.Roomy (count / 2) ⟨area.x, area.y, a, area.h⟩ :=
          ⟨ha, hvertical.mono hless.le⟩
        have hright : Tile.Roomy (count - count / 2) ⟨area.x + a + gap, area.y, b, area.h⟩ :=
          ⟨hb, hvertical.mono hrest.le⟩
        obtain ⟨firstTiles, hfirst⟩ := ih _ hless (by omega) hleft false
        obtain ⟨secondTiles, hsecond⟩ := ih _ hrest (by omega) hright false
        have ha' := ha.le_length
        have hb' := hb.le_length
        exact ⟨_, .beside htwo hdivide hbehind hsum (by omega) (by omega) hfirst hsecond⟩
      | false =>
        obtain ⟨a, b, hdivide, hbehind, hsum, ha, hb⟩ := hvertical.divide htwo
        have htop : Tile.Roomy (count / 2) ⟨area.x, area.y, area.w, a⟩ :=
          ⟨hhorizontal.mono hless.le, ha⟩
        have hbottom : Tile.Roomy (count - count / 2) ⟨area.x, area.y + a + gap, area.w, b⟩ :=
          ⟨hhorizontal.mono hrest.le, hb⟩
        obtain ⟨firstTiles, hfirst⟩ := ih _ hless (by omega) htop true
        obtain ⟨secondTiles, hsecond⟩ := ih _ hrest (by omega) hbottom true
        have ha' := ha.le_length
        have hb' := hb.le_length
        exact ⟨_, .above htwo hdivide hbehind hsum (by omega) (by omega) hfirst hsecond⟩
    · obtain rfl : count = 1 := by omega
      exact ⟨_, lays_one hroomy horizontal⟩

/-- **Binary space partitioning** of an area that begins at the gap and is eight times as wide and
as high as there are windows: if calls may be nested as deeply as there are windows, the layout
comes to an end without overflow and appends as many tiles as there are windows, each of positive
size and inside the area, and any two with a gap between them. -/
theorem bspLayout_tiles {n : ℕ} (hn : 1 ≤ n) {w h : ℤ} (hw : 8 * n ≤ w ∧ w ≤ 2 ^ 16)
    (hh : 8 * n ≤ h ∧ h ≤ 2 ^ 16) (horizontal : Bool) :
    ∃ tiles, (∀ depth layouts, n ≤ depth →
        bspLayout depth gap gap w h n horizontal layouts = some (layouts ++ tiles)) ∧
      tiles.length = n ∧ (∀ t ∈ tiles, t.Positive ∧ t.Inside ⟨gap, gap, w, h⟩) ∧
      tiles.Pairwise Tile.Apart := by
  have hside : ∀ length : ℤ, 8 * n ≤ length ∧ length ≤ 2 ^ 16 → Side n gap length :=
    fun length hlength =>
      ⟨by omega, hlength.2, by unfold gap; omega, by unfold gap; omega⟩
  have hroomy : Tile.Roomy n ⟨gap, gap, w, h⟩ := ⟨hside w hw, hside h hh⟩
  obtain ⟨tiles, hlays⟩ := exists_lays hn hroomy horizontal
  exact ⟨tiles, hlays.runs, hlays.length_eq,
    fun t ht => ⟨hlays.positive t ht, hlays.splits.inside t ht⟩,
    hlays.splits.pairwise_apart Tile.inheritsApart⟩

/-- Three windows on the smallest area for them. -/
theorem bspLayout_tiles_three :
    ∃ tiles, (∀ depth layouts, 3 ≤ depth →
        bspLayout depth gap gap 24 24 3 true layouts = some (layouts ++ tiles)) ∧
      tiles.length = 3 ∧ (∀ t ∈ tiles, t.Positive ∧ t.Inside ⟨gap, gap, 24, 24⟩) ∧
      tiles.Pairwise Tile.Apart :=
  bspLayout_tiles (by decide) ⟨by decide, by decide⟩ ⟨by decide, by decide⟩ true

example : bspLayout 3 gap gap 24 24 3 true [] =
    some [⟨4, 4, 6, 24⟩, ⟨14, 4, 14, 10⟩, ⟨14, 18, 14, 10⟩] := by decide

/-- **The tiles of an output** with a gap around them: one for each window, and any two apart. -/
theorem calculateLayout_tiles {outputWidth outputHeight : ℤ} {windows : ℕ}
    (hw : 8 * windows + 2 * gap ≤ outputWidth ∧ outputWidth ≤ 2 ^ 16)
    (hh : 8 * windows + 2 * gap ≤ outputHeight ∧ outputHeight ≤ 2 ^ 16) :
    ∃ tiles, (∀ depth, windows ≤ depth →
        calculateLayout depth outputWidth outputHeight windows = some tiles) ∧
      tiles.length = windows ∧ tiles.Pairwise Tile.Apart ∧
      ∀ t ∈ tiles, t.Positive ∧
        t.Inside ⟨gap, gap, outputWidth - 2 * gap, outputHeight - 2 * gap⟩ := by
  rcases Nat.eq_zero_or_pos windows with rfl | hpos
  · exact ⟨[], fun _ _ => rfl, rfl, List.Pairwise.nil, fun t ht => absurd ht List.not_mem_nil⟩
  unfold gap at hw hh
  have hside : ∀ length : ℤ, 8 * windows + 2 * 4 ≤ length ∧ length ≤ 2 ^ 16 →
      Side windows gap (length - 2 * gap) := by
    unfold gap
    exact fun length hlength => ⟨by omega, by omega, by omega, by omega⟩
  have hroomy : Tile.Roomy windows ⟨gap, gap, outputWidth - 2 * gap, outputHeight - 2 * gap⟩ :=
    ⟨hside _ hw, hside _ hh⟩
  have hmargins : I32.mul 2 gap = some (2 * gap) := I32.mul_of_inRange (by decide)
  have hwidth : I32.sub outputWidth (2 * gap) = some (outputWidth - 2 * gap) :=
    I32.sub_of_inRange (by unfold gap; exact ⟨by omega, by omega⟩)
  have hheight : I32.sub outputHeight (2 * gap) = some (outputHeight - 2 * gap) :=
    I32.sub_of_inRange (by unfold gap; exact ⟨by omega, by omega⟩)
  obtain ⟨tiles, hlays⟩ := exists_lays hpos hroomy true
  refine ⟨tiles, fun depth hdepth => ?_, hlays.length_eq,
    hlays.splits.pairwise_apart Tile.inheritsApart,
    fun t ht => ⟨hlays.positive t ht, hlays.splits.inside t ht⟩⟩
  have hruns := hlays.runs depth [] hdepth
  rw [calculateLayout, if_neg (by omega)]
  simp only [hmargins, hwidth, hheight, Option.bind_eq_bind, Option.bind_some]
  split_ifs with hone
  · -- one window takes the whole area, as in the layout
    subst hone
    obtain ⟨depth, rfl⟩ := Nat.exists_eq_add_of_le' hdepth
    exact hruns
  · exact hruns

end Tiling

end WayRay
