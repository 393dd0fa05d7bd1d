import WayRay.Render.Geometry
import Mathlib.Data.List.Chain

/-!
# Shaping the damage

`damage/shaper.rs`: overlapping damage rectangles are replaced by rectangles that do not overlap.
The rectangles are sorted along the longer side of their bounding box and cut into segments that do
not reach into each other; a segment that cannot be cut either way is divided into tiles.

`shapeDamage_spec` says what every shaping guarantees: the new rectangles are apart, they cover the
old ones, and they lie in every rectangle that contains the old ones.  Sorting is not stable, and
the comparison with the share of the largest rectangle is one of `f32`, so both are parameters.
Coordinates and areas are integers: as `i32` they do not overflow on an output whose area, and whose
bottom edge with the gap of a tile below it, are less than `2 ^ 31`.
-/

namespace WayRay

open Rect

/-- `sort_unstable_by`: elements that compare equal may come in any order. -/
structure UnstableSort (α : Type) where
  sortBy : (α → α → Bool) → List α → List α
  perm : ∀ le l, (sortBy le l).Perm l
  pairwise : ∀ le l, (∀ a b c, le a b = true → le b c = true → le a c = true) →
    (∀ a b, (le a b || le b a) = true) → (sortBy le l).Pairwise fun a b => le a b = true

/-- Sorting as the library does. -/
def UnstableSort.stable (α : Type) : UnstableSort α where
  sortBy le l := l.mergeSort le
  perm le l := List.mergeSort_perm l le
  pairwise _ l htrans htotal := List.pairwise_mergeSort htrans htotal l

/-- Direction to split the bounding box. -/
inductive DamageSplitAxis where
  | x
  | y
deriving DecidableEq

def DamageSplitAxis.invert : DamageSplitAxis → DamageSplitAxis
  | x => y
  | y => x

namespace Shaper

/-- The recommended minimum tile side. -/
def minTileSide : ℤ := 16

/-- The gap between the damage of tiles to merge them. -/
def tileDamageGapFraction : ℤ := 4

def numTiles : ℤ := 4

/-! ### Along an axis -/

def start : DamageSplitAxis → Rect → ℤ
  | .x, r => r.x
  | .y, r => r.y

def length : DamageSplitAxis → Rect → ℤ
  | .x, r => r.w
  | .y, r => r.h

def finish (axis : DamageSplitAxis) (r : Rect) : ℤ := start axis r + length axis r

/-- Ascending by the start, and then descending by the length. -/
def startsBefore (axis : DamageSplitAxis) (r r' : Rect) : Bool :=
  start axis r < start axis r' ||
    start axis r == start axis r' && length axis r' ≤ length axis r

/-- Cut a list where a rectangle starts at or after the end of all before it. -/
def segments (axis : DamageSplitAxis) : ℤ → List Rect → List Rect → List (List Rect)
  | _, current, [] => [current]
  | overlapEnd, current, rect :: rest =>
    -- the renderer excludes the boundary
    if start axis rect ≥ overlapEnd then
      current :: segments axis (finish axis rect) [rect] rest
    else segments axis (max overlapEnd (finish axis rect)) (current ++ [rect]) rest

/-- The bounding box of the damage, and the area of the largest rectangle. -/
structure Extents where
  xMin : ℤ
  yMin : ℤ
  xMax : ℤ
  yMax : ℤ
  maxDamageArea : ℤ

def Extents.add (acc : Extents) (rect : Rect) : Extents where
  xMin := min acc.xMin rect.x
  yMin := min acc.yMin rect.y
  xMax := max acc.xMax (rect.x + rect.w)
  yMax := max acc.yMax (rect.y + rect.h)
  maxDamageArea := max acc.maxDamageArea (rect.w * rect.h)

def extents (damage : List Rect) : Extents :=
  damage.foldl Extents.add ⟨2 ^ 31 - 1, 2 ^ 31 - 1, -2 ^ 31, -2 ^ 31, -2 ^ 31⟩

def Extents.bbox (e : Extents) : Rect := ⟨e.xMin, e.yMin, e.xMax - e.xMin, e.yMax - e.yMin⟩

/-! ### Tiles -/

/-- `(start..start + length).step_by(step)`. -/
def stepBy (start length step : ℤ) : List ℤ :=
  (List.range ((length + step - 1) / step).toNat).map fun k : ℕ => start + k * step

/-- The damage inside a tile: the bounding box of what the rectangles have in common with it. -/
def tileDamage (damage : List Rect) (tile : Rect) : Option Rect :=
  damage.foldl
    (fun acc rect =>
      match tile.intersection rect with
      | none => acc
      | some i => some (match acc with
        | some tileDamage => i.merge tileDamage
        | none => i))
    none

/-- Merge the damage of adjacent tiles of a column, from the first one down. -/
def mergeAdjacent (gapW gapH : ℤ) : Option Rect → List (Option Rect) → List (Option Rect)
  | current, [] => [current]
  | some damage, some adjacent :: rest =>
    if damage.y + damage.h + gapH ≥ adjacent.y ∧ |damage.w - adjacent.w| < gapW then
      none :: mergeAdjacent gapW gapH (some (damage.merge adjacent)) rest
    else some damage :: mergeAdjacent gapW gapH (some adjacent) rest
  | current, next :: rest => current :: mergeAdjacent gapW gapH next rest

/-- The damage of one column of tiles. -/
def shapeColumn (damage : List Rect) (bbox : Rect) (tileW tileH x : ℤ) : List Rect :=
  match (stepBy bbox.y bbox.h tileH).map fun y => tileDamage damage ⟨x, y, tileW, tileH⟩ with
  | [] => []
  | tile :: tiles =>
    (mergeAdjacent (tileW / tileDamageGapFraction) (tileH / tileDamageGapFraction) tile
      tiles).filterMap id

def shapeDamageTiled (damage : List Rect) (bbox : Rect) (tileW tileH : ℤ) : List Rect :=
  (stepBy bbox.x bbox.w tileW).flatMap (shapeColumn damage bbox tileW tileH)

/-! ### Segments -/

section Segments

variable {axis : DamageSplitAxis} {overlapEnd : ℤ} {current rest : List Rect}

theorem flatten_segments (axis : DamageSplitAxis) (overlapEnd : ℤ) (current rest : List Rect) :
    (segments axis overlapEnd current rest).flatten = current ++ rest := by
  induction rest generalizing overlapEnd current with
  | nil => simp [segments]
  | cons rect rest ih =>
    unfold segments
    split_ifs
    · simp [ih]
    · simp [ih]

theorem ne_nil_of_mem_segments (hcurrent : current ≠ []) :
    ∀ segment ∈ segments axis overlapEnd current rest, segment ≠ [] := by
  induction rest generalizing overlapEnd current with
  | nil => simpa [segments] using hcurrent
  | cons rect rest ih =>
    unfold segments
    split_ifs
    · exact List.forall_mem_cons.mpr ⟨hcurrent, ih (List.cons_ne_nil _ _)⟩
    · exact ih (by simp)

/-- Of several segments each one is shorter than the list. -/
theorem length_lt_of_mem_segments (hcurrent : current ≠ []) {segment : List Rect}
    (h : segment ∈ segments axis overlapEnd current rest)
    (hseveral : (segments axis overlapEnd current rest).length ≠ 1) :
    segment.length < (current ++ rest).length := by
  have hne : ∀ segment ∈ segments axis overlapEnd current rest, segment ≠ [] :=
    ne_nil_of_mem_segments hcurrent
  rw [← flatten_segments axis overlapEnd]
  obtain ⟨pre, post, hsplit⟩ := List.append_of_mem h
  rw [hsplit] at hseveral hne ⊢
  rw [List.flatten_append, List.flatten_cons, List.length_append, List.length_append]
  have hpos : ∀ others : List (List Rect), others ≠ [] → (∀ other ∈ others, other ≠ []) →
      0 < others.flatten.length := by
    intro others hothers hall
    obtain ⟨other, others, rfl⟩ := List.exists_cons_of_ne_nil hothers
    have := List.length_pos_iff.mpr (hall other List.mem_cons_self)
    rw [List.flatten_cons, List.length_append]
    omega
  cases pre with
  | nil =>
    have hpost : post ≠ [] := by
      rintro rfl
      exact hseveral rfl
    have := hpos post hpost fun other hother => hne other (by simp [hother])
    omega
  | cons first pre =>
    have := hpos (first :: pre) (List.cons_ne_nil _ _) fun other hother =>
      hne other (List.mem_append_left _ hother)
    omega

end Segments

/-- Segments that follow each other. -/
def Before (axis : DamageSplitAxis) (segment segment' : List Rect) : Prop :=
  ∃ c, (∀ r ∈ segment, finish axis r ≤ c) ∧ ∀ r ∈ segment', c ≤ start axis r

/-- The segments of a sorted list do not reach into each other. -/
theorem pairwise_segments {axis : DamageSplitAxis} {overlapEnd : ℤ} {current rest : List Rect}
    (hcurrent : ∀ r ∈ current, finish axis r ≤ overlapEnd)
    (hsorted : rest.Pairwise fun r r' => start axis r ≤ start axis r') :
    (segments axis overlapEnd current rest).Pairwise (Before axis) := by
  induction rest generalizing overlapEnd current with
  | nil => exact List.pairwise_singleton _ _
  | cons rect rest ih =>
    rw [List.pairwise_cons] at hsorted
    unfold segments
    split_ifs with hstart
    · refine List.pairwise_cons.mpr ⟨fun segment hsegment => ⟨overlapEnd, hcurrent, ?_⟩,
        ih (fun r hr => (List.mem_singleton.mp hr ▸ le_rfl)) hsorted.2⟩
      intro r hr
      have hmem : r ∈ [rect] ++ rest :=
        flatten_segments axis _ [rect] rest ▸ List.mem_flatten.mpr ⟨segment, hsegment, hr⟩
      rcases List.mem_cons.mp hmem with rfl | hmem
      · exact hstart
      · exact le_trans hstart (hsorted.1 r hmem)
    · refine ih (fun r hr => ?_) hsorted.2
      rcases List.mem_append.mp hr with hr | hr
      · exact (hcurrent r hr).trans (le_max_left _ _)
      · exact List.mem_singleton.mp hr ▸ le_max_right _ _

/-! ### The bounding box -/

theorem le_foldl_add (damage : List Rect) (acc : Extents) (c : ℤ) :
    (c ≤ (damage.foldl Extents.add acc).xMin ↔ c ≤ acc.xMin ∧ ∀ r ∈ damage, c ≤ r.x) ∧
      (c ≤ (damage.foldl Extents.add acc).yMin ↔ c ≤ acc.yMin ∧ ∀ r ∈ damage, c ≤ r.y) ∧
      ((damage.foldl Extents.add acc).xMax ≤ c ↔ acc.xMax ≤ c ∧ ∀ r ∈ damage, r.x + r.w ≤ c) ∧
      ((damage.foldl Extents.add acc).yMax ≤ c ↔ acc.yMax ≤ c ∧ ∀ r ∈ damage, r.y + r.h ≤ c) := by
  induction damage generalizing acc with
  | nil => simp
  | cons rect damage ih =>
    rw [List.foldl_cons]
    obtain ⟨hx, hy, hx', hy'⟩ := ih (acc.add rect)
    rw [hx, hy, hx', hy']
    simp [Extents.add, and_assoc]

variable {o b : Rect} {damage : List Rect}

/-- The bounding box contains the damage. -/
theorem within_bbox (hdamage : ∀ r ∈ damage, 0 ≤ r.w ∧ 0 ≤ r.h) {r : Rect} (hr : r ∈ damage) :
    Within (extents damage).bbox r := by
  obtain ⟨hx, -⟩ := le_foldl_add damage ⟨2 ^ 31 - 1, 2 ^ 31 - 1, -2 ^ 31, -2 ^ 31, -2 ^ 31⟩
    (extents damage).xMin
  obtain ⟨-, hy, -⟩ := le_foldl_add damage ⟨2 ^ 31 - 1, 2 ^ 31 - 1, -2 ^ 31, -2 ^ 31, -2 ^ 31⟩
    (extents damage).yMin
  obtain ⟨-, -, hx', -⟩ := le_foldl_add damage ⟨2 ^ 31 - 1, 2 ^ 31 - 1, -2 ^ 31, -2 ^ 31, -2 ^ 31⟩
    (extents damage).xMax
  obtain ⟨-, -, -, hy'⟩ := le_foldl_add damage ⟨2 ^ 31 - 1, 2 ^ 31 - 1, -2 ^ 31, -2 ^ 31, -2 ^ 31⟩
    (extents damage).yMax
  have hleft := (hx.mp le_rfl).2 r hr
  have htop := (hy.mp le_rfl).2 r hr
  have hright := (hx'.mp le_rfl).2 r hr
  have hbottom := (hy'.mp le_rfl).2 r hr
  refine ⟨(hdamage r hr).1, (hdamage r hr).2, hleft, htop, ?_, ?_⟩ <;>
    simp only [Extents.bbox] <;> omega

/-- It is the smallest rectangle that does. -/
theorem bbox_within (ho : o.Bounded) (hne : damage ≠ []) (hdamage : ∀ r ∈ damage, Within o r)
    (hb : ∀ r ∈ damage, Within b r) : Within b (extents damage).bbox := by
  obtain ⟨rect, rest, rfl⟩ := List.exists_cons_of_ne_nil hne
  have hrect := (hdamage rect List.mem_cons_self).bounded ho
  have hin := within_bbox (fun r hr => ⟨(hdamage r hr).w_nonneg, (hdamage r hr).h_nonneg⟩)
    (List.mem_cons_self (a := rect) (l := rest))
  have hbrect := hb rect List.mem_cons_self
  obtain ⟨hx, -⟩ := le_foldl_add (rect :: rest)
    ⟨2 ^ 31 - 1, 2 ^ 31 - 1, -2 ^ 31, -2 ^ 31, -2 ^ 31⟩ b.x
  obtain ⟨-, hy, -⟩ := le_foldl_add (rect :: rest)
    ⟨2 ^ 31 - 1, 2 ^ 31 - 1, -2 ^ 31, -2 ^ 31, -2 ^ 31⟩ b.y
  obtain ⟨-, -, hx', -⟩ := le_foldl_add (rect :: rest)
    ⟨2 ^ 31 - 1, 2 ^ 31 - 1, -2 ^ 31, -2 ^ 31, -2 ^ 31⟩ (b.x + b.w)
  obtain ⟨-, -, -, hy'⟩ := le_foldl_add (rect :: rest)
    ⟨2 ^ 31 - 1, 2 ^ 31 - 1, -2 ^ 31, -2 ^ 31, -2 ^ 31⟩ (b.y + b.h)
  have hleft := hx.mpr ⟨?_, fun r hr => (hb r hr).left_le⟩
  have htop := hy.mpr ⟨?_, fun r hr => (hb r hr).top_le⟩
  have hright := hx'.mpr ⟨?_, fun r hr => (hb r hr).right_le⟩
  have hbottom := hy'.mpr ⟨?_, fun r hr => (hb r hr).bottom_le⟩
  · have hw := hrect.w_nonneg
    have hh := hrect.h_nonneg
    obtain ⟨-, -, hl, ht, hr, hbot⟩ := hin
    refine ⟨?_, ?_, hleft, htop, ?_, ?_⟩ <;> simp only [Extents.bbox, extents] at * <;> omega
  all_goals
    obtain ⟨⟨⟨hx₁, hx₂⟩, ⟨hy₁, hy₂⟩, hw, hh, -, -⟩, hr, hbot⟩ := hrect
    obtain ⟨-, -, hl, ht, hr', hbot'⟩ := hbrect
    dsimp only
    omega

/-! ### Columns of tiles -/

section StepBy

variable {first length step : ℤ}

theorem mem_stepBy (hstep : 0 < step) {x : ℤ} (hx : x ∈ stepBy first length step) :
    first ≤ x ∧ x < first + length := by
  obtain ⟨k, hk, rfl⟩ := List.mem_map.mp hx
  rw [List.mem_range, Int.lt_toNat] at hk
  have hlt : (k : ℤ) * step < length := by
    have hle : ((k : ℤ) + 1) * step ≤ length + step - 1 :=
      (mul_le_mul_of_nonneg_right hk hstep.le).trans (Int.ediv_mul_le _ hstep.ne')
    rw [add_mul, one_mul] at hle
    omega
  have hnonneg : 0 ≤ (k : ℤ) * step := mul_nonneg (Int.natCast_nonneg k) hstep.le
  omega

theorem pairwise_stepBy (hstep : 0 < step) :
    (stepBy first length step).Pairwise fun x x' => x + step ≤ x' := by
  refine List.pairwise_map.mpr (List.pairwise_lt_range.imp fun {k k'} hlt => ?_)
  have hle : ((k : ℤ) + 1) * step ≤ k' * step :=
    mul_le_mul_of_nonneg_right (by omega) hstep.le
  rw [add_mul, one_mul] at hle
  omega

/-- Each position belongs to one step. -/
theorem exists_mem_stepBy (hstep : 0 < step) {q : ℤ} (hfirst : first ≤ q)
    (hq : q < first + length) : ∃ x ∈ stepBy first length step, x ≤ q ∧ q < x + step := by
  have hdiv := Int.ediv_mul_add_emod (q - first) step
  have hmod := Int.emod_nonneg (q - first) hstep.ne'
  have hmod' := Int.emod_lt_of_pos (q - first) hstep
  have hk : 0 ≤ (q - first) / step := Int.ediv_nonneg (by omega) hstep.le
  refine ⟨first + ((q - first) / step) * step,
    List.mem_map.mpr ⟨((q - first) / step).toNat, ?_, ?_⟩, by omega, by omega⟩
  · rw [List.mem_range, Int.lt_toNat, Int.toNat_of_nonneg hk]
    refine Int.lt_of_add_one_le ((Int.le_ediv_iff_mul_le hstep).mpr ?_)
    rw [add_mul, one_mul]
    omega
  · rw [Int.toNat_of_nonneg hk]

end StepBy

/-- The damage of a tile. -/
structure TileShape (o tile : Rect) (damage : List Rect) (t : Option Rect) : Prop where
  inTile : ∀ d ∈ t, Within tile d
  within : ∀ b : Rect, (∀ r ∈ damage, Within b r) → ∀ d ∈ t, Within b d
  covers : ∀ p ∈ tile.pixels, p ∈ covered damage → ∃ d ∈ t, p ∈ d.pixels

theorem tileDamage_shape (ho : o.Bounded) {tile : Rect} (htile : tile.Valid)
    (hdamage : ∀ r ∈ damage, Within o r) : TileShape o tile damage (tileDamage damage tile) := by
  induction damage using List.reverseRecOn with
  | nil =>
    refine ⟨fun d hd => ?_, fun b _ d hd => ?_, fun p _ hp => absurd hp notMem_covered_nil⟩
    · exact nomatch hd
    · exact nomatch hd
  | append_singleton damage rect ih =>
    have hrect : Within o rect := hdamage rect (by simp)
    have ih := ih fun r hr => hdamage r (List.mem_append_left _ hr)
    have hsplit : ∀ b : Rect, (∀ r ∈ damage ++ [rect], Within b r) →
        (∀ r ∈ damage, Within b r) ∧ Within b rect := fun b hb =>
      ⟨fun r hr => hb r (List.mem_append_left _ hr), hb rect (by simp)⟩
    have hunfold : tileDamage (damage ++ [rect]) tile =
        match tile.intersection rect with
        | none => tileDamage damage tile
        | some i => some (match tileDamage damage tile with
          | some tileDamage => i.merge tileDamage
          | none => i) := by
      simp only [tileDamage, List.foldl_append, List.foldl_cons, List.foldl_nil]
    rw [hunfold]
    cases hi : tile.intersection rect with
    | none =>
      refine ⟨ih.inTile, fun b hb => ih.within b (hsplit b hb).1, fun p hp hp' => ?_⟩
      rcases mem_covered_append.mp hp' with hp' | hp'
      · exact ih.covers p hp hp'
      · refine absurd ?_ (notMem_of_intersection htile (hrect.bounded ho) hi hp)
        simpa using hp'
    | some i =>
      obtain ⟨hrecti, htilei⟩ := within_of_intersection htile (hrect.bounded ho) hi
      have hmem : ∀ p, p ∈ i.pixels ↔ p ∈ tile.pixels ∧ p ∈ rect.pixels := fun p =>
        mem_intersection htile (hrect.bounded ho) hi
      cases ht : tileDamage damage tile with
      | none =>
        rw [ht] at ih
        refine ⟨?_, ?_, fun p hp hp' => ?_⟩
        · rintro _ ⟨⟩
          exact htilei
        · rintro b hb _ ⟨⟩
          exact (hsplit b hb).2.trans hrecti
        · rcases mem_covered_append.mp hp' with hp' | hp'
          · obtain ⟨d, hd, -⟩ := ih.covers p hp hp'
            exact nomatch hd
          · exact ⟨i, rfl, (hmem p).mpr ⟨hp, by simpa using hp'⟩⟩
      | some d =>
        rw [ht] at ih
        have hoi : Within o i := hrect.trans hrecti
        have hod : Within o d :=
          ih.within o (fun r hr => hdamage r (List.mem_append_left _ hr)) d rfl
        obtain ⟨hmi, hmd⟩ := within_merge ho hoi hod
        refine ⟨?_, ?_, fun p hp hp' => ⟨_, rfl, ?_⟩⟩
        · rintro _ ⟨⟩
          exact merge_within ho hoi hod htilei (ih.inTile d rfl)
        · rintro b hb _ ⟨⟩
          exact merge_within ho hoi hod ((hsplit b hb).2.trans hrecti)
            (ih.within b (hsplit b hb).1 d rfl)
        · rcases mem_covered_append.mp hp' with hp' | hp'
          · obtain ⟨_, ⟨⟩, hp'⟩ := ih.covers p hp hp'
            exact hmd.mem hp'
          · exact hmi.mem ((hmem p).mpr ⟨hp, by simpa using hp'⟩)

section Column

variable {gapW gapH : ℤ} {current : Option Rect} {rest : List (Option Rect)}

/-- The damage of one tile ends before that of another one begins. -/
def Above (t t' : Option Rect) : Prop := ∀ d ∈ t, ∀ e ∈ t', d.y + d.h ≤ e.y

theorem above_none_left (t : Option Rect) : Above none t := fun _ hd => nomatch hd

theorem mergeAdjacent_none (gapW gapH : ℤ) (next : Option Rect) (rest : List (Option Rect)) :
    mergeAdjacent gapW gapH none (next :: rest) = none :: mergeAdjacent gapW gapH next rest := by
  cases next <;> rfl

/-- What merging keeps holds of the merged tiles. -/
theorem of_mem_mergeAdjacent {P : Rect → Prop} (hmerge : ∀ r r', P r → P r' → P (r.merge r'))
    (h : ∀ t ∈ current :: rest, ∀ d ∈ t, P d) :
    ∀ t ∈ mergeAdjacent gapW gapH current rest, ∀ d ∈ t, P d := by
  induction rest generalizing current with
  | nil => simpa [mergeAdjacent] using h
  | cons next rest ih =>
    rw [List.forall_mem_cons] at h
    obtain ⟨hcurrent, hrest⟩ := h
    cases current with
    | none =>
      rw [mergeAdjacent_none]
      exact List.forall_mem_cons.mpr ⟨hcurrent, ih hrest⟩
    | some damage =>
      cases next with
      | none => exact List.forall_mem_cons.mpr ⟨hcurrent, ih hrest⟩
      | some adjacent =>
        unfold mergeAdjacent
        split_ifs
        · refine List.forall_mem_cons.mpr ⟨fun d hd => (nomatch hd), ih ?_⟩
          rw [List.forall_mem_cons] at hrest ⊢
          refine ⟨?_, hrest.2⟩
          rintro _ ⟨⟩
          exact hmerge damage adjacent (hcurrent damage rfl) (hrest.1 adjacent rfl)
        · exact List.forall_mem_cons.mpr ⟨hcurrent, ih hrest⟩

variable (ho : o.Bounded) (hin : ∀ t ∈ current :: rest, ∀ d ∈ t, Within o d)
include ho hin

/-- A bound from above is kept. -/
theorem above_mergeAdjacent {d : Rect} (h : ∀ t ∈ current :: rest, Above (some d) t) :
    ∀ t ∈ mergeAdjacent gapW gapH current rest, Above (some d) t := by
  have hall : ∀ t ∈ mergeAdjacent gapW gapH current rest, ∀ e ∈ t,
      Within o e ∧ d.y + d.h ≤ e.y := by
    refine of_mem_mergeAdjacent (fun r r' hr hr' => ?_) fun t ht e he =>
      ⟨hin t ht e he, h t ht d rfl e he⟩
    refine ⟨merge_within ho hr.1 hr'.1 hr.1 hr'.1, ?_⟩
    rw [merge_eq ho hr.1 hr'.1]
    exact le_min hr.2 hr'.2
  rintro t ht _ ⟨⟩ e he
  exact (hall t ht e he).2

theorem pairwise_mergeAdjacent (h : (current :: rest).Pairwise Above) :
    (mergeAdjacent gapW gapH current rest).Pairwise Above := by
  induction rest generalizing current with
  | nil => exact List.pairwise_singleton _ _
  | cons next rest ih =>
    rw [List.pairwise_cons] at h
    rw [List.forall_mem_cons] at hin
    cases current with
    | none =>
      rw [mergeAdjacent_none]
      exact List.pairwise_cons.mpr ⟨fun t _ => above_none_left t, ih hin.2 h.2⟩
    | some damage =>
      cases next with
      | none =>
        exact List.pairwise_cons.mpr ⟨above_mergeAdjacent ho hin.2 h.1, ih hin.2 h.2⟩
      | some adjacent =>
        unfold mergeAdjacent
        split_ifs
        · have hd : Within o damage := hin.1 damage rfl
          obtain ⟨ha, hin⟩ := List.forall_mem_cons.mp hin.2
          have ha : Within o adjacent := ha adjacent rfl
          rw [List.pairwise_cons] at h
          refine List.pairwise_cons.mpr ⟨fun t _ => above_none_left t, ih ?_ ?_⟩
          · refine List.forall_mem_cons.mpr ⟨?_, hin⟩
            rintro _ ⟨⟩
            exact merge_within ho hd ha hd ha
          · refine List.pairwise_cons.mpr ⟨?_, h.2.2⟩
            rintro t ht _ ⟨⟩ e he
            have hde := h.1 t (List.mem_cons_of_mem _ ht) damage rfl e he
            have hae := h.2.1 t ht adjacent rfl e he
            rw [merge_eq ho hd ha]
            dsimp only
            omega
        · exact List.pairwise_cons.mpr ⟨above_mergeAdjacent ho hin.2 h.1, ih hin.2 h.2⟩

/-- Merging loses no pixel. -/
theorem covers_mergeAdjacent {p : ℤ × ℤ} (h : ∃ t ∈ current :: rest, ∃ d ∈ t, p ∈ d.pixels) :
    ∃ t ∈ mergeAdjacent gapW gapH current rest, ∃ d ∈ t, p ∈ d.pixels := by
  induction rest generalizing current with
  | nil => exact h
  | cons next rest ih =>
    obtain ⟨t, ht, d, hd, hp⟩ := h
    rw [List.forall_mem_cons] at hin
    have hkeep : ∀ damage next, (damage = t ∨ t ∈ next :: rest) →
        (∀ t ∈ next :: rest, ∀ d ∈ t, Within o d) →
        ∃ t ∈ damage :: mergeAdjacent gapW gapH next rest, ∃ d ∈ t, p ∈ d.pixels := by
      rintro damage next (rfl | ht) hin
      · exact ⟨damage, List.mem_cons_self, d, hd, hp⟩
      · obtain ⟨t', ht', hd'⟩ := ih hin ⟨t, ht, d, hd, hp⟩
        exact ⟨t', List.mem_cons_of_mem _ ht', hd'⟩
    have hcases : current = t ∨ t ∈ next :: rest := (List.mem_cons.mp ht).imp Eq.symm id
    cases current with
    | none =>
      rw [mergeAdjacent_none]
      exact hkeep none next hcases hin.2
    | some damage =>
      cases next with
      | none => exact hkeep (some damage) none hcases hin.2
      | some adjacent =>
        unfold mergeAdjacent
        split_ifs
        · have hdamage : Within o damage := hin.1 damage rfl
          obtain ⟨ha, hrest⟩ := List.forall_mem_cons.mp hin.2
          have ha : Within o adjacent := ha adjacent rfl
          obtain ⟨hmd, hma⟩ := within_merge ho hdamage ha
          have hin' : ∀ t ∈ some (damage.merge adjacent) :: rest, ∀ d ∈ t, Within o d := by
            refine List.forall_mem_cons.mpr ⟨?_, hrest⟩
            rintro _ ⟨⟩
            exact merge_within ho hdamage ha hdamage ha
          have hmerged : ∃ t ∈ some (damage.merge adjacent) :: rest, ∃ d ∈ t, p ∈ d.pixels := by
            rcases hcases with rfl | ht
            · obtain rfl := Option.mem_some.mp hd
              exact ⟨_, List.mem_cons_self, _, rfl, hmd.mem hp⟩
            · rcases List.mem_cons.mp ht with rfl | ht
              · obtain rfl := Option.mem_some.mp hd
                exact ⟨_, List.mem_cons_self, _, rfl, hma.mem hp⟩
              · exact ⟨t, List.mem_cons_of_mem _ ht, d, hd, hp⟩
          obtain ⟨t', ht', hd'⟩ := ih hin' hmerged
          exact ⟨t', List.mem_cons_of_mem _ ht', hd'⟩
        · exact hkeep (some damage) (some adjacent) hcases hin.2

end Column

/-! ### What shaping guarantees -/

/-- Rectangles that are apart, cover the damage, and lie in every rectangle that contains it. -/
structure Shapes (damage out : List Rect) : Prop where
  apart : Apart out
  covers : ∀ p, p ∈ covered damage → p ∈ covered out
  within : ∀ b : Rect, (∀ r ∈ damage, Within b r) → ∀ r ∈ out, Within b r

section Tiled

variable {bbox : Rect} {tileW tileH x : ℤ}

/-- The tiles of a column. -/
def column (damage : List Rect) (bbox : Rect) (tileW tileH x : ℤ) : List (Option Rect) :=
  (stepBy bbox.y bbox.h tileH).map fun y => tileDamage damage ⟨x, y, tileW, tileH⟩

/-- The damage of a column is apart, lies in the column, and covers the damage in it. -/
structure ColumnShape (damage : List Rect) (tileW x : ℤ) (out : List Rect) : Prop where
  apart : Apart out
  covers : ∀ p, x ≤ p.1 → p.1 < x + tileW → p ∈ covered damage → p ∈ covered out
  within : ∀ b : Rect, (∀ r ∈ damage, Within b r) → ∀ d ∈ out, Within b d
  inColumn : ∀ d ∈ out, x ≤ d.x ∧ d.x + d.w ≤ x + tileW

variable (hbbox : bbox.Bounded) (hdamage : ∀ r ∈ damage, Within bbox r) (hw : 0 < tileW)
  (hw' : tileW < 2 ^ 31) (hh : 0 < tileH) (hh' : tileH < 2 ^ 31)
include hbbox hdamage hw hw' hh hh'

theorem tileShape_column (hx : x ∈ stepBy bbox.x bbox.w tileW) {y : ℤ}
    (hy : y ∈ stepBy bbox.y bbox.h tileH) :
    TileShape bbox ⟨x, y, tileW, tileH⟩ damage (tileDamage damage ⟨x, y, tileW, tileH⟩) := by
  have hx := mem_stepBy hw hx
  have hy := mem_stepBy hh hy
  refine tileDamage_shape hbbox ?_ hdamage
  obtain ⟨⟨⟨hbx, hbx'⟩, ⟨hby, hby'⟩, -, -, -, -⟩, hr, hb⟩ := hbbox
  exact ⟨⟨by dsimp only; omega, by dsimp only; omega⟩, ⟨by dsimp only; omega, by dsimp only; omega⟩,
    hw.le, hh.le, hw', hh'⟩

theorem columnShape (hx : x ∈ stepBy bbox.x bbox.w tileW) :
    ColumnShape damage tileW x (shapeColumn damage bbox tileW tileH x) := by
  have htile : ∀ y ∈ stepBy bbox.y bbox.h tileH, TileShape bbox ⟨x, y, tileW, tileH⟩ damage
      (tileDamage damage ⟨x, y, tileW, tileH⟩) := fun y hy =>
    tileShape_column hbbox hdamage hw hw' hh hh' hx hy
  have hcolumn : ∀ t ∈ column damage bbox tileW tileH x, ∃ y ∈ stepBy bbox.y bbox.h tileH,
      t = tileDamage damage ⟨x, y, tileW, tileH⟩ := by
    intro t ht
    obtain ⟨y, hy, rfl⟩ := List.mem_map.mp ht
    exact ⟨y, hy, rfl⟩
  have hpairwise : (column damage bbox tileW tileH x).Pairwise Above := by
    refine List.pairwise_map.mpr ((pairwise_stepBy hh).imp_of_mem ?_)
    intro y y' hy hy' hle d hd e he
    exact ((htile y hy).inTile d hd).bottom_le.trans
      (hle.trans ((htile y' hy').inTile e he).top_le)
  have hcovers : ∀ p : ℤ × ℤ, x ≤ p.1 → p.1 < x + tileW → p ∈ covered damage →
      ∃ t ∈ column damage bbox tileW tileH x, ∃ d ∈ t, p ∈ d.pixels := by
    intro p hleft hright hp
    obtain ⟨r, hr, hpr⟩ := hp
    have hpb := (hdamage r hr).mem hpr
    rw [mem_pixels] at hpb
    obtain ⟨y, hy, hle, hlt⟩ := exists_mem_stepBy hh hpb.2.2.1 hpb.2.2.2
    exact ⟨_, List.mem_map_of_mem hy,
      (htile y hy).covers p (mem_pixels.mpr ⟨hleft, hright, hle, hlt⟩) ⟨r, hr, hpr⟩⟩
  have hshape : shapeColumn damage bbox tileW tileH x =
      match column damage bbox tileW tileH x with
      | [] => []
      | tile :: tiles =>
        (mergeAdjacent (tileW / tileDamageGapFraction) (tileH / tileDamageGapFraction) tile
          tiles).filterMap id := rfl
  rw [hshape]
  cases htiles : column damage bbox tileW tileH x with
  | nil =>
    rw [htiles] at hcovers
    refine ⟨List.Pairwise.nil, fun p hleft hright hp => ?_, ?_, ?_⟩
    · obtain ⟨t, ht, -⟩ := hcovers p hleft hright hp
      exact absurd ht List.not_mem_nil
    · exact fun b _ d hd => absurd hd List.not_mem_nil
    · exact fun d hd => absurd hd List.not_mem_nil
  | cons tile tiles =>
    rw [htiles] at hpairwise hcovers hcolumn
    have hin : ∀ t ∈ tile :: tiles, ∀ d ∈ t, Within bbox d := by
      intro t ht d hd
      obtain ⟨y, hy, rfl⟩ := hcolumn t ht
      exact (htile y hy).within bbox hdamage d hd
    refine ⟨?_, fun p hleft hright hp => ?_, fun b hb d hd => ?_, fun d hd => ?_⟩
    · refine List.pairwise_filterMap.mpr ((pairwise_mergeAdjacent hbbox hin hpairwise).imp ?_)
      intro t t' habove d hd e he
      have hle := habove d hd e he
      refine disjoint_pixels_iff.mpr fun p hp hp' => ?_
      rw [mem_pixels] at hp hp'
      omega
    · obtain ⟨t, ht, d, hd, hp⟩ : ∃ t ∈ mergeAdjacent (tileW / tileDamageGapFraction)
          (tileH / tileDamageGapFraction) tile tiles, ∃ d ∈ t, p ∈ d.pixels :=
        covers_mergeAdjacent hbbox hin (hcovers p hleft hright hp)
      exact ⟨d, List.mem_filterMap.mpr ⟨t, ht, hd⟩, hp⟩
    · obtain ⟨t, ht, hd⟩ := List.mem_filterMap.mp hd
      refine (of_mem_mergeAdjacent (P := fun d => Within bbox d ∧ Within b d) ?_ ?_ t ht d hd).2
      · exact fun r r' hr hr' => ⟨merge_within hbbox hr.1 hr'.1 hr.1 hr'.1,
          merge_within hbbox hr.1 hr'.1 hr.2 hr'.2⟩
      · intro t ht d hd
        obtain ⟨y, hy, rfl⟩ := hcolumn t ht
        exact ⟨hin _ ht d hd, (htile y hy).within b hb d hd⟩
    · obtain ⟨t, ht, hd⟩ := List.mem_filterMap.mp hd
      refine (of_mem_mergeAdjacent
        (P := fun d => Within bbox d ∧ x ≤ d.x ∧ d.x + d.w ≤ x + tileW) ?_ ?_ t ht d hd).2
      · intro r r' hr hr'
        refine ⟨merge_within hbbox hr.1 hr'.1 hr.1 hr'.1, ?_⟩
        rw [merge_eq hbbox hr.1 hr'.1]
        have := hr.2
        have := hr'.2
        dsimp only
        omega
      · intro t ht d hd
        obtain ⟨y, hy, rfl⟩ := hcolumn t ht
        have htiled := (htile y hy).inTile d hd
        exact ⟨hin _ ht d hd, htiled.left_le, htiled.right_le⟩

theorem shapeDamageTiled_shapes : Shapes damage (shapeDamageTiled damage bbox tileW tileH) := by
  have hcolumn : ∀ x ∈ stepBy bbox.x bbox.w tileW,
      ColumnShape damage tileW x (shapeColumn damage bbox tileW tileH x) := fun x hx =>
    columnShape hbbox hdamage hw hw' hh hh' hx
  refine ⟨?_, fun p hp => ?_, fun b hb r hr => ?_⟩
  · refine List.pairwise_flatMap.mpr ⟨fun x hx => (hcolumn x hx).apart, ?_⟩
    refine (pairwise_stepBy hw).imp_of_mem fun {x x'} hx hx' hle d hd e he => ?_
    have hright := ((hcolumn x hx).inColumn d hd).2
    have hleft := ((hcolumn x' hx').inColumn e he).1
    refine disjoint_pixels_iff.mpr fun p hp hp' => ?_
    rw [mem_pixels] at hp hp'
    omega
  · obtain ⟨r, hr, hpr⟩ := id hp
    have hpb := (hdamage r hr).mem hpr
    rw [mem_pixels] at hpb
    obtain ⟨x, hx, hle, hlt⟩ := exists_mem_stepBy hw hpb.1 hpb.2.1
    obtain ⟨d, hd, hpd⟩ := (hcolumn x hx).covers p hle hlt hp
    exact ⟨d, List.mem_flatMap.mpr ⟨x, hx, hd⟩, hpd⟩
  · obtain ⟨x, hx, hr⟩ := List.mem_flatMap.mp hr
    exact (hcolumn x hx).within b hb r hr

end Tiled

/-! ### Shaping -/

/-- The axis to split along: the larger side of the bounding box, or the other one. -/
def splitDirection (bbox : Rect) (invertDirection : Bool) : DamageSplitAxis :=
  let direction : DamageSplitAxis := if bbox.w ≥ bbox.h then .x else .y
  if invertDirection then direction.invert else direction

/-- More tiles along the edges that do not overlap all the way.  The direction is reverted to prefer
the larger side. -/
def tileSize (direction : DamageSplitAxis) (bbox : Rect) : ℤ × ℤ :=
  let (tileW, tileH) :=
    match direction.invert with
    | .x => (bbox.w / numTiles, bbox.h / (numTiles * 2))
    | .y => (bbox.w / (numTiles * 2), bbox.h / numTiles)
  (max tileW minTileSide, max tileH minTileSide)

section Shape

variable (sort : UnstableSort Rect) (nearAll : ℤ → ℤ → Bool)

/-- Sort along an axis, unless the last direction was the same. -/
def sortAlong (direction : DamageSplitAxis) (lastDirection : Option DamageSplitAxis)
    (damage : List Rect) : List Rect :=
  if some direction ≠ lastDirection then sort.sortBy (startsBefore direction) damage else damage

theorem sortAlong_perm (direction : DamageSplitAxis) (lastDirection : Option DamageSplitAxis)
    (damage : List Rect) : (sortAlong sort direction lastDirection damage).Perm damage := by
  unfold sortAlong
  split_ifs
  · exact sort.perm _ _
  · exact List.Perm.refl _

/-- Divide and conquer.  `lastDirection` is the axis that the damage is sorted along already;
`nearAll area bboxArea` says that a rectangle covers near all of the bounding box. -/
def shapeDamageImpl (damage : List Rect) (lastDirection : Option DamageSplitAxis)
    (invertDirection : Bool) : List Rect :=
  match damage with
  | [] => []
  | [rect] => [rect]
  | rect :: rect' :: rest =>
    let e := extents (rect :: rect' :: rest)
    if nearAll e.maxDamageArea (e.bbox.w * e.bbox.h) then [e.bbox]
    else
      let direction := splitDirection e.bbox invertDirection
      match _hsorted : sortAlong sort direction lastDirection (rect :: rect' :: rest) with
      -- sorting keeps the rectangles
      | [] => []
      | first :: others =>
        let parts := segments direction (finish direction first) [first] others
        if _hseveral : parts.length ≠ 1 then
          parts.attach.flatMap fun part => shapeDamageImpl part.1 (some direction) false
        else if _hinvert : invertDirection then
          let tile := tileSize direction e.bbox
          shapeDamageTiled (first :: others) e.bbox tile.1 tile.2
        else shapeDamageImpl (first :: others) (some direction) true
termination_by (damage.length, if invertDirection then 0 else 1)
decreasing_by
  all_goals
    have hlength : (first :: others).length = (rect :: rect' :: rest).length :=
      _hsorted ▸ (sortAlong_perm sort _ _ _).length_eq
  · have hlt := length_lt_of_mem_segments (List.cons_ne_nil _ _) part.2 _hseveral
    exact Prod.Lex.left _ _ (hlength ▸ hlt)
  · rw [hlength]
    refine Prod.Lex.right _ ?_
    simp [_hinvert]

/-- Shape damage rectangles. -/
def shapeDamage (damage : List Rect) : List Rect :=
  shapeDamageImpl sort nearAll damage none false

/-! ### Correctness -/

variable {sort nearAll} {out : List Rect} {axis : DamageSplitAxis}

theorem Shapes.of_perm {damage' : List Rect} (h : Shapes damage' out)
    (hperm : damage'.Perm damage) : Shapes damage out where
  apart := h.apart
  covers p hp := h.covers p ((mem_covered_of_perm hperm).mpr hp)
  within b hb := h.within b fun r hr => hb r (hperm.mem_iff.mp hr)

theorem shapes_singleton {rect : Rect} (hrect : ∀ r ∈ damage, Within rect r)
    (hin : ∀ b : Rect, (∀ r ∈ damage, Within b r) → Within b rect) : Shapes damage [rect] where
  apart := List.pairwise_singleton _ _
  covers p hp := by
    obtain ⟨r, hr, hp⟩ := hp
    exact ⟨rect, List.mem_singleton_self _, (hrect r hr).mem hp⟩
  within b hb r hr := List.mem_singleton.mp hr ▸ hin b hb

/-- The part of a rectangle before a cut. -/
def cutBefore (axis : DamageSplitAxis) (c : ℤ) (o : Rect) : Rect :=
  match axis with
  | .x => { o with w := c - o.x }
  | .y => { o with h := c - o.y }

/-- The part of a rectangle from a cut on. -/
def cutFrom (axis : DamageSplitAxis) (c : ℤ) (o : Rect) : Rect :=
  match axis with
  | .x => { o with x := c, w := o.x + o.w - c }
  | .y => { o with y := c, h := o.y + o.h - c }

theorem within_cutBefore {c : ℤ} {r : Rect} (h : Within o r) (hc : finish axis r ≤ c) :
    Within (cutBefore axis c o) r := by
  obtain ⟨hw, hh, hl, ht, hr, hb⟩ := h
  cases axis <;> simp only [finish, start, length] at hc <;>
    refine ⟨hw, hh, hl, ht, ?_, ?_⟩ <;> dsimp only [cutBefore] <;> omega

theorem within_cutFrom {c : ℤ} {r : Rect} (h : Within o r) (hc : c ≤ start axis r) :
    Within (cutFrom axis c o) r := by
  obtain ⟨hw, hh, hl, ht, hr, hb⟩ := h
  cases axis <;> simp only [start] at hc <;>
    refine ⟨hw, hh, ?_, ?_, ?_, ?_⟩ <;> dsimp only [cutFrom] <;> omega

theorem notMem_of_cut {c : ℤ} {r r' : Rect} (h : Within (cutBefore axis c o) r)
    (h' : Within (cutFrom axis c o) r') {p : ℤ × ℤ} (hp : p ∈ r.pixels) : p ∉ r'.pixels := by
  intro hp'
  have hp := h.mem hp
  have hp' := h'.mem hp'
  rw [mem_pixels] at hp hp'
  cases axis <;> dsimp only [cutBefore, cutFrom] at hp hp' <;> omega

/-- Segments that follow each other can be shaped on their own. -/
theorem shapes_flatMap {parts : List (List Rect)} {f : List Rect → List Rect}
    (hbefore : parts.Pairwise (Before axis)) (hin : ∀ part ∈ parts, ∀ r ∈ part, Within o r)
    (hparts : ∀ part ∈ parts, Shapes part (f part)) : Shapes parts.flatten (parts.flatMap f) where
  apart := by
    refine List.pairwise_flatMap.mpr ⟨fun part hpart => (hparts part hpart).apart,
      hbefore.imp_of_mem ?_⟩
    rintro part part' hpart hpart' ⟨c, hc, hc'⟩ r hr r' hr'
    have hr : Within (cutBefore axis c o) r := (hparts part hpart).within _
      (fun r hr => within_cutBefore (hin part hpart r hr) (hc r hr)) r hr
    have hr' : Within (cutFrom axis c o) r' := (hparts part' hpart').within _
      (fun r hr => within_cutFrom (hin part' hpart' r hr) (hc' r hr)) r' hr'
    exact disjoint_pixels_iff.mpr fun p hp => notMem_of_cut hr hr' hp
  covers p hp := by
    obtain ⟨r, hr, hp⟩ := hp
    obtain ⟨part, hpart, hr⟩ := List.mem_flatten.mp hr
    obtain ⟨d, hd, hp⟩ := (hparts part hpart).covers p ⟨r, hr, hp⟩
    exact ⟨d, List.mem_flatMap.mpr ⟨part, hpart, hd⟩, hp⟩
  within b hb r hr := by
    obtain ⟨part, hpart, hr⟩ := List.mem_flatMap.mp hr
    exact (hparts part hpart).within b
      (fun r hr => hb r (List.mem_flatten.mpr ⟨part, hpart, hr⟩)) r hr

/-- The rectangles are in order along an axis. -/
def SortedAlong (axis : DamageSplitAxis) (damage : List Rect) : Prop :=
  damage.Pairwise fun r r' => start axis r ≤ start axis r'

theorem sortedAlong_sortAlong {lastDirection : Option DamageSplitAxis}
    (hlast : ∀ axis, lastDirection = some axis → SortedAlong axis damage)
    (direction : DamageSplitAxis) :
    SortedAlong direction (sortAlong sort direction lastDirection damage) := by
  unfold sortAlong
  split_ifs with hdirection
  · refine (sort.pairwise _ _ ?_ ?_).imp ?_
    all_goals
      intros
      simp only [startsBefore, Bool.or_eq_true, Bool.and_eq_true, decide_eq_true_eq,
        beq_iff_eq] at *
      omega
  · exact hlast direction (not_not.mp hdirection).symm

theorem SortedAlong.of_mem_segments {first : Rect} {others part : List Rect}
    (h : SortedAlong axis (first :: others))
    (hpart : part ∈ segments axis (finish axis first) [first] others) : SortedAlong axis part := by
  refine h.sublist ?_
  have hflatten := flatten_segments axis (finish axis first) [first] others
  rw [List.singleton_append] at hflatten
  exact hflatten ▸ List.sublist_flatten_of_mem hpart

theorem tileSize_bounds {bbox : Rect} (hbbox : bbox.Bounded) (direction : DamageSplitAxis) :
    (0 < (tileSize direction bbox).1 ∧ (tileSize direction bbox).1 < 2 ^ 31) ∧
      0 < (tileSize direction bbox).2 ∧ (tileSize direction bbox).2 < 2 ^ 31 := by
  obtain ⟨⟨-, -, hw, hh, hw', hh'⟩, -, -⟩ := hbbox
  cases direction <;>
    simp only [tileSize, DamageSplitAxis.invert, numTiles, minTileSide] <;> omega

section Equations

variable {lastDirection : Option DamageSplitAxis} {invertDirection : Bool}
  {rect rect' first : Rect} {rest others : List Rect} {direction : DamageSplitAxis}
  (hnear : ¬nearAll (extents (rect :: rect' :: rest)).maxDamageArea
    ((extents (rect :: rect' :: rest)).bbox.w * (extents (rect :: rect' :: rest)).bbox.h) = true)
  (hdirection : splitDirection (extents (rect :: rect' :: rest)).bbox invertDirection = direction)
  (hsorted : sortAlong sort direction lastDirection (rect :: rect' :: rest) = first :: others)
include hnear hdirection hsorted

theorem shapeDamageImpl_several
    (hseveral : (segments direction (finish direction first) [first] others).length ≠ 1) :
    shapeDamageImpl sort nearAll (rect :: rect' :: rest) lastDirection invertDirection =
      (segments direction (finish direction first) [first] others).flatMap
        fun part => shapeDamageImpl sort nearAll part (some direction) false := by
  subst hdirection
  rw [shapeDamageImpl, if_neg hnear]
  dsimp only
  split
  · next hnil => exact absurd (hnil.symm.trans hsorted) (by simp)
  · next first' others' hsorted' =>
    obtain ⟨rfl, rfl⟩ := List.cons.inj (hsorted'.symm.trans hsorted)
    rw [dif_pos hseveral, List.flatMap_subtype
      (g := fun part => shapeDamageImpl sort nearAll part _ false) fun _ _ => rfl,
      List.unattach_attach]

theorem shapeDamageImpl_single
    (hsingle : ¬(segments direction (finish direction first) [first] others).length ≠ 1) :
    shapeDamageImpl sort nearAll (rect :: rect' :: rest) lastDirection invertDirection =
      if invertDirection then
        shapeDamageTiled (first :: others) (extents (rect :: rect' :: rest)).bbox
          (tileSize direction (extents (rect :: rect' :: rest)).bbox).1
          (tileSize direction (extents (rect :: rect' :: rest)).bbox).2
      else shapeDamageImpl sort nearAll (first :: others) (some direction) true := by
  subst hdirection
  rw [shapeDamageImpl, if_neg hnear]
  dsimp only
  split
  · next hnil => exact absurd (hnil.symm.trans hsorted) (by simp)
  · next first' others' hsorted' =>
    obtain ⟨rfl, rfl⟩ := List.cons.inj (hsorted'.symm.trans hsorted)
    rw [dif_neg hsingle]
    rfl

end Equations

/-- **Every segment is shaped**, if it is sorted along the last direction. -/
theorem shapeDamageImpl_shapes (ho : o.Bounded) {lastDirection : Option DamageSplitAxis}
    {invertDirection : Bool} (hdamage : ∀ r ∈ damage, Within o r)
    (hlast : ∀ axis, lastDirection = some axis → SortedAlong axis damage) :
    Shapes damage (shapeDamageImpl sort nearAll damage lastDirection invertDirection) := by
  induction damage, lastDirection, invertDirection using shapeDamageImpl.induct sort nearAll with
  | case1 lastDirection invertDirection =>
    rw [shapeDamageImpl]
    exact ⟨List.Pairwise.nil, fun p hp => hp, fun b _ r hr => absurd hr List.not_mem_nil⟩
  | case2 lastDirection invertDirection rect =>
    rw [shapeDamageImpl]
    exact ⟨List.pairwise_singleton _ _, fun p hp => hp, fun b hb r hr => hb r hr⟩
  | case3 lastDirection invertDirection rect rect' rest e hnear =>
    rw [shapeDamageImpl, if_pos hnear]
    refine shapes_singleton (fun r hr => within_bbox ?_ hr) fun b hb =>
      bbox_within ho (List.cons_ne_nil _ _) hdamage hb
    exact fun r hr => ⟨(hdamage r hr).w_nonneg, (hdamage r hr).h_nonneg⟩
  | case4 lastDirection invertDirection rect rect' rest e hnear direction hnil =>
    have hlength := (sortAlong_perm sort direction lastDirection
      (rect :: rect' :: rest)).length_eq
    rw [hnil] at hlength
    exact absurd hlength (by simp)
  | case5 lastDirection invertDirection rect rect' rest e hnear direction first others hsorted parts
      hseveral ih =>
    have hperm : (first :: others).Perm (rect :: rect' :: rest) :=
      hsorted ▸ sortAlong_perm sort direction lastDirection (rect :: rect' :: rest)
    have hinorder : SortedAlong direction (first :: others) :=
      hsorted ▸ sortedAlong_sortAlong hlast direction
    have hflatten : parts.flatten = first :: others := flatten_segments _ _ _ _
    have hin : ∀ part ∈ parts, ∀ r ∈ part, Within o r := fun part hpart r hr =>
      hdamage r (hperm.mem_iff.mp (hflatten ▸ List.mem_flatten.mpr ⟨part, hpart, hr⟩))
    rw [shapeDamageImpl_several hnear rfl hsorted hseveral]
    refine Shapes.of_perm ?_ (hflatten ▸ hperm)
    refine shapes_flatMap (pairwise_segments ?_ (List.pairwise_cons.mp hinorder).2) hin
      fun part hpart => ih ⟨part, hpart⟩ (hin part hpart) fun axis haxis => ?_
    · exact fun r hr => List.mem_singleton.mp hr ▸ le_rfl
    · obtain rfl := Option.some.inj haxis
      exact hinorder.of_mem_segments hpart
  | case6 lastDirection rect rect' rest e hnear first others direction hsorted parts hsingle =>
    have hperm : (first :: others).Perm (rect :: rect' :: rest) :=
      hsorted ▸ sortAlong_perm sort direction lastDirection (rect :: rect' :: rest)
    have hbbox : e.bbox.Bounded :=
      (bbox_within ho (List.cons_ne_nil _ _) hdamage hdamage).bounded ho
    have hin : ∀ r ∈ first :: others, Within e.bbox r := fun r hr =>
      within_bbox (fun r hr => ⟨(hdamage r hr).w_nonneg, (hdamage r hr).h_nonneg⟩)
        (hperm.mem_iff.mp hr)
    obtain ⟨⟨hw, hw'⟩, hh, hh'⟩ := tileSize_bounds hbbox direction
    rw [shapeDamageImpl_single hnear rfl hsorted hsingle, if_pos rfl]
    exact (shapeDamageTiled_shapes hbbox hin hw hw' hh hh').of_perm hperm
  | case7 lastDirection invertDirection rect rect' rest e hnear direction first others hsorted parts
      hsingle hinvert ih =>
    have hperm : (first :: others).Perm (rect :: rect' :: rest) :=
      hsorted ▸ sortAlong_perm sort direction lastDirection (rect :: rect' :: rest)
    rw [shapeDamageImpl_single hnear rfl hsorted hsingle, if_neg hinvert]
    refine (ih (fun r hr => hdamage r (hperm.mem_iff.mp hr)) fun axis haxis => ?_).of_perm hperm
    obtain rfl := Option.some.inj haxis
    exact hsorted ▸ sortedAlong_sortAlong hlast direction

/-- The damage is shaped. -/
theorem shapes_shapeDamage (sort : UnstableSort Rect) (nearAll : ℤ → ℤ → Bool) (ho : o.Bounded)
    (hdamage : ∀ r ∈ damage, Within o r) : Shapes damage (shapeDamage sort nearAll damage) :=
  shapeDamageImpl_shapes ho hdamage fun _ haxis => nomatch haxis

/-- **Shaping the damage**: whatever the order of rectangles that compare equal, and however the
largest one is compared with the bounding box, the new rectangles do not overlap, they cover every
damaged pixel, and they lie in every rectangle that contains the damage. -/
theorem shapeDamage_spec (sort : UnstableSort Rect) (nearAll : ℤ → ℤ → Bool) (ho : o.Bounded)
    (hdamage : ∀ r ∈ damage, Within o r) :
    Apart (shapeDamage sort nearAll damage) ∧
      (∀ p, p ∈ covered damage → p ∈ covered (shapeDamage sort nearAll damage)) ∧
      ∀ b : Rect, (∀ r ∈ damage, Within b r) → ∀ r ∈ shapeDamage sort nearAll damage,
        Within b r := by
  have h := shapes_shapeDamage sort nearAll ho hdamage
  exact ⟨h.apart, h.covers, h.within⟩

/-- Two rectangles that overlap. -/
theorem shapeDamage_spec_two :
    Apart (shapeDamage (.stable Rect) (fun _ _ => false) [⟨0, 0, 20, 20⟩, ⟨10, 10, 20, 20⟩]) := by
  refine (shapeDamage_spec (.stable Rect) (fun _ _ => false) (o := ⟨0, 0, 30, 30⟩) ?_ ?_).1
  · constructor
    · constructor <;> decide
    all_goals decide
  · simp only [List.mem_cons, List.not_mem_nil, or_false, forall_eq_or_imp, forall_eq]
    constructor <;> constructor <;> decide

end Shape

end Shaper

end WayRay
