import WayRay.Headless.Borders
import WayRay.Render.Changes
import WayRay.Wm.Types

/-!
# Border elements

`collect_border_elements`: four solid colors around each bordered window, from buffers that are kept
from frame to frame.  A buffer counts how often its size or color has changed, and its element is
damaged as a whole if the count has.

An identifier is used again once nothing carries it any more, and a new buffer counts from zero.
`Accounted` is the invariant that makes this safe, and `collect_contract` says that border elements
always meet the contract of the renderer.
-/

namespace WayRay

open Rect Raster

variable {ι K A C : Type}

/-- What is known of colors: how a color is drawn, whether it is opaque, and its alpha. -/
structure Palette (K A C : Type) where
  blend : K → C → C
  isOpaque : K → Bool
  alpha : K → A
  hides : ∀ color, isOpaque color = true → ∀ c c', blend color c = blend color c'

/-- `Id::new`: an identifier that nothing carries. -/
structure Allocator (ι : Type) where
  new : List ι → ι
  new_notMem : ∀ alive, new alive ∉ alive

section ZipWith

variable {α β γ δ : Type} {as : List α} {bs : List β}

/-- What a member of two lists zipped says of the first one only. -/
theorem map_zipWith_left {f : α → β → γ} {p : γ → δ} {q : α → δ} (h : ∀ a b, p (f a b) = q a)
    (hlength : as.length ≤ bs.length) : (as.zipWith f bs).map p = as.map q := by
  induction as generalizing bs with
  | nil => rfl
  | cons a as ih =>
    cases bs with
    | nil => exact absurd hlength (by simp)
    | cons b bs =>
      rw [List.zipWith_cons_cons, List.map_cons, List.map_cons, h,
        ih (Nat.le_of_succ_le_succ hlength)]

/-- A member of a list that is zipped twice with another one. -/
theorem exists_of_mem_zipWith_twice {f : α → β → α} {g : α → β → γ} {c : γ}
    (h : c ∈ (as.zipWith f bs).zipWith g bs) :
    ∃ a ∈ as, ∃ b ∈ bs, f a b ∈ as.zipWith f bs ∧ c = g (f a b) b := by
  induction as generalizing bs with
  | nil => exact absurd h (by simp)
  | cons a as ih =>
    cases bs with
    | nil => exact absurd h (by simp)
    | cons b bs =>
      rw [List.zipWith_cons_cons, List.zipWith_cons_cons] at h
      rcases List.mem_cons.mp h with rfl | h
      · exact ⟨a, List.mem_cons_self, b, List.mem_cons_self, List.mem_cons_self, rfl⟩
      · obtain ⟨a', ha', b', hb', hin, rfl⟩ := ih h
        exact ⟨a', List.mem_cons_of_mem _ ha', b', List.mem_cons_of_mem _ hb',
          List.mem_cons_of_mem _ hin, rfl⟩

end ZipWith

/-! ### Buffers -/

/-- A buffer of one color.  Its commit counter is a `usize` that wraps; here it has no end, so that
two commits are equal only if nothing has changed between them. -/
structure SolidColorBuffer (ι K : Type) where
  id : ι
  size : ℤ × ℤ
  commit : ℕ
  color : K

namespace SolidColorBuffer

/-- Update the size and color; if they match the current ones, nothing is done. -/
def update [DecidableEq K] (b : SolidColorBuffer ι K) (size : ℤ × ℤ) (color : K) :
    SolidColorBuffer ι K :=
  if size ≠ b.size ∨ color ≠ b.color then
    { b with size := size, color := color, commit := b.commit + 1 }
  else b

/-- `SolidColorRenderElement::from_buffer`, at the scale and alpha of the output. -/
def element (palette : Palette K A C) (b : SolidColorBuffer ι K) (location : ℤ × ℤ) :
    RenderElement ι ℕ A C where
  id := b.id
  currentCommit := b.commit
  look := palette.alpha b.color
  geometry := ⟨location.1, location.2, b.size.1, b.size.2⟩
  damageSince commit := if commit ≠ some b.commit then [⟨0, 0, b.size.1, b.size.2⟩] else []
  opaqueRegions := if palette.isOpaque b.color then [⟨0, 0, b.size.1, b.size.2⟩] else []
  draw _ := palette.blend b.color

/-- The buffers of a new border: `SolidColorBuffer::default` for each bar. -/
def defaults (alloc : Allocator ι) (color : K) : ℕ → List ι → List (SolidColorBuffer ι K)
  | 0, _ => []
  | n + 1, alive =>
    let id := alloc.new alive
    ⟨id, (0, 0), 0, color⟩ :: defaults alloc color n (id :: alive)

end SolidColorBuffer

/-! ### Collecting -/

/-- The buffers of the windows that have borders. -/
abbrev BorderBuffers (ι K : Type) := HashMap WindowId (List (SolidColorBuffer ι K))

/-- The identifiers of the buffers. -/
def BorderBuffers.ids (buffers : BorderBuffers ι K) : List ι :=
  buffers.values.flatMap fun bars => bars.map SolidColorBuffer.id

section Collect

variable [DecidableEq K] (alloc : Allocator ι) (palette : Palette K A C) (toColor : BorderSpec → K)
  (default : K)

/-- Draw the border of a window; the identifiers that others hold are not used. -/
def collectWindow (held : List ι) (spec : BorderSpec) (id : WindowId) (geometry : Rect)
    (buffers : BorderBuffers ι K) :
    Option (List (RenderElement ι ℕ A C) × BorderBuffers ι K) := do
  let bars := (buffers.get id).getD
    (SolidColorBuffer.defaults alloc default 4 (held ++ buffers.ids))
  let rects ← borderRects geometry spec.width
  let updated := bars.zipWith (fun b r => b.update (r.w, r.h) (toColor spec)) rects
  return (updated.zipWith (fun b r => b.element palette (r.x, r.y)) rects,
    buffers.insert id updated)

/-- The borders of the windows, in order; `none` in the place of a geometry is a hidden window. -/
def collectWindows (held : List ι) (borders : HashMap WindowId BorderSpec) :
    List (WindowId × Option Rect) → BorderBuffers ι K →
      Option (List (RenderElement ι ℕ A C) × BorderBuffers ι K)
  | [], buffers => some ([], buffers)
  | (id, geometry) :: windows, buffers =>
    match borders.get id, geometry with
    | some spec, some geometry => do
      let (elements, buffers) ← collectWindow alloc palette toColor default held spec id geometry
        buffers
      let (rest, buffers) ← collectWindows held borders windows buffers
      return (elements ++ rest, buffers)
    | _, _ => collectWindows held borders windows buffers

/-- `collect_border_elements`; without a protocol there are no borders.  `none` is an overflow. -/
def collectBorderElements (held : List ι) (borders : Option (HashMap WindowId BorderSpec))
    (windows : List (WindowId × Option Rect)) (buffers : BorderBuffers ι K) :
    Option (List (RenderElement ι ℕ A C) × BorderBuffers ι K) :=
  match borders with
  | none => some ([], ∅)
  | some borders =>
    collectWindows alloc palette toColor default held borders windows
      (buffers.retain fun id _ => borders.containsKey id)

end Collect

/-! ### One element -/

section Element

variable (palette : Palette K A C) {b b' : SolidColorBuffer ι K} {location : ℤ × ℤ}

theorem sound_element (h : (Rect.mk location.1 location.2 b.size.1 b.size.2).Valid) :
    (b.element palette location).Sound where
  geometry_valid := h
  damage_valid commit r hr := by
    have hvalid := (bounded_fromSize h.w_nonneg h.h_nonneg h.w_lt h.h_lt).toValid
    simp only [SolidColorBuffer.element] at hr
    split_ifs at hr
    · exact List.mem_singleton.mp hr ▸ hvalid
    · exact absurd hr List.not_mem_nil
  opaque_within r hr := by
    simp only [SolidColorBuffer.element] at hr
    split_ifs at hr
    · rw [List.mem_singleton.mp hr]
      exact Within.refl h.w_nonneg h.h_nonneg
    · exact absurd hr List.not_mem_nil
  hides q hq c c' := by
    simp only [SolidColorBuffer.element] at hq ⊢
    split_ifs at hq with hopaque
    · exact palette.hides b.color hopaque c c'
    · exact absurd hq notMem_covered_nil

/-- An element is not newer than a buffer, and if they are equally old it is drawn as the buffer. -/
def NotNewer (e : RenderElement ι ℕ A C) (b : SolidColorBuffer ι K) : Prop :=
  e.id = b.id → e.currentCommit ≤ b.commit ∧
    (e.currentCommit = b.commit → e.draw = fun _ => palette.blend b.color)

variable {palette} {e : RenderElement ι ℕ A C}

theorem notNewer_element (b : SolidColorBuffer ι K) (location : ℤ × ℤ) :
    NotNewer palette (b.element palette location) b :=
  fun _ => ⟨le_rfl, fun _ => rfl⟩

theorem NotNewer.update [DecidableEq K] (h : NotNewer palette e b) (size : ℤ × ℤ) (color : K) :
    NotNewer palette e (b.update size color) := by
  unfold SolidColorBuffer.update
  split_ifs
  · intro hid
    have hle := (h hid).1
    exact ⟨hle.trans (Nat.le_succ _), fun heq => absurd heq (by dsimp only; omega)⟩
  · exact h

/-- The element of a buffer reports what has changed since an element that is not newer. -/
theorem NotNewer.tracks [BEq A] (h : NotNewer palette e b) (hid : e.id = b.id)
    (location : ℤ × ℤ) : e.Tracks (b.element palette location) := by
  intro _ _ q hq hnot
  by_cases hcommit : e.currentCommit = b.commit
  · exact congrFun ((h hid).2 hcommit) q
  · refine absurd ?_ hnot
    simp only [SolidColorBuffer.element, Option.some.injEq, ne_eq, hcommit, not_false_eq_true,
      if_true]
    exact mem_covered_cons.mpr (Or.inl hq)

end Element

/-! ### The invariant -/

namespace BorderBuffers

/-- Every buffer has an identifier of its own, and no element that is held is newer. -/
structure Accounted (palette : Palette K A C) (held : List (RenderElement ι ℕ A C))
    (buffers : BorderBuffers ι K) : Prop where
  length : ∀ id bars, buffers.get id = some bars → bars.length = 4
  nodup : ∀ id bars, buffers.get id = some bars → (bars.map SolidColorBuffer.id).Nodup
  apart : ∀ id id' bars bars', buffers.get id = some bars → buffers.get id' = some bars' →
    id ≠ id' → ∀ b ∈ bars, ∀ b' ∈ bars', b.id ≠ b'.id
  notNewer : ∀ e ∈ held, ∀ id bars, buffers.get id = some bars → ∀ b ∈ bars, NotNewer palette e b

variable {palette : Palette K A C} {held : List (RenderElement ι ℕ A C)}
  {buffers : BorderBuffers ι K} {id : WindowId}

theorem accounted_empty : Accounted palette held (∅ : BorderBuffers ι K) := by
  constructor <;> simp [HashMap.get_empty]

theorem Accounted.retain (h : Accounted palette held buffers)
    (keep : WindowId → List (SolidColorBuffer ι K) → Bool) :
    Accounted palette held (HashMap.retain buffers keep) where
  length id bars hget := h.length id bars (HashMap.get_retain_eq_some.mp hget).1
  nodup id bars hget := h.nodup id bars (HashMap.get_retain_eq_some.mp hget).1
  apart id id' bars bars' hget hget' := h.apart id id' bars bars'
    (HashMap.get_retain_eq_some.mp hget).1 (HashMap.get_retain_eq_some.mp hget').1
  notNewer e he id bars hget := h.notNewer e he id bars (HashMap.get_retain_eq_some.mp hget).1

/-- Two buffers of one identifier are the same. -/
theorem Accounted.eq_of_id_eq (h : Accounted palette held buffers) {id' : WindowId}
    {bars bars' : List (SolidColorBuffer ι K)} (hget : buffers.get id = some bars)
    (hget' : buffers.get id' = some bars') {b b' : SolidColorBuffer ι K} (hb : b ∈ bars)
    (hb' : b' ∈ bars') (heq : b.id = b'.id) : b = b' := by
  by_cases hid : id = id'
  · subst hid
    obtain rfl := Option.some.inj (hget.symm.trans hget')
    exact List.inj_on_of_nodup_map (h.nodup id bars hget) hb hb' heq
  · exact absurd heq (h.apart id id' bars bars' hget hget' hid b hb b' hb')

/-- Elements of the buffers may be held instead. -/
theorem Accounted.hold (h : Accounted palette held buffers)
    {held' : List (RenderElement ι ℕ A C)}
    (hheld : ∀ e ∈ held', ∃ id bars, buffers.get id = some bars ∧
      ∃ b ∈ bars, ∃ location, e = b.element palette location) :
    Accounted palette held' buffers where
  length := h.length
  nodup := h.nodup
  apart := h.apart
  notNewer e he id' bars' hget' b' hb' := by
    obtain ⟨id, bars, hget, b, hb, location, rfl⟩ := hheld e he
    intro heq
    obtain rfl := h.eq_of_id_eq hget hget' hb hb' heq
    exact notNewer_element b location heq

theorem mem_ids {b : SolidColorBuffer ι K} {bars : List (SolidColorBuffer ι K)}
    (hget : buffers.get id = some bars) (hb : b ∈ bars) : b.id ∈ buffers.ids :=
  List.mem_flatMap.mpr ⟨bars, HashMap.mem_values.mpr ⟨id, hget⟩, List.mem_map.mpr ⟨b, hb, rfl⟩⟩

/-- New buffers have identifiers that nothing carries. -/
theorem defaults_spec (alloc : Allocator ι) (color : K) (n : ℕ) (alive : List ι) :
    (SolidColorBuffer.defaults alloc color n alive).length = n ∧
      ((SolidColorBuffer.defaults alloc color n alive).map SolidColorBuffer.id).Nodup ∧
      ∀ b ∈ SolidColorBuffer.defaults alloc color n alive, b.id ∉ alive := by
  induction n generalizing alive with
  | zero => exact ⟨rfl, List.nodup_nil, fun b hb => absurd hb List.not_mem_nil⟩
  | succ n ih =>
    obtain ⟨hlength, hnodup, hfresh⟩ := ih (alloc.new alive :: alive)
    rw [SolidColorBuffer.defaults, List.map_cons, List.nodup_cons]
    refine ⟨congrArg (· + 1) hlength, ⟨fun hmem => ?_, hnodup⟩, fun b hb => ?_⟩
    · obtain ⟨b, hb, heq⟩ := List.mem_map.mp hmem
      exact hfresh b hb (heq ▸ List.mem_cons_self)
    · rcases List.mem_cons.mp hb with rfl | hb
      · exact alloc.new_notMem alive
      · exact fun hin => hfresh b hb (List.mem_cons_of_mem _ hin)

/-- The buffers of a window may be replaced. -/
theorem Accounted.insert (h : Accounted palette held buffers) {bars : List (SolidColorBuffer ι K)}
    (hlength : bars.length = 4) (hnodup : (bars.map SolidColorBuffer.id).Nodup)
    (hapart : ∀ id' bars', buffers.get id' = some bars' → id ≠ id' →
      ∀ b ∈ bars, ∀ b' ∈ bars', b.id ≠ b'.id)
    (hnewer : ∀ e ∈ held, ∀ b ∈ bars, NotNewer palette e b) :
    Accounted palette held (HashMap.insert buffers id bars) where
  length id' bars' hget :=
    HashMap.of_get_insert (P := fun _ bars => bars.length = 4) hget hlength (h.length id' bars')
  nodup id' bars' hget := HashMap.of_get_insert
    (P := fun _ bars => (bars.map SolidColorBuffer.id).Nodup) hget hnodup (h.nodup id' bars')
  apart id₁ id₂ bars₁ bars₂ hget₁ hget₂ hne := by
    rw [HashMap.get_insert] at hget₁ hget₂
    split_ifs at hget₁ hget₂ with h₁ h₂ h₂
    · exact absurd (h₁.trans h₂.symm) hne
    · obtain rfl := Option.some.inj hget₁
      exact hapart id₂ bars₂ hget₂ (h₁ ▸ hne)
    · obtain rfl := Option.some.inj hget₂
      exact fun b hb b' hb' heq =>
        hapart id₁ bars₁ hget₁ (h₂ ▸ Ne.symm hne) b' hb' b hb heq.symm
    · exact h.apart id₁ id₂ bars₁ bars₂ hget₁ hget₂ hne
  notNewer e he id' bars' hget := HashMap.of_get_insert
    (P := fun _ bars => ∀ b ∈ bars, NotNewer palette e b) hget (hnewer e he)
    (h.notNewer e he id' bars')

/-- A window may be given new buffers. -/
theorem Accounted.insert_defaults (h : Accounted palette held buffers) (alloc : Allocator ι)
    (color : K) {alive : List ι} (hheld : ∀ e ∈ held, e.id ∈ alive) (id : WindowId) :
    Accounted palette held (HashMap.insert buffers id
      (SolidColorBuffer.defaults alloc color 4 (alive ++ buffers.ids))) := by
  obtain ⟨hlength, hnodup, hfresh⟩ := defaults_spec alloc color 4 (alive ++ buffers.ids)
  refine h.insert hlength hnodup (fun id' bars' hget _ b hb b' hb' heq => ?_)
    fun e he b hb heq => ?_
  · exact hfresh b hb (List.mem_append_right _ (heq ▸ mem_ids hget hb'))
  · exact absurd (List.mem_append_left _ (heq ▸ hheld e he)) (hfresh b hb)

variable [DecidableEq K]

/-- The buffers of a border, updated for its bars. -/
theorem of_mem_updated {bars : List (SolidColorBuffer ι K)} {rects : List Rect} {color : K}
    {b : SolidColorBuffer ι K}
    (hb : b ∈ bars.zipWith (fun b r => b.update (r.w, r.h) color) rects) :
    ∃ b₀ ∈ bars, ∃ size, b = b₀.update size color := by
  rw [← List.map_uncurry_zip_eq_zipWith] at hb
  obtain ⟨⟨b₀, r⟩, hin, rfl⟩ := List.mem_map.mp hb
  exact ⟨b₀, (List.of_mem_zip hin).1, _, rfl⟩

theorem id_update (b : SolidColorBuffer ι K) (size : ℤ × ℤ) (color : K) :
    (b.update size color).id = b.id := by
  unfold SolidColorBuffer.update
  split_ifs <;> rfl

theorem size_update (b : SolidColorBuffer ι K) (size : ℤ × ℤ) (color : K) :
    (b.update size color).size = size := by
  unfold SolidColorBuffer.update
  split_ifs with h
  · rfl
  · rw [not_or, not_not] at h
    exact h.1.symm

theorem map_id_updated {bars : List (SolidColorBuffer ι K)} {rects : List Rect} (color : K)
    (hlength : bars.length ≤ rects.length) :
    (bars.zipWith (fun b r => b.update (r.w, r.h) color) rects).map SolidColorBuffer.id =
      bars.map SolidColorBuffer.id :=
  map_zipWith_left (fun b r => id_update b (r.w, r.h) color) hlength

/-- A border may be updated. -/
theorem Accounted.insert_updated (h : Accounted palette held buffers)
    {bars : List (SolidColorBuffer ι K)} (hget : buffers.get id = some bars) {rects : List Rect}
    (hrects : rects.length = 4) (color : K) :
    Accounted palette held (HashMap.insert buffers id
      (bars.zipWith (fun b r => b.update (r.w, r.h) color) rects)) := by
  refine h.insert ?_ ?_ (fun id' bars' hget' hne b hb b' hb' => ?_) fun e he b hb => ?_
  · rw [List.length_zipWith, h.length id bars hget, hrects, min_self]
  · rw [map_id_updated color ((h.length id bars hget).trans hrects.symm).le]
    exact h.nodup id bars hget
  · obtain ⟨b₀, hb₀, size, rfl⟩ := of_mem_updated hb
    rw [id_update]
    exact h.apart id id' bars bars' hget hget' hne b₀ hb₀ b' hb'
  · obtain ⟨b₀, hb₀, size, rfl⟩ := of_mem_updated hb
    exact (h.notNewer e he id bars hget b₀ hb₀).update size color

end BorderBuffers

/-! ### What is collected -/

section Collected

open BorderBuffers

variable [DecidableEq K] {alloc : Allocator ι} {palette : Palette K A C} {toColor : BorderSpec → K}
  {default : K} {held : List (RenderElement ι ℕ A C)} {alive : List ι}
  {buffers buffers' : BorderBuffers ι K} {elements : List (RenderElement ι ℕ A C)}

/-- The bars of a border are rectangles. -/
theorem valid_of_borderRects {geometry : Rect} (h : geometry.Valid) {width : ℤ} (hwidth : 0 < width)
    {rects : List Rect} (hrects : borderRects geometry width = some rects) :
    rects.length = 4 ∧ ∀ r ∈ rects, r.Valid := by
  have hfit := barsFit_of_borderRects hwidth.le hrects
  obtain rfl := Option.some.inj ((borderRects_of_barsFit hwidth.le hfit).symm.trans hrects)
  obtain ⟨hleft, htop, ⟨-, htwice⟩, ⟨-, hspan⟩, hbottom, hright⟩ := hfit
  obtain ⟨hx, hy, hw, hh, hw', hh'⟩ := h
  refine ⟨rfl, fun r hr => ?_⟩
  simp only [bars, List.mem_cons, List.not_mem_nil, or_false] at hr
  rcases hr with rfl | rfl | rfl | rfl
  · exact ⟨hleft, htop, by dsimp only; omega, by dsimp only; omega, hspan, by dsimp only; omega⟩
  · exact ⟨hleft, hbottom, by dsimp only; omega, by dsimp only; omega, hspan,
      by dsimp only; omega⟩
  · exact ⟨hleft, hy, by dsimp only; omega, hh, by dsimp only; omega, hh'⟩
  · exact ⟨hright, hy, by dsimp only; omega, hh, by dsimp only; omega, hh'⟩

/-- The elements come from the buffers of one of the windows. -/
def Shows (palette : Palette K A C) (buffers : BorderBuffers ι K) (ids : List WindowId)
    (e : RenderElement ι ℕ A C) : Prop :=
  ∃ id ∈ ids, ∃ bars, buffers.get id = some bars ∧
    ∃ b ∈ bars, ∃ location, e = b.element palette location

/-- What is collected meets the contract of the renderer, and the buffers stay accounted for. -/
structure Collected (palette : Palette K A C) (held : List (RenderElement ι ℕ A C))
    (ids : List WindowId) (buffers buffers' : BorderBuffers ι K)
    (elements : List (RenderElement ι ℕ A C)) : Prop where
  accounted : Accounted palette held buffers'
  sound : ∀ e ∈ elements, e.Sound
  nodup : (elements.map RenderElement.id).Nodup
  shows : ∀ e ∈ elements, Shows palette buffers' ids e
  others : ∀ id ∉ ids, buffers'.get id = buffers.get id

/-- The border of one window. -/
theorem collected_collectWindow (h : Accounted palette held buffers)
    (hheld : ∀ e ∈ held, e.id ∈ alive) {spec : BorderSpec} {id : WindowId} {geometry : Rect}
    (hgeometry : geometry.Valid)
    (hcollect : collectWindow alloc palette toColor default alive spec id geometry buffers =
      some (elements, buffers')) :
    Collected palette held [id] buffers buffers' elements := by
  simp only [collectWindow, Option.bind_eq_bind, Option.pure_def, Option.bind_eq_some_iff,
    Option.some.injEq, Prod.mk.injEq] at hcollect
  obtain ⟨rects, hrects, rfl, rfl⟩ := hcollect
  obtain ⟨hlength, hvalid⟩ := valid_of_borderRects hgeometry spec.width_pos hrects
  -- whether the buffers are there or new
  obtain ⟨buffers₀, hbuffers₀, haccounted, hget⟩ : ∃ buffers₀ : BorderBuffers ι K,
      (∀ bars, HashMap.insert buffers₀ id bars = HashMap.insert buffers id bars) ∧
        Accounted palette held buffers₀ ∧ buffers₀.get id = some ((buffers.get id).getD
          (SolidColorBuffer.defaults alloc default 4 (alive ++ buffers.ids))) := by
    cases hget : buffers.get id with
    | some bars => exact ⟨buffers, fun _ => rfl, h, hget⟩
    | none =>
      exact ⟨HashMap.insert buffers id
          (SolidColorBuffer.defaults alloc default 4 (alive ++ buffers.ids)),
        fun bars => AList.insert_insert _, h.insert_defaults alloc default hheld id,
        HashMap.get_insert_self _ _ _⟩
  generalize (buffers.get id).getD
    (SolidColorBuffer.defaults alloc default 4 (alive ++ buffers.ids)) = bars at *
  have hbars : bars.length = rects.length := (haccounted.length id bars hget).trans hlength.symm
  have haccounted' := haccounted.insert_updated hget hlength (toColor spec)
  rw [hbuffers₀] at haccounted'
  refine ⟨haccounted', fun e he => ?_, ?_, fun e he => ?_, fun id' hid' => ?_⟩
  · obtain ⟨b, -, r, hr, -, rfl⟩ := exists_of_mem_zipWith_twice he
    refine sound_element palette ?_
    rw [size_update]
    exact hvalid r hr
  · have hids : ∀ updated : List (SolidColorBuffer ι K), updated.length ≤ rects.length →
        (updated.zipWith (fun b r => b.element palette (r.x, r.y)) rects).map RenderElement.id =
          updated.map SolidColorBuffer.id := fun updated => map_zipWith_left fun _ _ => rfl
    rw [hids _ (List.length_zipWith ▸ Nat.min_le_right _ _), map_id_updated (toColor spec) hbars.le]
    exact haccounted.nodup id bars hget
  · obtain ⟨b, -, r, -, hin, rfl⟩ := exists_of_mem_zipWith_twice he
    exact ⟨id, List.mem_singleton_self _, _, HashMap.get_insert_self _ _ _, _, hin, _, rfl⟩
  · exact HashMap.get_insert_of_ne _ _ fun heq => hid' (List.mem_singleton.mpr heq)

/-- **The borders of all windows.** -/
theorem collected_collectWindows {borders : HashMap WindowId BorderSpec}
    {windows : List (WindowId × Option Rect)} (h : Accounted palette held buffers)
    (hheld : ∀ e ∈ held, e.id ∈ alive) (hnodup : (windows.map Prod.fst).Nodup)
    (hgeometries : ∀ id geometry, (id, some geometry) ∈ windows → geometry.Valid)
    (hcollect : collectWindows alloc palette toColor default alive borders windows buffers =
      some (elements, buffers')) :
    Collected palette held (windows.map Prod.fst) buffers buffers' elements := by
  induction windows generalizing buffers elements with
  | nil =>
    obtain ⟨rfl, rfl⟩ := Prod.mk.inj (Option.some.inj hcollect)
    exact ⟨h, by simp, List.nodup_nil, by simp, fun _ _ => rfl⟩
  | cons window windows ih =>
    obtain ⟨id, geometry⟩ := window
    rw [List.map_cons, List.nodup_cons] at hnodup
    have hrest : ∀ id geometry, (id, some geometry) ∈ windows → geometry.Valid :=
      fun id geometry hin => hgeometries id geometry (List.mem_cons_of_mem _ hin)
    have hshift : ∀ {e : RenderElement ι ℕ A C},
        Shows palette buffers' (windows.map Prod.fst) e →
          Shows palette buffers' ((id :: windows.map Prod.fst)) e := by
      rintro e ⟨id', hid', hshows⟩
      exact ⟨id', List.mem_cons_of_mem _ hid', hshows⟩
    by_cases hborder : ∃ spec geometry', borders.get id = some spec ∧ geometry = some geometry'
    · obtain ⟨spec, geometry, hspec, rfl⟩ := hborder
      simp only [collectWindows, hspec, Option.bind_eq_bind, Option.pure_def,
        Option.bind_eq_some_iff, Option.some.injEq, Prod.mk.injEq] at hcollect
      obtain ⟨⟨first, buffers₁⟩, hfirst, ⟨rest, buffers₂⟩, hlater, rfl, rfl⟩ := hcollect
      obtain ⟨haccounted, hsound, hids, hshows, hothers⟩ := collected_collectWindow h hheld
        (hgeometries id geometry List.mem_cons_self) hfirst
      obtain ⟨haccounted', hsound', hids', hshows', hothers'⟩ :=
        ih haccounted hnodup.2 hrest hlater
      have hkept : ∀ e ∈ first, Shows palette buffers₂ [id] e := by
        intro e he
        obtain ⟨id', hid', bars, hget, hin⟩ := hshows e he
        obtain rfl := List.mem_singleton.mp hid'
        exact ⟨id', hid', bars, (hothers' id' hnodup.1).trans hget, hin⟩
      refine ⟨haccounted', fun e he => ?_, ?_, fun e he => ?_, fun id' hid' => ?_⟩
      · exact (List.mem_append.mp he).elim (hsound e) (hsound' e)
      · rw [List.map_append, List.nodup_append]
        refine ⟨hids, hids', fun i hi i' hi' heq => ?_⟩
        obtain ⟨e, he, rfl⟩ := List.mem_map.mp hi
        obtain ⟨e', he', rfl⟩ := List.mem_map.mp hi'
        obtain ⟨w, hw, bars, hget, b, hb, _, rfl⟩ := hkept e he
        obtain ⟨w', hw', bars', hget', b', hb', _, rfl⟩ := hshows' e' he'
        obtain rfl := List.mem_singleton.mp hw
        have hne : w ≠ w' := fun heq => hnodup.1 (heq ▸ hw')
        exact haccounted'.apart w w' bars bars' hget hget' hne b hb b' hb' heq
      · rcases List.mem_append.mp he with he | he
        · obtain ⟨id', hid', hin⟩ := hkept e he
          obtain rfl := List.mem_singleton.mp hid'
          exact ⟨id', List.mem_cons_self, hin⟩
        · exact hshift (hshows' e he)
      · rw [List.map_cons, List.mem_cons, not_or] at hid'
        rw [hothers' id' hid'.2, hothers id' fun hin => hid'.1 (List.mem_singleton.mp hin)]
    · have hskip : collectWindows alloc palette toColor default alive borders windows buffers =
          some (elements, buffers') := by
        rw [← hcollect, collectWindows]
        exact fun spec geometry' hspec hgeometry => hborder ⟨spec, geometry', hspec, hgeometry⟩
      obtain ⟨haccounted, hsound, hids, hshows, hothers⟩ := ih h hnodup.2 hrest hskip
      refine ⟨haccounted, hsound, hids, fun e he => hshift (hshows e he), fun id' hid' => ?_⟩
      exact hothers id' fun hin => hid' (List.mem_cons_of_mem _ hin)

end Collected

/-! ### Frames -/

/-- The buffers, and the elements of the frame that the renderer has recorded. -/
structure BorderSystem (ι K A C : Type) where
  buffers : BorderBuffers ι K
  held : List (RenderElement ι ℕ A C)

/-- What becomes of a frame. -/
inductive DrawOutcome (ι A C : Type) where
  | skipped
  | renderingError
  /-- The renderer records the elements that are visible. -/
  | rendered (visible : RenderElement ι ℕ A C → Bool)

/-- A frame: the borders that are set, the windows, the identifiers that others carry, and what
becomes of it. -/
structure BorderTurn (ι A C : Type) where
  borders : Option (HashMap WindowId BorderSpec)
  windows : List (WindowId × Option Rect)
  others : List ι
  outcome : DrawOutcome ι A C

namespace BorderSystem

variable [DecidableEq K] (alloc : Allocator ι) (palette : Palette K A C) (toColor : BorderSpec → K)
  (default : K)

/-- The elements of a frame. -/
def collect (s : BorderSystem ι K A C) (turn : BorderTurn ι A C) :
    Option (List (RenderElement ι ℕ A C) × BorderBuffers ι K) :=
  collectBorderElements alloc palette toColor default
    (turn.others ++ s.held.map RenderElement.id) turn.borders turn.windows s.buffers

/-- What the renderer has recorded after a frame of the elements. -/
def holds (held elements : List (RenderElement ι ℕ A C)) :
    DrawOutcome ι A C → List (RenderElement ι ℕ A C)
  | .skipped => held
  | .renderingError => []
  | .rendered visible => elements.filter visible

def step (s : BorderSystem ι K A C) (turn : BorderTurn ι A C) : BorderSystem ι K A C :=
  match s.collect alloc palette toColor default turn with
  | none => s
  | some (elements, buffers) => ⟨buffers, holds s.held elements turn.outcome⟩

/-- The windows are different ones, and their geometries are rectangles. -/
structure Windows (turn : BorderTurn ι A C) : Prop where
  nodup : (turn.windows.map Prod.fst).Nodup
  geometries : ∀ id geometry, (id, some geometry) ∈ turn.windows → geometry.Valid

variable {alloc palette toColor default} {s : BorderSystem ι K A C} {turn : BorderTurn ι A C}
  {elements : List (RenderElement ι ℕ A C)} {buffers : BorderBuffers ι K}

theorem collected_collect (h : s.buffers.Accounted palette s.held) (hwindows : Windows turn)
    (hcollect : s.collect alloc palette toColor default turn = some (elements, buffers)) :
    ∃ before, Collected palette s.held (turn.windows.map Prod.fst) before buffers elements := by
  unfold collect collectBorderElements at hcollect
  cases hborders : turn.borders with
  | none =>
    rw [hborders] at hcollect
    obtain ⟨rfl, rfl⟩ := Prod.mk.inj (Option.some.inj hcollect)
    exact ⟨∅, BorderBuffers.accounted_empty, by simp, List.nodup_nil, by simp, fun _ _ => rfl⟩
  | some borders =>
    rw [hborders] at hcollect
    exact ⟨_, collected_collectWindows (h.retain _)
      (fun e he => List.mem_append_right _ (List.mem_map.mpr ⟨e, he, rfl⟩)) hwindows.nodup
      hwindows.geometries hcollect⟩

/-- **Step lemma**: the buffers stay accounted for, whatever becomes of the frame. -/
theorem accounted_step (s : BorderSystem ι K A C) (turn : BorderTurn ι A C)
    (h : s.buffers.Accounted palette s.held) (hwindows : Windows turn) :
    (s.step alloc palette toColor default turn).buffers.Accounted palette
      (s.step alloc palette toColor default turn).held := by
  unfold step
  split
  · exact h
  · next elements buffers hcollect =>
    obtain ⟨before, hcollected⟩ := collected_collect h hwindows hcollect
    have hshows : ∀ e ∈ elements, ∃ id bars, buffers.get id = some bars ∧
        ∃ b ∈ bars, ∃ location, e = b.element palette location := by
      intro e he
      obtain ⟨id, -, bars, hget, hin⟩ := hcollected.shows e he
      exact ⟨id, bars, hget, hin⟩
    cases turn.outcome with
    | skipped => exact hcollected.accounted
    | renderingError => exact hcollected.accounted.hold fun e he => absurd he List.not_mem_nil
    | rendered visible =>
      exact hcollected.accounted.hold fun e he => hshows e (List.mem_of_mem_filter he)

variable (alloc palette toColor default)

/-- **Borders meet the contract of the renderer**: in every run of frames, in which borders are set,
changed and removed, windows come, go, move and are hidden, frames are skipped, drawn or fail, and
identifiers are used again, the elements of the next frame are sound and different ones, and report
what has changed since the frame that the renderer has recorded. -/
theorem collect_contract [BEq A] (turns : List (BorderTurn ι A C)) (turn : BorderTurn ι A C)
    (hwindows : ∀ turn' ∈ turns ++ [turn], Windows turn') :
    let s := turns.foldl (step alloc palette toColor default) ⟨∅, []⟩
    ∀ elements buffers, s.collect alloc palette toColor default turn = some (elements, buffers) →
      (∀ e ∈ elements, e.Sound) ∧ (elements.map RenderElement.id).Nodup ∧
        ∀ e ∈ s.held, ∀ e' ∈ elements, e.id = e'.id → e.Tracks e' := by
  intro s elements buffers hcollect
  have haccounted : s.buffers.Accounted palette s.held := by
    refine List.foldlRecOn (motive := fun s => s.buffers.Accounted palette s.held)
      (b := ⟨∅, []⟩) turns (step alloc palette toColor default) BorderBuffers.accounted_empty ?_
    exact fun s hs turn hturn =>
      accounted_step s turn hs (hwindows turn (List.mem_append_left _ hturn))
  obtain ⟨before, hcollected⟩ := collected_collect haccounted
    (hwindows turn (List.mem_append_right _ (List.mem_singleton_self _))) hcollect
  refine ⟨hcollected.sound, hcollected.nodup, fun e he e' he' hid => ?_⟩
  obtain ⟨id, -, bars, hget, b, hb, location, rfl⟩ := hcollected.shows e' he'
  exact (hcollected.accounted.notNewer e he id bars hget b hb).tracks hid location

section Witness

/-- Colors that hide what is behind them. -/
def opaqueColors : Palette ℕ Unit ℕ := ⟨fun color _ => color, fun _ => true, fun _ => (),
  fun _ _ _ _ => rfl⟩

/-- Identifiers above all others. -/
def nextId : Allocator ℕ where
  new alive := alive.sum + 1
  new_notMem alive hin := absurd (List.le_sum_of_mem hin) (by omega)

/-- A window with a border of a color. -/
def bordered (red : UInt8) (outcome : DrawOutcome ℕ Unit ℕ) : BorderTurn ℕ Unit ℕ :=
  ⟨some (HashMap.insert ∅ ⟨1⟩ ⟨red, 0, 0, 255, 2, by decide⟩),
    [(⟨1⟩, some ⟨10, 10, 30, 20⟩), (⟨2⟩, none)], [], outcome⟩

theorem windows_bordered (red : UInt8) (outcome : DrawOutcome ℕ Unit ℕ) :
    Windows (bordered red outcome) where
  nodup := by
    show [WindowId.mk 1, WindowId.mk 2].Nodup
    decide
  geometries id geometry hin := by
    obtain ⟨-, rfl⟩ : id = ⟨1⟩ ∧ geometry = ⟨10, 10, 30, 20⟩ := by simpa [bordered] using hin
    constructor <;> decide

/-- A border changes its color after it has been drawn. -/
theorem collect_contract_recolored :
    let s := [bordered 1 (.rendered fun _ => true)].foldl
      (step nextId opaqueColors (fun spec => spec.red.toNat) 0) ⟨∅, []⟩
    s.held.length = 4 ∧ ∃ elements buffers,
      s.collect nextId opaqueColors (fun spec => spec.red.toNat) 0 (bordered 2 .skipped) =
        some (elements, buffers) ∧
      ∀ e ∈ s.held, ∀ e' ∈ elements, e.id = e'.id → e.Tracks e' := by
  refine ⟨rfl, _, _, rfl, ?_⟩
  refine (collect_contract nextId opaqueColors (fun spec => spec.red.toNat) 0
    [bordered 1 (.rendered fun _ => true)] (bordered 2 .skipped) ?_ _ _ rfl).2.2
  simp only [List.cons_append, List.nil_append, List.mem_cons, List.not_mem_nil, or_false,
    forall_eq_or_imp, forall_eq]
  exact ⟨windows_bordered 1 _, windows_bordered 2 _⟩

end Witness

end BorderSystem

end WayRay
