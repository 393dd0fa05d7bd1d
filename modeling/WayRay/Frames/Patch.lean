import WayRay.Client.Screen
import WayRay.Headless.Frames

/-!
# One frame on one screen

`Patches` says what a frame is good for: a screen that shows given pixels before it shows the pixels
of the frame's render after it, with the frame's checksum.  A whole frame does that for any screen
(`patches_full`), and the regions of the damage for a screen that shows a render from which the
frame differs within the damage only (`patches_damage`).
-/

namespace WayRay

open Encoding

/-! ### Screens -/

namespace OutputMode

/-- A framebuffer allocated for this output. -/
structure Fits (o : OutputMode) (c : ClientScreen) : Prop where
  stride_eq : c.stride = o.width * bpp
  length_eq : c.framebuffer.length = o.width * bpp * o.height

/-- The screen shows the visible pixels of a render buffer. -/
def Shows (o : OutputMode) (pixels : Bytes) (c : ClientScreen) : Prop :=
  Agrees (o.width * bpp) o.height pixels o.stride c.framebuffer c.stride

/-- Two render buffers differ in a pixel. -/
def Differ (o : OutputMode) (before after : Bytes) (row col : ℕ) : Prop :=
  ∃ k < bpp, before[row * o.stride + (col * bpp + k)]? ≠ after[row * o.stride + (col * bpp + k)]?

/-- The rectangles contain every visible pixel in which two render buffers differ. -/
def Covers (o : OutputMode) (rects : List Rect) (before after : Bytes) : Prop :=
  ∀ row < o.height, ∀ col < o.width, o.Differ before after row col →
    ∃ r ∈ rects, r.Contains row col

end OutputMode

/-- Applied to a screen that shows `base`, if any is given, the frame makes it show `pixels`; the
checksums then agree and no keyframe is requested. -/
def Patches (zstd : Zstd) (o : OutputMode) (frame : FrameUpdate) (base : Option Bytes)
    (pixels : Bytes) : Prop :=
  ∀ c : ClientScreen, o.Fits c → (∀ before, base = some before → o.Shows before c) →
    ∃ c', c.receiveFrame zstd frame = some (c', false) ∧ o.Fits c' ∧ o.Shows pixels c' ∧
      c'.localChecksum = some frame.checksum

/-! ### Regions of a frame -/

section Regions

variable {zstd : Zstd} {o : OutputMode} {pixels : Bytes}

theorem toNat_ofNat_lt {n : ℕ} (h : n < 2 ^ 31) : (UInt32.ofNat n).toNat = n := by
  rw [UInt32.toNat_ofNat']
  omega

/-- What a region of the frame does to a framebuffer: within the rectangle it holds the pixels of
the frame, elsewhere what it held. -/
def Puts (zstd : Zstd) (o : OutputMode) (pixels : Bytes) (inside : ℕ → ℕ → Prop)
    (regions : List DamageRegion) : Prop :=
  ∀ framebuffer : Bytes, framebuffer.length = o.width * bpp * o.height →
    ∃ framebuffer',
      regions.foldlM (fun framebuffer region => applyRegion zstd framebuffer (o.width * bpp) region)
        framebuffer = some framebuffer' ∧
      framebuffer'.length = o.width * bpp * o.height ∧
      ∀ row i, i < o.width * bpp →
        (inside row (i / bpp) →
          framebuffer'[row * (o.width * bpp) + i]? = pixels[row * o.stride + i]?) ∧
        (¬ inside row (i / bpp) →
          framebuffer'[row * (o.width * bpp) + i]? = framebuffer[row * (o.width * bpp) + i]?)

/-- One region after the others. -/
theorem Puts.cons {inside inside' : ℕ → ℕ → Prop} {region : DamageRegion}
    {regions : List DamageRegion} (h : Puts zstd o pixels inside [region])
    (h' : Puts zstd o pixels inside' regions) :
    Puts zstd o pixels (fun row col => inside row col ∨ inside' row col) (region :: regions) := by
  intro framebuffer hlen
  obtain ⟨fb₁, happly₁, hlen₁, hcells₁⟩ := h framebuffer hlen
  obtain ⟨fb₂, happly₂, hlen₂, hcells₂⟩ := h' fb₁ hlen₁
  have hfirst : applyRegion zstd framebuffer (o.width * bpp) region = some fb₁ := by
    simpa using happly₁
  refine ⟨fb₂, by rw [List.foldlM_cons, hfirst]; exact happly₂, hlen₂, fun row i hi => ?_⟩
  obtain ⟨hin₁, hout₁⟩ := hcells₁ row i hi
  obtain ⟨hin₂, hout₂⟩ := hcells₂ row i hi
  constructor
  · intro hin
    -- where both regions lie, the second one puts the same pixels again
    by_cases hin' : inside' row (i / bpp)
    · exact hin₂ hin'
    · rw [hout₂ hin']
      exact hin₁ (hin.resolve_right hin')
  · intro hout
    rw [not_or] at hout
    rw [hout₂ hout.2, hout₁ hout.1]

variable (zstd) in
/-- A rectangle of the output is encoded into a region that puts its pixels. -/
theorem exists_encodeRegion {x y width height : ℕ} (hx : x + width ≤ o.width)
    (hy : y + height ≤ o.height) (hlen : pixels.length = o.frameSize) :
    ∃ region, encodeRegion zstd pixels o.stride (UInt32.ofNat x) (UInt32.ofNat y)
        (UInt32.ofNat width) (UInt32.ofNat height) = some region ∧
      region.width.toNat = width ∧ region.height.toNat = height ∧
      Puts zstd o pixels
        (fun row col => y ≤ row ∧ row < y + height ∧ x ≤ col ∧ col < x + width) [region] := by
  have hwidth := o.width_lt
  have hheight := o.height_lt
  have hxn : (UInt32.ofNat x).toNat = x := toNat_ofNat_lt (by omega)
  have hyn : (UInt32.ofNat y).toNat = y := toNat_ofNat_lt (by omega)
  have hwn : (UInt32.ofNat width).toNat = width := toNat_ofNat_lt (by omega)
  have hhn : (UInt32.ofNat height).toNat = height := toNat_ofNat_lt (by omega)
  have hfit : ((UInt32.ofNat x).toNat + (UInt32.ofNat width).toNat) * bpp ≤ o.width * bpp := by
    rw [hxn, hwn]
    exact Nat.mul_le_mul_right _ hx
  have hbottom : (UInt32.ofNat y).toNat + (UInt32.ofNat height).toNat ≤ o.height := by
    rw [hyn, hhn]
    exact hy
  obtain ⟨region, hencode, hw, hh, happly⟩ :=
    apply_encode zstd (hfit.trans o.stride_le) hbottom hlen
  refine ⟨region, hencode, by rw [hw, hwn], by rw [hh, hhn], fun framebuffer hfb => ?_⟩
  obtain ⟨framebuffer', happly', hlen', hcells⟩ := happly framebuffer _ hfit hfb
  refine ⟨framebuffer', by simpa using happly', hlen'.trans hfb, fun row i hi => ?_⟩
  rw [hcells row i hi, hxn, hyn, hwn, hhn]
  have hbytes : (y ≤ row ∧ row < y + height ∧ x * bpp ≤ i ∧ i < x * bpp + width * bpp) ↔
      (y ≤ row ∧ row < y + height ∧ x ≤ i / bpp ∧ i / bpp < x + width) := by
    unfold bpp
    omega
  simp only [hbytes]
  exact ⟨fun hin => if_pos hin, fun hout => if_neg hout⟩

theorem Puts.nil : Puts zstd o pixels (fun _ _ => False) [] := by
  intro framebuffer hlen
  exact ⟨framebuffer, rfl, hlen, fun row i _ => ⟨False.elim, fun _ => rfl⟩⟩

theorem Puts.congr {inside inside' : ℕ → ℕ → Prop} {regions : List DamageRegion}
    (h : Puts zstd o pixels inside regions) (hiff : ∀ row col, inside row col ↔ inside' row col) :
    Puts zstd o pixels inside' regions := by
  have heq : inside = inside' := by
    funext row col
    exact propext (hiff row col)
  rwa [heq] at h

variable (zstd) in
/-- The whole frame puts every visible pixel. -/
theorem exists_encodeFull (hlen : pixels.length = o.frameSize) :
    ∃ regions, encodeFull zstd o pixels = some regions ∧
      Puts zstd o pixels (fun row col => row < o.height ∧ col < o.width) regions := by
  have hwidth : 0 + o.width ≤ o.width := by omega
  have hheight : 0 + o.height ≤ o.height := by omega
  obtain ⟨region, hencode, -, -, hputs⟩ := exists_encodeRegion zstd hwidth hheight hlen
  refine ⟨[region], ?_, hputs.congr fun row col => by omega⟩
  rw [encodeFull]
  exact congrArg (Option.map ([·])) hencode

variable (zstd) in
/-- A damage rectangle inside the output puts its pixels; if its region is empty, it has none. -/
theorem exists_encodeRect {r : Rect} (h : r.Inside o) (hlen : pixels.length = o.frameSize) :
    ∃ region, encodeRect zstd o pixels r = some region ∧
      Puts zstd o pixels (fun row col => r.Contains row col) [region] ∧
      (¬ (0 < region.width ∧ 0 < region.height) → ∀ row col, ¬ r.Contains row col) := by
  obtain ⟨hx, hy, hw, hh, hright, hbottom⟩ := h
  have hfitx : r.x.toNat + r.w.toNat ≤ o.width := by omega
  have hfity : r.y.toNat + r.h.toNat ≤ o.height := by omega
  obtain ⟨region, hencode, hwidth, hheight, hputs⟩ :=
    exists_encodeRegion zstd hfitx hfity hlen
  refine ⟨region, ?_, hputs.congr fun row col => ?_, fun hempty row col hin => ?_⟩
  · -- nothing is cut off by the clamping
    have hx' : (max r.x 0).toNat = r.x.toNat := by omega
    have hy' : (max r.y 0).toNat = r.y.toNat := by omega
    have hw' : (max (min r.w (o.width - max r.x 0)) 0).toNat = r.w.toNat := by omega
    have hh' : (max (min r.h (o.height - max r.y 0)) 0).toNat = r.h.toNat := by omega
    rw [encodeRect, hx', hy', hw', hh']
    exact hencode
  · unfold Rect.Contains
    omega
  · obtain ⟨hy₁, hy₂, hx₁, hx₂⟩ := hin
    refine hempty ⟨?_, ?_⟩
    · rw [UInt32.lt_iff_toNat_lt, hwidth]
      show 0 < r.w.toNat
      omega
    · rw [UInt32.lt_iff_toNat_lt, hheight]
      show 0 < r.h.toNat
      omega

variable (zstd) in
/-- The damage puts the pixels in its rectangles. -/
theorem exists_encodeDamage {rects : List Rect} (h : ∀ r ∈ rects, r.Inside o)
    (hlen : pixels.length = o.frameSize) :
    ∃ regions, encodeDamage zstd o pixels rects = some regions ∧
      Puts zstd o pixels (fun row col => ∃ r ∈ rects, r.Contains row col) regions := by
  induction rects with
  | nil => exact ⟨[], rfl, Puts.nil.congr fun row col => by simp⟩
  | cons r rects ih =>
    obtain ⟨region, hencode, hregion, hempty⟩ :=
      exists_encodeRect zstd (h r List.mem_cons_self) hlen
    obtain ⟨regions, hrest, hputs⟩ := ih fun r' hr' => h r' (List.mem_cons_of_mem _ hr')
    obtain ⟨all, hall, rfl⟩ := Option.map_eq_some_iff.1 hrest
    have hcons : (r :: rects).mapM (encodeRect zstd o pixels) = some (region :: all) := by
      rw [List.mapM_cons, hencode, hall]
      rfl
    refine ⟨_, by rw [encodeDamage, hcons, Option.map_some], ?_⟩
    by_cases hkept : 0 < region.width ∧ 0 < region.height
    · rw [List.filter_cons_of_pos (by simpa using hkept)]
      refine (hregion.cons hputs).congr fun row col => ?_
      simp only [List.mem_cons, exists_eq_or_imp]
    · -- an empty region is left out
      rw [List.filter_cons_of_neg (by simpa using hkept)]
      refine hputs.congr fun row col => ?_
      simp only [List.mem_cons, exists_eq_or_imp, hempty hkept row col, false_or]

end Regions

/-! ### What a frame does -/

section Patch

variable {zstd : Zstd} {o : OutputMode} {pixels : Bytes}

/-- A screen that shows given pixels has their checksum. -/
theorem localChecksum_of_shows {c : ClientScreen} (hlen : pixels.length = o.frameSize)
    (hfits : o.Fits c) (hshows : o.Shows pixels c) :
    ∃ own, checksum pixels o.stride (o.width * bpp) o.height = some own ∧
      c.localChecksum = some own := by
  obtain ⟨hstride, hfb⟩ := hfits
  have hpos : 0 < o.width * bpp := Nat.mul_pos o.width_pos (by decide)
  have hfb' : c.framebuffer.length = c.stride * o.height := by rw [hfb, hstride]
  obtain ⟨own, hserver, hclient⟩ := checksum_congr o.stride_le hstride.ge hlen hfb' hshows
  refine ⟨own, hserver, ?_⟩
  have hheight : c.framebuffer.length / c.stride = o.height := by
    rw [hfb', Nat.mul_div_cancel_left _ (by rw [hstride]; exact hpos)]
  rw [ClientScreen.localChecksum, if_neg (by omega), hheight, hstride]
  rw [hstride] at hclient
  exact hclient

/-- A frame whose regions put all the pixels that `base` lacks patches it. -/
theorem patches_of_puts {frame : FrameUpdate} {base : Option Bytes} {inside : ℕ → ℕ → Prop}
    (hlen : pixels.length = o.frameSize)
    (hchecksum : checksum pixels o.stride (o.width * bpp) o.height = some frame.checksum)
    (hputs : Puts zstd o pixels inside frame.regions)
    (hrest : ∀ row < o.height, ∀ i < o.width * bpp, ¬ inside row (i / bpp) →
      ∃ before, base = some before ∧
        before[row * o.stride + i]? = pixels[row * o.stride + i]?) :
    Patches zstd o frame base pixels := by
  intro c hfits hbase
  obtain ⟨framebuffer, happly, hfb, hcells⟩ := hputs c.framebuffer hfits.length_eq
  have hfits' : o.Fits { c with framebuffer := framebuffer, keyframePending := false } :=
    ⟨hfits.stride_eq, hfb⟩
  have hshows : o.Shows pixels { c with framebuffer := framebuffer, keyframePending := false } := by
    intro row hrow i hi
    obtain ⟨hin, hout⟩ := hcells row i hi
    simp only [hfits.stride_eq]
    by_cases hinside : inside row (i / bpp)
    · exact (hin hinside).symm
    · -- the screen showed the same there before
      obtain ⟨before, hbefore, hsame⟩ := hrest row hrow i hi hinside
      have hshown := hbase before hbefore row hrow i hi
      rw [hfits.stride_eq] at hshown
      rw [hout hinside, ← hshown, hsame]
  obtain ⟨own, hserver, hclient⟩ := localChecksum_of_shows hlen hfits' hshows
  obtain rfl : frame.checksum = own := Option.some.inj (hchecksum.symm.trans hserver)
  refine ⟨_, ?_, hfits', hshows, hclient⟩
  have happly' :
      c.applyRegions zstd frame.regions = some { c with framebuffer := framebuffer } := by
    rw [ClientScreen.applyRegions, hfits.stride_eq, happly, Option.map_some]
  have hlocal : ({ c with framebuffer := framebuffer } : ClientScreen).localChecksum =
      some frame.checksum := hclient
  rw [ClientScreen.receiveFrame, happly', Option.bind_some, hlocal, Option.map_some, if_pos rfl]

/-- **A whole frame patches every screen.** -/
theorem patches_full {frame : FrameUpdate} (hlen : pixels.length = o.frameSize)
    (hchecksum : checksum pixels o.stride (o.width * bpp) o.height = some frame.checksum)
    (hregions : encodeFull zstd o pixels = some frame.regions) (base : Option Bytes) :
    Patches zstd o frame base pixels := by
  obtain ⟨regions, hencode, hputs⟩ := exists_encodeFull zstd hlen
  obtain rfl : frame.regions = regions := Option.some.inj (hregions.symm.trans hencode)
  refine patches_of_puts hlen hchecksum hputs fun row hrow i hi hout => absurd ⟨hrow, ?_⟩ hout
  exact (Nat.div_lt_iff_lt_mul (by decide)).2 hi

/-- **The damage patches a screen that shows `before`**, if it contains all in which the new render
differs from it. -/
theorem patches_damage {frame : FrameUpdate} {before : Bytes} {rects : List Rect}
    (hlen : pixels.length = o.frameSize)
    (hchecksum : checksum pixels o.stride (o.width * bpp) o.height = some frame.checksum)
    (hinside : ∀ r ∈ rects, r.Inside o) (hcovers : o.Covers rects before pixels)
    (hregions : encodeDamage zstd o pixels rects = some frame.regions) :
    Patches zstd o frame (some before) pixels := by
  obtain ⟨regions, hencode, hputs⟩ := exists_encodeDamage zstd hinside hlen
  obtain rfl : frame.regions = regions := Option.some.inj (hregions.symm.trans hencode)
  refine patches_of_puts hlen hchecksum hputs fun row hrow i hi hout => ⟨before, rfl, ?_⟩
  by_contra hne
  -- the byte belongs to a pixel that differs, and the damage does not contain it
  have hcol : i / bpp < o.width := (Nat.div_lt_iff_lt_mul (by decide)).2 hi
  have hsplit : i / bpp * bpp + i % bpp = i := Nat.div_add_mod' i bpp
  exact hout (hcovers row hrow (i / bpp) hcol
    ⟨i % bpp, Nat.mod_lt _ (by decide), by rw [hsplit]; exact hne⟩)

end Patch

/-! ### The next frame -/

/-- The damage reported for a render lies inside the output. -/
def DamageInside (o : OutputMode) (damage : Option (List Rect)) : Prop :=
  ∀ rects, damage = some rects → ∀ r ∈ rects, r.Inside o

section NextFrame

variable (zstd : Zstd) {o : OutputMode} {pixels : Bytes} {damage : Option (List Rect)}

/-- A forced frame is a whole one. -/
theorem encodeRegions_forced :
    encodeRegions zstd o true pixels damage = encodeFull zstd o pixels := by
  cases damage with
  | none => rfl
  | some rects => simp [encodeRegions]

/-- The regions of a delta frame patch a screen that shows the render before, if the damage contains
all that has changed since. -/
theorem exists_encodeRegions (hlen : pixels.length = o.frameSize) (hinside : DamageInside o damage)
    {own : UInt32} (hchecksum : checksum pixels o.stride (o.width * bpp) o.height = some own) :
    ∃ regions, encodeRegions zstd o false pixels damage = some regions ∧
      ∀ sequence before, (∀ rects, damage = some rects → o.Covers rects before pixels) →
        Patches zstd o ⟨sequence, regions, own⟩ (some before) pixels := by
  have hfull : ∃ regions, encodeFull zstd o pixels = some regions ∧
      ∀ sequence before, (∀ rects, damage = some rects → o.Covers rects before pixels) →
        Patches zstd o ⟨sequence, regions, own⟩ (some before) pixels := by
    obtain ⟨regions, hregions, -⟩ := exists_encodeFull zstd hlen
    exact ⟨regions, hregions, fun sequence before _ => patches_full hlen hchecksum hregions _⟩
  cases damage with
  | none => exact hfull
  | some rects =>
    simp only [encodeRegions]
    split_ifs
    · obtain ⟨regions, hregions, -⟩ := exists_encodeDamage zstd (hinside rects rfl) hlen
      exact ⟨regions, hregions, fun sequence before hcovers =>
        patches_damage hlen hchecksum (hinside rects rfl) (hcovers rects rfl) hregions⟩
    · exact hfull

/-- **The next frame** is skipped, is a keyframe that patches every screen, or is a delta frame that
patches a screen that shows the render before. -/
theorem nextFrame_cases (f : FrameState) (hlen : pixels.length = o.frameSize)
    (hinside : DamageInside o damage) :
    (f.forceKeyframe = false ∧ pixels = f.previousFrame ∧
      f.nextFrame zstd o pixels damage = some (f, none)) ∨
    (∃ frame, f.nextFrame zstd o pixels damage =
        some (⟨pixels, f.frameSequence + 1, false, 0⟩, some (.sendKeyframe frame)) ∧
      Patches zstd o frame none pixels) ∨
    ∃ frame, f.nextFrame zstd o pixels damage =
        some (⟨pixels, f.frameSequence + 1, false, f.framesSinceKeyframe + 1⟩,
          some (.sendFrame frame)) ∧
      f.forceKeyframe = false ∧ f.framesSinceKeyframe < keyframeInterval ∧
      ∀ before, (∀ rects, damage = some rects → o.Covers rects before pixels) →
        Patches zstd o frame (some before) pixels := by
  obtain ⟨own, hchecksum⟩ :
      ∃ own, checksum pixels o.stride (o.width * bpp) o.height = some own := by
    obtain ⟨own, hown, -⟩ := checksum_congr o.stride_le o.stride_le hlen hlen fun _ _ _ _ => rfl
    exact ⟨own, hown⟩
  by_cases hskip : (!f.forceKeyframe && pixels == f.previousFrame) = true
  · left
    rw [FrameState.nextFrame, if_pos hskip]
    simp only [Bool.and_eq_true, Bool.not_eq_true', beq_iff_eq] at hskip
    exact ⟨hskip.1, hskip.2, rfl⟩
  · right
    rw [FrameState.nextFrame, if_neg hskip]
    cases hkey : f.forceKeyframe || decide (keyframeInterval ≤ f.framesSinceKeyframe) with
    | true =>
      left
      obtain ⟨regions, hregions, -⟩ := exists_encodeFull zstd hlen
      refine ⟨⟨UInt64.ofNat (f.frameSequence + 1), regions, own⟩, ?_,
        patches_full hlen hchecksum hregions none⟩
      simp only [encodeRegions_forced, hregions, hchecksum]
      rfl
    | false =>
      right
      rw [Bool.or_eq_false_iff, decide_eq_false_iff_not, not_le] at hkey
      obtain ⟨regions, hregions, hpatches⟩ := exists_encodeRegions zstd hlen hinside hchecksum
      refine ⟨⟨UInt64.ofNat (f.frameSequence + 1), regions, own⟩, ?_, hkey.1, hkey.2,
        hpatches _⟩
      simp only [hregions, hchecksum]
      rfl

end NextFrame

end WayRay
