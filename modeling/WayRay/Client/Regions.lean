import Mathlib.Tactic.NormNum
import WayRay.Client.Screen
import WayRay.Frames.RoundTrip

/-!
# What a frame can do to the client

The regions of a frame come off the wire as they are: `apply_region` checks neither their rectangles
nor the data they decompress to, but leaves that to the bounds of the slices, which panic, as an
offset that overflows does.  A line that is longer than the row it begins in goes on in the next
row.

`survives_iff` says which frames the client survives: the framebuffer can be allocated and has a
width, and every region that has pixels lies within the output and has data for them.
-/

namespace WayRay

open Encoding Raster

/-! ### What is to hold of a frame -/

/-- The framebuffer of a connection with an output of this size; an allocation that overflows
panics. -/
def ClientScreen.allocate (width height : UInt32) : Option ClientScreen :=
  let stride := width.toNat * bpp
  if stride * height.toNat < 2 ^ 63 then
    some ⟨List.replicate (stride * height.toNat) 0, stride, false⟩
  else none

/-- The screen has the size of this output, whatever it shows. -/
def ClientScreen.Sized (width height : UInt32) (c : ClientScreen) : Prop :=
  c.stride = width.toNat * bpp ∧ c.framebuffer.length = width.toNat * bpp * height.toNat

namespace DamageRegion

/-- The offsets that `apply_region` writes to, line by line. -/
def writes (stride : ℕ) (g : DamageRegion) : Set ℕ :=
  {j | ∃ row < g.height.toNat,
    (g.y.toNat + row) * stride + g.x.toNat * bpp ≤ j ∧
      j < (g.y.toNat + row) * stride + g.x.toNat * bpp + g.width.toNat * bpp}

/-- The byte at this offset of a row belongs to a pixel of the region's rectangle. -/
def ContainsByte (g : DamageRegion) (row i : ℕ) : Prop :=
  g.y.toNat ≤ row ∧ row < g.y.toNat + g.height.toNat ∧
    g.x.toNat * bpp ≤ i ∧ i < (g.x.toNat + g.width.toNat) * bpp

/-- Each line of the region has data and lies within a buffer of this size. -/
def LinesWithin (g : DamageRegion) (stride size : ℕ) (data : Bytes) : Prop :=
  ∀ row < g.height.toNat,
    row * (g.width.toNat * bpp) + g.width.toNat * bpp ≤ data.length ∧
      (g.y.toNat + row) * stride + g.x.toNat * bpp + g.width.toNat * bpp ≤ size

/-- The region decompresses, lies within the output and has data for all its pixels. -/
def Fits (zstd : Zstd) (width height : UInt32) (g : DamageRegion) : Prop :=
  g.x.toNat + g.width.toNat ≤ width.toNat ∧ g.y.toNat + g.height.toNat ≤ height.toNat ∧
    ∃ data, zstd.decodeAll g.data = some data ∧
      g.height.toNat * (g.width.toNat * bpp) ≤ data.length

/-- The region decompresses; if it has pixels it fits, and if it has lines without pixels the last
of them begins within the framebuffer. -/
def Applicable (zstd : Zstd) (width height : UInt32) (g : DamageRegion) : Prop :=
  (∃ data, zstd.decodeAll g.data = some data) ∧
    (0 < g.height.toNat → 0 < g.width.toNat → g.Fits zstd width height) ∧
    (0 < g.height.toNat → g.width.toNat = 0 →
      (g.y.toNat + g.height.toNat - 1) * (width.toNat * bpp) + g.x.toNat * bpp ≤
        width.toNat * bpp * height.toNat)

end DamageRegion

/-- The client gets through a frame: nothing panics, each region writes within the framebuffer and
within its own rectangle, one that does not fit writes nothing, and no other byte changes. -/
structure ClientScreen.Survives (zstd : Zstd) (width height : UInt32) (c : ClientScreen)
    (update : FrameUpdate) : Prop where
  returns : ∃ answer, c.receiveFrame zstd update = some answer
  within_framebuffer : ∀ g ∈ update.regions, ∀ j ∈ g.writes c.stride, j < c.framebuffer.length
  within_rectangle : ∀ g ∈ update.regions, ∀ j ∈ g.writes c.stride,
    g.ContainsByte (j / c.stride) (j % c.stride)
  rejects : ∀ g ∈ update.regions, ¬ g.Fits zstd width height → g.writes c.stride = ∅
  unchanged : ∀ c' asks, c.receiveFrame zstd update = some (c', asks) → ∀ j,
    (∀ g ∈ update.regions, j ∉ g.writes c.stride) → c'.framebuffer[j]? = c.framebuffer[j]?

/-! ### One region -/

section OneRegion

variable {zstd : Zstd} {stride : ℕ} {g : DamageRegion} {framebuffer result : Bytes}

/-- A region changes only what it writes to. -/
theorem getElem?_of_notMem_writes (h : applyRegion zstd framebuffer stride g = some result) {j : ℕ}
    (hj : j ∉ g.writes stride) : result[j]? = framebuffer[j]? := by
  obtain ⟨data, -, hblit⟩ := Option.bind_eq_some_iff.mp h
  refine getElem?_blit_of_notMem hblit fun row hrow hline => hj ⟨row, hrow, hline⟩

/-- When a region can be applied at all. -/
theorem exists_applyRegion_iff :
    (∃ result, applyRegion zstd framebuffer stride g = some result) ↔
      ∃ data, zstd.decodeAll g.data = some data ∧
        g.LinesWithin stride framebuffer.length data := by
  constructor
  · rintro ⟨result, h⟩
    obtain ⟨data, hdata, hblit⟩ := Option.bind_eq_some_iff.mp h
    exact ⟨data, hdata, exists_blit_iff.mp ⟨result, hblit⟩⟩
  · rintro ⟨data, hdata, hfit⟩
    obtain ⟨result, hblit⟩ := exists_blit_iff.mpr hfit
    exact ⟨result, by rw [applyRegion, hdata, Option.bind_some, hblit]⟩

theorem length_applyRegion (h : applyRegion zstd framebuffer stride g = some result) :
    result.length = framebuffer.length := by
  obtain ⟨data, -, hblit⟩ := Option.bind_eq_some_iff.mp h
  exact length_blit hblit

end OneRegion

section Rectangle

variable {zstd : Zstd} {width height : UInt32} {g : DamageRegion}

/-- A line that stays within its row writes bytes of the rectangle. -/
theorem containsByte_of_mem_writes {stride j : ℕ} (hstride : 0 < stride)
    (hline : g.x.toNat * bpp + g.width.toNat * bpp ≤ stride) (hj : j ∈ g.writes stride) :
    g.ContainsByte (j / stride) (j % stride) := by
  obtain ⟨row, hrow, hbegin, hend⟩ := hj
  have hsplit : j / stride * stride + j % stride = j := Nat.div_add_mod' j stride
  rw [← hsplit] at hbegin hend
  obtain ⟨hcell, hleft, hright⟩ :=
    (mem_line_iff (Nat.mod_lt j hstride) hline).mp ⟨hbegin, hend⟩
  exact ⟨by omega, by omega, hleft, by rwa [Nat.add_mul]⟩

/-- The last byte that a region with pixels writes. -/
theorem mem_writes_last (hheight : 0 < g.height.toNat) (hwidth : 0 < g.width.toNat) (stride : ℕ) :
    (g.y.toNat + g.height.toNat - 1) * stride + g.x.toNat * bpp + g.width.toNat * bpp - 1 ∈
      g.writes stride := by
  have hbytes : 0 < g.width.toNat * bpp := Nat.mul_pos hwidth (by decide)
  have hlast : g.y.toNat + (g.height.toNat - 1) = g.y.toNat + g.height.toNat - 1 := by omega
  exact ⟨g.height.toNat - 1, by omega, by rw [hlast]; omega, by rw [hlast]; omega⟩

theorem writes_eq_empty (h : g.width.toNat = 0) (stride : ℕ) : g.writes stride = ∅ := by
  ext j
  simp only [DamageRegion.writes, h, Set.mem_ofPred_eq, Set.mem_empty_iff_false, iff_false]
  rintro ⟨row, -, hbegin, hend⟩
  omega

/-- A region that fits has its lines within the framebuffer. -/
theorem linesWithin_of_fits {data : Bytes} (hdata : zstd.decodeAll g.data = some data)
    (h : g.Fits zstd width height) :
    g.LinesWithin (width.toNat * bpp) (width.toNat * bpp * height.toNat) data ∧
      g.x.toNat * bpp + g.width.toNat * bpp ≤ width.toNat * bpp := by
  obtain ⟨hx, hy, data', hdata', hlen⟩ := h
  obtain rfl : data = data' := Option.some.inj (hdata.symm.trans hdata')
  have hline : (g.x.toNat + g.width.toNat) * bpp ≤ width.toNat * bpp := Nat.mul_le_mul_right _ hx
  rw [Nat.add_mul] at hline
  refine ⟨fun row hrow => ⟨?_, ?_⟩, hline⟩
  · have hle : (row + 1) * (g.width.toNat * bpp) ≤ g.height.toNat * (g.width.toNat * bpp) :=
      Nat.mul_le_mul_right _ hrow
    rw [Nat.add_mul, Nat.one_mul] at hle
    omega
  · rw [Nat.add_assoc]
    exact row_fits hline (by omega)

/-- A region with pixels fits if its lines are within the framebuffer and its last byte is in one of
its own rows: a line that is too long ends below them. -/
theorem fits_of_linesWithin {data : Bytes} (hdata : zstd.decodeAll g.data = some data)
    (hrows : 0 < g.height.toNat) (hcols : 0 < g.width.toNat)
    (hlines : g.LinesWithin (width.toNat * bpp) (width.toNat * bpp * height.toNat) data)
    (hlast : ((g.y.toNat + g.height.toNat - 1) * (width.toNat * bpp) + g.x.toNat * bpp +
        g.width.toNat * bpp - 1) / (width.toNat * bpp) < g.y.toNat + g.height.toNat)
    (hstride : 0 < width.toNat * bpp) : g.Fits zstd width height := by
  obtain ⟨hread, hwrite⟩ := hlines (g.height.toNat - 1) (by omega)
  have hbytes : 0 < g.width.toNat * bpp := Nat.mul_pos hcols (by decide)
  have hpixels : (g.height.toNat - 1) * (g.width.toNat * bpp) + g.width.toNat * bpp =
      g.height.toNat * (g.width.toNat * bpp) := by
    rw [← Nat.succ_mul, Nat.succ_eq_add_one, Nat.sub_add_cancel hrows]
  -- the rows of the region end with the row of its last line
  obtain ⟨bottom, hbottom⟩ : ∃ bottom, g.y.toNat + g.height.toNat = bottom + 1 :=
    ⟨g.y.toNat + g.height.toNat - 1, by omega⟩
  have hrow : g.y.toNat + (g.height.toNat - 1) = bottom := by omega
  rw [hbottom, Nat.add_sub_cancel, Nat.div_lt_iff_lt_mul hstride, Nat.add_mul, Nat.one_mul] at hlast
  rw [hrow] at hwrite
  have hline : (g.x.toNat + g.width.toNat) * bpp ≤ width.toNat * bpp := by
    rw [Nat.add_mul]
    omega
  have hlt : bottom * (width.toNat * bpp) < height.toNat * (width.toNat * bpp) := by
    rw [Nat.mul_comm height.toNat]
    omega
  have hle := Nat.lt_of_mul_lt_mul_right hlt
  exact ⟨Nat.le_of_mul_le_mul_right hline (by decide), by omega, data, hdata, by omega⟩

/-- The lines of a region without pixels are within the framebuffer if the last one begins there. -/
theorem linesWithin_iff_of_empty {data : Bytes} {stride size : ℕ} (hrows : 0 < g.height.toNat)
    (hcols : g.width.toNat = 0) :
    g.LinesWithin stride size data ↔
      (g.y.toNat + g.height.toNat - 1) * stride + g.x.toNat * bpp ≤ size := by
  obtain ⟨last, hlast⟩ : ∃ last, g.height.toNat = last + 1 :=
    Nat.exists_eq_succ_of_ne_zero hrows.ne'
  simp only [DamageRegion.LinesWithin, hcols, hlast, Nat.zero_mul, Nat.mul_zero, Nat.zero_le,
    true_and, Nat.add_zero, ← Nat.add_assoc, Nat.add_sub_cancel]
  exact lines_within_iff (w := 0)

/-- When a region can be applied and keeps to its rectangle. -/
theorem applicable_iff (hwidth : 0 < width.toNat) :
    ((∃ data, zstd.decodeAll g.data = some data ∧
        g.LinesWithin (width.toNat * bpp) (width.toNat * bpp * height.toNat) data) ∧
      ∀ j ∈ g.writes (width.toNat * bpp),
        g.ContainsByte (j / (width.toNat * bpp)) (j % (width.toNat * bpp))) ↔
      g.Applicable zstd width height := by
  have hstride : 0 < width.toNat * bpp := Nat.mul_pos hwidth (by decide)
  constructor
  · rintro ⟨⟨data, hdata, hlines⟩, hcontained⟩
    refine ⟨⟨data, hdata⟩, fun hrows hcols => ?_, fun hrows hcols => ?_⟩
    · obtain ⟨-, hrow, -, -⟩ := hcontained _ (mem_writes_last hrows hcols _)
      exact fits_of_linesWithin hdata hrows hcols hlines hrow hstride
    · exact (linesWithin_iff_of_empty hrows hcols).mp hlines
  · rintro ⟨⟨data, hdata⟩, hpixels, hempty⟩
    rcases Nat.eq_zero_or_pos g.height.toNat with hrows | hrows
    · refine ⟨⟨data, hdata, fun row hrow => by omega⟩, ?_⟩
      rintro j ⟨row, hrow, -⟩
      omega
    rcases Nat.eq_zero_or_pos g.width.toNat with hcols | hcols
    · refine ⟨⟨data, hdata, (linesWithin_iff_of_empty hrows hcols).mpr (hempty hrows hcols)⟩, ?_⟩
      rw [writes_eq_empty hcols]
      exact fun j hj => absurd hj (Set.notMem_empty j)
    · obtain ⟨hlines, hline⟩ := linesWithin_of_fits hdata (hpixels hrows hcols)
      exact ⟨⟨data, hdata, hlines⟩, fun j hj => containsByte_of_mem_writes hstride hline hj⟩

end Rectangle

/-! ### A frame -/

theorem toNat_pos {n : UInt32} (h : n ≠ 0) : 0 < n.toNat :=
  Nat.pos_of_ne_zero fun hzero => h (UInt32.toNat_inj.mp hzero)

section Frame

variable {zstd : Zstd} {width height : UInt32} {c : ClientScreen} {update : FrameUpdate}

/-- Regions can be applied one after the other if each of them can: none changes the length of the
framebuffer. -/
theorem exists_applyAll_iff {stride : ℕ} {framebuffer : Bytes} {regions : List DamageRegion} :
    (∃ result, applyAll zstd stride framebuffer regions = some result) ↔
      ∀ g ∈ regions, ∃ data, zstd.decodeAll g.data = some data ∧
        g.LinesWithin stride framebuffer.length data := by
  induction regions generalizing framebuffer with
  | nil => exact iff_of_true ⟨framebuffer, rfl⟩ fun g hg => absurd hg List.not_mem_nil
  | cons g regions ih =>
    rw [List.forall_mem_cons, ← exists_applyRegion_iff]
    constructor
    · rintro ⟨result, hresult⟩
      rw [applyAll_cons] at hresult
      obtain ⟨mid, hmid, hrest⟩ := Option.bind_eq_some_iff.mp hresult
      refine ⟨⟨mid, hmid⟩, ?_⟩
      rw [← length_applyRegion hmid]
      exact ih.mp ⟨result, hrest⟩
    · rintro ⟨⟨mid, hmid⟩, hregions⟩
      rw [← length_applyRegion hmid] at hregions
      obtain ⟨result, hresult⟩ := ih.mpr hregions
      refine ⟨result, ?_⟩
      rw [applyAll_cons, hmid, Option.bind_some, hresult]

theorem length_applyAll {stride : ℕ} {framebuffer result : Bytes} {regions : List DamageRegion}
    (h : applyAll zstd stride framebuffer regions = some result) :
    result.length = framebuffer.length := by
  induction regions generalizing framebuffer with
  | nil => rw [Option.some.inj h]
  | cons g regions ih =>
    rw [applyAll_cons] at h
    obtain ⟨mid, hmid, hrest⟩ := Option.bind_eq_some_iff.mp h
    exact (ih hrest).trans (length_applyRegion hmid)

/-- Bytes that no region writes stay. -/
theorem getElem?_applyAll_of_notMem {stride : ℕ} {framebuffer result : Bytes}
    {regions : List DamageRegion} (h : applyAll zstd stride framebuffer regions = some result)
    {j : ℕ} (hj : ∀ g ∈ regions, j ∉ g.writes stride) : result[j]? = framebuffer[j]? := by
  induction regions generalizing framebuffer with
  | nil => rw [Option.some.inj h]
  | cons g regions ih =>
    rw [applyAll_cons] at h
    obtain ⟨mid, hmid, hrest⟩ := Option.bind_eq_some_iff.mp h
    rw [List.forall_mem_cons] at hj
    rw [ih hrest hj.2, getElem?_of_notMem_writes hmid hj.1]

/-- The checksum of a screen divides by its stride and reads nothing beyond its end. -/
theorem exists_localChecksum_iff (hc : c.Sized width height) :
    (∃ own, c.localChecksum = some own) ↔ width ≠ 0 := by
  obtain ⟨hstride, hlen⟩ := hc
  constructor
  · rintro ⟨own, hown⟩ rfl
    rw [ClientScreen.localChecksum, if_pos (by rw [hstride]; rfl)] at hown
    cases hown
  · intro hwidth
    have hne : c.stride ≠ 0 := hstride ▸ (Nat.mul_pos (toNat_pos hwidth) (by decide)).ne'
    rw [← hstride] at hlen
    have hrows : c.framebuffer.length / c.stride = height.toNat := by
      rw [hlen, Nat.mul_div_cancel_left _ (Nat.pos_of_ne_zero hne)]
    obtain ⟨own, hown, -⟩ := checksum_congr le_rfl le_rfl hlen hlen fun _ _ _ _ => rfl
    exact ⟨own, by rw [ClientScreen.localChecksum, if_neg hne, hrows, hown]⟩

/-- The client returns from a frame if the output has a width and every region can be applied. -/
theorem exists_receiveFrame_iff (hc : c.Sized width height) :
    (∃ answer, c.receiveFrame zstd update = some answer) ↔
      width ≠ 0 ∧ ∀ g ∈ update.regions, ∃ data, zstd.decodeAll g.data = some data ∧
        g.LinesWithin c.stride c.framebuffer.length data := by
  rw [← exists_applyAll_iff]
  constructor
  · rintro ⟨answer, hanswer⟩
    obtain ⟨c', happlied, hchecked⟩ := Option.bind_eq_some_iff.mp hanswer
    obtain ⟨result, hresult, rfl⟩ := Option.map_eq_some_iff.mp happlied
    obtain ⟨own, hown, -⟩ := Option.map_eq_some_iff.mp hchecked
    have hsized : ClientScreen.Sized width height { c with framebuffer := result } :=
      ⟨hc.1, (length_applyAll hresult).trans hc.2⟩
    exact ⟨(exists_localChecksum_iff hsized).mp ⟨own, hown⟩, result, hresult⟩
  · rintro ⟨hwidth, result, hresult⟩
    have hsized : ClientScreen.Sized width height { c with framebuffer := result } :=
      ⟨hc.1, (length_applyAll hresult).trans hc.2⟩
    obtain ⟨own, hown⟩ := (exists_localChecksum_iff hsized).mpr hwidth
    have happlied : c.applyRegions zstd update.regions =
        some { c with framebuffer := result } :=
      Option.map_eq_some_iff.mpr ⟨result, hresult, rfl⟩
    exact ⟨_, by rw [ClientScreen.receiveFrame, happlied, Option.bind_some, hown, Option.map_some]⟩

/-- A frame changes no byte that none of its regions writes. -/
theorem getElem?_receiveFrame_of_notMem {c' : ClientScreen} {asks : Bool}
    (hreceive : c.receiveFrame zstd update = some (c', asks)) {j : ℕ}
    (hj : ∀ g ∈ update.regions, j ∉ g.writes c.stride) :
    c'.framebuffer[j]? = c.framebuffer[j]? := by
  obtain ⟨mid, happlied, hchecked⟩ := Option.bind_eq_some_iff.mp hreceive
  obtain ⟨result, hresult, rfl⟩ := Option.map_eq_some_iff.mp happlied
  obtain ⟨own, -, hanswer⟩ := Option.map_eq_some_iff.mp hchecked
  have hframebuffer : c'.framebuffer = result := by
    split_ifs at hanswer <;> exact (congrArg (fun a => a.1.framebuffer) hanswer).symm
  rw [hframebuffer]
  exact getElem?_applyAll_of_notMem hresult hj

/-- A region that does not fit but can be applied writes nothing: it has no pixels. -/
theorem writes_eq_empty_of_applicable {g : DamageRegion} (h : g.Applicable zstd width height)
    (hfits : ¬ g.Fits zstd width height) (stride : ℕ) : g.writes stride = ∅ := by
  obtain ⟨-, hpixels, -⟩ := h
  rcases Nat.eq_zero_or_pos g.width.toNat with hcols | hcols
  · exact writes_eq_empty hcols stride
  have hrows : g.height.toNat = 0 := by
    by_contra hne
    exact hfits (hpixels (Nat.pos_of_ne_zero hne) hcols)
  ext j
  simp only [DamageRegion.writes, hrows, Nat.not_lt_zero, false_and, exists_false,
    Set.mem_ofPred_eq, Set.mem_empty_iff_false]

end Frame

/-- **When the client survives a frame.**  Its framebuffer can be allocated, and whatever it shows
the frame is applied without a panic and without a byte outside the framebuffer or the rectangles,
if and only if the output has a width, the framebuffer is smaller than `2 ^ 63` bytes, and every
region decompresses, lies within the output and has data for its pixels if it has any, and begins
its last line within the framebuffer if its lines are empty. -/
theorem survives_iff (zstd : Zstd) (width height : UInt32) (update : FrameUpdate) :
    ((∃ c, ClientScreen.allocate width height = some c) ∧
        ∀ c : ClientScreen, c.Sized width height → c.Survives zstd width height update) ↔
      width ≠ 0 ∧ width.toNat * bpp * height.toNat < 2 ^ 63 ∧
        ∀ g ∈ update.regions, g.Applicable zstd width height := by
  constructor
  · rintro ⟨⟨c, hallocate⟩, hsurvives⟩
    simp only [ClientScreen.allocate] at hallocate
    split_ifs at hallocate with hsize
    have hsized : ClientScreen.Sized width height
        ⟨List.replicate (width.toNat * bpp * height.toNat) 0, width.toNat * bpp, false⟩ :=
      ⟨rfl, List.length_replicate⟩
    have h := hsurvives _ hsized
    obtain ⟨hwidth, hregions⟩ := (exists_receiveFrame_iff hsized).mp h.returns
    refine ⟨hwidth, hsize, fun g hg =>
      (applicable_iff (toNat_pos hwidth)).mp ⟨?_, h.within_rectangle g hg⟩⟩
    have happlies := hregions g hg
    rwa [List.length_replicate] at happlies
  · rintro ⟨hwidth, hsize, hregions⟩
    refine ⟨⟨_, if_pos hsize⟩, fun c hc => ?_⟩
    have hparts := fun g hg => (applicable_iff (toNat_pos hwidth)).mpr (hregions g hg)
    rw [← hc.2, ← hc.1] at hparts
    exact {
      returns := (exists_receiveFrame_iff hc).mpr ⟨hwidth, fun g hg => (hparts g hg).1⟩
      within_framebuffer := by
        rintro g hg j ⟨row, hrow, -, hend⟩
        obtain ⟨data, -, hlines⟩ := (hparts g hg).1
        exact hend.trans_le (hlines row hrow).2
      within_rectangle := fun g hg => (hparts g hg).2
      rejects := fun g hg hfits => writes_eq_empty_of_applicable (hregions g hg) hfits c.stride
      unchanged := fun _ _ hreceive _ hj => getElem?_receiveFrame_of_notMem hreceive hj }

/-- A frame with a region below an output of one pixel. -/
def belowOutput : FrameUpdate := ⟨1, [⟨0, 1, 1, 1, rawBlock.encodeAll [1, 2, 3, 4]⟩], 0⟩

/-- The client does not survive a region below its output: the slice is out of bounds. -/
theorem not_survives_belowOutput :
    ∃ c, ClientScreen.allocate 1 1 = some c ∧ c.Sized 1 1 ∧
      c.receiveFrame rawBlock belowOutput = none ∧
      ¬ c.Survives rawBlock 1 1 belowOutput := by
  refine ⟨⟨[0, 0, 0, 0], 4, false⟩, rfl, ⟨rfl, rfl⟩, rfl, fun h => ?_⟩
  obtain ⟨answer, hanswer⟩ := h.returns
  cases hanswer

end WayRay
