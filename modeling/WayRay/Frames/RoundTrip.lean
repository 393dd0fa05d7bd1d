import WayRay.Protocol.Encoding
import WayRay.Raster.Paste

/-!
# Regions there and back

The server encodes rectangles of its current frame, the client applies the regions to the frame it
shows; their buffers may have rows of different lengths.  Whatever rectangles of the frame are
encoded, applying all regions pastes the current frame at the bytes of the rectangles
(`exists_encodeAll`).  Hence `encode_apply_roundTrip`: if the rectangles cover every pixel in which
the frames differ, the client then shows the current frame, in whatever order the regions come and
however often they are applied.
-/

namespace WayRay

open Raster

namespace Encoding

/-- A rectangle as `encode_region` takes it. -/
structure PixelRect where
  x : UInt32
  y : UInt32
  width : UInt32
  height : UInt32
deriving DecidableEq

namespace PixelRect

/-- The rectangle lies within a frame. -/
structure InBounds (width height : ℕ) (r : PixelRect) : Prop where
  right_le : r.x.toNat + r.width.toNat ≤ width
  bottom_le : r.y.toNat + r.height.toNat ≤ height

/-- The rectangle contains the pixel at column `col` of row `row`. -/
def Contains (r : PixelRect) (row col : ℕ) : Prop :=
  r.y.toNat ≤ row ∧ row < r.y.toNat + r.height.toNat ∧
    r.x.toNat ≤ col ∧ col < r.x.toNat + r.width.toNat

/-- The bytes of the rectangle, by row and offset in the row. -/
def bytes (r : PixelRect) : Set (ℕ × ℕ) :=
  {p | r.y.toNat ≤ p.1 ∧ p.1 < r.y.toNat + r.height.toNat ∧
    r.x.toNat * bpp ≤ p.2 ∧ p.2 < r.x.toNat * bpp + r.width.toNat * bpp}

theorem mem_bytes_iff {r : PixelRect} {row i : ℕ} :
    (row, i) ∈ r.bytes ↔ r.Contains row (i / bpp) := by
  simp only [bytes, Contains, Set.mem_ofPred_eq, bpp]
  omega

end PixelRect

/-- Encode a rectangle of a frame. -/
def encodePixels (zstd : Zstd) (pixels : Bytes) (stride : ℕ) (r : PixelRect) :
    Option DamageRegion :=
  encodeRegion zstd pixels stride r.x r.y r.width r.height

/-- Apply regions one after the other. -/
def applyAll (zstd : Zstd) (stride : ℕ) (framebuffer : Bytes) (regions : List DamageRegion) :
    Option Bytes :=
  regions.foldlM (fun framebuffer region => applyRegion zstd framebuffer stride region) framebuffer

theorem applyAll_cons (zstd : Zstd) (stride : ℕ) (framebuffer : Bytes) (region : DamageRegion)
    (regions : List DamageRegion) :
    applyAll zstd stride framebuffer (region :: regions) =
      (applyRegion zstd framebuffer stride region).bind fun framebuffer =>
        applyAll zstd stride framebuffer regions :=
  List.foldlM_cons ..

/-- The bytes of several rectangles. -/
def bytesOf (rects : List PixelRect) : Set (ℕ × ℕ) := {p | ∃ r ∈ rects, p ∈ r.bytes}

variable {pixels : Bytes} {stride stride' width height : ℕ}

/-- The region of a rectangle pastes the frame at its bytes. -/
theorem exists_encodePixels (zstd : Zstd) {r : PixelRect} (hr : r.InBounds width height)
    (hstride : width * bpp ≤ stride) (hpixels : pixels.length = stride * height) :
    ∃ region, encodePixels zstd pixels stride r = some region ∧
      ∀ (framebuffer : Bytes) (stride' : ℕ), width * bpp ≤ stride' →
        framebuffer.length = stride' * height →
        ∃ result, applyRegion zstd framebuffer stride' region = some result ∧
          Pasted r.bytes pixels stride framebuffer stride' result := by
  have hright : (r.x.toNat + r.width.toNat) * bpp ≤ width * bpp :=
    Nat.mul_le_mul_right _ hr.right_le
  obtain ⟨region, hencode, -, -, happly⟩ :=
    apply_encode zstd (hright.trans hstride) hr.bottom_le hpixels
  refine ⟨region, hencode, fun framebuffer stride' hstride' hframebuffer => ?_⟩
  obtain ⟨result, hresult, hlen, hcells⟩ :=
    happly framebuffer stride' (hright.trans hstride') hframebuffer
  refine ⟨result, hresult, hlen, fun row i hi hin => ?_, fun row i hi hout => ?_⟩
  · exact (hcells row i hi).trans (if_pos hin)
  · exact (hcells row i hi).trans (if_neg hout)

/-- **All regions** paste the frame at the bytes of all rectangles. -/
theorem exists_encodeAll (zstd : Zstd) {rects : List PixelRect}
    (hrects : ∀ r ∈ rects, r.InBounds width height)
    (hstride : width * bpp ≤ stride) (hpixels : pixels.length = stride * height) :
    ∃ regions, rects.mapM (encodePixels zstd pixels stride) = some regions ∧
      ∀ (framebuffer : Bytes) (stride' : ℕ), width * bpp ≤ stride' →
        framebuffer.length = stride' * height →
        ∃ result, applyAll zstd stride' framebuffer regions = some result ∧
          Pasted (bytesOf rects) pixels stride framebuffer stride' result := by
  induction rects with
  | nil =>
    refine ⟨[], rfl, fun framebuffer stride' _ _ => ⟨framebuffer, rfl, ?_⟩⟩
    have hnone : bytesOf [] = ∅ := by simp [bytesOf]
    rw [hnone]
    exact .empty
  | cons r rects ih =>
    obtain ⟨region, hregion, happly⟩ :=
      exists_encodePixels zstd (hrects r List.mem_cons_self) hstride hpixels
    obtain ⟨regions, hregions, happlyAll⟩ := ih fun r' hr' => hrects r' (List.mem_cons_of_mem r hr')
    refine ⟨region :: regions, ?_, fun framebuffer stride' hstride' hframebuffer => ?_⟩
    · rw [List.mapM_cons, hregion, hregions]
      rfl
    · obtain ⟨mid, hmid, hpaste⟩ := happly framebuffer stride' hstride' hframebuffer
      obtain ⟨result, hresult, hpasteAll⟩ :=
        happlyAll mid stride' hstride' (hpaste.length_eq.trans hframebuffer)
      refine ⟨result, ?_, ?_⟩
      · rw [applyAll_cons, hmid, Option.bind_some, hresult]
      · have hunion : bytesOf (r :: rects) = r.bytes ∪ bytesOf rects := by
          ext p
          simp [bytesOf]
        rw [hunion]
        exact hpaste.trans hpasteAll

/-- **The round trip of the regions.**  Let the rectangles lie within the frame and cover every
pixel in which the client's frame differs from the current one.  They can be encoded, and the
regions applied to the client's frame show the current one and change no byte outside the
rectangles.  Encoded in any other order the rectangles give the same result, and regions that are
applied again change nothing. -/
theorem encode_apply_roundTrip (zstd : Zstd) (width height stride stride' : ℕ)
    (hstride : width * bpp ≤ stride) (hstride' : width * bpp ≤ stride') (current previous : Bytes)
    (hcurrent : current.length = stride * height) (hprevious : previous.length = stride' * height)
    (rects : List PixelRect) (hrects : ∀ r ∈ rects, r.InBounds width height)
    (hcovers : ∀ row < height, ∀ col < width,
      (∃ k < bpp, current[row * stride + (col * bpp + k)]? ≠
        previous[row * stride' + (col * bpp + k)]?) →
      ∃ r ∈ rects, r.Contains row col) :
    ∃ regions result, rects.mapM (encodePixels zstd current stride) = some regions ∧
      applyAll zstd stride' previous regions = some result ∧
      Agrees (width * bpp) height current stride result stride' ∧
      result.length = previous.length ∧
      (∀ row i, i < stride' → (∀ r ∈ rects, ¬ r.Contains row (i / bpp)) →
        result[row * stride' + i]? = previous[row * stride' + i]?) ∧
      (∀ rects' : List PixelRect, rects'.Perm rects →
        ∃ regions', rects'.mapM (encodePixels zstd current stride) = some regions' ∧
          applyAll zstd stride' previous regions' = some result) ∧
      applyAll zstd stride' result regions = some result := by
  obtain ⟨regions, hregions, happly⟩ := exists_encodeAll zstd hrects hstride hcurrent
  obtain ⟨result, hresult, hpaste⟩ := happly previous stride' hstride' hprevious
  have hlen : result.length = stride' * height := hpaste.length_eq.trans hprevious
  refine ⟨regions, result, hregions, hresult, ?_, hpaste.length_eq, ?_, ?_, ?_⟩
  · intro row hrow i hi
    by_cases hin : (row, i) ∈ bytesOf rects
    · exact (hpaste.within row i (hi.trans_le hstride') hin).symm
    · rw [hpaste.without row i (hi.trans_le hstride') hin]
      -- the pixel of the byte is in no rectangle, so the frames agree in it
      by_contra hne
      have hcol : i / bpp < width := Nat.div_lt_of_lt_mul (by rwa [Nat.mul_comm])
      have hbyte : i / bpp * bpp + i % bpp = i := Nat.div_add_mod' i bpp
      obtain ⟨r, hr, hcontains⟩ := hcovers row hrow (i / bpp) hcol
        ⟨i % bpp, Nat.mod_lt i (by decide), by rwa [hbyte]⟩
      exact hin ⟨r, hr, PixelRect.mem_bytes_iff.mpr hcontains⟩
  · intro row i hi hout
    refine hpaste.without row i hi ?_
    rintro ⟨r, hr, hin⟩
    exact hout r hr (PixelRect.mem_bytes_iff.mp hin)
  · intro rects' hperm
    obtain ⟨regions', hregions', happly'⟩ := exists_encodeAll zstd
      (fun r hr => hrects r (hperm.mem_iff.mp hr)) hstride hcurrent
    obtain ⟨result', hresult', hpaste'⟩ := happly' previous stride' hstride' hprevious
    have hbytes : bytesOf rects' = bytesOf rects := by
      ext p
      simp only [bytesOf, Set.mem_ofPred_eq, hperm.mem_iff]
    rw [hbytes] at hpaste'
    exact ⟨regions', hregions', by rw [hresult', hpaste'.unique hprevious hpaste]⟩
  · obtain ⟨result', hresult', hpaste'⟩ := happly result stride' hstride' hlen
    rw [hresult', hpaste'.unique hlen (hpaste.again subset_rfl)]

/-- Frames of one raw block, as zstd has them for up to 255 bytes that cannot be compressed: magic
number, the size, the header of the last block, and the bytes as they are. -/
def rawBlock : Zstd where
  encodeAll data :=
    [0x28, 0xB5, 0x2F, 0xFD, 0x20, UInt8.ofNat data.length] ++
      [UInt8.ofNat (8 * data.length + 1), UInt8.ofNat ((8 * data.length + 1) / 256), 0] ++ data
  decodeAll frame :=
    if frame.take 4 = [0x28, 0xB5, 0x2F, 0xFD] then some (frame.drop 9) else none
  inverse data := by simp

/-- A pixel of a frame of two is overwritten; the client's rows are longer than the server's. -/
theorem encode_apply_roundTrip_pixel :
    ∃ regions result,
      [(⟨1, 0, 1, 1⟩ : PixelRect)].mapM (encodePixels rawBlock [1, 2, 3, 4, 5, 6, 7, 8] 8) =
        some regions ∧
      applyAll rawBlock 9 [1, 2, 3, 4, 0, 0, 0, 0, 9] regions = some result ∧
      Agrees (2 * bpp) 1 [1, 2, 3, 4, 5, 6, 7, 8] 8 result 9 := by
  obtain ⟨regions, result, hregions, hresult, hagrees, -⟩ :=
    encode_apply_roundTrip rawBlock 2 1 8 9 (by decide) (by decide) [1, 2, 3, 4, 5, 6, 7, 8]
      [1, 2, 3, 4, 0, 0, 0, 0, 9] rfl rfl [⟨1, 0, 1, 1⟩]
      (by
        intro r hr
        rw [List.mem_singleton.mp hr]
        exact ⟨by decide, by decide⟩)
      (by
        intro row hrow col hcol hdiffer
        obtain rfl : row = 0 := by omega
        refine ⟨_, List.mem_singleton_self _, ?_⟩
        have hsecond : col = 1 := by
          by_contra hne
          obtain rfl : col = 0 := by omega
          revert hdiffer
          decide
        subst hsecond
        unfold PixelRect.Contains
        decide)
  exact ⟨regions, result, hregions, hresult, hagrees⟩

end Encoding

end WayRay
