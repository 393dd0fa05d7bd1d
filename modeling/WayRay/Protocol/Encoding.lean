import WayRay.Protocol.Messages
import WayRay.Raster.Blit

/-!
# Frame encoding

`encoding.rs`: regions of a framebuffer travel as their absolute pixels, compressed.  A slice out of
bounds and a failed decompression panic in the source; here they are `none`.

`Agrees` says that two framebuffers of different strides show the same.  A region that is encoded
from one framebuffer and applied to the other makes them agree within it and changes nothing outside
it (`apply_encode`), and framebuffers that agree have the same checksum (`checksum_congr`).

Compression is a parameter, of which only that it can be undone is assumed.
-/

namespace WayRay

open Raster

/-- The zstd library. -/
structure Zstd where
  encodeAll : Bytes → Bytes
  decodeAll : Bytes → Option Bytes
  inverse : ∀ data, decodeAll (encodeAll data) = some data

namespace Encoding

/-- Bytes of a pixel: BGRA8888. -/
def bpp : ℕ := 4

/-! ### Regions -/

/-- Extract a rectangle of absolute pixels from a framebuffer and compress it. -/
def encodeRegion (zstd : Zstd) (pixels : Bytes) (stride : ℕ) (x y width height : UInt32) :
    Option DamageRegion :=
  (extract? pixels stride (x.toNat * bpp) y.toNat (width.toNat * bpp) height.toNat).map
    fun data => ⟨x, y, width, height, zstd.encodeAll data⟩

/-- Copy a compressed region onto a framebuffer. -/
def applyRegion (zstd : Zstd) (framebuffer : Bytes) (stride : ℕ) (region : DamageRegion) :
    Option Bytes :=
  (zstd.decodeAll region.data).bind
    (blit? framebuffer stride (region.x.toNat * bpp) region.y.toNat (region.width.toNat * bpp)
      region.height.toNat)

/-! ### Checksum -/

/-- The little-endian number of up to eight bytes. -/
def chunkValue (chunk : Bytes) : UInt64 :=
  chunk.zipIdx.foldl (fun v (b, i) => v ||| (b.toUInt64 <<< UInt64.ofNat (i * 8))) 0

/-- FNV-1a over a line, eight bytes a step. -/
def checksumLine (h : UInt64) (line : Bytes) : UInt64 :=
  (line.toChunks 8).foldl (fun h chunk => (h ^^^ chunkValue chunk) * 0x100000001b3) h

/-- The FNV offset basis. -/
def fnvOffset : UInt64 := 0xcbf29ce484222325

/-- Fast checksum over the visible pixels of a framebuffer: `rowBytes` a row, without the
padding. -/
def checksum (data : Bytes) (stride rowBytes height : ℕ) : Option UInt32 :=
  ((List.range height).foldlM
    (fun h row => (slice? data (row * stride) rowBytes).map (checksumLine h))
    fnvOffset).map fun h : UInt64 => (h ^^^ (h >>> 32)).toUInt32

/-! ### Agreement -/

/-- Two framebuffers show the same in `height` rows of `rowBytes` bytes. -/
def Agrees (rowBytes height : ℕ) (data : Bytes) (stride : ℕ) (data' : Bytes) (stride' : ℕ) : Prop :=
  ∀ row < height, ∀ i < rowBytes, data[row * stride + i]? = data'[row * stride' + i]?

variable {data data' : Bytes} {stride stride' rowBytes height : ℕ}

/-- A row of a framebuffer ends within it. -/
theorem row_fits (hstride : rowBytes ≤ stride) {row : ℕ} (hrow : row < height) :
    row * stride + rowBytes ≤ stride * height := by
  have hrows : (row + 1) * stride ≤ height * stride := Nat.mul_le_mul_right _ hrow
  rw [Nat.add_mul, Nat.one_mul] at hrows
  rw [Nat.mul_comm stride height]
  omega

/-- Framebuffers that show the same have the same checksum, and it can be computed. -/
theorem checksum_congr (hstride : rowBytes ≤ stride) (hstride' : rowBytes ≤ stride')
    (hlen : data.length = stride * height) (hlen' : data'.length = stride' * height)
    (h : Agrees rowBytes height data stride data' stride') :
    ∃ c, checksum data stride rowBytes height = some c ∧
      checksum data' stride' rowBytes height = some c := by
  have hfold : ∀ n ≤ height, ∀ h0 : UInt64, ∃ h1,
      (List.range n).foldlM
        (fun h row => (slice? data (row * stride) rowBytes).map (checksumLine h)) h0 = some h1 ∧
      (List.range n).foldlM
        (fun h row => (slice? data' (row * stride') rowBytes).map (checksumLine h)) h0 =
          some h1 := by
    intro n hn h0
    -- induction on the number of rows hashed
    induction n with
    | zero => exact ⟨h0, rfl, rfl⟩
    | succ n ih =>
      obtain ⟨h1, hleft, hright⟩ := ih (by omega)
      have hfit : n * stride + rowBytes ≤ data.length := hlen ▸ row_fits hstride hn
      have hfit' : n * stride' + rowBytes ≤ data'.length := hlen' ▸ row_fits hstride' hn
      have hslice := slice?_congr hfit hfit' (h n hn)
      refine ⟨checksumLine h1 ((data.drop (n * stride)).take rowBytes), ?_, ?_⟩
      · rw [List.range_succ, List.foldlM_append, hleft]
        simp [slice?_eq_some hfit]
      · rw [List.range_succ, List.foldlM_append, hright]
        simp [← hslice, slice?_eq_some hfit]
  obtain ⟨h1, hleft, hright⟩ := hfold height le_rfl fnvOffset
  exact ⟨(h1 ^^^ (h1 >>> 32)).toUInt32, by rw [checksum, hleft]; rfl, by rw [checksum, hright]; rfl⟩

/-- **A region encoded and applied** puts the pixels of the source on the framebuffer within its
rectangle, and leaves the framebuffer as it is elsewhere. -/
theorem apply_encode (zstd : Zstd) {pixels : Bytes} {x y width height : UInt32} {rows : ℕ}
    (hstride : (x.toNat + width.toNat) * bpp ≤ stride) (hrows : y.toNat + height.toNat ≤ rows)
    (hpixels : pixels.length = stride * rows) :
    ∃ region, encodeRegion zstd pixels stride x y width height = some region ∧
      region.width = width ∧ region.height = height ∧
      ∀ (framebuffer : Bytes) (stride' : ℕ), (x.toNat + width.toNat) * bpp ≤ stride' →
        framebuffer.length = stride' * rows →
        ∃ framebuffer', applyRegion zstd framebuffer stride' region = some framebuffer' ∧
          framebuffer'.length = framebuffer.length ∧
          ∀ row i, i < stride' → framebuffer'[row * stride' + i]? =
            if y.toNat ≤ row ∧ row < y.toNat + height.toNat ∧ x.toNat * bpp ≤ i ∧
              i < x.toNat * bpp + width.toNat * bpp then pixels[row * stride + i]?
            else framebuffer[row * stride' + i]? := by
  -- in bytes, a rectangle that fits into a framebuffer can be read and written line by line
  rw [Nat.add_mul]
  rw [Nat.add_mul] at hstride
  have hfit : ∀ (buffer : Bytes) (s : ℕ), x.toNat * bpp + width.toNat * bpp ≤ s →
      buffer.length = s * rows → ∀ row < height.toNat,
        (y.toNat + row) * s + x.toNat * bpp + width.toNat * bpp ≤ buffer.length := by
    intro buffer s hs hbuffer row hrow
    have hend : (y.toNat + row) * s + (x.toNat * bpp + width.toNat * bpp) ≤ s * rows :=
      row_fits hs (by omega)
    rw [hbuffer]
    omega
  obtain ⟨data, hextract, hblit⟩ := blit_extract (hfit pixels stride hstride hpixels)
  refine ⟨⟨x, y, width, height, zstd.encodeAll data⟩, ?_, rfl, rfl, ?_⟩
  · rw [encodeRegion, hextract, Option.map_some]
  · intro framebuffer stride' hstride' hframebuffer
    simp only [applyRegion, zstd.inverse, Option.bind_some]
    exact hblit framebuffer stride' hstride' (hfit framebuffer stride' hstride' hframebuffer)

end Encoding

end WayRay
