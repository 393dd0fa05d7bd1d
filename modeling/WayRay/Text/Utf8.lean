import Mathlib.Data.List.Infix
import Mathlib.Tactic.NormNum

/-!
# UTF-8 characters in a byte string

The encoding of a character is a leading byte and some continuation bytes (`utf8EncodeChar_shape`),
so that the characters of a text can be told apart in its bytes: a cut of the bytes falls into one
character (`exists_split`), and a beginning of the bytes that is valid holds a beginning of the
characters (`initial_of_encode`).
-/

namespace Utf8

/-- A byte `0b10xxxxxx`, which continues a character. -/
def IsContinuation (b : UInt8) : Prop := b &&& 0xC0 = 0x80

instance (b : UInt8) : Decidable (IsContinuation b) := inferInstanceAs (Decidable (_ = _))

/-- The bytes of some characters. -/
def encode (cs : List Char) : List UInt8 := cs.flatMap String.utf8EncodeChar

@[simp] theorem encode_append (cs ds : List Char) : encode (cs ++ ds) = encode cs ++ encode ds :=
  List.flatMap_append

@[simp] theorem encode_cons (c : Char) (cs : List Char) :
    encode (c :: cs) = String.utf8EncodeChar c ++ encode cs :=
  List.flatMap_cons

/-! ### One character -/

/-- The high bits of a byte that is put together from two. -/
private theorem high_bits {b mask top hi : UInt8} (h : mask &&& hi = 0) :
    (b &&& mask ||| top) &&& hi = top &&& hi := by
  have hmask : mask.toNat &&& hi.toNat = 0 := by
    rw [← UInt8.toNat_and, h]
    rfl
  rw [← UInt8.toNat_inj, UInt8.toNat_and, UInt8.toNat_or, UInt8.toNat_and, UInt8.toNat_and,
    Nat.and_or_distrib_right, Nat.and_assoc, hmask, Nat.and_zero, Nat.zero_or]

private theorem high_bits_le (b hi : UInt8) : b &&& hi ≤ b := by
  rw [UInt8.le_iff_toNat_le, UInt8.toNat_and]
  exact Nat.and_le_left

/-- A continuation byte is not ASCII. -/
theorem IsContinuation.le {b : UInt8} (h : IsContinuation b) : 0x80 ≤ b :=
  h ▸ high_bits_le b 0xC0

private theorem isContinuation_tail (b : UInt8) : IsContinuation (b &&& 0x3f ||| 0x80) :=
  high_bits (by decide)

/-- A byte `0b11xxxxxx` and continuation bytes after it are a character of several bytes. -/
private theorem wide_shape {c : Char} {lead : UInt8} {conts : List UInt8}
    (hc : String.utf8EncodeChar c = lead :: conts) (hlead : lead &&& 0xC0 = 0xC0)
    (hne : conts ≠ []) (hconts : ∀ b ∈ conts, IsContinuation b) :
    ∃ lead conts, String.utf8EncodeChar c = lead :: conts ∧ ¬ IsContinuation lead ∧
      (∀ b ∈ conts, IsContinuation b) ∧
        (conts = [] ∧ lead < 0x80 ∨ conts ≠ [] ∧ 0x80 ≤ lead) := by
  refine ⟨lead, conts, hc, fun hcont => ?_, hconts, .inr ⟨hne, ?_⟩⟩
  · exact absurd (hlead.symm.trans hcont) (by decide)
  · exact UInt8.le_trans (show (0x80 : UInt8) ≤ 0xC0 by decide) (hlead ▸ high_bits_le lead 0xC0)

/-- **A character** is a leading byte and continuation bytes, of which ASCII characters have
none. -/
theorem utf8EncodeChar_shape (c : Char) :
    ∃ lead conts, String.utf8EncodeChar c = lead :: conts ∧ ¬ IsContinuation lead ∧
      (∀ b ∈ conts, IsContinuation b) ∧ (conts = [] ∧ lead < 0x80 ∨ conts ≠ [] ∧ 0x80 ≤ lead) := by
  rcases c.utf8Size_eq with hsize | hsize | hsize | hsize
  · have hlt : c.val.toUInt8 < 0x80 := by
      have hval : c.val ≤ 127 := Char.utf8Size_eq_one_iff.mp hsize
      rw [UInt32.le_iff_toNat_le] at hval
      rw [UInt8.lt_iff_toNat_lt, UInt32.toNat_toUInt8]
      exact lt_of_le_of_lt (Nat.mod_le _ _) (Nat.lt_succ_of_le hval)
    refine ⟨_, [], String.utf8EncodeChar_eq_singleton hsize, fun hcont => ?_,
      fun b hb => absurd hb List.not_mem_nil, .inl ⟨rfl, hlt⟩⟩
    exact absurd hcont.le (UInt8.not_le.mpr hlt)
  · exact wide_shape (String.utf8EncodeChar_eq_cons_cons hsize) (high_bits (by decide))
      (List.cons_ne_nil _ _) (by simp [isContinuation_tail])
  · exact wide_shape (String.utf8EncodeChar_eq_cons_cons_cons hsize) (high_bits (by decide))
      (List.cons_ne_nil _ _) (by simp [isContinuation_tail])
  · exact wide_shape (String.utf8EncodeChar_eq_cons_cons_cons_cons hsize) (high_bits (by decide))
      (List.cons_ne_nil _ _) (by simp [isContinuation_tail])

/-- A line feed is a byte of no other character. -/
theorem lineFeed_mem_utf8EncodeChar {c : Char} :
    (10 : UInt8) ∈ String.utf8EncodeChar c ↔ c = '\n' := by
  constructor
  · intro hmem
    obtain ⟨lead, conts, hc, -, hconts, hshape⟩ := utf8EncodeChar_shape c
    rcases hshape with ⟨rfl, -⟩ | ⟨-, hlead⟩
    · have hsize : c.utf8Size = 1 := by
        rw [← String.length_utf8EncodeChar, hc]
        rfl
      have hval : c.val.toNat ≤ 127 :=
        UInt32.le_iff_toNat_le.mp (Char.utf8Size_eq_one_iff.mp hsize)
      rw [String.utf8EncodeChar_eq_singleton hsize, List.mem_singleton] at hmem
      have hten : 10 = c.val.toNat % 2 ^ 8 :=
        (congrArg UInt8.toNat hmem).trans (UInt32.toNat_toUInt8 _)
      rw [Nat.mod_eq_of_lt (lt_of_le_of_lt hval (by decide))] at hten
      exact Char.ext (UInt32.toNat_inj.mp hten.symm)
    · rw [hc, List.mem_cons] at hmem
      rcases hmem with hten | hten
      · exact absurd (hten ▸ hlead) (by decide)
      · exact absurd (hconts _ hten).le (by decide)
  · rintro rfl
    decide

/-! ### Several characters -/

/-- The bytes of a text without line feeds contain none. -/
theorem lineFeed_notMem_encode {cs : List Char} (h : '\n' ∉ cs) : (10 : UInt8) ∉ encode cs := by
  intro hmem
  obtain ⟨c, hc, hten⟩ := List.mem_flatMap.mp hmem
  exact h (lineFeed_mem_utf8EncodeChar.mp hten ▸ hc)

/-- The first byte of a text leads a character. -/
theorem not_isContinuation_of_encode {cs : List Char} {b : UInt8} {bytes : List UInt8}
    (h : encode cs = b :: bytes) : ¬ IsContinuation b := by
  cases cs with
  | nil => exact absurd h (List.cons_ne_nil b bytes).symm
  | cons c cs =>
    obtain ⟨lead, conts, hc, hlead, -⟩ := utf8EncodeChar_shape c
    rw [encode_cons, hc, List.cons_append] at h
    exact (List.cons.inj h).1 ▸ hlead

/-- **A cut falls into one character**, or behind its last byte. -/
theorem exists_split {cs : List Char} {n : ℕ} (hpos : 0 < n) (hn : n ≤ (encode cs).length) :
    ∃ pre c post, cs = pre ++ c :: post ∧ (encode pre).length < n ∧
      n ≤ (encode pre).length + (String.utf8EncodeChar c).length := by
  induction cs generalizing n with
  | nil => exact absurd (hpos.trans_le hn) (lt_irrefl 0)
  | cons c cs ih =>
    rw [encode_cons, List.length_append] at hn
    rcases le_or_gt n (String.utf8EncodeChar c).length with hle | hgt
    · refine ⟨[], c, cs, rfl, hpos, ?_⟩
      rwa [show encode [] = [] from rfl, List.length_nil, zero_add]
    · obtain ⟨pre, d, post, rfl, hlt, hle⟩ := ih (n := n - (String.utf8EncodeChar c).length)
        (by omega) (by omega)
      refine ⟨c :: pre, d, post, rfl, ?_, ?_⟩ <;> rw [encode_cons, List.length_append] <;> omega

/-- **A valid beginning** of the bytes of a text holds a beginning of its characters. -/
theorem initial_of_encode {cs ds : List Char} (h : encode cs <+: encode ds) : cs <+: ds := by
  obtain ⟨rest, hrest⟩ := h
  refine List.isPrefix_of_utf8Encode_append_eq_utf8Encode rest.toByteArray ?_
  change (encode cs).toByteArray ++ rest.toByteArray = (encode ds).toByteArray
  rw [← hrest, List.toByteArray_append]

end Utf8
