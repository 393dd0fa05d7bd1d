import WayRay.Clipboard.LocalClipboard
import WayRay.Text.Utf8

/-!
# Capping a text

`capClipboardPayload` cuts a text at the maximum and then takes the last character off, if that has
more than one byte: it does not ask whether the character was split.  `capped_text` is what it makes
of a text around the character that the cut falls into; `cap_keeps_longest_iff` says when that is
the longest valid beginning within the maximum.
-/

namespace WayRay

open Utf8

/-! ### Valid bytes -/

theorem intoBytes_eq_encode (text : String) : intoBytes text = encode text.toList := by
  rw [intoBytes, ← String.utf8Encode_toList]
  exact congrArg Array.toList List.data_toByteArray

theorem isSome_fromUtf8_iff {data : Bytes} : (fromUtf8 data).isSome ↔ ∃ cs, data = encode cs := by
  rw [Option.isSome_iff_exists]
  constructor
  · rintro ⟨text, htext⟩
    exact ⟨text.toList, (fromUtf8_eq_some.mp htext).trans (intoBytes_eq_encode text)⟩
  · rintro ⟨cs, rfl⟩
    refine ⟨String.ofList cs, fromUtf8_eq_some.mpr ?_⟩
    rw [intoBytes_eq_encode, String.toList_ofList]

/-- `kept` is the longest beginning of `data` that is valid UTF-8 and no longer than `limit`. -/
def IsLongestText (data : Bytes) (limit : ℕ) (kept : Bytes) : Prop :=
  (kept <+: data ∧ (fromUtf8 kept).isSome ∧ kept.length ≤ limit) ∧
    ∀ other, other <+: data → (fromUtf8 other).isSome → other.length ≤ limit →
      other.length ≤ kept.length

/-! ### Dropping the last character -/

/-- Continuation bytes are dropped. -/
theorem dropSplitSequence_append {conts : Bytes} (h : ∀ b ∈ conts, IsContinuation b)
    (rest : Bytes) : dropSplitSequence (conts ++ rest) = dropSplitSequence rest := by
  induction conts with
  | nil => rfl
  | cons b conts ih =>
    rw [List.forall_mem_cons] at h
    rw [List.cons_append, dropSplitSequence]
    exact (if_pos h.1).trans (ih h.2)

/-- A leading byte is dropped, an ASCII character is kept. -/
theorem dropSplitSequence_cons {b : UInt8} (h : ¬ IsContinuation b) (rest : Bytes) :
    dropSplitSequence (b :: rest) = if 0x80 ≤ b then rest else b :: rest := by
  rw [dropSplitSequence]
  exact if_neg h

variable {pre : List Char} {c : Char} {limit : ℕ} (post : List Char)

/-- **A text cut within a character**, or behind its last byte: the character is dropped if it has
several bytes. -/
theorem capped_text (hlt : (encode pre).length < limit)
    (hle : limit ≤ (encode pre).length + (String.utf8EncodeChar c).length) :
    (dropSplitSequence ((encode (pre ++ c :: post)).take limit).reverse).reverse =
      if (String.utf8EncodeChar c).length = 1 then encode (pre ++ [c]) else encode pre := by
  obtain ⟨lead, conts, hc, hlead, hconts, hsize⟩ := utf8EncodeChar_shape c
  rw [hc, List.length_cons] at hle ⊢
  -- what is left of the character, from its last byte on
  obtain ⟨k, rfl⟩ : ∃ k, limit = (encode pre).length + (k + 1) :=
    ⟨limit - (encode pre).length - 1, by omega⟩
  have htake : (encode (pre ++ c :: post)).take ((encode pre).length + (k + 1)) =
      encode pre ++ lead :: conts.take k := by
    rw [encode_append, encode_cons, hc, List.take_length_add_append, List.cons_append,
      List.take_succ_cons, List.take_append_of_le_length (by omega)]
  have hdrop : dropSplitSequence (encode pre ++ lead :: conts.take k).reverse =
      if 0x80 ≤ lead then (encode pre).reverse else lead :: (encode pre).reverse := by
    rw [List.reverse_append, List.reverse_cons, List.append_assoc, List.singleton_append,
      dropSplitSequence_append fun b hb =>
        hconts b (List.mem_of_mem_take (List.mem_reverse.mp hb)),
      dropSplitSequence_cons hlead]
  rw [htake, hdrop]
  rcases hsize with ⟨rfl, hascii⟩ | ⟨hne, hwide⟩
  · rw [if_neg (UInt8.not_le.mpr hascii), List.reverse_cons, List.reverse_reverse, encode_append,
      encode_cons, hc]
    rfl
  · have hlength : conts.length + 1 ≠ 1 := by simpa using hne
    rw [if_pos hwide, if_neg hlength, List.reverse_reverse]

/-! ### The longest valid beginning -/

theorem encode_initial {cs ds : List Char} (h : cs <+: ds) : encode cs <+: encode ds := by
  obtain ⟨rest, rfl⟩ := h
  rw [encode_append]
  exact List.prefix_append _ _

/-- There is only one. -/
theorem IsLongestText.unique {data kept kept' : Bytes} (h : IsLongestText data limit kept)
    (h' : IsLongestText data limit kept') : kept = kept' := by
  obtain ⟨⟨hinitial, hvalid, hlength⟩, hlongest⟩ := h
  obtain ⟨⟨hinitial', hvalid', hlength'⟩, hlongest'⟩ := h'
  have hle := hlongest kept' hinitial' hvalid' hlength'
  have hge := hlongest' kept hinitial hvalid hlength
  rcases List.prefix_or_prefix_of_prefix hinitial hinitial' with h | h
  · exact h.eq_of_length (le_antisymm hge hle)
  · exact (h.eq_of_length (le_antisymm hle hge)).symm

/-- A text cut within a character, or behind its last byte: the character belongs to the longest
valid beginning if it is whole. -/
theorem isLongestText_cut (hlt : (encode pre).length < limit)
    (hle : limit ≤ (encode pre).length + (String.utf8EncodeChar c).length) :
    IsLongestText (encode (pre ++ c :: post)) limit
      (if limit = (encode pre).length + (String.utf8EncodeChar c).length
        then encode (pre ++ [c]) else encode pre) := by
  have hchar : (encode (pre ++ [c])).length =
      (encode pre).length + (String.utf8EncodeChar c).length := by
    rw [encode_append, List.length_append, encode_cons, show encode [] = [] from rfl,
      List.append_nil]
  have hinitial : pre ++ [c] <+: pre ++ c :: post := ⟨post, by simp⟩
  constructor
  · split_ifs with hwhole
    · exact ⟨encode_initial hinitial, isSome_fromUtf8_iff.mpr ⟨_, rfl⟩,
        (hchar.trans hwhole.symm).le⟩
    · exact ⟨encode_initial (List.prefix_append _ _), isSome_fromUtf8_iff.mpr ⟨_, rfl⟩, hlt.le⟩
  · intro other hother hvalid hlength
    obtain ⟨cs, rfl⟩ := isSome_fromUtf8_iff.mp hvalid
    rcases List.prefix_or_prefix_of_prefix (initial_of_encode hother) hinitial with hcs | hcs
    · rcases List.prefix_concat_iff.mp hcs with rfl | hpre
      · rw [if_pos (le_antisymm hle (hchar ▸ hlength))]
      · have hmono := (encode_initial hpre).length_le
        split_ifs
        · omega
        · exact hmono
    · -- it holds the character, which fits only if it is whole
      have hmono := (encode_initial hcs).length_le
      rw [if_pos (by omega)]
      omega

/-! ### The bytes at the cut -/

/-- The last byte within the limit is ASCII exactly if its character is. -/
theorem ascii_before_cut_iff (hlt : (encode pre).length < limit)
    (hle : limit ≤ (encode pre).length + (String.utf8EncodeChar c).length) :
    (∃ b, (encode (pre ++ c :: post))[limit - 1]? = some b ∧ b < 0x80) ↔
      (String.utf8EncodeChar c).length = 1 := by
  obtain ⟨lead, conts, hc, -, hconts, hsize⟩ := utf8EncodeChar_shape c
  rw [hc, List.length_cons] at hle ⊢
  obtain ⟨k, rfl⟩ : ∃ k, limit = (encode pre).length + (k + 1) :=
    ⟨limit - (encode pre).length - 1, by omega⟩
  have hbyte : (encode (pre ++ c :: post))[(encode pre).length + (k + 1) - 1]? =
      (lead :: conts)[k]? := by
    rw [encode_append, encode_cons, hc, Nat.add_succ_sub_one,
      List.getElem?_append_right (Nat.le_add_right _ _), Nat.add_sub_cancel_left,
      List.getElem?_append_left (by rw [List.length_cons]; omega)]
  rw [hbyte]
  rcases hsize with ⟨rfl, hascii⟩ | ⟨hne, hwide⟩
  · obtain rfl : k = 0 := by simpa using hle
    exact iff_of_true ⟨lead, rfl, hascii⟩ rfl
  · refine iff_of_false ?_ (by simpa using hne)
    rintro ⟨b, hb, hlow⟩
    refine UInt8.not_le.mpr hlow ?_
    cases k with
    | zero => exact Option.some.inj hb ▸ hwide
    | succ k => exact (hconts b (List.mem_of_getElem? hb)).le

/-- The byte after the limit continues a character exactly if that is split. -/
theorem continuation_after_cut_iff (hlt : (encode pre).length < limit)
    (hle : limit ≤ (encode pre).length + (String.utf8EncodeChar c).length) :
    (∃ b, (encode (pre ++ c :: post))[limit]? = some b ∧ IsContinuation b) ↔
      limit ≠ (encode pre).length + (String.utf8EncodeChar c).length := by
  obtain ⟨lead, conts, hc, -, hconts, -⟩ := utf8EncodeChar_shape c
  rw [hc, List.length_cons] at hle ⊢
  obtain ⟨k, rfl⟩ : ∃ k, limit = (encode pre).length + (k + 1) :=
    ⟨limit - (encode pre).length - 1, by omega⟩
  have hbyte : (encode (pre ++ c :: post))[(encode pre).length + (k + 1)]? =
      (conts ++ encode post)[k]? := by
    rw [encode_append, encode_cons, hc, List.getElem?_append_right (Nat.le_add_right _ _),
      Nat.add_sub_cancel_left, List.cons_append, List.getElem?_cons_succ]
  rw [hbyte]
  rcases Nat.lt_or_ge k conts.length with hk | hk
  · refine iff_of_true ⟨conts[k], ?_, hconts _ (List.getElem_mem hk)⟩ (by omega)
    rw [List.getElem?_append_left hk, List.getElem?_eq_getElem hk]
  · obtain rfl : k = conts.length := by omega
    refine iff_of_false ?_ (not_not_intro rfl)
    rintro ⟨b, hb, hcont⟩
    rw [List.getElem?_append_right le_rfl, Nat.sub_self] at hb
    -- the next character begins here
    cases hpost : encode post with
    | nil => exact absurd (hpost ▸ hb) nofun
    | cons b' bytes =>
      rw [hpost, List.getElem?_cons_zero, Option.some.injEq] at hb
      exact not_isContinuation_of_encode hpost (hb ▸ hcont)

/-! ### The cap -/

/-- A text that does not fit is cut within a character, or behind its last byte. -/
private theorem exists_split_at_maximum {text : String}
    (hlong : maxClipboardData < (intoBytes text).length) :
    ∃ pre c post, intoBytes text = encode (pre ++ c :: post) ∧
      (encode pre).length < maxClipboardData ∧
        maxClipboardData ≤ (encode pre).length + (String.utf8EncodeChar c).length := by
  rw [intoBytes_eq_encode] at hlong ⊢
  obtain ⟨pre, c, post, htext, hcut⟩ := exists_split (n := maxClipboardData)
    (show 0 < 1024 * 1024 by norm_num) hlong.le
  exact ⟨pre, c, post, by rw [htext], hcut⟩

/-- What the cap makes of it. -/
private theorem capClipboardPayload_of_lt {data : Bytes} {mime : String}
    (hmime : isTextMime mime = true) (hlong : maxClipboardData < data.length) :
    capClipboardPayload data mime =
      (true, (dropSplitSequence (data.take maxClipboardData).reverse).reverse) := by
  rw [capClipboardPayload, if_neg (not_le.mpr hlong)]
  exact congrArg (Prod.mk true) (if_pos hmime)

/-- What is left is the longest valid beginning exactly if the last character is dropped when it is
split, and only then. -/
private theorem isLongestText_capped_iff (hlt : (encode pre).length < limit)
    (hle : limit ≤ (encode pre).length + (String.utf8EncodeChar c).length) :
    IsLongestText (encode (pre ++ c :: post)) limit
        (if (String.utf8EncodeChar c).length = 1 then encode (pre ++ [c]) else encode pre) ↔
      (String.utf8EncodeChar c).length = 1 ∨
        limit ≠ (encode pre).length + (String.utf8EncodeChar c).length := by
  have hcut := isLongestText_cut post hlt hle
  by_cases hwhole : limit = (encode pre).length + (String.utf8EncodeChar c).length
  · rw [if_pos hwhole] at hcut
    by_cases hone : (String.utf8EncodeChar c).length = 1
    · rw [if_pos hone]
      exact iff_of_true hcut (.inl hone)
    · rw [if_neg hone]
      refine iff_of_false (fun hlongest => ?_) (not_or.mpr ⟨hone, not_not_intro hwhole⟩)
      -- the character that is dropped fits
      have heq := congrArg List.length (hlongest.unique hcut)
      rw [encode_append, List.length_append, encode_cons, List.length_append] at heq
      omega
  · have hwide : (String.utf8EncodeChar c).length ≠ 1 := by omega
    rw [if_neg hwhole] at hcut
    rw [if_neg hwide]
    exact iff_of_true hcut (.inr hwhole)

/-- **Capping keeps as much as it can** exactly if the text fits, or the last byte within the
maximum is an ASCII character, or the character it belongs to goes on beyond the maximum. -/
theorem cap_keeps_longest_iff (text : String) (mime : String) (hmime : isTextMime mime = true) :
    let data := intoBytes text
    let (truncated, kept) := capClipboardPayload data mime
    (IsLongestText data maxClipboardData kept ∧ (truncated = true ↔ kept ≠ data)) ↔
      data.length ≤ maxClipboardData ∨
        (∃ b, data[maxClipboardData - 1]? = some b ∧ b < 0x80) ∨
        ∃ b, data[maxClipboardData]? = some b ∧ b &&& 0xC0 = 0x80 := by
  intro data
  rcases le_or_gt data.length maxClipboardData with hfits | hlong
  · have hcap : capClipboardPayload data mime = (false, data) := if_pos hfits
    rw [hcap]
    refine iff_of_true ⟨⟨⟨List.prefix_rfl, ?_, hfits⟩, ?_⟩, by simp⟩ (.inl hfits)
    · exact isSome_fromUtf8_iff.mpr ⟨_, intoBytes_eq_encode text⟩
    · exact fun other hother _ _ => hother.length_le
  · obtain ⟨pre, c, post, htext, hlt, hle⟩ := exists_split_at_maximum hlong
    change data = encode (pre ++ c :: post) at htext
    have hiff := isLongestText_capped_iff post hlt hle
    have hascii := ascii_before_cut_iff post hlt hle
    have hcont := continuation_after_cut_iff post hlt hle
    rw [← htext] at hiff hascii hcont
    rw [capClipboardPayload_of_lt hmime hlong, htext, capped_text post hlt hle, ← htext]
    change IsLongestText data _ _ ∧ _ ↔ _ ∨ _ ∨ ∃ b, _ ∧ IsContinuation b
    rw [hascii, hcont, ← hiff, or_iff_right hlong.not_ge, and_iff_left_iff_imp]
    -- what is kept is too short to be the text
    intro hlongest
    exact iff_of_true rfl fun heq => hlong.not_ge (heq ▸ hlongest.1.2.2)

/-- A short text. -/
theorem cap_keeps_longest_short :
    (IsLongestText (intoBytes "aé") maxClipboardData
        (capClipboardPayload (intoBytes "aé") "text/plain").2 ∧
      ((capClipboardPayload (intoBytes "aé") "text/plain").1 = true ↔
        (capClipboardPayload (intoBytes "aé") "text/plain").2 ≠ intoBytes "aé")) := by
  refine (cap_keeps_longest_iff "aé" "text/plain" (by decide)).mpr (.inl ?_)
  have hlength : (intoBytes "aé").length = 3 := by decide
  rw [hlength, maxClipboardData]
  norm_num

private theorem length_encode_replicate (n : ℕ) :
    (encode (List.replicate n 'é')).length = n * 2 := by
  induction n with
  | zero => rfl
  | succ n ih =>
    rw [List.replicate_succ, encode_cons, List.length_append, ih,
      show (String.utf8EncodeChar 'é').length = 2 by decide]
    omega

/-- Characters of two bytes up to the maximum: the last one is dropped, though it fits. -/
theorem whole_character_dropped :
    let data := intoBytes (String.ofList (List.replicate 524287 'é' ++ ['é', 'x']))
    isTextMime "text/plain" = true ∧
      ¬ (IsLongestText data maxClipboardData (capClipboardPayload data "text/plain").2 ∧
        ((capClipboardPayload data "text/plain").1 = true ↔
          (capClipboardPayload data "text/plain").2 ≠ data)) := by
  intro data
  have hmime : isTextMime "text/plain" = true := by decide
  refine ⟨hmime, fun h => ?_⟩
  have htext : data = encode (List.replicate 524287 'é' ++ 'é' :: ['x']) := by
    rw [← String.toList_ofList (l := List.replicate 524287 'é' ++ _), ← intoBytes_eq_encode]
  have hpre := length_encode_replicate 524287
  have hmax : maxClipboardData = 1048576 := rfl
  have hsize : (String.utf8EncodeChar 'é').length = 2 := by decide
  have hlong : maxClipboardData < data.length := by
    rw [htext, encode_append, List.length_append, encode_cons, List.length_append, encode_cons,
      List.length_append, hpre, hsize, show (String.utf8EncodeChar 'x').length = 1 by decide, hmax]
    omega
  rw [capClipboardPayload_of_lt hmime hlong, htext, capped_text _ (by omega) (by omega),
    isLongestText_capped_iff _ (by omega) (by omega)] at h
  omega

end WayRay
