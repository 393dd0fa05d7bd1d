import Mathlib.Data.List.Basic
import WayRay.Protocol.Messages

/-!
# Which mime type is transferred

`preferred_mime_type` chooses the type in which the server reads a selection, `is_text_mime` decides
whether the client takes what it is sent.  They differ on the names `STRING` and `TEXT`, which only
the second one knows: `isTextMime_preferredMimeType` says for which offers a text type is chosen.
-/

namespace WayRay

/-- The name in lower case, as `to_ascii_lowercase` gives it. -/
def asciiLower (mime : String) : List Char := mime.toList.map Char.toLower

/-- `eq_ignore_ascii_case`. -/
def eqIgnoreAsciiCase (a b : String) : Bool := asciiLower a == asciiLower b

/-- The names the preference order begins with: UTF-8 plain text, the legacy X11 name of UTF-8 text,
bare plain text. -/
def preferredNames : List String := ["text/plain;charset=utf-8", "UTF8_STRING", "text/plain"]

/-- Whether the name is one of the `text/*` types. -/
def startsWithText (mime : String) : Bool := "text/".toList.isPrefixOf (asciiLower mime)

/-- Pick the mime type to transfer from an offered set, preferring text: a preferred name, any other
`text/*` type, then the first offered type as a fallback. -/
def preferredMimeType (offered : List String) : Option String :=
  match preferredNames.findSome? fun want => offered.find? (eqIgnoreAsciiCase want) with
  | some mime => some mime
  | none => (offered.find? startsWithText).or offered.head?

/-- The text types that `preferred_mime_type` looks for: `text/*` and `UTF8_STRING`. -/
def isSoughtText (mime : String) : Bool :=
  startsWithText mime || asciiLower mime == "utf8_string".toList

theorem isTextMime_eq (mime : String) :
    isTextMime mime =
      (isSoughtText mime || asciiLower mime == "string".toList ||
        asciiLower mime == "text".toList) :=
  rfl

theorem isTextMime_of_sought {mime : String} (h : isSoughtText mime = true) :
    isTextMime mime = true := by
  rw [isTextMime_eq, h, Bool.true_or, Bool.true_or]

/-- The type chosen was offered. -/
theorem mem_of_preferredMimeType {offered : List String} {mime : String}
    (h : preferredMimeType offered = some mime) : mime ∈ offered := by
  unfold preferredMimeType at h
  split at h
  · next found hfound =>
    obtain rfl := Option.some.inj h
    obtain ⟨want, -, hwant⟩ := List.exists_of_findSome?_eq_some hfound
    exact List.mem_of_find?_eq_some hwant
  · rcases Option.or_eq_some_iff.mp h with htext | ⟨-, hhead⟩
    · exact List.mem_of_find?_eq_some htext
    · exact List.mem_of_mem_head? hhead

/-- Each preferred name is one of the text types sought. -/
theorem isSoughtText_of_preferred {mime want : String} (hwant : want ∈ preferredNames)
    (h : eqIgnoreAsciiCase want mime = true) : isSoughtText mime = true := by
  have hlower : asciiLower want = asciiLower mime := beq_iff_eq.mp h
  have hall : ∀ want ∈ preferredNames, isSoughtText want = true := by decide
  rw [isSoughtText, startsWithText, ← hlower]
  exact hall want hwant

/-- An offer with a `text/*` type or `UTF8_STRING` is transferred as such a type. -/
theorem preferredMimeType_of_sought {offered : List String} {mime : String} (hmem : mime ∈ offered)
    (hmime : isSoughtText mime = true) :
    ∃ chosen, preferredMimeType offered = some chosen ∧ isSoughtText chosen = true := by
  unfold preferredMimeType
  split
  · next found hfound =>
    obtain ⟨want, hwant, hfind⟩ := List.exists_of_findSome?_eq_some hfound
    have hname : eqIgnoreAsciiCase want found = true := List.find?_some hfind
    exact ⟨found, rfl, isSoughtText_of_preferred hwant hname⟩
  · next hnone =>
    -- the type is not called `UTF8_STRING`, which is among the preferred names
    have hfind := List.findSome?_eq_none_iff.mp hnone "UTF8_STRING" (by decide)
    have hother := List.find?_eq_none.mp hfind mime hmem
    have htext : startsWithText mime = true := by
      rcases Bool.or_eq_true_iff.mp hmime with htext | hutf8
      · exact htext
      · exact absurd (beq_iff_eq.mpr (beq_iff_eq.mp hutf8).symm) hother
    have hsome : (offered.find? startsWithText).isSome = true :=
      List.find?_isSome.mpr ⟨mime, hmem, htext⟩
    obtain ⟨chosen, hchosen⟩ := Option.isSome_iff_exists.mp hsome
    have hslash : startsWithText chosen = true := List.find?_some hchosen
    exact ⟨chosen, by rw [hchosen, Option.some_or], by rw [isSoughtText, hslash, Bool.true_or]⟩

/-- Any other offer is transferred as its first type. -/
theorem preferredMimeType_of_none_sought {offered : List String}
    (h : ∀ mime ∈ offered, isSoughtText mime ≠ true) :
    preferredMimeType offered = offered.head? := by
  have hnames : preferredNames.findSome? (fun want => offered.find? (eqIgnoreAsciiCase want)) =
      none := by
    rw [List.findSome?_eq_none_iff]
    intro want hwant
    rw [List.find?_eq_none]
    exact fun mime hmem hname => h mime hmem (isSoughtText_of_preferred hwant hname)
  have hslash : offered.find? startsWithText = none := by
    rw [List.find?_eq_none]
    intro mime hmem htext
    exact h mime hmem (by rw [isSoughtText, htext, Bool.true_or])
  rw [preferredMimeType, hnames, hslash, Option.none_or]

/-- **When a text type is chosen**: the offer has a `text/*` type or `UTF8_STRING`, or its first
type happens to be a text. -/
theorem isTextMime_preferredMimeType (offered : List String) :
    (∃ mime, preferredMimeType offered = some mime ∧ isTextMime mime = true) ↔
      (∃ mime ∈ offered, isSoughtText mime = true) ∨
        ∃ mime, offered.head? = some mime ∧ isTextMime mime = true := by
  by_cases hsought : ∃ mime ∈ offered, isSoughtText mime = true
  · obtain ⟨mime, hmem, hmime⟩ := hsought
    obtain ⟨chosen, hchosen, htext⟩ := preferredMimeType_of_sought hmem hmime
    exact iff_of_true ⟨chosen, hchosen, isTextMime_of_sought htext⟩ (Or.inl ⟨mime, hmem, hmime⟩)
  · rw [preferredMimeType_of_none_sought fun mime hmem hmime => hsought ⟨mime, hmem, hmime⟩,
      or_iff_right hsought]

end WayRay
