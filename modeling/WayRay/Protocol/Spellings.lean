import WayRay.Protocol.KnownHosts

/-!
# Spellings of a fingerprint

An operator may write a fingerprint with white space around it, without the name of the algorithm in
front, with separators between the digits and in any letter case.  `fingerprintsMatch` is meant to
see through that, but it looks for the name before it gets to the letter case:
`fingerprintsMatch_fingerprint_iff` says which spellings it does not recognize.
-/

namespace WayRay

open Lines

/-! ### Characters -/

/-- An upper-case letter is an ordinary character, and so is the lower-case one. -/
private theorem toLower_cases (c : Char) :
    c.toLower = c ∨ (isWhitespace c = false ∧ c ≠ ':') ∧
      isWhitespace c.toLower = false ∧ c.toLower ≠ ':' ∧ c.toLower.toLower = c.toLower := by
  by_cases hupper : 65 ≤ c.toNat ∧ c.toNat ≤ 90
  · obtain ⟨hge, hle⟩ := hupper
    right
    rw [← Char.ofNat_toNat c]
    generalize c.toNat = n at hge hle
    interval_cases n <;> decide
  · left
    refine dif_neg fun h => hupper ?_
    rw [ge_iff_le, UInt32.le_iff_toNat_le, UInt32.le_iff_toNat_le] at h
    exact h

theorem isWhitespace_toLower (c : Char) : isWhitespace c.toLower = isWhitespace c := by
  rcases toLower_cases c with h | ⟨⟨hwhite, -⟩, hwhite', -⟩
  · rw [h]
  · rw [hwhite, hwhite']

/-! ### Without separators -/

/-- What is left of a text without white space and colons, in lower case. -/
def bare (s : List Char) : List Char :=
  (s.filter fun c => !isWhitespace c && c != ':').map Char.toLower

@[simp] theorem bare_append (s t : List Char) : bare (s ++ t) = bare s ++ bare t := by
  rw [bare, List.filter_append, List.map_append]
  rfl

theorem bare_of_whitespace {s : List Char} (h : ∀ c ∈ s, isWhitespace c = true) : bare s = [] := by
  rw [bare, List.filter_eq_nil_iff.mpr fun c hc => by simp [h c hc], List.map_nil]

/-- The letter case does not matter. -/
theorem bare_map_toLower (s : List Char) : bare (s.map Char.toLower) = bare s := by
  induction s with
  | nil => rfl
  | cons c s ih =>
    have hc : bare [c.toLower] = bare [c] := by
      rcases toLower_cases c with h | ⟨⟨hwhite, hcolon⟩, hwhite', hcolon', hlower⟩
      · rw [h]
      · simp [bare, hwhite, hcolon, hwhite', hcolon', hlower]
    rw [List.map_cons, ← List.singleton_append, bare_append, ih, hc, ← bare_append]
    rfl

theorem bare_rdropWhile (s : List Char) : bare (s.rdropWhile isWhitespace) = bare s := by
  have hends : bare (s.rtakeWhile isWhitespace) = [] :=
    bare_of_whitespace fun c => List.mem_rtakeWhile_imp
  conv_rhs => rw [← List.rdropWhile_append_rtakeWhile (p := isWhitespace) (l := s)]
  rw [bare_append, hends, List.append_nil]

/-- Trimming takes nothing off that is left. -/
theorem bare_trim (s : List Char) : bare (trim s) = bare s := by
  have hbegins : bare (s.takeWhile isWhitespace) = [] :=
    bare_of_whitespace fun c => List.mem_takeWhile_imp
  conv_rhs => rw [← List.takeWhile_append_dropWhile (p := isWhitespace) (l := s)]
  rw [trim_eq, trimBy, bare_rdropWhile, bare_append, hbegins, List.nil_append]

/-! ### Spellings -/

/-- A spelling of the name of the algorithm, with the colon that ends it. -/
def IsName (name : List Char) : Prop := name.map Char.toLower = "sha256:".toList

instance (name : List Char) : Decidable (IsName name) := inferInstanceAs (Decidable (_ = _))

/-- The text spells the digits: there is white space around, the name of the algorithm may stand in
front, and what follows is the digits without separators and letter case. -/
def Spells (fp digits : List Char) : Prop :=
  ∃ before name body after, fp = before ++ name ++ body ++ after ∧
    (∀ c ∈ before, isWhitespace c = true) ∧ (∀ c ∈ after, isWhitespace c = true) ∧
      (name = [] ∨ IsName name) ∧ bare body = digits

variable {fp name rest digits : List Char}

theorem IsName.bare_append (h : IsName name) (rest : List Char) :
    bare (name ++ rest) = "sha256".toList ++ bare rest := by
  have hname : bare name = "sha256".toList := by
    rw [← bare_map_toLower, h]
    decide
  rw [WayRay.bare_append, hname]

theorem IsName.trimmed (h : IsName name) : Trimmed isWhitespace name := by
  refine trimmed_of_forall ?_ fun c hc => ?_
  · rintro rfl
    exact absurd h (by decide)
  · have hplain : ∀ d ∈ "sha256:".toList, isWhitespace d = false := by simp [isWhitespace]
    rw [← isWhitespace_toLower]
    exact hplain _ (h ▸ List.mem_map_of_mem hc)

/-- A spelling holds the digits alone, or begins with the name. -/
theorem spells_iff :
    Spells fp digits ↔
      bare fp = digits ∨
        ∃ name rest, trim fp = name ++ rest ∧ IsName name ∧ bare rest = digits := by
  constructor
  · rintro ⟨before, name, body, after, rfl, hbefore, hafter, rfl | hname, hbody⟩
    · left
      simp [bare_of_whitespace hbefore, bare_of_whitespace hafter, hbody]
    · right
      refine ⟨name, (body ++ after).rdropWhile isWhitespace, ?_, hname, ?_⟩
      · rw [List.append_assoc _ body, trim_eq, hname.trimmed.trimBy_append hbefore]
      · rw [bare_rdropWhile, WayRay.bare_append, bare_of_whitespace hafter, List.append_nil, hbody]
  · rintro (h | ⟨name, rest, htrim, hname, hrest⟩)
    · exact ⟨[], [], fp, [], by simp, nofun, nofun, .inl rfl, h⟩
    · obtain ⟨before, after, hfp, hbefore, hafter⟩ := exists_trimBy isWhitespace fp
      rw [← trim_eq, htrim] at hfp
      exact ⟨before, name, rest, after, by simpa using hfp, hbefore, hafter,
        .inr hname, hrest⟩

/-- A text begins with the name in one way at most. -/
theorem IsName.unique (h : IsName name) {name' rest' : List Char} (h' : IsName name')
    (heq : name ++ rest = name' ++ rest') : name = name' ∧ rest = rest' := by
  refine List.append_inj heq ?_
  rw [← List.length_map Char.toLower, h, ← h', List.length_map]

/-- A text that begins with the name is more than digits that do not. -/
theorem IsName.bare_ne (h : IsName name) (hs : 's' ∉ digits) (htrim : trim fp = name ++ rest) :
    bare fp ≠ digits := by
  rintro rfl
  rw [← bare_trim, htrim, h.bare_append] at hs
  exact hs (List.mem_append_left _ (by decide))

/-- What follows the name is the digits. -/
theorem IsName.spells_iff (h : IsName name) (hs : 's' ∉ digits) (htrim : trim fp = name ++ rest) :
    Spells fp digits ↔ bare rest = digits := by
  rw [WayRay.spells_iff, or_iff_right (h.bare_ne hs htrim)]
  constructor
  · rintro ⟨name', rest', htrim', hname', hrest'⟩
    rw [(h.unique hname' (htrim.symm.trans htrim')).2, hrest']
  · exact fun hrest => ⟨name, rest, htrim, h, hrest⟩

/-! ### What is recognized -/

/-- Normalizing strips the name only as it is written in lower case. -/
theorem normalizeFingerprint_eq_iff {expected : String} :
    normalizeFingerprint expected = String.ofList digits ↔
      if "sha256:".toList <+: trim expected.toList then
        bare ((trim expected.toList).drop 7) = digits
      else bare expected.toList = digits := by
  rw [normalizeFingerprint, String.ofList_inj, ← bare, stripped]
  simp only [List.isPrefixOf_iff_prefix]
  split_ifs
  · rfl
  · rw [bare_trim]

/-- The digits of the digest of a certificate. -/
def hexDigits (digest : Bytes → Bytes) (certDer : Bytes) : List Char :=
  (digest certDer).flatMap hexByte

/-- The name of the algorithm does not occur in them. -/
theorem s_notMem_hexDigits (digest : Bytes → Bytes) (certDer : Bytes) :
    's' ∉ hexDigits digest certDer := by
  have hdigit : ∀ n < 16, 's' ≠ Nat.digitChar n := by
    intro n hn
    interval_cases n <;> decide
  intro hmem
  obtain ⟨byte, -, hbyte⟩ := List.mem_flatMap.mp hmem
  have hlt : byte.toNat < 256 := byte.toNat_lt
  rw [hexByte, List.mem_pair] at hbyte
  rcases hbyte with h | h
  · exact hdigit _ (by omega) h
  · exact hdigit _ (by omega) h

/-- **A spelling of the digest of a certificate** is recognized, and nothing else, unless it begins
with the name of the algorithm and that is not in lower case. -/
theorem fingerprintsMatch_fingerprint_iff (digest : Bytes → Bytes) (certDer : Bytes)
    (expected : String) :
    (fingerprintsMatch (fingerprint digest certDer) expected = true ↔
        Spells expected.toList (hexDigits digest certDer)) ↔
      ¬ ∃ name rest, trim expected.toList = name ++ rest ∧ IsName name ∧
        name ≠ "sha256:".toList ∧ bare rest = hexDigits digest certDer := by
  have hs := s_notMem_hexDigits digest certDer
  rw [fingerprintsMatch_iff, normalizeFingerprint_fingerprint, eq_comm, ← hexDigits,
    normalizeFingerprint_eq_iff]
  generalize hexDigits digest certDer = digits at hs ⊢
  have hlower : IsName "sha256:".toList := by decide
  split_ifs with hstart
  · obtain ⟨rest, hrest⟩ := hstart
    have hdrop : (trim expected.toList).drop 7 = rest := by rw [← hrest]; rfl
    rw [hdrop, hlower.spells_iff hs hrest.symm]
    refine iff_of_true Iff.rfl ?_
    rintro ⟨name, rest', htrim, hname, hne, -⟩
    exact hne (hname.unique hlower (htrim.symm.trans hrest.symm)).1
  · rw [spells_iff]
    constructor
    · rintro h ⟨name, rest, htrim, hname, -, hrest⟩
      exact hname.bare_ne hs htrim (h.mpr (.inr ⟨name, rest, htrim, hname, hrest⟩))
    · refine fun hnot => ⟨.inl, ?_⟩
      rintro (h | ⟨name, rest, htrim, hname, hrest⟩)
      · exact h
      · refine absurd ⟨name, rest, htrim, hname, ?_, hrest⟩ hnot
        rintro rfl
        exact hstart ⟨rest, htrim.symm⟩

/-- The digest of `hello`. -/
def helloDigest : Bytes :=
  [0x2c, 0xf2, 0x4d, 0xba, 0x5f, 0xb0, 0xa3, 0x0e, 0x26, 0xe8, 0x3b, 0x2a, 0xc5, 0xb9, 0xe2, 0x9e,
    0x1b, 0x16, 0x1e, 0x5c, 0x1f, 0xa7, 0x42, 0x5e, 0x73, 0x04, 0x33, 0x62, 0x93, 0x8b, 0x98, 0x24]

/-- With its name in upper case a correct fingerprint is refused. -/
theorem upper_case_name_refused :
    let digest : Bytes → Bytes := fun _ => helloDigest
    let certDer : Bytes := [0x68, 0x65, 0x6c, 0x6c, 0x6f]
    let expected := "SHA256:2cf24dba5fb0a30e26e83b2ac5b9e29e1b161e5c1fa7425e73043362938b9824"
    ¬ (fingerprintsMatch (fingerprint digest certDer) expected = true ↔
      Spells expected.toList (hexDigits digest certDer)) := by
  intro digest certDer expected h
  have hname : IsName "SHA256:".toList := by decide
  have htrim : trim expected.toList = "SHA256:".toList ++
      "2cf24dba5fb0a30e26e83b2ac5b9e29e1b161e5c1fa7425e73043362938b9824".toList := by decide
  have hdigits := s_notMem_hexDigits digest certDer
  have hmatch := h.mpr ((hname.spells_iff hdigits htrim).mpr (by decide))
  rw [fingerprintsMatch_iff, normalizeFingerprint_fingerprint, eq_comm, ← hexDigits,
    normalizeFingerprint_eq_iff, htrim, if_neg (by decide)] at hmatch
  exact hname.bare_ne hdigits htrim hmatch

end WayRay
