import Mathlib.Data.List.Sort
import Mathlib.Tactic.IntervalCases
import WayRay.Protocol.Messages
import WayRay.Protocol.Tls
import WayRay.Text.Lines

/-!
# The pin file

The `known_hosts` file of `tls.rs`: `PinStore.body` is the text that `persist` writes, one pin a
line, and `parseKnownHosts` reads it back.

`Readable` says of pins that they survive this.  Everything the parser reads is readable, whatever
the file contains (`readable_parseKnownHosts`), and so is the fingerprint of a certificate
(`trimmed_fingerprint`).  `get_parseKnownHosts_body` is the round trip, and
`get_parseKnownHosts_of_initial` says what is read from a file that has been cut short.

SHA-256 is a parameter: `digest` gives the bytes of the digest of a certificate.
-/

namespace WayRay

open Lines

/-! ### Fingerprints of certificates -/

/-- `format!("{byte:02x}")`. -/
def hexByte (byte : UInt8) : List Char :=
  [Nat.digitChar (byte.toNat / 16), Nat.digitChar (byte.toNat % 16)]

/-- The pin string of a DER-encoded certificate. -/
def fingerprint (digest : Bytes → Bytes) (certDer : Bytes) : String :=
  "sha256:" ++ String.ofList ((digest certDer).flatMap hexByte)

/-- Normalizing leaves the hexadecimal digits as they are. -/
theorem hexDigit_plain {n : ℕ} (h : n < 16) :
    isWhitespace (Nat.digitChar n) = false ∧ Nat.digitChar n ≠ ':' ∧
      (Nat.digitChar n).toLower = Nat.digitChar n := by
  interval_cases n <;> decide

theorem hexByte_plain {byte : UInt8} {c : Char} (h : c ∈ hexByte byte) :
    isWhitespace c = false ∧ c ≠ ':' ∧ c.toLower = c := by
  have hlt : byte.toNat < 256 := byte.toNat_lt
  simp only [hexByte, List.mem_cons, List.not_mem_nil, or_false] at h
  rcases h with rfl | rfl
  · exact hexDigit_plain (by omega)
  · exact hexDigit_plain (by omega)

theorem toList_fingerprint (digest : Bytes → Bytes) (certDer : Bytes) :
    (fingerprint digest certDer).toList =
      "sha256:".toList ++ (digest certDer).flatMap hexByte := by
  rw [fingerprint, String.toList_append]
  exact congrArg _ String.toList_ofList

theorem fingerprint_noWhitespace (digest : Bytes → Bytes) (certDer : Bytes) :
    ∀ c ∈ (fingerprint digest certDer).toList, isWhitespace c = false := by
  intro c hc
  rw [toList_fingerprint, List.mem_append] at hc
  rcases hc with hc | hc
  · revert c
    simp [isWhitespace]
  · obtain ⟨byte, -, hc⟩ := List.mem_flatMap.mp hc
    exact (hexByte_plain hc).1

theorem fingerprint_ne_nil (digest : Bytes → Bytes) (certDer : Bytes) :
    (fingerprint digest certDer).toList ≠ [] := by
  rw [toList_fingerprint]
  exact List.append_ne_nil_of_left_ne_nil (by decide) _

theorem trim_eq (s : List Char) : trim s = trimBy isWhitespace s := rfl

theorem trimmed_fingerprint (digest : Bytes → Bytes) (certDer : Bytes) :
    Trimmed isWhitespace (fingerprint digest certDer).toList :=
  trimmed_of_forall (fingerprint_ne_nil digest certDer) (fingerprint_noWhitespace digest certDer)

/-- What is left of a fingerprint after normalizing are its digits. -/
theorem normalizeFingerprint_fingerprint (digest : Bytes → Bytes) (certDer : Bytes) :
    normalizeFingerprint (fingerprint digest certDer) =
      String.ofList ((digest certDer).flatMap hexByte) := by
  have hplain : ∀ c ∈ (digest certDer).flatMap hexByte,
      isWhitespace c = false ∧ c ≠ ':' ∧ c.toLower = c := by
    intro c hc
    obtain ⟨byte, -, hc⟩ := List.mem_flatMap.mp hc
    exact hexByte_plain hc
  have hstrip : stripped "sha256:".toList (fingerprint digest certDer).toList =
      (digest certDer).flatMap hexByte := by
    rw [toList_fingerprint, stripped, if_pos (List.isPrefixOf_iff_prefix.mpr
      (List.prefix_append _ _)), List.drop_left]
  have hfilter : ((digest certDer).flatMap hexByte).filter
      (fun c => !isWhitespace c && c != ':') = (digest certDer).flatMap hexByte :=
    List.filter_eq_self.mpr fun c hc => by simp [(hplain c hc).1, (hplain c hc).2.1]
  have hlower : ((digest certDer).flatMap hexByte).map Char.toLower =
      (digest certDer).flatMap hexByte :=
    (List.map_congr_left fun c hc => (hplain c hc).2.2).trans (List.map_id _)
  rw [normalizeFingerprint, trim_eq, (trimmed_fingerprint digest certDer).trimBy_eq, hstrip,
    hfilter, hlower]

/-- Two fingerprints of certificates match only if they are the same. -/
theorem fingerprint_eq_of_normalize {digest : Bytes → Bytes} {cert cert' : Bytes}
    (h : normalizeFingerprint (fingerprint digest cert) =
      normalizeFingerprint (fingerprint digest cert')) :
    fingerprint digest cert = fingerprint digest cert' := by
  rw [normalizeFingerprint_fingerprint, normalizeFingerprint_fingerprint] at h
  rw [fingerprint, h, fingerprint]

/-! ### Writing -/

namespace PinStore

/-- The pins in the order of the file. -/
def entries (s : PinStore) : List (String × String) :=
  s.pins.toList.insertionSort fun a b => a.1 ≤ b.1

/-- The text that `persist` writes. -/
def body (s : PinStore) : String :=
  s.entries.foldl (fun body entry => body ++ entry.1 ++ " " ++ entry.2 ++ "\n") ""

end PinStore

/-! ### Reading -/

/-- Read one line. -/
def parseLine (pins : HashMap String String) (line : List Char) : HashMap String String :=
  let line := trim line
  if line.isEmpty || line.head? == some '#' then pins
  else
    match splitOnce isWhitespace line with
    | some (identity, fp) => pins.insert (String.ofList (trim identity)) (String.ofList (trim fp))
    | none => pins

/-- Parse a `known_hosts` file: one pin a line; empty lines and comments are skipped. -/
def parseKnownHosts (contents : String) : HashMap String String :=
  (lines contents.toList).foldl parseLine ∅

/-- Open the store on a file; a missing one is treated as an empty store. -/
def PinStore.openFile (contents : Option String) : PinStore :=
  match contents with
  | some contents => ⟨parseKnownHosts contents⟩
  | none => ⟨∅⟩

/-! ### Readable pins -/

/-- A pin that the parser reads as it was written. -/
structure ReadablePin (identity fp : List Char) : Prop where
  ne_nil : identity ≠ []
  noWhitespace : ∀ c ∈ identity, isWhitespace c = false
  notComment : identity.head? ≠ some '#'
  trimmed : Trimmed isWhitespace fp
  oneLine : '\n' ∉ fp

/-- All pins of a map are read as they are written. -/
def Readable (pins : HashMap String String) : Prop :=
  ∀ identity fp, pins.get identity = some fp → ReadablePin identity.toList fp.toList

theorem readable_empty : Readable ∅ := by
  intro identity fp h
  exact absurd h (by simp)

theorem Readable.insert {pins : HashMap String String} (h : Readable pins) {identity fp : String}
    (hpin : ReadablePin identity.toList fp.toList) : Readable (pins.insert identity fp) := by
  intro identity' fp' hget
  exact HashMap.of_get_insert (P := fun identity fp => ReadablePin identity.toList fp.toList) hget
    hpin (h identity' fp')

/-- The line of a pin. -/
def pinLine (identity fp : List Char) : List Char := identity ++ [' '] ++ fp

section Line

variable {identity fp : List Char}

theorem ReadablePin.trimmed_identity (h : ReadablePin identity fp) :
    Trimmed isWhitespace identity :=
  trimmed_of_forall h.ne_nil h.noWhitespace

theorem ReadablePin.pinLine_ne_nil (h : ReadablePin identity fp) : pinLine identity fp ≠ [] := by
  rw [pinLine, List.append_assoc]
  exact List.append_ne_nil_of_left_ne_nil h.ne_nil _

theorem ReadablePin.lineFeed_notMem (h : ReadablePin identity fp) :
    '\n' ∉ pinLine identity fp := by
  simp only [pinLine, List.mem_append, List.mem_singleton, not_or]
  exact ⟨⟨fun hmem => absurd (h.noWhitespace _ hmem) (by decide), by decide⟩, h.oneLine⟩

/-- A pin is written on one line, which does not end in whitespace. -/
theorem ReadablePin.lines_pinLine (h : ReadablePin identity fp) (rest : List Char) :
    lines (pinLine identity fp ++ '\n' :: rest) = pinLine identity fp :: lines rest := by
  have hline := h.trimmed_identity.append h.trimmed [' ']
  refine lines_append h.lineFeed_notMem (fun hlast => ?_) rest
  exact absurd (hline.last _ hlast) (by decide)

/-- **A pin is read as it was written.** -/
theorem ReadablePin.parseLine_pinLine (h : ReadablePin identity fp) (pins : HashMap String String) :
    parseLine pins (pinLine identity fp) =
      pins.insert (String.ofList identity) (String.ofList fp) := by
  have htrim : trim (pinLine identity fp) = pinLine identity fp :=
    (h.trimmed_identity.append h.trimmed [' ']).trimBy_eq
  have hskip : ((pinLine identity fp).isEmpty || (pinLine identity fp).head? == some '#') =
      false := by
    have hhead : (pinLine identity fp).head? = identity.head? := by
      rw [pinLine, List.append_assoc, List.head?_append_of_ne_nil _ h.ne_nil]
    rw [hhead, Bool.or_eq_false_iff, List.isEmpty_eq_false_iff, beq_eq_false_iff_ne]
    exact ⟨h.pinLine_ne_nil, h.notComment⟩
  have hsplit : splitOnce isWhitespace (pinLine identity fp) = some (identity, fp) := by
    rw [pinLine, List.append_assoc]
    exact splitOnce_append h.noWhitespace (by decide) fp
  simp only [parseLine, htrim, hskip, hsplit, Bool.false_eq_true, if_false]
  rw [trim_eq, h.trimmed_identity.trimBy_eq, trim_eq, h.trimmed.trimBy_eq]

end Line

/-! ### What the parser reads is readable -/

/-- What a line without a line feed adds to readable pins is readable. -/
theorem readable_parseLine {pins : HashMap String String} (h : Readable pins) {line : List Char}
    (hline : '\n' ∉ line) : Readable (parseLine pins line) := by
  unfold parseLine
  dsimp only
  split_ifs with hskip
  · exact h
  · rw [Bool.or_eq_true, not_or, List.isEmpty_iff, beq_iff_eq] at hskip
    have htrimmed : Trimmed isWhitespace (trim line) := trimmed_trimBy hskip.1
    cases hsplit : splitOnce isWhitespace (trim line) with
    | none => exact h
    | some parts =>
      obtain ⟨identity, rest⟩ := parts
      obtain ⟨hidentity, sep, hsep, heq⟩ := splitOnce_eq_some hsplit
      obtain ⟨hne, hrest⟩ := (heq ▸ htrimmed).ne_nil_of_sep hsep
      have hkept : trim identity = identity := (trimmed_of_forall hne hidentity).trimBy_eq
      have hhead : identity.head? = (trim line).head? := by
        rw [heq, List.head?_append_of_ne_nil _ hne]
      refine h.insert ?_
      rw [String.toList_ofList, String.toList_ofList, hkept]
      refine ⟨hne, hidentity, hhead ▸ hskip.2, trimmed_trimBy hrest, fun hmem => hline ?_⟩
      -- every character of the fingerprint comes from the line
      have hin : '\n' ∈ trim line := by
        rw [heq]
        exact List.mem_append_right _ (List.mem_cons_of_mem _ ((trimBy_sublist _ _).mem hmem))
      exact (trimBy_sublist _ _).mem hin

/-- **Whatever a file contains, the pins read from it are readable.** -/
theorem readable_parseKnownHosts (contents : String) : Readable (parseKnownHosts contents) :=
  List.foldlRecOn (motive := Readable) _ _ readable_empty fun _ h _ hline =>
    readable_parseLine h (lineFeed_notMem_of_mem_lines hline)

theorem readable_openFile (contents : Option String) :
    Readable (PinStore.openFile contents).pins := by
  cases contents with
  | none => exact readable_empty
  | some contents => exact readable_parseKnownHosts contents

/-! ### The round trip -/

/-- The characters of some entries, one a line. -/
def bodyChars (entries : List (String × String)) : List Char :=
  entries.flatMap fun entry => pinLine entry.1.toList entry.2.toList ++ ['\n']

theorem toList_foldl_body (entries : List (String × String)) (start : String) :
    (entries.foldl (fun body entry => body ++ entry.1 ++ " " ++ entry.2 ++ "\n") start).toList =
      start.toList ++ bodyChars entries := by
  induction entries generalizing start with
  | nil => simp [bodyChars]
  | cons entry entries ih =>
    rw [List.foldl_cons, ih, bodyChars, bodyChars, List.flatMap_cons]
    simp [String.toList_append, pinLine]

theorem toList_body (s : PinStore) : s.body.toList = bodyChars s.entries := by
  rw [PinStore.body, toList_foldl_body, String.toList_empty, List.nil_append]

/-- The entries of a store with readable pins are readable, and no two are of one peer. -/
theorem Readable.entries {s : PinStore} (h : Readable s.pins) :
    (∀ entry ∈ s.entries, ReadablePin entry.1.toList entry.2.toList) ∧
      (s.entries.map Prod.fst).Nodup ∧
      ∀ entry, entry ∈ s.entries ↔ s.pins.get entry.1 = some entry.2 := by
  have hperm : s.entries.Perm s.pins.toList := List.perm_insertionSort _ _
  have hmem : ∀ entry, entry ∈ s.entries ↔ s.pins.get entry.1 = some entry.2 :=
    fun entry => hperm.mem_iff.trans HashMap.mem_toList
  exact ⟨fun entry hentry => h entry.1 entry.2 ((hmem entry).mp hentry),
    (hperm.map Prod.fst).nodup_iff.mpr (HashMap.nodup_keys_toList _), hmem⟩

/-- The lines of readable pins are read one after the other, and then what follows them. -/
theorem foldl_parseLine_lines (pins : HashMap String String) (entries : List (String × String))
    (h : ∀ entry ∈ entries, ReadablePin entry.1.toList entry.2.toList) (rest : List Char) :
    (lines (bodyChars entries ++ rest)).foldl parseLine pins =
      (lines rest).foldl parseLine
        (entries.foldl (fun pins entry => pins.insert entry.1 entry.2) pins) := by
  induction entries generalizing pins with
  | nil => rfl
  | cons entry entries ih =>
    have hentry := h entry List.mem_cons_self
    rw [bodyChars, List.flatMap_cons, ← bodyChars, List.append_assoc, List.append_assoc,
      List.singleton_append, hentry.lines_pinLine, List.foldl_cons, hentry.parseLine_pinLine,
      String.ofList_toList, String.ofList_toList, List.foldl_cons]
    exact ih _ fun entry' hentry' => h entry' (List.mem_cons_of_mem _ hentry')

/-- **The round trip.**  A file written from readable pins is read back as those pins. -/
theorem get_parseKnownHosts_body {s : PinStore} (h : Readable s.pins) (identity : String) :
    (parseKnownHosts s.body).get identity = s.pins.get identity := by
  obtain ⟨hpins, hnodup, hmem⟩ := h.entries
  have hbody := foldl_parseLine_lines ∅ s.entries hpins []
  rw [List.append_nil] at hbody
  rw [parseKnownHosts, toList_body, hbody, lines, List.foldl_nil]
  refine Option.ext fun fp => ?_
  rw [HashMap.get_foldl_insert hnodup, HashMap.get_empty, hmem (identity, fp)]
  simp

/-! ### A file cut short -/

/-- What the parser finds in the beginning of a line is a pin of the peer of the line. -/
private theorem identity_of_initial {identity fp part i rest : List Char}
    (h : ReadablePin identity fp) (hpart : part <+: pinLine identity fp)
    (hsplit : splitOnce isWhitespace (trim part) = some (i, rest)) : i = identity := by
  obtain ⟨before, after, hparts, hbefore, -⟩ := exists_trimBy isWhitespace part
  obtain ⟨hi, sep, hsep, htrim⟩ := splitOnce_eq_some hsplit
  obtain ⟨more, hmore⟩ := hpart
  rw [← trim_eq, htrim] at hparts
  -- the line does not start with whitespace
  have hnil : before = [] := by
    cases before with
    | nil => rfl
    | cons c before =>
      have happend : (identity ++ ' ' :: fp).head? = identity.head? :=
        List.head?_append_of_ne_nil identity h.ne_nil
      have hhead : identity.head? = some c := by
        rw [← happend]
        rw [pinLine, List.append_assoc, hparts] at hmore
        exact congrArg List.head? hmore.symm
      have hword := h.noWhitespace c (List.mem_of_mem_head? hhead)
      exact absurd (hword.symm.trans (hbefore c List.mem_cons_self)) (by decide)
  have hline : identity ++ ' ' :: fp = i ++ sep :: (rest ++ after ++ more) := by
    rw [pinLine, hparts, hnil] at hmore
    simpa using hmore.symm
  have hfirst := splitOnce_append h.noWhitespace (c := ' ') (by decide) fp
  rw [hline, splitOnce_append hi hsep] at hfirst
  exact (Prod.mk.inj (Option.some.inj hfirst)).1

/-- The beginning of a line leaves the pins of other peers as they are. -/
theorem get_parseLine_of_initial {entry : String × String} {part : List Char} {identity : String}
    (h : ReadablePin entry.1.toList entry.2.toList)
    (hpart : part <+: pinLine entry.1.toList entry.2.toList) (hne : entry.1 ≠ identity)
    (pins : HashMap String String) : (parseLine pins part).get identity = pins.get identity := by
  unfold parseLine
  dsimp only
  split_ifs
  · rfl
  · cases hsplit : splitOnce isWhitespace (trim part) with
    | none => rfl
    | some parts =>
      obtain ⟨i, rest⟩ := parts
      obtain rfl := identity_of_initial h hpart hsplit
      dsimp only
      rw [trim_eq, h.trimmed_identity.trimBy_eq, String.ofList_toList]
      exact HashMap.get_insert_of_ne _ _ (Ne.symm hne)

/-- So does a text that ends in the line. -/
theorem get_foldl_parseLine_of_initial_line {entry : String × String} {text : List Char}
    {identity : String} (h : ReadablePin entry.1.toList entry.2.toList)
    (htext : text <+: pinLine entry.1.toList entry.2.toList) (hne : entry.1 ≠ identity)
    (pins : HashMap String String) :
    ((lines text).foldl parseLine pins).get identity = pins.get identity := by
  by_cases hnil : text = []
  · rw [hnil]
    rfl
  · rw [lines_of_notMem (fun hmem => h.lineFeed_notMem (htext.mem hmem)) hnil, List.foldl_cons,
      List.foldl_nil]
    exact get_parseLine_of_initial h htext hne pins

/-- So does the beginning of the lines of other peers. -/
theorem get_foldl_parseLine_of_initial {entries : List (String × String)}
    (h : ∀ entry ∈ entries, ReadablePin entry.1.toList entry.2.toList) {identity : String}
    (hne : ∀ entry ∈ entries, entry.1 ≠ identity) {text : List Char}
    (htext : text <+: bodyChars entries) (pins : HashMap String String) :
    ((lines text).foldl parseLine pins).get identity = pins.get identity := by
  induction entries generalizing text pins with
  | nil =>
    rw [List.prefix_nil.mp htext]
    rfl
  | cons entry entries ih =>
    have hentry := h entry List.mem_cons_self
    have hother := hne entry List.mem_cons_self
    rw [bodyChars, List.flatMap_cons, ← bodyChars, List.append_assoc, List.singleton_append]
      at htext
    rcases List.prefix_or_prefix_of_prefix htext (List.prefix_append _ _) with hpart | ⟨rest, rfl⟩
    · -- the text ends in the line of the entry
      exact get_foldl_parseLine_of_initial_line hentry hpart hother pins
    · rw [List.prefix_append_right_inj] at htext
      cases rest with
      | nil =>
        rw [List.append_nil]
        exact get_foldl_parseLine_of_initial_line hentry (List.prefix_refl _) hother pins
      | cons c rest =>
        obtain ⟨rfl, hrest⟩ := List.cons_prefix_cons.mp htext
        rw [hentry.lines_pinLine, List.foldl_cons, ih (fun e he => h e (List.mem_cons_of_mem _ he))
          (fun e he => hne e (List.mem_cons_of_mem _ he)) hrest]
        exact get_parseLine_of_initial hentry (List.prefix_refl _) hother pins

/-- **A pin whose line is whole** is read from a file that has been cut behind it. -/
theorem get_parseKnownHosts_of_initial {s : PinStore} (h : Readable s.pins)
    {before after : List (String × String)} {pin : String × String}
    (hentries : s.entries = before ++ pin :: after) {text : String}
    (hline : bodyChars before ++ pinLine pin.1.toList pin.2.toList <+: text.toList)
    (htext : text.toList <+: bodyChars s.entries) :
    (parseKnownHosts text).get pin.1 = some pin.2 := by
  obtain ⟨hpins, hnodup, -⟩ := h.entries
  have hpin := hpins pin (hentries ▸ List.mem_append_right _ List.mem_cons_self)
  obtain ⟨rest, hrest⟩ := hline
  rw [List.append_assoc] at hrest
  rw [hentries, bodyChars, List.flatMap_append, ← bodyChars, List.flatMap_cons, ← bodyChars,
    ← hrest, List.prefix_append_right_inj, List.append_assoc, List.prefix_append_right_inj]
    at htext
  rw [parseKnownHosts, ← hrest, foldl_parseLine_lines _ _ fun entry hentry =>
    hpins entry (hentries ▸ List.mem_append_left _ hentry)]
  cases rest with
  | nil =>
    rw [List.append_nil, lines_of_notMem hpin.lineFeed_notMem hpin.pinLine_ne_nil, List.foldl_cons,
      List.foldl_nil, hpin.parseLine_pinLine, String.ofList_toList, String.ofList_toList]
    exact HashMap.get_insert_self _ _ _
  | cons c rest =>
    obtain ⟨rfl, hafter⟩ := List.cons_prefix_cons.mp htext
    have hother : ∀ entry ∈ after, entry.1 ≠ pin.1 := by
      rw [hentries, List.map_append, List.map_cons, List.nodup_append] at hnodup
      intro entry hentry heq
      exact (List.nodup_cons.mp hnodup.2.1).1 (heq ▸ List.mem_map_of_mem hentry)
    rw [hpin.lines_pinLine, List.foldl_cons, hpin.parseLine_pinLine, String.ofList_toList,
      String.ofList_toList, get_foldl_parseLine_of_initial (fun entry hentry =>
        hpins entry (hentries ▸ List.mem_append_right _ (List.mem_cons_of_mem _ hentry))) hother
        hafter]
    exact HashMap.get_insert_self _ _ _

end WayRay
