import WayRay.Collections.HashMap

/-!
# Certificate pinning

The pinning of `tls.rs`: a server's certificate is known by its fingerprint.  A configured
fingerprint is enforced (`PinPolicy.fixed`); without one the first fingerprint seen for a peer is
remembered in a `PinStore` and enforced from then on (`PinPolicy.tofu`).

The digest itself does not occur: a server presents the text that `fingerprint` makes of its
certificate.
-/

namespace WayRay

/-! ### Fingerprints -/

/-- `char::is_whitespace`: the Unicode property `White_Space`. -/
def isWhitespace (c : Char) : Bool :=
  let n := c.toNat
  (9 ≤ n && n ≤ 13) || n == 0x20 || n == 0x85 || n == 0xA0 || n == 0x1680 ||
    (0x2000 ≤ n && n ≤ 0x200A) || n == 0x2028 || n == 0x2029 || n == 0x202F || n == 0x205F ||
    n == 0x3000

/-- `str::trim` on characters. -/
def trim (s : List Char) : List Char :=
  ((s.dropWhile isWhitespace).reverse.dropWhile isWhitespace).reverse

/-- `str::strip_prefix` with what to do without the prefix. -/
def stripped (start s : List Char) : List Char :=
  if start.isPrefixOf s then s.drop start.length else s

/-- Normalize a user-supplied fingerprint for comparison: without the algorithm's name and without
separators, in lower case. -/
def normalizeFingerprint (fp : String) : String :=
  String.ofList (((stripped "sha256:".toList (trim fp.toList)).filter fun c =>
    !isWhitespace c && c != ':').map Char.toLower)

/-- Whether a presented fingerprint matches an expected pin. -/
def fingerprintsMatch (presented expected : String) : Bool :=
  normalizeFingerprint presented == normalizeFingerprint expected

theorem fingerprintsMatch_iff {presented expected : String} :
    fingerprintsMatch presented expected = true ↔
      normalizeFingerprint presented = normalizeFingerprint expected :=
  beq_iff_eq

/-! ### The pin store -/

/-- Outcome of consulting the pin store for a peer. -/
inductive PinOutcome where
  | matched
  /-- The peer was not known; its fingerprint has been recorded. -/
  | firstUse
  | mismatch (expected presented : String)
deriving DecidableEq

/-- The fingerprint first seen for each peer identity. -/
structure PinStore where
  pins : HashMap String String

namespace PinStore

/-- The recorded fingerprint of a peer. -/
def get (s : PinStore) (identity : String) : Option String := s.pins.get identity

/-- Verify a presented fingerprint, recording it on first use; `persisted` is what the attempt to
write the file comes to. -/
def verifyOrRemember (s : PinStore) (identity presented : String)
    (persisted : Except String Unit) : Except String PinOutcome × PinStore :=
  match s.pins.get identity with
  | some expected =>
    if fingerprintsMatch presented expected then (.ok .matched, s)
    else (.ok (.mismatch expected presented), s)
  | none =>
    -- recorded in memory even if the file is not written
    (persisted.map fun _ => .firstUse, ⟨s.pins.insert identity presented⟩)

end PinStore

/-! ### Policies -/

/-- How a server certificate is authenticated. -/
inductive PinPolicy where
  /-- Enforce exactly this fingerprint. -/
  | fixed (expected : String)
  /-- Trust on first use, under this identity. -/
  | tofu (identity : String)
deriving DecidableEq

namespace PinPolicy

/-- Check the fingerprint that a server presents. -/
def checkPin (policy : PinPolicy) (store : PinStore) (presented : String)
    (persisted : Except String Unit) : Except String Unit × PinStore :=
  match policy with
  | .fixed expected =>
    if fingerprintsMatch presented expected then (.ok (), store)
    else
      (.error ("server certificate fingerprint " ++ presented ++
        " does not match the configured pin " ++ expected ++ " (possible man-in-the-middle)"),
        store)
  | .tofu identity =>
    match store.verifyOrRemember identity presented persisted with
    | (.ok .matched, store) | (.ok .firstUse, store) => (.ok (), store)
    | (.ok (.mismatch expected presented), store) =>
      (.error ("server " ++ identity ++ " presented certificate " ++ presented ++
        " but is pinned to " ++ expected ++ " (possible man-in-the-middle)"), store)
    | (.error e, store) => (.error ("pin store error: " ++ e), store)

/-- The policy accepts exactly the certificates with the fingerprint, in whatever spelling, and
remembers nothing. -/
def Enforces (policy : PinPolicy) (fp : String) : Prop :=
  ∀ store presented persisted,
    ((policy.checkPin store presented persisted).1.isOk = true ↔
        fingerprintsMatch presented fp = true) ∧
      (policy.checkPin store presented persisted).2 = store

theorem enforces_fixed_iff {expected fp : String} :
    (fixed expected).Enforces fp ↔ fingerprintsMatch expected fp = true := by
  have hok : ∀ store presented persisted,
      ((fixed expected).checkPin store presented persisted).1.isOk =
        fingerprintsMatch presented expected := by
    intro store presented persisted
    rw [checkPin]
    split_ifs with hmatch
    · exact hmatch.symm
    · exact (Bool.eq_false_iff.mpr hmatch).symm
  constructor
  · intro h
    -- the configured certificate itself
    have hexpected := (h ⟨∅⟩ expected (.ok ())).1
    rw [hok] at hexpected
    exact hexpected.mp (fingerprintsMatch_iff.mpr rfl)
  · intro hpin store presented persisted
    constructor
    · rw [hok, fingerprintsMatch, fingerprintsMatch_iff.mp hpin, fingerprintsMatch]
    · rw [checkPin]
      split_ifs <;> rfl

/-- Trust on first use enforces nothing: it remembers whatever it sees first. -/
theorem not_enforces_tofu {identity fp : String} : ¬ (tofu identity).Enforces fp := by
  intro h
  have hstore : (⟨(∅ : HashMap String String).insert identity fp⟩ : PinStore) = ⟨∅⟩ :=
    (h ⟨∅⟩ fp (.ok ())).2
  have hpin : (∅ : HashMap String String).get identity = some fp := by
    rw [← PinStore.mk.inj hstore]
    exact HashMap.get_insert_self _ _ _
  exact Option.some_ne_none fp hpin.symm

end PinPolicy

end WayRay
