import WayRay.Clipboard.Capping
import WayRay.Collections.GuardedRun
import WayRay.Protocol.KnownHosts

/-!
# Pin stores and their file

What `verify_or_remember` promises, taken together with the file it writes.

* A call that fails (`errorAtomic_iff`): the pin stays in memory, so the next call reports a match.
* One process at a time (`PinFile`): reopening the file yields the pins in memory, and for one peer
  one fingerprint is ever accepted (`tofu_persistent`).
* Several stores on one file (`SharedPins`): each empties the file and writes what it has read plus
  its own pins (`writePrivate`).  A pin that was remembered stays in the file as long as every store
  that writes knows all of them, and no write stops before their lines are whole
  (`remembered_kept`).
-/

namespace WayRay

open GuardedRun Utf8

/-- Whether a call of `verify_or_remember` accepts the fingerprint. -/
def PinOutcome.accepts : PinOutcome → Bool
  | .matched | .firstUse => true
  | .mismatch _ _ => false

/-- A peer identity that a line of the pin file can start with, such as a socket address. -/
structure PeerIdentity where
  str : String
  ne_nil : str.toList ≠ []
  noWhitespace : ∀ c ∈ str.toList, isWhitespace c = false
  notComment : str.toList.head? ≠ some '#'

/-- The fingerprint of a certificate is readable under a peer identity. -/
theorem PeerIdentity.readablePin (identity : PeerIdentity) (digest : Bytes → Bytes)
    (certDer : Bytes) :
    ReadablePin identity.str.toList (fingerprint digest certDer).toList where
  ne_nil := identity.ne_nil
  noWhitespace := identity.noWhitespace
  notComment := identity.notComment
  trimmed := trimmed_fingerprint digest certDer
  oneLine h := absurd (fingerprint_noWhitespace digest certDer _ h) (by decide)

namespace PinStore

/-! ### One call -/

section Calls

variable {s : PinStore} {identity : String}

/-- For a known peer a call changes nothing, and accepts what matches its pin. -/
theorem verifyOrRemember_of_known (presented : String) {pin : String}
    (h : s.pins.get identity = some pin) (persisted : Except String Unit) :
    ∃ outcome, s.verifyOrRemember identity presented persisted = (.ok outcome, s) ∧
      outcome ≠ .firstUse ∧
      (outcome.accepts = true ↔ fingerprintsMatch presented pin = true) := by
  cases hmatch : fingerprintsMatch presented pin with
  | true =>
    refine ⟨.matched, ?_, PinOutcome.noConfusion, iff_of_true rfl rfl⟩
    simp [verifyOrRemember, h, hmatch]
  | false =>
    refine ⟨.mismatch pin presented, ?_, PinOutcome.noConfusion, iff_of_false ?_ ?_⟩
    · simp [verifyOrRemember, h, hmatch]
    · exact Bool.false_ne_true
    · exact Bool.false_ne_true

/-- An unknown peer is remembered, also if the file cannot be written. -/
theorem verifyOrRemember_of_unknown (presented : String) (h : s.pins.get identity = none)
    (persisted : Except String Unit) :
    s.verifyOrRemember identity presented persisted =
      (persisted.map fun _ => .firstUse, ⟨s.pins.insert identity presented⟩) := by
  rw [verifyOrRemember, h]

end Calls

/-! ### Calls that fail -/

/-- A call that answers with an error leaves the store as it was: a following call for the same peer
reports no match, and the verifier decides as it would have decided before. -/
def ErrorAtomic (s : PinStore) (identity presented : String) (persisted : Except String Unit) :
    Prop :=
  (s.verifyOrRemember identity presented persisted).1.isOk = false →
    (s.verifyOrRemember identity presented persisted).2.get = s.get ∧
      ∀ presented' persisted',
        ((s.verifyOrRemember identity presented persisted).2.verifyOrRemember identity presented'
          persisted').1 ≠ .ok .matched ∧
        ((PinPolicy.tofu identity).checkPin (s.verifyOrRemember identity presented persisted).2
          presented' persisted').1.isOk =
        ((PinPolicy.tofu identity).checkPin s presented' persisted').1.isOk

/-- **A call is atomic exactly if it does not fail**: if the peer is known, or the file can be
written. -/
theorem errorAtomic_iff (s : PinStore) (identity presented : String)
    (persisted : Except String Unit) :
    s.ErrorAtomic identity presented persisted ↔
      s.get identity ≠ none ∨ persisted.isOk = true := by
  cases hpin : s.pins.get identity with
  | some pin =>
    have hknown : s.get identity ≠ none := by
      rw [get, hpin]
      exact Option.some_ne_none pin
    refine iff_of_true (fun herror => ?_) (Or.inl hknown)
    obtain ⟨outcome, hcall, -⟩ := verifyOrRemember_of_known presented hpin persisted
    rw [hcall] at herror
    exact absurd herror Bool.noConfusion
  | none =>
    cases persisted with
    | ok written =>
      refine iff_of_true (fun herror => ?_) (Or.inr rfl)
      rw [verifyOrRemember_of_unknown presented hpin] at herror
      exact absurd herror Bool.noConfusion
    | error e =>
      refine iff_of_false (fun h => ?_) (by simp [get, hpin, Except.isOk, Except.toBool])
      have hcall : s.verifyOrRemember identity presented (.error e) =
          (.error e, ⟨s.pins.insert identity presented⟩) :=
        verifyOrRemember_of_unknown presented hpin (.error e)
      rw [ErrorAtomic, hcall] at h
      -- the pin is in memory
      have hkept := congrFun (h rfl).1 identity
      rw [get, get, HashMap.get_insert_self, hpin] at hkept
      exact Option.some_ne_none _ hkept

/-- A certificate that is rejected because its pin cannot be written is accepted by the next call,
which cannot write it either. -/
theorem rejected_then_accepted :
    let s : PinStore := ⟨∅⟩
    let policy := PinPolicy.tofu "10.0.0.1:4433"
    let readOnly : Except String Unit := .error "Read-only file system (os error 30)"
    let (first, s') := policy.checkPin s "sha256:aa" readOnly
    (s.verifyOrRemember "10.0.0.1:4433" "sha256:aa" readOnly).1.isOk = false ∧
      first = .error "pin store error: Read-only file system (os error 30)" ∧
      (policy.checkPin s' "sha256:aa" readOnly).1.isOk = true ∧
      (s'.verifyOrRemember "10.0.0.1:4433" "sha256:aa" readOnly).1 = .ok .matched ∧
      ¬ s.ErrorAtomic "10.0.0.1:4433" "sha256:aa" readOnly := by
  refine ⟨by decide, by decide, by decide +kernel, by decide +kernel, fun h => ?_⟩
  exact absurd (h (by decide)).1 fun heq => absurd (congrFun heq "10.0.0.1:4433") (by decide)

end PinStore

/-! ### One process at a time -/

/-- A pin file and the store that has it open. -/
structure PinFile where
  /-- The text of the file, if there is one. -/
  contents : Option String
  store : PinStore
  /-- The fingerprints accepted so far, with the peers that presented them. -/
  accepted : List (String × String)

/-- What a process does with its pin store; the file can be written. -/
inductive PinEvent where
  | verifyOrRemember (identity : PeerIdentity) (certDer : Bytes)
  | reopen

namespace PinFile

/-- A process opens its store. -/
def start (contents : Option String) : PinFile := ⟨contents, .openFile contents, []⟩

def step (digest : Bytes → Bytes) (p : PinFile) : PinEvent → PinFile
  | .verifyOrRemember identity certDer =>
    let presented := fingerprint digest certDer
    let (outcome, store) := p.store.verifyOrRemember identity.str presented (.ok ())
    { contents := if outcome.toOption = some .firstUse then some store.body else p.contents
      store := store
      accepted :=
        if outcome.toOption.any PinOutcome.accepts then p.accepted ++ [(identity.str, presented)]
        else p.accepted }
  | .reopen => { p with store := .openFile p.contents }

/-- The file after a list of events. -/
def run (digest : Bytes → Bytes) (contents : Option String) (events : List PinEvent) : PinFile :=
  events.foldl (step digest) (start contents)

/-- The file holds the pins in memory, and what has been accepted is the fingerprint of a
certificate and matches its pin. -/
structure Synced (digest : Bytes → Bytes) (p : PinFile) : Prop where
  readable : Readable p.store.pins
  file : ∀ identity, (PinStore.openFile p.contents).get identity = p.store.get identity
  pinned : ∀ entry ∈ p.accepted, ∃ pin certDer, p.store.get entry.1 = some pin ∧
    entry.2 = fingerprint digest certDer ∧ fingerprintsMatch entry.2 pin = true

variable {digest : Bytes → Bytes}

theorem synced_start (contents : Option String) : Synced digest (start contents) where
  readable := readable_openFile contents
  file _ := rfl
  pinned _ h := absurd h List.not_mem_nil

/-- A call for a known peer accepts what matches its pin. -/
private theorem synced_known {p : PinFile} (h : Synced digest p) {identity : PeerIdentity}
    {certDer : Bytes} {pin : String} (hpin : p.store.pins.get identity.str = some pin) :
    Synced digest (p.step digest (.verifyOrRemember identity certDer)) := by
  obtain ⟨outcome, hcall, hfirst, haccepts⟩ := PinStore.verifyOrRemember_of_known
    (fingerprint digest certDer) hpin (.ok ())
  simp only [step, hcall, Except.toOption, Option.any_some, Option.some.injEq, if_neg hfirst]
  refine ⟨h.readable, h.file, ?_⟩
  dsimp only
  split_ifs with haccepted
  · intro entry hentry
    rcases List.mem_append.mp hentry with hentry | hentry
    · exact h.pinned entry hentry
    · obtain rfl := List.mem_singleton.mp hentry
      exact ⟨pin, certDer, hpin, rfl, haccepts.mp haccepted⟩
  · exact h.pinned

/-- A call for an unknown peer remembers it, in memory and in the file. -/
private theorem synced_unknown {p : PinFile} (h : Synced digest p) {identity : PeerIdentity}
    {certDer : Bytes} (hpin : p.store.pins.get identity.str = none) :
    Synced digest (p.step digest (.verifyOrRemember identity certDer)) := by
  have hreadable := h.readable.insert (identity.readablePin digest certDer)
  simp only [step, PinStore.verifyOrRemember_of_unknown _ hpin, Except.map, Except.toOption,
    if_true]
  refine ⟨hreadable, ?_, ?_⟩
  · exact get_parseKnownHosts_body (s := ⟨p.store.pins.insert _ _⟩) hreadable
  · intro entry hentry
    simp only [Option.any_some, PinOutcome.accepts, if_true, List.mem_append,
      List.mem_singleton] at hentry
    rcases hentry with hentry | rfl
    · obtain ⟨pin, cert, hget, hrest⟩ := h.pinned entry hentry
      have hne : entry.1 ≠ identity.str := by
        intro heq
        rw [heq, PinStore.get, hpin] at hget
        exact Option.some_ne_none pin hget.symm
      exact ⟨pin, cert, (HashMap.get_insert_of_ne _ _ hne).trans hget, hrest⟩
    · exact ⟨_, certDer, HashMap.get_insert_self _ _ _, rfl, fingerprintsMatch_iff.mpr rfl⟩

theorem synced_step {p : PinFile} (h : Synced digest p) (event : PinEvent) :
    Synced digest (p.step digest event) := by
  cases event with
  | verifyOrRemember identity certDer =>
    cases hpin : p.store.pins.get identity.str with
    | some pin => exact synced_known h hpin
    | none => exact synced_unknown h hpin
  | reopen =>
    refine ⟨readable_openFile p.contents, fun _ => rfl, fun entry hentry => ?_⟩
    obtain ⟨pin, cert, hget, hrest⟩ := h.pinned entry hentry
    exact ⟨pin, cert, (h.file _).trans hget, hrest⟩

theorem synced_run (contents : Option String) (events : List PinEvent) :
    Synced digest (run digest contents events) :=
  List.foldlRecOn (motive := Synced digest) events _ (synced_start contents) fun _ h event _ =>
    synced_step h event

/-- **Trust on first use persists.**  Whatever the file contained at first, after every sequence of
calls and reopenings the file holds the pins in memory, and all the fingerprints that were ever
accepted for one peer are equal. -/
theorem tofu_persistent (digest : Bytes → Bytes) (contents : Option String)
    (events : List PinEvent) :
    let p := run digest contents events
    (∀ identity, (PinStore.openFile p.contents).get identity = p.store.get identity) ∧
      ∀ identity fp fp', (identity, fp) ∈ p.accepted → (identity, fp') ∈ p.accepted → fp = fp' := by
  intro p
  have h : Synced digest p := synced_run contents events
  refine ⟨h.file, fun identity fp fp' hfp hfp' => ?_⟩
  obtain ⟨pin, cert, hget, rfl, hmatch⟩ := h.pinned _ hfp
  obtain ⟨pin', cert', hget', rfl, hmatch'⟩ := h.pinned _ hfp'
  obtain rfl : pin = pin' := Option.some.inj (hget.symm.trans hget')
  rw [fingerprintsMatch_iff] at hmatch hmatch'
  exact fingerprint_eq_of_normalize (hmatch.trans hmatch'.symm)

end PinFile

/-! ### Writing the file -/

/-- How the attempt to write a file ends. -/
inductive PinWrite where
  /-- The file cannot be opened. -/
  | refused (error : String)
  /-- The file has been emptied, and so many bytes of the new contents are in it when an error
  comes; behind the last byte this is an error of setting its permissions. -/
  | stopped (written : ℕ) (error : String)
  | completed

def PinWrite.result : PinWrite → Except String Unit
  | .refused error | .stopped _ error => .error error
  | .completed => .ok ()

/-- The contents of the file after the attempt. -/
def writePrivate (contents : Option Bytes) (data : Bytes) : PinWrite → Option Bytes
  | .refused _ => contents
  | .stopped written _ => some (data.take written)
  | .completed => some data

namespace PinStore

/-- Open the store on the bytes of a file, which have to be UTF-8. -/
def openBytes : Option Bytes → Option PinStore
  | none => some (.openFile none)
  | some bytes => (fromUtf8 bytes).map fun contents => .openFile (some contents)

/-- A call of `verify_or_remember`, and what it does to the file. -/
def verifyAndPersist (s : PinStore) (contents : Option Bytes) (identity presented : String)
    (write : PinWrite) : Except String PinOutcome × PinStore × Option Bytes :=
  let (outcome, s') := s.verifyOrRemember identity presented write.result
  (outcome, s',
    if s.get identity = none then writePrivate contents (intoBytes s'.body) write else contents)

/-- The line of a pin is whole in the first bytes that the store writes, and these do not end within
a character. -/
def KeepsLine (s : PinStore) (written : ℕ) (pin : String × String) : Prop :=
  (fromUtf8 ((intoBytes s.body).take written)).isSome ∧
    ∃ before after, s.entries = before ++ pin :: after ∧
      (encode (bodyChars before ++ pinLine pin.1.toList pin.2.toList)).length ≤ written

/-- What keeps a remembered pin in the file when the store adds a pin to it: the store knows the
remembered pin, or adds it; and a write that stops half way has come behind its line. -/
def Keeps (s : PinStore) (added pin : String × String) : PinWrite → Prop
  | .refused _ => True
  | .stopped written _ => KeepsLine ⟨s.pins.insert added.1 added.2⟩ written pin
  | .completed => s.get pin.1 = some pin.2 ∨ pin = added

variable {s : PinStore}

theorem readable_openBytes {contents : Option Bytes} (h : openBytes contents = some s) :
    Readable s.pins := by
  cases contents with
  | none =>
    obtain rfl := Option.some.inj h
    exact readable_openFile none
  | some bytes =>
    obtain ⟨text, -, rfl⟩ := Option.map_eq_some_iff.mp h
    exact readable_openFile (some text)

/-- What a store writes is read back. -/
theorem openBytes_body (h : Readable s.pins) :
    ∃ opened, openBytes (some (intoBytes s.body)) = some opened ∧
      ∀ identity, opened.get identity = s.get identity := by
  refine ⟨.openFile (some s.body), ?_, get_parseKnownHosts_body h⟩
  rw [openBytes, fromUtf8_intoBytes]
  rfl

/-- **A write that stops keeps the pins whose lines are whole.** -/
theorem KeepsLine.openBytes {written : ℕ} {pin : String × String}
    (hkeeps : s.KeepsLine written pin) (h : Readable s.pins) :
    ∃ opened, openBytes (some ((intoBytes s.body).take written)) = some opened ∧
      opened.get pin.1 = some pin.2 := by
  obtain ⟨hvalid, before, after, hentries, hlength⟩ := hkeeps
  obtain ⟨text, htext⟩ := Option.isSome_iff_exists.mp hvalid
  refine ⟨.openFile (some text), by rw [PinStore.openBytes, htext]; rfl, ?_⟩
  -- what has been written is a beginning of the body, and so is everything up to the line
  have hbytes : encode text.toList = (encode (bodyChars s.entries)).take written := by
    rw [← intoBytes_eq_encode, ← fromUtf8_eq_some.mp htext, intoBytes_eq_encode, toList_body]
  have hwritten : encode text.toList <+: encode (bodyChars s.entries) :=
    hbytes ▸ List.take_prefix _ _
  have hline : bodyChars before ++ pinLine pin.1.toList pin.2.toList <+: bodyChars s.entries := by
    rw [hentries, bodyChars, bodyChars, List.flatMap_append, List.prefix_append_right_inj,
      List.flatMap_cons, List.append_assoc]
    exact List.prefix_append _ _
  refine get_parseKnownHosts_of_initial h hentries (initial_of_encode ?_)
    (initial_of_encode hwritten)
  refine List.prefix_of_prefix_length_le (encode_initial hline) hwritten ?_
  rw [hbytes, List.length_take]
  exact le_min hlength (encode_initial hline).length_le

section Calls

variable {identity : String} (contents : Option Bytes) (presented : String) (write : PinWrite)

/-- For a known peer the file stays as it is. -/
theorem verifyAndPersist_of_known {pin : String} (h : s.pins.get identity = some pin) :
    ∃ outcome, s.verifyAndPersist contents identity presented write =
      (.ok outcome, s, contents) ∧ outcome ≠ .firstUse := by
  obtain ⟨outcome, hcall, hfirst, -⟩ := verifyOrRemember_of_known presented h write.result
  refine ⟨outcome, ?_, hfirst⟩
  simp [verifyAndPersist, hcall, get, h]

/-- For an unknown peer it is written. -/
theorem verifyAndPersist_of_unknown (h : s.pins.get identity = none) :
    s.verifyAndPersist contents identity presented write =
      (write.result.map fun _ => .firstUse, ⟨s.pins.insert identity presented⟩,
        writePrivate contents (intoBytes (body ⟨s.pins.insert identity presented⟩)) write) := by
  simp [verifyAndPersist, verifyOrRemember_of_unknown _ h, get, h]

end Calls

end PinStore

/-! ### Several stores on one file -/

/-- A pin file and the stores that have been opened on it. -/
structure SharedPins where
  /-- The bytes of the file, if there is one. -/
  contents : Option Bytes
  stores : List PinStore
  /-- The pins that a call has reported as remembered on first use. -/
  remembered : List (String × String)

/-- What processes do with the pin file that they share. -/
inductive SharedEvent where
  /-- A store is opened; if the file cannot be read, the process goes on with another file. -/
  | openFile
  | verifyOrRemember (store : ℕ) (identity : PeerIdentity) (certDer : Bytes) (write : PinWrite)

/-- The event writes nothing, or no write of it stops half way. -/
def SharedEvent.NotStopped : SharedEvent → Prop
  | .verifyOrRemember _ _ _ (.stopped _ _) => False
  | _ => True

namespace SharedPins

/-- The pin file before any store is opened. -/
def start (contents : Option Bytes) : SharedPins := ⟨contents, [], []⟩

def step (digest : Bytes → Bytes) (p : SharedPins) : SharedEvent → SharedPins
  | .openFile => { p with stores := p.stores ++ (PinStore.openBytes p.contents).toList }
  | .verifyOrRemember i identity certDer write =>
    match p.stores[i]? with
    | none => p
    | some s =>
      let presented := fingerprint digest certDer
      let (outcome, s, contents) := s.verifyAndPersist p.contents identity.str presented write
      { contents := contents
        stores := p.stores.set i s
        remembered :=
          if outcome.toOption = some .firstUse then p.remembered ++ [(identity.str, presented)]
          else p.remembered }

/-- Every pin that was remembered is read from the file. -/
def Kept (p : SharedPins) : Prop :=
  ∀ pin ∈ p.remembered, ∃ opened, PinStore.openBytes p.contents = some opened ∧
    opened.get pin.1 = some pin.2

/-- A store that is about to add a pin keeps every pin that was remembered. -/
def KnowsAll (digest : Bytes → Bytes) (p : SharedPins) : SharedEvent → Prop
  | .openFile => True
  | .verifyOrRemember i identity certDer write => ∀ s, p.stores[i]? = some s →
    s.get identity.str = none → ∀ pin ∈ p.remembered,
      s.Keeps (identity.str, fingerprint digest certDer) pin write

/-- All stores hold readable pins. -/
def AllReadable (p : SharedPins) : Prop := ∀ s ∈ p.stores, Readable s.pins

variable {digest : Bytes → Bytes}

theorem allReadable_step {p : SharedPins} (h : p.AllReadable) (event : SharedEvent) :
    (p.step digest event).AllReadable := by
  cases event with
  | openFile =>
    intro s hs
    rcases List.mem_append.mp hs with hs | hs
    · exact h s hs
    · exact PinStore.readable_openBytes (Option.mem_toList.mp hs)
  | verifyOrRemember i identity certDer write =>
    dsimp only [step]
    cases hi : p.stores[i]? with
    | none => exact h
    | some s =>
      have hs : Readable s.pins := h s (List.mem_of_getElem? hi)
      intro s' hs'
      rcases List.mem_or_eq_of_mem_set hs' with hs' | rfl
      · exact h s' hs'
      · cases hpin : s.pins.get identity.str with
        | some pin =>
          obtain ⟨outcome, hcall, -⟩ := PinStore.verifyAndPersist_of_known
            p.contents (fingerprint digest certDer) write hpin
          rw [hcall]
          exact hs
        | none =>
          rw [PinStore.verifyAndPersist_of_unknown _ _ _ hpin]
          exact hs.insert (identity.readablePin digest certDer)

/-- A step leaves the file and what was remembered as they are, and asks for nothing, unless a store
adds a pin. -/
theorem step_cases (digest : Bytes → Bytes) (p : SharedPins) (event : SharedEvent) :
    ((p.step digest event).contents = p.contents ∧
      (p.step digest event).remembered = p.remembered ∧ p.KnowsAll digest event) ∨
    ∃ i identity certDer write s, event = .verifyOrRemember i identity certDer write ∧
      p.stores[i]? = some s ∧ s.pins.get identity.str = none ∧
      let added := (identity.str, fingerprint digest certDer)
      let store : PinStore := ⟨s.pins.insert added.1 added.2⟩
      (p.step digest event).contents = writePrivate p.contents (intoBytes store.body) write ∧
        (p.step digest event).remembered =
          if write.result.isOk then p.remembered ++ [added] else p.remembered := by
  cases event with
  | openFile => exact .inl ⟨rfl, rfl, trivial⟩
  | verifyOrRemember i identity certDer write =>
    cases hi : p.stores[i]? with
    | none => exact .inl ⟨by simp [step, hi], by simp [step, hi], by simp [KnowsAll, hi]⟩
    | some s =>
      cases hpin : s.pins.get identity.str with
      | some pin =>
        obtain ⟨outcome, hcall, hfirst⟩ := PinStore.verifyAndPersist_of_known
          p.contents (fingerprint digest certDer) write hpin
        refine .inl ⟨by simp [step, hi, hcall], by simp [step, hi, hcall, hfirst, Except.toOption],
          ?_⟩
        intro s' hs' hnone
        obtain rfl := Option.some.inj (hi.symm.trans hs')
        exact absurd (hpin.symm.trans hnone) (Option.some_ne_none pin)
      | none =>
        have hcall := PinStore.verifyAndPersist_of_unknown
          p.contents (fingerprint digest certDer) write hpin
        refine .inr ⟨i, identity, certDer, write, s, rfl, hi, hpin, by simp [step, hi, hcall], ?_⟩
        cases write <;> simp [step, hi, hcall, PinWrite.result, Except.map, Except.toOption,
          Except.isOk, Except.toBool]

/-- A map with a new pin holds it and the pins remembered before exactly if the map without it holds
them, except possibly the new one. -/
theorem insert_holds_iff {pins : HashMap String String} {identity fp : String}
    (hpin : pins.get identity = none) {remembered : List (String × String)} :
    (∀ pin ∈ remembered ++ [(identity, fp)],
        (pins.insert identity fp).get pin.1 = some pin.2) ↔
      ∀ pin ∈ remembered, pins.get pin.1 = some pin.2 ∨ pin = (identity, fp) := by
  constructor
  · intro hholds pin hmem
    have hget := hholds pin (List.mem_append_left _ hmem)
    rw [HashMap.get_insert] at hget
    split_ifs at hget with heq
    · exact .inr (Prod.ext heq (Option.some.inj hget).symm)
    · exact .inl hget
  · intro hknown pin hmem
    have hnew : (pins.insert identity fp).get identity = some fp := HashMap.get_insert_self _ _ _
    rcases List.mem_append.mp hmem with hmem | hmem
    · rcases hknown pin hmem with hget | rfl
      · have hne : pin.1 ≠ identity := by
          intro heq
          rw [heq, hpin] at hget
          exact Option.some_ne_none _ hget.symm
        rw [HashMap.get_insert_of_ne _ _ hne, hget]
      · exact hnew
    · rw [List.mem_singleton.mp hmem]
      exact hnew

/-- **A write that is completed keeps the remembered pins exactly if the store keeps them.** -/
theorem kept_completed_iff {p : SharedPins} {pins : HashMap String String} {identity fp : String}
    (h : Readable (pins.insert identity fp)) (hpin : pins.get identity = none)
    (hcontents : p.contents = some (intoBytes (PinStore.body ⟨pins.insert identity fp⟩)))
    {remembered : List (String × String)}
    (hremembered : p.remembered = remembered ++ [(identity, fp)]) :
    p.Kept ↔ ∀ pin ∈ remembered, (⟨pins⟩ : PinStore).Keeps (identity, fp) pin .completed := by
  obtain ⟨opened, hopened, hget⟩ := PinStore.openBytes_body (s := ⟨pins.insert identity fp⟩) h
  have hkept : p.Kept ↔
      ∀ pin ∈ remembered ++ [(identity, fp)], (pins.insert identity fp).get pin.1 = some pin.2 := by
    simp only [Kept, hcontents, hremembered, hopened, Option.some.injEq, exists_eq_left', hget]
    rfl
  rw [hkept, insert_holds_iff hpin]
  rfl

/-- **One step** keeps the remembered pins if a store that adds a pin keeps them. -/
theorem kept_step {p : SharedPins} (hreadable : p.AllReadable) (h : p.Kept) {event : SharedEvent}
    (hknows : p.KnowsAll digest event) : (p.step digest event).Kept := by
  rcases step_cases digest p event with
    ⟨hcontents, hremembered, -⟩ | ⟨i, identity, certDer, write, s, rfl, hi, hpin, hcontents,
      hremembered⟩
  · rw [Kept, hcontents, hremembered]
    exact h
  · have hinsert := (hreadable s (List.mem_of_getElem? hi)).insert
      (identity.readablePin digest certDer)
    have hkeeps := hknows s hi hpin
    cases write with
    | refused error =>
      rw [Kept, hcontents, hremembered]
      exact h
    | stopped written error =>
      rw [Kept, hcontents, hremembered]
      exact fun pin hmem => (hkeeps pin hmem).openBytes hinsert
    | completed => exact (kept_completed_iff hinsert hpin hcontents hremembered).mpr hkeeps

/-- Conversely it keeps them, if its write does not stop half way. -/
theorem knowsAll_of_kept {p : SharedPins} (hreadable : p.AllReadable) {event : SharedEvent}
    (hstopped : event.NotStopped) (h : (p.step digest event).Kept) : p.KnowsAll digest event := by
  rcases step_cases digest p event with
    ⟨-, -, hknows⟩ | ⟨i, identity, certDer, write, s, rfl, hi, hpin, hcontents, hremembered⟩
  · exact hknows
  · intro s' hs' _
    obtain rfl := Option.some.inj (hi.symm.trans hs')
    have hinsert := (hreadable s (List.mem_of_getElem? hi)).insert
      (identity.readablePin digest certDer)
    cases write with
    | refused error => exact fun _ _ => trivial
    | stopped written error => exact hstopped.elim
    | completed => exact (kept_completed_iff hinsert hpin hcontents hremembered).mp h

/-- **No pin is lost as long as every store that writes keeps all of them**, and only then, unless a
write stops half way. -/
theorem remembered_kept (digest : Bytes → Bytes) (contents : Option Bytes)
    (events : List SharedEvent) :
    (Along (step digest) (KnowsAll digest) (start contents) events →
      ∀ pre, pre <+: events → (pre.foldl (step digest) (start contents)).Kept) ∧
    ((∀ event ∈ events, event.NotStopped) →
      (∀ pre, pre <+: events → (pre.foldl (step digest) (start contents)).Kept) →
        Along (step digest) (KnowsAll digest) (start contents) events) := by
  have hstart : (start contents).AllReadable := fun _ hs => absurd hs List.not_mem_nil
  constructor
  · rintro h pre ⟨post, rfl⟩
    exact (h.of_append.invariant (I := fun p => p.AllReadable ∧ p.Kept)
      (fun _ event h hknows => ⟨allReadable_step h.1 event, kept_step h.1 h.2 hknows⟩)
      ⟨hstart, fun _ hpin => absurd hpin List.not_mem_nil⟩).2
  · intro hstopped h
    refine along_iff_forall_split.mpr fun pre event post hevents => ?_
    have hreadable : (pre.foldl (step digest) (start contents)).AllReadable :=
      List.foldlRecOn (motive := AllReadable) pre _ hstart fun _ h event _ =>
        allReadable_step h event
    have hkept := h (pre ++ [event]) ⟨post, by rw [hevents, List.append_assoc]; rfl⟩
    rw [List.foldl_append] at hkept
    exact knowsAll_of_kept hreadable (hstopped event (by simp [hevents])) hkept

/-! ### A pin lost -/

/-- The address of a server. -/
def firstServer : PeerIdentity := ⟨"10.0.0.1:4433", by decide, by simp [isWhitespace], by decide⟩

/-- The address of another server. -/
def secondServer : PeerIdentity := ⟨"10.0.0.2:4433", by decide, by simp [isWhitespace], by decide⟩

/-- SHA-256 on `b"hello"`. -/
def helloDigest : Bytes → Bytes := fun _ =>
  [0x2c, 0xf2, 0x4d, 0xba, 0x5f, 0xb0, 0xa3, 0x0e, 0x26, 0xe8, 0x3b, 0x2a, 0xc5, 0xb9, 0xe2, 0x9e,
    0x1b, 0x16, 0x1e, 0x5c, 0x1f, 0xa7, 0x42, 0x5e, 0x73, 0x04, 0x33, 0x62, 0x93, 0x8b, 0x98, 0x24]

/-- A client and a server open the pin file, then each remembers a server. -/
def twoWriters : List SharedEvent :=
  [.openFile, .openFile, .verifyOrRemember 0 firstServer [104, 101, 108, 108, 111] .completed,
    .verifyOrRemember 1 secondServer [104, 101, 108, 108, 111] .completed]

/-- **A pin lost.**  The second writer knows nothing of the pin of the first. -/
theorem twoWriters_lost :
    let p := twoWriters.foldl (step helloDigest) (start none)
    p.remembered.map Prod.fst = ["10.0.0.1:4433", "10.0.0.2:4433"] ∧
      ((PinStore.openBytes p.contents).bind fun opened => opened.get "10.0.0.1:4433") = none ∧
        ¬ p.Kept := by
  have hlost : ((PinStore.openBytes (twoWriters.foldl (step helloDigest)
      (start none)).contents).bind fun opened => opened.get "10.0.0.1:4433") = none := by
    decide +kernel
  refine ⟨by decide +kernel, hlost, fun h => ?_⟩
  obtain ⟨opened, hopened, hkept⟩ := h
    (firstServer.str, fingerprint helloDigest [104, 101, 108, 108, 111]) (by decide +kernel)
  rw [hopened, Option.bind_some] at hlost
  exact Option.some_ne_none _ (hkept.symm.trans hlost)

/-- A client remembers a server, and the write of its next pin stops in the second line. -/
def stoppedWriter : List SharedEvent :=
  [.openFile, .verifyOrRemember 0 firstServer [104, 101, 108, 108, 111] .completed,
    .verifyOrRemember 0 secondServer [104, 101, 108, 108, 111]
      (.stopped 100 "No space left on device (os error 28)")]

/-- The line of the remembered pin is whole by then. -/
theorem stoppedWriter_kept :
    let p := stoppedWriter.foldl (step helloDigest) (start none)
    p.remembered.map Prod.fst = ["10.0.0.1:4433"] ∧ p.Kept := by
  refine ⟨by decide +kernel, (remembered_kept helloDigest none stoppedWriter).1
    ⟨trivial, ?_, ?_, trivial⟩ stoppedWriter (List.prefix_refl _)⟩
  · exact fun s _ _ pin hmem => absurd hmem List.not_mem_nil
  · intro s hs _ pin hmem
    obtain rfl := Option.some.inj hs
    obtain rfl := List.mem_singleton.mp hmem
    exact ⟨by decide +kernel, [],
      [(secondServer.str, fingerprint helloDigest [104, 101, 108, 108, 111])],
      by decide +kernel, by decide +kernel⟩

/-- A write that stops at once loses the pins in the file. -/
example : (PinStore.openBytes ((stoppedWriter.dropLast ++
    [SharedEvent.verifyOrRemember 0 secondServer []
      (.stopped 0 "No space left on device (os error 28)")]).foldl (step helloDigest)
      (start none)).contents).map PinStore.entries = some [] := by
  decide +kernel

end SharedPins

end WayRay
