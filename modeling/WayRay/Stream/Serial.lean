import Mathlib.Tactic.NormNum
import Mathlib.Data.List.Basic

/-!
# Serial formats

A `Serial α` writes values of `α` as bytes and reads one back from the front of a byte string; what
it writes it reads back, whatever follows.  Formats are built from each other: `convert` along two
functions, `pair`, `list` with the number of elements before them, and `tagged` for a variant of an
enumeration.

Numbers are little-endian in groups of seven bits, the high bit of each byte but the last being set;
their size is bounded on both sides.
-/

universe u v

/-! ### Numbers -/

/-- Write a number in at most this many bytes of seven bits each. -/
def writeVarint : (bytes : ℕ) → ℕ → List UInt8
  | 0, _ => []
  | bytes + 1, n =>
    if n < 128 then [UInt8.ofNat n]
    else UInt8.ofNat (n % 128 + 128) :: writeVarint bytes (n / 128)

/-- Read a number of at most this many bytes. -/
def readVarint : (bytes : ℕ) → List UInt8 → Option (ℕ × List UInt8)
  | 0, _ => none
  | _ + 1, [] => none
  | bytes + 1, b :: rest =>
    if b.toNat < 128 then some (b.toNat, rest)
    else (readVarint bytes rest).map fun (n, rest) => (b.toNat % 128 + 128 * n, rest)

theorem readVarint_writeVarint {bytes n : ℕ} (hbytes : 0 < bytes) (hn : n < 128 ^ bytes)
    (rest : List UInt8) : readVarint bytes (writeVarint bytes n ++ rest) = some (n, rest) := by
  induction bytes generalizing n with
  | zero => exact absurd hbytes (lt_irrefl 0)
  | succ bytes ih =>
    unfold writeVarint
    split_ifs with hlast
    · have hbyte : (UInt8.ofNat n).toNat = n := by
        rw [UInt8.toNat_ofNat']
        omega
      rw [List.singleton_append, readVarint, hbyte, if_pos hlast]
    · have hbyte : (UInt8.ofNat (n % 128 + 128)).toNat = n % 128 + 128 := by
        rw [UInt8.toNat_ofNat']
        omega
      have hrest : n / 128 < 128 ^ bytes := by
        rw [pow_succ] at hn
        exact Nat.div_lt_of_lt_mul (by rwa [Nat.mul_comm])
      -- a number that goes on has a byte left
      have hleft : 0 < bytes := by
        by_contra hzero
        rw [Nat.eq_zero_of_not_pos hzero, pow_zero] at hrest
        omega
      have hvalue : (n % 128 + 128) % 128 + 128 * (n / 128) = n := by omega
      rw [List.cons_append, readVarint, hbyte, if_neg (by omega), ih hleft hrest]
      simp only [Option.map_some, hvalue]

/-! ### Formats -/

/-- A format for the values of a type. -/
structure Serial (α : Type u) where
  write : α → Option (List UInt8)
  /-- Read a value; the bytes after it remain. -/
  read : List UInt8 → Option (α × List UInt8)
  read_write : ∀ {a bytes}, write a = some bytes → ∀ rest, read (bytes ++ rest) = some (a, rest)

namespace Serial

variable {α : Type u} {β : Type v}

/-- A byte as it is. -/
def byte : Serial UInt8 where
  write b := some [b]
  read
    | [] => none
    | b :: rest => some (b, rest)
  read_write := by
    rintro b _ ⟨⟩ rest
    rfl

/-- A number below `bound` in at most this many bytes. -/
def varint (bytes bound : ℕ) (hbytes : 0 < bytes) (h : bound ≤ 128 ^ bytes) : Serial ℕ where
  write n := if n < bound then some (writeVarint bytes n) else none
  read input := (readVarint bytes input).filter fun p => p.1 < bound
  read_write := by
    intro n written hn rest
    split_ifs at hn with hbound
    obtain rfl := Option.some.inj hn
    rw [readVarint_writeVarint hbytes (hbound.trans_le h), Option.filter_some, if_pos (by simpa)]

/-- Write a value as what `into` makes of it. -/
def convert (s : Serial α) (into : β → α) (back : α → Option β)
    (h : ∀ b, back (into b) = some b) : Serial β where
  write b := s.write (into b)
  read input := (s.read input).bind fun (a, rest) => (back a).map fun b => (b, rest)
  read_write := by
    intro b bytes hb rest
    simp only [s.read_write hb, Option.bind_some, h, Option.map_some]

/-- One value after the other. -/
def pair (s : Serial α) (t : Serial β) : Serial (α × β) where
  write p := (s.write p.1).bind fun first => (t.write p.2).map fun second => first ++ second
  read input := (s.read input).bind fun (a, rest) =>
    (t.read rest).map fun (b, rest) => ((a, b), rest)
  read_write := by
    rintro ⟨a, b⟩ bytes hp rest
    obtain ⟨first, hfirst, hp⟩ := Option.bind_eq_some_iff.mp hp
    obtain ⟨second, hsecond, rfl⟩ := Option.map_eq_some_iff.mp hp
    simp only [List.append_assoc, s.read_write hfirst, Option.bind_some, t.read_write hsecond,
      Option.map_some]

theorem write_pair {s : Serial α} {t : Serial β} {a : α} {b : β} {first second : List UInt8}
    (ha : s.write a = some first) (hb : t.write b = some second) :
    (s.pair t).write (a, b) = some (first ++ second) := by
  simp only [pair, ha, hb, Option.bind_some, Option.map_some]

/-- Write values one after the other. -/
def writeAll (s : Serial α) (values : List α) : Option (List UInt8) :=
  (values.mapM s.write).map List.flatten

/-- Read this many values. -/
def readMany (s : Serial α) : ℕ → List UInt8 → Option (List α × List UInt8)
  | 0, input => some ([], input)
  | n + 1, input => (s.read input).bind fun (a, rest) =>
    (s.readMany n rest).map fun (values, rest) => (a :: values, rest)

theorem readMany_writeAll (s : Serial α) {values : List α} {bytes : List UInt8}
    (h : s.writeAll values = some bytes) (rest : List UInt8) :
    s.readMany values.length (bytes ++ rest) = some (values, rest) := by
  induction values generalizing bytes with
  | nil =>
    obtain rfl : [] = bytes := Option.some.inj h
    rfl
  | cons a values ih =>
    obtain ⟨parts, hparts, rfl⟩ := Option.map_eq_some_iff.mp h
    rw [List.mapM_cons] at hparts
    obtain ⟨first, hfirst, hparts⟩ := Option.bind_eq_some_iff.mp hparts
    obtain ⟨later, hlater, hjoin⟩ := Option.bind_eq_some_iff.mp hparts
    obtain rfl := Option.some.inj hjoin
    have hwritten : s.writeAll values = some later.flatten :=
      Option.map_eq_some_iff.mpr ⟨later, hlater, rfl⟩
    simp only [List.length_cons, List.flatten_cons, List.append_assoc, readMany,
      s.read_write hfirst, Option.bind_some, ih hwritten, Option.map_some]

/-- The number of values, then the values. -/
def list (count : Serial ℕ) (s : Serial α) : Serial (List α) where
  write values := (count.write values.length).bind fun number =>
    (s.writeAll values).map fun bytes => number ++ bytes
  read input := (count.read input).bind fun (n, rest) => s.readMany n rest
  read_write := by
    intro values bytes h rest
    obtain ⟨number, hnumber, h⟩ := Option.bind_eq_some_iff.mp h
    obtain ⟨written, hwritten, rfl⟩ := Option.map_eq_some_iff.mp h
    simp only [List.append_assoc, count.read_write hnumber, Option.bind_some,
      s.readMany_writeAll hwritten]

theorem write_list {count : Serial ℕ} {s : Serial α} {values : List α} {number bytes : List UInt8}
    (hcount : count.write values.length = some number) (hvalues : s.writeAll values = some bytes) :
    (list count s).write values = some (number ++ bytes) := by
  simp only [list, hcount, hvalues, Option.bind_some, Option.map_some]

theorem writeAll_singleton {s : Serial α} {a : α} {bytes : List UInt8}
    (h : s.write a = some bytes) : s.writeAll [a] = some bytes := by
  simp [writeAll, h]

/-- The value of a variant of an enumeration, after the number of the variant. -/
def tagged (tag : Serial ℕ) (variant : ℕ) (s : Serial α) : Serial α :=
  (tag.pair s).convert (fun a => (variant, a)) (fun p => if p.1 = variant then some p.2 else none)
    fun _ => if_pos rfl

/-- Bytes are written as they are. -/
theorem writeAll_byte (bytes : List UInt8) : byte.writeAll bytes = some bytes := by
  have hmap : bytes.mapM byte.write = some (bytes.map fun b => [b]) := by
    induction bytes with
    | nil => rfl
    | cons b bytes ih =>
      rw [List.mapM_cons, ih]
      rfl
  rw [writeAll, hmap, Option.map_some, ← List.flatMap_def, List.flatMap_singleton']

end Serial
