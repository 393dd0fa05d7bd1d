import Mathlib.Data.List.AList

/-!
# Hash maps

`HashMap K V` is a finite map from `K` to `V`: Mathlib's `AList`, whose entries carry the proof that
no key occurs twice, under the operations of `std::collections::HashMap` (`get`, `insert`, `remove`,
`retain`, `values`).  Each operation is characterized by what `get` returns afterwards
(`get_insert`, `get_remove`, `get_retain_eq_some`), and the lists of a map by membership
(`mem_values`, `mem_toList`), so no later proof looks at the entries.
-/

namespace WayRay

universe u v

/-- A finite map from `K` to `V`. -/
abbrev HashMap (K : Type u) (V : Type v) := AList (fun _ : K => V)

namespace HashMap

variable {K : Type u} {V : Type v} [DecidableEq K]

/-- The value stored under a key. -/
def get (m : HashMap K V) (k : K) : Option V := AList.lookup k m

/-- Store a value under a key, replacing the previous one. -/
def insert (m : HashMap K V) (k : K) (v : V) : HashMap K V := AList.insert k v m

/-- Drop a key. -/
def remove (m : HashMap K V) (k : K) : HashMap K V := AList.erase k m

/-- Whether a key is present. -/
def containsKey (m : HashMap K V) (k : K) : Bool := (m.get k).isSome

omit [DecidableEq K] in
private theorem nodupKeys_filter (m : HashMap K V) (p : K → V → Bool) :
    (m.entries.filter fun e => p e.1 e.2).NodupKeys :=
  List.NodupKeys.sublist List.filter_sublist m.nodupKeys

omit [DecidableEq K] in
/-- Keep the entries that satisfy a predicate. -/
def retain (m : HashMap K V) (p : K → V → Bool) : HashMap K V :=
  ⟨m.entries.filter fun e => p e.1 e.2, nodupKeys_filter m p⟩

omit [DecidableEq K] in
/-- The values, in the map's iteration order. -/
def values (m : HashMap K V) : List V := m.entries.map fun e => e.2

omit [DecidableEq K] in
/-- The entries as pairs, in the map's iteration order. -/
def toList (m : HashMap K V) : List (K × V) := m.entries.map fun e => (e.1, e.2)

/-! ### What `get` returns -/

theorem get_eq_some_iff {m : HashMap K V} {k : K} {v : V} :
    m.get k = some v ↔ (⟨k, v⟩ : Sigma fun _ : K => V) ∈ m.entries :=
  AList.mem_lookup_iff

@[simp] theorem get_empty (k : K) : (∅ : HashMap K V).get k = none :=
  AList.lookup_empty k

@[simp] theorem get_insert_self (m : HashMap K V) (k : K) (v : V) : (m.insert k v).get k = some v :=
  AList.lookup_insert m

theorem get_insert_of_ne (m : HashMap K V) {k k' : K} (v : V) (h : k' ≠ k) :
    (m.insert k v).get k' = m.get k' :=
  AList.lookup_insert_ne h

theorem get_insert (m : HashMap K V) (k k' : K) (v : V) :
    (m.insert k v).get k' = if k' = k then some v else m.get k' := by
  split_ifs with h
  · rw [h, get_insert_self]
  · exact get_insert_of_ne m v h

/-- **Storing an entry** keeps a property of all entries that the new one has. -/
theorem of_get_insert {m : HashMap K V} {P : K → V → Prop} {k k' : K} {v v' : V}
    (h : (m.insert k v).get k' = some v') (hnew : P k v) (hold : m.get k' = some v' → P k' v') :
    P k' v' := by
  rw [get_insert] at h
  split_ifs at h with hk
  · rwa [hk, ← Option.some.inj h]
  · exact hold h

@[simp] theorem get_remove_self (m : HashMap K V) (k : K) : (m.remove k).get k = none :=
  AList.lookup_erase k m

theorem get_remove_of_ne (m : HashMap K V) {k k' : K} (h : k' ≠ k) :
    (m.remove k).get k' = m.get k' :=
  AList.lookup_erase_ne h

theorem get_remove (m : HashMap K V) (k k' : K) :
    (m.remove k).get k' = if k' = k then none else m.get k' := by
  split_ifs with h
  · rw [h, get_remove_self]
  · exact get_remove_of_ne m h

theorem isSome_get_of_remove {m : HashMap K V} {k k' : K} (h : ((m.remove k).get k').isSome) :
    (m.get k').isSome := by
  rw [get_remove] at h
  split_ifs at h with hk
  · exact absurd h Bool.false_ne_true
  · exact h

theorem get_retain_eq_some {m : HashMap K V} {p : K → V → Bool} {k : K} {v : V} :
    (m.retain p).get k = some v ↔ m.get k = some v ∧ p k v = true := by
  rw [get_eq_some_iff, get_eq_some_iff]
  exact List.mem_filter

theorem get_retain (m : HashMap K V) (p : K → V → Bool) (k : K) :
    (m.retain p).get k = (m.get k).filter (p k) := by
  ext v
  rw [get_retain_eq_some, Option.filter_eq_some_iff]

/-- Exactly the keys that are absent can be dropped without a change. -/
theorem remove_eq_self_iff {m : HashMap K V} {k : K} : m.remove k = m ↔ m.get k = none := by
  constructor
  · intro h
    rw [← h, get_remove_self]
  · intro h
    have habsent : k ∉ m.entries.keys := AList.lookup_eq_none.mp h
    exact AList.ext (List.kerase_of_notMem_keys habsent)

theorem get_foldl_remove (m : HashMap K V) (keys : List K) (k : K) :
    (keys.foldl remove m).get k = if k ∈ keys then none else m.get k := by
  induction keys generalizing m with
  | nil => rfl
  | cons key keys ih =>
    rw [List.foldl_cons, ih, get_remove]
    by_cases hkey : k = key
    · simp [hkey]
    · simp [hkey]

/-- One value, stored under several keys. -/
theorem get_foldl_insert_const (m : HashMap K V) (keys : List K) (v : V) (k : K) :
    (keys.foldl (fun m key => m.insert key v) m).get k = if k ∈ keys then some v else m.get k := by
  induction keys generalizing m with
  | nil => rfl
  | cons key keys ih =>
    rw [List.foldl_cons, ih, get_insert]
    by_cases hkey : k = key
    · simp [hkey]
    · simp [hkey]

/-- The same of several keys, dropped one after the other. -/
theorem foldl_remove_eq_self_iff {m : HashMap K V} {keys : List K} :
    keys.foldl remove m = m ↔ ∀ k ∈ keys, m.get k = none := by
  constructor
  · intro h k hk
    rw [← h, get_foldl_remove, if_pos hk]
  · intro h
    induction keys with
    | nil => rfl
    | cons k keys ih =>
      rw [List.foldl_cons, remove_eq_self_iff.mpr (h k List.mem_cons_self)]
      exact ih fun k' hk' => h k' (List.mem_cons_of_mem k hk')

/-- Entries with different keys, stored one after the other. -/
theorem get_foldl_insert {entries : List (K × V)} (hnodup : (entries.map Prod.fst).Nodup)
    {m : HashMap K V} {k : K} {v : V} :
    (entries.foldl (fun m e => m.insert e.1 e.2) m).get k = some v ↔
      (k, v) ∈ entries ∨ k ∉ entries.map Prod.fst ∧ m.get k = some v := by
  induction entries generalizing m with
  | nil => simp
  | cons e entries ih =>
    rw [List.map_cons, List.nodup_cons] at hnodup
    rw [List.foldl_cons, ih hnodup.2, get_insert, List.map_cons, List.mem_cons, List.mem_cons,
      not_or]
    by_cases hk : k = e.1
    · subst hk
      have habsent : (e.1, v) ∉ entries := fun h => hnodup.1 (List.mem_map.mpr ⟨_, h, rfl⟩)
      simp only [habsent, if_true, Option.some.injEq, false_or, hnodup.1, not_false_eq_true,
        true_and, not_true_eq_false, false_and, or_false]
      exact ⟨fun h => Prod.ext rfl h.symm, fun h => congrArg Prod.snd h.symm⟩
    · have hne : (k, v) ≠ e := fun h => hk (congrArg Prod.fst h)
      simp only [hk, if_false, hne, false_or, not_false_eq_true, true_and]

/-! ### The lists of a map -/

theorem mem_values {m : HashMap K V} {v : V} : v ∈ m.values ↔ ∃ k, m.get k = some v := by
  simp only [values, List.mem_map, get_eq_some_iff]
  constructor
  · rintro ⟨⟨k, v'⟩, he, rfl⟩
    exact ⟨k, he⟩
  · rintro ⟨k, he⟩
    exact ⟨⟨k, v⟩, he, rfl⟩

theorem mem_keys {m : HashMap K V} {k : K} : k ∈ m.keys ↔ ∃ v, m.get k = some v := by
  rw [← Option.isSome_iff_exists]
  exact AList.lookup_isSome.symm

theorem mem_toList {m : HashMap K V} {k : K} {v : V} : (k, v) ∈ m.toList ↔ m.get k = some v := by
  simp only [toList, List.mem_map, get_eq_some_iff, Prod.mk.injEq]
  constructor
  · rintro ⟨⟨k', v'⟩, he, rfl, rfl⟩
    exact he
  · exact fun he => ⟨⟨k, v⟩, he, rfl, rfl⟩

omit [DecidableEq K] in
/-- No key occurs twice among the entries. -/
theorem nodup_keys_toList (m : HashMap K V) : (m.toList.map Prod.fst).Nodup := by
  have h : m.toList.map Prod.fst = m.keys := by
    simp [toList, AList.keys, List.keys, Function.comp_def]
  rw [h]
  exact m.keys_nodup

/-- A predicate that one key only satisfies leaves one value at most. -/
theorem length_filter_values_le_one {m : HashMap K V} {p : V → Bool}
    (h : ∀ k k' v v', m.get k = some v → m.get k' = some v' → p v = true → p v' = true → k = k') :
    (m.values.filter p).length ≤ 1 := by
  have hlength : (m.values.filter p).length = (m.entries.filter fun e => p e.2).length := by
    rw [values, List.filter_map, List.length_map]
    rfl
  have hnodup : (m.entries.filter fun e => p e.2).NodupKeys :=
    List.NodupKeys.sublist List.filter_sublist m.nodupKeys
  have hmem : ∀ e ∈ m.entries.filter (fun e => p e.2), m.get e.1 = some e.2 ∧ p e.2 = true :=
    fun e he => ⟨get_eq_some_iff.mpr (List.mem_filter.mp he).1, (List.mem_filter.mp he).2⟩
  rw [hlength]
  cases hentries : m.entries.filter fun e => p e.2 with
  | nil => exact Nat.zero_le 1
  | cons a rest =>
    cases rest with
    | nil => exact le_refl 1
    | cons b rest =>
      rw [hentries] at hnodup hmem
      obtain ⟨ha, hpa⟩ := hmem a List.mem_cons_self
      obtain ⟨hb, hpb⟩ := hmem b (List.mem_cons_of_mem _ List.mem_cons_self)
      -- the two entries would have one key
      have hkeys := (List.nodupKeys_cons.mp hnodup).1
      rw [h a.1 b.1 a.2 b.2 ha hb hpa hpb] at hkeys
      exact absurd (List.mem_map_of_mem List.mem_cons_self) hkeys

end HashMap

/-! ### Unspecified iteration order -/

/-- An order in which a container that promises none hands out its elements. -/
structure Enumeration (α : Type u) where
  order : List α → List α
  perm : ∀ l, (order l).Perm l

namespace Enumeration

variable {α : Type u}

/-- The order in which the elements are stored. -/
def stored : Enumeration α := ⟨id, fun _ => List.Perm.refl _⟩

@[simp] theorem mem_order (e : Enumeration α) {l : List α} {a : α} : a ∈ e.order l ↔ a ∈ l :=
  (e.perm l).mem_iff

end Enumeration

end WayRay
