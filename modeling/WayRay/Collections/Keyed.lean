import Mathlib.Data.List.Sort

/-!
# Lists with keys

Entries of a list that are found by a key, and keys that a counter gives out.  Where no two entries
have the same key, an entry is found exactly if it is in the list (`find?_key_eq_some`), and so is a
value that it holds (`map_find?_eq_some`).  Sorting by the key puts them into an order that does not
depend on the one they came in (`sortByKey_eq`).
-/

namespace Keyed

universe u v w

variable {α : Type u} {κ : Type v} {β : Type w} {key : α → κ} {l : List α}

section Find

variable [DecidableEq κ] (hinj : ∀ ⦃a⦄, a ∈ l → ∀ ⦃b⦄, b ∈ l → key a = key b → a = b) {k : κ}

include hinj

/-- The entry found under a key is the one that has it. -/
theorem find?_key_eq_some {a : α} : (l.find? fun x => key x = k) = some a ↔ a ∈ l ∧ key a = k := by
  constructor
  · intro h
    have hkey := List.find?_some h
    exact ⟨List.mem_of_find?_eq_some h, of_decide_eq_true hkey⟩
  · rintro ⟨ha, rfl⟩
    cases hfind : l.find? fun x => key x = key a with
    | none =>
      have hnone := List.find?_eq_none.mp hfind a ha
      exact absurd (decide_eq_true rfl) hnone
    | some b =>
      have hkey := List.find?_some hfind
      have hb : b ∈ l := List.mem_of_find?_eq_some hfind
      rw [hinj hb ha (of_decide_eq_true hkey)]

/-- What the entry under a key holds. -/
theorem map_find?_eq_some {value : α → β} {b : β} :
    (l.find? fun x => key x = k).map value = some b ↔ ∃ a ∈ l, key a = k ∧ value a = b := by
  rw [Option.map_eq_some_iff]
  constructor
  · rintro ⟨a, hfind, hvalue⟩
    obtain ⟨ha, hkey⟩ := (find?_key_eq_some hinj).mp hfind
    exact ⟨a, ha, hkey, hvalue⟩
  · rintro ⟨a, ha, hkey, hvalue⟩
    exact ⟨a, (find?_key_eq_some hinj).mpr ⟨ha, hkey⟩, hvalue⟩

end Find

/-- Keys that all have a value make up a list of entries. -/
theorem exists_map_fst_eq {R : κ → β → Prop} {ks : List κ} (h : ∀ k ∈ ks, ∃ b, R k b) :
    ∃ entries : List (κ × β), entries.map Prod.fst = ks ∧ ∀ entry ∈ entries, R entry.1 entry.2 := by
  induction ks with
  | nil => exact ⟨[], rfl, nofun⟩
  | cons k ks ih =>
    obtain ⟨hk, hks⟩ := List.forall_mem_cons.mp h
    obtain ⟨b, hb⟩ := hk
    obtain ⟨entries, hmap, hentries⟩ := ih hks
    exact ⟨(k, b) :: entries, congrArg (k :: ·) hmap, List.forall_mem_cons.mpr ⟨hb, hentries⟩⟩

/-! ### Sorting -/

section Sorting

variable [LinearOrder κ]

/-- The entries in the order of their keys; entries with the same key stay in order. -/
def sortByKey (key : α → κ) (l : List α) : List α := l.insertionSort fun a b => key a ≤ key b

@[simp] theorem mem_sortByKey {a : α} : a ∈ sortByKey key l ↔ a ∈ l := List.mem_insertionSort _

/-- Different keys are strictly increasing. -/
theorem pairwise_sortByKey (hnodup : (l.map key).Nodup) :
    (sortByKey key l).Pairwise fun a b => key a < key b := by
  have : Std.Total fun a b : α => key a ≤ key b := ⟨fun a b => le_total (key a) (key b)⟩
  have : IsTrans α fun a b => key a ≤ key b := ⟨fun a b c => le_trans⟩
  have hsorted : (sortByKey key l).Pairwise fun a b => key a ≤ key b :=
    List.pairwise_insertionSort _ l
  have hperm : (sortByKey key l).Perm l := List.perm_insertionSort _ l
  have hne : (sortByKey key l).Pairwise fun a b => key a ≠ key b :=
    List.pairwise_map.mp ((hperm.map key).nodup_iff.mpr hnodup)
  exact (hsorted.and hne).imp fun h => lt_of_le_of_ne h.1 h.2

/-- Lists of the same entries with different keys are sorted alike. -/
theorem sortByKey_eq {l' : List α} (hnodup : (l.map key).Nodup) (hnodup' : (l'.map key).Nodup)
    (hmem : ∀ a, a ∈ l ↔ a ∈ l') : sortByKey key l = sortByKey key l' := by
  have : Std.Irrefl fun a b : α => key a < key b := ⟨fun a => lt_irrefl (key a)⟩
  have : Std.Antisymm fun a b : α => key a < key b := ⟨fun a b h h' => absurd h h'.not_gt⟩
  refine List.Pairwise.eq_of_mem_iff (pairwise_sortByKey hnodup) (pairwise_sortByKey hnodup') ?_
  intro a
  rw [mem_sortByKey, mem_sortByKey, hmem]

end Sorting

/-! ### Counters -/

/-- A key above those in use is not in use. -/
theorem notMem_map_of_lt {raw : κ → ℕ} {k : κ} (h : ∀ a ∈ l, raw (key a) < raw k) :
    k ∉ l.map key := by
  intro hmem
  obtain ⟨a, ha, rfl⟩ := List.mem_map.mp hmem
  exact Nat.lt_irrefl _ (h a ha)

/-- A counter stays above the numbers it has given out. -/
theorem lt_succ_of_mem_concat {raw : α → ℕ} {a : α} (h : ∀ x ∈ l, raw x < raw a) :
    ∀ x ∈ l ++ [a], raw x < raw a + 1 := by
  intro x hx
  rcases List.mem_append.mp hx with hold | hnew
  · exact Nat.lt_succ_of_lt (h x hold)
  · rw [List.mem_singleton.mp hnew]
    exact Nat.lt_succ_self _

end Keyed
