import Mathlib.Logic.Embedding.Basic
import WayRay.Collections.HashMap

/-!
# Renaming keys

`HashMap.rename f g m` is the map `m` with its keys renamed by an injection `f` and its values
changed by `g`.  Renaming commutes with the operations of a map: `get_rename`, `rename_insert`,
`rename_remove`, `values_rename`.
-/

namespace WayRay

namespace HashMap

universe u v

variable {K K' : Type u} {V V' : Type v} [DecidableEq K] [DecidableEq K'] {f : K ↪ K'} {g : V → V'}

omit [DecidableEq K] [DecidableEq K'] in
private theorem nodupKeys_map (f : K ↪ K') (g : V → V') (m : HashMap K V) :
    (m.entries.map fun e => (⟨f e.1, g e.2⟩ : Sigma fun _ : K' => V')).NodupKeys := by
  have h : (m.entries.map fun e => (⟨f e.1, g e.2⟩ : Sigma fun _ : K' => V')).keys =
      m.entries.keys.map f := by
    simp [List.keys, Function.comp_def]
  rw [List.NodupKeys, h]
  exact m.nodupKeys.map f.injective

omit [DecidableEq K] [DecidableEq K'] in
/-- The map with its keys renamed and its values changed. -/
def rename (f : K ↪ K') (g : V → V') (m : HashMap K V) : HashMap K' V' :=
  ⟨m.entries.map fun e => ⟨f e.1, g e.2⟩, nodupKeys_map f g m⟩

theorem get_rename (m : HashMap K V) (k : K) : (m.rename f g).get (f k) = (m.get k).map g := by
  ext v
  simp only [get_eq_some_iff, Option.map_eq_some_iff, rename, List.mem_map]
  constructor
  · rintro ⟨⟨k', v'⟩, he, heq⟩
    obtain ⟨hk, hv⟩ := Sigma.mk.inj_iff.mp heq
    obtain rfl := f.injective hk
    exact ⟨v', he, eq_of_heq hv⟩
  · rintro ⟨v', he, rfl⟩
    exact ⟨⟨k, v'⟩, he, rfl⟩

private theorem kerase_map (k : K) (entries : List (Sigma fun _ : K => V)) :
    (entries.map fun e => (⟨f e.1, g e.2⟩ : Sigma fun _ : K' => V')).kerase (f k) =
      (entries.kerase k).map fun e => ⟨f e.1, g e.2⟩ := by
  induction entries with
  | nil => rfl
  | cons e entries ih =>
    by_cases hk : k = e.1
    · rw [List.kerase_cons_eq hk, List.map_cons, List.kerase_cons_eq (congrArg f hk)]
    · rw [List.kerase_cons_ne hk, List.map_cons, List.map_cons, ← ih]
      exact List.kerase_cons_ne fun h => hk (f.injective h)

theorem rename_remove (m : HashMap K V) (k : K) :
    (m.remove k).rename f g = (m.rename f g).remove (f k) :=
  AList.ext (kerase_map k m.entries).symm

theorem rename_insert (m : HashMap K V) (k : K) (v : V) :
    (m.insert k v).rename f g = (m.rename f g).insert (f k) (g v) :=
  AList.ext (congrArg (List.cons _) (kerase_map k m.entries).symm)

omit [DecidableEq K] [DecidableEq K'] in
theorem values_rename (m : HashMap K V) : (m.rename f g).values = m.values.map g := by
  simp [values, rename]

end HashMap

end WayRay
