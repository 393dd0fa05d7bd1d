import WayRay.Collections.Recency
import WayRay.Desktop.State

/-!
# The arrangement of windows

`StackedSpace` adds to the operations on the arrangement what placing windows relies on: which
windows are mapped, in which stacking order (bottom first), and where.  All windows are in one group
of the stacking order, so mapping and raising both put a window on top.

`PlacedWindows` is a simple arrangement of this kind: the mapped windows with their positions.
-/

namespace WayRay

open Recency

/-- The arrangement of windows, as far as placing them goes. -/
structure StackedSpace (P : Type) extends SpaceOps P where
  /-- The mapped windows, bottom first. -/
  elements : P → List Surface
  location : Surface → P → Option (ℤ × ℤ)
  nodup_elements : ∀ space, (elements space).Nodup
  isSome_location : ∀ window space, (location window space).isSome ↔ window ∈ elements space
  elements_mapElement : ∀ window position space,
    elements (mapElement window position space) = touch (elements space) (window, true)
  location_mapElement : ∀ window position space other,
    location other (mapElement window position space) =
      if other = window then some position else location other space
  elements_unmapElem : ∀ window space,
    elements (unmapElem window space) = touch (elements space) (window, false)
  location_unmapElem : ∀ window space other,
    location other (unmapElem window space) = if other = window then none else location other space
  elements_raiseElement : ∀ window space,
    elements (raiseElement window space) =
      if window ∈ elements space then touch (elements space) (window, true) else elements space
  location_raiseElement : ∀ window space other,
    location other (raiseElement window space) = location other space

attribute [simp] StackedSpace.elements_mapElement StackedSpace.location_mapElement
  StackedSpace.elements_unmapElem StackedSpace.location_unmapElem
  StackedSpace.location_raiseElement

/-! ### A simple arrangement -/

/-- Mapped windows with their positions, bottom first. -/
abbrev PlacedWindows := {windows : List (Surface × (ℤ × ℤ)) // (windows.map Prod.fst).Nodup}

namespace PlacedWindows

def empty : PlacedWindows := ⟨[], List.nodup_nil⟩

def location (window : Surface) (space : PlacedWindows) : Option (ℤ × ℤ) :=
  (space.1.find? fun entry => entry.1 = window).map Prod.snd

def unmap (window : Surface) (space : PlacedWindows) : PlacedWindows :=
  ⟨space.1.filter fun entry => entry.1 ≠ window, space.2.sublist (List.filter_sublist.map _)⟩

theorem map_fst_unmap (window : Surface) (space : PlacedWindows) :
    (space.unmap window).1.map Prod.fst = (space.1.map Prod.fst).erase window := by
  rw [space.2.erase_eq_filter, List.filter_map]
  refine congrArg (List.map Prod.fst) (List.filter_congr fun entry _ => ?_)
  by_cases h : entry.1 = window <;> simp [h]

def map (window : Surface) (position : ℤ × ℤ) (space : PlacedWindows) : PlacedWindows :=
  ⟨(space.unmap window).1 ++ [(window, position)], by
    rw [List.map_append, map_fst_unmap]
    exact List.nodup_append_comm.mp (List.nodup_cons.mpr ⟨space.2.not_mem_erase, space.2.erase _⟩)⟩

def raise (window : Surface) (space : PlacedWindows) : PlacedWindows :=
  match space.location window with
  | some position => space.map window position
  | none => space

theorem isSome_location (window : Surface) (space : PlacedWindows) :
    (space.location window).isSome ↔ window ∈ space.1.map Prod.fst := by
  simp [location, List.mem_map]

theorem location_unmap (window other : Surface) (space : PlacedWindows) :
    (space.unmap window).location other =
      if other = window then none else space.location other := by
  unfold location unmap
  rw [List.find?_filter]
  split_ifs with h
  · rw [List.find?_eq_none.mpr fun entry _ => by simp [h]]
    rfl
  · refine congrArg (Option.map Prod.snd) (congrArg (List.find? · _) (funext fun entry => ?_))
    by_cases hentry : entry.1 = other <;> simp [hentry, h]

theorem location_map (window other : Surface) (position : ℤ × ℤ) (space : PlacedWindows) :
    (space.map window position).location other =
      if other = window then some position else space.location other := by
  have happend : (space.map window position).location other =
      ((space.unmap window).location other).or
        (location other ⟨[(window, position)], by simp⟩) := by
    unfold location map
    rw [List.find?_append]
    cases List.find? (fun entry => entry.1 = other) (space.unmap window).1 <;> rfl
  rw [happend, location_unmap]
  split_ifs with h
  · simp [location, h]
  · simp [location, Ne.symm h]

theorem location_raise (window other : Surface) (space : PlacedWindows) :
    (space.raise window).location other = space.location other := by
  unfold raise
  cases hlocation : space.location window with
  | none => rfl
  | some position =>
    dsimp only
    rw [location_map]
    split_ifs with h
    · rw [h, hlocation]
    · rfl

theorem map_fst_map (window : Surface) (position : ℤ × ℤ) (space : PlacedWindows) :
    (space.map window position).1.map Prod.fst = touch (space.1.map Prod.fst) (window, true) := by
  simp [touch, map, map_fst_unmap]

theorem map_fst_raise (window : Surface) (space : PlacedWindows) :
    (space.raise window).1.map Prod.fst =
      if window ∈ space.1.map Prod.fst then touch (space.1.map Prod.fst) (window, true)
      else space.1.map Prod.fst := by
  have hmem := isSome_location window space
  unfold raise
  cases hlocation : space.location window with
  | none => rw [if_neg fun h => by simpa [hlocation] using hmem.mpr h]
  | some position =>
    rw [if_pos (hmem.mp (Option.isSome_of_eq_some hlocation))]
    exact map_fst_map window position space

end PlacedWindows

/-- The arrangement of windows with positions; no point is over a window. -/
def placedWindows : StackedSpace PlacedWindows where
  mapElement window position space := space.map window position
  unmapElem window space := space.unmap window
  raiseElement window space := space.raise window
  elementUnder _ _ := none
  elements space := space.1.map Prod.fst
  location window space := space.location window
  nodup_elements space := space.2
  isSome_location := PlacedWindows.isSome_location
  elements_mapElement := PlacedWindows.map_fst_map
  location_mapElement window position space other :=
    PlacedWindows.location_map window other position space
  elements_unmapElem := PlacedWindows.map_fst_unmap
  location_unmapElem window space other := PlacedWindows.location_unmap window other space
  elements_raiseElement := PlacedWindows.map_fst_raise
  location_raiseElement window space other := PlacedWindows.location_raise window other space

end WayRay
