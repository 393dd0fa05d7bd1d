import WayRay.Render.Redraw

/-!
# What has changed

The tracker compares a frame with what it has recorded of the last one, element by element.
`composite_eq_of_notMem_newDamage` says that nothing is missed: where no damage is found, the
pictures of the two frames are the same.

An element may report as damage what it likes, as long as it contains all that it draws differently
since an earlier commit (`Tracks`).
-/

namespace WayRay

open Rect Raster

variable {ι κ A C : Type}

/-- An element of an earlier scene and the same one of a later scene: if it has the same look and
geometry, it draws the same but for the damage since the earlier commit. -/
def RenderElement.Tracks [BEq A] (earlier later : RenderElement ι κ A C) : Prop :=
  (earlier.look == later.look) = true → earlier.geometry = later.geometry →
    ∀ q ∈ (Rect.mk 0 0 later.geometry.w later.geometry.h).pixels,
      q ∉ covered (later.damageSince (some earlier.currentCommit)) → earlier.draw q = later.draw q

namespace DamageTracker

variable {out : Rect} {front : List Rect} {p : ℤ × ℤ} {elements : List (RenderElement ι κ A C)}

/-! ### What is recorded -/

/-- The visible elements are those of the scene, in order. -/
theorem sublist_visibleElements (out : Rect) (front : List Rect)
    (elements : List (RenderElement ι κ A C)) :
    ((visibleElements out front elements).map VisibleElement.element).Sublist elements := by
  induction elements generalizing front with
  | nil => exact List.Sublist.refl _
  | cons e rest ih =>
    rcases visibleElements_cons out front e rest with ⟨-, hvisible⟩ | hvisible
    · rw [hvisible]
      exact (ih front).cons e
    · rw [hvisible, List.map_cons]
      exact (ih _).cons_cons e

theorem nodup_visibleElements {frame : OutputFrame ι κ A C} (h : frame.Sound) :
    ((visibleElements frame.out [] frame.elements).map fun v => v.element.id).Nodup := by
  have hsub := (sublist_visibleElements frame.out [] frame.elements).map RenderElement.id
  rw [List.map_map] at hsub
  exact h.nodup.sublist hsub

/-- The state of an element that is drawn once. -/
def recorded (v : VisibleElement ι κ A C) (zIndex : ℕ) : ElementState κ A :=
  ⟨v.element.currentCommit, [⟨v.element.look, v.element.geometry, zIndex⟩]⟩

theorem instanceMatches_recorded [BEq A] {v : VisibleElement ι κ A C} {e : RenderElement ι κ A C}
    {z z' : ℕ} : (recorded v z).instanceMatches e z' = true ↔
      (v.element.look == e.look) = true ∧ v.element.geometry = e.geometry ∧ z = z' := by
  simp [recorded, ElementState.instanceMatches, ElementInstanceState.matches, and_assoc]

variable [DecidableEq ι]

theorem get_foldl_recordInstance (visible : List (VisibleElement ι κ A C)) (n : ℕ)
    (map : HashMap ι (ElementState κ A))
    (hnodup : (visible.map fun v => v.element.id).Nodup)
    (hfresh : ∀ v ∈ visible, map.get v.element.id = none) (id : ι) (s : ElementState κ A) :
    ((visible.zipIdx n).foldl recordInstance map).get id = some s ↔
      map.get id = some s ∨
        ∃ z v, visible[z]? = some v ∧ v.element.id = id ∧ s = recorded v (n + z) := by
  induction visible generalizing n map with
  | nil => simp
  | cons v visible ih =>
    rw [List.map_cons, List.nodup_cons] at hnodup
    rw [List.forall_mem_cons] at hfresh
    have hinsert : recordInstance map (v, n) = map.insert v.element.id (recorded v n) := by
      simp only [recordInstance, hfresh.1]
      rfl
    have hother : ∀ v' ∈ visible, v'.element.id ≠ v.element.id := fun v' hv' heq =>
      hnodup.1 (List.mem_map.mpr ⟨v', hv', heq⟩)
    rw [List.zipIdx_cons, List.foldl_cons, hinsert, ih (n + 1) _ hnodup.2]
    · rw [HashMap.get_insert]
      constructor
      · rintro (hget | ⟨z, v', hv', hid, rfl⟩)
        · split_ifs at hget with hid
          · exact Or.inr ⟨0, v, rfl, hid.symm, (Option.some.inj hget).symm⟩
          · exact Or.inl hget
        · exact Or.inr ⟨z + 1, v', hv', hid, by rw [Nat.add_right_comm, Nat.add_assoc]⟩
      · rintro (hget | ⟨z, v', hv', hid, rfl⟩)
        · have hid : id ≠ v.element.id := by
            rintro rfl
            rw [hfresh.1] at hget
            exact absurd hget (by simp)
          rw [if_neg hid]
          exact Or.inl hget
        · cases z with
          | zero =>
            obtain rfl := Option.some.inj hv'
            rw [if_pos hid.symm]
            exact Or.inl rfl
          | succ z =>
            exact Or.inr ⟨z, v', hv', hid, by rw [Nat.add_right_comm, Nat.add_assoc]⟩
    · intro v' hv'
      rw [HashMap.get_insert_of_ne _ _ (hother v' hv')]
      exact hfresh.2 v' hv'

/-- **What is recorded** of a frame: every visible element, at its place. -/
theorem get_record {frame : OutputFrame ι κ A C} (h : frame.Sound) (oldDamage : List (List Rect))
    (id : ι) (s : ElementState κ A) :
    (record frame oldDamage).elements.get id = some s ↔
      ∃ z v, (visibleElements frame.out [] frame.elements)[z]? = some v ∧ v.element.id = id ∧
        s = recorded v z := by
  have hget := get_foldl_recordInstance (visibleElements frame.out [] frame.elements) 0 ∅
    (nodup_visibleElements h) (fun v _ => HashMap.get_empty v.element.id) id s
  simp only [HashMap.get_empty, Nat.zero_add, false_or, reduceCtorEq] at hget
  exact hget

/-! ### What is damaged -/

/-- The elements that were visible in the earlier scene report their damage in the later one. -/
def Tracks [BEq A] (earlier later : OutputFrame ι κ A C) : Prop :=
  ∀ v ∈ visibleElements earlier.out [] earlier.elements, ∀ e ∈ later.elements,
    v.element.id = e.id → v.element.Tracks e

section Damaged

variable [BEq A] [DecidableEq C] {last : RendererState ι κ A C}
  {old frame : OutputFrame ι κ A C} {oldDamage : List (List Rect)}

/-- Where an element was recorded, it is damaged if it is drawn no more, or has moved or looks
different. -/
theorem mem_newDamage_of_lastGeometries {id : ι} {s : ElementState κ A}
    (hsame : sameOutput last frame = true) (hget : last.elements.get id = some s)
    (hmatches : ∀ z v, (visibleElements frame.out [] frame.elements)[z]? = some v →
      v.element.id = id → s.instanceMatches v.element z = false)
    (hp : p ∈ covered (s.lastGeometries frame.out)) : p ∈ covered (newDamage last frame) := by
  simp only [newDamage, hsame, if_true, mem_covered_append]
  by_cases hgone : ∃ v ∈ visibleElements frame.out [] frame.elements, v.element.id = id
  · obtain ⟨v, hv, hid⟩ := hgone
    obtain ⟨z, hz⟩ := List.mem_iff_getElem?.mp hv
    obtain ⟨r, hr, hp⟩ := hp
    refine Or.inl (Or.inr ⟨r, List.mem_flatMap.mpr ⟨(v, z), ?_, ?_⟩, hp⟩)
    · exact List.mem_zipIdx_iff_getElem?.mpr hz
    · simp only [hid, hget, hmatches z v hz hid]
      exact List.mem_append_right _ hr
  · obtain ⟨r, hr, hp⟩ := hp
    refine Or.inl (Or.inl (Or.inr ⟨r, List.mem_flatMap.mpr ⟨(id, s), ?_, hr⟩, hp⟩))
    refine List.mem_filter.mpr ⟨List.mem_reverse.mpr (HashMap.mem_toList.mpr hget), ?_⟩
    simp only [Bool.not_eq_true', List.any_eq_false, beq_iff_eq]
    exact fun v hv hid => hgone ⟨v, hv, hid⟩

/-- Where an element is, it is damaged if it was not drawn so before. -/
theorem mem_newDamage_of_geometry {z : ℕ} {v : VisibleElement ι κ A C}
    (hsame : sameOutput last frame = true)
    (hz : (visibleElements frame.out [] frame.elements)[z]? = some v)
    (hmatches : ∀ s, last.elements.get v.element.id = some s →
      s.instanceMatches v.element z = false)
    (hp : p ∈ covered (v.element.geometry.intersection frame.out).toList) :
    p ∈ covered (newDamage last frame) := by
  simp only [newDamage, hsame, if_true, mem_covered_append]
  obtain ⟨r, hr, hp⟩ := hp
  refine Or.inl (Or.inr ⟨r, List.mem_flatMap.mpr ⟨(v, z), ?_, ?_⟩, hp⟩)
  · exact List.mem_zipIdx_iff_getElem?.mpr hz
  · cases hget : last.elements.get v.element.id with
    | none =>
      simp only [hget]
      exact hr
    | some s =>
      simp only [hget, hmatches s hget]
      exact List.mem_append_left _ hr

/-- What an element that is drawn reports is damaged. -/
theorem mem_newDamage_of_damageSince {v : VisibleElement ι κ A C} {s : ElementState κ A}
    (hsame : sameOutput last frame = true)
    (hv : v ∈ visibleElements frame.out [] frame.elements)
    (hget : last.elements.get v.element.id = some s)
    (hp : p ∈ covered (v.element.place frame.out (v.element.damageSince (some s.lastCommit)))) :
    p ∈ covered (newDamage last frame) := by
  simp only [newDamage, hsame, if_true, mem_covered_append]
  obtain ⟨r, hr, hp⟩ := hp
  refine Or.inl (Or.inl (Or.inl ⟨r, List.mem_flatMap.mpr ⟨v, hv, ?_⟩, hp⟩))
  rw [hget]
  exact hr

/-- An element that was drawn at a place, and is not drawn there as it was, does nothing where there
is no damage. -/
theorem layer_of_drawnNoMore (hold : old.Sound) (hframe : frame.Sound)
    (hsame : sameOutput (record old oldDamage) frame = true) {z : ℕ} {v : VisibleElement ι κ A C}
    (hv : (visibleElements old.out [] old.elements)[z]? = some v)
    (hnew : ∀ v', (visibleElements frame.out [] frame.elements)[z]? = some v' →
      v'.element.id = v.element.id → (recorded v z).instanceMatches v'.element z = false)
    (hp : p ∈ frame.out.pixels) (hout : p ∉ covered (newDamage (record old oldDamage) frame))
    (c : C) : v.element.layer p c = c := by
  refine RenderElement.layer_of_notMem (fun hin => hout ?_) c
  have hget := (get_record hold oldDamage v.element.id (recorded v z)).mpr ⟨z, v, hv, rfl, rfl⟩
  refine mem_newDamage_of_lastGeometries hsame hget (fun z' v' hv' hid => ?_) ?_
  · by_cases hz : z = z'
    · subst hz
      exact hnew v' hv' hid
    · exact Bool.eq_false_iff.mpr fun h => hz (instanceMatches_recorded.mp h).2.2
  · have hsound := hold.elements v.element
      (of_mem_visibleElements hold.out_bounded hold.elements (List.forall_mem_nil _)
        (List.mem_of_getElem? hv)).1
    have ho := hframe.out_bounded
    obtain ⟨i, hi, hp⟩ := ((intersection_spec hsound.geometry_valid ho.toValid
      (Or.inr ho)).2 p).mpr ⟨hin, hp⟩
    exact ⟨i, List.mem_filterMap.mpr ⟨_, List.mem_singleton_self _, hi⟩, hp⟩

/-- An element that is drawn at a place as it was drawn before paints the same where there is no
damage. -/
theorem layer_eq_of_notMem_newDamage (hframe : frame.Sound) (htracks : Tracks old frame)
    (hsame : sameOutput (record old oldDamage) frame = true) {z : ℕ}
    {v v' : VisibleElement ι κ A C} (hv : v ∈ visibleElements old.out [] old.elements)
    (hv' : v' ∈ visibleElements frame.out [] frame.elements)
    (hget : (record old oldDamage).elements.get v'.element.id = some (recorded v z))
    (hid : v.element.id = v'.element.id)
    (hmatches : (recorded v z).instanceMatches v'.element z = true) (hp : p ∈ frame.out.pixels)
    (hout : p ∉ covered (newDamage (record old oldDamage) frame)) :
    v.element.layer p = v'.element.layer p := by
  have ho := hframe.out_bounded
  have hin' := (of_mem_visibleElements ho hframe.elements (List.forall_mem_nil _) hv').1
  obtain ⟨hlook, hgeometry, -⟩ := instanceMatches_recorded.mp hmatches
  funext c
  by_cases hin : p ∈ v'.element.geometry.pixels
  · have hlocal : v.element.toLocal p = v'.element.toLocal p := by
      rw [RenderElement.toLocal, hgeometry, RenderElement.toLocal]
    rw [RenderElement.layer_of_mem (hgeometry ▸ hin), RenderElement.layer_of_mem hin, hlocal]
    refine congrFun (htracks _ hv _ hin' hid hlook hgeometry _
      (RenderElement.toLocal_mem_iff.mpr hin) fun hdamaged => hout ?_) c
    refine mem_newDamage_of_damageSince hsame hv' hget ?_
    exact RenderElement.mem_covered_place ho
      ((hframe.elements _ hin').damage_valid _) hp hdamaged
  · rw [RenderElement.layer_of_notMem (hgeometry ▸ hin), RenderElement.layer_of_notMem hin]

/-- An element that is drawn as it was not before does nothing where there is no damage. -/
theorem layer_of_drawnAnew (hframe : frame.Sound)
    (hsame : sameOutput (record old oldDamage) frame = true) {z : ℕ}
    {v' : VisibleElement ι κ A C}
    (hz : (visibleElements frame.out [] frame.elements)[z]? = some v')
    (hmatches : ∀ s, (record old oldDamage).elements.get v'.element.id = some s →
      s.instanceMatches v'.element z = false)
    (hp : p ∈ frame.out.pixels) (hout : p ∉ covered (newDamage (record old oldDamage) frame))
    (c : C) : v'.element.layer p c = c := by
  refine RenderElement.layer_of_notMem (fun hin => hout ?_) c
  have ho := hframe.out_bounded
  have hvalid := (hframe.elements _ (of_mem_visibleElements ho hframe.elements
    (List.forall_mem_nil _) (List.mem_of_getElem? hz)).1).geometry_valid
  obtain ⟨i, hi, hp⟩ := ((intersection_spec hvalid ho.toValid (Or.inr ho)).2 p).mpr ⟨hin, hp⟩
  exact mem_newDamage_of_geometry hsame hz hmatches ⟨i, Option.mem_toList.mpr hi, hp⟩

/-- Place by place, the elements of the two frames do the same where no damage is found. -/
theorem effectAt_eq_of_notMem_newDamage (hold : old.Sound) (hframe : frame.Sound)
    (htracks : Tracks old frame) (hsame : sameOutput (record old oldDamage) frame = true)
    (hp : p ∈ frame.out.pixels) (hout : p ∉ covered (newDamage (record old oldDamage) frame))
    (z : ℕ) :
    effectAt ((visibleElements old.out [] old.elements).map fun v => v.element.layer) z p =
      effectAt ((visibleElements frame.out [] frame.elements).map fun v => v.element.layer) z
        p := by
  simp only [effectAt, List.getElem?_map]
  cases hnew : (visibleElements frame.out [] frame.elements)[z]? with
  | none =>
    cases hz : (visibleElements old.out [] old.elements)[z]? with
    | none => rfl
    | some v =>
      funext c
      refine layer_of_drawnNoMore hold hframe hsame hz (fun v' hv' => ?_) hp hout c
      exact absurd (hnew.symm.trans hv') (by simp)
  | some v' =>
    by_cases hmatches : ∃ s, (record old oldDamage).elements.get v'.element.id = some s ∧
        s.instanceMatches v'.element z = true
    · obtain ⟨s, hget, hmatches⟩ := hmatches
      obtain ⟨z', v, hz, hid, rfl⟩ := (get_record hold oldDamage _ s).mp hget
      obtain rfl : z' = z := (instanceMatches_recorded.mp hmatches).2.2
      rw [hz]
      exact layer_eq_of_notMem_newDamage hframe htracks hsame (List.mem_of_getElem? hz)
        (List.mem_of_getElem? hnew) hget hid hmatches hp hout
    · have hnone : ∀ s, (record old oldDamage).elements.get v'.element.id = some s →
          s.instanceMatches v'.element z = false := fun s hget =>
        Bool.eq_false_iff.mpr fun h => hmatches ⟨s, hget, h⟩
      have hright : v'.element.layer p = id := by
        funext c
        exact layer_of_drawnAnew hframe hsame hnew hnone hp hout c
      cases hz : (visibleElements old.out [] old.elements)[z]? with
      | none => exact hright.symm
      | some v =>
        refine Eq.trans ?_ hright.symm
        funext c
        refine layer_of_drawnNoMore hold hframe hsame hz (fun v'' hv'' hid => ?_) hp hout c
        obtain rfl := Option.some.inj (hnew.symm.trans hv'')
        exact hnone _ ((get_record hold oldDamage _ _).mpr ⟨z, v, hz, hid.symm, rfl⟩)

/-- **Nothing is missed**: where no damage is found, a frame has the picture of the frame that is
recorded. -/
theorem composite_eq_of_notMem_newDamage (hold : old.Sound) (hframe : frame.Sound)
    (htracks : Tracks old frame) (hp : p ∈ frame.out.pixels)
    (hout : p ∉ covered (newDamage (record old oldDamage) frame)) :
    old.composite p = frame.composite p := by
  have ho := hframe.out_bounded
  have hsame : sameOutput (record old oldDamage) frame = true := by
    by_contra hchanged
    refine hout ?_
    simp only [newDamage, hchanged]
    exact mem_covered_cons.mpr (Or.inl hp)
  obtain ⟨hout', hclear⟩ : old.out = frame.out ∧ old.clearColor = frame.clearColor := by
    simp only [sameOutput, record, Bool.and_eq_true, beq_iff_eq, Option.some.injEq] at hsame
    exact ⟨by rw [OutputFrame.out, OutputFrame.out, hsame.1.1], hsame.2⟩
  have hvisible : ∀ f : OutputFrame ι κ A C, f.Sound → f.out = frame.out →
      Raster.composite f.clearColor
        ((visibleElements f.out [] f.elements).map fun v => v.element.layer) p =
          f.composite p := fun f hf hfout =>
    composite_visibleElements hf.out_bounded hf.elements (List.forall_mem_nil _) f.clearColor
      (hfout ▸ hp) notMem_covered_nil
  rw [← hvisible old hold hout', ← hvisible frame hframe rfl, hclear]
  exact composite_congr (effectAt_eq_of_notMem_newDamage hold hframe htracks hsame hp hout)

end Damaged

end DamageTracker

end WayRay
