import WayRay.Collections.GuardedRun
import WayRay.Render.Borders

/-!
# What is on display

An output is rendered again and again, into buffers that take turns: each turn brings a scene, and
the age of the buffer that is drawn into.  A turn may fail, and the output may change.

`Synced` is the invariant: the tracker has recorded the scene that was drawn last, the newest buffer
shows its picture, and each older buffer differs from the newest one only in the damage that is
known.  From it follow what is on display after a turn (`shows_run`) and what the damage says that
the turn reports (`damage_run`).

The elements of a scene need only report what has changed since the scene drawn last (`Contract`).
-/

namespace WayRay

open GuardedRun Rect Raster

variable {ι κ A C : Type}

/-! ### Turns -/

/-- An output, the buffers that it has been drawn into, the newest first, and the scene that was
drawn last. -/
structure Display (ι κ A C : Type) where
  state : RendererState ι κ A C
  buffers : List (ℤ × ℤ → C)
  drawn : Option (OutputFrame ι κ A C)

/-- The output is rendered. -/
structure RenderTurn (ι κ A C : Type) where
  age : ℕ
  frame : OutputFrame ι κ A C
  /-- What a renderer that fails leaves in the buffer. -/
  failure : Option (ℤ × ℤ → C)
  /-- A buffer that has not been drawn into. -/
  spare : ℤ × ℤ → C
  /-- What a buffer shows on an output of another size or transform. -/
  reread : (ℤ × ℤ → C) → ℤ × ℤ → C

namespace Display

variable [DecidableEq ι] [BEq A] [DecidableEq C] (sort : UnstableSort Rect)
  (nearAll : ℤ → ℤ → Bool)

/-- An output that has not been rendered. -/
def new : Display ι κ A C := ⟨.default, [], none⟩

/-- The buffers as they show on the output of a turn. -/
def shown (d : Display ι κ A C) (turn : RenderTurn ι κ A C) : List (ℤ × ℤ → C) :=
  if d.state.size = some turn.frame.size ∧ d.state.transform = some turn.frame.transform then
    d.buffers
  else d.buffers.map turn.reread

/-- The buffer of the age of a turn. -/
def target (d : Display ι κ A C) (turn : RenderTurn ι κ A C) : ℤ × ℤ → C :=
  if turn.age = 0 then turn.spare else ((d.shown turn)[turn.age - 1]?).getD turn.spare

/-- What the tracker does in a turn. -/
def render (d : Display ι κ A C) (turn : RenderTurn ι κ A C) :
    RenderOutputResult × RendererState ι κ A C × (ℤ × ℤ → C) :=
  DamageTracker.renderOutput sort nearAll d.state turn.age turn.frame turn.failure (d.target turn)

def step (d : Display ι κ A C) (turn : RenderTurn ι κ A C) : Display ι κ A C :=
  let (result, state, buffer) := d.render sort nearAll turn
  match result with
  | .skipped => ⟨state, d.buffers, d.drawn⟩
  | .rendered _ => ⟨state, buffer :: d.shown turn, some turn.frame⟩
  | .renderingError => ⟨state, [], none⟩

/-- Render an output turn by turn. -/
def run (turns : List (RenderTurn ι κ A C)) : Display ι κ A C :=
  turns.foldl (step sort nearAll) new

omit [DecidableEq ι] [DecidableEq C] in
/-- The scene of a turn can be rendered, and its elements report what has changed since the scene
drawn last. -/
structure Contract (d : Display ι κ A C) (turn : RenderTurn ι κ A C) : Prop where
  sound : turn.frame.Sound
  tracks : ∀ old, d.drawn = some old → DamageTracker.Tracks old turn.frame

end Display

namespace DamageTracker

variable [DecidableEq ι] [BEq A] [DecidableEq C] {old frame : OutputFrame ι κ A C}
  {oldDamage : List (List Rect)} {last : RendererState ι κ A C} {age : ℕ} {p : ℤ × ℤ}

/-! ### The damage that is drawn -/

/-- The damage rectangles of a turn lie on the output now or then. -/
theorem bounded_newDamage (hframe : frame.Sound)
    (hlast : sameOutput last frame = true → ∃ old oldDamage, old.Sound ∧
      last = record old oldDamage) :
    ∀ r ∈ newDamage last frame, r.Bounded := by
  have ho := hframe.out_bounded
  cases hsame : sameOutput last frame with
  | false =>
    simp only [newDamage, hsame, Bool.false_eq_true, if_false, List.mem_singleton, forall_eq]
    exact ho
  | true =>
    obtain ⟨old, oldDamage, hold, rfl⟩ := hlast hsame
    have hvisible : ∀ f : OutputFrame ι κ A C, f.Sound →
        ∀ v ∈ visibleElements f.out [] f.elements, _ := fun f hf v hv =>
      of_mem_visibleElements hf.out_bounded hf.elements (List.forall_mem_nil _) hv
    have hcut : ∀ geometry : Rect, geometry.Valid → ∀ r,
        geometry.intersection frame.out = some r → r.Bounded := fun geometry hvalid r hr =>
      (within_of_intersection hvalid ho hr).1.bounded ho
    have hgeometries : ∀ id s, (record old oldDamage).elements.get id = some s →
        ∀ r ∈ s.lastGeometries frame.out, r.Bounded := by
      intro id s hget r hr
      obtain ⟨z, v, hz, -, rfl⟩ := (get_record hold oldDamage id s).mp hget
      obtain ⟨i, hi, hr⟩ := List.mem_filterMap.mp hr
      obtain rfl := List.mem_singleton.mp hi
      exact hcut _ (hold.elements _
        (hvisible old hold v (List.mem_of_getElem? hz)).1).geometry_valid r hr
    have hregions : ∀ f : OutputFrame ι κ A C, f.Sound →
        ∀ r ∈ opaqueRegions (visibleElements f.out [] f.elements), r.Bounded := by
      intro f hf r hr
      obtain ⟨v, hv, hr⟩ := List.mem_flatMap.mp hr
      exact ((hvisible f hf v hv).2.2 r hr).bounded hf.out_bounded
    simp only [newDamage, hsame, if_true]
    intro r hr
    simp only [List.mem_append] at hr
    rcases hr with ((hr | hr) | hr) | hr
    · -- reported by the elements
      obtain ⟨v, hv, hr⟩ := List.mem_flatMap.mp hr
      have hsound := hframe.elements _ (hvisible frame hframe v hv).1
      exact (RenderElement.within_place ho (hsound.damage_valid _) r hr).bounded ho
    · -- gone
      obtain ⟨⟨id, s⟩, hs, hr⟩ := List.mem_flatMap.mp hr
      have hget := HashMap.mem_toList.mp (List.mem_reverse.mp (List.mem_filter.mp hs).1)
      exact hgeometries id s hget r hr
    · -- moved
      obtain ⟨⟨v, z⟩, hv, hr⟩ := List.mem_flatMap.mp hr
      have hv := List.mem_of_getElem? (List.mem_zipIdx_iff_getElem?.mp hv)
      have hvalid := (hframe.elements _ (hvisible frame hframe v hv).1).geometry_valid
      dsimp only at hr
      split at hr
      · exact hcut _ hvalid r (Option.mem_toList.mp hr)
      · next s hget =>
        split_ifs at hr
        · exact absurd hr List.not_mem_nil
        · rcases List.mem_append.mp hr with hr | hr
          · exact hcut _ hvalid r (Option.mem_toList.mp hr)
          · exact hgeometries _ s hget r hr
    · -- covered no longer
      obtain ⟨item, hitem, hin⟩ :=
        (subtractRects_spec (hregions old hold) (hregions frame hframe)).1 r hr
      exact hin.bounded (hregions old hold item hitem)

/-- **The shaped damage** can be drawn, and contains all that is damaged on the output. -/
theorem shapedDamage_spec (sort : UnstableSort Rect) (nearAll : ℤ → ℤ → Bool)
    (hframe : frame.Sound) (hbounded : ∀ r ∈ bufferDamage last age frame, r.Bounded) :
    Drawable frame.out (shapedDamage last sort nearAll age frame) ∧
      ∀ p ∈ frame.out.pixels, p ∈ covered (bufferDamage last age frame) →
        p ∈ covered (shapedDamage last sort nearAll age frame) := by
  have ho := hframe.out_bounded
  obtain ⟨hcut, -, hmem⟩ :=
    cut_spec ho.toValid (fun r hr => (hbounded r hr).toValid) (Or.inr ho)
  obtain ⟨hapart, hcovers, hwithin⟩ :=
    Shaper.shapes_shapeDamage sort nearAll ho fun r hr => (hcut r hr).1
  exact ⟨⟨hwithin _ fun r hr => (hcut r hr).1, hapart⟩, fun p hp hdamaged =>
    hcovers p ((hmem p).mpr ⟨hdamaged, hp⟩)⟩

theorem mem_bufferDamage_of_whole (h : recentEnough last age = false)
    (hp : p ∈ frame.out.pixels) : p ∈ covered (bufferDamage last age frame) := by
  simp only [bufferDamage, h]
  exact mem_covered_cons.mpr (Or.inl hp)

theorem mem_bufferDamage (h : recentEnough last age = true) :
    p ∈ covered (bufferDamage last age frame) ↔
      p ∈ covered (newDamage last frame) ∨
        p ∈ recent (last.oldDamage.map covered) (age - 1) := by
  have hle : age - 1 ≤ age := Nat.sub_le age 1
  simp only [bufferDamage, keptDamage, h, if_true, mem_covered_append, List.take_take,
    min_eq_left hle]
  refine or_congr_right ?_
  simp only [recent, ← List.map_take, mem_covered, List.mem_flatten, Set.mem_ofPred_eq,
    List.mem_map, exists_exists_and_eq_and]
  constructor
  · rintro ⟨r, ⟨damage, hdamage, hr⟩, hp⟩
    exact ⟨damage, hdamage, r, hr, hp⟩
  · rintro ⟨damage, hdamage, r, hr, hp⟩
    exact ⟨r, ⟨damage, hdamage, hr⟩, hp⟩

end DamageTracker

/-! ### The invariant -/

namespace Display

open DamageTracker

variable [DecidableEq ι] [BEq A] [DecidableEq C] {sort : UnstableSort Rect}
  {nearAll : ℤ → ℤ → Bool} {d : Display ι κ A C} {turn : RenderTurn ι κ A C}

omit [BEq A] [DecidableEq C] in
/-- The state is the record of a scene, the newest buffer shows its picture, and the older ones
differ from it in the damage that is known. -/
structure Records (d : Display ι κ A C) (old : OutputFrame ι κ A C) : Prop where
  drawn_eq : d.drawn = some old
  sound : old.Sound
  state_eq : d.state = record old d.state.oldDamage
  aged : Aged old.out.pixels d.buffers (d.state.oldDamage.map covered)
  newest : ∀ newest, d.buffers[0]? = some newest →
    ∀ p ∈ old.out.pixels, newest p = old.composite p

omit [BEq A] [DecidableEq C] in
/-- The tracker is in step with the buffers. -/
structure Synced (d : Display ι κ A C) : Prop where
  bounded : ∀ damage ∈ d.state.oldDamage, ∀ r ∈ damage, r.Bounded
  length_le : d.state.oldDamage.length ≤ d.buffers.length
  records : d.state.oldDamage ≠ [] → ∃ old, Records d old
  /-- Then the output is drawn as a whole. -/
  size_none : d.state.oldDamage = [] → d.state.size = none

omit [BEq A] [DecidableEq C] in
theorem synced_new : Synced (new : Display ι κ A C) where
  bounded _ h := absurd h List.not_mem_nil
  length_le := le_rfl
  records h := absurd rfl h
  size_none _ := rfl

omit [BEq A] in
/-- If the output is as it was recorded, it shows the scene drawn last. -/
theorem Synced.exists_old (h : Synced d) (hsame : sameOutput d.state turn.frame = true) :
    ∃ old, Records d old ∧ old.out = turn.frame.out := by
  simp only [sameOutput, Bool.and_eq_true, beq_iff_eq] at hsame
  obtain ⟨old, hold⟩ := h.records fun hnil => by
    rw [h.size_none hnil] at hsame
    exact absurd hsame.1.1 (by simp)
  refine ⟨old, hold, ?_⟩
  rw [hold.state_eq] at hsame
  rw [OutputFrame.out, OutputFrame.out, Option.some.inj hsame.1.1]

omit [DecidableEq ι] [BEq A] in
theorem shown_of_sameOutput (hsame : sameOutput d.state turn.frame = true) :
    d.shown turn = d.buffers := by
  simp only [sameOutput, Bool.and_eq_true, beq_iff_eq] at hsame
  exact if_pos hsame.1

omit [DecidableEq ι] [BEq A] [DecidableEq C] in
theorem length_shown (d : Display ι κ A C) (turn : RenderTurn ι κ A C) :
    (d.shown turn).length = d.buffers.length := by
  unfold shown
  split_ifs <;> simp

omit [DecidableEq ι] [BEq A] in
/-- Another output is damaged as a whole. -/
theorem mem_newDamage_of_changed {last : RendererState ι κ A C} {frame : OutputFrame ι κ A C}
    [DecidableEq ι] [BEq A] {p : ℤ × ℤ} (h : sameOutput last frame = false)
    (hp : p ∈ frame.out.pixels) : p ∈ covered (newDamage last frame) := by
  simp only [newDamage, h]
  exact mem_covered_cons.mpr (Or.inl hp)

/-! ### One turn -/

theorem bounded_bufferDamage (h : Synced d) (hframe : turn.frame.Sound) :
    (∀ r ∈ newDamage d.state turn.frame, r.Bounded) ∧
      ∀ r ∈ bufferDamage d.state turn.age turn.frame, r.Bounded := by
  have hnew : ∀ r ∈ newDamage d.state turn.frame, r.Bounded := by
    refine bounded_newDamage hframe fun hsame => ?_
    obtain ⟨old, hold, -⟩ := h.exists_old hsame
    exact ⟨old, _, hold.sound, hold.state_eq⟩
  refine ⟨hnew, fun r hr => ?_⟩
  unfold bufferDamage keptDamage at hr
  split_ifs at hr
  · rcases List.mem_append.mp hr with hr | hr
    · exact hnew r hr
    · obtain ⟨damage, hdamage, hr⟩ := List.mem_flatten.mp hr
      exact h.bounded damage (List.mem_of_mem_take (List.mem_of_mem_take hdamage)) r hr
  · rw [List.mem_singleton.mp hr]
    exact hframe.out_bounded

/-- Where nothing new is damaged, the newest buffer shows the picture of the turn. -/
theorem newest_eq_composite {old : OutputFrame ι κ A C} (hold : Records d old)
    (hcontract : d.Contract turn) (hout : old.out = turn.frame.out) {newest : ℤ × ℤ → C}
    (hnewest : d.buffers[0]? = some newest) {p : ℤ × ℤ} (hp : p ∈ turn.frame.out.pixels)
    (hnot : p ∉ covered (newDamage d.state turn.frame)) : newest p = turn.frame.composite p := by
  rw [hold.newest newest hnewest p (hout ▸ hp)]
  rw [hold.state_eq] at hnot
  exact composite_eq_of_notMem_newDamage hold.sound hcontract.sound
    (hcontract.tracks old hold.drawn_eq) hp hnot

/-- **What is not damaged** is in the target what it is in the newest buffer, and shows the picture
of the turn already. -/
theorem target_of_notMem (h : Synced d) (hcontract : d.Contract turn) {p : ℤ × ℤ}
    (hp : p ∈ turn.frame.out.pixels)
    (hout : p ∉ covered (bufferDamage d.state turn.age turn.frame)) :
    ∃ newest, d.buffers[0]? = some newest ∧ d.target turn p = newest p ∧
      newest p = turn.frame.composite p := by
  have hrecent : recentEnough d.state turn.age = true := by
    by_contra hnot
    exact hout (mem_bufferDamage_of_whole (Bool.eq_false_iff.mpr hnot) hp)
  rw [mem_bufferDamage hrecent, not_or] at hout
  obtain ⟨hnew, hrecently⟩ := hout
  have hsame : sameOutput d.state turn.frame = true := by
    by_contra hchanged
    exact hnew (mem_newDamage_of_changed (Bool.eq_false_iff.mpr hchanged) hp)
  obtain ⟨old, hold, hout⟩ := h.exists_old hsame
  simp only [recentEnough, Bool.and_eq_true, decide_eq_true_eq] at hrecent
  obtain ⟨hpos, hage⟩ := hrecent
  have hlength := h.length_le
  obtain ⟨newest, hnewest⟩ : ∃ newest, d.buffers[0]? = some newest :=
    ⟨d.buffers[0], List.getElem?_eq_getElem (by omega)⟩
  obtain ⟨buffer, hbuffer⟩ : ∃ buffer, d.buffers[turn.age - 1]? = some buffer :=
    ⟨d.buffers[turn.age - 1], List.getElem?_eq_getElem (by omega)⟩
  have htarget : d.target turn = buffer := by
    rw [target, if_neg (by omega), shown_of_sameOutput hsame, hbuffer, Option.getD_some]
  refine ⟨newest, hnewest, ?_, newest_eq_composite hold hcontract hout hnewest hp hnew⟩
  rw [htarget]
  refine hold.aged (turn.age - 1) ?_ buffer newest hbuffer hnewest p (hout ▸ hp) hrecently
  rw [List.length_map]
  omega

/-- What a turn does, case by case. -/
theorem step_cases (sort : UnstableSort Rect) (nearAll : ℤ → ℤ → Bool) (d : Display ι κ A C)
    (turn : RenderTurn ι κ A C) :
    (shapedDamage d.state sort nearAll turn.age turn.frame = [] ∧
      (d.render sort nearAll turn).1 = .skipped ∧ d.step sort nearAll turn =
        ⟨{ d.state with oldDamage := keptDamage d.state turn.age }, d.buffers, d.drawn⟩) ∨
    ((d.render sort nearAll turn).1 = .renderingError ∧
      d.step sort nearAll turn = ⟨.default, [], none⟩) ∨
    (d.render sort nearAll turn).1 =
        .rendered (shapedDamage d.state sort nearAll turn.age turn.frame) ∧
      d.step sort nearAll turn =
        ⟨record turn.frame (newDamage d.state turn.frame :: keptDamage d.state turn.age),
          draw (shapedDamage d.state sort nearAll turn.age turn.frame) turn.frame
            (d.target turn) :: d.shown turn, some turn.frame⟩ := by
  unfold step render renderOutput
  cases hdamage : shapedDamage d.state sort nearAll turn.age turn.frame with
  | nil => exact Or.inl ⟨rfl, rfl, rfl⟩
  | cons r rest =>
    cases turn.failure with
    | some garbled => exact Or.inr (Or.inl ⟨rfl, rfl⟩)
    | none => exact Or.inr (Or.inr ⟨rfl, rfl⟩)

theorem render_ne_renderingError (d : Display ι κ A C) (h : turn.failure = none) :
    (d.render sort nearAll turn).1 ≠ .renderingError := by
  unfold render renderOutput
  rw [h]
  dsimp only
  split_ifs <;> simp

variable (sort nearAll)

/-- **A turn draws its picture.** -/
theorem draw_eq_composite (h : Synced d) (hcontract : d.Contract turn) {p : ℤ × ℤ}
    (hp : p ∈ turn.frame.out.pixels) :
    draw (shapedDamage d.state sort nearAll turn.age turn.frame) turn.frame (d.target turn) p =
      turn.frame.composite p := by
  obtain ⟨hdrawable, hcovers⟩ := shapedDamage_spec sort nearAll hcontract.sound
    (bounded_bufferDamage h hcontract.sound).2
  rw [draw_spec hcontract.sound hdrawable]
  split_ifs with hdamaged
  · rfl
  · obtain ⟨newest, -, htarget, hnewest⟩ :=
      target_of_notMem h hcontract hp fun hin => hdamaged (hcovers p hp hin)
    exact htarget.trans hnewest

omit [BEq A] [DecidableEq C] [DecidableEq ι] in
/-- Some of the old damage is always kept. -/
theorem oldDamage_eq_nil_of_keptDamage {last : RendererState ι κ A C} {age : ℕ}
    (h : keptDamage last age = []) : last.oldDamage = [] := by
  rcases List.take_eq_nil_iff.mp h with hzero | hnil
  · split_ifs at hzero with hrecent
    · simp [recentEnough, hzero] at hrecent
    · exact absurd hzero (by decide)
  · exact hnil

/-- The buffers after a turn that has drawn its picture. -/
theorem aged_step (h : Synced d) (hcontract : d.Contract turn) {picture : ℤ × ℤ → C}
    (hpicture : ∀ p ∈ turn.frame.out.pixels, picture p = turn.frame.composite p) :
    Aged turn.frame.out.pixels (picture :: d.shown turn)
      ((newDamage d.state turn.frame :: keptDamage d.state turn.age).map covered) := by
  rw [List.map_cons]
  cases hsame : sameOutput d.state turn.frame with
  | false => exact aged_of_whole (fun p hp => mem_newDamage_of_changed hsame hp) _ _
  | true =>
    obtain ⟨old, hold, hout⟩ := h.exists_old hsame
    rw [shown_of_sameOutput hsame, keptDamage, List.map_take]
    refine ((hout ▸ hold.aged).take _).push fun newest hnewest p hp hnot => ?_
    rw [hpicture p hp]
    exact newest_eq_composite hold hcontract hout hnewest hp hnot

/-- **Step lemma**: the tracker stays in step. -/
theorem Synced.step (d : Display ι κ A C) (turn : RenderTurn ι κ A C) (h : Synced d)
    (hcontract : d.Contract turn) : Synced (d.step sort nearAll turn) := by
  have hkept : ∀ damage ∈ keptDamage d.state turn.age, damage ∈ d.state.oldDamage :=
    fun damage hdamage => List.mem_of_mem_take hdamage
  have hlength : (keptDamage d.state turn.age).length ≤ d.buffers.length :=
    (List.length_take_le' _ _).trans h.length_le
  rcases step_cases sort nearAll d turn with ⟨-, -, hstep⟩ | ⟨-, hstep⟩ | ⟨-, hstep⟩
  · rw [hstep]
    refine ⟨fun damage hdamage => h.bounded damage (hkept damage hdamage), hlength, fun hsome => ?_,
      fun hnil => h.size_none (oldDamage_eq_nil_of_keptDamage hnil)⟩
    have hkeeps : d.state.oldDamage ≠ [] := fun hnil => hsome (by simp [keptDamage, hnil])
    obtain ⟨old, hdrawn, hsound, hstate, haged, hnewest⟩ := h.records hkeeps
    refine ⟨old, hdrawn, hsound, ?_, ?_, hnewest⟩
    · dsimp only
      rw [hstate]
      rfl
    · rw [keptDamage, List.map_take]
      exact haged.take _
  · rw [hstep]
    exact synced_new
  · have hpicture : ∀ p ∈ turn.frame.out.pixels, _ := fun p hp =>
      draw_eq_composite sort nearAll h hcontract hp
    rw [hstep]
    refine ⟨fun damage hdamage => ?_, ?_, fun _ => ⟨turn.frame, rfl, hcontract.sound, rfl, ?_, ?_⟩,
      fun hnil => absurd hnil (List.cons_ne_nil _ _)⟩
    · rcases List.mem_cons.mp hdamage with rfl | hdamage
      · exact (bounded_bufferDamage h hcontract.sound).1
      · exact h.bounded damage (hkept damage hdamage)
    · change (keptDamage d.state turn.age).length + 1 ≤ (d.shown turn).length + 1
      rw [length_shown]
      exact Nat.succ_le_succ hlength
    · exact aged_step h hcontract hpicture
    · rintro newest hnewest p hp
      rw [← Option.some.inj hnewest]
      exact hpicture p hp

/-- A pixel of the newest buffer shows the picture of a turn. -/
def AlreadyShows (d : Display ι κ A C) (turn : RenderTurn ι κ A C) (p : ℤ × ℤ) : Prop :=
  ∃ newest, d.buffers[0]? = some newest ∧ newest p = turn.frame.composite p

/-- The outcome of a turn: the result, the buffer, and the display afterwards. -/
inductive Turned (d : Display ι κ A C) (turn : RenderTurn ι κ A C) :
    RenderOutputResult → (ℤ × ℤ → C) → Display ι κ A C → Prop
  | skipped (buffer : ℤ × ℤ → C) (d' : Display ι κ A C) (hbuffers : d'.buffers = d.buffers)
    (hbuffer : ∀ p ∈ turn.frame.out.pixels, buffer p = turn.frame.composite p)
    (hshows : ∀ p ∈ turn.frame.out.pixels, d.AlreadyShows turn p) :
    Turned d turn .skipped buffer d'
  | renderingError (buffer : ℤ × ℤ → C) (d' : Display ι κ A C) (hbuffers : d'.buffers = []) :
    Turned d turn .renderingError buffer d'
  | rendered (damage : List Rect) (buffer : ℤ × ℤ → C) (d' : Display ι κ A C)
    (hbuffers : d'.buffers[0]? = some buffer)
    (hbuffer : ∀ p ∈ turn.frame.out.pixels, buffer p = turn.frame.composite p)
    (hdamage : Drawable turn.frame.out damage)
    (hshows : ∀ p ∈ turn.frame.out.pixels, p ∉ covered damage → d.AlreadyShows turn p) :
    Turned d turn (.rendered damage) buffer d'

/-- **What a turn achieves.** -/
theorem turned (h : Synced d) (hcontract : d.Contract turn) :
    Turned d turn (d.render sort nearAll turn).1 (d.render sort nearAll turn).2.2
      (d.step sort nearAll turn) := by
  obtain ⟨hdrawable, hcovers⟩ := shapedDamage_spec sort nearAll hcontract.sound
    (bounded_bufferDamage h hcontract.sound).2
  have hdraw : ∀ p ∈ turn.frame.out.pixels, _ := fun p hp =>
    draw_eq_composite sort nearAll h hcontract hp
  have hshows : ∀ p ∈ turn.frame.out.pixels,
      p ∉ covered (shapedDamage d.state sort nearAll turn.age turn.frame) →
        ∃ newest, d.buffers[0]? = some newest ∧ d.target turn p = newest p ∧
          newest p = turn.frame.composite p := fun p hp hnot =>
    target_of_notMem h hcontract hp fun hin => hnot (hcovers p hp hin)
  unfold step render renderOutput
  generalize shapedDamage d.state sort nearAll turn.age turn.frame = damage at *
  cases damage with
  | nil =>
    refine .skipped _ _ rfl (fun p hp => ?_) fun p hp => ?_
    · obtain ⟨newest, -, htarget, hnewest⟩ := hshows p hp notMem_covered_nil
      exact htarget.trans hnewest
    · obtain ⟨newest, hfirst, -, hnewest⟩ := hshows p hp notMem_covered_nil
      exact ⟨newest, hfirst, hnewest⟩
  | cons r rest =>
    cases turn.failure with
    | some garbled => exact .renderingError _ _ rfl
    | none =>
      refine .rendered _ _ _ rfl hdraw hdrawable fun p hp hnot => ?_
      obtain ⟨newest, hfirst, -, hnewest⟩ := hshows p hp hnot
      exact ⟨newest, hfirst, hnewest⟩

/-! ### Whole runs -/

/-- **Run lemma**: the tracker is always in step. -/
theorem synced_run {turns : List (RenderTurn ι κ A C)}
    (h : Along (step sort nearAll) Contract new turns) : Synced (run sort nearAll turns) :=
  h.invariant (Synced.step sort nearAll) synced_new

/-- **What is on display**: whatever the scenes, the ages of the buffers, the changes of the output
and the turns that have failed, the newest buffer shows after a turn that has not failed, even if
nothing was drawn in it, the picture of its scene in every pixel of the output. -/
theorem shows_run (turns : List (RenderTurn ι κ A C)) (turn : RenderTurn ι κ A C)
    (h : Along (step sort nearAll) Contract new (turns ++ [turn])) :
    let d := run sort nearAll turns
    (d.render sort nearAll turn).1 ≠ .renderingError → ∀ p ∈ turn.frame.out.pixels,
      ∃ picture, (d.step sort nearAll turn).buffers[0]? = some picture ∧
        picture p = turn.frame.composite p := by
  intro d hresult p hp
  have hturned := turned sort nearAll (synced_run sort nearAll h.of_append : Synced d) h.after.1
  generalize d.step sort nearAll turn = d' at hturned ⊢
  generalize d.render sort nearAll turn = outcome at hturned hresult
  obtain ⟨result, state, buffer⟩ := outcome
  cases hturned with
  | skipped _ _ hbuffers _ hshows =>
    rw [hbuffers]
    exact hshows p hp
  | renderingError => exact absurd rfl hresult
  | rendered _ _ _ hbuffers hbuffer => exact ⟨buffer, hbuffers, hbuffer p hp⟩

section Witness

open BorderSystem

/-- A red square on an output of four by four pixels. -/
def square (location : ℤ × ℤ) : OutputFrame ℕ ℕ Unit ℕ where
  outputSize := (4, 4)
  outputTransform := .normal
  elements := [SolidColorBuffer.element opaqueColors ⟨1, (2, 2), 1, 7⟩ location]
  clearColor := 0

/-- The square is drawn in a place. -/
def drawSquare (age : ℕ) (location : ℤ × ℤ) : RenderTurn ℕ ℕ Unit ℕ where
  age := age
  frame := square location
  failure := none
  spare _ := 9
  reread := id

theorem sound_square {x y : ℤ} (hx : 0 ≤ x) (hy : 0 ≤ y) (hx' : x < 2) (hy' : y < 2) :
    (square (x, y)).Sound where
  width_nonneg := (by decide : (0 : ℤ) ≤ 4)
  height_nonneg := (by decide : (0 : ℤ) ≤ 4)
  width_lt := (by decide : (4 : ℤ) < 2 ^ 31)
  height_lt := (by decide : (4 : ℤ) < 2 ^ 31)
  area_lt := (by decide : (4 : ℤ) * 4 < 2 ^ 31)
  elements e he := by
    obtain rfl := List.mem_singleton.mp he
    refine sound_element opaqueColors ⟨⟨?_, ?_⟩, ⟨?_, ?_⟩, ?_, ?_, ?_, ?_⟩ <;> dsimp only <;> omega
  nodup := List.nodup_singleton _

theorem along_square (age : ℕ) :
    Along (step (.stable Rect) fun _ _ => false) Contract new
      ([drawSquare 0 (0, 0)] ++ [drawSquare age (1, 1)]) := by
  refine ⟨⟨sound_square (by decide) (by decide) (by decide) (by decide),
    fun old hold => absurd hold (by simp [new])⟩,
    ⟨sound_square (by decide) (by decide) (by decide) (by decide), fun old hold => ?_⟩, trivial⟩
  have hdrawn : old = square (0, 0) := by
    rcases step_cases (.stable Rect) (fun _ _ => false) new (drawSquare 0 (0, 0)) with
      ⟨-, -, hstep⟩ | ⟨-, hstep⟩ | ⟨-, hstep⟩
    · rw [hstep] at hold
      exact absurd hold (by simp [new])
    · rw [hstep] at hold
      exact absurd hold (by simp)
    · rw [hstep] at hold
      exact (Option.some.inj hold).symm
  subst hdrawn
  intro v hv e he hid
  have hin := (sublist_visibleElements _ _ _).subset (List.mem_map.mpr ⟨v, hv, rfl⟩)
  obtain rfl := List.mem_singleton.mp he
  rw [List.mem_singleton.mp hin]
  exact NotNewer.tracks (notNewer_element _ _) rfl _

/-- The square has moved: the pixel it has left is cleared. -/
theorem shows_run_square :
    ∃ picture : ℤ × ℤ → ℕ,
      (run (.stable Rect) (fun _ _ => false)
        ([drawSquare 0 (0, 0)] ++ [drawSquare 1 (1, 1)])).buffers[0]? = some picture ∧
      picture (0, 0) = 0 := by
  obtain ⟨picture, hfirst, hpicture⟩ := shows_run (.stable Rect) (fun _ _ => false)
    [drawSquare 0 (0, 0)] (drawSquare 1 (1, 1)) (along_square 1)
    (render_ne_renderingError _ rfl) (0, 0) (by decide)
  refine ⟨picture, hfirst, hpicture.trans ?_⟩
  decide

end Witness

/-- **What is reported**: the damage of a turn lies on the output, no two of its rectangles overlap,
and every other pixel of the output shows what the newest buffer showed before. -/
theorem damage_run (turns : List (RenderTurn ι κ A C)) (turn : RenderTurn ι κ A C)
    (h : Along (step sort nearAll) Contract new (turns ++ [turn])) (damage : List Rect) :
    let d := run sort nearAll turns
    (d.render sort nearAll turn).1 = .rendered damage →
      (∀ r ∈ damage, Within turn.frame.out r) ∧ Apart damage ∧
        ∀ p ∈ turn.frame.out.pixels, p ∉ covered damage →
          ∃ before after, d.buffers[0]? = some before ∧
            (d.step sort nearAll turn).buffers[0]? = some after ∧ before p = after p := by
  intro d hresult
  have hturned := turned sort nearAll (synced_run sort nearAll h.of_append : Synced d) h.after.1
  generalize d.step sort nearAll turn = d' at hturned ⊢
  generalize d.render sort nearAll turn = outcome at hturned hresult
  obtain ⟨result, state, buffer⟩ := outcome
  obtain rfl : result = .rendered damage := hresult
  cases hturned with
  | rendered _ _ _ hbuffers hbuffer hdamage hshows =>
    refine ⟨hdamage.within, hdamage.apart, fun p hp hnot => ?_⟩
    obtain ⟨newest, hnewest, hshown⟩ := hshows p hp hnot
    exact ⟨newest, buffer, hnewest, hbuffers, hshown.trans (hbuffer p hp).symm⟩

/-- Drawn into a buffer of unknown age, the square damages the whole output. -/
theorem damage_run_square :
    Apart [(square (1, 1)).out] ∧ ∀ r ∈ [(square (1, 1)).out], Within (square (1, 1)).out r := by
  have hcut : ([(square (1, 1)).out].filterMap fun rect =>
      rect.intersection (square (1, 1)).out) = [(square (1, 1)).out] := by decide
  have hshaped : ∀ last : RendererState ℕ ℕ Unit ℕ, shapedDamage last (.stable Rect)
      (fun _ _ => false) 0 (square (1, 1)) = [(square (1, 1)).out] := by
    intro last
    rw [shapedDamage, bufferDamage, recentEnough]
    simp only [gt_iff_lt, Nat.lt_irrefl, decide_false, Bool.false_and, Bool.false_eq_true,
      if_false, hcut, Shaper.shapeDamage, Shaper.shapeDamageImpl]
  have hresult : ((run (.stable Rect) (fun _ _ => false) [drawSquare 0 (0, 0)]).render
      (.stable Rect) (fun _ _ => false) (drawSquare 0 (1, 1))).1 =
        .rendered [(square (1, 1)).out] := by
    simp only [render, renderOutput, drawSquare, hshaped]
    rfl
  obtain ⟨hwithin, hapart, -⟩ := damage_run (.stable Rect) (fun _ _ => false)
    [drawSquare 0 (0, 0)] (drawSquare 0 (1, 1)) (along_square 0) [(square (1, 1)).out] hresult
  exact ⟨hapart, hwithin⟩

end Display

end WayRay
