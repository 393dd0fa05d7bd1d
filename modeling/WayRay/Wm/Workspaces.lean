import Mathlib.Logic.Unique
import Mathlib.Order.Bounds.Basic
import WayRay.Collections.Since
import WayRay.Wm.Types

/-!
# Workspaces by their history

What a window manager asks of the workspaces is a history of `WorkspaceChange`s, applied one after
the other (`WorkspaceState.apply`).  The rule below says from the history alone which windows are
visible (`History.Visible`): where a window was assigned, tagged or sent last, which tags an output
was given last, and where its active workspace has moved to.

The maps of the state hold exactly what the rule reads off the history.  Each map is treated alike:
what one change does to one entry (`apply_windowTags` and its like), and from it the rule for facts
that hold since a change (`run_windowTags` and its like).
-/

namespace WayRay

open PastEvents

/-- The changes of the workspace state. -/
inductive WorkspaceChange where
  | createWorkspace (name : String)
  | destroyWorkspace (name : String)
  | setActiveWorkspace (outputName workspaceName : String)
  | setActiveTags (outputName : String) (tags : UInt32)
  | assignWindow (id : WindowId) (workspaceName : String)
  | setWindowTags (id : WindowId) (tags : UInt32)
  | setWindowOutput (id : WindowId) (outputName : String)
deriving DecidableEq

namespace WorkspaceState

def apply (s : WorkspaceState) : WorkspaceChange → WorkspaceState
  | .createWorkspace name => s.createWorkspace name
  | .destroyWorkspace name => s.destroyWorkspace name
  | .setActiveWorkspace outputName workspaceName => s.setActiveWorkspace outputName workspaceName
  | .setActiveTags outputName tags => s.setActiveTags outputName tags
  | .assignWindow id workspaceName => s.assignWindow id workspaceName
  | .setWindowTags id tags => s.setWindowTags id tags
  | .setWindowOutput id outputName => s.setWindowOutput id outputName

/-- The state after a history of changes. -/
def run (history : List WorkspaceChange) : WorkspaceState := history.foldl apply default

end WorkspaceState

/-! ### The rule -/

namespace WorkspaceChange

/-- The change assigns the window to a workspace, or gives it tags. -/
def Places (id : WindowId) : WorkspaceChange → Prop
  | assignWindow id' _ | setWindowTags id' _ => id' = id
  | _ => False

/-- The change sends the window to an output. -/
def Sends (id : WindowId) : WorkspaceChange → Prop
  | setWindowOutput id' _ => id' = id
  | _ => False

/-- The change sets the active workspace of the output. -/
def Activates (output : String) : WorkspaceChange → Prop
  | setActiveWorkspace output' _ => output' = output
  | _ => False

/-- The change sets the active tags of the output. -/
def SetsTags (output : String) : WorkspaceChange → Prop
  | setActiveTags output' _ => output' = output
  | _ => False

end WorkspaceChange

namespace History

/-- The workspace has been created, and not destroyed since. -/
def Remaining (history : List WorkspaceChange) (name : String) : Prop :=
  Since (· ≠ .destroyWorkspace name) (.createWorkspace name) history

/-- The window was last assigned to the workspace, which has not been destroyed since. -/
def Assigned (history : List WorkspaceChange) (id : WindowId) (name : String) : Prop :=
  Since (fun e => ¬ e.Places id ∧ e ≠ .destroyWorkspace name) (.assignWindow id name) history

/-- The window was last given the tags. -/
def Tagged (history : List WorkspaceChange) (id : WindowId) (tags : UInt32) : Prop :=
  Since (fun e => ¬ e.Places id) (.setWindowTags id tags) history

/-- The window was last sent to the output. -/
def SentTo (history : List WorkspaceChange) (id : WindowId) (output : String) : Prop :=
  Since (fun e => ¬ e.Sends id) (.setWindowOutput id output) history

/-- The output was last given the tags. -/
def TagsSet (history : List WorkspaceChange) (output : String) (tags : UInt32) : Prop :=
  Since (fun e => ¬ e.SetsTags output) (.setActiveTags output tags) history

/-- The active tags of an output: those it was last given, the first tag by default. -/
def ActiveTags (history : List WorkspaceChange) (output : String) (tags : UInt32) : Prop :=
  TagsSet history output tags ∨ (∀ tags', ¬ TagsSet history output tags') ∧ tags = 1

/-- The workspace is active on the output: it was set there, or the one that was active has been
destroyed while this was the least remaining name; and neither has the output been given another
since nor this one been destroyed. -/
inductive ActiveOn (output : String) : List WorkspaceChange → String → Prop
  | set (history : List WorkspaceChange) (name : String) :
    ActiveOn output (history ++ [.setActiveWorkspace output name]) name
  | moved {history : List WorkspaceChange} {old name : String} :
    ActiveOn output history old →
    IsLeast {name | Remaining (history ++ [.destroyWorkspace old]) name} name →
    ActiveOn output (history ++ [.destroyWorkspace old]) name
  | kept {history : List WorkspaceChange} {name : String} {e : WorkspaceChange} :
    ActiveOn output history name → ¬ e.Activates output → e ≠ .destroyWorkspace name →
    ActiveOn output (history ++ [e]) name

/-- An output is known if it has been given tags or has an active workspace; the default output
always is. -/
def Known (history : List WorkspaceChange) (output : String) : Prop :=
  output = defaultOutput ∨ (∃ tags, TagsSet history output tags) ∨
    ∃ name, ActiveOn output history name

open Classical in
/-- The output that a name stands for. -/
noncomputable def resolve (history : List WorkspaceChange) (output : String) : String :=
  if Known history output then output else defaultOutput

/-- Which windows are visible on an output: those sent to no other, and of these the tagged ones
with an active tag, the assigned ones with the active workspace, and all others. -/
def Visible (history : List WorkspaceChange) (id : WindowId) (output : String) : Prop :=
  (∀ output', SentTo history id output' → resolve history output' = resolve history output) ∧
  (∀ tags active, Tagged history id tags → ActiveTags history (resolve history output) active →
    tags &&& active ≠ 0) ∧
  ∀ name, Assigned history id name → ActiveOn (resolve history output) history name

/-- An output has been given tags iff there is a change that set some. -/
theorem exists_tagsSet_iff {history : List WorkspaceChange} {output : String} :
    (∃ e ∈ history, e.SetsTags output) ↔ ∃ tags, TagsSet history output tags := by
  rw [← exists_since_iff]
  constructor
  · rintro ⟨e, he, hsince⟩
    cases e with
    | setActiveTags output' tags =>
      obtain rfl : output' = output := he
      exact ⟨tags, hsince⟩
    | _ => exact he.elim
  · rintro ⟨tags, hsince⟩
    exact ⟨.setActiveTags output tags, rfl, hsince⟩

theorem activeOn_concat {history : List WorkspaceChange} {e : WorkspaceChange}
    {output name : String} :
    ActiveOn output (history ++ [e]) name ↔
      e = .setActiveWorkspace output name ∨
      (∃ old, e = .destroyWorkspace old ∧ ActiveOn output history old ∧
        IsLeast {name | Remaining (history ++ [e]) name} name) ∨
      ActiveOn output history name ∧ ¬ e.Activates output ∧ e ≠ .destroyWorkspace name := by
  constructor
  · intro h
    generalize hfull : history ++ [e] = full at h
    cases h with
    | set history' _ =>
      obtain ⟨-, he⟩ := List.append_inj' hfull rfl
      exact .inl (List.head_eq_of_cons_eq he)
    | moved hactive hleast =>
      obtain ⟨rfl, he⟩ := List.append_inj' hfull rfl
      exact .inr (.inl ⟨_, List.head_eq_of_cons_eq he, hactive, hleast⟩)
    | kept hactive houtput hname =>
      obtain ⟨rfl, he⟩ := List.append_inj' hfull rfl
      obtain rfl := List.head_eq_of_cons_eq he
      exact .inr (.inr ⟨hactive, houtput, hname⟩)
  · rintro (rfl | ⟨old, rfl, hactive, hleast⟩ | ⟨hactive, houtput, hname⟩)
    · exact .set history name
    · exact .moved hactive hleast
    · exact .kept hactive houtput hname

end History

/-! ### What one change does -/

namespace WorkspaceState

open HashMap WorkspaceChange

theorem destroyWorkspace_active (s : WorkspaceState) (name output : String) :
    (s.destroyWorkspace name).active.get output =
      if s.active.get output = some name then (s.workspaces.remove name).keys.min?
      else s.active.get output := by
  have hmem : output ∈ (s.active.toList.filter fun entry => entry.2 = name).map Prod.fst ↔
      s.active.get output = some name := by
    rw [← mem_toList]
    simp
  simp only [destroyWorkspace]
  cases (s.workspaces.remove name).keys.min? with
  | none => simp only [get_foldl_remove, hmem]
  | some next => simp only [get_foldl_insert_const, hmem]

theorem apply_workspaces (s : WorkspaceState) (e : WorkspaceChange) {name : String} :
    (s.apply e).workspaces.get name = some () ↔
      e = .createWorkspace name ∨
        s.workspaces.get name = some () ∧ e ≠ .destroyWorkspace name := by
  cases e with
  | createWorkspace name' => grind [apply, createWorkspace, get_insert]
  | destroyWorkspace name' => grind [apply, destroyWorkspace, get_remove]
  | _ => simp [apply, setActiveWorkspace, setActiveTags, assignWindow, setWindowTags,
      setWindowOutput]

theorem apply_windowWorkspace (s : WorkspaceState) (e : WorkspaceChange) {id : WindowId}
    {name : String} :
    (s.apply e).windowWorkspace.get id = some name ↔
      e = .assignWindow id name ∨
        s.windowWorkspace.get id = some name ∧ ¬ e.Places id ∧ e ≠ .destroyWorkspace name := by
  cases e with
  | assignWindow id' name' => grind [apply, assignWindow, get_insert, Places]
  | setWindowTags id' tags => grind [apply, setWindowTags, get_remove, Places]
  | destroyWorkspace name' => grind [apply, destroyWorkspace, get_retain_eq_some, Places]
  | _ => simp [apply, createWorkspace, setActiveWorkspace, setActiveTags, setWindowOutput, Places]

theorem apply_windowTags (s : WorkspaceState) (e : WorkspaceChange) {id : WindowId}
    {tags : UInt32} :
    (s.apply e).windowTags.get id = some tags ↔
      e = .setWindowTags id tags ∨ s.windowTags.get id = some tags ∧ ¬ e.Places id := by
  cases e with
  | assignWindow id' name' => grind [apply, assignWindow, get_remove, Places]
  | setWindowTags id' tags => grind [apply, setWindowTags, get_insert, Places]
  | _ => simp [apply, createWorkspace, destroyWorkspace, setActiveWorkspace, setActiveTags,
      setWindowOutput, Places]

theorem apply_windowOutput (s : WorkspaceState) (e : WorkspaceChange) {id : WindowId}
    {output : String} :
    (s.apply e).windowOutput.get id = some output ↔
      e = .setWindowOutput id output ∨ s.windowOutput.get id = some output ∧ ¬ e.Sends id := by
  cases e with
  | setWindowOutput id' output' => grind [apply, setWindowOutput, get_insert, Sends]
  | _ => simp [apply, createWorkspace, destroyWorkspace, setActiveWorkspace, setActiveTags,
      assignWindow, setWindowTags, Sends]

theorem apply_activeTags (s : WorkspaceState) (e : WorkspaceChange) {output : String}
    {tags : UInt32} :
    (s.apply e).activeTags.get output = some tags ↔
      e = .setActiveTags output tags ∨
        s.activeTags.get output = some tags ∧ ¬ e.SetsTags output := by
  cases e with
  | setActiveTags output' tags' => grind [apply, setActiveTags, get_insert, SetsTags]
  | _ => simp [apply, createWorkspace, destroyWorkspace, setActiveWorkspace, assignWindow,
      setWindowTags, setWindowOutput, SetsTags]

/-- The workspace that takes over from a destroyed one is the least that remains. -/
theorem min?_remaining_eq_some_iff (s : WorkspaceState) (old : String) {name : String} :
    (s.workspaces.remove old).keys.min? = some name ↔
      IsLeast {name | (s.destroyWorkspace old).workspaces.get name = some ()} name := by
  rw [List.min?_eq_some_iff]
  simp [IsLeast, lowerBounds, mem_keys, destroyWorkspace, Unique.exists_iff]

theorem apply_active (s : WorkspaceState) (e : WorkspaceChange) {output name : String} :
    (s.apply e).active.get output = some name ↔
      e = .setActiveWorkspace output name ∨
      (∃ old, e = .destroyWorkspace old ∧ s.active.get output = some old ∧
        IsLeast {name | (s.apply e).workspaces.get name = some ()} name) ∨
      s.active.get output = some name ∧ ¬ e.Activates output ∧ e ≠ .destroyWorkspace name := by
  cases e with
  | setActiveWorkspace output' name' => grind [apply, setActiveWorkspace, get_insert, Activates]
  | destroyWorkspace old =>
    simp only [apply, destroyWorkspace_active, ← min?_remaining_eq_some_iff]
    split
    · grind [Activates]
    · grind [Activates]
  | _ => simp [apply, createWorkspace, setActiveTags, assignWindow, setWindowTags, setWindowOutput,
      Activates]

/-! ### What a history does -/

variable (history : List WorkspaceChange)

theorem run_workspaces {name : String} :
    (run history).workspaces.get name = some () ↔ History.Remaining history name :=
  foldl_iff_since_of_not (R := fun s : WorkspaceState => s.workspaces.get name = some ())
    (fun s e => s.apply_workspaces e) (by simp [default]) history

theorem run_windowWorkspace {id : WindowId} {name : String} :
    (run history).windowWorkspace.get id = some name ↔ History.Assigned history id name :=
  foldl_iff_since_of_not (R := fun s : WorkspaceState => s.windowWorkspace.get id = some name)
    (fun s e => s.apply_windowWorkspace e) (by simp [default]) history

theorem run_windowTags {id : WindowId} {tags : UInt32} :
    (run history).windowTags.get id = some tags ↔ History.Tagged history id tags :=
  foldl_iff_since_of_not (R := fun s : WorkspaceState => s.windowTags.get id = some tags)
    (fun s e => s.apply_windowTags e) (by simp [default]) history

theorem run_windowOutput {id : WindowId} {output : String} :
    (run history).windowOutput.get id = some output ↔ History.SentTo history id output :=
  foldl_iff_since_of_not (R := fun s : WorkspaceState => s.windowOutput.get id = some output)
    (fun s e => s.apply_windowOutput e) (by simp [default]) history

/-- The default output starts with the first tag. -/
theorem run_activeTags {output : String} {tags : UInt32} :
    (run history).activeTags.get output = some tags ↔
      History.TagsSet history output tags ∨
        (output = WayRay.defaultOutput ∧ tags = 1) ∧
          ∀ tags', ¬ History.TagsSet history output tags' := by
  have h0 : default.activeTags.get output = some tags ↔
      output = WayRay.defaultOutput ∧ tags = 1 := by
    grind [default, get_insert, get_empty]
  have hnever : (∀ tags', ¬ History.TagsSet history output tags') ↔
      ∀ e ∈ history, ¬ e.SetsTags output := by
    rw [← not_exists, ← History.exists_tagsSet_iff]
    simp
  rw [hnever, ← h0]
  exact foldl_iff_since (R := fun s : WorkspaceState => s.activeTags.get output = some tags)
    (fun s e => s.apply_activeTags e) default history

theorem run_active {output name : String} :
    (run history).active.get output = some name ↔ History.ActiveOn output history name := by
  induction history using List.reverseRecOn generalizing name with
  | nil =>
    refine iff_of_false (by simp [run, default]) fun h => ?_
    generalize hnil : ([] : List WorkspaceChange) = empty at h
    cases h <;> simp at hnil
  | append_singleton history e ih =>
    have hstep : run (history ++ [e]) = (run history).apply e := by simp [run]
    rw [hstep, apply_active, ← hstep, History.activeOn_concat, ih]
    simp only [ih, run_workspaces]

/-! ### Visibility -/

theorem defaultOutput_run : (run history).defaultOutput = WayRay.defaultOutput := by
  induction history using List.reverseRecOn with
  | nil => rfl
  | append_singleton history e ih =>
    have hstep : run (history ++ [e]) = (run history).apply e := by simp [run]
    rw [hstep, ← ih]
    cases e <;> rfl

theorem outputKey_run (output : String) :
    (run history).outputKey output = History.resolve history output := by
  have hactive : (run history).active.containsKey output = true ↔
      ∃ name, History.ActiveOn output history name := by
    rw [containsKey, Option.isSome_iff_exists]
    exact exists_congr fun name => run_active history
  have htags : (run history).activeTags.containsKey output = true ↔
      (∃ tags, History.TagsSet history output tags) ∨
        output = WayRay.defaultOutput ∧ ∀ tags, ¬ History.TagsSet history output tags := by
    simp only [containsKey, Option.isSome_iff_exists, run_activeTags, exists_or,
      exists_and_right, exists_and_left, exists_eq, and_true]
  have hknown : ((run history).active.containsKey output ||
      (run history).activeTags.containsKey output ||
      output == WayRay.defaultOutput) = true ↔ History.Known history output := by
    rw [Bool.or_eq_true, Bool.or_eq_true, hactive, htags, beq_iff_eq, History.Known]
    tauto
  rw [outputKey, defaultOutput_run, History.resolve]
  by_cases h : History.Known history output
  · rw [if_pos h, if_pos (hknown.mpr h)]
  · rw [if_neg h, if_neg (mt hknown.mp h)]

/-- The tags that are active on an output, whichever it stands for. -/
theorem activeTagsFor_run {output : String} {tags : UInt32} :
    (run history).activeTagsFor output = tags ↔
      History.ActiveTags history (History.resolve history output) tags := by
  rw [activeTagsFor, outputKey_run, History.ActiveTags]
  generalize History.resolve history output = key
  have hget : ∀ tags, (run history).activeTags.get key = some tags ↔ _ := fun tags =>
    run_activeTags history
  by_cases hset : ∃ tags, History.TagsSet history key tags
  · have hnot : ¬ ∀ tags, ¬ History.TagsSet history key tags := by simpa using hset
    simp only [hnot, and_false, or_false, false_and] at hget ⊢
    obtain ⟨tags', htags'⟩ := hset
    rw [← hget, (hget tags').mpr htags', Option.getD_some, Option.some.injEq]
  · have hnot : ∀ tags, ¬ History.TagsSet history key tags := by simpa using hset
    simp only [hnot, not_false_eq_true, implies_true, and_true, true_and, false_or] at hget ⊢
    cases hvalue : (run history).activeTags.get key with
    | none => exact eq_comm
    | some tags' => rw [Option.getD_some, ((hget tags').mp hvalue).2, eq_comm]

theorem activeWorkspaceFor_run {output name : String} :
    (run history).activeWorkspaceFor output = some name ↔
      History.ActiveOn (History.resolve history output) history name := by
  rw [activeWorkspaceFor, outputKey_run, run_active]

/-- A change that tags a window ends its assignment, and one that assigns it ends its tags. -/
theorem not_assigned_of_tagged {history : List WorkspaceChange} {id : WindowId} {tags : UInt32}
    {name : String} (htags : History.Tagged history id tags) :
    ¬ History.Assigned history id name := by
  induction history using List.reverseRecOn with
  | nil => exact absurd htags not_since_nil
  | append_singleton history e ih =>
    intro hassigned
    rcases since_concat.mp htags with rfl | ⟨htags', he⟩
    · rcases since_concat.mp hassigned with heq | ⟨-, hplaces, -⟩
      · cases heq
      · exact hplaces rfl
    · rcases since_concat.mp hassigned with rfl | ⟨hassigned', -⟩
      · exact he rfl
      · exact ih htags' hassigned'

theorem isActive_run {id : WindowId} {output : String} :
    (run history).isActive id output = true ↔
      (∀ tags active, History.Tagged history id tags →
        History.ActiveTags history (History.resolve history output) active → tags &&& active ≠ 0) ∧
      ∀ name, History.Assigned history id name →
        History.ActiveOn (History.resolve history output) history name := by
  simp only [← run_windowTags, ← activeTagsFor_run, ← run_windowWorkspace, ← activeWorkspaceFor_run]
  unfold isActive
  cases htags : (run history).windowTags.get id with
  | some tags =>
    have hfree : ∀ name, (run history).windowWorkspace.get id ≠ some name := fun name =>
      mt (run_windowWorkspace history).mp
        (not_assigned_of_tagged ((run_windowTags history).mp htags))
    simp [hfree]
  | none =>
    cases hworkspace : (run history).windowWorkspace.get id with
    | some name => simp
    | none => simp

theorem isVisible_run {id : WindowId} {output : String} :
    (run history).isVisible id output = true ↔ History.Visible history id output := by
  rw [History.Visible, ← isActive_run]
  simp only [← run_windowOutput, ← outputKey_run]
  unfold isVisible
  cases (run history).windowOutput.get id with
  | some assigned => simp
  | none => simp

/-! ### Destroyed workspaces -/

theorem destroyWorkspace_not_assigned (s : WorkspaceState) (name : String) (id : WindowId) :
    (s.destroyWorkspace name).windowWorkspace.get id ≠ some name := by
  intro h
  rcases (s.apply_windowWorkspace (.destroyWorkspace name)).mp h with heq | ⟨-, -, hne⟩
  · cases heq
  · exact hne rfl

/-- The workspace that takes over remains, and so is another one. -/
theorem destroyWorkspace_not_active (s : WorkspaceState) (name output : String) :
    (s.destroyWorkspace name).active.get output ≠ some name := by
  intro h
  rcases (s.apply_active (.destroyWorkspace name)).mp h with
    heq | ⟨old, -, -, hleast⟩ | ⟨-, -, hne⟩
  · cases heq
  · rcases (s.apply_workspaces (.destroyWorkspace name)).mp hleast.1 with heq | ⟨-, hne⟩
    · cases heq
    · exact hne rfl
  · exact hne rfl

/-- After every history of changes the windows are visible where the history says; no window is
assigned and tagged at once; and destroying a workspace leaves it neither to a window nor to an
output. -/
theorem run_refines (history : List WorkspaceChange) :
    (∀ id output, (run history).isVisible id output = true ↔ History.Visible history id output) ∧
    (∀ id, (run history).windowWorkspace.get id = none ∨ (run history).windowTags.get id = none) ∧
    ∀ name,
      (∀ id, ((run history).destroyWorkspace name).windowWorkspace.get id ≠ some name) ∧
      ∀ output, ((run history).destroyWorkspace name).active.get output ≠ some name ∧
        ((run history).destroyWorkspace name).activeWorkspaceFor output ≠ some name := by
  refine ⟨fun id output => isVisible_run history, fun id => ?_, fun name => ⟨fun id =>
    destroyWorkspace_not_assigned _ name id, fun output =>
      ⟨destroyWorkspace_not_active _ name output, destroyWorkspace_not_active _ name _⟩⟩⟩
  cases hworkspace : (run history).windowWorkspace.get id with
  | none => exact .inl rfl
  | some name =>
    right
    by_contra htagged
    obtain ⟨tags, htags⟩ := Option.ne_none_iff_exists'.mp htagged
    exact not_assigned_of_tagged ((run_windowTags history).mp htags)
      ((run_windowWorkspace history).mp hworkspace)

end WorkspaceState

end WayRay
