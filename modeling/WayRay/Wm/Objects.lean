import WayRay.Collections.GuardedRun
import WayRay.Collections.Keyed
import WayRay.Wm.Replacement

/-!
# Window objects of former managers

The objects of two window managers can exist at the same time, while the protocol state keeps one
entry for each window.  `Tracked` is the protocol state together with the objects that exist, each
with its window and its manager, and with what belongs to the current manager: the windows announced
to it that it has not closed or given up, and the borders it has set.

`Kept` says that all of this is still there.  The only event that can take it away is the
destruction of a window object of a former manager (`kept_step_iff`): the handler removes the
entries of its window, whoever they belong to (`stale_objects_iff`).
-/

namespace WayRay

open GuardedRun Keyed

namespace WmProtocolState

/-! ### Tracked objects -/

/-- The protocol state, and whose its objects are. -/
structure Tracked where
  proto : WmProtocolState
  /-- The window objects that exist, with the window and the manager of each. -/
  objects : HashMap ObjectId (WindowId × ObjectId)
  /-- The windows of the current manager, with their objects. -/
  announced : HashMap WindowId ObjectId
  /-- The borders of the current manager. -/
  bordered : HashMap WindowId BorderSpec
  /-- The next object to be created. -/
  next : ℕ

/-- What managers and windows do. -/
inductive ObjectEvent where
  /-- A manager binds; for each existing window, whether an object can be created. -/
  | bind (outputs : List (String × ℤ × ℤ)) (existing : List (WindowSnapshot × Bool))
  | managerDestroyed (manager : ObjectId)
  | newWindow (window : WindowSnapshot) (created : Bool)
  | windowClosed (id : WindowId)
  | setBorders (object : ObjectId) (red green blue alpha : UInt32) (width : ℤ)
  | windowDestroyed (object : ObjectId)

/-- Create objects for windows, from `next` on. -/
def allocate : ℕ → List (WindowSnapshot × Bool) → List (WindowSnapshot × Option ObjectId)
  | _, [] => []
  | next, (window, created) :: windows =>
    (window, if created then some ⟨next⟩ else none) :: allocate (next + 1) windows

/-- Record the object of a window, if there is one. -/
def record (manager : ObjectId) (objects : HashMap ObjectId (WindowId × ObjectId))
    (entry : WindowSnapshot × Option ObjectId) : HashMap ObjectId (WindowId × ObjectId) :=
  match entry.2 with
  | none => objects
  | some object => objects.insert object (entry.1.id, manager)

namespace Tracked

/-- The protocol state of a compositor that starts. -/
def start : Tracked := ⟨.new, ∅, ∅, ∅, 0⟩

def step (t : Tracked) : ObjectEvent → Tracked
  | .bind outputs existing =>
    let manager : ObjectId := ⟨t.next⟩
    let windows := allocate (t.next + 1) existing
    { proto := t.proto.step (.bind manager outputs windows)
      objects := windows.foldl (record manager) t.objects
      announced := windows.foldl keepObject ∅
      bordered := ∅
      next := t.next + 1 + existing.length }
  | .managerDestroyed manager =>
    { t with
      proto := t.proto.step (.managerDestroyed manager)
      announced := if t.proto.wmClient = some manager then ∅ else t.announced
      bordered := if t.proto.wmClient = some manager then ∅ else t.bordered }
  | .newWindow window created =>
    match t.proto.wmClient with
    | none => { t with proto := t.proto.step (.newWindow window none) }
    | some manager =>
      let object : Option ObjectId := if created then some ⟨t.next⟩ else none
      { t with
        proto := t.proto.step (.newWindow window object)
        objects := record manager t.objects (window, object)
        announced := keepObject t.announced (window, object)
        next := t.next + 1 }
  | .windowClosed id =>
    { t with
      proto := t.proto.step (.windowClosed id)
      announced := t.announced.remove id
      bordered := t.bordered.remove id }
  | .setBorders object red green blue alpha width =>
    match t.objects.get object with
    | none => t
    | some (id, manager) =>
      { t with
        proto := t.proto.step (.windowRequest id (.setBorders red green blue alpha width))
        bordered :=
          match BorderSpec.fromProtocol red green blue alpha width with
          | some spec =>
            if t.proto.wmClient = some manager then t.bordered.insert id spec
            else t.bordered.remove id
          | none => t.bordered.remove id }
  | .windowDestroyed object =>
    match t.objects.get object with
    | none => t
    | some (id, manager) =>
      { t with
        proto := t.proto.step (.windowDestroyed id)
        objects := t.objects.remove object
        -- a manager that destroys its own object gives up the window
        announced := if t.proto.wmClient = some manager then t.announced.remove id else t.announced
        bordered := if t.proto.wmClient = some manager then t.bordered.remove id else t.bordered }

/-- What belongs to the current manager is there: its windows resolve and are reported when they
close, and its borders are drawn. -/
structure Kept (t : Tracked) : Prop where
  resolves : ∀ id object, t.announced.get id = some object →
    t.proto.windowIdForResource object = some id
  closes : ∀ id object, t.announced.get id = some object → ∃ manager,
    t.proto.wmClient = some manager ∧
      (t.proto.notifyWindowClosed id).sent = t.proto.sent ++ [.windowClosed manager object]
  bordered : ∀ id spec, t.bordered.get id = some spec → t.proto.borders.get id = some spec

/-- No window object of a former manager is destroyed while the current one has the same window, or
a border around it. -/
def KeepsCurrent (t : Tracked) : ObjectEvent → Prop
  | .windowDestroyed object => ∀ id manager, t.objects.get object = some (id, manager) →
    t.proto.wmClient ≠ some manager → t.announced.get id = none ∧ t.bordered.get id = none
  | _ => True

/-! ### Recorded objects -/

/-- Every window object that is kept is recorded with its window, and objects are created in
order. -/
structure Recorded (next : ℕ) (windowObjects : HashMap WindowId ObjectId)
    (objects : HashMap ObjectId (WindowId × ObjectId)) : Prop where
  window : ∀ {id object}, windowObjects.get id = some object →
    ∃ manager, objects.get object = some (id, manager)
  lt : ∀ {object entry}, objects.get object = some entry → object.raw < next

variable {next : ℕ} {windowObjects : HashMap WindowId ObjectId}
  {objects : HashMap ObjectId (WindowId × ObjectId)}

theorem Recorded.mono (h : Recorded next windowObjects objects) {next' : ℕ} (hle : next ≤ next') :
    Recorded next' windowObjects objects :=
  ⟨h.window, fun hget => lt_of_lt_of_le (h.lt hget) hle⟩

/-- A window gets the next object. -/
theorem Recorded.keep (h : Recorded next windowObjects objects) (manager : ObjectId)
    (window : WindowSnapshot) (created : Bool) :
    Recorded (next + 1)
      (keepObject windowObjects (window, if created then some ⟨next⟩ else none))
      (record manager objects (window, if created then some ⟨next⟩ else none)) := by
  cases created with
  | false => exact h.mono (Nat.le_succ next)
  | true =>
    refine ⟨fun {id object} hget => ?_, fun {object entry} hget => ?_⟩
    · simp only [keepObject, record, if_true] at hget ⊢
      rw [HashMap.get_insert] at hget
      split_ifs at hget with hid
      · obtain rfl := Option.some.inj hget
        exact ⟨manager, by rw [hid, HashMap.get_insert_self]⟩
      · obtain ⟨manager', hrecorded⟩ := h.window hget
        have hne : object ≠ ⟨next⟩ := by
          rintro rfl
          exact lt_irrefl _ (h.lt hrecorded)
        exact ⟨manager', by rw [HashMap.get_insert_of_ne _ _ hne, hrecorded]⟩
    · simp only [record, if_true] at hget
      rw [HashMap.get_insert] at hget
      split_ifs at hget with hobject
      · rw [hobject]
        exact Nat.lt_succ_self next
      · exact Nat.lt_succ_of_lt (h.lt hget)

/-- The windows of a manager that binds get objects. -/
theorem Recorded.allocate (h : Recorded next windowObjects objects) (manager : ObjectId)
    (existing : List (WindowSnapshot × Bool)) :
    Recorded (next + existing.length)
      ((WmProtocolState.allocate next existing).foldl keepObject windowObjects)
      ((WmProtocolState.allocate next existing).foldl (record manager) objects) := by
  induction existing generalizing next windowObjects objects with
  | nil => exact h
  | cons entry existing ih =>
    obtain ⟨window, created⟩ := entry
    have hrest := ih (h.keep manager window created)
    rw [Nat.add_right_comm] at hrest
    exact hrest

/-- An object belongs to one window, so it resolves to the window it is kept for. -/
theorem Recorded.windowIdForResource_eq_some {s : WmProtocolState}
    (h : Recorded next s.windowObjects objects) {object : ObjectId} {id : WindowId} :
    s.windowIdForResource object = some id ↔ s.windowObjects.get id = some object := by
  have hinj : ∀ ⦃e⦄, e ∈ s.windowObjects.toList → ∀ ⦃e'⦄, e' ∈ s.windowObjects.toList →
      e.2 = e'.2 → e = e' := by
    rintro ⟨id₁, object⟩ he ⟨id₂, _⟩ he' rfl
    obtain ⟨manager, hrecorded⟩ := h.window (HashMap.mem_toList.mp he)
    obtain ⟨manager', hrecorded'⟩ := h.window (HashMap.mem_toList.mp he')
    have hid : id₁ = id₂ := congrArg Prod.fst (Option.some.inj (hrecorded.symm.trans hrecorded'))
    rw [hid]
  unfold windowIdForResource
  rw [map_find?_eq_some hinj]
  constructor
  · rintro ⟨⟨_, _⟩, hmem, rfl, rfl⟩
    exact HashMap.mem_toList.mp hmem
  · exact fun hget => ⟨(id, object), HashMap.mem_toList.mpr hget, rfl, rfl⟩

/-- Objects that are no longer kept need not be recorded. -/
theorem Recorded.of_le {windowObjects' : HashMap WindowId ObjectId}
    (h : Recorded next windowObjects objects)
    (hle : ∀ {id object},
      windowObjects'.get id = some object → windowObjects.get id = some object) :
    Recorded next windowObjects' objects :=
  ⟨fun hget => h.window (hle hget), h.lt⟩

variable {t : Tracked}

/-- The window objects that are kept are recorded. -/
def Inv (t : Tracked) : Prop := Recorded t.next t.proto.windowObjects t.objects

/-- Binding keeps the objects of the announced windows, on top of none or of those before. -/
theorem windowObjects_bind (s : WmProtocolState) (manager : ObjectId)
    (outputs : List (String × ℤ × ℤ)) (windows : List (WindowSnapshot × Option ObjectId)) :
    (s.bind manager outputs windows).wmClient = some manager ∧
      ∃ base : HashMap WindowId ObjectId, (base = ∅ ∨ base = s.windowObjects) ∧
        (s.bind manager outputs windows).windowObjects = windows.foldl keepObject base := by
  cases hclient : s.wmClient with
  | some old =>
    obtain ⟨hmanager, howned⟩ := bind_of_connected hclient manager outputs windows
    exact ⟨hmanager, ∅, .inl rfl, congrArg Owned.windowObjects howned⟩
  | none =>
    obtain ⟨hmanager, howned⟩ := bind_of_not_connected hclient manager outputs windows
    exact ⟨hmanager, s.windowObjects, .inr rfl, congrArg Owned.windowObjects howned⟩

theorem windowObjects_announce (s : WmProtocolState) (manager : ObjectId)
    (window : WindowSnapshot) (object : Option ObjectId) :
    (s.announce manager window object).windowObjects =
      keepObject s.windowObjects (window, object) := by
  cases object <;> rfl

theorem borders_announce (s : WmProtocolState) (manager : ObjectId) (window : WindowSnapshot)
    (object : Option ObjectId) : (s.announce manager window object).borders = s.borders := by
  cases object <;> rfl

/-- A window that is closed loses its border, and its object if it is reported. -/
theorem notifyWindowClosed_cases (s : WmProtocolState) (id : WindowId) :
    ∃ sent windowObjects,
      (windowObjects = s.windowObjects ∨ windowObjects = s.windowObjects.remove id) ∧
        s.notifyWindowClosed id = { s with
          borders := s.borders.remove id, sent := sent, windowObjects := windowObjects } := by
  unfold notifyWindowClosed
  dsimp only
  split
  · exact ⟨_, _, .inr rfl, rfl⟩
  · exact ⟨_, _, .inl rfl, rfl⟩

theorem inv_step (h : t.Inv) (event : ObjectEvent) : (t.step event).Inv := by
  cases event with
  | bind outputs existing =>
    obtain ⟨-, base, hbase, hobjects⟩ := windowObjects_bind t.proto ⟨t.next⟩ outputs
      (WmProtocolState.allocate (t.next + 1) existing)
    have hrecorded : Recorded (t.next + 1) base t.objects := by
      refine Recorded.of_le (h.mono (Nat.le_succ _)) fun {id object} hget => ?_
      rcases hbase with rfl | rfl
      · exact absurd (HashMap.get_empty id ▸ hget) nofun
      · exact hget
    have hall := hrecorded.allocate ⟨t.next⟩ existing
    rw [← hobjects] at hall
    exact hall
  | managerDestroyed manager =>
    refine Recorded.of_le h fun {id object} hget => ?_
    simp only [step, WmProtocolState.step, managerDestroyed] at hget
    split_ifs at hget
    · exact absurd (HashMap.get_empty id ▸ hget) nofun
    · exact hget
  | newWindow window created =>
    simp only [step]
    cases hclient : t.proto.wmClient with
    | none =>
      refine Recorded.of_le h fun hget => ?_
      rwa [WmProtocolState.step, notifyNewWindow_of_not_connected hclient] at hget
    | some manager =>
      have hkeep := Recorded.keep h manager window created
      rw [← windowObjects_announce t.proto manager,
        ← notifyNewWindow_of_connected hclient] at hkeep
      exact hkeep
  | windowClosed id =>
    obtain ⟨sent, windowObjects, hobjects, hproto⟩ := notifyWindowClosed_cases t.proto id
    refine Recorded.of_le h fun {id' object} hget => ?_
    change (t.proto.notifyWindowClosed id).windowObjects.get id' = some object at hget
    rw [hproto] at hget
    rcases hobjects with rfl | rfl
    · exact hget
    · rw [HashMap.get_remove] at hget
      split_ifs at hget
      exact hget
  | setBorders object red green blue alpha width =>
    simp only [step]
    cases t.objects.get object with
    | none => exact h
    | some entry =>
      refine Recorded.of_le h fun hget => ?_
      simp only [WmProtocolState.step, windowRequest, renderRequest] at hget
      split at hget <;> exact hget
  | windowDestroyed object =>
    simp only [step]
    cases hobject : t.objects.get object with
    | none => exact h
    | some entry =>
      obtain ⟨destroyed, manager⟩ := entry
      refine ⟨fun {id object'} hget => ?_, fun {object' entry} hget => ?_⟩
      · simp only [WmProtocolState.step, windowDestroyed, HashMap.get_remove] at hget
        split_ifs at hget with hid
        obtain ⟨manager', hrecorded⟩ := h.window hget
        -- the destroyed object is recorded with another window
        have hne : object' ≠ object := by
          rintro rfl
          exact hid (congrArg Prod.fst (Option.some.inj (hrecorded.symm.trans hobject)))
        exact ⟨manager', by rw [HashMap.get_remove_of_ne _ hne, hrecorded]⟩
      · change (t.objects.remove object).get object' = some entry at hget
        rw [HashMap.get_remove] at hget
        split_ifs at hget
        exact h.lt hget

/-! ### What is kept -/

/-- The entries of the current manager. -/
structure Entries (t : Tracked) : Prop where
  announced : ∀ {id object}, t.announced.get id = some object →
    t.proto.windowObjects.get id = some object
  connected : ∀ {id object}, t.announced.get id = some object → t.proto.wmClient.isSome
  bordered : ∀ {id spec}, t.bordered.get id = some spec → t.proto.borders.get id = some spec

/-- Nothing is announced and nothing bordered. -/
theorem Entries.of_empty (hannounced : t.announced = ∅) (hbordered : t.bordered = ∅) :
    t.Entries := by
  refine ⟨fun {id object} hget => ?_, fun {id object} hget => ?_, fun {id spec} hget => ?_⟩
  · rw [hannounced, HashMap.get_empty] at hget
    exact absurd hget nofun
  · rw [hannounced, HashMap.get_empty] at hget
    exact absurd hget nofun
  · rw [hbordered, HashMap.get_empty] at hget
    exact absurd hget nofun

/-- Keeping the objects of further windows keeps those of the others. -/
theorem get_foldl_keepObject_mono {objects objects' : HashMap WindowId ObjectId}
    (hle : ∀ {id object}, objects.get id = some object → objects'.get id = some object)
    (windows : List (WindowSnapshot × Option ObjectId)) {id : WindowId} {object : ObjectId}
    (h : (windows.foldl keepObject objects).get id = some object) :
    (windows.foldl keepObject objects').get id = some object := by
  induction windows generalizing objects objects' with
  | nil => exact hle h
  | cons entry windows ih =>
    refine ih (fun {id' object'} hget => ?_) h
    obtain ⟨window, _ | created⟩ := entry
    · exact hle hget
    · simp only [keepObject, HashMap.get_insert] at hget ⊢
      split_ifs at hget ⊢ with hid
      · exact hget
      · exact hle hget

theorem windowRequest_setBorders (s : WmProtocolState) (id : WindowId)
    (red green blue alpha : UInt32) (width : ℤ) :
    s.windowRequest id (.setBorders red green blue alpha width) = { s with
      borders := match BorderSpec.fromProtocol red green blue alpha width with
        | some spec => s.borders.insert id spec
        | none => s.borders.remove id } := by
  simp only [windowRequest, renderRequest]
  cases BorderSpec.fromProtocol red green blue alpha width <;> rfl

/-- A window is dropped on both sides. -/
theorem Entries.without (h : t.Entries) (id : WindowId) {t' : Tracked}
    (hannounced : t'.announced = t.announced.remove id)
    (hbordered : t'.bordered = t.bordered.remove id)
    (hobjects : ∀ {id'}, id' ≠ id →
      t'.proto.windowObjects.get id' = t.proto.windowObjects.get id')
    (hborders : ∀ {id'}, id' ≠ id → t'.proto.borders.get id' = t.proto.borders.get id')
    (hclient : t'.proto.wmClient = t.proto.wmClient) : t'.Entries := by
  refine ⟨fun {id' object} hget => ?_, fun {id' object} hget => ?_, fun {id' spec} hget => ?_⟩
  · rw [hannounced, HashMap.get_remove] at hget
    split_ifs at hget with hid
    rw [hobjects hid, h.announced hget]
  · rw [hannounced, HashMap.get_remove] at hget
    split_ifs at hget
    rw [hclient]
    exact h.connected hget
  · rw [hbordered, HashMap.get_remove] at hget
    split_ifs at hget with hid
    rw [hborders hid, h.bordered hget]

/-- A window is announced, if a manager is connected. -/
theorem Entries.newWindow (h : t.Entries) (window : WindowSnapshot) (created : Bool) :
    (t.step (.newWindow window created)).Entries := by
  simp only [step, WmProtocolState.step]
  cases hclient : t.proto.wmClient with
  | none =>
    rw [notifyNewWindow_of_not_connected hclient]
    exact ⟨h.announced, h.connected, h.bordered⟩
  | some manager =>
    dsimp only
    rw [notifyNewWindow_of_connected hclient]
    refine ⟨fun {id object} hget => ?_, fun _ => ?_, fun {id spec} hget => ?_⟩
    · rw [windowObjects_announce]
      exact get_foldl_keepObject_mono h.announced [_] hget
    · rw [wmClient_announce]
      exact Option.isSome_of_eq_some hclient
    · rw [borders_announce]
      exact h.bordered hget

/-- A border is set or removed on both sides, or only removed where it is remembered. -/
theorem Entries.setBorders (h : t.Entries) (id : WindowId) (manager : ObjectId)
    (red green blue alpha : UInt32) (width : ℤ) :
    Entries { t with
      proto := t.proto.step (.windowRequest id (.setBorders red green blue alpha width))
      bordered :=
        match BorderSpec.fromProtocol red green blue alpha width with
        | some spec =>
          if t.proto.wmClient = some manager then t.bordered.insert id spec
          else t.bordered.remove id
        | none => t.bordered.remove id } := by
  rw [WmProtocolState.step, windowRequest_setBorders]
  refine ⟨h.announced, h.connected, fun {id' spec'} hget => ?_⟩
  cases hspec : BorderSpec.fromProtocol red green blue alpha width with
  | none =>
    simp only [hspec, HashMap.get_remove] at hget ⊢
    split_ifs at hget ⊢
    exact h.bordered hget
  | some spec =>
    simp only [hspec] at hget ⊢
    split_ifs at hget with hcurrent
    · rw [HashMap.get_insert] at hget ⊢
      split_ifs at hget ⊢
      · exact hget
      · exact h.bordered hget
    · rw [HashMap.get_remove] at hget
      split_ifs at hget with hid
      rw [HashMap.get_insert_of_ne _ _ hid]
      exact h.bordered hget

/-- **What an event takes from the current manager.**  Every event but the destruction of a window
object keeps its entries. -/
theorem entries_step (h : t.Entries) {event : ObjectEvent} (hevent : t.KeepsCurrent event) :
    (t.step event).Entries := by
  cases event with
  | bind outputs existing =>
    obtain ⟨hmanager, base, -, hobjects⟩ := windowObjects_bind t.proto ⟨t.next⟩ outputs
      (WmProtocolState.allocate (t.next + 1) existing)
    refine ⟨fun {id object} hget => ?_, fun _ => Option.isSome_of_eq_some hmanager,
      fun {id spec} hget => absurd (HashMap.get_empty id ▸ hget) nofun⟩
    refine (congrArg (HashMap.get · id) hobjects).trans (get_foldl_keepObject_mono ?_ _ hget)
    exact fun {id object} hempty => absurd (HashMap.get_empty id ▸ hempty) nofun
  | managerDestroyed manager =>
    by_cases hcurrent : t.proto.wmClient = some manager
    · exact .of_empty (if_pos hcurrent) (if_pos hcurrent)
    · have hproto : t.proto.step (.managerDestroyed manager) = t.proto := if_neg hcurrent
      simp only [step, hproto, if_neg hcurrent]
      exact ⟨h.announced, h.connected, h.bordered⟩
  | newWindow window created => exact h.newWindow window created
  | windowClosed id =>
    obtain ⟨sent, windowObjects, hobjects, hproto⟩ := notifyWindowClosed_cases t.proto id
    simp only [step, WmProtocolState.step, hproto]
    refine h.without id rfl rfl (fun hid => ?_) (fun hid => HashMap.get_remove_of_ne _ hid) rfl
    rcases hobjects with rfl | rfl
    · rfl
    · exact HashMap.get_remove_of_ne _ hid
  | setBorders object red green blue alpha width =>
    simp only [step]
    cases t.objects.get object with
    | none => exact h
    | some entry =>
      obtain ⟨id, manager⟩ := entry
      exact h.setBorders id manager red green blue alpha width
  | windowDestroyed object =>
    simp only [step]
    cases hobject : t.objects.get object with
    | none => exact h
    | some entry =>
      obtain ⟨id, manager⟩ := entry
      refine h.without id ?_ ?_ (fun hid => HashMap.get_remove_of_ne _ hid)
        (fun hid => HashMap.get_remove_of_ne _ hid) rfl
      all_goals
        dsimp only
        split_ifs with hcurrent
        · rfl
      · exact (HashMap.remove_eq_self_iff.mpr (hevent id manager hobject hcurrent).1).symm
      · exact (HashMap.remove_eq_self_iff.mpr (hevent id manager hobject hcurrent).2).symm

/-- What belongs to the current manager is there exactly if its entries are. -/
theorem kept_iff_entries (h : t.Inv) : t.Kept ↔ t.Entries := by
  constructor
  · intro hk
    refine ⟨fun {id object} hget => ?_, fun {id object} hget => ?_,
      fun {id spec} => hk.bordered id spec⟩
    · exact h.windowIdForResource_eq_some.mp (hk.resolves id object hget)
    · obtain ⟨manager, hmanager, -⟩ := hk.closes id object hget
      exact Option.isSome_of_eq_some hmanager
  · intro he
    refine ⟨fun id object hget => ?_, fun id object hget => ?_, fun _ _ => he.bordered⟩
    · exact h.windowIdForResource_eq_some.mpr (he.announced hget)
    · obtain ⟨manager, hmanager⟩ := Option.isSome_iff_exists.mp (he.connected hget)
      refine ⟨manager, hmanager, ?_⟩
      simp only [notifyWindowClosed, hmanager, he.announced hget]
      rfl

/-- The destruction of a stale object takes the entries of its window. -/
theorem keepsCurrent_of_entries_step {event : ObjectEvent} (h : (t.step event).Entries) :
    t.KeepsCurrent event := by
  cases event with
  | windowDestroyed object =>
    intro id manager hobject hother
    simp only [step, hobject, if_neg hother] at h
    constructor
    · refine Option.eq_none_iff_forall_ne_some.mpr fun object' hget => ?_
      have hgone := (HashMap.get_remove_self _ _).symm.trans (h.announced hget)
      exact absurd hgone.symm (Option.some_ne_none object')
    · refine Option.eq_none_iff_forall_ne_some.mpr fun spec hget => ?_
      have hgone := (HashMap.get_remove_self _ _).symm.trans (h.bordered hget)
      exact absurd hgone.symm (Option.some_ne_none spec)
  | _ => trivial

/-- **An event keeps what belongs to the current manager** exactly if it destroys no object of a
former manager whose window is the current one's. -/
theorem kept_step_iff (h : t.Inv) (hk : t.Kept) (event : ObjectEvent) :
    t.KeepsCurrent event ↔ (t.step event).Kept := by
  rw [kept_iff_entries (inv_step h event)]
  exact ⟨entries_step ((kept_iff_entries h).mp hk), keepsCurrent_of_entries_step⟩

/-- **Stale window objects.**  Over every sequence of binds, replacements and disconnects, of
windows that are created and closed, border requests, and objects destroyed in any order: every
window announced to the current manager that it has not given up keeps resolving and is reported
when it closes, and every border it has set stays, if and only if no window object of a former
manager is destroyed while the current one has the same window, or a border around it. -/
theorem stale_objects_iff (events : List ObjectEvent) :
    (∀ pre, pre <+: events → (pre.foldl step start).Kept) ↔
      Along step KeepsCurrent start events := by
  have hinv : start.Inv := by
    refine ⟨fun {id object} hget => ?_, fun {object entry} hget => ?_⟩
    · exact absurd (HashMap.get_empty id ▸ hget) nofun
    · exact absurd (HashMap.get_empty object ▸ hget) nofun
  have hkept : start.Kept := (kept_iff_entries hinv).mpr (.of_empty rfl rfl)
  exact (along_iff_forall_initial (I := Inv) (G := Kept) (fun _ event h => inv_step h event)
    (fun _ event h hk => kept_step_iff h hk event) hinv hkept).symm

/-- A manager is replaced while a window is open, and destroys its object for it. -/
theorem stale_object_disturbs :
    ¬ ∀ events : List ObjectEvent, (events.foldl step start).Kept := by
  intro h
  have hkept := h [.bind [] [(⟨⟨1⟩, none, none, 800, 600⟩, true)],
    .bind [] [(⟨⟨1⟩, none, none, 800, 600⟩, true)], .windowDestroyed ⟨1⟩]
  exact absurd (hkept.resolves ⟨1⟩ ⟨3⟩ (by decide)) (by decide)

end Tracked

end WmProtocolState

end WayRay
