import WayRay.Wm.Objects

/-!
# Announced windows

A window manager learns of windows by the `window_new` events sent to it and forgets them by
`window_closed`.  `Announced` reads off the log which windows a manager knows.  The events name
objects, so the objects that have been created are recorded with their windows (`created`).

`Ledger` says what holds of the log, the objects and the entries of the protocol state at any time:
an entry stands for an announced window, and no window is announced twice to the current manager.
Announcing adds a window (`Ledger.announceAll`), closing one takes it away if it has an entry
(`Ledger.windowClosed`).
-/

namespace WayRay

namespace WmProtocolState

/-! ### The log -/

/-- A window object has been announced, and not been reported closed. -/
def IsOpen (s : WmProtocolState) (manager object : ObjectId) : Prop :=
  .windowNew manager object ∈ s.sent ∧ .windowClosed manager object ∉ s.sent

/-- The manager knows a window. -/
def Announced (s : WmProtocolState) (created : List (ObjectId × WindowId)) (manager : ObjectId)
    (id : WindowId) : Prop :=
  ∃ object, s.IsOpen manager object ∧ (object, id) ∈ created

/-- The log, the objects created so far and the entries of windows belong together. -/
structure Ledger (created : List (ObjectId × WindowId)) (next : ℕ) (s : WmProtocolState) :
    Prop where
  nodup : (created.map Prod.fst).Nodup
  created_lt : ∀ entry ∈ created, entry.1.raw < next
  new_lt : ∀ {manager object}, .windowNew manager object ∈ s.sent →
    manager.raw < next ∧ object.raw < next
  closed_lt : ∀ {manager object}, .windowClosed manager object ∈ s.sent →
    manager.raw < next ∧ object.raw < next
  client_lt : ∀ {manager}, s.wmClient = some manager → manager.raw < next
  /-- An entry stands for a window that the current manager knows. -/
  kept : ∀ {id object}, s.windowObjects.get id = some object →
    ∃ manager, s.wmClient = some manager ∧ s.IsOpen manager object ∧ (object, id) ∈ created
  /-- A window is announced to the current manager once. -/
  once : ∀ {manager object object' id}, s.wmClient = some manager →
    .windowNew manager object ∈ s.sent → .windowNew manager object' ∈ s.sent →
    (object, id) ∈ created → (object', id) ∈ created → object = object'

variable {created : List (ObjectId × WindowId)} {next : ℕ} {s s' : WmProtocolState}

/-- No window appears in or disappears from the log. -/
structure SameWindowEvents (s s' : WmProtocolState) : Prop where
  new : ∀ manager object, .windowNew manager object ∈ s'.sent ↔ .windowNew manager object ∈ s.sent
  closed : ∀ manager object,
    .windowClosed manager object ∈ s'.sent ↔ .windowClosed manager object ∈ s.sent

theorem SameWindowEvents.isOpen (h : SameWindowEvents s s') (manager object : ObjectId) :
    s'.IsOpen manager object ↔ s.IsOpen manager object :=
  and_congr (h.new manager object) (not_congr (h.closed manager object))

theorem SameWindowEvents.announced (h : SameWindowEvents s s') (manager : ObjectId)
    (id : WindowId) : s'.Announced created manager id ↔ s.Announced created manager id :=
  exists_congr fun object => and_congr_left' (h.isOpen manager object)

theorem Ledger.mono (h : Ledger created next s) {next' : ℕ} (hle : next ≤ next') :
    Ledger created next' s where
  nodup := h.nodup
  created_lt := fun entry hentry => (h.created_lt entry hentry).trans_le hle
  new_lt := fun hnew => ⟨(h.new_lt hnew).1.trans_le hle, (h.new_lt hnew).2.trans_le hle⟩
  closed_lt := fun hclosed =>
    ⟨(h.closed_lt hclosed).1.trans_le hle, (h.closed_lt hclosed).2.trans_le hle⟩
  client_lt := fun hclient => (h.client_lt hclient).trans_le hle
  kept := h.kept
  once := h.once

/-- Entries are dropped at most. -/
theorem Ledger.of_same (h : Ledger created next s) (hsame : SameWindowEvents s s')
    (hclient : s'.wmClient = s.wmClient)
    (hobjects : ∀ {id object}, s'.windowObjects.get id = some object →
      s.windowObjects.get id = some object) : Ledger created next s' where
  nodup := h.nodup
  created_lt := h.created_lt
  new_lt := fun hnew => h.new_lt ((hsame.new _ _).mp hnew)
  closed_lt := fun hclosed => h.closed_lt ((hsame.closed _ _).mp hclosed)
  client_lt := fun hmanager => h.client_lt (hclient.symm.trans hmanager)
  kept := fun hget => by
    obtain ⟨manager, hmanager, hopen, hcreated⟩ := h.kept (hobjects hget)
    exact ⟨manager, hclient.trans hmanager, (hsame.isOpen _ _).mpr hopen, hcreated⟩
  once := fun hmanager hnew hnew' =>
    h.once (hclient.symm.trans hmanager) ((hsame.new _ _).mp hnew) ((hsame.new _ _).mp hnew')

/-- The current manager goes, or another one comes: nothing has been announced to it, and there are
no entries. -/
theorem Ledger.of_client (h : Ledger created next s) (hsame : SameWindowEvents s s') {next' : ℕ}
    (hle : next ≤ next')
    (hclient : ∀ {manager}, s'.wmClient = some manager → next ≤ manager.raw ∧ manager.raw < next')
    (hobjects : ∀ id, s'.windowObjects.get id = none) : Ledger created next' s' where
  nodup := h.nodup
  created_lt := (h.mono hle).created_lt
  new_lt := fun hnew => (h.mono hle).new_lt ((hsame.new _ _).mp hnew)
  closed_lt := fun hclosed => (h.mono hle).closed_lt ((hsame.closed _ _).mp hclosed)
  client_lt := fun hmanager => (hclient hmanager).2
  kept := fun {id object} hget => absurd ((hobjects id).symm.trans hget) nofun
  once := fun hmanager hnew => by
    have hlt := (h.new_lt ((hsame.new _ _).mp hnew)).1
    exact absurd (hclient hmanager).1 (Nat.not_le.mpr hlt)

/-! ### Announcing windows -/

theorem windowNew_mem_announce (s : WmProtocolState) (manager : ObjectId) (window : WindowSnapshot)
    (object manager' object' : ObjectId) :
    .windowNew manager' object' ∈ (s.announce manager window (some object)).sent ↔
      .windowNew manager' object' ∈ s.sent ∨ manager' = manager ∧ object' = object := by
  simp [announce, send]

theorem windowClosed_mem_announce (s : WmProtocolState) (manager : ObjectId)
    (window : WindowSnapshot) (object manager' object' : ObjectId) :
    .windowClosed manager' object' ∈ (s.announce manager window (some object)).sent ↔
      .windowClosed manager' object' ∈ s.sent := by
  simp [announce, send]

section Announce

variable {manager : ObjectId} (h : Ledger created next s) (hclient : s.wmClient = some manager)

include h

/-- A new object is not in the log. -/
theorem Ledger.notMem_sent (manager : ObjectId) :
    .windowNew manager ⟨next⟩ ∉ s.sent ∧ .windowClosed manager ⟨next⟩ ∉ s.sent :=
  ⟨fun hnew => Nat.lt_irrefl _ (h.new_lt hnew).2,
    fun hclosed => Nat.lt_irrefl _ (h.closed_lt hclosed).2⟩

theorem Ledger.notMem_created (id : WindowId) : (⟨next⟩, id) ∉ created :=
  fun hmem => Nat.lt_irrefl _ (h.created_lt _ hmem)

/-- The current manager knows one more window. -/
theorem Ledger.announced_announce (window : WindowSnapshot) (id : WindowId) :
    (s.announce manager window (some ⟨next⟩)).Announced (created ++ [(⟨next⟩, window.id)])
        manager id ↔ s.Announced created manager id ∨ id = window.id := by
  unfold Announced IsOpen
  simp only [windowNew_mem_announce, windowClosed_mem_announce, List.mem_append,
    List.mem_singleton, Prod.mk.injEq, true_and]
  constructor
  · rintro ⟨object, ⟨hnew, hclosed⟩, hold | ⟨rfl, rfl⟩⟩
    · rcases hnew with hnew | rfl
      · exact .inl ⟨object, ⟨hnew, hclosed⟩, hold⟩
      · exact absurd hold (h.notMem_created id)
    · exact .inr rfl
  · rintro (⟨object, ⟨hnew, hclosed⟩, hold⟩ | rfl)
    · exact ⟨object, ⟨.inl hnew, hclosed⟩, .inl hold⟩
    · exact ⟨⟨next⟩, ⟨.inr rfl, (h.notMem_sent manager).2⟩, .inr ⟨rfl, rfl⟩⟩

/-- Announcing a new window keeps the others new. -/
theorem Ledger.fresh_announce {window : WindowSnapshot} {id : WindowId} (hne : id ≠ window.id)
    (hfresh : ∀ object, .windowNew manager object ∈ s.sent → (object, id) ∉ created)
    {object : ObjectId}
    (hnew : .windowNew manager object ∈ (s.announce manager window (some ⟨next⟩)).sent) :
    (object, id) ∉ created ++ [(⟨next⟩, window.id)] := by
  rw [List.mem_append, List.mem_singleton]
  rintro (hold | heq)
  · rcases (windowNew_mem_announce ..).mp hnew with hnew | ⟨-, rfl⟩
    · exact hfresh object hnew hold
    · exact h.notMem_created id hold
  · exact hne (congrArg Prod.snd heq)

include hclient

/-- A manager has one object for each window, also for the new one. -/
theorem Ledger.once_announce {window : WindowSnapshot}
    (hfresh : ∀ object, .windowNew manager object ∈ s.sent → (object, window.id) ∉ created)
    {object object' : ObjectId} {id : WindowId}
    (hnew : .windowNew manager object ∈ s.sent ∨ object = ⟨next⟩)
    (hnew' : .windowNew manager object' ∈ s.sent ∨ object' = ⟨next⟩)
    (hcreated : (object, id) ∈ created ∨ (object, id) = (⟨next⟩, window.id))
    (hcreated' : (object', id) ∈ created ∨ (object', id) = (⟨next⟩, window.id)) :
    object = object' := by
  -- an object of the new window is the new object
  have hlast : ∀ object, .windowNew manager object ∈ s.sent ∨ object = ⟨next⟩ →
      (object, id) ∈ created ∨ (object, id) = (⟨next⟩, window.id) → id = window.id →
      object = ⟨next⟩ := by
    rintro object (hnew | rfl) (hold | heq) rfl
    · exact absurd hold (hfresh object hnew)
    · exact congrArg Prod.fst heq
    · rfl
    · rfl
  by_cases hid : id = window.id
  · rw [hlast object hnew hcreated hid, hlast object' hnew' hcreated' hid]
  · have hold := hcreated.resolve_right fun heq => hid (congrArg Prod.snd heq)
    have hold' := hcreated'.resolve_right fun heq => hid (congrArg Prod.snd heq)
    have hother : ∀ object, (object, id) ∈ created → object ≠ ⟨next⟩ :=
      fun object hmem heq => h.notMem_created id (heq ▸ hmem)
    exact h.once hclient (hnew.resolve_right (hother object hold))
      (hnew'.resolve_right (hother object' hold')) hold hold'

theorem Ledger.announce {window : WindowSnapshot}
    (hfresh : ∀ object, .windowNew manager object ∈ s.sent → (object, window.id) ∉ created) :
    Ledger (created ++ [(⟨next⟩, window.id)]) (next + 1)
      (s.announce manager window (some ⟨next⟩)) := by
  refine ⟨?_, ?_, ?_, ?_, ?_, ?_, ?_⟩
  · rw [List.map_append]
    refine List.nodup_append_comm.mp (List.nodup_cons.mpr ⟨fun hmem => ?_, h.nodup⟩)
    obtain ⟨⟨_, id⟩, hentry, rfl⟩ := List.mem_map.mp hmem
    exact h.notMem_created id hentry
  · intro entry hentry
    rcases List.mem_append.mp hentry with hold | hlast
    · exact Nat.lt_succ_of_lt (h.created_lt entry hold)
    · rw [List.mem_singleton.mp hlast]
      exact Nat.lt_succ_self next
  · intro manager' object hnew
    rcases (windowNew_mem_announce ..).mp hnew with hold | ⟨rfl, rfl⟩
    · exact ⟨Nat.lt_succ_of_lt (h.new_lt hold).1, Nat.lt_succ_of_lt (h.new_lt hold).2⟩
    · exact ⟨Nat.lt_succ_of_lt (h.client_lt hclient), Nat.lt_succ_self next⟩
  · intro manager' object hclosed
    have hold := h.closed_lt ((windowClosed_mem_announce ..).mp hclosed)
    exact ⟨Nat.lt_succ_of_lt hold.1, Nat.lt_succ_of_lt hold.2⟩
  · exact fun hmanager => Nat.lt_succ_of_lt (h.client_lt hmanager)
  · intro id object hget
    refine ⟨manager, hclient, ?_⟩
    have hinsert : (s.windowObjects.insert window.id ⟨next⟩).get id = some object := hget
    rw [HashMap.get_insert] at hinsert
    unfold IsOpen
    rw [windowNew_mem_announce, windowClosed_mem_announce, List.mem_append, List.mem_singleton]
    split_ifs at hinsert with hid
    · obtain rfl := Option.some.inj hinsert
      exact ⟨⟨.inr ⟨rfl, rfl⟩, (h.notMem_sent manager).2⟩, .inr (by rw [hid])⟩
    · obtain ⟨manager', hmanager', hopen, hcreated⟩ := h.kept hinsert
      obtain rfl := Option.some.inj (hclient.symm.trans hmanager')
      exact ⟨⟨.inl hopen.1, hopen.2⟩, .inl hcreated⟩
  · intro manager' object object' id hmanager' hnew hnew' hcreated hcreated'
    obtain rfl := Option.some.inj (hclient.symm.trans hmanager')
    rw [windowNew_mem_announce] at hnew hnew'
    rw [List.mem_append, List.mem_singleton] at hcreated hcreated'
    exact h.once_announce hclient hfresh (hnew.imp_right And.right) (hnew'.imp_right And.right)
      hcreated hcreated'

end Announce

/-- The objects that have been created, after those for some windows. -/
def recordAll (created : List (ObjectId × WindowId))
    (windows : List (WindowSnapshot × Option ObjectId)) : List (ObjectId × WindowId) :=
  created ++ windows.filterMap fun entry => entry.2.map fun object => (object, entry.1.id)

theorem mem_of_mem_allocate {windows : List (WindowSnapshot × Bool)} {next : ℕ}
    {entry : WindowSnapshot × Option ObjectId} (h : entry ∈ allocate next windows) :
    entry.1 ∈ windows.map Prod.fst := by
  induction windows generalizing next with
  | nil => exact absurd h List.not_mem_nil
  | cons first windows ih =>
    rcases List.mem_cons.mp h with rfl | hrest
    · exact List.mem_cons_self
    · exact List.mem_cons_of_mem _ (ih hrest)

/-- Objects are created for the windows only. -/
theorem mem_recordAll_allocate {windows : List (WindowSnapshot × Bool)} {next : ℕ}
    {entry : ObjectId × WindowId} (h : entry ∈ recordAll created (allocate next windows)) :
    entry ∈ created ∨ ∃ window ∈ windows.map Prod.fst, window.id = entry.2 := by
  rcases List.mem_append.mp h with hold | hnew
  · exact .inl hold
  · obtain ⟨allocated, hallocated, hentry⟩ := List.mem_filterMap.mp hnew
    obtain ⟨object, -, rfl⟩ := Option.map_eq_some_iff.mp hentry
    exact .inr ⟨allocated.1, mem_of_mem_allocate hallocated, rfl⟩

/-- Announce windows, each if an object for it could be created. -/
def announceAll (s : WmProtocolState) (manager : ObjectId)
    (windows : List (WindowSnapshot × Option ObjectId)) : WmProtocolState :=
  windows.foldl (fun s (window, object) => s.announce manager window object) s

/-- **The current manager knows the announced windows** in addition to those it knew. -/
theorem Ledger.announceAll (h : Ledger created next s) {manager : ObjectId}
    (hclient : s.wmClient = some manager) {windows : List (WindowSnapshot × Bool)}
    (hnodup : (windows.map fun entry => entry.1.id).Nodup)
    (hfresh : ∀ entry ∈ windows, ∀ object,
      .windowNew manager object ∈ s.sent → (object, entry.1.id) ∉ created) :
    Ledger (recordAll created (allocate next windows)) (next + windows.length)
        (s.announceAll manager (allocate next windows)) ∧
      ∀ id, (s.announceAll manager (allocate next windows)).Announced
          (recordAll created (allocate next windows)) manager id ↔
        s.Announced created manager id ∨ ∃ entry ∈ windows, entry.1.id = id ∧ entry.2 = true := by
  induction windows generalizing next s created with
  | nil =>
    have hcreated : recordAll created (allocate next []) = created := List.append_nil created
    rw [hcreated]
    exact ⟨h, fun id => by simp [allocate, WmProtocolState.announceAll]⟩
  | cons entry windows ih =>
    obtain ⟨window, couldCreate⟩ := entry
    obtain ⟨hother, hrest⟩ := List.nodup_cons.mp hnodup
    obtain ⟨hwindow, hwindows⟩ := List.forall_mem_cons.mp hfresh
    have hlength : next + (windows.length + 1) = next + 1 + windows.length := by omega
    cases couldCreate with
    | false =>
      have hall := ih (h.mono (Nat.le_succ next)) hclient hrest hwindows
      rw [List.length_cons, hlength]
      refine ⟨hall.1, fun id => (hall.2 id).trans (or_congr_right ?_)⟩
      simp
    | true =>
      have hne : ∀ entry ∈ windows, entry.1.id ≠ window.id := fun entry hentry heq =>
        hother (List.mem_map.mpr ⟨entry, hentry, heq⟩)
      have hall := ih (h.announce hclient hwindow) hclient hrest fun entry hentry object =>
        h.fresh_announce (hne entry hentry) (hwindows entry hentry)
      have hcreated : recordAll created (allocate next ((window, true) :: windows)) =
          recordAll (created ++ [(⟨next⟩, window.id)]) (allocate (next + 1) windows) := by
        simp [recordAll, allocate]
      rw [List.length_cons, hlength, hcreated]
      refine ⟨hall.1, fun id => (hall.2 id).trans ?_⟩
      rw [h.announced_announce window id, or_assoc, List.exists_mem_cons_iff]
      exact or_congr_right (or_congr_left (eq_comm.trans (and_iff_left rfl).symm))

/-! ### Other changes -/

/-- The current manager, after the former one is replaced and the outputs are sent. -/
def bound (s : WmProtocolState) (manager : ObjectId) (outputs : List (String × ℤ × ℤ)) :
    WmProtocolState :=
  let s :=
    match s.wmClient with
    | some old => { s with windowObjects := ∅, borders := ∅ }.send [.replaced old]
    | none => s
  { s with wmClient := some manager }.send
    (outputs.map fun (name, width, height) => .outputNew manager name width height)

theorem bind_eq_announceAll (s : WmProtocolState) (manager : ObjectId)
    (outputs : List (String × ℤ × ℤ)) (windows : List (WindowSnapshot × Option ObjectId)) :
    s.bind manager outputs windows = (s.bound manager outputs).announceAll manager windows :=
  rfl

theorem sameWindowEvents_bound (s : WmProtocolState) (manager : ObjectId)
    (outputs : List (String × ℤ × ℤ)) : SameWindowEvents s (s.bound manager outputs) := by
  unfold bound
  cases s.wmClient <;> constructor <;> intro manager' object <;> simp [send]

/-- A new manager is bound. -/
theorem Ledger.bound (h : Ledger created next s) (outputs : List (String × ℤ × ℤ)) :
    Ledger created (next + 1) (s.bound ⟨next⟩ outputs) := by
  refine h.of_client (sameWindowEvents_bound s ⟨next⟩ outputs) (Nat.le_succ next)
    (fun {manager} hmanager => ?_) fun id => ?_
  · obtain rfl : ⟨next⟩ = manager := Option.some.inj hmanager
    exact ⟨Nat.le_refl next, Nat.lt_succ_self next⟩
  · unfold WmProtocolState.bound
    cases hclient : s.wmClient with
    | some old => exact HashMap.get_empty id
    | none =>
      -- without a manager there are no entries
      refine Option.eq_none_iff_forall_ne_some.mpr fun object hget => ?_
      obtain ⟨manager, hmanager, -⟩ := h.kept hget
      exact absurd (hclient.symm.trans hmanager) nofun

/-- An object is created for one window. -/
theorem Ledger.window_unique (h : Ledger created next s) {object : ObjectId} {id id' : WindowId}
    (hcreated : (object, id) ∈ created) (hcreated' : (object, id') ∈ created) : id = id' :=
  congrArg Prod.snd (List.inj_on_of_nodup_map h.nodup hcreated hcreated' rfl)

section Closed

variable (h : Ledger created next s) {manager object : ObjectId} {id : WindowId}
  (hclient : s.wmClient = some manager) (hget : s.windowObjects.get id = some object)

include h hclient hget

theorem Ledger.windowClosed : Ledger created next { s with
    borders := s.borders.remove id
    windowObjects := s.windowObjects.remove id
    sent := s.sent ++ [.windowClosed manager object] } := by
  obtain ⟨manager', hmanager', hopen, hcreated⟩ := h.kept hget
  obtain rfl := Option.some.inj (hclient.symm.trans hmanager')
  refine ⟨h.nodup, h.created_lt, fun hnew => h.new_lt (by simpa using hnew), fun hclosed => ?_,
    h.client_lt, fun {id' object'} hget' => ?_, fun hmanager hnew hnew' => ?_⟩
  · rcases List.mem_append.mp hclosed with hold | hlast
    · exact h.closed_lt hold
    · obtain ⟨rfl, rfl⟩ := WmServerEvent.windowClosed.inj (List.mem_singleton.mp hlast)
      exact h.new_lt hopen.1
  · dsimp only at hget'
    rw [HashMap.get_remove] at hget'
    split_ifs at hget' with hid
    obtain ⟨manager', hmanager', hopen', hcreated'⟩ := h.kept hget'
    obtain rfl := Option.some.inj (hclient.symm.trans hmanager')
    refine ⟨manager, hclient, ⟨List.mem_append_left _ hopen'.1, ?_⟩, hcreated'⟩
    rw [List.mem_append, List.mem_singleton]
    rintro (hold | hlast)
    · exact hopen'.2 hold
    · obtain ⟨-, rfl⟩ := WmServerEvent.windowClosed.inj hlast
      exact hid (h.window_unique hcreated' hcreated)
  · exact h.once hmanager (by simpa using hnew) (by simpa using hnew')

/-- The manager no longer knows the window. -/
theorem Ledger.announced_windowClosed (id' : WindowId) :
    WmProtocolState.Announced { s with
        borders := s.borders.remove id
        windowObjects := s.windowObjects.remove id
        sent := s.sent ++ [.windowClosed manager object] } created manager id' ↔
      s.Announced created manager id' ∧ id' ≠ id := by
  obtain ⟨manager', hmanager', hopen, hcreated⟩ := h.kept hget
  obtain rfl := Option.some.inj (hclient.symm.trans hmanager')
  unfold Announced IsOpen
  simp only [List.mem_append, List.mem_singleton, reduceCtorEq, or_false, not_or,
    WmServerEvent.windowClosed.injEq, true_and]
  constructor
  · rintro ⟨object', ⟨hnew, hclosed, hother⟩, hmem⟩
    refine ⟨⟨object', ⟨hnew, hclosed⟩, hmem⟩, ?_⟩
    rintro rfl
    exact hother (h.once hclient hnew hopen.1 hmem hcreated)
  · rintro ⟨⟨object', ⟨hnew, hclosed⟩, hmem⟩, hne⟩
    refine ⟨object', ⟨hnew, hclosed, ?_⟩, hmem⟩
    rintro rfl
    exact hne (h.window_unique hmem hcreated)

end Closed

/-- A window with an entry is reported closed; without one, nothing is reported. -/
theorem Ledger.notifyWindowClosed (h : Ledger created next s) (id : WindowId) :
    Ledger created next (s.notifyWindowClosed id) ∧
      (s.notifyWindowClosed id).wmClient = s.wmClient ∧
      ∀ manager, s.wmClient = some manager → ∀ id',
        ((s.notifyWindowClosed id).Announced created manager id' ↔
          s.Announced created manager id' ∧ (id' = id → s.windowObjects.get id = none)) := by
  cases hget : s.windowObjects.get id with
  | none =>
    have hclosed : s.notifyWindowClosed id = { s with borders := s.borders.remove id } := by
      unfold WmProtocolState.notifyWindowClosed
      dsimp only
      rw [hget]
      cases s.wmClient <;> rfl
    rw [hclosed]
    refine ⟨h.of_same ⟨fun _ _ => Iff.rfl, fun _ _ => Iff.rfl⟩ rfl fun hkept => hkept, rfl,
      fun _ _ id' => ?_⟩
    exact (and_iff_left fun _ => rfl).symm
  | some object =>
    obtain ⟨manager, hclient, -⟩ := h.kept hget
    have hclosed : s.notifyWindowClosed id = { s with
        borders := s.borders.remove id
        windowObjects := s.windowObjects.remove id
        sent := s.sent ++ [.windowClosed manager object] } := by
      unfold WmProtocolState.notifyWindowClosed
      dsimp only
      rw [hclient, hget]
      rfl
    rw [hclosed]
    refine ⟨h.windowClosed hclient hget, rfl, fun manager' hmanager' id' => ?_⟩
    obtain rfl := Option.some.inj (hclient.symm.trans hmanager')
    rw [h.announced_windowClosed hclient hget]
    exact and_congr_right fun _ => ⟨fun hne heq => absurd heq hne,
      fun himp heq => absurd (himp heq) (Option.some_ne_none object)⟩

end WmProtocolState

end WayRay
