import WayRay.Desktop.Focus
import WayRay.Wm.Announcements

/-!
# The windows that a window manager knows

A window is announced to a window manager when it is created, or in the snapshot taken when the
manager binds.  The snapshot leaves out windows without a current size, which toplevels do not have
before they first commit a configured state, and nothing announces them later.

`Announcing` is the desktop with the current sizes of its toplevels and a record of the window
objects created.  `Complete` says that the current manager knows just the windows that are
registered; `complete_step_iff` which events keep this so.
-/

namespace WayRay

open GuardedRun WmProtocolState

/-! ### State -/

/-- The desktop, with what decides about announcements. -/
structure Announcing (P : Type) where
  desktop : DesktopState P
  /-- The sizes in the current states of toplevels. -/
  sizes : HashMap Surface (ℤ × ℤ)
  /-- The window objects that have been created, with their windows. -/
  created : List (ObjectId × WindowId)
  /-- The next object to be created. -/
  next : ℕ

/-- What changes the windows or who knows them. -/
inductive AnnouncingEvent where
  /-- An application creates a toplevel; whether an object for it could be created. -/
  | newToplevel (couldCreate : Bool)
  /-- A toplevel commits; the size in its current state then. -/
  | committed (surface : Surface) (size : Option (ℤ × ℤ))
  | toplevelDestroyed (surface : Surface)
  /-- A window manager binds; for which windows an object could be created. -/
  | bind (couldCreate : WindowId → Bool)
  | managerDestroyed (manager : ObjectId)
  /-- A window object is destroyed. -/
  | windowDestroyed (object : ObjectId)

namespace Announcing

variable {P : Type}

/-- The state a compositor starts with. -/
def start (space : P) (output : ℤ × ℤ) : Announcing P := ⟨.start space output (some .new), ∅, [], 0⟩

/-- The windows announced to a manager that binds: those with a current size. -/
def existingWindows (t : Announcing P) : List WindowSnapshot :=
  t.desktop.windowIds.filterMap fun (id, window) =>
    (t.sizes.get window).map fun size => ⟨id, none, none, size.1, size.2⟩

/-- The outputs announced to it. -/
def outputs (t : Announcing P) : List (String × ℤ × ℤ) :=
  [(defaultOutput, t.desktop.output.1, t.desktop.output.2)]

/-- They are announced with new objects, as far as these could be created. -/
def windowsOnBind (t : Announcing P) (couldCreate : WindowId → Bool) :
    List (WindowSnapshot × Option ObjectId) :=
  allocate (t.next + 1) (t.existingWindows.map fun window => (window, couldCreate window.id))

variable (ops : SpaceOps P)

def step (t : Announcing P) : AnnouncingEvent → Announcing P
  | .newToplevel couldCreate =>
    let object : Option ObjectId :=
      if couldCreate && t.desktop.wmConnected then some ⟨t.next⟩ else none
    { t with
      desktop := t.desktop.newToplevel ops object
      created := t.created ++ object.toList.map fun object => (object, ⟨t.desktop.nextWindowId⟩)
      next := t.next + 1 }
  | .committed surface (some size) => { t with sizes := t.sizes.insert surface size }
  | .committed surface none => { t with sizes := t.sizes.remove surface }
  | .toplevelDestroyed surface => { t with desktop := t.desktop.toplevelDestroyed ops surface }
  | .bind couldCreate =>
    { t with
      desktop := t.desktop.wmStep ops (.bind ⟨t.next⟩ t.outputs (t.windowsOnBind couldCreate))
      created := recordAll t.created (t.windowsOnBind couldCreate)
      next := t.next + 1 + t.existingWindows.length }
  | .managerDestroyed manager =>
    { t with desktop := t.desktop.wmStep ops (.managerDestroyed manager) }
  | .windowDestroyed object =>
    match t.created.find? fun entry => entry.1 = object with
    | some (_, id) => { t with desktop := t.desktop.wmStep ops (.windowDestroyed id) }
    | none => t

/-! ### Completeness -/

/-- The current manager, if there is one, knows just the registered windows. -/
def Complete (t : Announcing P) : Prop :=
  ∀ proto manager, t.desktop.protocol = some proto → proto.wmClient = some manager →
    ∀ id, proto.Announced t.created manager id ↔ id ∈ t.desktop.windowIds.map Prod.fst

/-- The event announces what it should. -/
def Announces (t : Announcing P) : AnnouncingEvent → Prop
  /- An object for the window can be created. -/
  | .newToplevel couldCreate => t.desktop.wmConnected = true → couldCreate = true
  /- Every window has a current size, and an object for it can be created. -/
  | .bind couldCreate => ∀ entry ∈ t.desktop.windowIds,
    (t.sizes.get entry.2).isSome ∧ couldCreate entry.1 = true
  /- The window still has an object. -/
  | .toplevelDestroyed surface => ∀ proto id, t.desktop.protocol = some proto →
    proto.isWmConnected = true → (id, surface) ∈ t.desktop.windowIds →
    (proto.windowObjects.get id).isSome
  | .committed _ _ | .managerDestroyed _ | .windowDestroyed _ => True

/-! ### Steps -/

/-- What holds of every state. -/
structure Inv (t : Announcing P) (proto : WmProtocolState) : Prop where
  managed : t.desktop.Managed
  protocol : t.desktop.protocol = some proto
  ledger : Ledger t.created t.next proto
  ids_lt : ∀ entry ∈ t.created, entry.2.raw < t.desktop.nextWindowId

variable {ops} {t : Announcing P} {proto : WmProtocolState}

theorem Inv.complete_iff (h : t.Inv proto) : t.Complete ↔ ∀ manager, proto.wmClient = some manager →
    ∀ id, proto.Announced t.created manager id ↔ id ∈ t.desktop.windowIds.map Prod.fst := by
  constructor
  · exact fun hc manager hclient => hc proto manager h.protocol hclient
  · intro hc proto' manager hprotocol hclient
    obtain rfl := Option.some.inj (h.protocol.symm.trans hprotocol)
    exact hc manager hclient

/-- Without a manager nobody has to know anything. -/
theorem Inv.complete_of_none (h : t.Inv proto) (hclient : proto.wmClient = none) : t.Complete :=
  h.complete_iff.mpr fun _ hmanager => absurd (hclient.symm.trans hmanager) nofun

theorem isWmConnected_of_some {manager : ObjectId} (hclient : proto.wmClient = some manager) :
    proto.isWmConnected = true :=
  congrArg Option.isSome hclient

theorem isWmConnected_of_none (hclient : proto.wmClient = none) : proto.isWmConnected = false :=
  congrArg Option.isSome hclient

theorem Inv.wmConnected (h : t.Inv proto) : t.desktop.wmConnected = proto.isWmConnected := by
  rw [DesktopState.wmConnected, h.protocol, Option.any_some]

/-- What the protocol server learns of a new toplevel. -/
theorem protocol_newToplevel (ops : SpaceOps P) {d : DesktopState P}
    (hprotocol : d.protocol = some proto) (object : Option ObjectId) :
    ∃ window : WindowSnapshot, window.id = ⟨d.nextWindowId⟩ ∧
      (d.newToplevel ops object).protocol = some (if proto.isWmConnected then
        (proto.notifyNewWindow window object).startManagePhase else proto) := by
  let size := (d.builtin.onNewToplevel ⟨d.nextWindowId⟩
    ⟨none, none, d.output.1, d.output.2, none, none⟩).1.size
  refine ⟨⟨⟨d.nextWindowId⟩, none, none, size.1, size.2⟩, rfl, ?_⟩
  have hmap : (d.newToplevel ops object).protocol = d.protocol.map fun proto =>
      if proto.isWmConnected then
        (proto.notifyNewWindow ⟨⟨d.nextWindowId⟩, none, none, size.1, size.2⟩
          object).startManagePhase
      else proto := rfl
  rw [hmap, hprotocol]
  rfl

/-- A connected WM is told of a new toplevel, if there is an object for it, and a manage phase
begins. -/
theorem notifyNewWindow_startManagePhase {manager : ObjectId}
    (hclient : proto.wmClient = some manager) (window : WindowSnapshot) (object : Option ObjectId) :
    (proto.notifyNewWindow window object).startManagePhase =
      WmProtocolState.send { proto.announce manager window object with managePhaseActive := true }
        [.manageStart manager] := by
  have hannounced : (proto.announce manager window object).wmClient = some manager :=
    (wmClient_announce proto manager window object).trans hclient
  rw [notifyNewWindow_of_connected hclient]
  generalize proto.announce manager window object = announced at hannounced ⊢
  simp only [startManagePhase, hannounced]

theorem sameWindowEvents_manageStart (s : WmProtocolState) (manager : ObjectId) :
    SameWindowEvents s
      (WmProtocolState.send { s with managePhaseActive := true } [.manageStart manager]) := by
  constructor <;> intro manager' object <;> simp [send]

/-- The ids of the windows after one is created. -/
theorem mem_windowIds_newToplevel {d : DesktopState P} {object : Option ObjectId} {id : WindowId} :
    id ∈ (d.newToplevel ops object).windowIds.map Prod.fst ↔
      id ∈ d.windowIds.map Prod.fst ∨ id = ⟨d.nextWindowId⟩ := by
  have hwindows : (d.newToplevel ops object).windowIds =
      d.windowIds ++ [(⟨d.nextWindowId⟩, ⟨d.surfaces⟩)] := rfl
  rw [hwindows, List.map_append, List.mem_append, List.map_singleton, List.mem_singleton]

/-- A new toplevel's id has not been used. -/
theorem Inv.notMem_created (h : t.Inv proto) (object : ObjectId) :
    (object, ⟨t.desktop.nextWindowId⟩) ∉ t.created :=
  fun hmem => Nat.lt_irrefl _ (h.ids_lt _ hmem)

/-- The ids of the windows with objects stay below the next one. -/
theorem Inv.ids_lt_succ (h : t.Inv proto) :
    ∀ entry ∈ t.created, entry.2.raw < t.desktop.nextWindowId + 1 :=
  fun entry hentry => Nat.lt_succ_of_lt (h.ids_lt entry hentry)

/-- Nobody is told of a new toplevel while no WM is connected. -/
theorem Inv.newToplevel_of_none (ops : SpaceOps P) (h : t.Inv proto)
    (hclient : proto.wmClient = none) (couldCreate : Bool) :
    (t.step ops (.newToplevel couldCreate)).Inv proto := by
  have hconnected := isWmConnected_of_none hclient
  obtain ⟨window, -, hprotocol⟩ := protocol_newToplevel ops h.protocol none
  rw [hconnected] at hprotocol
  have hstep : t.step ops (.newToplevel couldCreate) = { t with
      desktop := t.desktop.newToplevel ops none
      next := t.next + 1 } := by
    simp [step, h.wmConnected, hconnected]
  rw [hstep]
  exact ⟨h.managed.newToplevel ops none, hprotocol, h.ledger.mono (Nat.le_succ _), h.ids_lt_succ⟩

/-- Without an object for it, a connected WM does not learn of a new toplevel. -/
theorem Inv.newToplevel_unannounced (ops : SpaceOps P) (h : t.Inv proto) {manager : ObjectId}
    (hclient : proto.wmClient = some manager) :
    ∃ proto', (t.step ops (.newToplevel false)).Inv proto' ∧
      ¬ (t.step ops (.newToplevel false)).Complete := by
  obtain ⟨window, -, hprotocol⟩ := protocol_newToplevel ops h.protocol none
  rw [isWmConnected_of_some hclient, if_pos rfl,
    notifyNewWindow_startManagePhase hclient] at hprotocol
  have hstep : t.step ops (.newToplevel false) = { t with
      desktop := t.desktop.newToplevel ops none
      next := t.next + 1 } := by
    simp [step]
  rw [hstep]
  have hinv : Inv { t with
      desktop := t.desktop.newToplevel ops none
      next := t.next + 1 } _ :=
    { managed := h.managed.newToplevel ops none
      protocol := hprotocol
      ledger := (h.ledger.mono (Nat.le_succ _)).of_same
        (sameWindowEvents_manageStart proto manager) rfl fun hget => hget
      ids_lt := h.ids_lt_succ }
  refine ⟨_, hinv, fun hcomplete => ?_⟩
  have hknown := hinv.complete_iff.mp hcomplete manager hclient ⟨t.desktop.nextWindowId⟩
  obtain ⟨object, -, hcreated⟩ := hknown.mpr (mem_windowIds_newToplevel.mpr (.inr rfl))
  exact h.notMem_created object hcreated

/-- With an object for it, a connected WM is told of a new toplevel. -/
theorem Inv.newToplevel_announced (ops : SpaceOps P) (h : t.Inv proto) {manager : ObjectId}
    (hclient : proto.wmClient = some manager) :
    ∃ proto', (t.step ops (.newToplevel true)).Inv proto' ∧
      (t.Complete → (t.step ops (.newToplevel true)).Complete) := by
  have hconnected := isWmConnected_of_some hclient
  obtain ⟨window, hwindow, hprotocol⟩ := protocol_newToplevel ops h.protocol (some ⟨t.next⟩)
  rw [hconnected, if_pos rfl, notifyNewWindow_startManagePhase hclient] at hprotocol
  have hsame :=
    sameWindowEvents_manageStart (proto.announce manager window (some ⟨t.next⟩)) manager
  have hstep : t.step ops (.newToplevel true) = { t with
      desktop := t.desktop.newToplevel ops (some ⟨t.next⟩)
      created := t.created ++ [(⟨t.next⟩, window.id)]
      next := t.next + 1 } := by
    simp only [step, h.wmConnected, hconnected, hwindow]
    rfl
  rw [hstep]
  have hinv : Inv { t with
      desktop := t.desktop.newToplevel ops (some ⟨t.next⟩)
      created := t.created ++ [(⟨t.next⟩, window.id)]
      next := t.next + 1 } _ :=
    { managed := h.managed.newToplevel ops _
      protocol := hprotocol
      ledger :=
        (h.ledger.announce hclient fun object _ => hwindow ▸ h.notMem_created object).of_same
          hsame rfl fun hget => hget
      ids_lt := fun entry hentry => by
        rcases List.mem_append.mp hentry with hold | hlast
        · exact h.ids_lt_succ entry hold
        · rw [List.mem_singleton.mp hlast, hwindow]
          exact Nat.lt_succ_self _ }
  refine ⟨_, hinv, fun hcomplete => hinv.complete_iff.mpr fun manager' hclient' id => ?_⟩
  obtain rfl : manager = manager' := Option.some.inj (hclient.symm.trans hclient')
  rw [hsame.announced, h.ledger.announced_announce, hwindow,
    h.complete_iff.mp hcomplete manager hclient, mem_windowIds_newToplevel]

/-- A new toplevel is announced to a connected WM if an object for it can be created. -/
theorem Inv.newToplevel (ops : SpaceOps P) (h : t.Inv proto) (couldCreate : Bool) :
    ∃ proto', (t.step ops (.newToplevel couldCreate)).Inv proto' ∧ (t.Complete →
      (t.Announces (.newToplevel couldCreate) ↔
        (t.step ops (.newToplevel couldCreate)).Complete)) := by
  have hwm := h.wmConnected
  cases hclient : proto.wmClient with
  | none =>
    have hinv := h.newToplevel_of_none ops hclient couldCreate
    rw [isWmConnected_of_none hclient] at hwm
    refine ⟨proto, hinv, fun _ => iff_of_true (fun hc => ?_) (hinv.complete_of_none hclient)⟩
    exact absurd (hwm.symm.trans hc) Bool.false_ne_true
  | some manager =>
    rw [isWmConnected_of_some hclient] at hwm
    cases couldCreate with
    | false =>
      obtain ⟨proto', hinv, hnot⟩ := h.newToplevel_unannounced ops hclient
      exact ⟨proto', hinv, fun _ => iff_of_false (fun hc => Bool.false_ne_true (hc hwm)) hnot⟩
    | true =>
      obtain ⟨proto', hinv, hcomplete⟩ := h.newToplevel_announced ops hclient
      exact ⟨proto', hinv, fun hc => iff_of_true (fun _ => rfl) (hcomplete hc)⟩

/-! ### Binding -/

theorem mem_existingWindows {window : WindowSnapshot} : window ∈ t.existingWindows ↔
    ∃ entry ∈ t.desktop.windowIds, ∃ size, t.sizes.get entry.2 = some size ∧
      ⟨entry.1, none, none, size.1, size.2⟩ = window := by
  rw [existingWindows, List.mem_filterMap]
  exact exists_congr fun entry => and_congr_right fun _ => Option.map_eq_some_iff

/-- Each window is in the snapshot once. -/
theorem sublist_existingWindows (t : Announcing P) :
    (t.existingWindows.map WindowSnapshot.id).Sublist (t.desktop.windowIds.map Prod.fst) := by
  unfold existingWindows
  induction t.desktop.windowIds with
  | nil => exact List.Sublist.slnil
  | cons entry windowIds ih =>
    obtain ⟨id, window⟩ := entry
    rw [List.filterMap_cons]
    dsimp only
    cases t.sizes.get window with
    | none => exact ih.cons id
    | some size => exact ih.cons_cons id

/-- The manager that binds knows the windows of the snapshot for which it got an object. -/
theorem Inv.announced_bind (h : t.Inv proto) (couldCreate : WindowId → Bool) :
    Ledger (recordAll t.created (t.windowsOnBind couldCreate))
        (t.next + 1 + t.existingWindows.length)
        (proto.bind ⟨t.next⟩ t.outputs (t.windowsOnBind couldCreate)) ∧
      ∀ id, (proto.bind ⟨t.next⟩ t.outputs (t.windowsOnBind couldCreate)).Announced
          (recordAll t.created (t.windowsOnBind couldCreate)) ⟨t.next⟩ id ↔
        ∃ entry ∈ t.desktop.windowIds, entry.1 = id ∧ (t.sizes.get entry.2).isSome ∧
          couldCreate entry.1 = true := by
  have hbound := h.ledger.bound t.outputs
  have hclient : (proto.bound ⟨t.next⟩ t.outputs).wmClient = some ⟨t.next⟩ := rfl
  -- nothing has been announced to the new manager before
  have hnew : ∀ object, .windowNew ⟨t.next⟩ object ∉ (proto.bound ⟨t.next⟩ t.outputs).sent := by
    intro object hmem
    have hlt := (h.ledger.new_lt (((sameWindowEvents_bound _ _ _).new _ _).mp hmem)).1
    exact Nat.lt_irrefl _ hlt
  have hids : ((t.existingWindows.map fun window => (window, couldCreate window.id)).map
      fun entry => entry.1.id).Nodup := by
    rw [List.map_map]
    exact h.managed.nodup_ids.sublist (sublist_existingWindows t)
  obtain ⟨hledger, hannounced⟩ := hbound.announceAll hclient hids
    fun _ _ object hmem => absurd hmem (hnew object)
  rw [List.length_map, ← bind_eq_announceAll] at hledger
  simp only [← bind_eq_announceAll] at hannounced
  refine ⟨hledger, fun id => (hannounced id).trans ?_⟩
  constructor
  · rintro (⟨object, hopen, -⟩ | ⟨entry, hentry, hid, hcreated⟩)
    · exact absurd hopen.1 (hnew object)
    · obtain ⟨window, hwindow, rfl⟩ := List.mem_map.mp hentry
      obtain ⟨registered, hregistered, size, hsize, rfl⟩ := mem_existingWindows.mp hwindow
      exact ⟨registered, hregistered, hid, Option.isSome_of_eq_some hsize, hcreated⟩
  · rintro ⟨registered, hregistered, hid, hsize, hcreated⟩
    obtain ⟨size, hsize⟩ := Option.isSome_iff_exists.mp hsize
    have hwindow := mem_existingWindows.mpr ⟨registered, hregistered, size, hsize, rfl⟩
    exact .inr ⟨_, List.mem_map_of_mem hwindow, hid, hcreated⟩

/-- The manager that binds knows all windows if they have sizes, and objects can be created. -/
theorem Inv.bind (ops : SpaceOps P) (h : t.Inv proto) (couldCreate : WindowId → Bool) :
    ∃ proto', (t.step ops (.bind couldCreate)).Inv proto' ∧ (t.Complete →
      (t.Announces (.bind couldCreate) ↔ (t.step ops (.bind couldCreate)).Complete)) := by
  obtain ⟨hledger, hknown⟩ := h.announced_bind couldCreate
  have hinv : (t.step ops (.bind couldCreate)).Inv _ :=
    { managed := h.managed.wmStep ops (.bind ⟨t.next⟩ t.outputs (t.windowsOnBind couldCreate))
      protocol := congrArg (Option.map fun (proto : WmProtocolState) =>
        proto.bind ⟨t.next⟩ t.outputs (t.windowsOnBind couldCreate)) h.protocol
      ledger := hledger
      ids_lt := by
        intro entry hentry
        rcases mem_recordAll_allocate hentry with hold | ⟨window, hwindow, hid⟩
        · exact h.ids_lt entry hold
        · rw [List.map_map] at hwindow
          obtain ⟨known, hknown, rfl⟩ := List.mem_map.mp hwindow
          obtain ⟨registered, hregistered, size, -, rfl⟩ := mem_existingWindows.mp hknown
          exact hid ▸ h.managed.ids_lt registered hregistered }
  have hmanager : (proto.bind ⟨t.next⟩ t.outputs (t.windowsOnBind couldCreate)).wmClient =
      some ⟨t.next⟩ := (Tracked.windowObjects_bind proto ⟨t.next⟩ t.outputs _).1
  refine ⟨_, hinv, fun _ => ?_⟩
  rw [hinv.complete_iff]
  constructor
  · intro hall manager hclient' id
    obtain rfl : ⟨t.next⟩ = manager := Option.some.inj (hmanager.symm.trans hclient')
    refine (hknown id).trans ⟨?_, fun hid => ?_⟩
    · rintro ⟨entry, hentry, rfl, -⟩
      exact List.mem_map_of_mem hentry
    · obtain ⟨entry, hentry, rfl⟩ := List.mem_map.mp hid
      exact ⟨entry, hentry, rfl, hall entry hentry⟩
  · intro hall entry hentry
    obtain ⟨entry', hentry', hid, hsize⟩ := (hknown entry.1).mp
      ((hall ⟨t.next⟩ hmanager entry.1).mpr (List.mem_map_of_mem hentry))
    obtain rfl := List.inj_on_of_nodup_map h.managed.nodup_ids hentry' hentry hid
    exact hsize

/-! ### Closing -/

/-- What the protocol server learns of a toplevel that is destroyed. -/
theorem protocol_toplevelDestroyed (ops : SpaceOps P) {d : DesktopState P} (h : d.Managed)
    {id : WindowId} {surface : Surface} (hmem : (id, surface) ∈ d.windowIds) :
    (d.toplevelDestroyed ops surface).protocol = d.protocol.map fun proto =>
      if proto.isWmConnected then proto.notifyWindowClosed id else proto := by
  have hfind : (d.windowIds.find? fun entry => entry.2 = surface) = some (id, surface) :=
    (Keyed.find?_key_eq_some (List.inj_on_of_nodup_map h.nodup_windows)).mpr ⟨hmem, rfl⟩
  unfold DesktopState.toplevelDestroyed
  rw [hfind]

/-- Whether the closing of a window is announced depends on its object. -/
theorem Inv.announces_toplevelDestroyed_iff (h : t.Inv proto) {id : WindowId} {surface : Surface}
    (hmem : (id, surface) ∈ t.desktop.windowIds) :
    t.Announces (.toplevelDestroyed surface) ↔
      (proto.isWmConnected = true → (proto.windowObjects.get id).isSome) := by
  constructor
  · exact fun hannounces hconnected => hannounces proto id h.protocol hconnected hmem
  · intro hobject proto' id' hprotocol hconnected hmem'
    obtain rfl := Option.some.inj (h.protocol.symm.trans hprotocol)
    obtain rfl : id' = id := congrArg Prod.fst
      (List.inj_on_of_nodup_map h.managed.nodup_windows hmem' hmem rfl)
    exact hobject hconnected

/-- A manager that knows the windows knows those that remain, if the closed one has an object. -/
theorem Inv.knows_remaining_iff (h : t.Inv proto) {manager : ObjectId}
    (hclient : proto.wmClient = some manager) (hcomplete : t.Complete) {id : WindowId}
    {surface : Surface} {before after : List (WindowId × Surface)} {d : DesktopState P}
    (hc : t.desktop.Closes id surface before after d) :
    (∀ id', (proto.notifyWindowClosed id).Announced t.created manager id' ↔
      id' ∈ d.windowIds.map Prod.fst) ↔ (proto.windowObjects.get id).isSome := by
  obtain ⟨-, -, hannounced⟩ := h.ledger.notifyWindowClosed id
  have hknown := h.complete_iff.mp hcomplete manager hclient
  constructor
  · intro hall
    -- without an entry the manager would still know the window
    by_contra hnone
    have hget : proto.windowObjects.get id = none := by simpa using hnone
    have hmem : id ∈ t.desktop.windowIds.map Prod.fst := by simp [hc.split]
    have hstill := (hannounced manager hclient id).mpr ⟨(hknown id).mpr hmem, fun _ => hget⟩
    exact hc.notMem_ids h.managed ((hall id).mp hstill)
  · intro hobject id'
    obtain ⟨object, hobject⟩ := Option.isSome_iff_exists.mp hobject
    refine (hannounced manager hclient id').trans ?_
    rw [hknown, hobject]
    refine Iff.trans (and_congr_right fun _ => ?_) (hc.mem_ids h.managed).symm
    exact ⟨fun himp heq => absurd (himp heq) (Option.some_ne_none object),
      fun hne heq => absurd heq hne⟩

/-- The closing of a window is announced to a connected WM if it still has an object. -/
theorem Inv.toplevelDestroyed (ops : SpaceOps P) (h : t.Inv proto) (surface : Surface) :
    ∃ proto', (t.step ops (.toplevelDestroyed surface)).Inv proto' ∧ (t.Complete →
      (t.Announces (.toplevelDestroyed surface) ↔
        (t.step ops (.toplevelDestroyed surface)).Complete)) := by
  rcases t.desktop.toplevelDestroyed_cases ops surface with
    ⟨hnone, hd⟩ | ⟨id, before, after, hc⟩
  · have hstep : t.step ops (.toplevelDestroyed surface) = { t with
        desktop := { t.desktop with seat := t.desktop.seat.surfaceDestroyed surface } } :=
      congrArg (fun desktop => { t with desktop := desktop }) hd
    rw [hstep]
    refine ⟨proto, ⟨h.managed.of_sameWindows ⟨rfl, rfl, rfl, List.Perm.refl _⟩, h.protocol,
      h.ledger, h.ids_lt⟩, fun hcomplete => iff_of_true ?_ hcomplete⟩
    exact fun _ _ _ _ hmem => absurd rfl (hnone _ hmem)
  · have hmem : (id, surface) ∈ t.desktop.windowIds := by
      rw [hc.split]
      exact List.mem_append_right _ List.mem_cons_self
    have hprotocol := protocol_toplevelDestroyed ops h.managed hmem
    rw [h.protocol, Option.map_some] at hprotocol
    have hmanaged := h.managed.closes hc
    have hlt : ∀ entry ∈ t.created,
        entry.2.raw < (t.desktop.toplevelDestroyed ops surface).nextWindowId := by
      rw [hc.nextWindowId]
      exact h.ids_lt
    rw [h.announces_toplevelDestroyed_iff hmem]
    cases hclient : proto.wmClient with
    | none =>
      have hconnected := isWmConnected_of_none hclient
      rw [hconnected] at hprotocol
      have hinv : (t.step ops (.toplevelDestroyed surface)).Inv proto :=
        ⟨hmanaged, hprotocol, h.ledger, hlt⟩
      refine ⟨proto, hinv, fun _ => iff_of_true (fun hc => ?_) (hinv.complete_of_none hclient)⟩
      exact absurd (hconnected.symm.trans hc) Bool.false_ne_true
    | some manager =>
      have hconnected := isWmConnected_of_some hclient
      rw [hconnected, if_pos rfl] at hprotocol
      obtain ⟨hledger, hclient', -⟩ := h.ledger.notifyWindowClosed id
      have hinv : (t.step ops (.toplevelDestroyed surface)).Inv (proto.notifyWindowClosed id) :=
        ⟨hmanaged, hprotocol, hledger, hlt⟩
      refine ⟨_, hinv, fun hcomplete => ?_⟩
      rw [forall_prop_of_true hconnected, hinv.complete_iff, hclient', hclient,
        ← h.knows_remaining_iff hclient hcomplete hc]
      refine ⟨fun hall manager' hmanager => ?_, fun hall => hall manager rfl⟩
      obtain rfl := Option.some.inj hmanager
      exact hall

theorem Inv.managerDestroyed (ops : SpaceOps P) (h : t.Inv proto) (manager : ObjectId) :
    ∃ proto', (t.step ops (.managerDestroyed manager)).Inv proto' ∧ (t.Complete →
      (t.step ops (.managerDestroyed manager)).Complete) := by
  have hprotocol : (t.step ops (.managerDestroyed manager)).desktop.protocol =
      some (proto.managerDestroyed manager) :=
    congrArg (Option.map fun (proto : WmProtocolState) => proto.managerDestroyed manager) h.protocol
  by_cases hcurrent : proto.wmClient = some manager
  · have hledger : Ledger t.created t.next (proto.managerDestroyed manager) := by
      rw [WmProtocolState.managerDestroyed, if_pos hcurrent]
      refine h.ledger.of_client ?_ (Nat.le_refl _)
        (fun hnone => absurd hnone (Option.some_ne_none _).symm) HashMap.get_empty
      exact ⟨fun _ _ => Iff.rfl, fun _ _ => Iff.rfl⟩
    have hclient : (proto.managerDestroyed manager).wmClient = none := by
      rw [WmProtocolState.managerDestroyed, if_pos hcurrent]
    have hinv : (t.step ops (.managerDestroyed manager)).Inv _ :=
      ⟨h.managed.wmStep ops (.managerDestroyed manager), hprotocol, hledger, h.ids_lt⟩
    exact ⟨_, hinv, fun _ => hinv.complete_of_none hclient⟩
  · rw [WmProtocolState.managerDestroyed, if_neg hcurrent] at hprotocol
    have hinv : (t.step ops (.managerDestroyed manager)).Inv proto :=
      ⟨h.managed.wmStep ops (.managerDestroyed manager), hprotocol, h.ledger, h.ids_lt⟩
    exact ⟨proto, hinv, fun hcomplete => hinv.complete_iff.mpr (h.complete_iff.mp hcomplete)⟩

theorem Inv.windowDestroyed (ops : SpaceOps P) (h : t.Inv proto) (object : ObjectId) :
    ∃ proto', (t.step ops (.windowDestroyed object)).Inv proto' ∧ (t.Complete →
      (t.step ops (.windowDestroyed object)).Complete) := by
  simp only [step]
  cases t.created.find? fun entry => entry.1 = object with
  | none => exact ⟨proto, h, fun hcomplete => hcomplete⟩
  | some entry =>
    obtain ⟨object', id⟩ := entry
    have hprotocol : (t.desktop.wmStep ops (.windowDestroyed id)).protocol =
        some (proto.windowDestroyed id) :=
      congrArg (Option.map fun (proto : WmProtocolState) => proto.windowDestroyed id) h.protocol
    have hledger : Ledger t.created t.next (proto.windowDestroyed id) := by
      refine h.ledger.of_same ⟨fun _ _ => Iff.rfl, fun _ _ => Iff.rfl⟩ rfl
        fun {id' object} hget => ?_
      have hremoved : (proto.windowObjects.remove id).get id' = some object := hget
      rw [HashMap.get_remove] at hremoved
      split_ifs at hremoved
      exact hremoved
    have hinv : Inv { t with desktop := t.desktop.wmStep ops (.windowDestroyed id) } _ :=
      ⟨h.managed.wmStep ops (.windowDestroyed id), hprotocol, hledger, h.ids_lt⟩
    exact ⟨_, hinv, fun hcomplete => hinv.complete_iff.mpr (h.complete_iff.mp hcomplete)⟩

/-- **A step keeps the invariant, and completeness exactly if it announces what it should.** -/
theorem complete_step_iff (ops : SpaceOps P) (h : t.Inv proto) (event : AnnouncingEvent) :
    ∃ proto', (t.step ops event).Inv proto' ∧
      (t.Complete → (t.Announces event ↔ (t.step ops event).Complete)) := by
  cases event with
  | newToplevel couldCreate => exact h.newToplevel ops couldCreate
  | bind couldCreate => exact h.bind ops couldCreate
  | toplevelDestroyed surface => exact h.toplevelDestroyed ops surface
  | managerDestroyed manager =>
    obtain ⟨proto', hinv, hcomplete⟩ := h.managerDestroyed ops manager
    exact ⟨proto', hinv, fun hc => iff_of_true trivial (hcomplete hc)⟩
  | windowDestroyed object =>
    obtain ⟨proto', hinv, hcomplete⟩ := h.windowDestroyed ops object
    exact ⟨proto', hinv, fun hc => iff_of_true trivial (hcomplete hc)⟩
  | committed surface size =>
    refine ⟨proto, ?_, fun hc => iff_of_true trivial ?_⟩
    · cases size <;> exact ⟨h.managed, h.protocol, h.ledger, h.ids_lt⟩
    · cases size <;> exact hc

/-! ### Runs -/

/-- **Window-list completeness.**  Over every sequence of toplevels that are created, commit and are
destroyed, of window managers that bind, replace each other and go, and of window objects that are
destroyed: whenever a window manager is connected it knows just the registered windows, if and only
if all windows have a current size whenever one binds, objects can be created for the windows it is
told of, and a window still has its object when it closes. -/
theorem window_list_complete_iff (ops : SpaceOps P) (space : P) (output : ℤ × ℤ)
    (events : List AnnouncingEvent) :
    (∀ pre, pre <+: events → (pre.foldl (step ops) (start space output)).Complete) ↔
      Along (step ops) Announces (start space output) events := by
  have hinv : (start space output).Inv WmProtocolState.new :=
    { managed := DesktopState.managed_start space output _
      protocol := rfl
      ledger := ⟨List.nodup_nil, nofun, fun hnew => absurd hnew List.not_mem_nil,
        fun hclosed => absurd hclosed List.not_mem_nil, nofun,
        fun {id object} hget => absurd ((HashMap.get_empty id).symm.trans hget) nofun, nofun⟩
      ids_lt := nofun }
  have hcomplete : (start space output).Complete := hinv.complete_of_none rfl
  refine (along_iff_forall_initial (I := fun t => ∃ proto, t.Inv proto) (G := Complete)
    (fun t event h => ?_) (fun t event h hc => ?_) ⟨_, hinv⟩ hcomplete).symm
  · obtain ⟨proto, h⟩ := h
    obtain ⟨proto', h', -⟩ := complete_step_iff ops h event
    exact ⟨proto', h'⟩
  · obtain ⟨proto, h⟩ := h
    obtain ⟨-, -, hiff⟩ := complete_step_iff ops h event
    exact hiff hc

/-- A window manager binds between the creation of a toplevel and its first commit. -/
def boundBeforeCommit : List AnnouncingEvent :=
  [.newToplevel true, .bind fun _ => true, .committed ⟨0⟩ (some (800, 600))]

/-- It is never told of the window. -/
theorem unconfigured_not_announced :
    ¬ ∀ events : List AnnouncingEvent,
      (events.foldl (step DesktopState.noSpace) (start () (800, 600))).Complete := by
  intro h
  have hcomplete := h boundBeforeCommit _ ⟨1⟩ rfl (by decide) ⟨1⟩
  obtain ⟨object, -, hcreated⟩ := hcomplete.mpr (by decide)
  have hnone : (boundBeforeCommit.foldl (step DesktopState.noSpace)
      (start () (800, 600))).created = [] := by decide
  rw [hnone] at hcreated
  exact List.not_mem_nil hcreated

end Announcing

end WayRay
