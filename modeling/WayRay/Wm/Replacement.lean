import WayRay.Wm.Protocol

/-!
# Replacing the window manager

A second manager can bind while the first one is connected, and the objects of the first are
destroyed some time later; or the first disconnects before the second one binds.  `Owned` is what of
the protocol state belongs to the window manager, and `replaced_eq_reconnected_iff` says when both
ways lead to the same.

Replacing clears the window objects and the borders only.  Disconnecting also clears the key
bindings, the binding mode, the seat object and the phases; and once the first manager is no longer
the current one, its late destruction clears nothing, but that of its window objects removes the
objects announced to the second one for the same windows.
-/

namespace WayRay

namespace WmProtocolState

/-! ### What belongs to the window manager -/

/-- What belongs to the window manager. -/
structure Owned where
  keybindings : Finset (UInt32 × UInt32 × String)
  activeMode : String
  wmSeat : Option ObjectId
  managePhaseActive : Bool
  renderPhaseActive : Bool
  pendingRenderCommands : List RenderCommand
  borders : HashMap WindowId BorderSpec
  windowObjects : HashMap WindowId ObjectId

def owned (s : WmProtocolState) : Owned where
  keybindings := s.keybindings
  activeMode := s.activeMode
  wmSeat := s.wmSeat
  managePhaseActive := s.managePhaseActive
  renderPhaseActive := s.renderPhaseActive
  pendingRenderCommands := s.pendingRenderCommands
  borders := s.borders
  windowObjects := s.windowObjects

/-- What is destroyed of a manager's client.  A seat or a workspace manager can also go without a
destroy request, when its client does; nothing happens then. -/
inductive Destruction where
  | manager
  | window (id : WindowId)
  | seat (seat : ObjectId)
  | workspaceManager (resource : ObjectId)
deriving DecidableEq

/-- An object of the client of `manager` is destroyed. -/
def destroy (manager : ObjectId) (s : WmProtocolState) : Destruction → WmProtocolState
  | .manager => s.step (.managerDestroyed manager)
  | .window id => s.step (.windowDestroyed id)
  | .seat seat => s.step (.seatRequest seat .destroy)
  | .workspaceManager resource => s.step (.workspaceRequest resource .destroy)

/-- The windows whose objects are destroyed. -/
def destroyedWindows (late : List Destruction) : List WindowId :=
  late.filterMap fun
    | .window id => some id
    | _ => none

theorem mem_destroyedWindows {late : List Destruction} {id : WindowId} :
    id ∈ destroyedWindows late ↔ .window id ∈ late := by
  unfold destroyedWindows
  rw [List.mem_filterMap]
  constructor
  · rintro ⟨destruction, hmem, hid⟩
    cases destruction with
    | window _ => exact Option.some.inj hid ▸ hmem
    | _ => exact absurd hid nofun
  · exact fun hmem => ⟨_, hmem, rfl⟩

/-- Some seat is destroyed. -/
def destroysSeat (late : List Destruction) : Bool :=
  late.any fun
    | .seat _ => true
    | _ => false

/-! ### Late destructions -/

/-- A seat takes the key bindings with it, windows take their objects and borders. -/
def Owned.without (o : Owned) (late : List Destruction) : Owned :=
  { o with
    keybindings := if destroysSeat late then ∅ else o.keybindings
    wmSeat := if destroysSeat late then none else o.wmSeat
    borders := (destroyedWindows late).foldl HashMap.remove o.borders
    windowObjects := (destroyedWindows late).foldl HashMap.remove o.windowObjects }

/-- What is left after objects of a manager that is no longer the current one are destroyed. -/
theorem owned_foldl_destroy {s : WmProtocolState} {manager : ObjectId}
    (h : s.wmClient ≠ some manager) (late : List Destruction) :
    (late.foldl (destroy manager) s).owned = s.owned.without late := by
  induction late generalizing s with
  | nil => rfl
  | cons destruction late ih =>
    cases destruction with
    | manager =>
      have hstep : s.destroy manager .manager = s := if_neg h
      rw [List.foldl_cons, hstep, ih h]
      rfl
    | window id => exact ih h
    | seat seat =>
      rw [List.foldl_cons, ih (s := s.destroy manager (.seat seat)) h]
      have hseat : destroysSeat (.seat seat :: late) = true := rfl
      unfold Owned.without
      rw [if_pos hseat, if_pos hseat]
      cases destroysSeat late <;> rfl
    | workspaceManager resource => exact ih h

/-! ### Binding -/

/-- Keep the object of a window, if there is one. -/
def keepObject (objects : HashMap WindowId ObjectId) (entry : WindowSnapshot × Option ObjectId) :
    HashMap WindowId ObjectId :=
  match entry.2 with
  | none => objects
  | some object => objects.insert entry.1.id object

/-- A window has no object exactly if none was kept for it. -/
theorem get_foldl_keepObject {objects : HashMap WindowId ObjectId}
    {existing : List (WindowSnapshot × Option ObjectId)} {id : WindowId} :
    (existing.foldl keepObject objects).get id = none ↔
      objects.get id = none ∧ ∀ entry ∈ existing, entry.1.id = id → entry.2 = none := by
  induction existing generalizing objects with
  | nil => simp
  | cons entry existing ih =>
    obtain ⟨window, object⟩ := entry
    rw [List.foldl_cons, ih, List.forall_mem_cons, ← and_assoc]
    refine and_congr_left' ?_
    cases object with
    | none => exact (and_iff_left fun _ => rfl).symm
    | some object =>
      simp only [keepObject, HashMap.get_insert]
      by_cases hid : id = window.id
      · simp [hid]
      · simp [hid, Ne.symm hid]

theorem foldl_announce (s : WmProtocolState) (manager : ObjectId)
    (existing : List (WindowSnapshot × Option ObjectId)) :
    let s' := existing.foldl (fun s (window, object) => s.announce manager window object) s
    s'.wmClient = s.wmClient ∧
      s'.owned = { s.owned with windowObjects := existing.foldl keepObject s.windowObjects } := by
  induction existing generalizing s with
  | nil => exact ⟨rfl, rfl⟩
  | cons entry existing ih =>
    obtain ⟨window, _ | object⟩ := entry
    · exact ih s
    · exact ih (s.announce manager window (some object))

/-- Replacing a manager clears the window objects and the borders. -/
theorem bind_of_connected {s : WmProtocolState} {old : ObjectId} (h : s.wmClient = some old)
    (manager : ObjectId) (outputs : List (String × ℤ × ℤ))
    (existing : List (WindowSnapshot × Option ObjectId)) :
    (s.bind manager outputs existing).wmClient = some manager ∧
      (s.bind manager outputs existing).owned = { s.owned with
        borders := ∅
        windowObjects := existing.foldl keepObject ∅ } := by
  unfold bind
  rw [h]
  exact foldl_announce _ manager existing

/-- Without a manager, binding clears nothing. -/
theorem bind_of_not_connected {s : WmProtocolState} (h : s.wmClient = none)
    (manager : ObjectId) (outputs : List (String × ℤ × ℤ))
    (existing : List (WindowSnapshot × Option ObjectId)) :
    (s.bind manager outputs existing).wmClient = some manager ∧
      (s.bind manager outputs existing).owned =
        { s.owned with windowObjects := existing.foldl keepObject s.windowObjects } := by
  unfold bind
  rw [h]
  exact foldl_announce _ manager existing

/-! ### The two ways -/

/-- Disconnecting before the second manager binds leaves nothing but the pending commands. -/
theorem owned_reconnected {s : WmProtocolState} {old : ObjectId} (h : s.wmClient = some old)
    (manager : ObjectId) (outputs : List (String × ℤ × ℤ))
    (existing : List (WindowSnapshot × Option ObjectId)) :
    ((s.managerDestroyed old).bind manager outputs existing).owned =
      ⟨∅, "", none, false, false, s.pendingRenderCommands, ∅, existing.foldl keepObject ∅⟩ := by
  have hcleared : (s.managerDestroyed old).wmClient = none := by rw [managerDestroyed, if_pos h]
  rw [(bind_of_not_connected hcleared manager outputs existing).2, managerDestroyed, if_pos h]
  rfl

/-- **Replacing a window manager equals disconnecting it first** exactly if the replaced one has no
key bindings and no seat, or destroys its seat; the default mode is active and no phase; and no
window whose object it destroys late was announced to the new one. -/
theorem replaced_eq_reconnected_iff (s : WmProtocolState) (old manager : ObjectId)
    (outputs : List (String × ℤ × ℤ)) (existing : List (WindowSnapshot × Option ObjectId))
    (late : List Destruction) (hconnected : s.wmClient = some old) (hother : manager ≠ old) :
    (late.foldl (destroy old) (s.bind manager outputs existing)).owned =
        ((s.managerDestroyed old).bind manager outputs existing).owned ↔
      (destroysSeat late = true ∨ s.keybindings = ∅ ∧ s.wmSeat = none) ∧ s.activeMode = "" ∧
        s.managePhaseActive = false ∧ s.renderPhaseActive = false ∧
        ∀ id, .window id ∈ late → ∀ entry ∈ existing, entry.1.id = id → entry.2 = none := by
  obtain ⟨hclient, howned⟩ := bind_of_connected hconnected manager outputs existing
  have hold : (s.bind manager outputs existing).wmClient ≠ some old := by
    rw [hclient]
    exact fun heq => hother (Option.some.inj heq)
  have hborders :
      (destroyedWindows late).foldl HashMap.remove (∅ : HashMap WindowId BorderSpec) = ∅ :=
    HashMap.foldl_remove_eq_self_iff.mpr fun _ _ => HashMap.get_empty _
  have hobjects : (destroyedWindows late).foldl HashMap.remove (existing.foldl keepObject ∅) =
      existing.foldl keepObject ∅ ↔
        ∀ id, .window id ∈ late → ∀ entry ∈ existing, entry.1.id = id → entry.2 = none := by
    rw [HashMap.foldl_remove_eq_self_iff]
    refine forall_congr' fun id => imp_congr mem_destroyedWindows ?_
    exact get_foldl_keepObject.trans (and_iff_right (HashMap.get_empty id))
  rw [owned_foldl_destroy hold, owned_reconnected hconnected, howned]
  simp only [Owned.without, owned, Owned.mk.injEq, hborders, hobjects]
  cases destroysSeat late <;> simp only [if_true, Bool.false_eq_true, if_false, true_and, true_or,
    false_or]
  tauto

/-- A manager that has bound a key is replaced while two windows are open, of which one is announced
to its successor; late it destroys the object of the other one and its seat. -/
theorem replaced_eq_reconnected_lateSeat :
    let s := [WmEvent.bind ⟨1⟩ [] [(⟨⟨1⟩, none, none, 800, 600⟩, some ⟨2⟩),
        (⟨⟨2⟩, none, none, 640, 480⟩, some ⟨3⟩)],
      .seatRequest ⟨4⟩ (.bindKey 30 0 "")].foldl step new
    let existing := [(⟨⟨1⟩, none, none, 800, 600⟩, some ⟨6⟩), (⟨⟨2⟩, none, none, 640, 480⟩, none)]
    s.keybindings ≠ ∅ ∧ s.wmSeat = some ⟨4⟩ ∧
      ([Destruction.window ⟨2⟩, .seat ⟨4⟩, .manager].foldl (destroy ⟨1⟩)
          (s.bind ⟨5⟩ [] existing)).owned =
        ((s.managerDestroyed ⟨1⟩).bind ⟨5⟩ [] existing).owned := by
  intro s existing
  refine ⟨by decide, rfl, (replaced_eq_reconnected_iff s ⟨1⟩ ⟨5⟩ [] existing
    [.window ⟨2⟩, .seat ⟨4⟩, .manager] rfl (by decide)).mpr ⟨.inl rfl, rfl, rfl, rfl, ?_⟩⟩
  intro id hid entry hentry hsame
  obtain rfl : id = ⟨2⟩ := by simpa using hid
  rcases List.mem_cons.mp hentry with rfl | hentry
  · exact absurd hsame (by decide)
  · rw [List.mem_singleton.mp hentry]

/-- The key bindings of a manager outlive it if it is replaced. -/
theorem replaced_keeps_bindings :
    ¬ ∀ (events : List WmEvent) (old manager : ObjectId) (outputs : List (String × ℤ × ℤ))
      (existing : List (WindowSnapshot × Option ObjectId)) (late : List Destruction),
      (events.foldl step new).wmClient = some old → manager ≠ old →
      (late.foldl (destroy old) ((events.foldl step new).bind manager outputs existing)).owned =
        (((events.foldl step new).managerDestroyed old).bind manager outputs existing).owned := by
  intro h
  have howned := h [.bind ⟨1⟩ [] [], .seatRequest ⟨2⟩ (.bindKey 30 0 "")] ⟨1⟩ ⟨3⟩ [] [] [.manager]
    rfl (by decide)
  exact absurd (congrArg Owned.keybindings howned) (by decide)

end WmProtocolState

end WayRay
