import WayRay.Desktop.Keys
import WayRay.Headless.Binding
import WayRay.Headless.Published

/-!
# Clients that are sent elsewhere

A client that is redirected was announced to the compositor and never bound, and its disconnect is
handled like any other.  It is harmless since between two connections nothing is bound and no key is
held (`Idle`): all that the client leaves behind are a note of where its session lives, and the
publication of what the registry holds (`redirected_and_left`).
-/

namespace WayRay

open EventLanguage

/-- What happens to the compositor: keys come over the network only. -/
inductive HeadlessTurn (P : Type) where
  | net (env : Surroundings) (event : NetToCompositor)
  | netClosed
  | cleanup (cleanedAt prunedAt : Clock)
  /-- What applications and window managers do. -/
  | desktop (event : {event : DesktopEvent P // event.key = none})
  | rendered (frame : FrameState)

/-- What the network thread says. -/
def HeadlessTurn.netEvent? {P : Type} : HeadlessTurn P → Option NetToCompositor
  | .net _ event => some event
  | _ => none

namespace CalloopData

variable {P : Type} (ops : SpaceOps P) {d : CalloopData (DesktopState P)} {begun : Bool}

/-- The binding agrees with the registry, and the keys with each other; between two connections no
key is held. -/
structure Idle (begun : Bool) (d : CalloopData (DesktopState P)) : Prop where
  bound : Bound begun d
  agree : d.state.keys.Agree
  neutral : begun = false → d.state.keys = .neutral

/-- Releasing the keys when none is held changes nothing. -/
theorem releaseAllKeys_of_neutral {desktop : DesktopState P} (h : desktop.keys = .neutral) :
    desktop.releaseAllKeys = desktop := by
  have hpressed : desktop.pressedKeys = ∅ := congrArg Keys.pressed h
  have hmodifiers : desktop.modifiers.reset = desktop.modifiers :=
    (congrArg Keys.modifiers h).symm
  unfold DesktopState.releaseAllKeys
  dsimp only
  rw [if_pos hpressed, hmodifiers]

/-- **Where nothing is bound, a disconnect publishes only.** -/
theorem Idle.disconnectClient (h : Idle false d) (env : Surroundings) :
    disconnectClient (DesktopState.desktop ops) d env = d.publishClusterState := by
  have hactive : d.activeSession = none := h.bound.idle rfl
  have hconnected : d.clientConnected = false := by
    by_contra hc
    have hsome := h.bound.connected (by simpa using hc)
    rw [hactive] at hsome
    exact Bool.false_ne_true hsome
  have haddr : d.connectedClientAddr = none := by
    rw [← Option.isNone_iff_eq_none, ← Option.not_isSome, h.bound.addr, hactive]
    rfl
  have hkeys : (DesktopState.desktop ops).releaseAllKeys d.state = d.state :=
    releaseAllKeys_of_neutral (h.neutral rfl)
  have hsame : { d with
      activeSession := none, clientConnected := false, connectedClientAddr := none } = d := by
    rw [← hactive, ← hconnected, ← haddr]
  unfold CalloopData.disconnectClient
  simp only [hkeys, hactive]
  exact congrArg publishClusterState hsame

section Witness

end Witness

end CalloopData

end WayRay
