import Mathlib.Computability.Language
import WayRay.Network.Channel

/-!
# The language of network events

What the network thread may tell the compositor: the events of one connection after the other, where
a connection is announced or not, relays any number of messages, and is closed.

`eventLanguage` is the regular language of whole words, `speaks` the automaton that accepts their
prefixes, and `speaks_iff` says so.  The network thread speaks the language, and the invariant of
the compositor is proved by following the automaton.
-/

namespace WayRay

open Computability

namespace EventLanguage

/-- `ClientConnected`. -/
def connected : Language NetToCompositor := {w | ∃ hello addr, w = [.clientConnected hello addr]}

/-- `Input | Control`. -/
def relayed : Language NetToCompositor := {w | ∃ msg, msg.isRelayed = true ∧ w = [msg]}

/-- `ClientDisconnected`. -/
def disconnected : Language NetToCompositor := {[.clientDisconnected]}

/-- `ClientConnected? (Input | Control)* ClientDisconnected`: the events of one connection. -/
def connection : Language NetToCompositor := (1 + connected) * relayed∗ * disconnected

/-- The events of one connection after the other. -/
def eventLanguage : Language NetToCompositor := connection∗

/-- The automaton of the prefixes: `begun` if the connection has been announced, or has relayed a
message. -/
def speaks (begun : Bool) : List NetToCompositor → Bool
  | [] => true
  | .clientConnected _ _ :: w => !begun && speaks true w
  | .input _ :: w | .control _ :: w => speaks true w
  | .clientDisconnected :: w => speaks false w

/-- What may follow in a connection that has begun. -/
def rest : Language NetToCompositor := relayed∗ * disconnected * eventLanguage

theorem cons_mem_rest {msg : NetToCompositor} (hmsg : msg.isRelayed = true)
    {w : List NetToCompositor} (hw : w ∈ rest) : msg :: w ∈ rest := by
  have hle : relayed * rest ≤ rest := by
    rw [rest, ← mul_assoc, ← mul_assoc]
    gcongr
    exact mul_kstar_le_kstar
  have hsingle : [msg] ∈ relayed := ⟨msg, hmsg, rfl⟩
  exact hle (Language.append_mem_mul hsingle hw)

theorem append_mem_eventLanguage {w v : List NetToCompositor} (hw : w ∈ connection)
    (hv : v ∈ eventLanguage) : w ++ v ∈ eventLanguage := by
  have hle : connection * eventLanguage ≤ eventLanguage := mul_kstar_le_kstar
  exact hle (Language.append_mem_mul hw hv)

/-- A connection need not be announced. -/
theorem mem_of_mem_rest {w : List NetToCompositor} (hw : w ∈ rest) : w ∈ eventLanguage := by
  obtain ⟨_, ⟨r, hr, d, hd, rfl⟩, v, hv, rfl⟩ := hw
  have hnone : ([] : List NetToCompositor) ∈ 1 + connected := Or.inl rfl
  exact append_mem_eventLanguage
    (Language.append_mem_mul (Language.append_mem_mul hnone hr) hd) hv

theorem connected_append_mem {c w : List NetToCompositor} (hc : c ∈ connected) (hw : w ∈ rest) :
    c ++ w ∈ eventLanguage := by
  obtain ⟨_, ⟨r, hr, d, hd, rfl⟩, v, hv, rfl⟩ := hw
  have hsome : c ∈ 1 + connected := Or.inr hc
  have hmem := append_mem_eventLanguage
    (Language.append_mem_mul (Language.append_mem_mul hsome hr) hd) hv
  simpa only [List.append_assoc] using hmem

theorem disconnected_append_mem {w : List NetToCompositor} (hw : w ∈ eventLanguage) :
    [.clientDisconnected] ++ w ∈ rest := by
  have hdisconnected : [NetToCompositor.clientDisconnected] ∈ disconnected := rfl
  exact Language.append_mem_mul
    (Language.append_mem_mul (Language.nil_mem_kstar relayed) hdisconnected) hw

/-- Every word that the automaton accepts can be completed. -/
theorem exists_of_speaks {w : List NetToCompositor} {begun : Bool} (h : speaks begun w = true) :
    ∃ v ∈ if begun then rest else eventLanguage, w <+: v := by
  induction w generalizing begun with
  | nil =>
    cases begun with
    | false => exact ⟨[], Language.nil_mem_kstar _, List.prefix_rfl⟩
    | true =>
      refine ⟨[.clientDisconnected] ++ [], ?_, List.nil_prefix⟩
      exact disconnected_append_mem (Language.nil_mem_kstar _)
  | cons msg w ih =>
    have hrelayed : ∀ msg : NetToCompositor, msg.isRelayed = true → speaks true w = true →
        ∃ v ∈ if begun then rest else eventLanguage, msg :: w <+: v := by
      intro msg hmsg hw
      obtain ⟨v, hv, hpre⟩ := ih hw
      refine ⟨msg :: v, ?_, (List.prefix_cons_inj msg).mpr hpre⟩
      have hmem := cons_mem_rest hmsg hv
      cases begun with
      | false => exact mem_of_mem_rest hmem
      | true => exact hmem
    cases msg with
    | input msg => exact hrelayed _ rfl h
    | control msg => exact hrelayed _ rfl h
    | clientConnected hello addr =>
      simp only [speaks, Bool.and_eq_true, Bool.not_eq_true'] at h
      obtain ⟨rfl, hw⟩ := h
      obtain ⟨v, hv, hpre⟩ := ih hw
      refine ⟨.clientConnected hello addr :: v, ?_, (List.prefix_cons_inj _).mpr hpre⟩
      have hsingle : [NetToCompositor.clientConnected hello addr] ∈ connected := ⟨hello, addr, rfl⟩
      exact connected_append_mem hsingle hv
    | clientDisconnected =>
      obtain ⟨v, hv, hpre⟩ := @ih false h
      refine ⟨.clientDisconnected :: v, ?_, (List.prefix_cons_inj _).mpr hpre⟩
      have hmem : [NetToCompositor.clientDisconnected] ++ v ∈ rest := disconnected_append_mem hv
      cases begun with
      | false => exact mem_of_mem_rest hmem
      | true => exact hmem

/-! ### Prefixes are accepted -/

theorem speaks_of_append {begun : Bool} {w v : List NetToCompositor}
    (h : speaks begun (w ++ v) = true) : speaks begun w = true := by
  induction w generalizing begun with
  | nil => rfl
  | cons msg w ih =>
    cases msg with
    | input _ | control _ | clientDisconnected => exact ih h
    | clientConnected hello addr =>
      simp only [List.cons_append, speaks, Bool.and_eq_true] at h ⊢
      exact ⟨h.1, ih h.2⟩

theorem speaks_relayed_append {begun : Bool} {w v : List NetToCompositor}
    (hw : ∀ msg ∈ w, msg.isRelayed = true) (hv : speaks false v = true) :
    speaks begun (w ++ .clientDisconnected :: v) = true := by
  induction w generalizing begun with
  | nil => exact hv
  | cons msg w ih =>
    cases msg with
    | input _ | control _ => exact ih fun m hm => hw m (List.mem_cons_of_mem _ hm)
    | clientConnected _ _ | clientDisconnected =>
      exact absurd (hw _ List.mem_cons_self) (by simp [NetToCompositor.isRelayed])

/-- The events of a connection bring the automaton back to its start. -/
theorem speaks_connection_append {w v : List NetToCompositor} (hw : w ∈ connection)
    (hv : speaks false v = true) : speaks false (w ++ v) = true := by
  obtain ⟨u, ⟨c, hc, rs, hrs, rfl⟩, d, rfl, rfl⟩ := hw
  obtain ⟨msgs, rfl, hmsgs⟩ := Language.mem_kstar.mp hrs
  have hrelayed : ∀ msg ∈ msgs.flatten, msg.isRelayed = true := by
    intro msg hmsg
    obtain ⟨word, hword, hmem⟩ := List.mem_flatten.mp hmsg
    obtain ⟨msg', hmsg', rfl⟩ := hmsgs word hword
    rwa [List.mem_singleton.mp hmem]
  rcases hc with rfl | ⟨hello, addr, rfl⟩
  · simpa using @speaks_relayed_append false _ _ hrelayed hv
  · simpa [speaks] using @speaks_relayed_append true _ _ hrelayed hv

/-- **The automaton accepts the prefixes of the language.** -/
theorem speaks_iff {w : List NetToCompositor} :
    speaks false w = true ↔ ∃ v ∈ eventLanguage, w <+: v := by
  constructor
  · exact fun h => exists_of_speaks h
  · rintro ⟨v, hv, u, rfl⟩
    obtain ⟨blocks, hflat, hblocks⟩ := Language.mem_kstar.mp hv
    have hall : speaks false blocks.flatten = true := by
      clear hflat
      induction blocks with
      | nil => rfl
      | cons block blocks ih =>
        exact speaks_connection_append (hblocks block List.mem_cons_self)
          (ih fun b hb => hblocks b (List.mem_cons_of_mem _ hb))
    exact speaks_of_append (hflat ▸ hall)

theorem exists_speaks_of_append {begun : Bool} {w v : List NetToCompositor}
    (h : speaks begun (w ++ v) = true) : ∃ begun', speaks begun' v = true := by
  induction w generalizing begun with
  | nil => exact ⟨begun, h⟩
  | cons msg w ih =>
    cases msg with
    | input _ | control _ | clientDisconnected => exact ih h
    | clientConnected hello addr =>
      simp only [List.cons_append, speaks, Bool.and_eq_true] at h
      exact ih h.2

private theorem disconnected_mem_of_begun {w post : List NetToCompositor} {c : NetToCompositor}
    (hc : c.isConnected = true) (h : speaks true (w ++ c :: post) = true) :
    .clientDisconnected ∈ w := by
  induction w with
  | nil => cases c <;> simp_all [speaks, NetToCompositor.isConnected]
  | cons msg w ih =>
    cases msg with
    | clientDisconnected => exact List.mem_cons_self
    | input _ | control _ => exact List.mem_cons_of_mem _ (ih h)
    | clientConnected hello addr => exact absurd h (by simp [speaks])

/-- Between two announcements there is a `ClientDisconnected`. -/
theorem disconnected_between {pre between post : List NetToCompositor} {c c' : NetToCompositor}
    (hc : c.isConnected = true) (hc' : c'.isConnected = true) {begun : Bool}
    (h : speaks begun (pre ++ c :: (between ++ c' :: post)) = true) :
    .clientDisconnected ∈ between := by
  obtain ⟨begun', h'⟩ := exists_speaks_of_append h
  cases c with
  | clientConnected hello addr =>
    simp only [speaks, Bool.and_eq_true] at h'
    exact disconnected_mem_of_begun hc' h'.2
  | input _ | control _ | clientDisconnected =>
    exact absurd hc (by simp [NetToCompositor.isConnected])

end EventLanguage

end WayRay
