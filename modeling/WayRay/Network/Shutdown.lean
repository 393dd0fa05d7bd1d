import Mathlib.Tactic.ByContra
import WayRay.Network.Moves

/-!
# Shutdown

What the server loop does once it has taken a `Shutdown` off the compositor's channel.  Taken while
the loop is idle, it ends the loop.  Taken by the relay of a connection, it ends only the
connection, as a failed write would: the loop goes back to waiting, serves the next client, and does
not return until another message comes, unless no client can come any more (`shutdown_ends_iff`).
-/

namespace WayRay

/-- The steps that the network thread takes by itself and without a message of the compositor. -/
def ThreadEvent.unprompted : ThreadEvent → Bool
  | next | announce | pollReply _ | redirected | greeted | fail | preempt => true
  | accept _ _ | acceptorStops | checkShutdown | control _ | input _ | command _ => false

namespace ServerLoop

variable {l : ServerLoop}

/-- The event takes a `Shutdown` off the channel: in the idle wait, or in the relay of a client. -/
inductive TakesShutdown (l : ServerLoop) : ServerEvent → Prop
  | idle {epoch : Option ℕ} {rest : List Queued}
      (hrx : l.compositorRx = ⟨epoch, .shutdown⟩ :: rest) (hphase : l.phase = .idle) :
      TakesShutdown l (.thread .checkShutdown)
  | relaying {epoch : Option ℕ} {rest : List Queued} {client : RoutedClient}
      {binding : SessionBinding} {keyframeSeen : Bool}
      (hrx : l.compositorRx = ⟨epoch, .shutdown⟩ :: rest)
      (hphase : l.phase = .serving client (.relaying binding keyframeSeen)) (ok : Bool) :
      TakesShutdown l (.thread (.command ok))

/-- No further client is served, whatever happens. -/
def ServesNoMore (l : ServerLoop) : Prop :=
  ∀ events client stage, (l.run events).phase ≠ .serving client stage

/-- Whatever happens, the loop can return by itself, without another message. -/
def Returns (l : ServerLoop) : Prop :=
  ∀ events, ∃ own : List ThreadEvent, (∀ e ∈ own, e.unprompted = true) ∧
    ((l.run events).run (own.map .thread)).phase = .stopped

/-- No client is routed any more, and none waits. -/
def Deserted (l : ServerLoop) : Prop := l.acceptorAlive = false ∧ l.clientRx = []

/-! ### The loop has returned, or nobody can come -/

/-- A loop that has returned does nothing any more. -/
theorem stopped_run (h : l.phase = .stopped) (events : List ServerEvent) :
    (l.run events).phase = .stopped := by
  refine run_invariant (I := fun l => l.phase = .stopped) (fun h hturn => ?_)
    (fun conn decision h => by simp only [answer, h]) (fun _ _ h => h) h events
  cases hturn with
  | ends _ _ | drain _ _ => exact h
  | stop _ _ => rfl
  | route hphase _ _ => exact absurd h hphase
  | take hidle _ => exact absurd (h.symm.trans hidle) (by simp)
  | announce hphase | decided hphase | greeted hphase | relay hphase _ | command hphase _
  | last hphase _ | finish hphase _ | preempt hphase _ | abandon hphase _ =>
    exact absurd (h.symm.trans hphase) (by simp)

/-- The loop waits for clients that cannot come. -/
structure WaitsInVain (l : ServerLoop) : Prop where
  deserted : l.Deserted
  vacant : l.phase = .idle ∨ l.phase = .stopped

theorem waitsInVain_step (h : WaitsInVain l) (e : ServerEvent) : WaitsInVain (l.step e) := by
  obtain ⟨⟨hacceptor, hrx⟩, hphase⟩ := h
  have hsame : ∀ {l' : ServerLoop}, l'.acceptorAlive = l.acceptorAlive → l'.clientRx = l.clientRx →
      (l'.phase = l.phase ∨ l'.phase = .stopped) → WaitsInVain l' := by
    intro l' ha hr hp
    refine ⟨⟨ha.trans hacceptor, hr.trans hrx⟩, ?_⟩
    rcases hp with hp | hp
    · rwa [hp]
    · exact .inr hp
  cases e with
  | queue epoch msg => exact hsame rfl rfl (.inl rfl)
  | hangUp => exact hsame rfl rfl (.inl rfl)
  | answer conn decision =>
    refine hsame rfl rfl (.inl ?_)
    rcases hphase with hp | hp <;> simp only [step, answer, hp]
  | thread e =>
    simp only [step, stepThread]
    split
    · simp only [accept, hacceptor]
      split <;> exact hsame rfl rfl (.inl rfl)
    · rename_i hserving
      rcases hphase with hp | hp <;> exact absurd (hp.symm.trans hserving) (by simp)
    · exact hsame hacceptor.symm rfl (.inl rfl)
    · simp only [next, hrx, hacceptor, Bool.false_eq_true, if_false]
      exact hsame hacceptor.symm hrx.symm (.inr rfl)
    · simp only [checkShutdown]
      split
      · exact hsame rfl rfl (.inr rfl)
      · exact hsame rfl rfl (.inl rfl)
      · split_ifs
        · exact hsame rfl rfl (.inl rfl)
        · exact hsame rfl rfl (.inr rfl)
    · rename_i hserving
      rcases hphase with hp | hp <;> exact absurd (hp.symm.trans hserving) (by simp)
    · exact hsame rfl rfl (.inl rfl)

theorem waitsInVain_run (h : WaitsInVain l) (events : List ServerEvent) :
    WaitsInVain (l.run events) :=
  List.foldlRecOn (motive := WaitsInVain) events _ h fun _ hl e _ => waitsInVain_step hl e

/-- Then it serves nobody, and one look at the routed clients makes it return. -/
theorem WaitsInVain.ends (h : WaitsInVain l) : ServesNoMore l ∧ Returns l := by
  constructor
  · intro events client stage hserving
    rcases (waitsInVain_run h events).vacant with hp | hp <;>
      exact absurd (hp.symm.trans hserving) (by simp)
  · intro events
    refine ⟨[.next], by simp [ThreadEvent.unprompted], ?_⟩
    obtain ⟨⟨hacceptor, hrx⟩, hphase⟩ := waitsInVain_run h events
    generalize l.run events = later at *
    rcases hphase with hp | hp
    · simp [run, step, stepThread, hp, next, hrx, hacceptor]
    · exact stopped_run hp _

/-! ### A client can come -/

/-- A client of the current protocol version. -/
def someClient : ClientHello := ⟨protocolVersion, [], none⟩

/-- An idle loop serves the client that waits, or the next one that the acceptor routes. -/
theorem not_servesNoMore_of_idle (hidle : l.phase = .idle) (hdeserted : ¬ l.Deserted) :
    ¬ ServesNoMore l := by
  intro hnone
  cases hrx : l.clientRx with
  | cons client rest =>
    refine hnone [.thread .next] client .routed ?_
    simp [run, step, stepThread, hidle, next, hrx]
  | nil =>
    have hacceptor : l.acceptorAlive = true := by
      by_contra ha
      exact hdeserted ⟨by simpa using ha, hrx⟩
    refine hnone [.thread (.accept (.clientHello someClient) ""), .thread .next]
      ⟨l.nextConn, someClient, ""⟩ .routed ?_
    have hversion : versionCompatible someClient.version = true := rfl
    simp [run, step, stepThread, hidle, accept, hacceptor, hversion, next, hrx]

/-! ### Taking the shutdown -/

/-- Taken by the relay, a shutdown brings the loop back to waiting. -/
theorem phase_command_shutdown {epoch : Option ℕ} {rest : List Queued} {client : RoutedClient}
    {binding : SessionBinding} {keyframeSeen : Bool}
    (hrx : l.compositorRx = ⟨epoch, .shutdown⟩ :: rest)
    (hphase : l.phase = .serving client (.relaying binding keyframeSeen)) (ok : Bool) :
    l.step (.thread (.command ok)) =
      (l.taken client binding keyframeSeen ⟨epoch, .shutdown⟩ rest).finish client := by
  simp only [step, stepThread, hphase, serve]
  rw [command_cons hrx, if_pos (.inl rfl)]

/-- **A shutdown ends the loop exactly if it is taken while the loop is idle, or when no client can
come any more.**  In every run: after the step that takes it, no further client is served and the
loop returns without another message if and only if the loop was idle, or the acceptor has stopped
and no routed client waits. -/
theorem shutdown_ends_iff (events : List ServerEvent) (e : ServerEvent) :
    let l := start.run events
    TakesShutdown l e →
      (ServesNoMore (l.step e) ∧ Returns (l.step e) ↔ l.phase = .idle ∨ l.Deserted) := by
  intro l htakes
  cases htakes with
  | idle hrx hphase =>
    refine iff_of_true ?_ (.inl hphase)
    have hstopped : (l.step (.thread .checkShutdown)).phase = .stopped := by
      simp [step, stepThread, hphase, checkShutdown, hrx]
    refine ⟨fun events client stage hserving => ?_, fun events => ?_⟩
    · exact absurd ((stopped_run hstopped events).symm.trans hserving) (by simp)
    · exact ⟨[], by simp, stopped_run hstopped events⟩
  | relaying hrx hphase ok =>
    rw [phase_command_shutdown hrx hphase ok]
    constructor
    · rintro ⟨hserves, -⟩
      by_cases hdeserted : l.Deserted
      · exact .inr hdeserted
      · exact absurd hserves (not_servesNoMore_of_idle rfl fun h => hdeserted h)
    · intro hor
      have hdeserted : l.Deserted := by
        rcases hor with hidle | hdeserted
        · exact absurd (hidle.symm.trans hphase) (by simp)
        · exact hdeserted
      exact WaitsInVain.ends ⟨hdeserted, .inl rfl⟩

section Witness

/-- A client is served, and the compositor sends `Shutdown`. -/
def servedThenShutdown : List ServerEvent :=
  [.thread (.accept (.clientHello someClient) "c"), .thread .next, .thread .announce,
    .answer 0 (.bind ⟨1, false, "t"⟩), .thread (.pollReply false), .thread .greeted,
    .queue (some 0) .shutdown]

/-- The relay takes the shutdown, and the loop serves the next client. -/
theorem shutdown_swallowed :
    let l := start.run servedThenShutdown
    TakesShutdown l (.thread (.command true)) ∧
      ¬ (ServesNoMore (l.step (.thread (.command true))) ∧
        Returns (l.step (.thread (.command true)))) := by
  refine ⟨.relaying rfl rfl true, ?_⟩
  rintro ⟨hserves, -⟩
  exact hserves [.thread (.accept (.clientHello someClient) "d"), .thread .next]
    ⟨1, someClient, "d"⟩ .routed (by decide)

/-- The acceptor has stopped when the relay takes the shutdown. -/
theorem shutdown_ends_deserted :
    ServesNoMore ((start.run (servedThenShutdown ++ [.thread .acceptorStops])).step
      (.thread (.command true))) :=
  ((shutdown_ends_iff (servedThenShutdown ++ [.thread .acceptorStops]) (.thread (.command true))
    (.relaying rfl rfl true)).mpr (.inr ⟨rfl, rfl⟩)).1

end Witness

end ServerLoop

end WayRay
