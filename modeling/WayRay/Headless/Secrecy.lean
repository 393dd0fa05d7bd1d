import Mathlib.Logic.Equiv.Basic
import WayRay.Collections.GuardedRun
import WayRay.Headless.Renaming

/-!
# What the log reveals

Two runs of the compositor that differ by a renaming of session tokens log the same up to that
renaming (`drainLog_rename`).  So the log is independent of the tokens exactly if no record shows
one, and that is so exactly if the run redirects no client and no control message carries a token
(`log_secrecy_iff`): those are the paths on which a token is formatted.
-/

namespace WayRay

open GuardedRun

namespace CalloopData

variable {S : Type} (ρ : String ↪ String) (d : CalloopData S) (env : Surroundings)
  (noise : LogSurroundings) (token : SessionToken)

/-! ### Logging commutes with renaming -/

theorem discoverLog_rename :
    (d.rename ρ).discoverLog (env.rename ρ) noise = d.discoverLog env noise :=
  rfl

theorem pickLog_rename : (d.rename ρ).pickLog (env.rename ρ) noise = d.pickLog env noise := by
  simp only [pickLog, rename_sessionRegistry, SessionRegistry.loadFactor_rename, rename_cluster,
    rename_peerRt]
  rfl

theorem resumeLog_rename (id : SessionId) :
    (d.rename ρ).resumeLog (env.rename ρ) noise id = d.resumeLog env noise id := by
  simp only [resumeLog, rename_sessionRegistry, SessionRegistry.get_rename_state,
    SessionRegistry.transitionLog_rename, SessionRegistry.activate,
    SessionRegistry.transition_rename]
  rfl

theorem startLog_rename :
    (d.rename ρ).startLog (env.rename ρ) noise (token.rename ρ) = d.startLog env noise token := by
  simp only [startLog, rename_sessionRegistry, SessionRegistry.createSession_rename,
    SessionRegistry.createLog_rename, SessionRegistry.transitionLog_rename,
    SessionRegistry.activate, SessionRegistry.transition_rename]
  rfl

theorem serveLog_rename (version : UInt32) :
    (d.rename ρ).serveLog (env.rename ρ) noise version (token.rename ρ) =
      (d.serveLog env noise version token).map (LogRecord.rename ρ) := by
  have hbind : ∀ id resumed, (bindLog noise version id resumed).map (LogRecord.rename ρ) =
      bindLog noise version id resumed := fun id resumed =>
    (plain_bindLog noise version id resumed).map_rename ρ
  simp only [serveLog, rename_sessionRegistry, SessionRegistry.isResumable_rename]
  cases d.sessionRegistry.isResumable token with
  | some id =>
    simp only [List.map_append, hbind, (d.plain_resumeLog env noise id).map_rename ρ,
      resumeLog_rename]
  | none =>
    simp only [pickLog_rename, pickPeerForNewSession_rename, List.map_append,
      (d.plain_pickLog env noise).map_rename ρ]
    cases d.pickPeerForNewSession env with
    | some target => rfl
    | none =>
      simp only [List.map_append, hbind, (d.plain_startLog env noise token).map_rename ρ,
        startLog_rename]
      rfl

theorem connectLog_rename (hello : ClientHello) :
    (d.rename ρ).connectLog (env.rename ρ) noise (hello.rename ρ) =
      (d.connectLog env noise hello).map (LogRecord.rename ρ) := by
  have hversion : (hello.rename ρ).version = hello.version := rfl
  simp only [connectLog, getD_rename, findHome_rename, hversion]
  generalize (⟨hello.token.getD env.randomToken⟩ : SessionToken) = token
  obtain ⟨location, d'⟩ := d.findHome env token
  rw [List.map_append]
  congr 1
  · simp only [rename_sessionRegistry, discoverLog_rename]
    rw [show (env.rename ρ).locatedAt = env.locatedAt from rfl, SessionRegistry.locate_rename]
    cases d.sessionRegistry.locate env.locatedAt token with
    | localTo _ | remote _ => rfl
    | unknown => exact ((d.plain_discoverLog env noise).map_rename ρ).symm
  · cases location with
    | localTo _ | unknown => exact serveLog_rename ρ d' env noise token hello.version
    | remote serverId =>
      simp only [rename_cluster]
      cases d'.cluster.addrOf serverId with
      | some addr => rfl
      | none =>
        rw [List.map_cons, ← serveLog_rename]
        rfl

theorem disconnectLog_rename (desktopLog : DesktopLog S) :
    disconnectLog desktopLog (d.rename ρ) (env.rename ρ) noise =
      disconnectLog desktopLog d env noise := by
  simp only [disconnectLog, rename_sessionRegistry, SessionRegistry.transitionLog_rename,
    SessionRegistry.suspend, SessionRegistry.transition_rename]
  rfl

theorem controlLog_rename (desktopLog : DesktopLog S) (msg : ControlMessage) :
    controlLog desktopLog (d.rename ρ) (msg.rename ρ) =
      (controlLog desktopLog d msg).map (LogRecord.rename ρ) := by
  cases msg with
  | clipboardData clip => exact ((d.plain_clipboardLog desktopLog clip).map_rename ρ).symm
  | _ => rfl

/-- **An event logs the same up to renaming.** -/
theorem drainedLog_rename (desktopLog : DesktopLog S) (event : DrainEvent) :
    drainedLog desktopLog (d.rename ρ) (event.rename ρ) =
      (drainedLog desktopLog d event).map (LogRecord.rename ρ) := by
  cases event with
  | disconnected => rfl
  | received env noise event =>
    cases event with
    | input msg => exact ((plain_foreign _).map_rename ρ).symm
    | clientConnected hello remoteAddr => exact connectLog_rename ρ d env noise hello
    | clientDisconnected =>
      exact (disconnectLog_rename ρ d env noise desktopLog).trans
        ((d.plain_disconnectLog env noise desktopLog).map_rename ρ).symm
    | control msg => exact controlLog_rename ρ d desktopLog msg

/-- **A run logs the same up to renaming.** -/
theorem drainLog_rename (desktop : Desktop S) (desktopLog : DesktopLog S)
    (events : List DrainEvent) :
    drainLog desktop desktopLog (d.rename ρ) (events.map (DrainEvent.rename ρ)) =
      (drainLog desktop desktopLog d events).map (LogRecord.rename ρ) := by
  induction events generalizing d with
  | nil => rfl
  | cons event events ih =>
    rw [List.map_cons, drainLog, drainedLog_rename, drained_rename, ih, drainLog, List.map_append]

end CalloopData

/-! ### Records that every renaming fixes -/

/-- Every token is moved by some renaming. -/
theorem exists_rename_ne (t : String) : ∃ ρ : String ↪ String, ρ t ≠ t := by
  have hne : t ++ "x" ≠ t := fun h => by
    have hlength := congrArg String.length h
    rw [String.length_append, show "x".length = 1 from rfl] at hlength
    omega
  exact ⟨(Equiv.swap t (t ++ "x")).toEmbedding, by simp [hne]⟩

theorem ControlMessage.carriesToken_eq_false {msg : ControlMessage}
    (h : ∀ ρ : String ↪ String, msg.rename ρ = msg) : msg.carriesToken = false := by
  cases msg with
  | clientHello hello =>
    obtain ⟨version, capabilities, token⟩ := hello
    cases token with
    | none => rfl
    | some t =>
      obtain ⟨ρ, hρ⟩ := exists_rename_ne t
      exact absurd (by simpa [rename, ClientHello.rename] using h ρ) hρ
  | serverHello hello =>
    obtain ⟨ρ, hρ⟩ := exists_rename_ne hello.token
    have hhello := ControlMessage.serverHello.inj (h ρ)
    exact absurd (congrArg ServerHello.token hhello) hρ
  | sessionLookupRequest token auth =>
    obtain ⟨ρ, hρ⟩ := exists_rename_ne token
    exact absurd (by simpa [rename] using h ρ) hρ
  | _ => rfl

theorem LogValue.reveals_eq_false {value : LogValue}
    (h : ∀ ρ : String ↪ String, value.rename ρ = value) : value.reveals = false := by
  cases value with
  | token t =>
    obtain ⟨ρ, hρ⟩ := exists_rename_ne t.str
    have ht : SessionToken.rename ρ t = t := LogValue.token.inj (h ρ)
    exact absurd (congrArg SessionToken.str ht) hρ
  | message msg => exact ControlMessage.carriesToken_eq_false fun ρ => LogValue.message.inj (h ρ)
  | _ => rfl

theorem LogRecord.reveals_eq_false {r : LogRecord}
    (h : ∀ ρ : String ↪ String, r.rename ρ = r) : r.reveals = false := by
  obtain ⟨level, message, fields⟩ := r
  refine List.any_eq_false.mpr fun field hmem => ?_
  have hvalue : ∀ ρ : String ↪ String, field.2.rename ρ = field.2 := fun ρ => by
    have hfields : fields.map (fun field => (field.1, field.2.rename ρ)) = fields.map id :=
      (congrArg LogRecord.fields (h ρ)).trans (List.map_id fields).symm
    exact congrArg Prod.snd (List.map_inj_left.mp hfields field hmem)
  rw [LogValue.reveals_eq_false hvalue]
  exact Bool.false_ne_true

/-- **Exactly the records that reveal no token are the same under every renaming.** -/
theorem plain_iff_map_rename {records : List LogRecord} :
    Plain records ↔ ∀ ρ : String ↪ String, records.map (LogRecord.rename ρ) = records := by
  refine ⟨fun h ρ => h.map_rename ρ, fun h r hr => LogRecord.reveals_eq_false fun ρ => ?_⟩
  exact List.map_inj_left.mp ((h ρ).trans (List.map_id records).symm) r hr

namespace CalloopData

variable {S : Type} (d : CalloopData S) (env : Surroundings) (noise : LogSurroundings)
  (token : SessionToken)

/-! ### Events that reveal a token -/

/-- The client is sent to another server: to the home of its session, or to a peer that has less
to do. -/
def Redirects (hello : ClientHello) : Prop :=
  let token : SessionToken := ⟨hello.token.getD env.randomToken⟩
  let (location, d) := d.findHome env token
  (d.redirectTarget location).isSome ∨
    (d.sessionRegistry.isResumable token = none ∧ (d.pickPeerForNewSession env).isSome)

/-- The event makes the compositor format a session token. -/
def Reveals : DrainEvent → Prop
  | .received env _ (.clientConnected hello _) => d.Redirects env hello
  | .received _ _ (.control msg) => msg.carriesToken = true
  | _ => False

theorem plain_locatedLog (location : SessionLocation) :
    Plain (match location with
      | .unknown => d.discoverLog env noise
      | .localTo _ | .remote _ => []) := by
  cases location with
  | localTo _ | remote _ => exact plain_nil
  | unknown => exact d.plain_discoverLog env noise

theorem not_plain_redirectLog (message serverId addr : String) :
    ¬ Plain (redirectLog message token serverId addr) :=
  fun h => absurd (h _ List.mem_cons_self) (by simp [LogRecord.reveals, LogValue.reveals])

theorem plain_serveLog_iff (version : UInt32) :
    Plain (d.serveLog env noise version token) ↔
      ¬ (d.sessionRegistry.isResumable token = none ∧ (d.pickPeerForNewSession env).isSome) := by
  unfold serveLog
  cases d.sessionRegistry.isResumable token with
  | some id =>
    have h := plain_append.mpr ⟨d.plain_resumeLog env noise id, plain_bindLog noise version id true⟩
    simpa using h
  | none =>
    cases d.pickPeerForNewSession env with
    | some target =>
      have h := not_plain_redirectLog token "load-balancing new session to peer" target.1 target.2
      simpa [plain_append] using fun _ => h
    | none =>
      have h := plain_append.mpr ⟨d.plain_pickLog env noise,
        plain_append.mpr ⟨d.plain_startLog env noise token,
          plain_bindLog noise version ⟨d.sessionRegistry.nextId⟩ false⟩⟩
      simpa using h

theorem plain_connectLog_iff (hello : ClientHello) :
    Plain (d.connectLog env noise hello) ↔ ¬ d.Redirects env hello := by
  unfold connectLog Redirects
  generalize (⟨hello.token.getD env.randomToken⟩ : SessionToken) = token
  dsimp only
  refine plain_append.trans ((and_iff_right (plain_locatedLog d env noise
    (d.sessionRegistry.locate env.locatedAt token))).trans ?_)
  generalize d.findHome env token = found
  obtain ⟨location, d'⟩ := found
  rw [not_or]
  cases location with
  | localTo _ | unknown =>
    have h := plain_serveLog_iff d' env noise token hello.version
    simpa only [redirectTarget, Option.isSome_none, Bool.false_eq_true, not_false_eq_true,
      true_and] using h
  | remote serverId =>
    simp only [redirectTarget]
    cases d'.cluster.addrOf serverId with
    | some addr =>
      have h := not_plain_redirectLog token "redirecting client to home server" serverId addr
      exact iff_of_false h fun hnot => hnot.1 rfl
    | none =>
      have h := plain_serveLog_iff d' env noise token hello.version
      simp only [plain_cons, Option.map_none, Option.isSome_none, Bool.false_eq_true,
        not_false_eq_true, true_and]
      exact (and_iff_right rfl).trans h

theorem plain_controlLog_iff (desktopLog : DesktopLog S) (msg : ControlMessage) :
    Plain (controlLog desktopLog d msg) ↔ ¬ msg.carriesToken = true := by
  cases msg with
  | clipboardData clip =>
    refine iff_of_true (d.plain_clipboardLog desktopLog clip) ?_
    exact Bool.false_ne_true
  | _ => simp [controlLog, LogRecord.reveals, LogValue.reveals, ControlMessage.carriesToken]

/-- **The records of an event show a token exactly if the event makes one be formatted.** -/
theorem plain_drainedLog_iff (desktopLog : DesktopLog S) (event : DrainEvent) :
    Plain (drainedLog desktopLog d event) ↔ ¬ d.Reveals event := by
  cases event with
  | disconnected =>
    exact iff_of_true (plain_cons.mpr ⟨rfl, plain_nil⟩) not_false
  | received env noise event =>
    cases event with
    | input msg => exact iff_of_true (plain_foreign _) not_false
    | clientConnected hello remoteAddr => exact d.plain_connectLog_iff env noise hello
    | clientDisconnected =>
      exact iff_of_true (d.plain_disconnectLog env noise desktopLog) not_false
    | control msg => exact d.plain_controlLog_iff desktopLog msg

theorem plain_drainLog_iff (desktop : Desktop S) (desktopLog : DesktopLog S)
    (events : List DrainEvent) :
    Plain (drainLog desktop desktopLog d events) ↔
      Along (drained desktop) (fun d event => ¬ d.Reveals event) d events := by
  induction events generalizing d with
  | nil => exact iff_of_true plain_nil trivial
  | cons event events ih =>
    exact plain_append.trans (and_congr (d.plain_drainedLog_iff _ event) (ih _))

/-! ### The log -/

/-- **Session tokens influence the log exactly on a redirect and on a control message that carries
one.**  For every desktop, state and run: the runs that differ only by an injective renaming of
session tokens all log the same, if and only if no connecting client is redirected, to its home or
to a peer with less to do, and no control message with a token arrives. -/
theorem log_secrecy_iff (desktop : Desktop S) (desktopLog : DesktopLog S) (d : CalloopData S)
    (events : List DrainEvent) :
    (∀ ρ : String ↪ String,
      drainLog desktop desktopLog (d.rename ρ) (events.map (DrainEvent.rename ρ)) =
        drainLog desktop desktopLog d events) ↔
      Along (drained desktop) (fun d event => ¬ d.Reveals event) d events := by
  simp only [drainLog_rename]
  rw [← plain_iff_map_rename, plain_drainLog_iff]

section Witness

/-- Server `a` of a cluster of two. -/
private def clustered : CalloopData Unit :=
  boot () ⟨[], 0, false, 0⟩ ⟨"a", "s", [⟨"a", "a:1", 1, ""⟩, ⟨"b", "b:1", 1, ""⟩]⟩ true false none
    ⟨0, 0⟩ .stored

/-- A client of a session that lives at the peer. -/
private def roamed : DrainEvent :=
  .received { quiet with tokenProbe := fun _ => .answered "b" }
    ⟨fun _ => [], fun _ => false, fun _ => [], fun _ => false, fun _ => "", fun _ => "",
      fun _ => false, false, 0⟩
    (.clientConnected ⟨2, [], some "t"⟩ "c")

/-- The token of a client that is sent home is in the log. -/
theorem log_reveals_redirected :
    ¬ ∀ (d : CalloopData Unit) (events : List DrainEvent) (ρ : String ↪ String),
      drainLog nullDesktop ⟨fun _ _ => [], fun _ => [], fun _ _ => []⟩ (d.rename ρ)
          (events.map (DrainEvent.rename ρ)) =
        drainLog nullDesktop ⟨fun _ _ => [], fun _ => [], fun _ _ => []⟩ d events := by
  intro h
  have hlog := h clustered [roamed] (Equiv.swap "t" "u").toEmbedding
  exact absurd hlog (by decide +kernel)

end Witness

end CalloopData

end WayRay
