import WayRay.Session.Lasting
import WayRay.Session.Restart

/-!
# Suspend timeouts across a restart

The column of the timeout is an `i64` and the seconds of a duration are a `u64`: `record_of` casts
one to the other, `load_all` clamps what it reads at zero and casts it back.  `restoredSecs` is what
comes out, the seconds themselves below `2 ^ 63` and zero from there on (`restoredSecs_eq`).

`timeout_survives_iff` is about a session whose timeout was set at some time in a history: restored
after it, the session has as many whole seconds and lives for as long exactly if they are below
`2 ^ 63`.
-/

namespace WayRay

/-- What the timeout column gives back for a number of seconds. -/
def restoredSecs (secs : ℕ) : ℕ := asU64 (max (asI64 secs) 0)

theorem restoredSecs_of_lt {secs : ℕ} (h : secs < 2 ^ 63) : restoredSecs secs = secs :=
  asU64_max_asI64 h

/-- A number of seconds that is negative as an `i64` reads as zero. -/
theorem restoredSecs_of_le {secs : ℕ} (h : 2 ^ 63 ≤ secs) (h64 : secs < 2 ^ 64) :
    restoredSecs secs = 0 := by
  have hneg : asI64 secs < 0 := by
    unfold asI64
    rw [Int.bmod_neg] <;> omega
  rw [restoredSecs, max_eq_right hneg.le]
  rfl

theorem restoredSecs_lt {secs : ℕ} (h64 : secs < 2 ^ 64) : restoredSecs secs < 2 ^ 63 := by
  rcases lt_or_ge secs (2 ^ 63) with hlt | hge
  · rwa [restoredSecs_of_lt hlt]
  · rw [restoredSecs_of_le hge h64]
    norm_num

/-- Reading the column back loses nothing more a second time. -/
theorem restoredSecs_idem {secs : ℕ} (h64 : secs < 2 ^ 64) :
    restoredSecs (restoredSecs secs) = restoredSecs secs :=
  restoredSecs_of_lt (restoredSecs_lt h64)

theorem restoredSecs_eq_iff {secs : ℕ} (h64 : secs < 2 ^ 64) :
    restoredSecs secs = secs ↔ secs < 2 ^ 63 := by
  constructor
  · intro h
    rw [← h]
    exact restoredSecs_lt h64
  · exact restoredSecs_of_lt

theorem Session.not_isSuspendExpired {s : Session} {t now : Instant} (ht : s.suspendedAt = some t)
    (h : Instant.elapsed t now < s.suspendTimeout.asNanos) : s.isSuspendExpired now = false := by
  unfold isSuspendExpired
  split_ifs
  · rfl
  · rw [ht, Option.any_some, decide_eq_false_iff_not]
    exact not_le.mpr h

namespace SessionRegistry

variable {clk : Clock} {r : SessionRegistry} {i : SessionId}

/-- The timeout of a live row, in terms of the session it belongs to. -/
theorem LiveRows.timeout_of_liveRow (h : LiveRows r) {p : PersistedSession}
    (hp : r.store.liveRow i = some p) :
    ∃ s, r.sessions.get i = some s ∧ s.state.resumable = true ∧
      p.suspendTimeout.asSecs = restoredSecs s.suspendTimeout.asSecs := by
  obtain ⟨hload, hlive⟩ := SessionStore.liveRow_eq_some.mp hp
  obtain ⟨row, hrow, hdec⟩ := SessionStore.load_eq_some.mp hload
  obtain ⟨s, hs, hslive⟩ := h.live_of_row hrow (loadRow_state hdec) hlive
  obtain ⟨clk, hrow'⟩ := h.row_of_live (SessionStore.isSqlite_of_rows_get hrow) hs hslive
  rw [hrow, Option.some.injEq] at hrow'
  rw [hrow', ← h.own_id hs, loadRow_recordOf, Option.some.injEq] at hdec
  refine ⟨s, hs, hslive, ?_⟩
  rw [← hdec]
  refine Duration.asSecs_fromSecs (lt_trans (restoredSecs_lt s.suspendTimeout.secs_lt) ?_)
  norm_num

/-- A live session has a live row. -/
theorem LiveRows.exists_liveRow (h : LiveRows r) (hsql : r.store.isSqlite = true) {s : Session}
    (hs : r.sessions.get i = some s) (hlive : s.state.resumable = true) :
    ∃ p, r.store.liveRow i = some p := by
  obtain ⟨clk, hrow⟩ := h.row_of_live hsql hs hlive
  have hload : r.store.load i = loadRow s.id (recordOf s clk) := by
    rw [SessionStore.load, hrow, Option.bind_some, h.own_id hs]
  rw [loadRow_recordOf] at hload
  exact ⟨_, SessionStore.liveRow_eq_some.mpr ⟨hload, hlive⟩⟩

/-! ### Between setting a timeout and the restart -/

/-- The session's timeout has as many whole seconds as `d`, or as a restored `d`. -/
def TimedBy (d : Duration) (s : Session) : Prop :=
  s.suspendTimeout.asSecs = d.asSecs ∨ s.suspendTimeout.asSecs = restoredSecs d.asSecs

theorem TimedBy.restoredSecs_eq {d : Duration} {s : Session} (h : TimedBy d s) :
    restoredSecs s.suspendTimeout.asSecs = restoredSecs d.asSecs := by
  rcases h with h | h
  · rw [h]
  · rw [h]
    exact restoredSecs_idem d.secs_lt

theorem timedBy_setSuspendTimeout (hi : i.raw < r.nextId) (d : Duration) :
    (r.setSuspendTimeout clk i d).HoldsUnder (TimedBy d) i := by
  unfold setSuspendTimeout update
  cases hs : r.sessions.get i with
  | none => exact ⟨hi, fun s hs' => absurd (hs.symm.trans hs').symm (Option.some_ne_none s)⟩
  | some s₀ =>
    refine ⟨hi, fun s hs' => Or.inl ?_⟩
    rw [HashMap.get_insert_self, Option.some.injEq] at hs'
    rw [← hs']

/-- **Step lemma**: only setting a timeout for the session changes it, but for what a restore loses
of it. -/
theorem timedBy_step (hrows : LiveRows r) {d : Duration} (h : r.HoldsUnder (TimedBy d) i)
    {op : RegistryOp} (hop : ∀ timeout, op ≠ .setSuspendTimeout i timeout) :
    (r.step clk op).2.HoldsUnder (TimedBy d) i := by
  refine h.step op (fun s next hs _ => hs) (fun s user hs => hs)
    (fun timeout heq => absurd heq (hop timeout)) fun p hp => ?_
  obtain ⟨s, hs, -, hsecs⟩ := hrows.timeout_of_liveRow hp
  exact Or.inr (hsecs.trans (h.2 s hs).restoredSecs_eq)

/-- **Run lemma**: so it is after every history that sets no timeout for it. -/
theorem timedBy_run {history : List (Clock × RegistryOp)} (hrows : LiveRows r) {d : Duration}
    (h : r.HoldsUnder (TimedBy d) i)
    (hops : ∀ e ∈ history, ∀ timeout, e.2 ≠ .setSuspendTimeout i timeout) :
    (r.run history).HoldsUnder (TimedBy d) i := by
  induction history generalizing r with
  | nil => exact h
  | cons e history ih =>
    exact ih (step_invariant liveRows_move hrows e.2)
      (timedBy_step hrows h (hops e List.mem_cons_self))
      fun e' he' => hops e' (List.mem_cons_of_mem _ he')

/-! ### The restart -/

/-- The timeout a live session is restored with. -/
theorem LiveRows.timeout_restart (h : LiveRows r) (hsql : r.store.isSqlite = true) {s : Session}
    (hs : r.sessions.get i = some s) (hlive : s.state.resumable = true) (clk : Clock)
    (localServerId : String) (capacity : ℕ) (find : Enumeration (SessionId × SessionRecord)) :
    ∃ s', (r.restart clk localServerId capacity find).sessions.get i = some s' ∧
      s'.suspendedAt = some clk.now ∧
      s'.suspendTimeout.asSecs = restoredSecs s.suspendTimeout.asSecs := by
  obtain ⟨p, hp⟩ := h.exists_liveRow hsql hs hlive
  obtain ⟨s₁, hs₁, -, hsecs⟩ := h.timeout_of_liveRow hp
  obtain rfl : s = s₁ := Option.some.inj (hs.symm.trans hs₁)
  exact ⟨restoredSession clk p, by rw [sessions_restart, hp, Option.map_some], rfl, hsecs⟩

/-- **A suspend timeout survives a restart exactly below `2 ^ 63` seconds.**  The timeout of session
`i` was set to `d` and not set again since, and the session is live when the server restarts.  Then
it is restored with the whole seconds of `d`, and does not expire before they have passed, exactly
if they are below `2 ^ 63`. -/
theorem timeout_survives_iff (localServerId localServerId' : String) (capacity capacity' : ℕ)
    (db : SessionTable) (clk₀ clk clk' : Clock)
    (find₀ find : Enumeration (SessionId × SessionRecord)) (i : SessionId) (d : Duration)
    (pre post : List (Clock × RegistryOp)) :
    let start := onDatabase localServerId capacity db clk₀ find₀
    let r := start.run (pre ++ (clk, .setSuspendTimeout i d) :: post)
    let restarted := r.restart clk' localServerId' capacity' find
    ((start.run pre).sessions.get i).isSome →
    (∀ e ∈ post, ∀ timeout, e.2 ≠ .setSuspendTimeout i timeout) →
    (∃ s, r.sessions.get i = some s ∧ s.state.resumable = true) →
    ((∃ s, restarted.sessions.get i = some s ∧ s.suspendTimeout.asSecs = d.asSecs ∧
        ∀ now, Instant.elapsed clk'.now now < d.asSecs * nanosPerSec →
          s.isSuspendExpired now = false) ↔
      d.asSecs < 2 ^ 63) := by
  intro start r restarted hmem hpost ⟨s, hs, hlive⟩
  obtain ⟨s₀, hs₀⟩ := Option.isSome_iff_exists.mp hmem
  have hcons : Consistent (start.run pre) :=
    run_invariant consistent_move (consistent_onDatabase localServerId capacity db clk₀ find₀) pre
  have hrows : LiveRows start :=
    liveRows_boot localServerId capacity (.sqlite (.openFile db)) clk₀ find₀
  have hset : LiveRows ((start.run pre).setSuspendTimeout clk i d) :=
    step_invariant liveRows_move (run_invariant liveRows_move hrows pre) (.setSuspendTimeout i d)
  have hr : r = ((start.run pre).setSuspendTimeout clk i d).run post := run_append start pre _
  have hsql : r.store.isSqlite = true :=
    (isSqlite_run _).trans (isSqlite_onDatabase localServerId capacity db clk₀ find₀)
  -- the session still has the timeout when the server goes down
  have htimed : TimedBy d s := by
    rw [hr] at hs
    exact (timedBy_run hset (timedBy_setSuspendTimeout (hcons.below hs₀) d) hpost).2 s hs
  have hrows' : LiveRows r := hr ▸ run_invariant liveRows_move hset post
  obtain ⟨s', hs', hclock, hsecs⟩ :=
    hrows'.timeout_restart hsql hs hlive clk' localServerId' capacity' find
  rw [htimed.restoredSecs_eq] at hsecs
  constructor
  · rintro ⟨s₁, hs₁, hsecs₁, -⟩
    obtain rfl : s' = s₁ := Option.some.inj (hs'.symm.trans hs₁)
    exact (restoredSecs_eq_iff d.secs_lt).mp (hsecs.symm.trans hsecs₁)
  · intro hlt
    rw [restoredSecs_of_lt hlt] at hsecs
    refine ⟨s', hs', hsecs, fun now hnow => Session.not_isSuspendExpired hclock ?_⟩
    calc Instant.elapsed clk'.now now < d.asSecs * nanosPerSec := hnow
      _ = s'.suspendTimeout.secs * nanosPerSec := by rw [← hsecs]; rfl
      _ ≤ s'.suspendTimeout.asNanos := Nat.le_add_right _ _

/-- An hour set before the session is suspended. -/
theorem timeout_survives_hour :
    let r := (onDatabase "a" 1 ∅ ⟨0, 0⟩ .stored).run
      [(⟨0, 0⟩, .createSession ⟨"t"⟩), (⟨0, 0⟩, .activate ⟨1⟩),
        (⟨0, 0⟩, .setSuspendTimeout ⟨1⟩ (Duration.fromSecs 3600)), (⟨5, 0⟩, .suspend ⟨1⟩)]
    ∃ s, (r.restart ⟨0, 9⟩ "a" 1 .stored).sessions.get ⟨1⟩ = some s ∧
      s.suspendTimeout.asSecs = 3600 ∧
      ∀ now, Instant.elapsed 0 now < 3600 * nanosPerSec → s.isSuspendExpired now = false :=
  (timeout_survives_iff "a" "a" 1 1 ∅ ⟨0, 0⟩ ⟨0, 0⟩ ⟨0, 9⟩ .stored .stored ⟨1⟩
    (Duration.fromSecs 3600) [(⟨0, 0⟩, .createSession ⟨"t"⟩), (⟨0, 0⟩, .activate ⟨1⟩)]
    [(⟨5, 0⟩, .suspend ⟨1⟩)] (by decide) (by simp) ⟨_, rfl, rfl⟩).mpr (by decide)

/-- The longest duration is restored as no time at all: the session expires at once. -/
theorem timeout_lost :
    let never : Duration := ⟨2 ^ 64 - 1, 999999999, by decide, by decide⟩
    let r := (onDatabase "a" 1 ∅ ⟨0, 0⟩ .stored).run
      [(⟨0, 0⟩, .createSession ⟨"t"⟩), (⟨0, 0⟩, .activate ⟨1⟩),
        (⟨0, 0⟩, .setSuspendTimeout ⟨1⟩ never)]
    ∃ s, (r.restart ⟨0, 9⟩ "a" 1 .stored).sessions.get ⟨1⟩ = some s ∧
      s.suspendTimeout.asSecs ≠ never.asSecs ∧ s.isSuspendExpired 0 = true :=
  ⟨_, rfl, by decide, by decide⟩

end SessionRegistry

end WayRay
