import WayRay.Client.Connect

/-!
# Where a client connects

What the attempts of one call of `connectFollowingRedirects` are like, whatever the servers answer:
each goes to a candidate under a pin that is configured for it, their number is bounded, and none
comes after a bind or a typed rejection.

`Confined` says so of a part of a call.  It holds of one attempt (`confined_single`), and of two
parts one after the other if the first one ends undecided (`Confined.append`).
-/

namespace WayRay

variable {Addr : Type} {token : Option String} {candidates : List (Candidate Addr)}

/-- The attempt ends its call: the client is bound, or the error is one that no retry helps with. -/
def Attempt.Ends (a : Attempt Addr) : Prop :=
  (∃ hello, a.result = .ok (.connected hello)) ∨ ∃ e, a.result = .error e ∧ e.isFatal = true

/-- What the attempts of a part of a call are like, given what the part comes to. -/
structure Confined (token : Option String) (candidates : List (Candidate Addr)) (limit : ℕ)
    (result : Option ConnectResult) (attempts : List (Attempt Addr)) : Prop where
  /-- Each goes to a candidate. -/
  target : ∀ a ∈ attempts, ∃ c ∈ candidates, a.config = configFor token c
  length_le : attempts.length ≤ limit
  /-- Nothing comes after an attempt that ends the call. -/
  ends_last : ∀ a ∈ attempts.dropLast, ¬ a.Ends
  /-- An undecided part has no such attempt. -/
  undecided : result = none → ∀ a ∈ attempts, ¬ a.Ends

theorem confined_nil : Confined token candidates 0 none [] where
  target _ ha := absurd ha List.not_mem_nil
  length_le := le_refl 0
  ends_last _ ha := absurd ha List.not_mem_nil
  undecided _ _ ha := absurd ha List.not_mem_nil

theorem confined_single {a : Attempt Addr} {c : Candidate Addr} (hc : c ∈ candidates)
    (hconfig : a.config = configFor token c) {result : Option ConnectResult}
    (hopen : result = none → ¬ a.Ends) : Confined token candidates 1 result [a] where
  target a' ha' := by
    obtain rfl := List.mem_singleton.mp ha'
    exact ⟨c, hc, hconfig⟩
  length_le := le_refl 1
  ends_last _ ha' := absurd ha' List.not_mem_nil
  undecided hnone a' ha' := by
    obtain rfl := List.mem_singleton.mp ha'
    exact hopen hnone

theorem Confined.mono {limit limit' : ℕ} {result : Option ConnectResult}
    {attempts : List (Attempt Addr)} (h : Confined token candidates limit result attempts)
    (hle : limit ≤ limit') : Confined token candidates limit' result attempts :=
  { h with length_le := le_trans h.length_le hle }

/-- After an undecided part the next one begins. -/
theorem Confined.append {limit limit' : ℕ} {result : Option ConnectResult}
    {attempts attempts' : List (Attempt Addr)} (h : Confined token candidates limit none attempts)
    (h' : Confined token candidates limit' result attempts') :
    Confined token candidates (limit + limit') result (attempts ++ attempts') where
  target a ha := (List.mem_append.mp ha).elim (h.target a) (h'.target a)
  length_le := by
    rw [List.length_append]
    exact Nat.add_le_add h.length_le h'.length_le
  ends_last a ha := by
    by_cases hnil : attempts' = []
    · rw [hnil, List.append_nil] at ha
      exact h.ends_last a ha
    · rw [List.dropLast_append_of_ne_nil hnil] at ha
      exact (List.mem_append.mp ha).elim (h.undecided rfl a) (h'.ends_last a)
  undecided hnone a ha := (List.mem_append.mp ha).elim (h.undecided rfl a) (h'.undecided hnone a)

/-- In a confined list nothing follows an attempt that ends the call. -/
theorem Confined.eq_nil_of_ends {limit : ℕ} {result : Option ConnectResult}
    {attempts pre post : List (Attempt Addr)} {a : Attempt Addr}
    (h : Confined token candidates limit result attempts) (hsplit : attempts = pre ++ a :: post)
    (hends : a.Ends) : post = [] := by
  by_contra hpost
  refine h.ends_last a ?_ hends
  rw [hsplit, List.dropLast_append_of_ne_nil (List.cons_ne_nil a post),
    List.dropLast_cons_of_ne_nil hpost]
  exact List.mem_append_right _ List.mem_cons_self

section Dialing

variable [DecidableEq Addr] [ToString Addr] {turns : ℕ → DialTurn Addr}

omit [DecidableEq Addr] in
theorem connect_config (config : ClientConfig Addr) (store : PinStore) (reply : Reply) :
    (connect config store reply).1.config = config := by
  cases reply with
  | unreachable error => rfl
  | presents fingerprint persisted reply =>
    simp only [connect]
    split
    · rfl
    · cases reply <;> rfl

omit [ToString Addr] in
/-- A redirect is followed to a candidate only. -/
theorem mem_of_redirectCandidate {dns : Resolver Addr} {addr : String} {c : Candidate Addr}
    (h : redirectCandidate (allowedServers candidates) dns addr = some c) : c ∈ candidates := by
  obtain ⟨⟨resolved, name⟩, -, hmap⟩ := Option.bind_eq_some_iff.mp h
  obtain ⟨known, hknown, rfl⟩ := Option.map_eq_some_iff.mp hmap
  obtain ⟨hmem, rfl⟩ := mem_of_allowedServers hknown
  exact hmem

variable (token turns) in
omit [DecidableEq Addr] in
/-- An attempt is recorded under the configuration of its target. -/
theorem dial_eq (target : Candidate Addr) (d : Dialing Addr) :
    (dial token turns target d).1.config = configFor token target ∧
      (dial token turns target d).2.attempts = d.attempts ++ [(dial token turns target d).1] :=
  ⟨connect_config _ _ _, rfl⟩

variable (token candidates turns) in
/-- After an attempt its target is done with, or the client goes on to another candidate. -/
theorem followRedirects_cases (hops : ℕ) (target : Candidate Addr) (d : Dialing Addr) :
    let made := dial token turns target d
    let followed := followRedirects token (allowedServers candidates) turns hops target d
    (followed.2.attempts = made.2.attempts ∧ (followed.1 = none → ¬ made.1.Ends)) ∨
      ∃ hops' known, hops = hops' + 1 ∧ known ∈ candidates ∧ ¬ made.1.Ends ∧
        followed = followRedirects token (allowedServers candidates) turns hops' known made.2 := by
  intro made followed
  have hfollowed : followed =
      followRedirects token (allowedServers candidates) turns hops target d :=
    rfl
  rw [followRedirects, show dial token turns target d = made from rfl] at hfollowed
  obtain ⟨⟨config, sent, result⟩, d'⟩ := made
  rcases result with e | hello | ⟨serverId, addr⟩
  · left
    dsimp only at hfollowed
    split_ifs at hfollowed with hfatal
    · rw [hfollowed]
      exact ⟨rfl, fun hnone => absurd hnone (by simp)⟩
    · rw [hfollowed]
      exact ⟨rfl, fun _ => by simpa [Attempt.Ends] using hfatal⟩
  · rw [hfollowed]
    exact .inl ⟨rfl, fun hnone => absurd hnone (by simp)⟩
  · have hopen : ¬ Attempt.Ends ⟨config, sent, .ok (.redirect serverId addr)⟩ := by
      simp [Attempt.Ends]
    cases hops with
    | zero =>
      rw [hfollowed]
      exact .inl ⟨rfl, fun _ => hopen⟩
    | succ hops =>
      dsimp only at hfollowed
      cases hknown : redirectCandidate (allowedServers candidates)
          (turns d.attempts.length).dns addr with
      | none =>
        rw [hknown] at hfollowed
        rw [hfollowed]
        exact .inl ⟨rfl, fun _ => hopen⟩
      | some known =>
        rw [hknown] at hfollowed
        exact .inr ⟨hops, known, rfl, mem_of_redirectCandidate hknown, hopen, hfollowed⟩

variable (token turns) in
/-- **The redirects of one candidate.**  At most one attempt more than there are hops is made. -/
theorem followRedirects_confined (hops : ℕ) {target : Candidate Addr}
    (htarget : target ∈ candidates) (d : Dialing Addr) :
    ∃ attempts,
      (followRedirects token (allowedServers candidates) turns hops target d).2.attempts =
        d.attempts ++ attempts ∧
      Confined token candidates (hops + 1)
        (followRedirects token (allowedServers candidates) turns hops target d).1 attempts := by
  induction hops using Nat.strong_induction_on generalizing target d with
  | _ hops ih =>
    obtain ⟨hconfig, hattempts⟩ := dial_eq token turns target d
    rcases followRedirects_cases token candidates turns hops target d with
      ⟨hdone, hopen⟩ | ⟨hops', known, rfl, hknown, hopen, hfollowed⟩
    · exact ⟨[(dial token turns target d).1], hdone.trans hattempts,
        (confined_single htarget hconfig hopen).mono (Nat.le_add_left 1 hops)⟩
    · -- the chain goes on from a candidate
      obtain ⟨attempts, hrest, hconfined⟩ :=
        ih hops' (Nat.lt_succ_self hops') hknown (dial token turns target d).2
      rw [hfollowed]
      refine ⟨(dial token turns target d).1 :: attempts, ?_, ?_⟩
      · rw [hrest, hattempts, List.append_assoc, List.singleton_append]
      · have hboth := (confined_single htarget hconfig fun _ => hopen).append hconfined
        rwa [Nat.add_comm] at hboth

variable (token turns) in
/-- **The candidates in order.** -/
theorem tryCandidates_confined {tried : List (Candidate Addr)}
    (htried : ∀ c ∈ tried, c ∈ candidates) (d : Dialing Addr) :
    ∃ attempts,
      (tryCandidates token (allowedServers candidates) turns tried d).2.attempts =
        d.attempts ++ attempts ∧
      Confined token candidates (tried.length * (maxRedirects + 1))
        (tryCandidates token (allowedServers candidates) turns tried d).1 attempts := by
  induction tried generalizing d with
  | nil => exact ⟨[], (List.append_nil _).symm, confined_nil.mono (Nat.zero_le _)⟩
  | cons candidate tried ih =>
    have hlimit : (candidate :: tried).length * (maxRedirects + 1) =
        maxRedirects + 1 + tried.length * (maxRedirects + 1) := by
      rw [List.length_cons, Nat.succ_mul, Nat.add_comm]
    obtain ⟨first, hfirst, hconfined⟩ :=
      followRedirects_confined token turns maxRedirects (htried candidate List.mem_cons_self) d
    unfold tryCandidates
    rw [hlimit]
    generalize followRedirects token (allowedServers candidates) turns maxRedirects candidate d =
      made at hfirst hconfined
    obtain ⟨result, d'⟩ := made
    cases result with
    | some result => exact ⟨first, hfirst, hconfined.mono (Nat.le_add_right _ _)⟩
    | none =>
      obtain ⟨rest, hrest, hconfined'⟩ := ih (fun c hc => htried c (List.mem_cons_of_mem _ hc)) d'
      refine ⟨first ++ rest, ?_, hconfined.append hconfined'⟩
      rw [hrest, hfirst, List.append_assoc]

/-- What the attempts of a call are like. -/
theorem connectFollowingRedirects_attempts (token : Option String)
    (candidates : List (Candidate Addr)) (turns : ℕ → DialTurn Addr) (firstAttempt : Bool)
    (store : PinStore) :
    ∃ result, Confined token candidates (candidates.length * (maxRedirects + 1)) result
      (connectFollowingRedirects token (allowedServers candidates) turns candidates firstAttempt
        store).2.attempts := by
  obtain ⟨attempts, hattempts, hconfined⟩ := tryCandidates_confined token turns
    (fun c hc => hc : ∀ c ∈ candidates, c ∈ candidates) ⟨store, [], none⟩
  unfold connectFollowingRedirects
  generalize tryCandidates token (allowedServers candidates) turns candidates ⟨store, [], none⟩ =
    made at hattempts hconfined
  obtain ⟨result, d⟩ := made
  obtain rfl : d.attempts = attempts := hattempts
  cases result with
  | some result => exact ⟨some result, hconfined⟩
  | none => exact ⟨none, hconfined⟩

/-- **Confinement of the token.**  Whatever the servers and the resolver answer, one call connects
to addresses of candidates only, under a policy that a candidate with that address carries, makes at
most `maxRedirects + 1` attempts for each candidate, and none after a bind or a typed rejection. -/
theorem attempts_confined (token : Option String) (candidates : List (Candidate Addr))
    (turns : ℕ → DialTurn Addr) (firstAttempt : Bool) (store : PinStore) :
    let attempts := (connectFollowingRedirects token (allowedServers candidates) turns candidates
      firstAttempt store).2.attempts
    (∀ a ∈ attempts, ∃ c ∈ candidates, c.addr = a.config.serverAddr ∧
      a.config.policy = (configFor token c).policy) ∧
    attempts.length ≤ candidates.length * (maxRedirects + 1) ∧
    ∀ pre a post, attempts = pre ++ a :: post → a.Ends → post = [] := by
  intro attempts
  obtain ⟨result, h⟩ :=
    connectFollowingRedirects_attempts token candidates turns firstAttempt store
  refine ⟨fun a ha => ?_, h.length_le, fun pre a post hsplit hends => h.eq_nil_of_ends hsplit hends⟩
  obtain ⟨c, hc, hconfig⟩ := h.target a ha
  refine ⟨c, hc, ?_, ?_⟩
  · rw [hconfig, configFor]
  · rw [hconfig]

end Dialing

end WayRay
