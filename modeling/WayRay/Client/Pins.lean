import WayRay.Client.Confinement

/-!
# Configured pins

Which certificates a client accepts at an address for which a fingerprint is configured.

`PinsEnforced` says that every connection to such an address, whichever call of the reconnect loop
makes it and whether it is to a candidate or along a redirect, verifies against that fingerprint.
An address is connected to under the first entry configured for it, so this is the case if and only
if that entry carries the fingerprint (`pinsEnforced_iff`).  An address that stands without a pin on
the command line is trusted on first use although the cluster file has a pin for it
(`not_pinsEnforced_shadowed`).
-/

namespace WayRay

variable {Addr : Type} [DecidableEq Addr] [ToString Addr]

/-- Every connection that the client ever opens to an address with a configured fingerprint verifies
against that fingerprint. -/
def PinsEnforced (dns : ℕ → Resolver Addr) (load : String → Option ClusterConfig)
    (args : List String) : Prop :=
  ∀ storedToken store rounds addr fp, (addr, some fp) ∈ configured dns load args →
    ∀ a ∈ clientRun dns load args storedToken store rounds, a.config.serverAddr = addr →
      a.config.policy.Enforces fp

/-! ### Every connection goes to a candidate -/

theorem reconnectLoop_target (token : Option String) (candidates : List (Candidate Addr))
    (rounds : List (Round Addr)) (firstAttempt : Bool) (store : PinStore) :
    ∀ a ∈ reconnectLoop token candidates firstAttempt store rounds,
      ∃ c ∈ candidates, a.config = configFor token c := by
  induction rounds generalizing firstAttempt store with
  | nil => exact fun a ha => absurd ha List.not_mem_nil
  | cons round rounds ih =>
    intro a ha
    obtain ⟨_, hcall⟩ := connectFollowingRedirects_attempts token candidates round.turns
      firstAttempt store
    rw [reconnectLoop] at ha
    generalize connectFollowingRedirects token (allowedServers candidates) round.turns candidates
      firstAttempt store = made at ha hcall
    obtain ⟨result, d⟩ := made
    rcases List.mem_append.mp ha with ha | ha
    · exact hcall.target a ha
    · cases result with
      | connected hello =>
        dsimp only at ha
        split_ifs at ha
        · exact absurd ha List.not_mem_nil
        · exact ih _ _ a ha
      | fatal e => exact absurd ha List.not_mem_nil
      | retry => exact ih _ _ a ha

theorem clientRun_target {dns : ℕ → Resolver Addr} {load : String → Option ClusterConfig}
    {args : List String} {storedToken : String} {store : PinStore} {rounds : List (Round Addr)} :
    ∀ a ∈ clientRun dns load args storedToken store rounds,
      ∃ c ∈ parseServerCandidates dns load args,
        a.config = configFor (clientToken args storedToken) c := by
  intro a ha
  simp only [clientRun] at ha
  split_ifs at ha
  · exact absurd ha List.not_mem_nil
  · exact reconnectLoop_target _ _ _ _ _ a ha

/-! ### Every candidate may be connected to -/

/-- A network on which nothing answers. -/
def unreachable (dns : Resolver Addr) : ℕ → DialTurn Addr :=
  fun _ => ⟨.unreachable "unreachable", dns⟩

/-- The attempt that is made on it. -/
def missed (token : Option String) (c : Candidate Addr) : Attempt Addr :=
  ⟨configFor token c, none, .error (.transport "unreachable")⟩

theorem followRedirects_unreachable (token : Option String)
    (allowed : HashMap Addr (Candidate Addr)) (dns : Resolver Addr) (hops : ℕ) (c : Candidate Addr)
    (d : Dialing Addr) :
    followRedirects token allowed (unreachable dns) hops c d =
      (none, ⟨d.store, d.attempts ++ [missed token c], some (.transport "unreachable")⟩) := by
  rw [followRedirects]
  rfl

/-- Where nothing answers, every candidate is tried. -/
theorem tryCandidates_unreachable (token : Option String) (allowed : HashMap Addr (Candidate Addr))
    (dns : Resolver Addr) (candidates : List (Candidate Addr)) (d : Dialing Addr) :
    (tryCandidates token allowed (unreachable dns) candidates d).1 = none ∧
      (tryCandidates token allowed (unreachable dns) candidates d).2.attempts =
        d.attempts ++ candidates.map (missed token) := by
  induction candidates generalizing d with
  | nil => exact ⟨rfl, (List.append_nil _).symm⟩
  | cons c candidates ih =>
    rw [tryCandidates, followRedirects_unreachable]
    obtain ⟨hnone, hattempts⟩ :=
      ih ⟨d.store, d.attempts ++ [missed token c], some (.transport "unreachable")⟩
    refine ⟨hnone, hattempts.trans ?_⟩
    rw [List.append_assoc, List.map_cons, List.singleton_append]

/-- A client may come to connect to any of its candidates. -/
theorem exists_mem_clientRun {dns : ℕ → Resolver Addr} {load : String → Option ClusterConfig}
    {args : List String} (storedToken : String) (store : PinStore) {c : Candidate Addr}
    (hc : c ∈ parseServerCandidates dns load args) :
    ∃ rounds, missed (clientToken args storedToken) c ∈
      clientRun dns load args storedToken store rounds := by
  refine ⟨[⟨unreachable (dns 0), false⟩], ?_⟩
  have hne : (parseServerCandidates dns load args).isEmpty = false :=
    List.isEmpty_eq_false_iff.mpr (List.ne_nil_of_mem hc)
  obtain ⟨hnone, hattempts⟩ := tryCandidates_unreachable (clientToken args storedToken)
    (allowedServers (parseServerCandidates dns load args)) (dns 0)
    (parseServerCandidates dns load args) ⟨store, [], none⟩
  simp only [clientRun, hne, reconnectLoop, connectFollowingRedirects]
  generalize tryCandidates (clientToken args storedToken)
    (allowedServers (parseServerCandidates dns load args)) (unreachable (dns 0))
    (parseServerCandidates dns load args) ⟨store, [], none⟩ = made at hnone hattempts ⊢
  obtain ⟨result, d⟩ := made
  obtain rfl : result = none := hnone
  refine List.mem_append_left _ ?_
  rw [show d.attempts = _ from hattempts]
  exact List.mem_map_of_mem hc

/-! ### The first entry decides -/

omit [DecidableEq Addr] in
/-- The policy of a connection to a candidate enforces what the candidate carries. -/
theorem enforces_configFor {token : Option String} {c : Candidate Addr} {fp : String} :
    (configFor token c).policy.Enforces fp ↔
      ∃ pin, c.fingerprint = some pin ∧ fingerprintsMatch pin fp = true := by
  cases hpin : c.fingerprint with
  | none =>
    rw [ClientConfig.policy, configFor, hpin]
    exact iff_of_false PinPolicy.not_enforces_tofu (by simp)
  | some pin =>
    rw [ClientConfig.policy, configFor, hpin]
    exact PinPolicy.enforces_fixed_iff.trans (by simp)

/-- **Configured pins are enforced exactly if none is shadowed.**  For every command line, cluster
file and resolver, each connection to an address with a configured fingerprint verifies against that
fingerprint if and only if the first entry for the address carries it. -/
theorem pinsEnforced_iff (dns : ℕ → Resolver Addr) (load : String → Option ClusterConfig)
    (args : List String) :
    PinsEnforced dns load args ↔
      ∀ addr fp, (addr, some fp) ∈ configured dns load args →
        ∃ pin, ((configured dns load args).find? fun e => e.1 = addr) = some (addr, some pin) ∧
          fingerprintsMatch pin fp = true := by
  constructor
  · intro h addr fp hmem
    obtain ⟨c, hc, rfl⟩ := (standFor_parse load args).covers _ hmem
    obtain ⟨rounds, hattempt⟩ := exists_mem_clientRun "" ⟨∅⟩ hc
    obtain ⟨pin, hpin, hmatch⟩ := enforces_configFor.mp (h "" ⟨∅⟩ rounds _ fp hmem _ hattempt rfl)
    exact ⟨pin, by rw [find_configured_of_mem hc, hpin], hmatch⟩
  · intro h storedToken store rounds addr fp hmem a ha haddr
    obtain ⟨c, hc, hconfig⟩ := clientRun_target a ha
    have hcaddr : c.addr = addr := by rw [← haddr, hconfig, configFor]
    obtain ⟨pin, hfind, hmatch⟩ := h addr fp hmem
    rw [← hcaddr, find_configured_of_mem hc] at hfind
    have hpin : c.fingerprint = some pin := congrArg Prod.snd (Option.some.inj hfind)
    rw [hconfig]
    exact enforces_configFor.mpr ⟨pin, hpin, hmatch⟩

/-! ### A shadowed pin -/

/-- A resolver that reads one socket address. -/
def oneServer : ℕ → Resolver String := fun _ =>
  ⟨fun addr => if addr = "10.0.0.1:4433" then some addr else none, fun _ => none⟩

/-- A cluster file with a pin for that address. -/
def pinnedCluster : String → Option ClusterConfig := fun path =>
  if path = "cluster.toml" then
    some ⟨"a", "secret", [⟨"a", "10.0.0.1:4433", 1, "sha256:ab"⟩]⟩
  else none

/-- **A shadowed pin.**  Named on the command line as well, the server is trusted on first use. -/
theorem not_pinsEnforced_shadowed :
    ¬ PinsEnforced oneServer pinnedCluster
      ["wrclient", "10.0.0.1:4433", "--cluster", "cluster.toml"] := by
  intro h
  have hrun : missed (some "t") ⟨"10.0.0.1:4433", "localhost", none⟩ ∈
      clientRun oneServer pinnedCluster ["wrclient", "10.0.0.1:4433", "--cluster", "cluster.toml"]
        "t" ⟨∅⟩ [⟨unreachable (oneServer 0), false⟩] :=
    List.mem_cons_self
  obtain ⟨pin, hpin, -⟩ := enforces_configFor.mp
    (h "t" ⟨∅⟩ _ "10.0.0.1:4433" "sha256:ab" (by decide) _ hrun rfl)
  exact Option.some_ne_none pin hpin.symm

end WayRay
