import WayRay.Collections.HashMap
import WayRay.Protocol.Cluster
import Mathlib.Data.List.Induction

/-!
# Server candidates

Which servers `wrclient` may connect to: `parse_server_candidates` collects them from the command
line and from a cluster file, `allowedServers` is the map from addresses that redirects are looked
up in.

What the system says about names at its `n`-th question is a `Resolver`.  `configured` lists the
configured entries with their addresses and pins, without leaving any out;
`find_configured_of_mem` says that a candidate carries the pin of the first entry for its address.
-/

namespace WayRay

/-- Maximum number of redirect hops before giving up. -/
def maxRedirects : ℕ := 3

/-- What the system knows about names. -/
structure Resolver (Addr : Type) where
  /-- `str::parse::<SocketAddr>`. -/
  parse : String → Option Addr
  /-- `to_socket_addrs`; none if the lookup fails. -/
  toSocketAddrs : String → Option (List Addr)

/-- Everything before the last `:`, if there is one. -/
def hostname (addr : String) : String :=
  match addr.toList.reverse.dropWhile (· != ':') with
  | [] => addr
  | _ :: host => String.ofList host.reverse

/-- Resolve `host:port` to an address and the name of the host. -/
def resolveServerAddr {Addr : Type} (dns : Resolver Addr) (addr : String) :
    Option (Addr × String) :=
  match dns.parse addr with
  | some socket => some (socket, "localhost")
  | none => ((dns.toSocketAddrs addr).bind List.head?).map fun socket => (socket, hostname addr)

/-- A server the client may connect to, with its pin. -/
structure Candidate (Addr : Type) where
  addr : Addr
  /-- Name for TLS. -/
  name : String
  /-- Configured certificate fingerprint; none for trust on first use. -/
  fingerprint : Option String
deriving DecidableEq

/-! ### The command line -/

/-- The value after the first occurrence of a flag. -/
def flagValue (args : List String) (flag : String) : Option String :=
  (args.idxOf? flag).bind fun pos => args[pos + 1]?

/-- Whether a flag is followed by a value. -/
def takesValue (arg : String) : Bool :=
  arg == "--token" || arg == "--cluster" || arg == "--server-fingerprint"

/-- The arguments that are neither flags nor their values; `skip` if the next one is a value. -/
def positionalArgs : (skip : Bool) → List String → List String
  | _, [] => []
  | true, _ :: args => positionalArgs false args
  | false, arg :: args =>
    if takesValue arg then positionalArgs true args
    else if "--".toList.isPrefixOf arg.toList then positionalArgs false args
    else arg :: positionalArgs false args

/-- The session token: that of the command line, or else the stored one.  The flag without a value
means none. -/
def clientToken (args : List String) (stored : String) : Option String :=
  match args.idxOf? "--token" with
  | some pos => args[pos + 1]?
  | none => some stored

/-! ### Candidates -/

/-- The pin of a cluster entry. -/
def ServerEntry.pin (server : ServerEntry) : Option String :=
  if server.fingerprint.isEmpty then none else some server.fingerprint

section Parsing

variable {Addr : Type} [DecidableEq Addr] (dns : ℕ → Resolver Addr)

omit [DecidableEq Addr] in
/-- The candidates of the positional arguments, from the `n`-th question on. -/
def positionalCandidates (fingerprint : Option String) : ℕ → List String → List (Candidate Addr)
  | _, [] => []
  | n, arg :: args =>
    match resolveServerAddr (dns n) arg with
    | some (addr, name) =>
      ⟨addr, name, fingerprint⟩ :: positionalCandidates fingerprint (n + 1) args
    | none => positionalCandidates fingerprint (n + 1) args

/-- Add the servers of a cluster, from the `n`-th question on; an address that has a candidate gets
no second one. -/
def addServers : ℕ → List ServerEntry → List (Candidate Addr) → List (Candidate Addr)
  | _, [], candidates => candidates
  | n, server :: servers, candidates =>
    addServers (n + 1) servers <|
      match resolveServerAddr (dns n) server.addr with
      | some (addr, name) =>
        if candidates.any fun c => c.addr = addr then candidates
        else candidates ++ [⟨addr, name, server.pin⟩]
      | none => candidates

/-- The servers of the cluster file that the command line names; none without one, or if it fails to
load. -/
def clusterServers (load : String → Option ClusterConfig) (args : List String) : List ServerEntry :=
  (((flagValue args "--cluster").bind load).map (·.servers)).getD []

/-- Parse the server candidate list from the command line. -/
def parseServerCandidates (load : String → Option ClusterConfig) (args : List String) :
    List (Candidate Addr) :=
  let positional := positionalArgs false (args.drop 1)
  addServers dns positional.length (clusterServers load args)
    (positionalCandidates dns (flagValue args "--server-fingerprint") 0 positional)

/-- The set of server addresses the client trusts. -/
def allowedServers (candidates : List (Candidate Addr)) : HashMap Addr (Candidate Addr) :=
  candidates.foldl (fun allowed c => allowed.insert c.addr c) ∅

/-! ### Configured entries -/

omit [DecidableEq Addr] in
/-- The entries that resolve, from the `n`-th question on, with their pins. -/
def resolved : ℕ → List (String × Option String) → List (Addr × Option String)
  | _, [] => []
  | n, (arg, pin) :: entries =>
    match resolveServerAddr (dns n) arg with
    | some (addr, _) => (addr, pin) :: resolved (n + 1) entries
    | none => resolved (n + 1) entries

omit [DecidableEq Addr] in
/-- All configured entries in order: the positional arguments under the fingerprint of the command
line, then the cluster entries under their own. -/
def configured (load : String → Option ClusterConfig) (args : List String) :
    List (Addr × Option String) :=
  let positional := positionalArgs false (args.drop 1)
  resolved dns 0 (positional.map fun arg => (arg, flagValue args "--server-fingerprint")) ++
    resolved dns positional.length ((clusterServers load args).map fun s => (s.addr, s.pin))

end Parsing

/-! ### What a candidate carries -/

section Carries

variable {Addr : Type} [DecidableEq Addr] {dns : ℕ → Resolver Addr}

/-- The candidates stand for the entries: each carries the pin of the first entry for its address,
and every entry has a candidate. -/
structure StandFor (candidates : List (Candidate Addr)) (entries : List (Addr × Option String)) :
    Prop where
  first : ∀ c ∈ candidates,
    (entries.find? fun e => e.1 = c.addr) = some (c.addr, c.fingerprint)
  covers : ∀ e ∈ entries, ∃ c ∈ candidates, c.addr = e.1

omit [DecidableEq Addr] in
theorem resolved_positional (fingerprint : Option String) (n : ℕ) (args : List String) :
    resolved dns n (args.map fun arg => (arg, fingerprint)) =
      (positionalCandidates dns fingerprint n args).map fun c => (c.addr, c.fingerprint) := by
  induction args generalizing n with
  | nil => rfl
  | cons arg args ih =>
    simp only [List.map_cons, resolved, positionalCandidates]
    cases resolveServerAddr (dns n) arg with
    | none => exact ih (n + 1)
    | some target => exact congrArg (List.cons (target.1, fingerprint)) (ih (n + 1))

omit [DecidableEq Addr] in
variable (dns) in
theorem fingerprint_positional (fingerprint : Option String) (n : ℕ) (args : List String) :
    ∀ c ∈ positionalCandidates dns fingerprint n args, c.fingerprint = fingerprint := by
  induction args generalizing n with
  | nil => exact fun c hc => absurd hc List.not_mem_nil
  | cons arg args ih =>
    intro c hc
    simp only [positionalCandidates] at hc
    cases hresolve : resolveServerAddr (dns n) arg with
    | none =>
      rw [hresolve] at hc
      exact ih (n + 1) c hc
    | some target =>
      rw [hresolve] at hc
      rcases List.mem_cons.mp hc with rfl | hc
      · rfl
      · exact ih (n + 1) c hc

/-- The positional candidates stand for their entries: all have one pin. -/
theorem standFor_positional (fingerprint : Option String) (n : ℕ) (args : List String) :
    StandFor (positionalCandidates dns fingerprint n args)
      (resolved dns n (args.map fun arg => (arg, fingerprint))) := by
  rw [resolved_positional]
  have hpin := fingerprint_positional dns fingerprint n args
  generalize positionalCandidates dns fingerprint n args = candidates at hpin
  refine ⟨fun c hc => ?_, fun e he => ?_⟩
  · have hsome : ((candidates.map fun c => (c.addr, c.fingerprint)).find?
        fun e => e.1 = c.addr).isSome := by
      rw [List.find?_isSome]
      exact ⟨_, List.mem_map_of_mem hc, decide_eq_true rfl⟩
    obtain ⟨e, he⟩ := Option.isSome_iff_exists.mp hsome
    have haddr : e.1 = c.addr := by simpa using List.find?_some he
    obtain ⟨c', hc', rfl⟩ := List.mem_map.mp (List.mem_of_find?_eq_some he)
    rw [he, hpin c hc, ← haddr, hpin c' hc']
  · obtain ⟨c, hc, rfl⟩ := List.mem_map.mp he
    exact ⟨c, hc, rfl⟩

/-- A cluster entry is added, or an earlier one stands for its address. -/
theorem StandFor.add {candidates : List (Candidate Addr)} {entries : List (Addr × Option String)}
    (h : StandFor candidates entries) (addr : Addr) (name : String) (pin : Option String) :
    StandFor (if candidates.any fun c => c.addr = addr then candidates
      else candidates ++ [⟨addr, name, pin⟩]) (entries ++ [(addr, pin)]) := by
  have hold : ∀ c ∈ candidates, ((entries ++ [(addr, pin)]).find? fun e => e.1 = c.addr) =
      some (c.addr, c.fingerprint) := by
    intro c hc
    rw [List.find?_append, h.first c hc, Option.some_or]
  by_cases hany : (candidates.any fun c => c.addr = addr) = true
  · rw [if_pos hany]
    refine ⟨hold, fun e he => ?_⟩
    rcases List.mem_append.mp he with he | he
    · exact h.covers e he
    · obtain rfl := List.mem_singleton.mp he
      obtain ⟨c, hc, haddr⟩ := List.any_eq_true.mp hany
      exact ⟨c, hc, of_decide_eq_true haddr⟩
  · rw [if_neg hany]
    have hnew : (entries.find? fun e => e.1 = addr) = none := by
      rw [List.find?_eq_none]
      intro e he haddr
      obtain ⟨c, hc, hce⟩ := h.covers e he
      refine hany (List.any_eq_true.mpr ⟨c, hc, decide_eq_true ?_⟩)
      rw [hce, of_decide_eq_true haddr]
    refine ⟨fun c hc => ?_, fun e he => ?_⟩
    · rcases List.mem_append.mp hc with hc | hc
      · exact hold c hc
      · obtain rfl := List.mem_singleton.mp hc
        rw [List.find?_append, hnew, Option.none_or]
        simp
    · rcases List.mem_append.mp he with he | he
      · obtain ⟨c, hc, haddr⟩ := h.covers e he
        exact ⟨c, List.mem_append_left _ hc, haddr⟩
      · obtain rfl := List.mem_singleton.mp he
        exact ⟨_, List.mem_append_right _ (List.mem_singleton_self _), rfl⟩

theorem StandFor.addServers {candidates : List (Candidate Addr)}
    {entries : List (Addr × Option String)} (h : StandFor candidates entries) (n : ℕ)
    (servers : List ServerEntry) :
    StandFor (addServers dns n servers candidates)
      (entries ++ resolved dns n (servers.map fun s => (s.addr, s.pin))) := by
  induction servers generalizing candidates entries n with
  | nil =>
    rw [List.map_nil, resolved, List.append_nil]
    exact h
  | cons server servers ih =>
    simp only [WayRay.addServers, List.map_cons, resolved]
    cases resolveServerAddr (dns n) server.addr with
    | none => exact ih h (n + 1)
    | some target =>
      have hnext := ih (h.add target.1 target.2 server.pin) (n + 1)
      rwa [List.append_assoc, List.singleton_append] at hnext

/-- The candidates of a command line stand for its configured entries. -/
theorem standFor_parse (load : String → Option ClusterConfig) (args : List String) :
    StandFor (parseServerCandidates dns load args) (configured dns load args) :=
  (standFor_positional _ _ _).addServers _ _

/-- **A candidate carries the pin of the first configured entry for its address.** -/
theorem find_configured_of_mem {load : String → Option ClusterConfig} {args : List String}
    {c : Candidate Addr} (hc : c ∈ parseServerCandidates dns load args) :
    ((configured dns load args).find? fun e => e.1 = c.addr) = some (c.addr, c.fingerprint) :=
  (standFor_parse load args).first c hc

/-- A redirect can only lead to a candidate. -/
theorem mem_of_allowedServers {candidates : List (Candidate Addr)} {addr : Addr}
    {c : Candidate Addr} (h : (allowedServers candidates).get addr = some c) :
    c ∈ candidates ∧ c.addr = addr := by
  induction candidates using List.reverseRecOn with
  | nil => exact absurd h (by simp [allowedServers])
  | append_singleton candidates last ih =>
    rw [allowedServers, List.foldl_append, List.foldl_cons, List.foldl_nil, HashMap.get_insert] at h
    split_ifs at h with haddr
    · obtain rfl := Option.some.inj h
      exact ⟨List.mem_append_right _ (List.mem_singleton_self _), haddr.symm⟩
    · obtain ⟨hmem, heq⟩ := ih h
      exact ⟨List.mem_append_left _ hmem, heq⟩

end Carries

end WayRay
