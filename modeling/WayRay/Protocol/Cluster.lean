/-!
# Cluster configuration

The static view a server has of its cluster: the lookups of `ClusterConfig` over its list of
servers.
-/

namespace WayRay

/-- A single server entry in the cluster. -/
structure ServerEntry where
  id : String
  addr : String
  /-- Relative placement weight for load balancing. -/
  weight : Nat
  /-- Expected certificate fingerprint; empty for trust on first use. -/
  fingerprint : String
deriving DecidableEq

/-- Static, config-driven view of the cluster. -/
structure ClusterConfig where
  /-- This server's own id; empty for a standalone server. -/
  localId : String
  /-- Shared secret of the peer probes; empty disables them. -/
  clusterSecret : String
  servers : List ServerEntry
deriving DecidableEq

namespace ClusterConfig

/-- Look up a server entry by its id. -/
def server (c : ClusterConfig) (id : String) : Option ServerEntry :=
  c.servers.find? fun s => s.id = id

/-- Resolve a server id to its address. -/
def addrOf (c : ClusterConfig) (id : String) : Option String := (c.server id).map (·.addr)

/-- Peers other than the local server. -/
def peers (c : ClusterConfig) : List ServerEntry := c.servers.filter fun s => s.id ≠ c.localId

/-- Whether this config describes a real cluster. -/
def isClustered (c : ClusterConfig) : Bool := c.servers.any fun s => s.id ≠ c.localId

/-- Otherwise there are no peers. -/
theorem peers_eq_nil {c : ClusterConfig} (h : c.isClustered = false) : c.peers = [] := by
  refine List.filter_eq_nil_iff.mpr fun entry hentry => ?_
  simpa using List.any_eq_false.mp h entry hentry

end ClusterConfig

end WayRay
