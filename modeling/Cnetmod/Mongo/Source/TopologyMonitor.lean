import Cnetmod.Coding.SortedMap

/-!
# The MongoDB topology monitor

`mongodb_topology_monitor.cpp`. Addresses are any ordered type, an election id is the
number its twelve bytes spell, and `std::map` iterates in the order of its keys.
-/
namespace Cnetmod.Mongo

inductive ServerKind where
  | unknown | standalone | mongos | replicaPrimary | replicaSecondary | replicaArbiter | replicaOther | loadBalancer
deriving DecidableEq

structure ServerDescription (α : Type) where
  address : α
  kind : ServerKind := .unknown
  replicaSetName : String := ""
  hosts : List α := []
  roundTripTime : Option Nat := none
  electionId : Option Nat := none
  setVersion : Option Int := none
  lastError : Option String := none

variable {α : Type} [LinearOrder α]

namespace ServerDescription

def fail (server : ServerDescription α) (reason : String) : ServerDescription α :=
  { server with kind := .unknown, lastError := some reason }

/-- `older_set_version || older_election` of `update`. -/
def olderThan (description existing : ServerDescription α) : Bool :=
  match description.setVersion, existing.setVersion with
  | some version, some known =>
    decide (version < known) || version == known &&
      match description.electionId, existing.electionId with
      | some election, some known => decide (election < known)
      | _, _ => false
  | _, _ => false

/-- The servers the loop of `update` does not pass over. -/
def rivals (description existing : ServerDescription α) : Bool :=
  existing.kind == .replicaPrimary && existing.address != description.address

end ServerDescription

structure TopologyMonitor (α : Type) [LinearOrder α] where
  requiredReplicaSet : Option String := none
  servers : Coding.SortedMap α (ServerDescription α) := .empty

namespace TopologyMonitor

open Coding

/-- The loop over the recorded primaries: the description it leaves and the records. -/
def supersede (description : ServerDescription α) :
    List (α × ServerDescription α) → ServerDescription α × List (α × ServerDescription α)
  | [] => (description, [])
  | (key, existing) :: rest =>
    if description.rivals existing then
      if description.olderThan existing then
        (description.fail "stale MongoDB replica set primary description", (key, existing) :: rest)
      else
        let (description, rest) := supersede description rest
        (description, (key, existing.fail "MongoDB replica set reported a newer primary") :: rest)
    else
      let (description, rest) := supersede description rest
      (description, (key, existing) :: rest)

lemma keys_supersede (description : ServerDescription α) (rs : List (α × ServerDescription α)) :
    (supersede description rs).2.map (·.1) = rs.map (·.1) := by
  fun_induction supersede description rs <;> simp_all

def superseded (servers : SortedMap α (ServerDescription α)) (description : ServerDescription α) :
    ServerDescription α × SortedMap α (ServerDescription α) :=
  let left := supersede description servers.records
  (left.1, ⟨left.2, List.pairwise_map.mp (keys_supersede description servers.records ▸ List.pairwise_map.mpr servers.sorted)⟩)

/-- A description of another replica set is one of an unknown server. -/
def ofRequired (m : TopologyMonitor α) (description : ServerDescription α) : ServerDescription α :=
  if m.requiredReplicaSet.any (· != description.replicaSetName) && description.replicaSetName != "" then
    description.fail "MongoDB replica set name does not match configuration"
  else description

def update (m : TopologyMonitor α) (description : ServerDescription α) : TopologyMonitor α :=
  let description := m.ofRequired description
  let (description, servers) :=
    if description.kind = .replicaPrimary then superseded m.servers description else (description, m.servers)
  let servers := description.hosts.foldl (fun servers host => servers.tryEmplace host { address := host }) servers
  { m with servers := servers.put description.address description }

def retainServers (m : TopologyMonitor α) (addresses : List α) : TopologyMonitor α :=
  { m with servers := ⟨m.servers.records.filter (·.1 ∈ addresses), m.servers.sorted.filter _⟩ }

def markUnknown (m : TopologyMonitor α) (address : α) (reason : String) : TopologyMonitor α :=
  let server := (m.servers.get address).getD { address }
  { m with servers := m.servers.put address ({ server with address }.fail reason) }

/-- `std::chrono::milliseconds::max()`. -/
def maxMilliseconds : Nat := 2 ^ 63 - 1

/-- Routers and standalone servers choose themselves; without them it is the primary. -/
def candidates (m : TopologyMonitor α) : List (ServerDescription α) :=
  let servers := m.servers.records.map (·.2)
  let routers := servers.filter fun server =>
    server.kind = .mongos || server.kind = .loadBalancer || server.kind = .standalone
  if routers.isEmpty then (servers.find? (·.kind = .replicaPrimary)).toList else routers

/-- `select_server` for the primary read preference, which writes use. The servers within
the latency window are taken in turn. -/
def selectServer (m : TopologyMonitor α) (localThreshold maximumStaleness : Int) (tagSets : List (List (String × String)))
    (roundRobin : Nat) : Except String (ServerDescription α) :=
  if localThreshold < 0 || maximumStaleness < -1 then .error "negative MongoDB selection threshold"
  else if tagSets.any (!·.isEmpty) || 0 < maximumStaleness then
    .error "primary read preference cannot specify tags or max staleness"
  else
    let time (server : ServerDescription α) := server.roundTripTime.getD maxMilliseconds
    let fastest := (m.candidates.map time).foldl min maxMilliseconds
    let limit := fastest + min localThreshold.toNat (maxMilliseconds - fastest)
    let near := m.candidates.filter (time · ≤ limit)
    (near[roundRobin % near.length]?).elim
      (.error "no MongoDB server satisfies read preference, tags, and staleness constraints") .ok

end TopologyMonitor

end Cnetmod.Mongo
