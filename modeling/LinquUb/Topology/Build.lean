import LinquUb.Config
import LinquUb.Topology
import Mathlib.Algebra.Order.Ring.Nat
import Mathlib.Data.List.Nodup

/-!
# Building a topology

`SimTopology::from_config`: nested loops create the objects, with counters for their ids, and wire
them by computed indices.

* Sums and products wrap around, as in a release build; the capacities of the vectors are left out.
* An index that is out of range stops the construction (`BuildError.outOfRange`).
-/

namespace LinquUb

inductive BuildError
  | config (error : ConfigError)
  | outOfRange
deriving DecidableEq

/-- The local variables of `from_config`. -/
structure Build where
  nextNodeId : NodeId
  hosts : List SimHost
  ubpus : List SimUbpu
  ubcs : List SimUbc
  ummus : List SimUmmu
  entities : List SimEntity
  decoders : List SimDecoder
  domains : List SimDomain
  routes : List SimRoute
  nextUbpuId : UInt32
  nextUbcId : UInt32
  nextUmmuId : UInt32
  nextEntityId : EntityId
  nextEid : UInt32
  nextDecoderId : UInt32
  nextRouteId : UInt32

namespace Build

def start : Build :=
  { nextNodeId := 1
    hosts := [], ubpus := [], ubcs := [], ummus := [], entities := [], decoders := [], domains := []
    routes := []
    nextUbpuId := 0, nextUbcId := 0, nextUmmuId := 0, nextEntityId := 0, nextEid := 1
    nextDecoderId := 0, nextRouteId := 0 }

variable (b : Build)

def pushHost (hostIdx : UInt32) : Build :=
  { b with
    hosts := b.hosts ++ [⟨hostIdx, b.nextNodeId, .healthy⟩]
    nextNodeId := b.nextNodeId + 1 }

def pushEntity (ubpuId ubcId : UInt32) : Build :=
  { b with
    entities := b.entities ++ [⟨b.nextEntityId, b.nextEid, ubpuId, ubcId, .healthy⟩]
    nextEntityId := b.nextEntityId + 1
    nextEid := b.nextEid + 1 }

/-- A UB processing unit, its controller and the two decoders of the controller. -/
def pushUnit (hostIdx : UInt32) : Build :=
  { b with
    ubpus := b.ubpus ++ [⟨b.nextUbpuId, b.nextNodeId, hostIdx, .healthy⟩]
    ubcs := b.ubcs ++ [⟨b.nextUbcId, b.nextNodeId + 1, b.nextUbpuId, hostIdx, .healthy⟩]
    decoders := b.decoders ++
      [⟨b.nextDecoderId, b.nextNodeId + 1 + 1, b.nextUbcId, .plToNode, .healthy⟩,
        ⟨b.nextDecoderId + 1, b.nextNodeId + 1 + 1 + 1, b.nextUbcId, .eidToEntity, .healthy⟩]
    nextNodeId := b.nextNodeId + 1 + 1 + 1 + 1
    nextUbpuId := b.nextUbpuId + 1
    nextUbcId := b.nextUbcId + 1
    nextDecoderId := b.nextDecoderId + 1 + 1 }

/-- The body of the loop over the units of a host. -/
def addUbpu (entitiesPerUbpu : ℕ) (hostIdx : UInt32) : Build :=
  (fun b' => b'.pushEntity b.nextUbpuId b.nextUbcId)^[entitiesPerUbpu] (b.pushUnit hostIdx)

def pushDomain (domainId : UInt32) (domain : UbDomainConfig) : Build :=
  { b with
    domains := b.domains ++ [⟨domainId, b.nextNodeId, domain.id, domain.hosts, .healthy⟩]
    nextNodeId := b.nextNodeId + 1 }

def pushUmmu (ubcId domainId : UInt32) : Build :=
  { b with
    ummus := b.ummus ++ [⟨b.nextUmmuId, b.nextNodeId, ubcId, domainId, .healthy⟩]
    nextNodeId := b.nextNodeId + 1
    nextUmmuId := b.nextUmmuId + 1 }

def pushRoute (scope : RouteScope) (fromNode toNode : NodeId) (level : PlLevel)
    (domainId : UInt32) : Build :=
  { b with
    routes := b.routes ++ [⟨⟨b.nextRouteId, scope, fromNode, toNode, level⟩, domainId, .healthy⟩]
    nextRouteId := b.nextRouteId + 1 }

/-- `xs[i]`. -/
def index {α : Type} (xs : List α) (i : ℕ) : Except BuildError α :=
  match xs[i]? with
  | some x => .ok x
  | none => .error .outOfRange

/-- The body of the loop over the units of a domain's host: the route from the host to the domain
and the route within the unit. -/
def addRoutes (ubpusPerHost : UInt32) (domain : UbDomainConfig) (domainIdx : ℕ) (hostId : UInt32)
    (ubpuIndex : ℕ) : Except BuildError Build := do
  let ubpuId := hostId * ubpusPerHost + .ofNat ubpuIndex
  let ubcId := ubpuId
  let scope := if domain.hosts.length = 1 then .hostLocal else .domainShared
  let simDomain ← index b.domains domainIdx
  let b := b.pushRoute scope (hostId.toUInt64 + 1) simDomain.nodeId .l4 (.ofNat domainIdx)
  let ubpu ← index b.ubpus ubpuId.toNat
  let ubc ← index b.ubcs ubcId.toNat
  return b.pushRoute .ubLocal ubpu.nodeId ubc.nodeId .l2 (.ofNat domainIdx)

/-- The body of the loop over the domains. -/
def addDomain (ubpusPerHost : UInt32) (domain : UbDomainConfig) (domainIdx : ℕ) :
    Except BuildError Build := do
  let b := b.pushDomain (.ofNat domainIdx) domain
  let firstHost ← index domain.hosts 0
  let b := b.pushUmmu (firstHost * ubpusPerHost) (.ofNat domainIdx)
  domain.hosts.foldlM (fun b hostId => (List.range ubpusPerHost.toNat).foldlM
    (fun b ubpuIndex => b.addRoutes ubpusPerHost domain domainIdx hostId ubpuIndex) b) b

/-- The loop over the domains, from the index on. -/
def addDomains (ubpusPerHost : UInt32) : List UbDomainConfig → ℕ → Build → Except BuildError Build
  | [], _, b => .ok b
  | domain :: rest, domainIdx, b => do
    addDomains ubpusPerHost rest (domainIdx + 1) (← b.addDomain ubpusPerHost domain domainIdx)

/-- The two loops over the hosts. -/
def units (topology : TopologyConfig) : Build :=
  let hosts := (List.range topology.hosts.toNat).foldl (fun b host => b.pushHost (.ofNat host)) start
  (List.range topology.hosts.toNat).foldl (fun b host =>
    (fun b : Build => b.addUbpu topology.entitiesPerUbpu.toNat (.ofNat host))^[
      topology.ubpusPerHost.toNat] b) hosts

def toTopology : SimTopology :=
  { hosts := b.hosts, ubpus := b.ubpus, ubcs := b.ubcs, ummus := b.ummus, entities := b.entities
    decoders := b.decoders, domains := b.domains, routes := b.routes }

end Build

def SimTopology.fromConfig (config : ScenarioConfig) : Except BuildError SimTopology := do
  match config.validate with
  | .error err => throw (.config err)
  | .ok () =>
    let b ← (Build.units config.topology).addDomains config.topology.ubpusPerHost
      config.topology.ubDomains 0
    return b.toTopology

/-! ### Well-formed topologies -/

namespace SimTopology

/-- The node ids of all objects. -/
def nodeIds (t : SimTopology) : List NodeId :=
  t.hosts.map (·.nodeId) ++ t.ubpus.map (·.nodeId) ++ t.ubcs.map (·.nodeId) ++
    t.decoders.map (·.nodeId) ++ t.domains.map (·.nodeId) ++ t.ummus.map (·.nodeId)

/-- The id of every object is its position in its list. -/
def Numbered {α : Type} (xs : List α) (id : α → UInt32) : Prop :=
  ∀ i x, xs[i]? = some x → (id x).toNat = i

/-- A route within a unit joins the unit to its own controller, on a host of the route's domain. -/
def JoinsUnit (t : SimTopology) (route : SimRoute) : Prop :=
  ∃ ubpu ∈ t.ubpus, ∃ ubc ∈ t.ubcs, ∃ domain ∈ t.domains,
    route.binding.fromNode = ubpu.nodeId ∧ route.binding.toNode = ubc.nodeId ∧
      ubc.ubpuId = ubpu.id ∧ ubc.hostId = ubpu.hostId ∧ domain.id = route.domainId ∧
      ubpu.hostId ∈ domain.hosts

/-- A route to a domain joins a host of the domain to the domain's node. -/
def JoinsDomain (t : SimTopology) (route : SimRoute) : Prop :=
  ∃ host ∈ t.hosts, ∃ domain ∈ t.domains,
    route.binding.fromNode = host.nodeId ∧ route.binding.toNode = domain.nodeId ∧
      domain.id = route.domainId ∧ host.id ∈ domain.hosts

/-- The route joins what its scope and its level say. -/
structure Wired (t : SimTopology) (route : SimRoute) : Prop where
  unit : route.binding.scope = .ubLocal → t.JoinsUnit route
  domain : route.binding.level = .l4 → t.JoinsDomain route

/-- The controller of a domain's memory unit is on the first host of the domain. -/
def Attached (t : SimTopology) (ummu : SimUmmu) : Prop :=
  ∃ domain ∈ t.domains, ∃ ubc ∈ t.ubcs, domain.id = ummu.domainId ∧ ubc.id = ummu.ubcId ∧
    domain.hosts.head? = some ubc.hostId

structure WellFormed (t : SimTopology) : Prop where
  nodeIds : t.nodeIds.Nodup
  hosts : Numbered t.hosts (·.id)
  ubpus : Numbered t.ubpus (·.id)
  ubcs : Numbered t.ubcs (·.id)
  ummus : Numbered t.ummus (·.id)
  entities : Numbered t.entities (·.id)
  decoders : Numbered t.decoders (·.id)
  domains : Numbered t.domains (·.id)
  routeIds : Numbered t.routes (·.binding.id)
  routes : ∀ route ∈ t.routes, t.Wired route
  attached : ∀ ummu ∈ t.ummus, t.Attached ummu

end SimTopology

namespace TopologyConfig

/-- The number of routes: two for each unit of each host of a domain. -/
def routeCount (self : TopologyConfig) (domains : List UbDomainConfig) : ℕ :=
  (domains.map fun domain => 2 * self.ubpusPerHost.toNat * domain.hosts.length).sum

theorem routeCount_cons (self : TopologyConfig) (domain : UbDomainConfig)
    (rest : List UbDomainConfig) : self.routeCount (domain :: rest) =
      2 * self.ubpusPerHost.toNat * domain.hosts.length + self.routeCount rest := by
  rw [routeCount, List.map_cons, List.sum_cons]
  rfl

/-- All object counts are below `2^31`. -/
structure Small (topology : TopologyConfig) : Prop where
  hosts : topology.hosts.toNat < 2 ^ 31
  decoders : 2 * (topology.hosts.toNat * topology.ubpusPerHost.toNat) < 2 ^ 31
  entities : topology.hosts.toNat * topology.ubpusPerHost.toNat * topology.entitiesPerUbpu.toNat < 2 ^ 31
  routes : topology.routeCount topology.ubDomains < 2 ^ 31

end TopologyConfig

/-- The topology has all the objects that the configuration asks for. -/
structure SimTopology.Complete (t : SimTopology) (topology : TopologyConfig) : Prop where
  hosts : t.hosts.length = topology.hosts.toNat
  ubpus : t.ubpus.length = topology.hosts.toNat * topology.ubpusPerHost.toNat
  ubcs : t.ubcs.length = topology.hosts.toNat * topology.ubpusPerHost.toNat
  decoders : t.decoders.length = 2 * (topology.hosts.toNat * topology.ubpusPerHost.toNat)
  entities : t.entities.length =
    topology.hosts.toNat * topology.ubpusPerHost.toNat * topology.entitiesPerUbpu.toNat
  domains : t.domains.length = topology.ubDomains.length
  ummus : t.ummus.length = topology.ubDomains.length
  routes : t.routes.length = topology.routeCount topology.ubDomains

end LinquUb
