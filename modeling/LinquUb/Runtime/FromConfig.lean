import LinquUb.Config
import LinquUb.Runtime.Engine
import LinquUb.Topology

/-!
# Configured parts of the runtime

What `sim-runtime` builds from a scenario configuration besides the block store: the engine and the
route planner.

`SimConfig` is a scenario with the fields that these parts read and that no check looks at.
-/

namespace LinquUb

structure SimConfig extends ScenarioConfig where
  /-- `pypto.simpler_boundary.chip_backend_mode` -/
  chipBackendMode : String
  /-- `pypto.simpler_boundary.dispatch_latency_us` -/
  dispatchLatencyUs : Option SimTimestamp
  /-- `levels.l3_host_tier.fetch_latency_us` -/
  l3FetchLatencyUs : Option SimTimestamp
  /-- `levels.l4_domain_tier.fetch_latency_us` -/
  l4FetchLatencyUs : Option SimTimestamp
  /-- `routing` -/
  hitWeight : F64
  loadWeight : F64
  capacityWeight : F64
deriving DecidableEq

/-- `u32` multiplication as the debug profile computes it. -/
def checkedMul32 (a b : UInt32) : Option UInt32 :=
  if a.toNat * b.toNat < 2 ^ 32 then some (a * b) else none

namespace LocalRuntimeEngine

/-- `none` is the overflow panic of the product. -/
def fromConfig (config : SimConfig) : Option LocalRuntimeEngine := do
  let units ← checkedMul32 config.topology.hosts config.topology.ubpusPerHost
  let engine := withPolicy (config.dispatchLatencyUs.getD 1) (config.l3FetchLatencyUs.getD 1)
    (config.l4FetchLatencyUs.getD 80) units.toNat 1
  return { engine with
    backendMode :=
      if config.chipBackendMode = "simpler_process" then .simplerProcess else .localRuntime }

end LocalRuntimeEngine

/-! ### Routes -/

inductive RouteReason
  | localHit | capacityPreferred | healthPreferred | recursiveFallback | flatFallback
  | explicitReroute
deriving DecidableEq, Repr

structure RouteDecision where
  fromLevel : PlLevel
  toLevel : PlLevel
  selectedNode : NodeId
  reason : RouteReason
deriving DecidableEq, Repr

/-- The planner reads only the level of a request. -/
structure RouteRequest where
  task : TaskKey
  currentLevel : PlLevel
  block : BlockHash
deriving DecidableEq

structure RecursiveRoutePlanner where
  hitWeight : F64
  loadWeight : F64
  capacityWeight : F64
deriving DecidableEq

namespace RecursiveRoutePlanner

def fromConfig (config : SimConfig) : RecursiveRoutePlanner :=
  { hitWeight := config.hitWeight
    loadWeight := config.loadWeight
    capacityWeight := config.capacityWeight }

def chooseReason (self : RecursiveRoutePlanner) (level : PlLevel) : RouteReason :=
  if level = .l2 ∧ self.capacityWeight.le self.hitWeight then .localHit
  else if level = .l3 ∧ self.loadWeight.le self.capacityWeight then .capacityPreferred
  else if level = .l4 ∧ self.loadWeight.gt self.capacityWeight then .healthPreferred
  else .recursiveFallback

/-- The first healthy object of the request's level. -/
def plan (self : RecursiveRoutePlanner) (req : RouteRequest) (topo : SimTopology) :
    Except SimError RouteDecision :=
  let selected := match req.currentLevel with
    | .l2 => (topo.ubpus.find? fun ubpu => ubpu.health == .healthy).map fun ubpu =>
        (PlLevel.l2, ubpu.nodeId, self.chooseReason .l2)
    | .l3 => (topo.hosts.find? fun host => host.health == .healthy).map fun host =>
        (PlLevel.l3, host.nodeId, self.chooseReason .l3)
    | _ => (topo.domains.find? fun domain => domain.health == .healthy).map fun domain =>
        (PlLevel.l4, domain.nodeId, self.chooseReason .l4)
  match selected with
  | some (toLevel, selectedNode, reason) =>
    .ok { fromLevel := req.currentLevel, toLevel, selectedNode, reason }
  | none => .error .notImplemented

end RecursiveRoutePlanner

end LinquUb
