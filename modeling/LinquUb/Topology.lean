import LinquUb.Core

/-!
# Topology

The objects of a simulated topology as `sim-topology` declares them, and the snapshot of their
counts that a guest may query.
-/

namespace LinquUb

inductive DecoderKind
  | plToNode | eidToEntity | segmentToDomain
deriving DecidableEq, Repr

inductive RouteScope
  | ubLocal | hostLocal | domainShared
deriving DecidableEq, Repr

structure RouteBinding where
  id : UInt32
  scope : RouteScope
  fromNode : NodeId
  toNode : NodeId
  level : PlLevel
deriving DecidableEq, Repr

structure SimHost where
  id : UInt32
  nodeId : NodeId
  health : HealthStatus
deriving DecidableEq, Repr

structure SimUbpu where
  id : UInt32
  nodeId : NodeId
  hostId : UInt32
  health : HealthStatus
deriving DecidableEq, Repr

structure SimUbc where
  id : UInt32
  nodeId : NodeId
  ubpuId : UInt32
  hostId : UInt32
  health : HealthStatus
deriving DecidableEq, Repr

structure SimUmmu where
  id : UInt32
  nodeId : NodeId
  ubcId : UInt32
  domainId : UInt32
  health : HealthStatus
deriving DecidableEq, Repr

structure SimEntity where
  id : EntityId
  eid : UInt32
  ubpuId : UInt32
  ubcId : UInt32
  health : HealthStatus
deriving DecidableEq, Repr

structure SimDecoder where
  id : UInt32
  nodeId : NodeId
  ubcId : UInt32
  kind : DecoderKind
  health : HealthStatus
deriving DecidableEq, Repr

structure SimDomain where
  id : UInt32
  nodeId : NodeId
  label : String
  hosts : List UInt32
  health : HealthStatus
deriving DecidableEq, Repr

structure SimRoute where
  binding : RouteBinding
  domainId : UInt32
  health : HealthStatus
deriving DecidableEq, Repr

structure SimTopology where
  hosts : List SimHost
  ubpus : List SimUbpu
  ubcs : List SimUbc
  ummus : List SimUmmu
  entities : List SimEntity
  decoders : List SimDecoder
  domains : List SimDomain
  routes : List SimRoute
deriving DecidableEq, Repr

/-- The object counts of a topology. -/
structure TopologySnapshot where
  hosts : ℕ
  ubpus : ℕ
  ubcs : ℕ
  ummus : ℕ
  entities : ℕ
  decoders : ℕ
  domains : ℕ
  routes : ℕ
deriving DecidableEq, Repr

def SimTopology.snapshot (self : SimTopology) : TopologySnapshot :=
  { hosts := self.hosts.length
    ubpus := self.ubpus.length
    ubcs := self.ubcs.length
    ummus := self.ummus.length
    entities := self.entities.length
    decoders := self.decoders.length
    domains := self.domains.length
    routes := self.routes.length }

end LinquUb
