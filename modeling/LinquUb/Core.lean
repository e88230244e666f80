import Mathlib.Data.Vector.Basic

/-!
# Core types of the simulator

The shared vocabulary of the crates under `simulator/crates`: identifiers, task keys, I/O
requests, completion events, trace events and errors, as `sim-core` declares them.

Fixed-width identifiers and times that are stored, compared or encoded are `UInt32` and `UInt64`.
The handles that the surface hands out from its own counters (`CqHandle`, `CmdQueueHandle`) count in
`ℕ`: their `u32` counters only ever grow by one with each registration, and a build that checks for
overflow stops at the `2^32`-th.
-/

namespace LinquUb

abbrev SimTimestamp := UInt64
abbrev NodeId := UInt64
abbrev EntityId := UInt32
abbrev TaskId := UInt64
abbrev OpId := UInt64

/-- The time that the runtime queue reads as a request to flush everything (`u64::MAX`). -/
def u64Max : UInt64 := 0xFFFFFFFFFFFFFFFF

/-- `u64::saturating_add`. -/
def saturatingAdd (a b : UInt64) : UInt64 :=
  if a.toNat + b.toNat < 2 ^ 64 then a + b else u64Max

/-- `u64` addition as the debug profile computes it: `none` is the overflow panic. -/
def checkedAdd (a b : UInt64) : Option UInt64 :=
  if a.toNat + b.toNat < 2 ^ 64 then some (a + b) else none

theorem le_u64Max (a : UInt64) : a ≤ u64Max := by
  rw [UInt64.le_iff_toNat_le]
  have := a.toNat_lt
  simp only [u64Max, UInt64.toNat_ofNat]
  omega

structure LogicalSystemId where
  id : UInt32
deriving DecidableEq, Repr

/-- Placement levels of the hierarchy. -/
inductive PlLevel
  | l0 | l1 | l2 | l3 | l4 | l5 | l6 | l7
deriving DecidableEq, Repr

structure HierarchyCoord where
  levels : List.Vector UInt32 8
deriving DecidableEq

/-- The identity of a task: its logical system, its coordinate in the hierarchy and its id. -/
structure TaskKey where
  logicalSystem : LogicalSystemId
  coord : HierarchyCoord
  scopeDepth : UInt32
  taskId : TaskId
deriving DecidableEq

structure BlockHash where
  hash : String
deriving DecidableEq, Repr

structure FunctionLabel where
  name : String
  level : PlLevel
deriving DecidableEq, Repr

structure ServiceOpHandle where
  id : OpId
deriving DecidableEq, Repr

structure DispatchHandle where
  id : OpId
deriving DecidableEq, Repr

structure TransferHandle where
  id : OpId
deriving DecidableEq, Repr

structure SegmentHandle where
  id : UInt64
deriving DecidableEq, Repr

structure CqHandle where
  id : ℕ
deriving DecidableEq, Repr

structure CmdQueueHandle where
  id : ℕ
deriving DecidableEq, Repr

inductive HealthStatus
  | healthy | degraded | failed
deriving DecidableEq, Repr

inductive CopyDirection
  | hostToDevice | deviceToHost
deriving DecidableEq, Repr

inductive DispatchBackendProfile
  | hostVector | tmrbVector | hostMatmul
deriving DecidableEq, Repr

inductive DispatchRuntimeVariant
  | hostBuildGraph | tensormapAndRingbuffer
deriving DecidableEq, Repr

structure DispatchBackendSpec where
  profile : DispatchBackendProfile
  platform : String
  runtimeVariant : DispatchRuntimeVariant
  callableHint : Option String
deriving DecidableEq, Repr

structure DispatchRequest where
  task : TaskKey
  function : FunctionLabel
  backendSpec : Option DispatchBackendSpec
  targetLevel : PlLevel
  targetNode : NodeId
  inputSegments : List SegmentHandle
deriving DecidableEq

/-- A copy request; the engine reads only its task and its direction. -/
structure CopyRequest where
  task : TaskKey
  direction : CopyDirection
deriving DecidableEq

inductive IoOpcode
  | readBlock | writeBlock | dispatch | remoteFetch | remoteStore
deriving DecidableEq, Repr

/-- A guest I/O submission. -/
structure IoSubmitReq where
  opId : OpId
  task : Option TaskKey
  entity : EntityId
  opcode : IoOpcode
  segment : Option SegmentHandle
  block : Option BlockHash
deriving DecidableEq

inductive CompletionSource
  | chipBackend | blockService | shmemService | dfsService | dbService | guestUapi | remoteNode
deriving DecidableEq, Repr

inductive CompletionStatus
  | success
  | retryableFailure (code : String)
  | fatalFailure (code : String)
deriving DecidableEq, Repr

/-- The outcome of one operation. -/
structure CompletionEvent where
  opId : OpId
  task : Option TaskKey
  source : CompletionSource
  status : CompletionStatus
  finishedAt : SimTimestamp
deriving DecidableEq

/-- The trace events that the runtime engine emits. -/
inductive SimEvent
  | dispatchSubmitted (at_ : SimTimestamp) (req : DispatchRequest)
  | completionObserved (at_ : SimTimestamp) (completion : CompletionEvent)
  | runtimeRetried (at_ : SimTimestamp) (opId : OpId) (reason : String) (attempt : ℕ)
  | runtimeFailed (at_ : SimTimestamp) (opId : OpId) (reason : String)
deriving DecidableEq

/-- The errors of the simulator, with the texts the source gives them. -/
inductive SimError
  | notImplemented
  | notFound (what : String)
  | invalidInput (what : String)
deriving DecidableEq, Repr

end LinquUb
