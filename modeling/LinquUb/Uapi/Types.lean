import LinquUb.Services.Stubs
import LinquUb.Topology

/-!
# Types of the guest surface

Descriptors, commands, responses and the containers of `sim-uapi`.

The history of a run is carried along as data that no function reads: every descriptor travels as a
`Submission`, that is with the ticket it was given on entry and the command queue it came through,
and the surface keeps a `History` of what happened to submissions.
-/

namespace LinquUb

/-- The requests that a guest can describe. -/
inductive UapiDescriptor
  | io (req : IoSubmitReq)
  | blockWriteback (block : BlockHash) (task : Option TaskKey)
  | shmemPut (req : ShmemPutReq)
  | shmemGet (req : ShmemGetReq)
  | dfsRead (req : DfsReadReq)
  | dfsWrite (req : DfsWriteReq)
  | dbPut (req : DbPutReq)
  | dbGet (req : DbGetReq)
deriving DecidableEq

inductive UapiCommand
  | queryTopology
  | createSegment (bytes : UInt64)
  | registerCq (owner : EntityId)
  | createCmdQueue (cq : CqHandle) (owner : EntityId) (depth : ℕ)
  | enqueueCmd (cmdq : CmdQueueHandle) (owner : EntityId) (desc : UapiDescriptor)
  | ringDoorbell (cmdq : CmdQueueHandle) (owner : EntityId) (maxBatch : Option ℕ)
  | submitIo (req : IoSubmitReq)
  | submitBlockWriteback (block : BlockHash) (task : Option TaskKey)
  | submitShmemPut (req : ShmemPutReq)
  | submitShmemGet (req : ShmemGetReq)
  | submitDfsRead (req : DfsReadReq)
  | submitDfsWrite (req : DfsWriteReq)
  | submitDbPut (req : DbPutReq)
  | submitDbGet (req : DbGetReq)
  | pollCq (cq : CqHandle) (owner : EntityId) (maxEntries : Option ℕ)
  | drainCq (cq : CqHandle) (owner : EntityId)
  | getHealth (entity : EntityId)
deriving DecidableEq

inductive UapiResponse
  | topologySnapshot (snapshot : TopologySnapshot)
  | segmentCreated (segment : SegmentHandle)
  | cqRegistered (cq : CqHandle)
  | cmdQueueCreated (cmdq : CmdQueueHandle)
  | ioSubmitted (opId : OpId)
  | commandEnqueued (depth remainingCapacity : ℕ)
  | doorbellRung (submitted pending : ℕ)
  | completions (events : List CompletionEvent) (remaining : ℕ)
  | healthStatus (health : HealthStatus)
deriving DecidableEq

/-- A descriptor on its way through the surface.  Ticket and queue are history. -/
structure Submission where
  desc : UapiDescriptor
  /-- Submissions are numbered in the order in which they enter. -/
  ticket : ℕ
  /-- The command queue it was enqueued on, if any. -/
  queue : Option CmdQueueHandle
deriving DecidableEq

structure CompletionQueueState where
  owner : EntityId
  events : List (Owned Submission)

structure CommandQueueState where
  cq : CqHandle
  owner : EntityId
  depth : ℕ
  pending : List Submission
deriving DecidableEq

structure UapiRuntimePayload where
  cq : CqHandle
  sub : Submission
deriving DecidableEq

/-- A record of the runtime queue of the surface. -/
abbrev UapiRecord := RuntimeQueueRecord (RuntimeWorkItem UapiRuntimePayload)

structure UapiRuntimeFailure where
  cq : CqHandle
  code : String
  sub : Submission
deriving DecidableEq

def runtimeKindForDescriptor : UapiDescriptor → RuntimeWorkKind
  | .io _ => .guestIo
  | .blockWriteback _ _ => .blockWriteback
  | .shmemPut _ => .shmemPut
  | .shmemGet _ => .shmemGet
  | .dfsRead _ => .dfsRead
  | .dfsWrite _ => .dfsWrite
  | .dbPut _ => .dbPut
  | .dbGet _ => .dbGet

def runtimeTaskForDescriptor : UapiDescriptor → Option TaskKey
  | .io req => req.task
  | .blockWriteback _ task => task
  | .shmemPut req => req.task
  | .shmemGet req => req.task
  | .dfsRead req => req.task
  | .dfsWrite req => req.task
  | .dbPut req => req.task
  | .dbGet req => req.task

/-! ### History -/

/-- A call of `bind_completion_route`, with the route that it overwrites. -/
structure Binding where
  key : RuntimeCompletionKey
  cq : CqHandle
  overwritten : Option CqHandle
deriving DecidableEq

/-- A call of `route_completion_to_cq`, with the route that it finds. -/
structure Routing where
  entry : Owned Submission
  bound : Option CqHandle

/-- A completion handed out by a poll of `cq` that was issued with `owner`. -/
structure Return where
  cq : CqHandle
  owner : EntityId
  entry : Owned Submission

/-- What happened so far; each list is in the order of events. -/
structure History where
  /-- Submissions for which an enqueue command returned `Ok`. -/
  accepted : List Submission
  /-- Completions queued by a service: the moments at which submissions take effect. -/
  effects : List (Owned Submission)
  /-- Submissions that found the queue of their service full during a drive. -/
  refused : List Submission
  bindings : List Binding
  routings : List Routing
  /-- Completions pushed onto a completion queue. -/
  pushes : List (CqHandle × Owned Submission)
  returns : List Return

def History.empty : History := ⟨[], [], [], [], [], [], []⟩

end LinquUb
