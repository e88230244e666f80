import LinquUb.Uapi.Types
import LinquUb.LTS.Action

/-!
# The guest surface

`LocalGuestUapiSurface` of `sim-uapi`: command queues, the shared runtime queue, the four services,
the routes of their completions and the completion queues, and `execute`, the only entry point of
guests.

* Methods are `Action`s, so the changes made before an error stay.
* `CompletionQueue` handles are looked up in hash maps; `HashOrder` is the iteration order of
  `cq_events`, of which `default_cq` takes the first key.
* The counters of queue handles (`u32` in the source) do not wrap around: the runs are those of a
  build with overflow checks, which stops when a counter is exhausted.
* The recursion of `flush_runtime` is bounded by fuel, one level for every retry that a record can
  get and one more; `Uapi/Flush.lean` proves that this is enough.
-/

namespace LinquUb

open Action

/-- The first key of a hash map of completion queues, which may be any of its keys. -/
structure HashOrder where
  first : Finset CqHandle → Option CqHandle
  first_mem : ∀ keys cq, first keys = some cq → cq ∈ keys
  first_isSome : ∀ keys : Finset CqHandle, keys.Nonempty → (first keys).isSome

structure LocalGuestUapiSurface where
  topology : SimTopology
  blockService : BlockServiceStub Submission
  shmemService : ShmemServiceStub Submission
  dfsService : DfsServiceStub Submission
  dbService : DbServiceStub Submission
  nextSegmentId : UInt64
  nextCqId : ℕ
  nextCmdqId : ℕ
  serviceClock : UInt64
  runtimeIssueLatencyUs : UInt64
  runtimeRetryDelayUs : UInt64
  runtimeQueueDepth : ℕ
  runtimeMaxRetries : ℕ
  cqEvents : Finmap fun _ : CqHandle => CompletionQueueState
  cmdQueues : Finmap fun _ : CmdQueueHandle => CommandQueueState
  runtimeQueue : SharedRuntimeExecutor (RuntimeWorkItem UapiRuntimePayload)
  completionRoutes : RuntimeCompletionTracker CqHandle
  hashOrder : HashOrder
  /-- The next ticket. -/
  tickets : ℕ
  history : History

namespace LocalGuestUapiSurface

def withServiceProfiles (topology : SimTopology) (hashOrder : HashOrder)
    (blockProfile : BlockServiceProfile) (shmemProfile : ShmemServiceProfile)
    (dfsProfile : DfsServiceProfile) (dbProfile : DbServiceProfile) : LocalGuestUapiSurface :=
  { topology
    blockService := .withProfile blockProfile
    shmemService := .new shmemProfile
    dfsService := .new dfsProfile
    dbService := .new dbProfile
    nextSegmentId := 0
    nextCqId := 0
    nextCmdqId := 0
    serviceClock := 0
    runtimeIssueLatencyUs := 4
    runtimeRetryDelayUs := 5
    runtimeQueueDepth := 32
    runtimeMaxRetries := 1
    cqEvents := ∅
    cmdQueues := ∅
    runtimeQueue := .withPolicy 4 5 32 1
    completionRoutes := .empty
    hashOrder
    tickets := 0
    history := .empty }

def withRuntimePolicy (self : LocalGuestUapiSurface)
    (runtimeIssueLatencyUs runtimeRetryDelayUs : UInt64) (runtimeQueueDepth runtimeMaxRetries : ℕ) :
    LocalGuestUapiSurface :=
  { self with
    runtimeIssueLatencyUs, runtimeRetryDelayUs, runtimeQueueDepth, runtimeMaxRetries
    runtimeQueue := .withPolicy runtimeIssueLatencyUs runtimeRetryDelayUs runtimeQueueDepth
      runtimeMaxRetries }

/-- Everything a surface is configured with. -/
structure Config where
  topology : SimTopology
  hashOrder : HashOrder
  blockProfile : BlockServiceProfile
  shmemProfile : ShmemServiceProfile
  dfsProfile : DfsServiceProfile
  dbProfile : DbServiceProfile
  runtimeIssueLatencyUs : UInt64
  runtimeRetryDelayUs : UInt64
  runtimeQueueDepth : ℕ
  runtimeMaxRetries : ℕ

def withProfilesAndRuntimePolicy (config : Config) : LocalGuestUapiSurface :=
  (withServiceProfiles config.topology config.hashOrder config.blockProfile config.shmemProfile
    config.dfsProfile config.dbProfile).withRuntimePolicy config.runtimeIssueLatencyUs
      config.runtimeRetryDelayUs config.runtimeQueueDepth config.runtimeMaxRetries

/-- The configuration of `LocalGuestUapiSurface::new`. -/
def Config.default (topology : SimTopology) (hashOrder : HashOrder) : Config :=
  { topology, hashOrder
    blockProfile := .default
    shmemProfile := .default
    dfsProfile := .default
    dbProfile := .default
    runtimeIssueLatencyUs := 4
    runtimeRetryDelayUs := 5
    runtimeQueueDepth := 32
    runtimeMaxRetries := 1 }

end LocalGuestUapiSurface

/-- A method of the surface. -/
abbrev Uapi (α : Type) := Action LocalGuestUapiSurface SimError α

namespace Uapi

/-- Record something in the history. -/
def note (f : History → History) : Uapi Unit := modify fun s => { s with history := f s.history }

def nextServiceTime : Uapi UInt64 := do
  let s ← get
  set { s with serviceClock := s.serviceClock + 1 }
  return s.serviceClock + 1

/-- Number a descriptor that enters. -/
def enter (desc : UapiDescriptor) (queue : Option CmdQueueHandle) : Uapi Submission := do
  let s ← get
  set { s with tickets := s.tickets + 1 }
  return { desc, ticket := s.tickets, queue }

def defaultCq : Uapi CqHandle := do
  let s ← get
  match s.hashOrder.first s.cqEvents.keys with
  | some cq => return cq
  | none => throw (.notFound "completion queue")

def enqueueToCq (cq : CqHandle) (entry : Owned Submission) : Uapi Unit := do
  let s ← get
  match s.cqEvents.lookup cq with
  | none => throw (.notFound "completion queue")
  | some queue =>
    set { s with
      cqEvents := Finmap.insert cq { queue with events := queue.events ++ [entry] } s.cqEvents
      history := { s.history with pushes := s.history.pushes ++ [(cq, entry)] } }

def bindCompletionRoute (source : CompletionSource) (opId : OpId) (cq : CqHandle) : Uapi Unit := do
  let s ← get
  let key : RuntimeCompletionKey := ⟨source, opId⟩
  set { s with
    completionRoutes := s.completionRoutes.issue source opId cq
    history := { s.history with bindings := s.history.bindings ++
      [Binding.mk key cq (s.completionRoutes.issued.lookup key)] } }

def routeCompletionToCq (entry : Owned Submission) : Uapi Unit := do
  let s ← get
  let (route, completionRoutes) := s.completionRoutes.complete entry.event
  set { s with
    completionRoutes
    history := { s.history with routings := s.history.routings ++ [Routing.mk entry route] } }
  -- a completion without a route goes to the default queue
  let cq ← match route with
    | some cq => pure cq
    | none => defaultCq
  enqueueToCq cq entry

/-! ### Services -/

/-- One of the four stubs, as a field of the surface. -/
structure ServiceField (stub : Type) where
  source : CompletionSource
  get : LocalGuestUapiSurface → stub
  set : LocalGuestUapiSurface → stub → LocalGuestUapiSurface
  /-- The shared part of the stub. -/
  queue : stub → ServiceQueue Submission

def blockField : ServiceField (BlockServiceStub Submission) :=
  ⟨.blockService, (·.blockService), fun s stub => { s with blockService := stub },
    (·.toServiceQueue)⟩

def shmemField : ServiceField (ShmemServiceStub Submission) :=
  ⟨.shmemService, (·.shmemService), fun s stub => { s with shmemService := stub },
    (·.toServiceQueue)⟩

def dfsField : ServiceField (DfsServiceStub Submission) :=
  ⟨.dfsService, (·.dfsService), fun s stub => { s with dfsService := stub }, (·.toServiceQueue)⟩

def dbField : ServiceField (DbServiceStub Submission) :=
  ⟨.dbService, (·.dbService), fun s stub => { s with dbService := stub }, (·.toServiceQueue)⟩

/-- Record the completion that a service has just queued. -/
def noteEffect (queue : ServiceQueue Submission) : Uapi Unit :=
  note fun h => { h with effects := h.effects ++ (queue.completions.getLast?.map (·.owned)).toList }

/-- The course of every arm that submits to a stub: take the time, call the stub's submit function
and bind the completion's route. -/
def submitToService {stub : Type} (field : ServiceField stub) (cq : CqHandle)
    (submit : UInt64 → stub → Except SimError (ServiceOpHandle × stub)) : Uapi OpId := do
  let now ← nextServiceTime
  let (handle, stub) ← ofExcept (submit now (field.get (← get)))
  modify fun s => field.set s stub
  noteEffect (field.queue stub)
  bindCompletionRoute field.source handle.id cq
  return handle.id

/-- Take the completions that `poll` hands out. -/
def pollService {stub : Type} (field : ServiceField stub)
    (poll : stub → List (Owned Submission) × stub) : Uapi (List (Owned Submission)) :=
  modifyGet fun s => ((poll (field.get s)).1, field.set s (poll (field.get s)).2)

/-- Route the completions that a service handed out; an error leaves the rest of them behind. -/
def routeAll (events : List (Owned Submission)) : Uapi Unit :=
  match events with
  | [] => pure ()
  | entry :: rest => do
    routeCompletionToCq entry
    routeAll rest

def flushServices (now : UInt64) : Uapi Unit := do
  routeAll (← pollService blockField (·.pollReady now))
  routeAll (← pollService shmemField (·.pollReady now))
  routeAll (← pollService dfsField (·.pollReady now))
  routeAll (← pollService dbField (·.pollReady now))

/-! ### Submitting to a service -/

def submitIoToCq (req : IoSubmitReq) (sub : Submission) (cq : CqHandle) : Uapi OpId := do
  match req.opcode with
  | .readBlock =>
    match req.block with
    | none => throw (.invalidInput "missing block hash")
    | some block =>
      submitToService blockField cq fun now stub => stub.submitRead ⟨req.task, block⟩ sub now
  | .writeBlock =>
    match req.block with
    | none => throw (.invalidInput "missing block hash")
    | some block =>
      submitToService blockField cq fun now stub => stub.submitWrite ⟨req.task, block⟩ sub now
  -- answered at once; `finished_at` is the id
  | .dispatch =>
    let event : CompletionEvent :=
      { opId := req.opId, task := req.task, source := .guestUapi, status := .success,
        finishedAt := req.opId }
    enqueueToCq cq ⟨event, sub⟩
    return req.opId
  -- there is no remote transport
  | .remoteFetch | .remoteStore =>
    let now ← nextServiceTime
    let event : CompletionEvent :=
      { opId := req.opId, task := req.task, source := .remoteNode,
        status := .retryableFailure "remote_transport_not_available", finishedAt := now }
    enqueueToCq cq ⟨event, sub⟩
    return req.opId

def submitDescriptorToCq (sub : Submission) (cq : CqHandle) : Uapi OpId := do
  match sub.desc with
  | .io req => submitIoToCq req sub cq
  | .blockWriteback block task =>
    submitToService blockField cq fun now stub => stub.submitWriteback block task sub now
  | .shmemPut req => submitToService shmemField cq fun now stub => stub.submitPut req sub now
  | .shmemGet req => submitToService shmemField cq fun now stub => stub.submitGet req sub now
  | .dfsRead req => submitToService dfsField cq fun now stub => stub.submitRead req sub now
  | .dfsWrite req => submitToService dfsField cq fun now stub => stub.submitWrite req sub now
  | .dbPut req => submitToService dbField cq fun now stub => stub.submitPut req sub now
  | .dbGet req => submitToService dbField cq fun now stub => stub.submitGet req sub now

/-! ### The runtime queue -/

def stageRuntimeDescriptor (cq : CqHandle) (sub : Submission) : Uapi Unit := do
  let now ← nextServiceTime
  let item : RuntimeWorkItem UapiRuntimePayload :=
    { opId := now
      kind := runtimeKindForDescriptor sub.desc
      task := runtimeTaskForDescriptor sub.desc
      payload := { cq, sub } }
  match (← get).runtimeQueue.enqueue item now with
  | .ok runtimeQueue => modify fun s => { s with runtimeQueue }
  -- renamed, so that a guest can tell which queue is full
  | .error (.invalidInput "runtime queue full") => throw (.invalidInput "uapi runtime queue full")
  | .error other => throw other

/-- The errors that say that a service queue is full. -/
def isQueueFull (code : String) : Bool :=
  code == "block queue full" || code == "shmem queue full" || code == "dfs queue full" ||
    code == "db queue full"

/-- What the callback of `flush_runtime` makes of the result of a submission. -/
def issueOutcome (now : UInt64) (cq : CqHandle) (sub : Submission) :
    Except SimError OpId → StateM LocalGuestUapiSurface (RuntimeDriveAction UapiRuntimeFailure)
  | .ok _ => return .complete
  | .error (.invalidInput code) =>
    if isQueueFull code then do
      modify fun s => { s with history := { s.history with refused := s.history.refused ++ [sub] } }
      -- make room for the retry; what the flush returns is ignored
      if now = u64Max then
        let _ ← (flushServices now).run
      return .retry { cq, code, sub }
    else
      return .fail { cq, code, sub }
  | .error _ => return .fail { cq, code := "runtime_issue_failed", sub }

/-- The callback with which `flush_runtime` drives the queue. -/
def issueEntry (now : UInt64) (entry : UapiRecord) :
    StateM LocalGuestUapiSurface (RuntimeDriveAction UapiRuntimeFailure) := do
  let { cq, sub } := entry.payload.payload
  issueOutcome now cq sub (← (submitDescriptorToCq sub cq).run)

/-- The completion that reports a submission which the runtime queue gave up. -/
def reportFailures (now : UInt64) (failures : List UapiRuntimeFailure) : Uapi Unit :=
  match failures with
  | [] => pure ()
  | failure :: rest => do
    let opId ← nextServiceTime
    let event : CompletionEvent :=
      { opId, task := none, source := .guestUapi,
        status := .retryableFailure ("runtime_exhausted_" ++ failure.code), finishedAt := now }
    enqueueToCq failure.cq ⟨event, failure.sub⟩
    reportFailures now rest

/-- One level of `flush_runtime`; the result says whether it calls itself again. -/
def flushRuntimeLevel (now : UInt64) : Uapi Bool := do
  let s ← get
  let runtimeQueue := s.runtimeQueue
  -- `mem::replace`: the surface has an empty queue while the old one is driven
  set { s with
    runtimeQueue := .withPolicy s.runtimeIssueLatencyUs s.runtimeRetryDelayUs s.runtimeQueueDepth
      s.runtimeMaxRetries }
  let (failures, forceFlush, runtimeQueue) ←
    ExceptT.lift (runtimeQueue.driveReady now (issueEntry now))
  modify fun s => { s with runtimeQueue }
  reportFailures now failures
  return forceFlush && !(← get).runtimeQueue.isEmpty

def flushRuntimeFuel (now : UInt64) : ℕ → Uapi Unit
  | 0 => pure ()
  | fuel + 1 => do
    if ← flushRuntimeLevel now then
      flushRuntimeFuel now fuel

def flushRuntime (now : UInt64) : Uapi Unit := do
  flushRuntimeFuel now ((← get).runtimeQueue.queue.maxRetries + 1)

/-! ### Queues -/

def registerCqWithOwner (owner : EntityId) : Uapi CqHandle := do
  let s ← get
  let cq : CqHandle := ⟨s.nextCqId + 1⟩
  set { s with
    nextCqId := s.nextCqId + 1
    cqEvents := Finmap.insert cq { owner, events := [] } s.cqEvents }
  return cq

def createCmdQueue (cq : CqHandle) (owner : EntityId) (depth : ℕ) : Uapi CmdQueueHandle := do
  if depth = 0 then
    throw (.invalidInput "command queue depth must be positive")
  let s ← get
  match s.cqEvents.lookup cq with
  | none => throw (.notFound "completion queue")
  | some cqState =>
    if cqState.owner ≠ owner then
      throw (.invalidInput "command queue owner mismatch")
    let cmdq : CmdQueueHandle := ⟨s.nextCmdqId + 1⟩
    set { s with
      nextCmdqId := s.nextCmdqId + 1
      cmdQueues := Finmap.insert cmdq { cq, owner, depth, pending := [] } s.cmdQueues }
    return cmdq

def enqueueCmd (cmdq : CmdQueueHandle) (owner : EntityId) (desc : UapiDescriptor) :
    Uapi (ℕ × ℕ) := do
  match (← get).cmdQueues.lookup cmdq with
  | none => throw (.notFound "command queue")
  | some queue =>
    if queue.owner ≠ owner then
      throw (.invalidInput "command queue owner mismatch")
    if queue.pending.length ≥ queue.depth then
      throw (.invalidInput "command queue full")
    let sub ← enter desc (some cmdq)
    let pending := queue.pending ++ [sub]
    modify fun s => { s with
      cmdQueues := Finmap.insert cmdq { queue with pending } s.cmdQueues
      history := { s.history with accepted := s.history.accepted ++ [sub] } }
    return (pending.length, queue.depth - pending.length)

/-- Stage the popped descriptors; an error leaves the rest of them behind. -/
def stageAll (cq : CqHandle) (staged : List Submission) : Uapi Unit :=
  match staged with
  | [] => pure ()
  | sub :: rest => do
    stageRuntimeDescriptor cq sub
    stageAll cq rest

/-- How many descriptors a doorbell takes. -/
def batchSize (maxBatch : Option ℕ) (queue : CommandQueueState) : ℕ :=
  min (maxBatch.getD queue.pending.length) queue.pending.length

def ringDoorbell (cmdq : CmdQueueHandle) (owner : EntityId) (maxBatch : Option ℕ) :
    Uapi (ℕ × ℕ) := do
  let s ← get
  match s.cmdQueues.lookup cmdq with
  | none => throw (.notFound "command queue")
  | some queue =>
    if queue.owner ≠ owner then
      throw (.invalidInput "command queue owner mismatch")
    let batch := batchSize maxBatch queue
    let staged := queue.pending.take batch
    let pending := queue.pending.drop batch
    -- popped before anything is staged
    set { s with cmdQueues := Finmap.insert cmdq { queue with pending } s.cmdQueues }
    stageAll queue.cq staged
    return (staged.length, pending.length)

def pollCqWithOwner (cq : CqHandle) (owner : EntityId) (maxEntries : Option ℕ) :
    Uapi (List CompletionEvent × ℕ) := do
  -- flushed before the completion queue is looked up
  flushRuntime u64Max
  flushServices u64Max
  let s ← get
  match s.cqEvents.lookup cq with
  | none => throw (.notFound "completion queue")
  | some queue =>
    if queue.owner ≠ owner then
      throw (.invalidInput "completion queue owner mismatch")
    let limit := min (maxEntries.getD queue.events.length) queue.events.length
    let events := queue.events.take limit
    let rest := queue.events.drop limit
    set { s with
      cqEvents := Finmap.insert cq { queue with events := rest } s.cqEvents
      history := { s.history with
        returns := s.history.returns ++ events.map fun entry => Return.mk cq owner entry } }
    return (events.map (·.event), rest.length)

/-! ### Commands -/

def createSegment (bytes : UInt64) : Uapi SegmentHandle := do
  if bytes = 0 then
    throw (.invalidInput "segment bytes must be positive")
  let s ← get
  -- the id is used up even if the registration fails
  set { s with nextSegmentId := s.nextSegmentId + 1 }
  let segment : SegmentHandle := ⟨s.nextSegmentId + 1⟩
  let shmemService ← ofExcept (s.shmemService.registerSegment segment 0 bytes)
  modify fun s => { s with shmemService }
  return segment

def getHealth (entity : EntityId) : Uapi HealthStatus := do
  match (← get).topology.entities.find? fun e => e.id == entity with
  | some e => return e.health
  | none => throw (.notFound "entity")

/-- The direct submissions: no command queue is involved and the default queue is used. -/
def submitDirect (desc : UapiDescriptor) : Uapi OpId := do
  let cq ← defaultCq
  let sub ← enter desc none
  submitDescriptorToCq sub cq

def execute (cmd : UapiCommand) : Uapi UapiResponse := do
  match cmd with
  | .queryTopology => return .topologySnapshot (← get).topology.snapshot
  | .createSegment bytes => return .segmentCreated (← createSegment bytes)
  | .registerCq owner => return .cqRegistered (← registerCqWithOwner owner)
  | .createCmdQueue cq owner depth => return .cmdQueueCreated (← createCmdQueue cq owner depth)
  | .enqueueCmd cmdq owner desc =>
    let (depth, remainingCapacity) ← enqueueCmd cmdq owner desc
    return .commandEnqueued depth remainingCapacity
  | .ringDoorbell cmdq owner maxBatch =>
    let (submitted, pending) ← ringDoorbell cmdq owner maxBatch
    return .doorbellRung submitted pending
  | .submitIo req => return .ioSubmitted (← submitDirect (.io req))
  | .submitBlockWriteback block task =>
    return .ioSubmitted (← submitDirect (.blockWriteback block task))
  | .submitShmemPut req => return .ioSubmitted (← submitDirect (.shmemPut req))
  | .submitShmemGet req => return .ioSubmitted (← submitDirect (.shmemGet req))
  | .submitDfsRead req => return .ioSubmitted (← submitDirect (.dfsRead req))
  | .submitDfsWrite req => return .ioSubmitted (← submitDirect (.dfsWrite req))
  | .submitDbPut req => return .ioSubmitted (← submitDirect (.dbPut req))
  | .submitDbGet req => return .ioSubmitted (← submitDirect (.dbGet req))
  | .pollCq cq owner maxEntries =>
    let (events, remaining) ← pollCqWithOwner cq owner maxEntries
    return .completions events remaining
  | .drainCq cq owner =>
    let (events, remaining) ← pollCqWithOwner cq owner none
    return .completions events remaining
  | .getHealth entity => return .healthStatus (← getHealth entity)

end Uapi

namespace LocalGuestUapiSurface

/-- The surface after a command, and the command's result. -/
def execute (self : LocalGuestUapiSurface) (cmd : UapiCommand) :
    Except SimError UapiResponse × LocalGuestUapiSurface :=
  exec (Uapi.execute cmd) self

/-- The surface after a sequence of commands; commands that fail count as well. -/
def run (self : LocalGuestUapiSurface) (cmds : List UapiCommand) : LocalGuestUapiSurface :=
  cmds.foldl (fun s cmd => (s.execute cmd).2) self

end LocalGuestUapiSurface

end LinquUb
