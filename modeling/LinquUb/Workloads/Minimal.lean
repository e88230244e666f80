import LinquUb.Workloads.Harness

/-!
# The workloads

`run_minimal_workload` of `sim-workloads`: the request loop that the hotset, the trace and the LLM
workload share, and the three dual-node workloads that it hands over to.

* The by-value `report` in the hit branch of the request loop is read as the `&mut report` of the
  miss branch; as it stands the branch does not compile.
* `WorkloadConfig.accesses` : the blocks that a workload looks up, and the evictions in between.
-/

namespace LinquUb

open Action

/-- The shape of a request loop. -/
structure WorkloadPlan where
  workloadKind : String
  workloadProfile : String
  requestsTotal : ℕ
  blocksPerRequest : ℕ
  uniquePrefixes : ℕ
  rustProfile : Option RustLlmProfile
deriving DecidableEq, Repr

/-- `none` for the dual-node workloads, which have no request loop. -/
def WorkloadConfig.plan : WorkloadConfig → Option WorkloadPlan
  | .hotsetLoop qps uniquePrefixes blocksPerRequest => some
    { workloadKind := "hotset_loop"
      workloadProfile := "default"
      requestsTotal := min qps.toNat 4
      blocksPerRequest := blocksPerRequest.toNat
      uniquePrefixes := max uniquePrefixes.toNat 1
      rustProfile := none }
  | .traceReplay _ => some
    { workloadKind := "trace_replay"
      workloadProfile := "default"
      requestsTotal := 2
      blocksPerRequest := 1
      uniquePrefixes := 2
      rustProfile := none }
  | .rustLlmMvp profile qps uniquePrefixes blocksPerRequest =>
    let profile := rustLlmProfile profile
    some
    { workloadKind := "rust_llm_server_mvp"
      workloadProfile := profile.name
      requestsTotal := min qps.toNat profile.requestsTotalCap
      blocksPerRequest := max blocksPerRequest.toNat (profile.prefixBlocks + profile.tailBlocks)
      uniquePrefixes := max uniquePrefixes.toNat profile.prefixGroups
      rustProfile := some profile }
  | .dualNodeShmemMailbox .. | .dualNodeBlockCompute _ | .dualNodeCacheFill _ => none

namespace WorkloadPlan

variable (plan : WorkloadPlan)

/-- The profile is `capacity_pressure`. -/
def underPressure : Bool :=
  match plan.rustProfile with
  | some profile => profile.name == "capacity_pressure"
  | none => false

def blockAt (requestIdx blockIdx : ℕ) : BlockHash :=
  blockForRequest plan.workloadKind plan.rustProfile requestIdx blockIdx plan.uniquePrefixes

/-- How many blocks are evicted after a request. -/
def evictAfterRequest : ℕ :=
  match plan.rustProfile with
  | some profile => profile.evictAfterRequest
  | none => 0

/-- What a request does to the store. -/
def requestAccesses (requestIdx : ℕ) : List (FifoSet.Access BlockHash) :=
  (List.range plan.blocksPerRequest).map
    (fun blockIdx => .touch (plan.blockAt requestIdx blockIdx)) ++ [.evict plan.evictAfterRequest]

end WorkloadPlan

/-- The local variables of `run_minimal_workload` that do not change. -/
structure Loop where
  plan : WorkloadPlan
  runner : DispatchRunner
  planner : RecursiveRoutePlanner
  topology : SimTopology
  cq : CqHandle
  cmdq : CmdQueueHandle
  prefixSegment : SegmentHandle

namespace Workload

/-- The kind in the report says that this is the LLM workload. -/
def ifRustLlm (m : Workload PUnit) : Workload PUnit := do
  let h ← get
  onlyIf (h.report.workloadKind = "rust_llm_server_mvp") m

/-- The task of the given id, at the root of the hierarchy. -/
def rootTask (taskId : ℕ) : TaskKey :=
  { logicalSystem := ⟨1⟩, coord := ⟨.replicate 8 0⟩, scopeDepth := 0, taskId := .ofNat taskId }

def runChipBackendMinimalStep (runner : DispatchRunner) (topology : SimTopology) (task : TaskKey)
    (functionName : String) : Workload PUnit := do
  let host ← orPanic topology.hosts.head?
  let ubpuNode := ((topology.ubpus.find? fun ubpu => ubpu.hostId == 0).map (·.nodeId)).getD
    host.nodeId
  let h ← get
  let segmentSeed := 90000 + h.report.blocksTotal * 10 + task.taskId.toNat
  let backendSpec :=
    if functionName = "w4_rust_llm_minimal_step" then
      simplerBackendSpec .hostMatmul .hostBuildGraph (some functionName)
    else simplerBackendSpec .hostVector .hostBuildGraph (some functionName)
  runOnChip runner (dispatchTo task functionName backendSpec ubpuNode ⟨.ofNat segmentSeed⟩)

/-! ### The request loop -/

section Requests

variable (l : Loop) (task : TaskKey)

def minimalStep : Workload PUnit :=
  ifRustLlm (runChipBackendMinimalStep l.runner l.topology task "w4_rust_llm_minimal_step")

/-- The metadata of a prefix that is hit for the first time. -/
def seedPrefixMeta (dbKey : String) : Workload PUnit := do
  let h ← get
  onlyIf (dbKey ∉ h.seededDbKeys) do
    modify fun h => { h with seededDbKeys := dbKey :: h.seededDbKeys }
    enqueueDescriptorAndRing l.cmdq (.dbPut { task := some task, key := dbKey, bytes := 32 })
      "unexpected db put enqueue response" "unexpected db put doorbell response"
    count fun report => { report with dbPuts := report.dbPuts + 1 }

def seedPrefixSegment : Workload PUnit := do
  let h ← get
  onlyIf (h.prefixSegmentSeeded = false) do
    enqueueDescriptorAndRing l.cmdq
      (.shmemPut { task := some task, requesterEntity := 0, segment := l.prefixSegment,
                   bytes := 4096 })
      "unexpected shmem put enqueue response" "unexpected shmem put doorbell response"
    count fun report => { report with shmemPuts := report.shmemPuts + 1 }
    modify fun h => { h with prefixSegmentSeeded := true }

def readPrefix (block : BlockHash) : Workload PUnit := do
  let dbKey := s!"prefix-meta:{block.hash}"
  seedPrefixMeta l task dbKey
  enqueueDescriptorAndRing l.cmdq (.dbGet { task := some task, key := dbKey })
    "unexpected db get enqueue response" "unexpected db get doorbell response"
  count fun report => { report with dbGets := report.dbGets + 1 }
  seedPrefixSegment l task
  enqueueDescriptorAndRing l.cmdq
    (.shmemGet { task := some task, requesterEntity := 0, segment := l.prefixSegment,
                 bytes := 4096 })
    "unexpected shmem get enqueue response" "unexpected shmem get doorbell response"
  count fun report => { report with shmemGets := report.shmemGets + 1 }
  drainAndRecord l.cq "unexpected shmem cq drain response"

def serveHit (block : BlockHash) (isPrefix : Bool) : Workload PUnit := do
  count fun report => { report with hits := report.hits + 1 }
  onlyIf (isPrefix = true) do
    count fun report => { report with prefixHits := report.prefixHits + 1 }
    ifRustLlm (readPrefix l task block)
  minimalStep l task

/-- A block that only the file service has. -/
def fallBackToDfs (block : BlockHash) : Workload PUnit := do
  let dfsPath := s!"/weights/{block.hash}"
  let h ← get
  let coldRead := dfsPath ∉ h.seededDfsPaths
  modify fun h => { h with
    seededDfsPaths :=
      if coldRead then dfsPath :: h.seededDfsPaths else h.seededDfsPaths }
  onlyIf coldRead do
    enqueueDescriptorAndRing l.cmdq
      (.dfsWrite { task := some task, path := dfsPath, bytes := 4096 })
      "unexpected dfs write enqueue response" "unexpected dfs write doorbell response"
    count fun report => { report with dfsSeedWrites := report.dfsSeedWrites + 1 }
  submitBlockRead l.cq task block l.plan.underPressure
  count fun report => { report with fallbackReads := report.fallbackReads + 1 }
  count fun report =>
    if coldRead then { report with dfsColdReads := report.dfsColdReads + 1 }
    else { report with dfsWarmReads := report.dfsWarmReads + 1 }
  enqueueDescriptorAndRing l.cmdq (.dfsRead { task := some task, path := dfsPath })
    "unexpected dfs read enqueue response" "unexpected dfs read doorbell response"

def fetch (block : BlockHash) (usesDfs : Bool) : Workload PUnit :=
  ifRustLlm
    (if usesDfs then fallBackToDfs l task block
     else submitBlockRead l.cq task block l.plan.underPressure)

/-- Plan a route for the block and promote it; `at_` is the time of the plan. -/
def promote (planner : RecursiveRoutePlanner) (topology : SimTopology) (block : BlockHash)
    (at_ promotedAt : ℕ) (between : Workload PUnit) : Workload PUnit := do
  let decision ← lift (planner.plan { task, currentLevel := .l4, block } topology)
  emit (.routePlanned (.ofNat at_) task decision)
  between
  stageInsert block
  count fun report => { report with promotions := report.promotions + 1 }
  let h ← get
  match (h.store.lookup block).placement with
  | some placement => emit (.blockPromoted (.ofNat promotedAt) block placement)
  | none => pure ⟨⟩

def serveMiss (block : BlockHash) (isPrefix usesDfs : Bool) (at_ : ℕ) : Workload PUnit := do
  count fun report => { report with misses := report.misses + 1 }
  onlyIf (isPrefix = false) do
    count fun report => { report with tailMisses := report.tailMisses + 1 }
  promote task l.planner l.topology block at_ (at_ + 1) (pure ⟨⟩)
  fetch l task block usesDfs
  submitBlockWrite l.cq task block l.plan.underPressure
  onlyIf (l.plan.underPressure = false) do
    drainAndRecord l.cq "unexpected cq drain response"
  minimalStep l task

/-- The body of the loop over the blocks of a request. -/
def runBlock (requestIdx blockIdx : ℕ) : Workload PUnit := do
  count fun report => { report with blocksTotal := report.blocksTotal + 1 }
  let h ← get
  let block := blockForRequest h.report.workloadKind l.plan.rustProfile requestIdx blockIdx
    l.plan.uniquePrefixes
  let usesDfs := usesDfsFallback l.plan.rustProfile blockIdx
  let isPrefix := isPrefixBlock l.plan.rustProfile blockIdx
  if (h.store.lookup block).found then serveHit l task block isPrefix
  else serveMiss l task block isPrefix usesDfs (requestIdx + blockIdx)

/-- The body of the loop over the requests. -/
def runRequest (requestIdx : ℕ) : Workload PUnit := do
  let task := rootTask (requestIdx + 1)
  emit (.taskCreated (.ofNat requestIdx) task)
  (List.range l.plan.blocksPerRequest).forM (runBlock l task requestIdx)
  onlyIf (0 < l.plan.evictAfterRequest) do
    evictBlocks l.cq l.plan.evictAfterRequest (some task) requestIdx
  drainAndRecord l.cq "unexpected cq drain response after request"

end Requests

def registerCq (responseErr : String) : Workload CqHandle := do
  match ← execute (.registerCq 0) with
  | .cqRegistered cq => return cq
  | _ => invalid responseErr

def createSegment (bytes : UInt64) (responseErr : String) : Workload SegmentHandle := do
  match ← execute (.createSegment bytes) with
  | .segmentCreated segment => return segment
  | _ => invalid responseErr

def createCmdQueue (cq : CqHandle) : Workload CmdQueueHandle := do
  match ← execute (.createCmdQueue cq 0 32) with
  | .cmdQueueCreated cmdq => return cmdq
  | _ => invalid "unexpected command queue creation response"

def requestLoop (plan : WorkloadPlan) (runner : DispatchRunner) (planner : RecursiveRoutePlanner)
    (topology : SimTopology) : Workload WorkloadRunReport := do
  let cq ← registerCq "unexpected cq registration response"
  let cmdq ← createCmdQueue cq
  let prefixSegment ← createSegment 4096 "unexpected shmem segment creation response"
  let l : Loop := { plan, runner, planner, topology, cq, cmdq, prefixSegment }
  (List.range plan.requestsTotal).forM (runRequest l)
  evictBlocks cq 1 none plan.requestsTotal
  drainAndRecord cq "unexpected final cq drain response"
  finish

/-! ### Dual-node workloads -/

/-- The checks with which every dual-node workload starts; `name` is its name in the errors. -/
def requireDualNode (name : String) (chipBackendMode : String) (topology : SimTopology) :
    Workload PUnit := do
  onlyIf (topology.hosts.length < 2) (invalid (name ++ " requires at least 2 hosts"))
  onlyIf (chipBackendMode = "stub") (invalid (name ++ " requires non-stub chip backend mode"))

/-- The first unit of a host. -/
def unitOf (topology : SimTopology) (host : SimHost) (what : String) : Workload SimUbpu :=
  match topology.ubpus.find? fun ubpu => ubpu.hostId == host.id with
  | some ubpu => pure ubpu
  | none => throw (.error (.notFound what))

def mailboxTask (round : ℕ) (hostIdx : UInt32) : TaskKey :=
  { logicalSystem := ⟨1⟩
    coord := ⟨(List.Vector.replicate 8 0).set ⟨3, by decide⟩ hostIdx⟩
    scopeDepth := 0
    taskId := .ofNat (round * 10 + hostIdx.toNat + 1) }

/-- Submit a shared-memory operation, count it and drain. -/
def shmemStep (cq : CqHandle) (cmd : UapiCommand) (responseErr drainErr : String)
    (counted : WorkloadRunReport → WorkloadRunReport) : Workload PUnit := do
  submitted cmd responseErr
  count counted
  drainAndRecord cq drainErr

def shmemPut (cq : CqHandle) (req : ShmemPutReq) (responseErr drainErr : String) :
    Workload PUnit :=
  shmemStep cq (.submitShmemPut req) responseErr drainErr fun report =>
    { report with shmemPuts := report.shmemPuts + 1 }

def shmemGet (cq : CqHandle) (req : ShmemGetReq) (responseErr drainErr : String) :
    Workload PUnit :=
  shmemStep cq (.submitShmemGet req) responseErr drainErr fun report =>
    { report with shmemGets := report.shmemGets + 1 }

/-- A round of the mailbox; the result segment is only named in copies, which the engine does not
read. -/
def mailboxRound (runner : DispatchRunner) (cq : CqHandle) (payloadBytes : UInt64)
    (payloadSegment ackSegment : SegmentHandle) (ubpu : SimUbpu) (round : ℕ) :
    Workload PUnit := do
  let taskA := mailboxTask round 0
  let taskB := mailboxTask round 1
  emit (.taskCreated (.ofNat (round * 10)) taskA)
  emit (.taskCreated (.ofNat (round * 10 + 1)) taskB)
  shmemPut cq { task := some taskA, requesterEntity := 0, segment := payloadSegment,
                bytes := payloadBytes }
    "unexpected shmem put response" "unexpected cq drain response after payload put"
  shmemGet cq { task := some taskB, requesterEntity := 1, segment := payloadSegment,
                bytes := payloadBytes }
    "unexpected shmem get response" "unexpected cq drain response after payload get"
  runOnChip runner (dispatchTo taskB "w1_shmem_mailbox_transform"
    (simplerBackendSpec .hostVector .hostBuildGraph (some "w1_shmem_mailbox_transform"))
    ubpu.nodeId ⟨.ofNat (10000 + round)⟩)
  shmemPut cq { task := some taskB, requesterEntity := 1, segment := ackSegment,
                bytes := payloadBytes }
    "unexpected shmem ack put response" "unexpected cq drain response after ack put"
  shmemGet cq { task := some taskA, requesterEntity := 0, segment := ackSegment,
                bytes := payloadBytes }
    "unexpected shmem ack get response" "unexpected cq drain response after ack get"

def runDualNodeShmemMailboxWorkload (runner : DispatchRunner) (chipBackendMode : String)
    (topology : SimTopology) (rounds payloadBytes : UInt64) : Workload WorkloadRunReport := do
  requireDualNode "dual-node shmem mailbox" chipBackendMode topology
  let hostB ← orPanic topology.hosts[1]?
  let ubpuB ← unitOf topology hostB "ubpu for host_b"
  let cq ← registerCq "unexpected cq registration response"
  let payloadSegment ← createSegment payloadBytes "unexpected payload segment response"
  let _ ← createSegment payloadBytes "unexpected result segment response"
  let ackSegment ← createSegment payloadBytes "unexpected ack segment response"
  (List.range rounds.toNat).forM
    (mailboxRound runner cq payloadBytes payloadSegment ackSegment ubpuB)
  finish

def blockComputeRound (runner : DispatchRunner) (cq : CqHandle) (ubpu : SimUbpu) (round : ℕ) :
    Workload PUnit := do
  let taskA := mailboxTask round 0
  let taskB := mailboxTask round 1
  let sourceBlock : BlockHash := ⟨s!"w2-source-block-{round}"⟩
  let resultBlock : BlockHash := ⟨s!"w2-result-block-{round}"⟩
  count fun report => { report with blocksTotal := report.blocksTotal + 1 }
  emit (.taskCreated (.ofNat (round * 10)) taskA)
  emit (.taskCreated (.ofNat (round * 10 + 1)) taskB)
  submitBlockWrite cq taskB sourceBlock false
  drainAndRecord cq "unexpected cq drain response after block seed write"
  submitBlockRead cq taskA sourceBlock false
  drainAndRecord cq "unexpected cq drain response after block read"
  runOnChip runner (dispatchTo taskA "w2_block_transform"
    (simplerBackendSpec .hostVector .hostBuildGraph (some "w2_block_transform"))
    ubpu.nodeId ⟨.ofNat (30000 + round)⟩)
  submitBlockWrite cq taskA resultBlock false
  drainAndRecord cq "unexpected cq drain response after result block write"

def runDualNodeBlockComputeWorkload (runner : DispatchRunner) (chipBackendMode : String)
    (topology : SimTopology) (rounds : UInt64) : Workload WorkloadRunReport := do
  requireDualNode "dual-node block compute" chipBackendMode topology
  let hostA ← orPanic topology.hosts[0]?
  let ubpuA ← unitOf topology hostA "ubpu for host_a"
  let cq ← registerCq "unexpected cq registration response"
  (List.range rounds.toNat).forM (blockComputeRound runner cq ubpuA)
  finish

/-- The only block of the cache-fill workload. -/
def sharedBlock : BlockHash := ⟨"w3-shared-hot-block"⟩

/-- Hit the shared block, or fetch and promote it. -/
def hitOrFill (planner : RecursiveRoutePlanner) (topology : SimTopology) (cq : CqHandle)
    (task : TaskKey) (round : ℕ) : Workload PUnit := do
  let h ← get
  if (h.store.lookup sharedBlock).found then
    count fun report => { report with hits := report.hits + 1 }
  else
    count fun report => { report with misses := report.misses + 1 }
    promote task planner topology sharedBlock (round * 10 + 1) (round * 10 + 2) do
      submitBlockRead cq task sharedBlock false
      drainAndRecord cq "unexpected cq drain response after remote fetch"

def cacheFillRound (runner : DispatchRunner) (planner : RecursiveRoutePlanner)
    (topology : SimTopology) (cq : CqHandle) (ubpu : SimUbpu) (round : ℕ) : Workload PUnit := do
  let task := mailboxTask round 0
  count fun report => { report with blocksTotal := report.blocksTotal + 1 }
  emit (.taskCreated (.ofNat (round * 10)) task)
  hitOrFill planner topology cq task round
  runOnChip runner (dispatchTo task "w3_cache_fill_transform"
    (simplerBackendSpec .tmrbVector .tensormapAndRingbuffer (some "w3_cache_fill_transform"))
    ubpu.nodeId ⟨.ofNat (60000 + round)⟩)

def runDualNodeCacheFillWorkload (runner : DispatchRunner) (planner : RecursiveRoutePlanner)
    (chipBackendMode : String) (topology : SimTopology) (rounds : UInt64) :
    Workload WorkloadRunReport := do
  requireDualNode "dual-node cache fill" chipBackendMode topology
  let hostA ← orPanic topology.hosts[0]?
  let ubpuA ← unitOf topology hostA "ubpu for host_a"
  let cq ← registerCq "unexpected cq registration response"
  submitBlockWrite cq (mailboxTask 0 1) sharedBlock false
  drainAndRecord cq "unexpected cq drain response after cache-fill seed write"
  (List.range rounds.toNat).forM (cacheFillRound runner planner topology cq ubpuA)
  finish

/-! ### Runs -/

/-- The body of `run_minimal_workload`, which depends on the kind of workload. -/
def workload (env : Environment) (config : SimConfig) (topology : SimTopology) :
    Workload WorkloadRunReport :=
  let planner := RecursiveRoutePlanner.fromConfig config
  match config.workload with
  | .dualNodeShmemMailbox rounds payloadBytes =>
    runDualNodeShmemMailboxWorkload env.runner config.chipBackendMode topology rounds payloadBytes
  | .dualNodeBlockCompute rounds =>
    runDualNodeBlockComputeWorkload env.runner config.chipBackendMode topology rounds
  | .dualNodeCacheFill rounds =>
    runDualNodeCacheFillWorkload env.runner planner config.chipBackendMode topology rounds
  | workload =>
    match workload.plan with
    | some plan => requestLoop plan env.runner planner topology
    | none => throw .panic

end Workload

namespace WorkloadConfig

/-- The report with which a workload starts. -/
def baseReport : WorkloadConfig → WorkloadRunReport
  | .dualNodeShmemMailbox rounds _ =>
    baseWorkloadReport "dual_node_shmem_mailbox" "mailbox" rounds.toNat
  | .dualNodeBlockCompute rounds =>
    baseWorkloadReport "dual_node_block_compute" "read_compute_write" rounds.toNat
  | .dualNodeCacheFill rounds =>
    baseWorkloadReport "dual_node_cache_fill" "fetch_fill_hit" rounds.toNat
  | workload =>
    match workload.plan with
    | some plan =>
      baseWorkloadReport plan.workloadKind plan.workloadProfile plan.requestsTotal
    | none => baseWorkloadReport "" "" 0

/-- The block service has a shallow queue in the `capacity_pressure` profile. -/
def blockProfile (workload : WorkloadConfig) : BlockServiceProfile :=
  match workload.plan with
  | some plan =>
    if plan.underPressure then { BlockServiceProfile.default with queueDepth := 2 } else .default
  | none => .default

/-- What a workload does to the store: it looks blocks up, and enters those that are missing, and it
evicts. -/
def accesses : WorkloadConfig → List (FifoSet.Access BlockHash)
  | .dualNodeShmemMailbox .. | .dualNodeBlockCompute _ => []
  | .dualNodeCacheFill rounds => List.replicate rounds.toNat (.touch Workload.sharedBlock)
  | workload =>
    match workload.plan with
    | some plan =>
      (List.range plan.requestsTotal).flatMap plan.requestAccesses ++ [.evict 1]
    | none => []

end WorkloadConfig

/-- The variables at the start of a workload. -/
def Harness.start (env : Environment) (config : SimConfig) (topology : SimTopology)
    (runtime : LocalRuntimeEngine) : Harness :=
  { store := .fromConfig config.toScenarioConfig
    surface := .withProfilesAndRuntimePolicy
      { LocalGuestUapiSurface.Config.default topology env.hashOrder with
        blockProfile := config.workload.blockProfile }
    runtime
    report := config.workload.baseReport
    seededDfsPaths := []
    seededDbKeys := []
    prefixSegmentSeeded := false
    departed := []
    writtenBack := [] }

/-- The report of a workload, with the variables at its end. -/
def runMinimalWorkload (env : Environment) (config : SimConfig) (topology : SimTopology) :
    Except Abort (WorkloadRunReport × Harness) :=
  match LocalRuntimeEngine.fromConfig config with
  | none => .error .panic
  | some runtime =>
    match exec (Workload.workload env config topology)
      (Harness.start env config topology runtime) with
    | (.ok report, h) => .ok (report, h)
    | (.error err, _) => .error err

end LinquUb
