import LinquUb.Uapi.Surface
import LinquUb.Workloads.Report

/-!
# The workload harness

What the workloads of `sim-workloads` have in common: the objects that they drive, the helper
functions through which they drive them, and the profiles of the LLM workload.

* A run stops at the first error that the source returns, or at a panic (`Abort`).
* The history of a run (`Harness.departed`, `Harness.writtenBack`) is read by no function.
-/

namespace LinquUb

open Action

inductive Abort
  | error (err : SimError)
  | panic
deriving DecidableEq

/-- What a run depends on besides its configuration. -/
structure Environment where
  runner : DispatchRunner
  hashOrder : HashOrder

/-- The local variables of a workload that change. -/
structure Harness where
  store : InMemoryBlockStore
  surface : LocalGuestUapiSurface
  runtime : LocalRuntimeEngine
  report : WorkloadRunReport
  seededDfsPaths : List String
  seededDbKeys : List String
  prefixSegmentSeeded : Bool
  /-- Blocks that have left the store. -/
  departed : List BlockHash
  /-- Blocks of which a writeback was submitted. -/
  writtenBack : List BlockHash

abbrev Workload (α : Type) := Action Harness Abort α

namespace Workload

/-! ### Access to the harness -/

def lift {α : Type} : Except SimError α → Workload α
  | .ok a => pure a
  | .error err => throw (.error err)

def orPanic {α : Type} : Option α → Workload α
  | some a => pure a
  | none => throw .panic

def invalid {α : Type} (what : String) : Workload α := throw (.error (.invalidInput what))

/-- Change the report. -/
def count (f : WorkloadRunReport → WorkloadRunReport) : Workload PUnit :=
  modify fun h => { h with report := f h.report }

def emit (event : TraceEvent) : Workload PUnit :=
  count fun report => { report with events := report.events ++ [event] }

def tryExecute (cmd : UapiCommand) : Workload (Except SimError UapiResponse) := do
  let h ← get
  set { h with surface := (h.surface.execute cmd).2 }
  return (h.surface.execute cmd).1

def execute (cmd : UapiCommand) : Workload UapiResponse := do
  lift (← tryExecute cmd)

/-- The blocks that are no longer in the store. -/
def departures (before : List BlockHash) (store : InMemoryBlockStore) : List BlockHash :=
  before.filter fun block => block ∉ store.insertionOrder

def stageInsert (block : BlockHash) : Workload PUnit := do
  let h ← get
  let store ← orPanic (h.store.stageInsert block)
  set { h with
    store
    departed := h.departed ++ departures (h.store.insertionOrder.insert block) store }

def evict (maxBlocks : ℕ) : Workload (List BlockHash) := do
  let h ← get
  let (evicted, store) := InMemoryBlockStore.evict maxBlocks h.store
  set { h with store, departed := h.departed ++ departures h.store.insertionOrder store }
  return evicted

def emitAll (events : List SimEvent) : Workload PUnit :=
  count fun report => { report with events := report.events ++ events.map .runtime }

/-! ### Helpers of the workloads -/

/-- What a report makes of one completion. -/
def recordCompletion (completion : CompletionEvent) (report : WorkloadRunReport) :
    WorkloadRunReport :=
  let report := match completion.source, completion.status with
    | .blockService, .retryableFailure code =>
      { report with
        blockRetryableFailures := report.blockRetryableFailures + 1
        blockReadMisses := report.blockReadMisses + if code = "block_miss" then 1 else 0 }
    | .shmemService, .fatalFailure code =>
      { report with
        shmemDenied := report.shmemDenied + if code = "shmem_access_denied" then 1 else 0 }
    | .dbService, .retryableFailure _ =>
      { report with dbRetryableFailures := report.dbRetryableFailures + 1 }
    | _, _ => report
  { report with
    events := report.events ++ [.runtime (.completionObserved completion.finishedAt completion)] }

def drainAndRecord (cq : CqHandle) (responseErr : String) : Workload PUnit := do
  match ← execute (.drainCq cq 0) with
  | .completions events _ =>
    count fun report => { report with completions := report.completions + events.length }
    events.forM fun completion => count (recordCompletion completion)
  | _ => invalid responseErr

def enqueueDescriptorAndRing (cmdq : CmdQueueHandle) (desc : UapiDescriptor)
    (enqueueErr doorbellErr : String) : Workload PUnit := do
  match ← execute (.enqueueCmd cmdq 0 desc) with
  | .commandEnqueued .. => pure ⟨⟩
  | _ => invalid enqueueErr
  match ← execute (.ringDoorbell cmdq 0 (some 1)) with
  | .doorbellRung 1 _ => pure ⟨⟩
  | _ => invalid doorbellErr

/-- Submit a command whose answer must be that an operation was submitted. -/
def submitted (cmd : UapiCommand) (responseErr : String) : Workload PUnit := do
  match ← execute cmd with
  | .ioSubmitted _ => pure ⟨⟩
  | _ => invalid responseErr

/-- Submit to the block service, once more after a drain if its queue was full and `retry` holds. -/
def submitToBlocks (cq : CqHandle) (cmd : UapiCommand) (retry : Bool)
    (responseErr drainErr retryErr : String) : Workload PUnit := do
  match ← tryExecute cmd with
  | .ok (.ioSubmitted _) => pure ⟨⟩
  | .ok _ => invalid responseErr
  | .error err =>
    if err = .invalidInput "block queue full" ∧ retry = true then
      count fun report =>
        { report with blockQueueRejections := report.blockQueueRejections + 1 }
      drainAndRecord cq drainErr
      submitted cmd retryErr
    else
      throw (.error err)

def submitBlockIo (cq : CqHandle) (req : IoSubmitReq) (allowRetryAfterQueueFull : Bool) :
    Workload PUnit :=
  submitToBlocks cq (.submitIo req) allowRetryAfterQueueFull "unexpected io submit response"
    "unexpected cq drain response while clearing block queue pressure"
    "unexpected io submit retry response"

def submitBlockRead (cq : CqHandle) (task : TaskKey) (block : BlockHash)
    (allowRetryAfterQueueFull : Bool) : Workload PUnit := do
  let h ← get
  submitBlockIo cq
    { opId := .ofNat (10000 + h.report.blocksTotal), task := some task, entity := 0,
      opcode := .readBlock, segment := none, block := some block } allowRetryAfterQueueFull

def submitBlockWrite (cq : CqHandle) (task : TaskKey) (block : BlockHash)
    (allowRetryAfterQueueFull : Bool) : Workload PUnit := do
  count fun report => { report with blockWrites := report.blockWrites + 1 }
  let h ← get
  submitBlockIo cq
    { opId := .ofNat (20000 + h.report.blocksTotal), task := some task, entity := 0,
      opcode := .writeBlock, segment := none, block := some block } allowRetryAfterQueueFull

/-- It retries after a full queue in every profile. -/
def submitBlockWriteback (cq : CqHandle) (task : Option TaskKey) (block : BlockHash) :
    Workload PUnit := do
  count fun report => { report with blockWritebacks := report.blockWritebacks + 1 }
  submitToBlocks cq (.submitBlockWriteback block task) true "unexpected block writeback response"
    "unexpected cq drain response while clearing writeback queue pressure"
    "unexpected block writeback retry response"
  modify fun h => { h with writtenBack := h.writtenBack ++ [block] }

/-- Evict blocks, and report and write back each of them; `base` is the first summand of the times
of the events. -/
def evictBlocks (cq : CqHandle) (maxBlocks : ℕ) (task : Option TaskKey) (base : ℕ) :
    Workload PUnit := do
  let evicted ← evict maxBlocks
  count fun report => { report with evictions := report.evictions + evicted.length }
  evicted.forM fun block => do
    submitBlockWriteback cq task block
    let h ← get
    emit (.blockEvicted (.ofNat (base + h.report.blocksTotal)) block
      { block, level := .l2, node := 0 })

/-! ### Steps on the chip -/

def submitCopy (req : CopyRequest) (sink : List SimEvent) : Workload (List SimEvent) := do
  let h ← get
  let (result, runtime, sink) ← orPanic (h.runtime.submitCopy req sink)
  set { h with runtime }
  let _ ← lift result
  return sink

def submitDispatch (req : DispatchRequest) (sink : List SimEvent) : Workload (List SimEvent) := do
  let h ← get
  let (result, runtime, sink) ← orPanic (h.runtime.submitDispatch req sink)
  set { h with runtime }
  let _ ← lift result
  return sink

/-- Copy in, dispatch, copy out and poll at 256 µs from now. -/
def runOnChip (runner : DispatchRunner) (req : DispatchRequest) : Workload PUnit := do
  let sink ← submitCopy { task := req.task, direction := .hostToDevice } []
  let sink ← submitDispatch req sink
  let sink ← submitCopy { task := req.task, direction := .deviceToHost } sink
  let h ← get
  let (completions, runtime, sink) ←
    orPanic (h.runtime.pollCompletions runner (saturatingAdd h.runtime.now 256) sink)
  set { h with runtime }
  count fun report => { report with completions := report.completions + completions.length }
  emitAll sink

def simplerBackendSpec (profile : DispatchBackendProfile) (runtimeVariant : DispatchRuntimeVariant)
    (callableHint : Option String) : DispatchBackendSpec :=
  { profile, platform := "a2a3sim", runtimeVariant, callableHint }

/-- A dispatch of the named function to an L2 node. -/
def dispatchTo (task : TaskKey) (functionName : String) (backendSpec : DispatchBackendSpec)
    (targetNode : NodeId) (stageSegment : SegmentHandle) : DispatchRequest :=
  { task
    function := { name := functionName, level := .l2 }
    backendSpec := some backendSpec
    targetLevel := .l2
    targetNode
    inputSegments := [stageSegment] }

/-- `summarize_events` at the end of every workload. -/
def finish : Workload WorkloadRunReport := do
  count fun report => { report with summary := summarizeEvents report.events }
  return (← get).report

end Workload

/-! ### Profiles of the LLM workload -/

structure RustLlmProfile where
  name : String
  requestsTotalCap : ℕ
  prefixGroups : ℕ
  prefixBlocks : ℕ
  tailBlocks : ℕ
  tailUsesDfs : Bool
  evictAfterRequest : ℕ
deriving DecidableEq, Repr

def rustLlmProfile (profile : String) : RustLlmProfile :=
  if profile = "dual_node_minimal" then
    { name := "dual_node_minimal", requestsTotalCap := 2, prefixGroups := 1, prefixBlocks := 1,
      tailBlocks := 1, tailUsesDfs := false, evictAfterRequest := 0 }
  else if profile = "high_reuse" then
    { name := "high_reuse", requestsTotalCap := 6, prefixGroups := 1, prefixBlocks := 3,
      tailBlocks := 1, tailUsesDfs := false, evictAfterRequest := 0 }
  else if profile = "capacity_pressure" then
    { name := "capacity_pressure", requestsTotalCap := 6, prefixGroups := 2, prefixBlocks := 1,
      tailBlocks := 3, tailUsesDfs := true, evictAfterRequest := 2 }
  else if profile = "dfs_heavy_fallback" then
    { name := "dfs_heavy_fallback", requestsTotalCap := 5, prefixGroups := 2, prefixBlocks := 1,
      tailBlocks := 4, tailUsesDfs := true, evictAfterRequest := 1 }
  else
    { name := "single_domain_basic", requestsTotalCap := 4, prefixGroups := 2, prefixBlocks := 2,
      tailBlocks := 2, tailUsesDfs := true, evictAfterRequest := 0 }

def isPrefixBlock (profile : Option RustLlmProfile) (blockIdx : ℕ) : Bool :=
  match profile with
  | some profile => blockIdx < profile.prefixBlocks
  | none => false

def usesDfsFallback (profile : Option RustLlmProfile) (blockIdx : ℕ) : Bool :=
  match profile with
  | some profile => profile.tailUsesDfs && decide (profile.prefixBlocks ≤ blockIdx)
  | none => false

def blockForRequest (workloadKind : String) (profile : Option RustLlmProfile)
    (requestIdx blockIdx uniquePrefixes : ℕ) : BlockHash :=
  let stablePrefixes := min (max uniquePrefixes 1) 8
  let prefixGroup :=
    requestIdx % min stablePrefixes (max ((profile.map (·.prefixGroups)).getD 2) 1)
  if workloadKind = "rust_llm_server_mvp" then
    if isPrefixBlock profile blockIdx then ⟨s!"prefix-{prefixGroup}-block-{blockIdx}"⟩
    else ⟨s!"tail-req-{requestIdx}-block-{blockIdx}"⟩
  else if workloadKind = "hotset_loop" then
    ⟨s!"hotset-prefix-{(requestIdx + blockIdx) % stablePrefixes}"⟩
  else ⟨s!"trace-block-{requestIdx}-{blockIdx}"⟩

end LinquUb
