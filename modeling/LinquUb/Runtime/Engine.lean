import LinquUb.Runtime.Queue

/-!
# The local runtime engine

`LocalRuntimeEngine` of `sim-runtime` keeps every accepted dispatch or copy in an in-flight table
and, while the operation waits to be issued, also in the pending submission queue.  `advanceTo`
issues what is queued, completes what is ready, and requeues or fails what has timed out.

Plain `u64` additions are checked as in the debug profile, so an operation of the engine returns
`none` exactly when the source would panic on an overflow.  The event sink is a list, and the
external process of the `SimplerProcess` mode is a parameter (`DispatchRunner`).
-/

namespace LinquUb

inductive RuntimeOpState
  | queued | issued | completed | failed
deriving DecidableEq, Repr

abbrev RuntimeOpKind := RuntimeWorkKind

/-- An operation of the in-flight table. -/
structure RuntimeOpRecord where
  opId : OpId
  kind : RuntimeOpKind
  backendSpec : Option DispatchBackendSpec
  task : TaskKey
  functionName : Option String
  targetLevel : Option PlLevel
  targetNode : Option NodeId
  inputSegmentCount : ℕ
  state : RuntimeOpState
  submittedAt : SimTimestamp
  issuedAt : Option SimTimestamp
  readyAt : SimTimestamp
  timeoutAt : SimTimestamp
  attempts : ℕ
deriving DecidableEq

inductive ChipBackendMode
  | localRuntime | simplerProcess
deriving DecidableEq, Repr

/-- The external dispatch adapter: success, or the failure code it reports. -/
abbrev DispatchRunner := RuntimeOpRecord → Except String Unit

structure LocalRuntimeEngine where
  now : SimTimestamp
  nextOpId : OpId
  backendMode : ChipBackendMode
  dispatchLatencyUs : SimTimestamp
  copyLatencyUs : SimTimestamp
  timeoutUs : SimTimestamp
  maxInflight : ℕ
  submissionQueue : SharedRuntimeExecutor (RuntimeWorkItem Unit)
  inflight : List RuntimeOpRecord
  completed : List CompletionEvent
deriving DecidableEq

/-- `iter_mut().find(p)` followed by an update of the element found. -/
def updateFirst {α : Type} (p : α → Bool) (f : α → Option α) : List α → Option (List α)
  | [] => some []
  | x :: xs =>
    if p x then do return (← f x) :: xs
    else do return x :: (← updateFirst p f xs)

namespace LocalRuntimeEngine

def withPolicy (dispatchLatencyUs copyLatencyUs timeoutUs : SimTimestamp)
    (maxInflight maxRetries : ℕ) : LocalRuntimeEngine :=
  { now := 0
    nextOpId := 0
    backendMode := .localRuntime
    dispatchLatencyUs
    copyLatencyUs
    timeoutUs
    maxInflight
    submissionQueue := .withPolicy 0 0 maxInflight maxRetries
    inflight := []
    completed := [] }

variable (self : LocalRuntimeEngine)

def ensureCapacity : Except SimError Unit :=
  if self.inflight.length ≥ self.maxInflight then .error (.invalidInput "runtime queue full")
  else .ok ()

/-! ### Submitting -/

/-- The part of an operation's record in which a dispatch and a copy differ. -/
structure OpDetails where
  backendSpec : Option DispatchBackendSpec := none
  functionName : Option String := none
  targetLevel : Option PlLevel := none
  targetNode : Option NodeId := none
  inputSegmentCount : ℕ := 0

/-- The record of an operation at its submission. -/
def queuedOp (opId : OpId) (kind : RuntimeOpKind) (task : TaskKey) (details : OpDetails)
    (now : SimTimestamp) : RuntimeOpRecord :=
  { opId, kind, task
    backendSpec := details.backendSpec
    functionName := details.functionName
    targetLevel := details.targetLevel
    targetNode := details.targetNode
    inputSegmentCount := details.inputSegmentCount
    state := .queued
    submittedAt := now
    issuedAt := none
    readyAt := 0
    timeoutAt := 0
    attempts := 0 }

/-- The body that the two submit functions share: a fresh operation is pushed into the in-flight
table and its work item is enqueued.  `sinkOnOk` is what a successful submit emits. -/
def submitOp (kind : RuntimeOpKind) (task : TaskKey) (details : OpDetails)
    (sinkOnOk sink : List SimEvent) :
    Option (Except SimError OpId × LocalRuntimeEngine × List SimEvent) :=
  match self.ensureCapacity with
  | .error e => some (.error e, self, sink)
  | .ok () => do
    let opId ← checkedAdd self.nextOpId 1
    let op := queuedOp opId kind task details self.now
    let recorded := { self with nextOpId := opId, inflight := self.inflight ++ [op] }
    match self.submissionQueue.enqueue { opId, kind, task := some task, payload := () } self.now with
    | .error e => return (.error e, recorded, sink)
    | .ok queue => return (.ok opId, { recorded with submissionQueue := queue }, sink ++ sinkOnOk)

def submitDispatch (req : DispatchRequest) (sink : List SimEvent) :
    Option (Except SimError DispatchHandle × LocalRuntimeEngine × List SimEvent) := do
  let (result, engine, sink) ← self.submitOp .dispatch req.task
    { backendSpec := req.backendSpec
      functionName := some req.function.name
      targetLevel := some req.targetLevel
      targetNode := some req.targetNode
      inputSegmentCount := req.inputSegments.length }
    [.dispatchSubmitted self.now req] sink
  return (result.map .mk, engine, sink)

def copyKind : CopyDirection → RuntimeOpKind
  | .hostToDevice => .hostToDeviceCopy
  | .deviceToHost => .deviceToHostCopy

def submitCopy (req : CopyRequest) (sink : List SimEvent) :
    Option (Except SimError TransferHandle × LocalRuntimeEngine × List SimEvent) := do
  let (result, engine, sink) ← self.submitOp (copyKind req.direction) req.task {} [] sink
  return (result.map .mk, engine, sink)

/-! ### Advancing -/

def latencyOf : RuntimeOpKind → SimTimestamp
  | .dispatch => self.dispatchLatencyUs
  | .hostToDeviceCopy | .deviceToHostCopy => self.copyLatencyUs
  | _ => 0

/-- Mark an operation as issued at `now`; its deadlines count from its submission. -/
def issueOp (now : SimTimestamp) (op : RuntimeOpRecord) : Option RuntimeOpRecord := do
  let readyAt ← checkedAdd op.submittedAt (self.latencyOf op.kind)
  let timeoutAt ← checkedAdd op.submittedAt self.timeoutUs
  return { op with state := .issued, issuedAt := some now, readyAt, timeoutAt }

/-- The callback of the drive in `advanceTo`. -/
def issueReady (now : SimTimestamp) (ready : RuntimeQueueRecord (RuntimeWorkItem Unit)) :
    StateT (List RuntimeOpRecord) Option (RuntimeDriveAction Unit) := fun inflight => do
  let inflight ← updateFirst
    (fun op => op.opId == ready.payload.opId && op.state == .queued) (self.issueOp now) inflight
  return (.complete, inflight)

/-- What the loop over the in-flight table carries along. -/
structure Progress where
  submissionQueue : SharedRuntimeExecutor (RuntimeWorkItem Unit)
  completed : List CompletionEvent
  sink : List SimEvent

def successEvent (op : RuntimeOpRecord) : CompletionEvent :=
  { opId := op.opId, task := some op.task, source := .chipBackend, status := .success,
    finishedAt := op.readyAt }

def failureEvent (op : RuntimeOpRecord) (code : String) (now : SimTimestamp) : CompletionEvent :=
  { opId := op.opId, task := some op.task, source := .chipBackend, status := .fatalFailure code,
    finishedAt := now }

/-- The completion of an issued operation whose latency has passed, and the failure it emits. -/
def completionOf (runner : DispatchRunner) (now : SimTimestamp) (op : RuntimeOpRecord) :
    CompletionEvent × List SimEvent :=
  match self.backendMode, op.kind with
  | .simplerProcess, .dispatch =>
    match runner op with
    | .ok () => (successEvent op, [])
    | .error code => (failureEvent op code now, [.runtimeFailed now op.opId code])
  | _, _ => (successEvent op, [])

def stateAfter : CompletionStatus → RuntimeOpState
  | .success => .completed
  | .retryableFailure _ | .fatalFailure _ => .failed

/-- Push a completion for `op`, after the events in `before`. -/
def Progress.finish (p : Progress) (completion : CompletionEvent) (before : List SimEvent) :
    Progress :=
  { p with
    completed := p.completed ++ [completion]
    sink := p.sink ++ before ++ [.completionObserved completion.finishedAt completion] }

/-- The queue record with which a timed-out operation asks for a retry. -/
def retryEntry (now : SimTimestamp) (op : RuntimeOpRecord) :
    RuntimeQueueRecord (RuntimeWorkItem Unit) :=
  { payload := { opId := op.opId, kind := op.kind, task := some op.task, payload := () }
    readyAt := now
    attempts := op.attempts }

/-- The operation as a granted retry leaves it. -/
def requeued (now : SimTimestamp) (op : RuntimeOpRecord) : RuntimeOpRecord :=
  { op with
    attempts := op.attempts + 1
    state := .queued
    submittedAt := now
    issuedAt := none
    readyAt := 0
    timeoutAt := 0 }

/-- The body of the loop over the in-flight table. -/
def settleOp (runner : DispatchRunner) (now : SimTimestamp) (op : RuntimeOpRecord) (p : Progress) :
    RuntimeOpRecord × Progress :=
  if op.state = .issued ∧ op.readyAt ≤ now then
    let (completion, before) := self.completionOf runner now op
    ({ op with state := stateAfter completion.status }, p.finish completion before)
  else if op.state = .issued ∧ op.timeoutAt ≤ now then
    match p.submissionQueue.retry (retryEntry now op) now with
    | (true, queue) =>
      (requeued now op,
        { p with
          submissionQueue := queue
          sink := p.sink ++ [.runtimeRetried now op.opId "timeout" (op.attempts + 1)] })
    | (false, queue) =>
      ({ op with state := .failed },
        { p with submissionQueue := queue }.finish (failureEvent op "timeout_exhausted" now)
          [.runtimeFailed now op.opId "timeout_exhausted"])
  else (op, p)

def settleOps (runner : DispatchRunner) (now : SimTimestamp) :
    List RuntimeOpRecord → Progress → List RuntimeOpRecord × Progress
  | [], p => ([], p)
  | op :: ops, p =>
    let (op, p) := self.settleOp runner now op p
    let (ops, p) := settleOps runner now ops p
    (op :: ops, p)

/-- The operation stays in the in-flight table. -/
def isLive (op : RuntimeOpRecord) : Bool :=
  match op.state with
  | .completed | .failed => false
  | _ => true

def advanceTo (runner : DispatchRunner) (now : SimTimestamp) (sink : List SimEvent) :
    Option (LocalRuntimeEngine × List SimEvent) := do
  let ((_, _, queue), inflight) ←
    (self.submissionQueue.driveReady now (self.issueReady now)).run self.inflight
  let (inflight, p) := self.settleOps runner now inflight
    { submissionQueue := queue, completed := self.completed, sink }
  return ({ self with
    now
    submissionQueue := p.submissionQueue
    inflight := inflight.filter isLive
    completed := p.completed }, p.sink)

def pollCompletions (runner : DispatchRunner) (now : SimTimestamp) (sink : List SimEvent) :
    Option (List CompletionEvent × LocalRuntimeEngine × List SimEvent) := do
  let (engine, sink) ← self.advanceTo runner now sink
  return (engine.completed, { engine with completed := [] }, sink)

end LocalRuntimeEngine

end LinquUb
