import LinquUb.Runtime.BlockStore
import LinquUb.Runtime.FromConfig

/-!
# Workload reports

`WorkloadRunReport` of `sim-report`, the trace that it carries and the summary that
`summarize_events` makes of the trace.

* `SimEvent` has the trace events of the engine, `TraceEvent` all of them;
* `summarizeEvents_completionsTotal`, `summarizeEvents_blocksEvicted` : what the summary counts.

Counters are natural numbers.
-/

namespace LinquUb

inductive TraceEvent
  | taskCreated (at_ : SimTimestamp) (task : TaskKey)
  | routePlanned (at_ : SimTimestamp) (task : TaskKey) (decision : RouteDecision)
  | blockPromoted (at_ : SimTimestamp) (block : BlockHash) (placement : BlockPlacement)
  | blockEvicted (at_ : SimTimestamp) (block : BlockHash) (from_ : BlockPlacement)
  | faultInjected (at_ : SimTimestamp) (fault : String)
  | runtime (event : SimEvent)
deriving DecidableEq

structure CompletionSourceStats where
  chipBackend : ℕ := 0
  blockService : ℕ := 0
  shmemService : ℕ := 0
  dfsService : ℕ := 0
  dbService : ℕ := 0
  guestUapi : ℕ := 0
  remoteNode : ℕ := 0
deriving DecidableEq, Repr

structure CompletionStatusStats where
  success : ℕ := 0
  retryableFailure : ℕ := 0
  fatalFailure : ℕ := 0
deriving DecidableEq, Repr

structure EventSummary where
  totalEvents : ℕ := 0
  tasksCreated : ℕ := 0
  routesPlanned : ℕ := 0
  blocksPromoted : ℕ := 0
  blocksEvicted : ℕ := 0
  dispatchSubmitted : ℕ := 0
  completionsTotal : ℕ := 0
  runtimeRetried : ℕ := 0
  runtimeFailed : ℕ := 0
  faultsInjected : ℕ := 0
  completionsBySource : CompletionSourceStats := {}
  completionsByStatus : CompletionStatusStats := {}
deriving DecidableEq, Repr

structure WorkloadRunReport where
  workloadKind : String
  workloadProfile : String
  requestsTotal : ℕ
  blocksTotal : ℕ
  hits : ℕ
  misses : ℕ
  prefixHits : ℕ
  tailMisses : ℕ
  fallbackReads : ℕ
  shmemPuts : ℕ
  shmemGets : ℕ
  shmemDenied : ℕ
  dfsColdReads : ℕ
  dfsWarmReads : ℕ
  blockReadMisses : ℕ
  blockWrites : ℕ
  blockWritebacks : ℕ
  blockRetryableFailures : ℕ
  blockQueueRejections : ℕ
  dfsSeedWrites : ℕ
  dbPuts : ℕ
  dbGets : ℕ
  dbRetryableFailures : ℕ
  promotions : ℕ
  evictions : ℕ
  completions : ℕ
  summary : EventSummary
  events : List TraceEvent
deriving DecidableEq

def baseWorkloadReport (workloadKind workloadProfile : String) (requestsTotal : ℕ) :
    WorkloadRunReport :=
  { workloadKind, workloadProfile, requestsTotal
    blocksTotal := 0, hits := 0, misses := 0, prefixHits := 0, tailMisses := 0
    fallbackReads := 0, shmemPuts := 0, shmemGets := 0, shmemDenied := 0
    dfsColdReads := 0, dfsWarmReads := 0, blockReadMisses := 0, blockWrites := 0
    blockWritebacks := 0, blockRetryableFailures := 0, blockQueueRejections := 0
    dfsSeedWrites := 0, dbPuts := 0, dbGets := 0, dbRetryableFailures := 0
    promotions := 0, evictions := 0, completions := 0
    summary := {}
    events := [] }

/-! ### The summary -/

def CompletionSourceStats.count (self : CompletionSourceStats) :
    CompletionSource → CompletionSourceStats
  | .chipBackend => { self with chipBackend := self.chipBackend + 1 }
  | .blockService => { self with blockService := self.blockService + 1 }
  | .shmemService => { self with shmemService := self.shmemService + 1 }
  | .dfsService => { self with dfsService := self.dfsService + 1 }
  | .dbService => { self with dbService := self.dbService + 1 }
  | .guestUapi => { self with guestUapi := self.guestUapi + 1 }
  | .remoteNode => { self with remoteNode := self.remoteNode + 1 }

def CompletionStatusStats.count (self : CompletionStatusStats) :
    CompletionStatus → CompletionStatusStats
  | .success => { self with success := self.success + 1 }
  | .retryableFailure _ => { self with retryableFailure := self.retryableFailure + 1 }
  | .fatalFailure _ => { self with fatalFailure := self.fatalFailure + 1 }

/-- The body of the loop over the events. -/
def EventSummary.count (self : EventSummary) : TraceEvent → EventSummary
  | .taskCreated .. => { self with tasksCreated := self.tasksCreated + 1 }
  | .routePlanned .. => { self with routesPlanned := self.routesPlanned + 1 }
  | .blockPromoted .. => { self with blocksPromoted := self.blocksPromoted + 1 }
  | .blockEvicted .. => { self with blocksEvicted := self.blocksEvicted + 1 }
  | .runtime (.dispatchSubmitted ..) =>
    { self with dispatchSubmitted := self.dispatchSubmitted + 1 }
  | .runtime (.completionObserved _ completion) =>
    { self with
      completionsTotal := self.completionsTotal + 1
      completionsBySource := self.completionsBySource.count completion.source
      completionsByStatus := self.completionsByStatus.count completion.status }
  | .runtime (.runtimeRetried ..) => { self with runtimeRetried := self.runtimeRetried + 1 }
  | .runtime (.runtimeFailed ..) => { self with runtimeFailed := self.runtimeFailed + 1 }
  | .faultInjected .. => { self with faultsInjected := self.faultsInjected + 1 }

def summarizeEvents (events : List TraceEvent) : EventSummary :=
  events.foldl EventSummary.count { totalEvents := events.length }

/-! ### What the trace tells -/

/-- The event is the observation of a completion. -/
def SimEvent.observes : SimEvent → Bool
  | .completionObserved .. => true
  | _ => false

def TraceEvent.observes : TraceEvent → Bool
  | .runtime event => event.observes
  | _ => false

/-- The number of completions that a trace observes. -/
def observed (events : List TraceEvent) : ℕ := events.countP (·.observes)

/-- The block whose eviction the event reports. -/
def TraceEvent.evictedBlock : TraceEvent → Option BlockHash
  | .blockEvicted _ block _ => some block
  | _ => none

/-- The blocks whose eviction a trace reports. -/
def evictedBlocks (events : List TraceEvent) : List BlockHash :=
  events.filterMap (·.evictedBlock)

variable {events events' : List TraceEvent}

@[simp] theorem observed_append :
    observed (events ++ events') = observed events + observed events' :=
  List.countP_append

@[simp] theorem evictedBlocks_append :
    evictedBlocks (events ++ events') = evictedBlocks events ++ evictedBlocks events' :=
  List.filterMap_append

theorem foldl_count_completionsTotal (summary : EventSummary) :
    (events.foldl EventSummary.count summary).completionsTotal =
      summary.completionsTotal + observed events := by
  induction events generalizing summary with
  | nil => rfl
  | cons event events ih =>
    rw [List.foldl_cons, ih, observed, observed, List.countP_cons]
    rcases event with _ | _ | _ | _ | _ | (_ | _ | _ | _)
    all_goals simp only [EventSummary.count, TraceEvent.observes, SimEvent.observes, if_true,
      Bool.false_eq_true, if_false]
    all_goals omega

theorem foldl_count_blocksEvicted (summary : EventSummary) :
    (events.foldl EventSummary.count summary).blocksEvicted =
      summary.blocksEvicted + (evictedBlocks events).length := by
  induction events generalizing summary with
  | nil => rfl
  | cons event events ih =>
    rw [List.foldl_cons, ih, evictedBlocks, evictedBlocks, List.filterMap_cons]
    rcases event with _ | _ | _ | _ | _ | (_ | _ | _ | _)
    all_goals simp only [EventSummary.count, TraceEvent.evictedBlock, List.length_cons]
    all_goals omega

/-- The summary counts the completions of the trace. -/
theorem summarizeEvents_completionsTotal (events : List TraceEvent) :
    (summarizeEvents events).completionsTotal = observed events := by
  rw [summarizeEvents, foldl_count_completionsTotal]
  exact Nat.zero_add _

/-- The summary counts the evictions of the trace. -/
theorem summarizeEvents_blocksEvicted (events : List TraceEvent) :
    (summarizeEvents events).blocksEvicted = (evictedBlocks events).length := by
  rw [summarizeEvents, foldl_count_blocksEvicted]
  exact Nat.zero_add _

end LinquUb
