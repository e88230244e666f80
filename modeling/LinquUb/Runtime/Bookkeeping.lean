import LinquUb.Runtime.Engine
import LinquUb.LTS.Run
import Mathlib.Data.List.Perm.Basic

/-!
# Bookkeeping of the runtime engine

A `Ledger` is an engine with the history of one run: the ids it accepted and the completions it
handed out.  The in-flight table and the pending queue are updated in different places, and the
invariant `Ledger.Inv` links both of them, and the history, by permutations of op ids:

* accepted ids are the in-flight ids together with the completed ids;
* ids of queued operations are the ids pending in the submission queue.

`settleOps_spec` is what the loop of `advanceTo` does to these lists, `Ledger.step_inv` that every
call keeps the invariant, and `Ledger.bookkeeping` the resulting guarantee for every run.
-/

namespace LinquUb

open LocalRuntimeEngine

/-! ### Ids -/

/-- The ids of the operations that wait to be issued. -/
def queuedIds (ops : List RuntimeOpRecord) : List OpId :=
  (ops.filter fun op => op.state == .queued).map (·.opId)

/-- The ids of all operations of a table. -/
def opIds (ops : List RuntimeOpRecord) : List OpId := ops.map (·.opId)

/-- The ids of the operations that stay in the table when the finished ones are dropped. -/
def liveIds (ops : List RuntimeOpRecord) : List OpId := opIds (ops.filter isLive)

/-- The ids of the records pending in a submission queue. -/
def pendingIds (records : List (RuntimeQueueRecord (RuntimeWorkItem Unit))) : List OpId :=
  records.map (·.payload.opId)

/-- The ids of a list of completions. -/
def completedIds (events : List CompletionEvent) : List OpId := events.map (·.opId)

/-- Every operation of the table is queued or issued. -/
def AllLive (ops : List RuntimeOpRecord) : Prop :=
  ∀ op ∈ ops, op.state = .queued ∨ op.state = .issued

@[simp] theorem queuedIds_nil : queuedIds [] = [] := rfl

theorem queuedIds_cons (op : RuntimeOpRecord) (ops : List RuntimeOpRecord) :
    queuedIds (op :: ops) =
      if op.state = .queued then op.opId :: queuedIds ops else queuedIds ops := by
  by_cases h : op.state = .queued <;> simp [queuedIds, h]

theorem liveIds_cons (op : RuntimeOpRecord) (ops : List RuntimeOpRecord) :
    liveIds (op :: ops) = if isLive op then op.opId :: liveIds ops else liveIds ops := by
  by_cases h : isLive op <;> simp [liveIds, opIds, h]

theorem liveIds_append (ops ops' : List RuntimeOpRecord) :
    liveIds (ops ++ ops') = liveIds ops ++ liveIds ops' := by
  simp [liveIds, opIds]

theorem queuedIds_append (ops ops' : List RuntimeOpRecord) :
    queuedIds (ops ++ ops') = queuedIds ops ++ queuedIds ops' := by
  simp [queuedIds]

/-- Dropping finished operations drops no queued one. -/
theorem queuedIds_filter_isLive (ops : List RuntimeOpRecord) :
    queuedIds (ops.filter isLive) = queuedIds ops := by
  induction ops with
  | nil => rfl
  | cons op ops ih =>
    rw [List.filter_cons, queuedIds_cons]
    cases hst : op.state <;> simp [isLive, hst, queuedIds_cons, ih]

theorem allLive_filter_isLive (ops : List RuntimeOpRecord) : AllLive (ops.filter isLive) := by
  intro op hop
  have hlive := (List.mem_filter.1 hop).2
  cases hst : op.state <;> simp_all [isLive]

/-! ### Issuing -/

/-- Issue the first queued operation with the given id. -/
def issueFirst (self : LocalRuntimeEngine) (now : SimTimestamp) (id : OpId) :
    List RuntimeOpRecord → Option (List RuntimeOpRecord) :=
  updateFirst (fun op => op.opId == id && op.state == .queued) (self.issueOp now)

theorem issueOp_eq_some {self : LocalRuntimeEngine} {now : SimTimestamp}
    {op op' : RuntimeOpRecord} (h : self.issueOp now op = some op') :
    op'.opId = op.opId ∧ op'.state = .issued := by
  simp only [issueOp, Option.bind_eq_bind, Option.bind_eq_some_iff] at h
  obtain ⟨readyAt, _, timeoutAt, _, hop⟩ := h
  rw [← Option.some.inj hop]
  exact ⟨rfl, rfl⟩

/-- Issuing keeps the ids of the table, and takes one occurrence of the id issued from the
queued ones. -/
theorem issueFirst_spec {self : LocalRuntimeEngine} {now : SimTimestamp} {id : OpId}
    {ops ops' : List RuntimeOpRecord} (h : issueFirst self now id ops = some ops')
    (hlive : AllLive ops) :
    opIds ops' = opIds ops ∧ AllLive ops' ∧
      (id ∈ queuedIds ops → (queuedIds ops).Perm (id :: queuedIds ops')) := by
  induction ops generalizing ops' with
  | nil =>
    simp only [issueFirst, updateFirst, Option.some.injEq] at h
    subst h
    exact ⟨rfl, hlive, by simp⟩
  | cons op ops ih =>
    simp only [issueFirst, updateFirst] at h
    have hop := hlive op (List.mem_cons_self ..)
    have hops : AllLive ops := fun x hx => hlive x (List.mem_cons_of_mem _ hx)
    split_ifs at h with hp
    · -- the operation found
      simp only [Option.bind_eq_bind, Option.bind_eq_some_iff] at h
      obtain ⟨op', hissue, hcons⟩ := h
      obtain ⟨hid, hst⟩ := issueOp_eq_some hissue
      rw [← Option.some.inj hcons]
      simp only [Bool.and_eq_true, beq_iff_eq] at hp
      refine ⟨by simp [opIds, hid], ?_, fun _ => ?_⟩
      · intro x hx
        rcases List.mem_cons.1 hx with rfl | hx
        · exact .inr hst
        · exact hops x hx
      · simp [queuedIds_cons, hp, hst]
    · simp only [Option.bind_eq_bind, Option.bind_eq_some_iff] at h
      obtain ⟨rest, hrest, hcons⟩ := h
      rw [← Option.some.inj hcons]
      obtain ⟨hids, hlive', hperm⟩ := ih hrest hops
      refine ⟨by simpa [opIds] using hids, ?_, fun hmem => ?_⟩
      · intro x hx
        rcases List.mem_cons.1 hx with rfl | hx
        · exact hop
        · exact hlive' x hx
      · rw [queuedIds_cons] at hmem ⊢
        rw [queuedIds_cons]
        by_cases hq : op.state = .queued
        · have hne : op.opId ≠ id := fun he => hp (by simp [he, hq])
          simp only [hq, if_true, List.mem_cons] at hmem ⊢
          have := hperm (hmem.resolve_left fun he => hne he.symm)
          exact (this.cons _).trans (List.Perm.swap ..)
        · simp only [hq, if_false] at hmem ⊢
          exact hperm hmem

/-- Issue the operations of the drained records, in order. -/
def issueAll (self : LocalRuntimeEngine) (now : SimTimestamp) (ids : List OpId)
    (ops : List RuntimeOpRecord) : Option (List RuntimeOpRecord) :=
  LTS.run (fun ops id => issueFirst self now id ops) ops ids

theorem issueAll_spec {self : LocalRuntimeEngine} {now : SimTimestamp} {ids rest : List OpId}
    {ops ops' : List RuntimeOpRecord} (h : issueAll self now ids ops = some ops')
    (hlive : AllLive ops) (hqueued : (queuedIds ops).Perm (ids ++ rest)) :
    opIds ops' = opIds ops ∧ AllLive ops' ∧ (queuedIds ops').Perm rest := by
  induction ids generalizing ops with
  | nil =>
    cases Option.some.inj h
    exact ⟨rfl, hlive, hqueued⟩
  | cons id ids ih =>
    obtain ⟨ops₁, hfirst, hrun⟩ := LTS.run_cons_eq_some.1 h
    obtain ⟨hids, hlive₁, hperm⟩ := issueFirst_spec hfirst hlive
    have hmem : id ∈ queuedIds ops := hqueued.mem_iff.2 (by simp)
    have hqueued₁ := ((hperm hmem).symm.trans hqueued).cons_inv
    obtain ⟨hids', hlive', hrest⟩ := ih hrun hlive₁ hqueued₁
    exact ⟨hids'.trans hids, hlive', hrest⟩

theorem foldlM_issueReady (self : LocalRuntimeEngine) (now : SimTimestamp)
    (ready : List (RuntimeQueueRecord (RuntimeWorkItem Unit)))
    (acc : SharedRuntimeQueue (RuntimeWorkItem Unit) × List Unit) (ops : List RuntimeOpRecord) :
    (ready.foldlM (fun acc entry => do
      return SharedRuntimeExecutor.settle now entry acc (← self.issueReady now entry)) acc).run ops
      = (issueAll self now (pendingIds ready) ops).map fun ops' => (acc, ops') := by
  induction ready generalizing ops with
  | nil => rfl
  | cons entry ready ih =>
    have hentry : (self.issueReady now entry).run ops =
        (issueFirst self now entry.payload.opId ops).map fun ops' => (.complete, ops') := by
      simp only [StateT.run, issueReady, issueFirst]
      cases updateFirst (fun op => op.opId == entry.payload.opId && op.state == .queued)
        (self.issueOp now) ops <;> rfl
    simp only [List.foldlM_cons, StateT.run_bind, hentry, pendingIds, List.map_cons, issueAll,
      LTS.run]
    cases issueFirst self now entry.payload.opId ops with
    | none => rfl
    | some ops₁ => exact ih ops₁

/-- The drive of `advanceTo` drains the queue and issues what it drained. -/
theorem driveReady_issueReady (self : LocalRuntimeEngine) (now : SimTimestamp)
    (exec : SharedRuntimeExecutor (RuntimeWorkItem Unit)) (ops : List RuntimeOpRecord) :
    (exec.driveReady now (self.issueReady now)).run ops =
      (issueAll self now (pendingIds (exec.queue.drainReady now).1) ops).map fun ops' =>
        (([], (exec.queue.drainReady now).2.1, ⟨(exec.queue.drainReady now).2.2⟩), ops') := by
  simp only [SharedRuntimeExecutor.driveReady, StateT.run_bind, foldlM_issueReady]
  cases issueAll self now (pendingIds (exec.queue.drainReady now).1) ops <;> rfl

/-! ### Settling -/

theorem retry_submission (exec : SharedRuntimeExecutor (RuntimeWorkItem Unit))
    (entry : RuntimeQueueRecord (RuntimeWorkItem Unit)) (now : SimTimestamp) :
    (∃ queue, exec.retry entry now = (true, queue) ∧
        pendingIds queue.queue.pending = pendingIds exec.queue.pending ++ [entry.payload.opId] ∧
        queue.queue.queueDepth = exec.queue.queueDepth) ∨
      exec.retry entry now = (false, exec) := by
  unfold SharedRuntimeExecutor.retry
  rcases exec.queue.retry_spec entry now with ⟨_, h⟩ | ⟨_, h⟩ <;> rw [h]
  · exact .inl ⟨_, rfl, by simp [pendingIds], rfl⟩
  · exact .inr rfl

theorem completionOf_opId (self : LocalRuntimeEngine) (runner : DispatchRunner)
    (now : SimTimestamp) (op : RuntimeOpRecord) :
    (self.completionOf runner now op).1.opId = op.opId := by
  unfold completionOf
  split
  · split <;> rfl
  · rfl

theorem isLive_stateAfter (op : RuntimeOpRecord) (status : CompletionStatus) :
    isLive { op with state := stateAfter status } = false := by
  cases status <;> rfl

theorem stateAfter_ne_queued (status : CompletionStatus) : stateAfter status ≠ .queued := by
  cases status <;> simp [stateAfter]

/-- What one round of the settling loop does to the four lists: the operation either stays live or
is completed once, and an operation that becomes queued is pending again. -/
theorem settleOp_spec {self : LocalRuntimeEngine} {runner : DispatchRunner} {now : SimTimestamp}
    {op op' : RuntimeOpRecord} {p p' : Progress} (hlive : op.state = .queued ∨ op.state = .issued)
    (h : self.settleOp runner now op p = (op', p')) :
    (liveIds [op'] ++ completedIds p'.completed).Perm (op.opId :: completedIds p.completed) ∧
      (pendingIds p'.submissionQueue.queue.pending ++ queuedIds [op]).Perm
        (pendingIds p.submissionQueue.queue.pending ++ queuedIds [op']) ∧
      p'.submissionQueue.queue.queueDepth = p.submissionQueue.queue.queueDepth := by
  have hcons (ids : List OpId) : (ids ++ [op.opId]).Perm (op.opId :: ids) :=
    List.perm_append_singleton op.opId ids
  unfold settleOp at h
  split_ifs at h with hready htimeout
  · -- completed
    have hid := completionOf_opId self runner now op
    rcases hc : self.completionOf runner now op with ⟨completion, before⟩
    simp only [hc] at h hid
    obtain ⟨rfl, rfl⟩ := Prod.mk.inj h
    refine ⟨?_, ?_, rfl⟩
    · simp only [liveIds_cons, isLive_stateAfter, completedIds, Progress.finish, List.map_append,
        List.map_cons, List.map_nil, hid]
      exact hcons _
    · simp [queuedIds_cons, hready.1, stateAfter_ne_queued, Progress.finish]
  · rcases retry_submission p.submissionQueue (retryEntry now op) now with
      ⟨queue, hretry, hpending, hdepth⟩ | hretry <;> simp only [hretry, Prod.mk.injEq] at h
    · -- requeued
      obtain ⟨rfl, rfl⟩ := h
      refine ⟨.rfl, ?_, hdepth⟩
      rw [hpending]
      simp [queuedIds_cons, htimeout.1, requeued, retryEntry]
    · -- retries exhausted
      obtain ⟨rfl, rfl⟩ := h
      refine ⟨?_, ?_, rfl⟩
      · simp only [completedIds, Progress.finish, failureEvent, List.map_append]
        exact hcons _
      · simp [queuedIds_cons, htimeout.1, Progress.finish]
  · obtain ⟨rfl, rfl⟩ := Prod.mk.inj h
    refine ⟨?_, .rfl, rfl⟩
    rcases hlive with hst | hst <;> simp [liveIds_cons, isLive, hst] <;> exact .rfl

/-- **The settling loop**: live ids and completed ids together are the ids it started with, and the
queue gains exactly the ids that became queued. -/
theorem settleOps_spec {self : LocalRuntimeEngine} {runner : DispatchRunner} {now : SimTimestamp}
    {ops ops' : List RuntimeOpRecord} {p p' : Progress} (hlive : AllLive ops)
    (h : self.settleOps runner now ops p = (ops', p')) :
    (liveIds ops' ++ completedIds p'.completed).Perm (opIds ops ++ completedIds p.completed) ∧
      (pendingIds p'.submissionQueue.queue.pending ++ queuedIds ops).Perm
        (pendingIds p.submissionQueue.queue.pending ++ queuedIds ops') ∧
      p'.submissionQueue.queue.queueDepth = p.submissionQueue.queue.queueDepth ∧
      ops'.length = ops.length := by
  induction ops generalizing ops' p with
  | nil =>
    obtain ⟨rfl, rfl⟩ := Prod.mk.inj h
    exact ⟨.rfl, .rfl, rfl, rfl⟩
  | cons op ops ih =>
    rcases hop : self.settleOp runner now op p with ⟨op₁, p₁⟩
    rcases hrest : self.settleOps runner now ops p₁ with ⟨ops₁, p₂⟩
    simp only [settleOps, hop, hrest, Prod.mk.injEq] at h
    obtain ⟨rfl, rfl⟩ := h
    obtain ⟨hids, hq, hd⟩ := settleOp_spec (hlive op (List.mem_cons_self ..)) hop
    obtain ⟨hids', hq', hd', hlen⟩ := ih (fun x hx => hlive x (List.mem_cons_of_mem _ hx)) hrest
    rw [show op₁ :: ops₁ = [op₁] ++ ops₁ from rfl, show op :: ops = [op] ++ ops from rfl,
      liveIds_append, queuedIds_append, queuedIds_append]
    refine ⟨?_, ?_, hd'.trans hd, by simp [hlen]⟩
    · rw [List.perm_iff_count] at hids hids' ⊢
      intro id
      have h₁ := hids id
      have h₂ := hids' id
      simp only [opIds, List.map_append, List.map_cons, List.map_nil, List.count_append,
        List.count_cons, List.count_nil] at h₁ h₂ ⊢
      omega
    · rw [List.perm_iff_count] at hq hq' ⊢
      intro id
      have h₁ := hq id
      have h₂ := hq' id
      simp only [List.count_append] at h₁ h₂ ⊢
      omega

/-! ### The ledger of a run -/

/-- The calls of the engine's interface. -/
inductive EngineCall
  | submitDispatch (req : DispatchRequest)
  | submitCopy (req : CopyRequest)
  | advanceTo (now : SimTimestamp)
  | pollCompletions (now : SimTimestamp)
deriving DecidableEq

/-- The time to which a call advances the engine. -/
def EngineCall.time : EngineCall → Option SimTimestamp
  | .submitDispatch _ | .submitCopy _ => none
  | .advanceTo now | .pollCompletions now => some now

/-- An engine, its event sink and the history of its run. -/
structure Ledger where
  engine : LocalRuntimeEngine
  sink : List SimEvent
  /-- Ids that a submit returned, in order. -/
  accepted : List OpId
  /-- Completions that a poll returned, in order. -/
  polled : List CompletionEvent
deriving DecidableEq

namespace Ledger

/-- A new engine, before any call. -/
def start (engine : LocalRuntimeEngine) : Ledger :=
  { engine, sink := [], accepted := [], polled := [] }

/-- Record the outcome of a submit. -/
def submitted (l : Ledger) : Except SimError OpId × LocalRuntimeEngine × List SimEvent → Ledger
  | (.ok opId, engine, sink) => { l with engine, sink, accepted := l.accepted ++ [opId] }
  | (.error _, engine, sink) => { l with engine, sink }

def step (runner : DispatchRunner) (l : Ledger) : EngineCall → Option Ledger
  | .submitDispatch req => do
    let (result, rest) ← l.engine.submitDispatch req l.sink
    return l.submitted (result.map (·.id), rest)
  | .submitCopy req => do
    let (result, rest) ← l.engine.submitCopy req l.sink
    return l.submitted (result.map (·.id), rest)
  | .advanceTo now => do
    let (engine, sink) ← l.engine.advanceTo runner now l.sink
    return { l with engine, sink }
  | .pollCompletions now => do
    let (events, engine, sink) ← l.engine.pollCompletions runner now l.sink
    return { l with engine, sink, polled := l.polled ++ events }

/-- The completions pushed so far, handed out or not. -/
def pushed (l : Ledger) : List CompletionEvent := l.polled ++ l.engine.completed

/-- The link between the in-flight table, the pending queue and the history. -/
structure Inv (l : Ledger) : Prop where
  accepted : l.accepted.map (·.toNat) = List.range' 1 l.engine.nextOpId.toNat
  live : AllLive l.engine.inflight
  partition : (opIds l.engine.inflight ++ completedIds l.pushed).Perm l.accepted
  queued : (pendingIds l.engine.submissionQueue.queue.pending).Perm (queuedIds l.engine.inflight)
  bounded : l.engine.inflight.length ≤ l.engine.maxInflight
  depth : l.engine.submissionQueue.queue.queueDepth = l.engine.maxInflight

variable {l l' : Ledger}

theorem start_inv (dispatchLatencyUs copyLatencyUs timeoutUs : SimTimestamp)
    (maxInflight maxRetries : ℕ) :
    (start (withPolicy dispatchLatencyUs copyLatencyUs timeoutUs maxInflight maxRetries)).Inv where
  accepted := rfl
  live := by simp [AllLive, start, withPolicy]
  partition := .rfl
  queued := .rfl
  bounded := Nat.zero_le _
  depth := rfl

theorem Inv.pending_length (hl : l.Inv) :
    l.engine.submissionQueue.queue.pending.length ≤ l.engine.inflight.length := by
  have h := hl.queued.length_eq
  simp only [pendingIds, queuedIds, List.length_map] at h
  exact h ▸ List.length_filter_le ..

/-- **A submit on a ledger with the invariant**: it is refused by the capacity check and changes
nothing, or it records one queued operation and enqueues its work item. -/
theorem Inv.submitOp_cases (hl : l.Inv) {kind : RuntimeOpKind} {task : TaskKey}
    {details : OpDetails} {onOk sink : List SimEvent} {result : Except SimError OpId}
    {engine : LocalRuntimeEngine} {sink' : List SimEvent}
    (h : l.engine.submitOp kind task details onOk sink = some (result, engine, sink')) :
    (result = .error (.invalidInput "runtime queue full") ∧ engine = l.engine ∧ sink' = sink ∧
        l.engine.maxInflight ≤ l.engine.inflight.length) ∨
      ∃ opId, result = .ok opId ∧ opId.toNat = l.engine.nextOpId.toNat + 1 ∧
        l.engine.inflight.length < l.engine.maxInflight ∧
        engine = { l.engine with
          nextOpId := opId
          inflight := l.engine.inflight ++ [queuedOp opId kind task details l.engine.now]
          submissionQueue := ⟨{ l.engine.submissionQueue.queue with
            pending := l.engine.submissionQueue.queue.pending ++
              [{ payload := { opId, kind, task := some task, payload := () }
                 readyAt := saturatingAdd l.engine.now
                   l.engine.submissionQueue.queue.issueLatencyUs
                 attempts := 0 }] }⟩ } ∧
        sink' = sink ++ onOk := by
  unfold submitOp ensureCapacity at h
  split_ifs at h with hfull
  · simp only [Option.some.injEq, Prod.mk.injEq] at h
    exact .inl ⟨h.1.symm, h.2.1.symm, h.2.2.symm, hfull⟩
  · simp only [Option.bind_eq_bind, Option.bind_eq_some_iff] at h
    obtain ⟨opId, hid, h⟩ := h
    have hlen := hl.pending_length
    have hdepth := hl.depth
    have hroom : ¬l.engine.submissionQueue.queue.pending.length ≥
        l.engine.submissionQueue.queue.queueDepth := by omega
    simp only [SharedRuntimeExecutor.enqueue, SharedRuntimeQueue.enqueue, if_neg hroom, Except.map,
      Option.pure_def, Option.some.injEq, Prod.mk.injEq] at h
    refine .inr ⟨opId, h.1.symm, ?_, by omega, h.2.1.symm, h.2.2.symm⟩
    unfold checkedAdd at hid
    split_ifs at hid with hlt
    rw [← Option.some.inj hid, UInt64.toNat_add]
    exact Nat.mod_eq_of_lt hlt

theorem submitted_inv (hl : l.Inv) {kind : RuntimeOpKind} {task : TaskKey} {details : OpDetails}
    {onOk : List SimEvent} {out : Except SimError OpId × LocalRuntimeEngine × List SimEvent}
    (h : l.engine.submitOp kind task details onOk l.sink = some out) : (l.submitted out).Inv := by
  obtain ⟨result, engine, sink⟩ := out
  rcases hl.submitOp_cases h with ⟨rfl, rfl, rfl, _⟩ |
    ⟨opId, rfl, hid, hroom, rfl, rfl⟩
  · exact { hl with }
  · refine ⟨?_, ?_, ?_, ?_, ?_, hl.depth⟩
    · simp only [submitted, List.map_append, List.map_cons, List.map_nil, hl.accepted, hid]
      rw [List.range'_concat]
      simp [Nat.add_comm]
    · intro op hop
      rcases List.mem_append.1 hop with hop | hop
      · exact hl.live op hop
      · rw [List.mem_singleton.1 hop]
        exact .inl rfl
    · have hp := hl.partition
      rw [List.perm_iff_count] at hp ⊢
      intro id
      have := hp id
      simp only [submitted, pushed, opIds, List.map_append, List.map_cons, List.map_nil,
        List.count_append, queuedOp] at this ⊢
      omega
    · simp only [submitted, pendingIds, List.map_append, queuedIds_append]
      refine hl.queued.append ?_
      simp [queuedIds_cons, queuedOp]
    · simp only [submitted, List.length_append, List.length_singleton]
      omega

/-- The drained and the deferred records together are the pending ones. -/
theorem drainReady_perm (queue : SharedRuntimeQueue (RuntimeWorkItem Unit)) (now : SimTimestamp) :
    (pendingIds (queue.drainReady now).1 ++ pendingIds (queue.drainReady now).2.2.pending).Perm
      (pendingIds queue.pending) := by
  simp only [SharedRuntimeQueue.drainReady, pendingIds, ← List.map_append]
  exact (List.filter_append_perm ..).map _

/-- **`advanceTo` keeps the books.** -/
theorem advanceTo_inv (hl : l.Inv) {runner : DispatchRunner} {now : SimTimestamp}
    {engine : LocalRuntimeEngine} {sink : List SimEvent}
    (h : l.engine.advanceTo runner now l.sink = some (engine, sink)) :
    { l with engine, sink }.Inv := by
  simp only [advanceTo, driveReady_issueReady, Option.bind_eq_bind, Option.bind_eq_some_iff,
    Option.map_eq_some_iff] at h
  obtain ⟨_, ⟨issued, hissue, rfl⟩, h⟩ := h
  -- first the drive: the drained ids are issued, the deferred ones stay queued
  obtain ⟨hids, hlive, hqueued⟩ := issueAll_spec hissue hl.live
    (hl.queued.symm.trans (drainReady_perm ..).symm)
  -- then the loop over the table
  rcases hsettle : l.engine.settleOps runner now issued
    { submissionQueue := ⟨(l.engine.submissionQueue.queue.drainReady now).2.2⟩
      completed := l.engine.completed
      sink := l.sink } with ⟨ops, p⟩
  obtain ⟨hdone, hpending, hdepth, hlen⟩ := settleOps_spec hlive hsettle
  simp only [hsettle, Option.pure_def, Option.some.injEq, Prod.mk.injEq] at h
  obtain ⟨rfl, rfl⟩ := h
  have hissued : issued.length = l.engine.inflight.length := by
    simpa [opIds] using congrArg List.length hids
  refine ⟨hl.accepted, allLive_filter_isLive ops, ?_, ?_, ?_, hdepth.trans hl.depth⟩
  · refine List.Perm.trans ?_ hl.partition
    rw [hids] at hdone
    rw [List.perm_iff_count] at hdone ⊢
    intro id
    have := hdone id
    simp only [pushed, liveIds, completedIds, List.map_append, List.count_append] at this ⊢
    omega
  · rw [queuedIds_filter_isLive]
    refine (List.perm_append_left_iff _).1 (List.Perm.trans ?_ hpending)
    exact List.perm_append_comm.trans (hqueued.symm.append_left _)
  · exact (List.length_filter_le ..).trans (by rw [hlen, hissued]; exact hl.bounded)

/-- **What a call does**: it submits an operation, or it advances the engine and then may hand out
the completions. -/
theorem step_cases {runner : DispatchRunner} {call : EngineCall}
    (h : step runner l call = some l') :
    (∃ kind task details onOk out, call.time = none ∧
        (onOk = [] ∨ ∃ req, onOk = [.dispatchSubmitted l.engine.now req]) ∧
        l.engine.submitOp kind task details onOk l.sink = some out ∧ l' = l.submitted out) ∨
      ∃ now engine sink, call.time = some now ∧
        l.engine.advanceTo runner now l.sink = some (engine, sink) ∧
        l'.engine = { engine with completed := l'.engine.completed } ∧ l'.sink = sink ∧
        l'.accepted = l.accepted ∧ l'.pushed = l.polled ++ engine.completed := by
  cases call with
  | submitDispatch req =>
    simp only [step, submitDispatch, Option.bind_eq_bind, Option.bind_eq_some_iff] at h
    obtain ⟨_, ⟨⟨result, out⟩, hsubmit, h₁⟩, h₂⟩ := h
    cases Option.some.inj h₁
    cases Option.some.inj h₂
    exact .inl ⟨_, _, _, _, _, rfl, .inr ⟨req, rfl⟩, hsubmit, by cases result <;> rfl⟩
  | submitCopy req =>
    simp only [step, submitCopy, Option.bind_eq_bind, Option.bind_eq_some_iff] at h
    obtain ⟨_, ⟨⟨result, out⟩, hsubmit, h₁⟩, h₂⟩ := h
    cases Option.some.inj h₁
    cases Option.some.inj h₂
    exact .inl ⟨_, _, _, _, _, rfl, .inl rfl, hsubmit, by cases result <;> rfl⟩
  | advanceTo now =>
    simp only [step, Option.bind_eq_bind, Option.bind_eq_some_iff] at h
    obtain ⟨⟨engine, sink⟩, hadvance, h⟩ := h
    cases Option.some.inj h
    exact .inr ⟨now, engine, sink, rfl, hadvance, rfl, rfl, rfl, rfl⟩
  | pollCompletions now =>
    simp only [step, pollCompletions, Option.bind_eq_bind, Option.bind_eq_some_iff] at h
    obtain ⟨_, ⟨⟨engine, sink⟩, hadvance, h₁⟩, h₂⟩ := h
    cases Option.some.inj h₁
    cases Option.some.inj h₂
    exact .inr ⟨now, engine, sink, rfl, hadvance, rfl, rfl, rfl, List.append_nil _⟩

theorem step_inv (runner : DispatchRunner) : LTS.Keeps (step runner) Inv := by
  intro l call l' hl h
  rcases step_cases h with ⟨_, _, _, _, out, -, -, hsubmit, rfl⟩ |
    ⟨now, engine, sink, -, hadvance, hengine, hsink, haccepted, hpushed⟩
  · exact submitted_inv hl hsubmit
  · have hinv := advanceTo_inv hl hadvance
    refine ⟨?_, ?_, ?_, ?_, ?_, ?_⟩
    · rw [haccepted, hengine]
      exact hinv.accepted
    · rw [hengine]
      exact hinv.live
    · rw [hpushed, haccepted, hengine]
      exact hinv.partition
    · rw [hengine]
      exact hinv.queued
    · rw [hengine]
      exact hinv.bounded
    · rw [hengine]
      exact hinv.depth

theorem run_inv {runner : DispatchRunner} {calls : List EngineCall} (hl : l.Inv)
    (h : LTS.run (step runner) l calls = some l') : l'.Inv :=
  LTS.run_invariant (step_inv runner) hl h

/-! ### The guarantee -/

theorem Inv.accepted_nodup (hl : l.Inv) : l.accepted.Nodup := by
  refine List.Nodup.of_map (·.toNat) ?_
  rw [hl.accepted]
  exact List.nodup_range'

/-- What the engine promises about its books. -/
structure Balanced (l : Ledger) : Prop where
  /-- Accepted ids are pairwise distinct. -/
  distinct : l.accepted.Nodup
  /-- An accepted operation is in flight once, queued or issued and without a completion, or it is
  out of flight and has exactly one completion. -/
  exactlyOnce : ∀ id ∈ l.accepted,
    (∃ op ∈ l.engine.inflight, op.opId = id ∧ (op.state = .queued ∨ op.state = .issued) ∧
        (opIds l.engine.inflight).count id = 1 ∧ id ∉ completedIds l.pushed) ∨
      (id ∉ opIds l.engine.inflight ∧ (completedIds l.pushed).count id = 1)
  /-- Nothing else is in flight or completed. -/
  onlyAccepted : ∀ id, id ∈ opIds l.engine.inflight ∨ id ∈ completedIds l.pushed → id ∈ l.accepted
  /-- Queued operations and pending records correspond one to one. -/
  queuedPending : (queuedIds l.engine.inflight).Nodup ∧
    (pendingIds l.engine.submissionQueue.queue.pending).Perm (queuedIds l.engine.inflight)
  bounded : l.engine.inflight.length ≤ l.engine.maxInflight
  /-- A dispatch is refused only by the capacity check, before anything is recorded. -/
  dispatchRefused : ∀ req sink e engine sink',
    l.engine.submitDispatch req sink = some (.error e, engine, sink') →
      engine = l.engine ∧ sink' = sink ∧ l.engine.ensureCapacity = .error e
  /-- So is a copy. -/
  copyRefused : ∀ req sink e engine sink',
    l.engine.submitCopy req sink = some (.error e, engine, sink') →
      engine = l.engine ∧ sink' = sink ∧ l.engine.ensureCapacity = .error e

theorem Inv.exactlyOnce (hl : l.Inv) {id : OpId} (hid : id ∈ l.accepted) :
    (∃ op ∈ l.engine.inflight, op.opId = id ∧ (op.state = .queued ∨ op.state = .issued) ∧
        (opIds l.engine.inflight).count id = 1 ∧ id ∉ completedIds l.pushed) ∨
      (id ∉ opIds l.engine.inflight ∧ (completedIds l.pushed).count id = 1) := by
  have hone : (opIds l.engine.inflight).count id + (completedIds l.pushed).count id = 1 := by
    rw [← List.count_append, hl.partition.count_eq]
    exact List.count_eq_one_of_mem hl.accepted_nodup hid
  by_cases hin : id ∈ opIds l.engine.inflight
  · have hpos := List.count_pos_iff.2 hin
    obtain ⟨op, hop, rfl⟩ := List.mem_map.1 hin
    refine .inl ⟨op, hop, rfl, hl.live op hop, by omega, fun hc => ?_⟩
    have := List.count_pos_iff.2 hc
    omega
  · have := List.count_eq_zero_of_not_mem hin
    exact .inr ⟨hin, by omega⟩

theorem Inv.submitOp_refused (hl : l.Inv) {kind : RuntimeOpKind} {task : TaskKey}
    {details : OpDetails} {onOk sink : List SimEvent} {e : SimError}
    {engine : LocalRuntimeEngine} {sink' : List SimEvent}
    (h : l.engine.submitOp kind task details onOk sink = some (.error e, engine, sink')) :
    engine = l.engine ∧ sink' = sink ∧ l.engine.ensureCapacity = .error e := by
  rcases hl.submitOp_cases h with ⟨he, rfl, rfl, hfull⟩ | ⟨_, hok, _⟩
  · refine ⟨rfl, rfl, ?_⟩
    rw [ensureCapacity, if_pos hfull, Except.error.inj he]
  · cases hok

theorem Inv.balanced (hl : l.Inv) : l.Balanced where
  distinct := hl.accepted_nodup
  exactlyOnce _ hid := hl.exactlyOnce hid
  onlyAccepted id hid := hl.partition.subset (List.mem_append.2 hid)
  queuedPending := by
    refine ⟨?_, hl.queued⟩
    have hnodup := (List.nodup_append.1 (hl.partition.nodup_iff.2 hl.accepted_nodup)).1
    exact hnodup.sublist ((List.filter_sublist).map _)
  bounded := hl.bounded
  dispatchRefused req sink e engine sink' h := by
    simp only [submitDispatch, Option.bind_eq_bind, Option.bind_eq_some_iff] at h
    obtain ⟨⟨result, out⟩, hsubmit, h⟩ := h
    cases result with
    | ok id => cases Option.some.inj h
    | error e' =>
      cases Option.some.inj h
      exact hl.submitOp_refused hsubmit
  copyRefused req sink e engine sink' h := by
    simp only [submitCopy, Option.bind_eq_bind, Option.bind_eq_some_iff] at h
    obtain ⟨⟨result, out⟩, hsubmit, h⟩ := h
    cases result with
    | ok id => cases Option.some.inj h
    | error e' =>
      cases Option.some.inj h
      exact hl.submitOp_refused hsubmit

/-- **Bookkeeping of the runtime engine.**  After every run of calls, at whatever times, that does
not overflow a time sum, the books balance. -/
theorem bookkeeping (runner : DispatchRunner)
    (dispatchLatencyUs copyLatencyUs timeoutUs : SimTimestamp) (maxInflight maxRetries : ℕ)
    (calls : List EngineCall) (l : Ledger)
    (h : LTS.run (step runner)
      (start (withPolicy dispatchLatencyUs copyLatencyUs timeoutUs maxInflight maxRetries)) calls
        = some l) : l.Balanced :=
  (run_inv (start_inv ..) h).balanced

/-- A task for runs on fixed inputs. -/
def sampleTask : TaskKey :=
  ⟨⟨1⟩, ⟨⟨[0, 0, 0, 0, 0, 0, 0, 0], rfl⟩⟩, 0, 7⟩

/-- A run with a refused submit, a retry, a failure and times that go backwards. -/
def sampleCalls : List EngineCall :=
  [.submitCopy ⟨sampleTask, .hostToDevice⟩, .advanceTo 9, .submitCopy ⟨sampleTask, .deviceToHost⟩,
    .pollCompletions 14, .submitCopy ⟨sampleTask, .deviceToHost⟩, .advanceTo 3]

theorem bookkeeping_sampleCalls : ∃ l,
    LTS.run (step fun _ => .ok ()) (start (withPolicy 15 30 5 1 1)) sampleCalls = some l ∧
      l.Balanced := by
  obtain ⟨l, hl⟩ := Option.isSome_iff_exists.1 (by decide +kernel : (LTS.run (step fun _ => .ok ())
    (start (withPolicy 15 30 5 1 1)) sampleCalls).isSome = true)
  exact ⟨l, hl, bookkeeping _ 15 30 5 1 1 _ l hl⟩

end Ledger

end LinquUb
