import LinquUb.Runtime.Bookkeeping
import LinquUb.LTS.Pointwise

/-!
# An advance, operation by operation

In a reachable engine the records of the submission queue belong to the queued operations one by
one, so an advance does the same thing to every operation of the in-flight table on its own: it
issues the operation if it is due, and then decides its fate.

* `LocalRuntimeEngine.Linked` : the invariant that ties records, operations and times together;
* `LocalRuntimeEngine.Linked.advanceTo_eq` : **an advance as a map over the in-flight table**;
* `Ledger.run_linked` : every reachable engine in `LocalRuntime` mode is linked.
-/

namespace LinquUb

open LocalRuntimeEngine

namespace LocalRuntimeEngine

variable {self : LocalRuntimeEngine}

/-! ### The fate of one operation -/

/-- The drive, for one operation: it is issued if it is queued and due. -/
def issueDue (self : LocalRuntimeEngine) (now : SimTimestamp) (op : RuntimeOpRecord) :
    Option RuntimeOpRecord :=
  if op.state = .queued ∧ op.submittedAt ≤ now then self.issueOp now op else some op

inductive Verdict
  | stays | succeeds | retries | expires
deriving DecidableEq, Repr

/-- What the loop over the in-flight table decides about an operation. -/
def verdict (maxRetries : ℕ) (now : SimTimestamp) (op : RuntimeOpRecord) : Verdict :=
  if op.state = .issued ∧ op.readyAt ≤ now then .succeeds
  else if op.state = .issued ∧ op.timeoutAt ≤ now then
    if op.attempts < maxRetries then .retries else .expires
  else .stays

/-- The operation as a verdict leaves it, and what the verdict adds to the queue, to the
completions and to the events. -/
structure Settlement where
  op : RuntimeOpRecord
  records : List (RuntimeQueueRecord (RuntimeWorkItem Unit))
  completions : List CompletionEvent
  events : List SimEvent

def settlement (queue : SharedRuntimeQueue (RuntimeWorkItem Unit)) (now : SimTimestamp)
    (op : RuntimeOpRecord) : Settlement :=
  match verdict queue.maxRetries now op with
  | .stays => { op, records := [], completions := [], events := [] }
  | .succeeds =>
    { op := { op with state := .completed }
      records := []
      completions := [successEvent op]
      events := [.completionObserved op.readyAt (successEvent op)] }
  | .retries =>
    { op := requeued now op
      records := [queue.retried (retryEntry now op) now]
      completions := []
      events := [.runtimeRetried now op.opId "timeout" (op.attempts + 1)] }
  | .expires =>
    { op := { op with state := .failed }
      records := []
      completions := [failureEvent op "timeout_exhausted" now]
      events := [.runtimeFailed now op.opId "timeout_exhausted",
        .completionObserved now (failureEvent op "timeout_exhausted" now)] }

/-- **What a settlement does**, with the reason for it. -/
theorem settlement_cases (queue : SharedRuntimeQueue (RuntimeWorkItem Unit)) (now : SimTimestamp)
    (op : RuntimeOpRecord) :
    ((op.state = .issued → now < op.readyAt ∧ now < op.timeoutAt) ∧
        settlement queue now op = { op, records := [], completions := [], events := [] }) ∨
      (op.state = .issued ∧ op.readyAt ≤ now ∧
        settlement queue now op =
          { op := { op with state := .completed }
            records := []
            completions := [successEvent op]
            events := [.completionObserved op.readyAt (successEvent op)] }) ∨
      (op.state = .issued ∧ now < op.readyAt ∧ op.timeoutAt ≤ now ∧
        op.attempts < queue.maxRetries ∧
        settlement queue now op =
          { op := requeued now op
            records := [queue.retried (retryEntry now op) now]
            completions := []
            events := [.runtimeRetried now op.opId "timeout" (op.attempts + 1)] }) ∨
      (op.state = .issued ∧ now < op.readyAt ∧ op.timeoutAt ≤ now ∧
        queue.maxRetries ≤ op.attempts ∧
        settlement queue now op =
          { op := { op with state := .failed }
            records := []
            completions := [failureEvent op "timeout_exhausted" now]
            events := [.runtimeFailed now op.opId "timeout_exhausted",
              .completionObserved now (failureEvent op "timeout_exhausted" now)] }) := by
  unfold settlement verdict
  split_ifs with hready htimeout hattempts
  · exact .inr (.inl ⟨hready.1, hready.2, rfl⟩)
  · exact .inr (.inr (.inl ⟨htimeout.1, UInt64.not_le.1 fun hle => hready ⟨htimeout.1, hle⟩,
      htimeout.2, hattempts, rfl⟩))
  · exact .inr (.inr (.inr ⟨htimeout.1, UInt64.not_le.1 fun hle => hready ⟨htimeout.1, hle⟩,
      htimeout.2, Nat.not_lt.1 hattempts, rfl⟩))
  · exact .inl ⟨fun hissued => ⟨UInt64.not_le.1 fun hle => hready ⟨hissued, hle⟩,
      UInt64.not_le.1 fun hle => htimeout ⟨hissued, hle⟩⟩, rfl⟩

@[simp] theorem settlement_opId (queue : SharedRuntimeQueue (RuntimeWorkItem Unit))
    (now : SimTimestamp) (op : RuntimeOpRecord) : (settlement queue now op).op.opId = op.opId := by
  unfold settlement
  split <;> rfl

/-- The progress of the loop after some operations. -/
def Progress.add (p : Progress) (settlements : List Settlement) : Progress :=
  { submissionQueue := ⟨{ p.submissionQueue.queue with
      pending := p.submissionQueue.queue.pending ++ settlements.flatMap (·.records) }⟩
    completed := p.completed ++ settlements.flatMap (·.completions)
    sink := p.sink ++ settlements.flatMap (·.events) }

/-- **The body of the loop is the settlement of the operation**, in `LocalRuntime` mode. -/
theorem settleOp_eq (hmode : self.backendMode = .localRuntime) (runner : DispatchRunner)
    (now : SimTimestamp) (op : RuntimeOpRecord) (p : Progress) :
    self.settleOp runner now op p =
      ((settlement p.submissionQueue.queue now op).op,
        p.add [settlement p.submissionQueue.queue now op]) := by
  have hcompletion : self.completionOf runner now op = (successEvent op, []) := by
    simp only [completionOf, hmode]
  unfold settleOp settlement verdict
  split_ifs with hready htimeout hattempts
  · simp [hcompletion, Progress.finish, Progress.add, stateAfter, successEvent]
  · rcases p.submissionQueue.queue.retry_spec (retryEntry now op) now with
      ⟨hlt, hretry⟩ | ⟨hle, _⟩
    · simp [SharedRuntimeExecutor.retry, hretry, Progress.add]
    · exact absurd hattempts (Nat.not_lt.2 hle)
  · rcases p.submissionQueue.queue.retry_spec (retryEntry now op) now with
      ⟨hlt, _⟩ | ⟨_, hretry⟩
    · exact absurd hlt hattempts
    · simp [SharedRuntimeExecutor.retry, hretry, Progress.add, Progress.finish, failureEvent]
  · simp [Progress.add]

theorem settleOps_eq (hmode : self.backendMode = .localRuntime) (runner : DispatchRunner)
    (now : SimTimestamp) (ops : List RuntimeOpRecord) (p : Progress) :
    self.settleOps runner now ops p =
      (ops.map fun op => (settlement p.submissionQueue.queue now op).op,
        p.add (ops.map (settlement p.submissionQueue.queue now))) := by
  induction ops generalizing p with
  | nil => simp [settleOps, Progress.add]
  | cons op ops ih =>
    have hsame : settlement (p.add [settlement p.submissionQueue.queue now op]).submissionQueue.queue
        now = settlement p.submissionQueue.queue now := rfl
    simp only [settleOps, settleOp_eq hmode, ih, hsame]
    simp [Progress.add]

/-! ### The drive -/

/-- The drive, for one operation: it is issued if it is queued and among the drained ones. -/
def issueAmong (self : LocalRuntimeEngine) (now : SimTimestamp) (ids : List OpId)
    (op : RuntimeOpRecord) : Option RuntimeOpRecord :=
  if op.opId ∈ ids ∧ op.state = .queued then self.issueOp now op else some op

theorem issueAmong_opId {now : SimTimestamp} {ids : List OpId} {op op' : RuntimeOpRecord}
    (h : self.issueAmong now ids op = some op') : op'.opId = op.opId := by
  unfold issueAmong at h
  split_ifs at h with hq
  · exact (issueOp_eq_some h).1
  · rw [← Option.some.inj h]

/-- Issuing the only operation with an id. -/
theorem issueFirst_eq (now : SimTimestamp) (id : OpId) {ops : List RuntimeOpRecord}
    (hunique : (opIds ops).Nodup) :
    issueFirst self now id ops = ops.mapM (self.issueAmong now [id]) := by
  induction ops with
  | nil => rfl
  | cons op ops ih =>
    have hcons := List.nodup_cons.1 hunique
    rw [List.mapM_cons, issueFirst, updateFirst]
    by_cases hp : op.opId = id ∧ op.state = .queued
    · -- the ids of the rest are different, so the rest stays
      have hrest : ops.mapM (self.issueAmong now [id]) = some ops := by
        refine (LTS.mapM_congr fun other hother => ?_).trans (LTS.mapM_some ops)
        have hne : other.opId ≠ id := by
          rintro rfl
          exact hcons.1 (List.mem_map.2 ⟨other, hother, hp.1.symm⟩)
        simp [issueAmong, hne]
      rw [hrest]
      simp [issueAmong, hp.1, hp.2]
    · have hskip : (op.opId == id && op.state == .queued) = false := by
        simpa using fun he => fun hq => hp ⟨he, hq⟩
      have hsame : self.issueAmong now [id] op = some op := by
        simp only [issueAmong, List.mem_singleton, hp, if_false]
      rw [hskip, hsame, ← ih hcons.2]
      rfl

theorem issueAll_eq (now : SimTimestamp) (ids : List OpId) {ops : List RuntimeOpRecord}
    (hunique : (opIds ops).Nodup) :
    issueAll self now ids ops = ops.mapM (self.issueAmong now ids) := by
  induction ids generalizing ops with
  | nil =>
    have hsame : self.issueAmong now [] = some := by
      funext op
      simp [issueAmong]
    rw [hsame]
    exact (LTS.mapM_some ops).symm
  | cons id ids ih =>
    -- the first id and then the others are one pass over the table
    have hpass : ∀ op, (self.issueAmong now [id] op).bind (self.issueAmong now ids) =
        self.issueAmong now (id :: ids) op := by
      intro op
      by_cases hp : op.opId = id ∧ op.state = .queued
      · simp only [issueAmong, List.mem_cons, hp.1, hp.2, true_or, and_self, if_true]
        cases hissue : self.issueOp now op with
        | none => rfl
        | some op' =>
          have hissued := (issueOp_eq_some hissue).2
          simp [issueAmong, hissued]
      · have hsame : self.issueAmong now [id] op = some op := by
          simp only [issueAmong, List.mem_singleton, hp, if_false]
        rw [hsame, Option.bind_some]
        by_cases hq : op.state = .queued
        · have hne : op.opId ≠ id := fun he => hp ⟨he, hq⟩
          simp [issueAmong, hne]
        · simp [issueAmong, hq]
    simp only [issueAll, LTS.run] at ih ⊢
    rw [issueFirst_eq now id hunique, ← funext hpass, ← LTS.mapM_bind_mapM]
    cases hfirst : ops.mapM (self.issueAmong now [id]) with
    | none => rfl
    | some ops' =>
      have hids : opIds ops' = opIds ops :=
        LTS.map_eq_of_forall₂ (LTS.mapM_eq_some_iff.1 hfirst) fun _ _ h => issueAmong_opId h
      exact ih (hids ▸ hunique)

/-! ### Linked engines -/

/-- The record belongs to the queued operation. -/
structure Matches (record : RuntimeQueueRecord (RuntimeWorkItem Unit)) (op : RuntimeOpRecord) :
    Prop where
  queued : op.state = .queued
  opId : record.payload.opId = op.opId
  attempts : record.attempts = op.attempts
  readyAt : record.readyAt = op.submittedAt

/-- The deadlines of an issued operation count from its submission. -/
structure Scheduled (engine : LocalRuntimeEngine) (op : RuntimeOpRecord) : Prop where
  readyAt : op.readyAt.toNat = op.submittedAt.toNat + (engine.latencyOf op.kind).toNat
  timeoutAt : op.timeoutAt.toNat = op.submittedAt.toNat + engine.timeoutUs.toNat

/-- An engine in `LocalRuntime` mode whose pending records are those of its queued operations. -/
structure Linked (engine : LocalRuntimeEngine) : Prop where
  mode : engine.backendMode = .localRuntime
  issueLatency : engine.submissionQueue.queue.issueLatencyUs = 0
  retryDelay : engine.submissionQueue.queue.retryDelayUs = 0
  unique : (opIds engine.inflight).Nodup
  live : AllLive engine.inflight
  pending : ∀ op ∈ engine.inflight, op.state = .queued →
    ∃ record ∈ engine.submissionQueue.queue.pending, Matches record op
  owned : ∀ record ∈ engine.submissionQueue.queue.pending, ∃ op ∈ engine.inflight, Matches record op
  scheduled : ∀ op ∈ engine.inflight, op.state = .issued → engine.Scheduled op

theorem checkedAdd_eq_some {a b c : UInt64} (h : checkedAdd a b = some c) :
    c.toNat = a.toNat + b.toNat := by
  unfold checkedAdd at h
  split_ifs at h with hlt
  rw [← Option.some.inj h, UInt64.toNat_add]
  exact Nat.mod_eq_of_lt hlt

/-- What issuing an operation changes. -/
theorem issueOp_spec {now : SimTimestamp} {op op' : RuntimeOpRecord}
    (h : self.issueOp now op = some op') :
    self.Scheduled op' ∧ ∃ readyAt timeoutAt,
      op' = { op with state := .issued, issuedAt := some now, readyAt, timeoutAt } := by
  simp only [issueOp, Option.bind_eq_bind, Option.bind_eq_some_iff, Option.pure_def,
    Option.some.injEq] at h
  obtain ⟨readyAt, hready, timeoutAt, htimeout, rfl⟩ := h
  exact ⟨⟨checkedAdd_eq_some hready, checkedAdd_eq_some htimeout⟩, readyAt, timeoutAt, rfl⟩

/-- A record is ready exactly if its time has come; at the flush time every time has. -/
theorem isReady_iff (now : SimTimestamp) (record : RuntimeQueueRecord (RuntimeWorkItem Unit)) :
    SharedRuntimeQueue.isReady now record = true ↔ record.readyAt ≤ now := by
  simp only [SharedRuntimeQueue.isReady, Bool.or_eq_true, beq_iff_eq, decide_eq_true_eq,
    or_iff_right_iff_imp]
  rintro rfl
  exact le_u64Max _

/-- In a linked engine the drained operations are the queued ones that are due. -/
theorem Linked.issueAmong_eq (h : self.Linked) (now : SimTimestamp) {op : RuntimeOpRecord}
    (hop : op ∈ self.inflight) :
    self.issueAmong now (pendingIds (self.submissionQueue.queue.drainReady now).1) op =
      self.issueDue now op := by
  unfold issueAmong issueDue
  by_cases hq : op.state = .queued
  · have hdue : op.opId ∈ pendingIds (self.submissionQueue.queue.drainReady now).1 ↔
        op.submittedAt ≤ now := by
      simp only [pendingIds, SharedRuntimeQueue.drainReady, List.mem_map, List.mem_filter,
        isReady_iff]
      constructor
      · rintro ⟨record, ⟨hrecord, hready⟩, hid⟩
        obtain ⟨op', hop', hmatch⟩ := h.owned record hrecord
        have hsame := List.inj_on_of_nodup_map h.unique hop' hop (hmatch.opId.symm.trans hid)
        rwa [← hsame, ← hmatch.readyAt]
      · intro hle
        obtain ⟨record, hrecord, hmatch⟩ := h.pending op hop hq
        exact ⟨record, ⟨hrecord, hmatch.readyAt ▸ hle⟩, hmatch.opId⟩
    simp only [hdue, and_comm]
  · simp only [hq, and_false, false_and, if_false]

/-- The queue after the drive of an advance. -/
def driven (self : LocalRuntimeEngine) (now : SimTimestamp) :
    SharedRuntimeQueue (RuntimeWorkItem Unit) :=
  (self.submissionQueue.queue.drainReady now).2.2

/-- The engine after the loop of an advance over the operations `issued`. -/
def settled (self : LocalRuntimeEngine) (now : SimTimestamp) (issued : List RuntimeOpRecord) :
    LocalRuntimeEngine :=
  { self with
    now
    submissionQueue := ⟨{ self.driven now with
      pending := (self.driven now).pending ++
        issued.flatMap fun op => (settlement (self.driven now) now op).records }⟩
    inflight := (issued.map fun op => (settlement (self.driven now) now op).op).filter isLive
    completed := self.completed ++
      issued.flatMap fun op => (settlement (self.driven now) now op).completions }

/-- The events of the loop. -/
def settledEvents (self : LocalRuntimeEngine) (now : SimTimestamp) (issued : List RuntimeOpRecord) :
    List SimEvent :=
  issued.flatMap fun op => (settlement (self.driven now) now op).events

/-- **An advance of a linked engine**: every operation is issued if it is due and then settled, each
on its own. -/
theorem Linked.advanceTo_eq (h : self.Linked) (runner : DispatchRunner) (now : SimTimestamp)
    (sink : List SimEvent) :
    self.advanceTo runner now sink = (self.inflight.mapM (self.issueDue now)).map fun issued =>
      (self.settled now issued, sink ++ self.settledEvents now issued) := by
  have hdrive := driveReady_issueReady self now self.submissionQueue self.inflight
  rw [issueAll_eq now _ h.unique, LTS.mapM_congr fun op hop => h.issueAmong_eq now hop] at hdrive
  rw [advanceTo, hdrive]
  cases self.inflight.mapM (self.issueDue now) with
  | none => rfl
  | some issued =>
    simp only [Option.map_some, Option.bind_eq_bind, Option.bind_some, settleOps_eq h.mode]
    simp [settled, settledEvents, driven, Progress.add, List.flatMap_map]

/-! ### The invariant is kept -/

/-- What the drive does to one operation. -/
theorem issueDue_cases {now : SimTimestamp} {op op' : RuntimeOpRecord}
    (h : self.issueDue now op = some op') :
    (op.state = .queued ∧ op.submittedAt ≤ now ∧ self.Scheduled op' ∧ ∃ readyAt timeoutAt,
        op' = { op with state := .issued, issuedAt := some now, readyAt, timeoutAt }) ∨
      ((op.state = .queued → now < op.submittedAt) ∧ op' = op) := by
  unfold issueDue at h
  split_ifs at h with hdue
  · obtain ⟨hsched, hop⟩ := issueOp_spec h
    exact .inl ⟨hdue.1, hdue.2, hsched, hop⟩
  · exact .inr ⟨fun hq => UInt64.not_le.1 fun hle => hdue ⟨hq, hle⟩, (Option.some.inj h).symm⟩

theorem issueDue_opId {now : SimTimestamp} {op op' : RuntimeOpRecord}
    (h : self.issueDue now op = some op') : op'.opId = op.opId := by
  rcases issueDue_cases h with ⟨-, -, -, _, _, rfl⟩ | ⟨-, rfl⟩ <;> rfl

theorem saturatingAdd_zero (now : SimTimestamp) : saturatingAdd now 0 = now := by
  have hlt : now.toNat + (0 : UInt64).toNat < 2 ^ 64 := by
    have := now.toNat_lt
    simpa using this
  rw [saturatingAdd, if_pos hlt, UInt64.add_zero]

/-- A retry without a delay is ready at once. -/
theorem retried_readyAt (queue : SharedRuntimeQueue (RuntimeWorkItem Unit))
    (h : queue.retryDelayUs = 0) (entry : RuntimeQueueRecord (RuntimeWorkItem Unit))
    (now : SimTimestamp) : (queue.retried entry now).readyAt = now := by
  simp only [SharedRuntimeQueue.retried, h, saturatingAdd_zero, ite_self]

section Issued

variable {now : SimTimestamp} {issued : List RuntimeOpRecord}

/-- An operation after the drive. -/
theorem Linked.issued_cases (h : self.Linked)
    (hissue : self.inflight.mapM (self.issueDue now) = some issued) {op : RuntimeOpRecord}
    (hop : op ∈ issued) :
    (op.state = .issued ∧ self.Scheduled op) ∨
      (op.state = .queued ∧ op ∈ self.inflight ∧ now < op.submittedAt) := by
  obtain ⟨op₀, hop₀, hdue⟩ := LTS.exists_of_mem_right (LTS.mapM_eq_some_iff.1 hissue) hop
  rcases issueDue_cases hdue with ⟨-, -, hsched, _, _, rfl⟩ | ⟨hlate, rfl⟩
  · exact .inl ⟨rfl, hsched⟩
  · rcases h.live op hop₀ with hst | hst
    · exact .inr ⟨hst, hop₀, hlate hst⟩
    · exact .inl ⟨hst, h.scheduled op hop₀ hst⟩

theorem opIds_issued (hissue : self.inflight.mapM (self.issueDue now) = some issued) :
    opIds issued = opIds self.inflight :=
  LTS.map_eq_of_forall₂ (LTS.mapM_eq_some_iff.1 hissue) fun _ _ h => issueDue_opId h

/-- Every operation in flight afterwards comes from one after the drive. -/
theorem mem_settled {op : RuntimeOpRecord} :
    op ∈ (self.settled now issued).inflight ↔
      ∃ op' ∈ issued, (settlement (self.driven now) now op').op = op ∧ isLive op = true := by
  simp only [settled, List.mem_filter, List.mem_map]
  constructor
  · rintro ⟨⟨op', hop', rfl⟩, hlive⟩
    exact ⟨op', hop', rfl, hlive⟩
  · rintro ⟨op', hop', rfl, hlive⟩
    exact ⟨⟨op', hop', rfl⟩, hlive⟩

/-- **An advance keeps the engine linked.** -/
theorem Linked.settled (h : self.Linked)
    (hissue : self.inflight.mapM (self.issueDue now) = some issued) :
    (self.settled now issued).Linked where
  mode := h.mode
  issueLatency := h.issueLatency
  retryDelay := h.retryDelay
  unique := by
    have hids : opIds (issued.map fun op => (settlement (self.driven now) now op).op) =
        opIds self.inflight := by
      rw [← opIds_issued hissue]
      simp [opIds, Function.comp_def]
    exact (hids ▸ h.unique).sublist (List.filter_sublist.map _)
  live := allLive_filter_isLive _
  pending op hop hq := by
    obtain ⟨op', hop', rfl, -⟩ := mem_settled.1 hop
    rcases settlement_cases (self.driven now) now op' with
      ⟨-, hs⟩ | ⟨-, -, hs⟩ | ⟨-, -, -, -, hs⟩ | ⟨-, -, -, -, hs⟩ <;> rw [hs] at hq ⊢
    · -- still queued: its record is not ready yet
      rcases h.issued_cases hissue hop' with ⟨hst, -⟩ | ⟨-, hmem, hlate⟩
      · cases hst.symm.trans hq
      · obtain ⟨record, hrecord, hmatch⟩ := h.pending op' hmem hq
        refine ⟨record, List.mem_append_left _ (List.mem_filter.2 ⟨hrecord, ?_⟩), hmatch⟩
        rw [Bool.not_eq_true', Bool.eq_false_iff, ne_eq, isReady_iff, hmatch.readyAt]
        exact UInt64.not_le.2 hlate
    · cases hq
    · -- requeued by this advance
      refine ⟨_, List.mem_append_right _ (List.mem_flatMap.2 ⟨op', hop', ?_⟩), ⟨rfl, rfl, rfl,
        retried_readyAt (self.driven now) h.retryDelay (retryEntry now op') now⟩⟩
      rw [hs]
      exact List.mem_singleton.2 rfl
    · cases hq
  owned record hrecord := by
    rcases List.mem_append.1 hrecord with hrecord | hrecord
    · -- a record that was not ready
      obtain ⟨hmem, hlate⟩ := List.mem_filter.1 hrecord
      rw [Bool.not_eq_true', Bool.eq_false_iff, ne_eq, isReady_iff] at hlate
      obtain ⟨op, hop, hmatch⟩ := h.owned record hmem
      obtain ⟨op', hop', hdue⟩ := LTS.exists_of_mem_left (LTS.mapM_eq_some_iff.1 hissue) hop
      rcases issueDue_cases hdue with ⟨-, hle, -, -⟩ | ⟨-, rfl⟩
      · exact absurd (hmatch.readyAt ▸ hle) hlate
      · refine ⟨op', mem_settled.2 ⟨op', hop', ?_, by simp [isLive, hmatch.queued]⟩, hmatch⟩
        rcases settlement_cases (self.driven now) now op' with
          ⟨-, hs⟩ | ⟨hst, -⟩ | ⟨hst, -⟩ | ⟨hst, -⟩
        · rw [hs]
        · cases hmatch.queued.symm.trans hst
        · cases hmatch.queued.symm.trans hst
        · cases hmatch.queued.symm.trans hst
    · obtain ⟨op, hop, hrecord⟩ := List.mem_flatMap.1 hrecord
      rcases settlement_cases (self.driven now) now op with
        ⟨-, hs⟩ | ⟨-, -, hs⟩ | ⟨-, -, -, -, hs⟩ | ⟨-, -, -, -, hs⟩ <;> rw [hs] at hrecord
      · cases hrecord
      · cases hrecord
      · rw [List.mem_singleton.1 hrecord]
        exact ⟨requeued now op, mem_settled.2 ⟨op, hop, by rw [hs], rfl⟩, ⟨rfl, rfl, rfl,
          retried_readyAt (self.driven now) h.retryDelay (retryEntry now op) now⟩⟩
      · cases hrecord
  scheduled op hop hst := by
    obtain ⟨op', hop', rfl, -⟩ := mem_settled.1 hop
    rcases settlement_cases (self.driven now) now op' with
      ⟨-, hs⟩ | ⟨-, -, hs⟩ | ⟨-, -, -, -, hs⟩ | ⟨-, -, -, -, hs⟩ <;> rw [hs] at hst ⊢
    · rcases h.issued_cases hissue hop' with ⟨-, hsched⟩ | ⟨hq, -⟩
      · exact ⟨hsched.readyAt, hsched.timeoutAt⟩
      · cases hq.symm.trans hst
    · cases hst
    · cases hst
    · cases hst

end Issued

/-- Handing out completions keeps the engine linked. -/
theorem Linked.handOver (h : self.Linked) (completed : List CompletionEvent) :
    { self with completed }.Linked :=
  { h with scheduled := fun op hop hst => ⟨(h.scheduled op hop hst).1, (h.scheduled op hop hst).2⟩ }

end LocalRuntimeEngine

/-! ### Runs -/

namespace Ledger

variable {l l' : Ledger}

theorem start_linked (dispatchLatencyUs copyLatencyUs timeoutUs : SimTimestamp)
    (maxInflight maxRetries : ℕ) :
    (withPolicy dispatchLatencyUs copyLatencyUs timeoutUs maxInflight maxRetries).Linked where
  mode := rfl
  issueLatency := rfl
  retryDelay := rfl
  unique := List.nodup_nil
  live := by simp [AllLive, withPolicy]
  pending := by simp [withPolicy]
  owned := by
    intro record hrecord
    cases hrecord
  scheduled := by simp [withPolicy]

/-- **A submit keeps the engine linked.** -/
theorem Inv.submitOp_linked (hl : l.Inv) (h : l.engine.Linked) {kind : RuntimeOpKind}
    {task : TaskKey} {details : OpDetails} {onOk sink : List SimEvent}
    {result : Except SimError OpId} {engine : LocalRuntimeEngine} {sink' : List SimEvent}
    (hsubmit : l.engine.submitOp kind task details onOk sink = some (result, engine, sink')) :
    engine.Linked := by
  rcases hl.submitOp_cases hsubmit with ⟨-, rfl, -, -⟩ | ⟨opId, -, hid, -, rfl, -⟩
  · exact h
  have hfresh : opId ∉ opIds l.engine.inflight := by
    intro hmem
    have hacc := hl.partition.subset (List.mem_append_left _ hmem)
    have hrange := hl.accepted ▸ List.mem_map_of_mem (f := fun id : OpId => id.toNat) hacc
    rw [List.mem_range'_1] at hrange
    omega
  refine ⟨h.mode, h.issueLatency, h.retryDelay, ?_, ?_, ?_, ?_, ?_⟩
  · rw [opIds, List.map_append, List.map_singleton]
    exact List.nodup_append.2 ⟨h.unique, List.nodup_singleton _, by
      rintro a ha _ hb rfl
      have hid : a = opId := List.mem_singleton.1 hb
      exact hfresh (hid ▸ ha)⟩
  · intro op hop
    rcases List.mem_append.1 hop with hop | hop
    · exact h.live op hop
    · rw [List.mem_singleton.1 hop]
      exact .inl rfl
  · intro op hop hq
    rcases List.mem_append.1 hop with hop | hop
    · obtain ⟨record, hrecord, hmatch⟩ := h.pending op hop hq
      exact ⟨record, List.mem_append_left _ hrecord, hmatch⟩
    · rw [List.mem_singleton.1 hop]
      exact ⟨_, List.mem_append_right _ (List.mem_singleton.2 rfl), rfl, rfl, rfl,
        by rw [h.issueLatency, saturatingAdd_zero]; rfl⟩
  · intro record hrecord
    rcases List.mem_append.1 hrecord with hrecord | hrecord
    · obtain ⟨op, hop, hmatch⟩ := h.owned record hrecord
      exact ⟨op, List.mem_append_left _ hop, hmatch⟩
    · rw [List.mem_singleton.1 hrecord]
      exact ⟨_, List.mem_append_right _ (List.mem_singleton.2 rfl), rfl, rfl, rfl,
        by rw [h.issueLatency, saturatingAdd_zero]; rfl⟩
  · intro op hop hst
    rcases List.mem_append.1 hop with hop | hop
    · exact ⟨(h.scheduled op hop hst).readyAt, (h.scheduled op hop hst).timeoutAt⟩
    · rw [List.mem_singleton.1 hop] at hst
      cases hst

/-- **Every call keeps the engine linked.** -/
theorem step_linked {runner : DispatchRunner} {call : EngineCall} (hl : l.Inv)
    (h : l.engine.Linked) (hstep : step runner l call = some l') : l'.engine.Linked := by
  rcases step_cases hstep with ⟨_, _, _, _, out, -, -, hsubmit, rfl⟩ |
    ⟨now, engine, sink, -, hadvance, hengine, -, -, -⟩
  · obtain ⟨result, engine, sink⟩ := out
    cases result <;> exact hl.submitOp_linked h hsubmit
  · rw [h.advanceTo_eq, Option.map_eq_some_iff] at hadvance
    obtain ⟨issued, hissue, hpair⟩ := hadvance
    cases hpair
    rw [hengine]
    exact (h.settled hissue).handOver _

/-- **Every reachable engine is linked.** -/
theorem run_linked {runner : DispatchRunner} {calls : List EngineCall} (hl : l.Inv)
    (h : l.engine.Linked) (hrun : LTS.run (step runner) l calls = some l') :
    l'.Inv ∧ l'.engine.Linked :=
  LTS.run_invariant (P := fun l => l.Inv ∧ l.engine.Linked)
    (fun l call l' h hstep => ⟨step_inv runner l call l' h.1 hstep, step_linked h.1 h.2 hstep⟩)
    ⟨hl, h⟩ hrun

end Ledger

end LinquUb
