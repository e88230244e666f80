import LinquUb.Workloads.Minimal

/-!
# What the helpers of the workloads do to the books

The helpers count completions and fallback reads, and leave alone what belongs to the block store.

* `Harness.tracked` : what belongs to the store;
* `WorkloadRunReport.Settled` : the counters that need no store;
* `Quiet` : the helper leaves the former alone and keeps the latter;
* `Workload.quiet_runOnChip`, `Workload.quiet_drainAndRecord`, `Workload.quiet_fallBackToDfs` : the
  three sources of counted completions and reads.
-/

namespace LinquUb

open Action LocalRuntimeEngine

/-! ### Completions of the engine -/

/-- The number of completions that a sink observes. -/
def sinkObserved (sink : List SimEvent) : ℕ := sink.countP (·.observes)

variable {sink sink' : List SimEvent}

@[simp] theorem sinkObserved_append :
    sinkObserved (sink ++ sink') = sinkObserved sink + sinkObserved sink' :=
  List.countP_append

theorem sinkObserved_singleton (event : SimEvent) :
    sinkObserved [event] = if event.observes = true then 1 else 0 :=
  List.countP_singleton

theorem observed_map_runtime (sink : List SimEvent) :
    observed (sink.map .runtime) = sinkObserved sink := by
  rw [observed, List.countP_map]
  rfl

theorem evictedBlocks_map_runtime (sink : List SimEvent) :
    evictedBlocks (sink.map .runtime) = [] := by
  rw [evictedBlocks, List.filterMap_map]
  exact List.filterMap_eq_nil_iff.2 fun _ _ => rfl

/-- Every completion is pushed together with its observation. -/
theorem settleOp_observed {self : LocalRuntimeEngine} {runner : DispatchRunner}
    {now : SimTimestamp} {op op' : RuntimeOpRecord} {p p' : Progress}
    (h : self.settleOp runner now op p = (op', p')) :
    p'.completed.length + sinkObserved p.sink = p.completed.length + sinkObserved p'.sink := by
  unfold settleOp at h
  split_ifs at h
  · have hbefore : sinkObserved (self.completionOf runner now op).2 = 0 := by
      unfold completionOf
      split
      · split <;> rfl
      · rfl
    rcases hc : self.completionOf runner now op with ⟨completion, before⟩
    simp only [hc, Prod.mk.injEq] at h hbefore
    obtain ⟨-, rfl⟩ := h
    simp only [Progress.finish, sinkObserved_append, List.length_append, List.length_singleton,
      sinkObserved_singleton, SimEvent.observes, hbefore, if_true]
    omega
  · rcases hretry : p.submissionQueue.retry (retryEntry now op) now with ⟨_ | _, queue⟩
    · simp only [hretry, Prod.mk.injEq] at h
      obtain ⟨-, rfl⟩ := h
      simp only [Progress.finish, sinkObserved_append, List.length_append, List.length_singleton,
        sinkObserved_singleton, SimEvent.observes, if_true, Bool.false_eq_true, if_false]
      omega
    · simp only [hretry, Prod.mk.injEq] at h
      obtain ⟨-, rfl⟩ := h
      simp only [sinkObserved_append, sinkObserved_singleton, SimEvent.observes,
        Bool.false_eq_true, if_false]
      omega
  · obtain ⟨-, rfl⟩ := Prod.mk.inj h
    rfl

theorem settleOps_observed {self : LocalRuntimeEngine} {runner : DispatchRunner}
    {now : SimTimestamp} {ops ops' : List RuntimeOpRecord} {p p' : Progress}
    (h : self.settleOps runner now ops p = (ops', p')) :
    p'.completed.length + sinkObserved p.sink = p.completed.length + sinkObserved p'.sink := by
  induction ops generalizing ops' p with
  | nil =>
    obtain ⟨-, rfl⟩ := Prod.mk.inj h
    rfl
  | cons op ops ih =>
    rcases hop : self.settleOp runner now op p with ⟨op₁, p₁⟩
    rcases hrest : self.settleOps runner now ops p₁ with ⟨ops₁, p₂⟩
    simp only [settleOps, hop, hrest, Prod.mk.injEq] at h
    obtain ⟨-, rfl⟩ := h
    have := settleOp_observed hop
    have := ih hrest
    omega

/-- A poll hands out what the sink observes, if nothing was waiting to be handed out. -/
theorem pollCompletions_observed {self runtime : LocalRuntimeEngine} {runner : DispatchRunner}
    {now : SimTimestamp} {completions : List CompletionEvent}
    (h : self.pollCompletions runner now sink = some (completions, runtime, sink'))
    (hcompleted : self.completed = []) :
    runtime.completed = [] ∧ completions.length + sinkObserved sink = sinkObserved sink' := by
  simp only [pollCompletions, advanceTo, Option.bind_eq_bind, Option.bind_eq_some_iff,
    Option.pure_def, Option.some.injEq, Prod.mk.injEq] at h
  obtain ⟨-, ⟨⟨⟨-, -, queue⟩, inflight⟩, -, rfl⟩, rfl, rfl, rfl⟩ := h
  refine ⟨rfl, ?_⟩
  rcases hsettle : self.settleOps runner now inflight
    { submissionQueue := queue, completed := self.completed, sink } with ⟨ops, p⟩
  have hobserved := settleOps_observed hsettle
  rw [hcompleted, List.length_nil, Nat.zero_add] at hobserved
  exact hobserved

/-- A submission completes nothing and emits at most the submission itself. -/
theorem submitOp_observed {self runtime : LocalRuntimeEngine} {kind : RuntimeOpKind}
    {task : TaskKey} {details : OpDetails} {onOk : List SimEvent}
    {result : Except SimError OpId}
    (h : self.submitOp kind task details onOk sink = some (result, runtime, sink'))
    (honOk : sinkObserved onOk = 0) :
    runtime.completed = self.completed ∧ sinkObserved sink' = sinkObserved sink := by
  unfold submitOp at h
  split at h
  · simp only [Option.some.injEq, Prod.mk.injEq] at h
    obtain ⟨-, rfl, rfl⟩ := h
    exact ⟨rfl, rfl⟩
  · simp only [Option.bind_eq_bind, Option.bind_eq_some_iff] at h
    obtain ⟨opId, -, h⟩ := h
    split at h <;> simp only [Option.pure_def, Option.some.injEq, Prod.mk.injEq] at h <;>
      obtain ⟨-, rfl, rfl⟩ := h
    · exact ⟨rfl, rfl⟩
    · refine ⟨rfl, ?_⟩
      rw [sinkObserved_append, honOk, Nat.add_zero]

/-! ### What helpers leave alone -/

/-- The counters of a report that belong to the store, with the evictions in its trace. -/
structure Books where
  workloadKind : String
  blocksTotal : ℕ
  hits : ℕ
  misses : ℕ
  promotions : ℕ
  evictions : ℕ
  blockWritebacks : ℕ
  evicted : List BlockHash

def WorkloadRunReport.books (report : WorkloadRunReport) : Books :=
  { workloadKind := report.workloadKind
    blocksTotal := report.blocksTotal
    hits := report.hits
    misses := report.misses
    promotions := report.promotions
    evictions := report.evictions
    blockWritebacks := report.blockWritebacks
    evicted := evictedBlocks report.events }

/-- The part of a harness that belongs to the store. -/
structure Tracked where
  store : InMemoryBlockStore
  books : Books
  departed : List BlockHash
  writtenBack : List BlockHash

def Harness.tracked (h : Harness) : Tracked :=
  { store := h.store
    books := h.report.books
    departed := h.departed
    writtenBack := h.writtenBack }

/-- Counters that no store is needed for. -/
structure WorkloadRunReport.Settled (report : WorkloadRunReport) : Prop where
  completions : report.completions = observed report.events
  fallback : report.fallbackReads = report.dfsColdReads + report.dfsWarmReads

/-- What a change of a report leaves alone and keeps up. -/
structure QuietReport (report report' : WorkloadRunReport) : Prop where
  books : report'.books = report.books
  settled : report.Settled → report'.Settled

/-- A change of counters that belong neither to the store nor to the trace nor to the fallback. -/
structure Aside (report report' : WorkloadRunReport) : Prop where
  books : report'.books = report.books
  completions : report'.completions = report.completions
  events : report'.events = report.events
  fallbackReads : report'.fallbackReads = report.fallbackReads
  dfsColdReads : report'.dfsColdReads = report.dfsColdReads
  dfsWarmReads : report'.dfsWarmReads = report.dfsWarmReads

/-- What every part of a workload keeps up. -/
structure Upkeep (h h' : Harness) : Prop where
  runtime : h.runtime.completed = [] → h'.runtime.completed = []
  settled : h.runtime.completed = [] → h.report.Settled → h'.report.Settled

/-- What helpers leave alone and keep up. -/
structure Quiet (h h' : Harness) : Prop where
  tracked : h'.tracked = h.tracked
  upkeep : Upkeep h h'

theorem Upkeep.trans {h h' h'' : Harness} (hu : Upkeep h h') (hu' : Upkeep h' h'') :
    Upkeep h h'' where
  runtime hnil := hu'.runtime (hu.runtime hnil)
  settled hnil hsettled := hu'.settled (hu.runtime hnil) (hu.settled hnil hsettled)

theorem quiet_refl (h : Harness) : Quiet h h := ⟨rfl, id, fun _ => id⟩

theorem quiet_trans (h h' h'' : Harness) (hq : Quiet h h') (hq' : Quiet h' h'') : Quiet h h'' :=
  ⟨hq'.tracked.trans hq.tracked, hq.upkeep.trans hq'.upkeep⟩

theorem quiet_report {h : Harness} {report : WorkloadRunReport}
    (hq : QuietReport h.report report) : Quiet h { h with report } := by
  refine ⟨?_, id, fun _ => hq.settled⟩
  unfold Harness.tracked
  rw [hq.books]

namespace Workload

theorem Quiet.bind {α β : Type} {m : Workload α} {f : α → Workload β} (hm : Along Quiet m)
    (hf : ∀ a, Along Quiet (f a)) : Along Quiet (m >>= f) :=
  hm.bind quiet_trans hf

theorem quiet_lift {α : Type} (x : Except SimError α) : Along Quiet (lift x) := by
  cases x with
  | ok a => exact along_pure quiet_refl a
  | error err => exact along_throw _

theorem quiet_orPanic {α : Type} (x : Option α) : Along Quiet (orPanic x) := by
  cases x with
  | some a => exact along_pure quiet_refl a
  | none => exact along_throw _

theorem quiet_count {f : WorkloadRunReport → WorkloadRunReport}
    (hf : ∀ report, QuietReport report (f report)) : Along Quiet (count f) :=
  along_modify fun h => quiet_report (hf h.report)

theorem ensures_count_bind {β : Type} {g : WorkloadRunReport → WorkloadRunReport}
    {f : PUnit → Workload β} {h : Harness} {Q : β → Harness → Prop}
    (hf : Ensures (f ⟨⟩) { h with report := g h.report } Q) : Ensures (count g >>= f) h Q :=
  ensures_modify_bind hf

theorem quiet_counter {f : WorkloadRunReport → WorkloadRunReport}
    (hf : ∀ report, Aside report (f report)) : Along Quiet (count f) := by
  refine quiet_count fun report => ⟨(hf report).books, fun hsettled => ⟨?_, ?_⟩⟩
  · rw [(hf report).completions, (hf report).events]
    exact hsettled.completions
  · rw [(hf report).fallbackReads, (hf report).dfsColdReads, (hf report).dfsWarmReads]
    exact hsettled.fallback

theorem quiet_tryExecute (cmd : UapiCommand) : Along Quiet (tryExecute cmd) := by
  intro h result h' hexec
  cases hexec
  exact ⟨rfl, id, fun _ => id⟩

theorem quiet_execute (cmd : UapiCommand) : Along Quiet (execute cmd) :=
  Quiet.bind (quiet_tryExecute cmd) quiet_lift

theorem quiet_invalid {α : Type} (what : String) : Along Quiet (invalid what : Workload α) :=
  along_throw _

theorem recordCompletion_quiet (completion : CompletionEvent) (report : WorkloadRunReport) :
    (recordCompletion completion report).books = report.books ∧
      (recordCompletion completion report).completions = report.completions ∧
      observed (recordCompletion completion report).events = observed report.events + 1 ∧
      (recordCompletion completion report).fallbackReads = report.fallbackReads ∧
      (recordCompletion completion report).dfsColdReads = report.dfsColdReads ∧
      (recordCompletion completion report).dfsWarmReads = report.dfsWarmReads := by
  have hevicted : ∀ events, evictedBlocks (events ++
      [TraceEvent.runtime (.completionObserved completion.finishedAt completion)]) =
        evictedBlocks events := fun events => by
    rw [evictedBlocks_append]
    exact List.append_nil _
  have hobserved : ∀ events, observed (events ++
      [TraceEvent.runtime (.completionObserved completion.finishedAt completion)]) =
        observed events + 1 := fun events => observed_append
  unfold recordCompletion
  split <;> simp only [WorkloadRunReport.books, hevicted, hobserved] <;> simp

/-- The loop over drained completions, as a change of the report. -/
theorem exec_forM_count {ι : Type} (f : ι → WorkloadRunReport → WorkloadRunReport) (l : List ι)
    (h : Harness) : exec (l.forM fun i => count (f i)) h =
      (.ok ⟨⟩, { h with report := l.foldl (fun report i => f i report) h.report }) := by
  induction l generalizing h with
  | nil => rfl
  | cons i l ih => exact ih { h with report := f i h.report }

theorem foldl_recordCompletion (completions : List CompletionEvent) (report : WorkloadRunReport) :
    let report' := completions.foldl (fun report completion => recordCompletion completion report)
      report
    report'.books = report.books ∧ report'.completions = report.completions ∧
      observed report'.events = observed report.events + completions.length ∧
      report'.fallbackReads = report.fallbackReads ∧
      report'.dfsColdReads = report.dfsColdReads ∧
      report'.dfsWarmReads = report.dfsWarmReads := by
  induction completions generalizing report with
  | nil => exact ⟨rfl, rfl, rfl, rfl, rfl, rfl⟩
  | cons completion completions ih =>
    obtain ⟨hbooks, hcount, hobserved, hreads, hcold, hwarm⟩ :=
      recordCompletion_quiet completion report
    obtain ⟨hbooks', hcount', hobserved', hreads', hcold', hwarm'⟩ :=
      ih (recordCompletion completion report)
    refine ⟨hbooks'.trans hbooks, hcount'.trans hcount, ?_, hreads'.trans hreads,
      hcold'.trans hcold, hwarm'.trans hwarm⟩
    rw [List.foldl_cons, hobserved', hobserved, List.length_cons]
    omega

/-- **A drain** counts every completion that it records. -/
theorem quiet_drainAndRecord (cq : CqHandle) (responseErr : String) :
    Along Quiet (drainAndRecord cq responseErr) := by
  refine Quiet.bind (quiet_execute _) fun response => ?_
  cases response with
  | completions events remaining =>
    intro h
    refine ensures_count_bind fun result h' hexec => ?_
    rw [exec_forM_count] at hexec
    cases hexec
    obtain ⟨hbooks, hcount, hobserved, hreads, hcold, hwarm⟩ := foldl_recordCompletion events
      { h.report with completions := h.report.completions + events.length }
    refine quiet_report ⟨hbooks, fun hsettled => ⟨?_, ?_⟩⟩
    · rw [hcount, hobserved, ← hsettled.completions]
    · rw [hreads, hcold, hwarm]
      exact hsettled.fallback
  | _ => exact quiet_invalid _

theorem quiet_submitted (cmd : UapiCommand) (responseErr : String) :
    Along Quiet (submitted cmd responseErr) := by
  refine Quiet.bind (quiet_execute _) fun response => ?_
  cases response with
  | ioSubmitted opId => exact along_pure quiet_refl _
  | _ => exact quiet_invalid _

theorem quiet_enqueueDescriptorAndRing (cmdq : CmdQueueHandle) (desc : UapiDescriptor)
    (enqueueErr doorbellErr : String) :
    Along Quiet (enqueueDescriptorAndRing cmdq desc enqueueErr doorbellErr) := by
  refine Quiet.bind (quiet_execute _) fun response => ?_
  cases response with
  | commandEnqueued depth remainingCapacity =>
    dsimp only
    refine Quiet.bind (quiet_execute _) fun response => ?_
    split
    · exact along_pure quiet_refl _
    · exact quiet_invalid _
  | _ => exact quiet_invalid _

theorem quiet_submitToBlocks (cq : CqHandle) (cmd : UapiCommand) (retry : Bool)
    (responseErr drainErr retryErr : String) :
    Along Quiet (submitToBlocks cq cmd retry responseErr drainErr retryErr) := by
  refine Quiet.bind (quiet_tryExecute _) fun result => ?_
  split
  · exact along_pure quiet_refl _
  · exact quiet_invalid _
  · split_ifs
    · exact Quiet.bind (quiet_counter fun _ => ⟨rfl, rfl, rfl, rfl, rfl, rfl⟩) fun _ =>
        Quiet.bind (quiet_drainAndRecord cq drainErr) fun _ => quiet_submitted cmd retryErr
    · exact along_throw _

theorem quiet_submitBlockRead (cq : CqHandle) (task : TaskKey) (block : BlockHash) (retry : Bool) :
    Along Quiet (submitBlockRead cq task block retry) :=
  along_get_bind fun _ => quiet_submitToBlocks _ _ _ _ _ _

theorem quiet_submitBlockWrite (cq : CqHandle) (task : TaskKey) (block : BlockHash)
    (retry : Bool) : Along Quiet (submitBlockWrite cq task block retry) :=
  Quiet.bind (quiet_counter fun _ => ⟨rfl, rfl, rfl, rfl, rfl, rfl⟩) fun _ =>
    along_get_bind fun _ => quiet_submitToBlocks _ _ _ _ _ _

/-! ### The chip -/

theorem ensures_orPanic_bind {α β : Type} {x : Option α} {f : α → Workload β} {h : Harness}
    {Q : β → Harness → Prop} (hf : ∀ a, x = some a → Ensures (f a) h Q) :
    Ensures (orPanic x >>= f) h Q := by
  cases x with
  | some a => exact hf a rfl
  | none => exact fun _ _ hexec => (by cases hexec)

/-- A submission to the engine leaves the rest alone, and no completion is observed. -/
theorem ensures_submission {α : Type}
    {x : Option (Except SimError α × LocalRuntimeEngine × List SimEvent)} {h : Harness} {n : ℕ}
    (hx : ∀ result runtime sink, x = some (result, runtime, sink) →
      runtime.completed = h.runtime.completed ∧ sinkObserved sink = n) :
    Ensures (do
      let (result, runtime, sink) ← orPanic x
      set { h with runtime }
      let _ ← lift result
      return sink : Workload (List SimEvent)) h fun sink h' =>
        Quiet h h' ∧ sinkObserved sink = n := by
  refine ensures_orPanic_bind fun ⟨result, runtime, sink⟩ hsome => ensures_set_bind ?_
  obtain ⟨hcompleted, hobserved⟩ := hx result runtime sink hsome
  have hquiet : Quiet h { h with runtime } :=
    ⟨rfl, fun hnil => hcompleted.trans hnil, fun _ hsettled => hsettled⟩
  refine (quiet_lift result _).bind fun _ h' hlift => ensures_pure ⟨?_, hobserved⟩
  exact quiet_trans _ _ _ hquiet hlift

theorem submitCopy_ensures (req : CopyRequest) (sink : List SimEvent) (h : Harness) :
    Ensures (submitCopy req sink) h fun sink' h' =>
      Quiet h h' ∧ sinkObserved sink' = sinkObserved sink := by
  refine ensures_get_bind (ensures_submission fun result runtime sink' hsubmit => ?_)
  simp only [LocalRuntimeEngine.submitCopy, Option.bind_eq_bind, Option.bind_eq_some_iff] at hsubmit
  obtain ⟨_, hop, heq⟩ := hsubmit
  cases heq
  exact submitOp_observed hop rfl

theorem submitDispatch_ensures (req : DispatchRequest) (sink : List SimEvent) (h : Harness) :
    Ensures (submitDispatch req sink) h fun sink' h' =>
      Quiet h h' ∧ sinkObserved sink' = sinkObserved sink := by
  refine ensures_get_bind (ensures_submission fun result runtime sink' hsubmit => ?_)
  simp only [LocalRuntimeEngine.submitDispatch, Option.bind_eq_bind, Option.bind_eq_some_iff]
    at hsubmit
  obtain ⟨_, hop, heq⟩ := hsubmit
  cases heq
  exact submitOp_observed hop rfl

/-- **A step on the chip** counts every completion that it adds to the trace. -/
theorem quiet_runOnChip (runner : DispatchRunner) (req : DispatchRequest) :
    Along Quiet (runOnChip runner req) := by
  intro h
  refine (submitCopy_ensures _ [] h).bind fun sink₁ h₁ ⟨hq₁, hobs₁⟩ => ?_
  refine (submitDispatch_ensures req sink₁ h₁).bind fun sink₂ h₂ ⟨hq₂, hobs₂⟩ => ?_
  refine (submitCopy_ensures _ sink₂ h₂).bind fun sink₃ h₃ ⟨hq₃, hobs₃⟩ => ?_
  have hq := quiet_trans _ _ _ (quiet_trans _ _ _ hq₁ hq₂) hq₃
  have hobs : sinkObserved sink₃ = 0 := hobs₃.trans (hobs₂.trans hobs₁)
  refine ensures_get_bind (ensures_orPanic_bind fun ⟨completions, runtime, sink⟩ hpoll => ?_)
  refine ensures_set_bind (ensures_count_bind (ensures_modify (quiet_trans _ _ _ hq ?_)))
  refine ⟨?_, ?_, ?_⟩
  · simp only [Harness.tracked, WorkloadRunReport.books, evictedBlocks_append,
      evictedBlocks_map_runtime, List.append_nil]
  · exact fun hnil => (pollCompletions_observed hpoll hnil).1
  · intro hnil hsettled
    obtain ⟨-, hcount⟩ := pollCompletions_observed hpoll hnil
    refine ⟨?_, hsettled.fallback⟩
    simp only [observed_append, observed_map_runtime, ← hcount, hobs, hsettled.completions]
    omega

theorem quiet_runChipBackendMinimalStep (runner : DispatchRunner) (topology : SimTopology)
    (task : TaskKey) (functionName : String) :
    Along Quiet (runChipBackendMinimalStep runner topology task functionName) :=
  Quiet.bind (quiet_orPanic _) fun _ => along_get_bind fun _ => quiet_runOnChip _ _

theorem quiet_ifRustLlm {m : Workload PUnit} (hm : Along Quiet m) : Along Quiet (ifRustLlm m) :=
  along_get_bind fun _ => along_onlyIf quiet_refl hm

/-! ### Hits and misses of the request loop -/

section Requests

variable (l : Loop) (task : TaskKey) (block : BlockHash)

theorem quiet_minimalStep : Along Quiet (minimalStep l task) :=
  quiet_ifRustLlm (quiet_runChipBackendMinimalStep _ _ _ _)

theorem quiet_seedPrefixMeta (dbKey : String) : Along Quiet (seedPrefixMeta l task dbKey) := by
  refine along_get_bind fun _ => along_onlyIf quiet_refl ?_
  refine Quiet.bind (along_modify fun h => ⟨rfl, id, fun _ => id⟩) fun _ => ?_
  exact Quiet.bind (quiet_enqueueDescriptorAndRing _ _ _ _) fun _ =>
    quiet_counter fun _ => ⟨rfl, rfl, rfl, rfl, rfl, rfl⟩

theorem quiet_seedPrefixSegment : Along Quiet (seedPrefixSegment l task) := by
  refine along_get_bind fun _ => along_onlyIf quiet_refl ?_
  refine Quiet.bind (quiet_enqueueDescriptorAndRing _ _ _ _) fun _ => ?_
  exact Quiet.bind (quiet_counter fun _ => ⟨rfl, rfl, rfl, rfl, rfl, rfl⟩) fun _ =>
    along_modify fun h => ⟨rfl, id, fun _ => id⟩

theorem quiet_readPrefix : Along Quiet (readPrefix l task block) := by
  refine Quiet.bind (quiet_seedPrefixMeta l task _) fun _ => ?_
  refine Quiet.bind (quiet_enqueueDescriptorAndRing _ _ _ _) fun _ => ?_
  refine Quiet.bind (quiet_counter fun _ => ⟨rfl, rfl, rfl, rfl, rfl, rfl⟩) fun _ => ?_
  refine Quiet.bind (quiet_seedPrefixSegment l task) fun _ => ?_
  refine Quiet.bind (quiet_enqueueDescriptorAndRing _ _ _ _) fun _ => ?_
  exact Quiet.bind (quiet_counter fun _ => ⟨rfl, rfl, rfl, rfl, rfl, rfl⟩) fun _ =>
    quiet_drainAndRecord _ _

/-- **The fallback** counts every read as cold or as warm. -/
theorem quiet_fallBackToDfs : Along Quiet (fallBackToDfs l task block) := by
  refine along_get_bind fun h₀ => ?_
  refine Quiet.bind (along_modify fun h => ⟨rfl, id, fun _ => id⟩) fun _ => ?_
  refine Quiet.bind (along_onlyIf quiet_refl (Quiet.bind (quiet_enqueueDescriptorAndRing _ _ _ _)
    fun _ => quiet_counter fun _ => ⟨rfl, rfl, rfl, rfl, rfl, rfl⟩)) fun _ => ?_
  refine Quiet.bind (quiet_submitBlockRead _ _ _ _) fun _ => ?_
  -- the two counts together
  intro h
  refine ensures_count_bind (ensures_count_bind ?_)
  refine (quiet_enqueueDescriptorAndRing _ _ _ _ _).mono fun _ h' hq => ?_
  refine quiet_trans _ _ _ (quiet_report ?_) hq
  split_ifs
  all_goals refine ⟨rfl, fun hsettled => ⟨hsettled.completions, ?_⟩⟩
  all_goals
    have := hsettled.fallback
    simp only
    omega

theorem quiet_fetch (usesDfs : Bool) : Along Quiet (fetch l task block usesDfs) := by
  refine quiet_ifRustLlm ?_
  split_ifs
  · exact quiet_fallBackToDfs l task block
  · exact quiet_submitBlockRead _ _ _ _

end Requests

end Workload

end LinquUb
