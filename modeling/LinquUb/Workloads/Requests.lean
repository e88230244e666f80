import Mathlib.Data.List.ReduceOption
import LinquUb.Uapi.Sequential
import LinquUb.Workloads.Ledger

/-!
# Requests of a workload

A workload that drains its completion queue after every request leaves a trace that shows the
answers of a directory.

* `served` : the answers of the services in a trace;
* `Elsewhere` : a step that asks nothing, as every step on the chip;
* `Asked` : requests one after the other, and what the report keeps of their answers;
* `Workload.drainAndRecord_ensures` : **a drain hands out the answer to the request before it**.
-/

namespace LinquUb

open Action LocalRuntimeEngine

/-! ### Answers in a trace -/

/-- The answer of a service that an event shows; completions of the chip are left out. -/
def SimEvent.served : SimEvent → Option Answer
  | .completionObserved _ completion =>
    if completion.source = .chipBackend then none else some completion.answer
  | _ => none

def TraceEvent.served : TraceEvent → Option Answer
  | .runtime event => event.served
  | _ => none

def served (events : List TraceEvent) : List Answer := events.filterMap (·.served)

@[simp] theorem served_append (events events' : List TraceEvent) :
    served (events ++ events') = served events ++ served events' :=
  List.filterMap_append

theorem served_map_runtime (sink : List SimEvent) :
    served (sink.map .runtime) = sink.filterMap (·.served) := by
  rw [served, List.filterMap_map]
  rfl

/-- The counters of failed requests. -/
structure Failures where
  blockReadMisses : ℕ
  blockRetryableFailures : ℕ
  shmemDenied : ℕ
  dbRetryableFailures : ℕ
deriving DecidableEq

def Failures.count (failures : Failures) (answer : Answer) : Failures :=
  match answer.source, answer.status with
  | .blockService, .retryableFailure code =>
    { failures with
      blockRetryableFailures := failures.blockRetryableFailures + 1
      blockReadMisses := failures.blockReadMisses + if code = "block_miss" then 1 else 0 }
  | .shmemService, .fatalFailure code =>
    { failures with
      shmemDenied := failures.shmemDenied + if code = "shmem_access_denied" then 1 else 0 }
  | .dbService, .retryableFailure _ =>
    { failures with dbRetryableFailures := failures.dbRetryableFailures + 1 }
  | _, _ => failures

theorem Failures.count_success (failures : Failures) {answer : Answer}
    (h : answer.status = .success) : failures.count answer = failures := by
  rcases answer with ⟨task, source, status⟩
  cases h
  cases source <;> rfl

theorem Failures.foldl_success (failures : Failures) {answers : List Answer}
    (h : ∀ answer ∈ answers, answer.status = .success) :
    answers.foldl Failures.count failures = failures := by
  induction answers with
  | nil => rfl
  | cons answer answers ih =>
    rw [List.foldl_cons, failures.count_success (h answer List.mem_cons_self)]
    exact ih fun other hother => h other (List.mem_cons_of_mem _ hother)

/-- The counters of requests. -/
structure Sent where
  shmemPuts : ℕ
  shmemGets : ℕ
  blockWrites : ℕ
deriving DecidableEq

def UapiDescriptor.puts : UapiDescriptor → Bool
  | .shmemPut _ => true
  | _ => false

def UapiDescriptor.gets : UapiDescriptor → Bool
  | .shmemGet _ => true
  | _ => false

def UapiDescriptor.writesBlock : UapiDescriptor → Bool
  | .io req => req.opcode = .writeBlock
  | _ => false

def Sent.after (sent : Sent) (descs : List UapiDescriptor) : Sent where
  shmemPuts := sent.shmemPuts + descs.countP (·.puts)
  shmemGets := sent.shmemGets + descs.countP (·.gets)
  blockWrites := sent.blockWrites + descs.countP (·.writesBlock)

theorem Sent.after_append (sent : Sent) (descs descs' : List UapiDescriptor) :
    sent.after (descs ++ descs') = (sent.after descs).after descs' := by
  simp only [after, List.countP_append, add_assoc]

namespace WorkloadRunReport

variable (report : WorkloadRunReport)

def failures : Failures :=
  ⟨report.blockReadMisses, report.blockRetryableFailures, report.shmemDenied,
    report.dbRetryableFailures⟩

def sent : Sent := ⟨report.shmemPuts, report.shmemGets, report.blockWrites⟩

end WorkloadRunReport

namespace Workload

/-- What a drain leaves in the report. -/
theorem foldl_recordCompletion_served (completions : List CompletionEvent)
    (report : WorkloadRunReport) :
    let report' := completions.foldl (fun report completion => recordCompletion completion report)
      report
    served report'.events = served report.events ++
        (completions.map (·.answer)).filter (·.source ≠ .chipBackend) ∧
      report'.failures = (completions.map (·.answer)).foldl Failures.count report.failures ∧
      report'.sent = report.sent := by
  induction completions generalizing report with
  | nil => exact ⟨(List.append_nil _).symm, rfl, rfl⟩
  | cons completion completions ih =>
    have hone : served (recordCompletion completion report).events = served report.events ++
          [completion.answer].filter (·.source ≠ .chipBackend) ∧
        (recordCompletion completion report).failures =
          report.failures.count completion.answer ∧
        (recordCompletion completion report).sent = report.sent := by
      unfold recordCompletion
      rcases completion with ⟨opId, task, source, status, finishedAt⟩
      cases source <;> cases status <;> exact ⟨served_append .., rfl, rfl⟩
    obtain ⟨hserved, hfailures, hsent⟩ := ih (recordCompletion completion report)
    refine ⟨?_, hfailures.trans ?_, hsent.trans hone.2.2⟩
    · rw [List.foldl_cons, hserved, hone.1, List.append_assoc, ← List.filter_append]
      rfl
    · rw [hone.2.1]
      rfl

end Workload

/-! ### The chip answers no request -/

variable {sink sink' : List SimEvent}

theorem served_chip {completion : CompletionEvent} (h : completion.source = .chipBackend)
    (at_ : SimTimestamp) : (SimEvent.completionObserved at_ completion).served = none :=
  if_pos h

theorem settleOp_served {self : LocalRuntimeEngine} {runner : DispatchRunner}
    {now : SimTimestamp} {op op' : RuntimeOpRecord} {p p' : Progress}
    (h : self.settleOp runner now op p = (op', p')) :
    p'.sink.filterMap (·.served) = p.sink.filterMap (·.served) := by
  have hcompletion : (self.completionOf runner now op).1.source = .chipBackend ∧
      (self.completionOf runner now op).2.filterMap (·.served) = [] := by
    unfold completionOf
    split
    · split <;> exact ⟨rfl, rfl⟩
    · exact ⟨rfl, rfl⟩
  unfold settleOp at h
  split_ifs at h
  · rcases hc : self.completionOf runner now op with ⟨completion, before⟩
    simp only [hc, Prod.mk.injEq] at h hcompletion
    obtain ⟨-, rfl⟩ := h
    simp [Progress.finish, served_chip hcompletion.1, hcompletion.2]
  · rcases hretry : p.submissionQueue.retry (retryEntry now op) now with ⟨_ | _, queue⟩
    · simp only [hretry, Prod.mk.injEq] at h
      obtain ⟨-, rfl⟩ := h
      simp [Progress.finish, SimEvent.served, failureEvent]
    · simp only [hretry, Prod.mk.injEq] at h
      obtain ⟨-, rfl⟩ := h
      simp [SimEvent.served]
  · obtain ⟨-, rfl⟩ := Prod.mk.inj h
    rfl

theorem settleOps_served {self : LocalRuntimeEngine} {runner : DispatchRunner}
    {now : SimTimestamp} {ops ops' : List RuntimeOpRecord} {p p' : Progress}
    (h : self.settleOps runner now ops p = (ops', p')) :
    p'.sink.filterMap (·.served) = p.sink.filterMap (·.served) := by
  induction ops generalizing ops' p with
  | nil =>
    obtain ⟨-, rfl⟩ := Prod.mk.inj h
    rfl
  | cons op ops ih =>
    rcases hop : self.settleOp runner now op p with ⟨op₁, p₁⟩
    rcases hrest : self.settleOps runner now ops p₁ with ⟨ops₁, p₂⟩
    simp only [settleOps, hop, hrest, Prod.mk.injEq] at h
    obtain ⟨-, rfl⟩ := h
    exact (ih hrest).trans (settleOp_served hop)

theorem pollCompletions_served {self runtime : LocalRuntimeEngine} {runner : DispatchRunner}
    {now : SimTimestamp} {completions : List CompletionEvent}
    (h : self.pollCompletions runner now sink = some (completions, runtime, sink')) :
    sink'.filterMap (·.served) = sink.filterMap (·.served) := by
  simp only [pollCompletions, advanceTo, Option.bind_eq_bind, Option.bind_eq_some_iff,
    Option.pure_def, Option.some.injEq, Prod.mk.injEq] at h
  obtain ⟨-, ⟨⟨⟨-, -, queue⟩, inflight⟩, -, rfl⟩, rfl, rfl, rfl⟩ := h
  rcases hsettle : self.settleOps runner now inflight
    { submissionQueue := queue, completed := self.completed, sink } with ⟨ops, p⟩
  exact settleOps_served hsettle

theorem submitOp_served {self runtime : LocalRuntimeEngine} {kind : RuntimeOpKind}
    {task : TaskKey} {details : OpDetails} {onOk : List SimEvent}
    {result : Except SimError OpId}
    (h : self.submitOp kind task details onOk sink = some (result, runtime, sink'))
    (honOk : onOk.filterMap (·.served) = []) :
    sink'.filterMap (·.served) = sink.filterMap (·.served) := by
  unfold submitOp at h
  split at h
  · simp only [Option.some.injEq, Prod.mk.injEq] at h
    obtain ⟨-, -, rfl⟩ := h
    rfl
  · simp only [Option.bind_eq_bind, Option.bind_eq_some_iff] at h
    obtain ⟨opId, -, h⟩ := h
    split at h <;> simp only [Option.pure_def, Option.some.injEq, Prod.mk.injEq] at h <;>
      obtain ⟨-, -, rfl⟩ := h
    · rfl
    · rw [List.filterMap_append, honOk, List.append_nil]

/-! ### Work elsewhere -/

/-- What the services and the report know of the requests. -/
structure View where
  surface : LocalGuestUapiSurface
  served : List Answer
  failures : Failures
  sent : Sent

def Harness.view (h : Harness) : View :=
  ⟨h.surface, served h.report.events, h.report.failures, h.report.sent⟩

/-- Nothing is asked. -/
def Elsewhere (h h' : Harness) : Prop := h'.view = h.view

theorem elsewhere_refl (h : Harness) : Elsewhere h h := rfl

theorem elsewhere_trans (h h' h'' : Harness) (he : Elsewhere h h') (he' : Elsewhere h' h'') :
    Elsewhere h h'' :=
  Eq.trans he' he

namespace Workload

theorem elsewhere_lift {α : Type} (x : Except SimError α) : Along Elsewhere (lift x) := by
  cases x with
  | ok a => exact along_pure elsewhere_refl a
  | error err => exact along_throw _

theorem elsewhere_orPanic {α : Type} (x : Option α) : Along Elsewhere (orPanic x) := by
  cases x with
  | some a => exact along_pure elsewhere_refl a
  | none => exact along_throw _

theorem elsewhere_count {f : WorkloadRunReport → WorkloadRunReport}
    (hf : ∀ report, served (f report).events = served report.events ∧
      (f report).failures = report.failures ∧ (f report).sent = report.sent) :
    Along Elsewhere (count f) := by
  refine along_modify fun h => ?_
  obtain ⟨hserved, hfailures, hsent⟩ := hf h.report
  simp only [Elsewhere, Harness.view, hserved, hfailures, hsent]

theorem elsewhere_count_bind {f : WorkloadRunReport → WorkloadRunReport} {β : Type}
    {k : PUnit → Workload β} {h : Harness} {Q : β → Harness → Prop}
    (hf : ∀ report, served (f report).events = served report.events ∧
      (f report).failures = report.failures ∧ (f report).sent = report.sent)
    (hk : ∀ h', Elsewhere h h' → Ensures (k ⟨⟩) h' Q) : Ensures (count f >>= k) h Q :=
  (elsewhere_count hf).ensures_bind fun _ => hk

theorem elsewhere_emit {event : TraceEvent} (hevent : event.served = none) :
    Along Elsewhere (emit event) := by
  refine elsewhere_count fun report => ⟨?_, rfl, rfl⟩
  simp [served, hevent]

theorem elsewhere_stageInsert (block : BlockHash) : Along Elsewhere (stageInsert block) := by
  intro h
  refine ensures_get_bind (ensures_orPanic_bind fun store _ _ h' hexec => ?_)
  cases hexec
  rfl

theorem elsewhere_submission {α : Type}
    {x : Option (Except SimError α × LocalRuntimeEngine × List SimEvent)} {h : Harness}
    {answers : List Answer}
    (hx : ∀ result runtime sink, x = some (result, runtime, sink) →
      sink.filterMap (·.served) = answers) :
    Ensures (do
      let (result, runtime, sink) ← orPanic x
      set { h with runtime }
      let _ ← lift result
      return sink : Workload (List SimEvent)) h fun sink h' =>
        Elsewhere h h' ∧ sink.filterMap (·.served) = answers := by
  refine ensures_orPanic_bind fun ⟨result, runtime, sink⟩ hsome => ensures_set_bind ?_
  refine (elsewhere_lift result _).bind fun _ h' he => ensures_pure ⟨?_, hx _ _ _ hsome⟩
  exact elsewhere_trans h { h with runtime } h' rfl he

theorem submitCopy_elsewhere (req : CopyRequest) (sink : List SimEvent) (h : Harness) :
    Ensures (submitCopy req sink) h fun sink' h' =>
      Elsewhere h h' ∧ sink'.filterMap (·.served) = sink.filterMap (·.served) := by
  refine ensures_get_bind (elsewhere_submission fun result runtime sink' hsubmit => ?_)
  simp only [LocalRuntimeEngine.submitCopy, Option.bind_eq_bind, Option.bind_eq_some_iff] at hsubmit
  obtain ⟨_, hop, heq⟩ := hsubmit
  cases heq
  exact submitOp_served hop rfl

theorem submitDispatch_elsewhere (req : DispatchRequest) (sink : List SimEvent) (h : Harness) :
    Ensures (submitDispatch req sink) h fun sink' h' =>
      Elsewhere h h' ∧ sink'.filterMap (·.served) = sink.filterMap (·.served) := by
  refine ensures_get_bind (elsewhere_submission fun result runtime sink' hsubmit => ?_)
  simp only [LocalRuntimeEngine.submitDispatch, Option.bind_eq_bind, Option.bind_eq_some_iff]
    at hsubmit
  obtain ⟨_, hop, heq⟩ := hsubmit
  cases heq
  exact submitOp_served hop rfl

theorem elsewhere_runOnChip (runner : DispatchRunner) (req : DispatchRequest) :
    Along Elsewhere (runOnChip runner req) := by
  intro h
  refine (submitCopy_elsewhere _ [] h).bind fun sink₁ h₁ ⟨he₁, hserved₁⟩ => ?_
  refine (submitDispatch_elsewhere req sink₁ h₁).bind fun sink₂ h₂ ⟨he₂, hserved₂⟩ => ?_
  refine (submitCopy_elsewhere _ sink₂ h₂).bind fun sink₃ h₃ ⟨he₃, hserved₃⟩ => ?_
  have he := elsewhere_trans _ _ _ (elsewhere_trans _ _ _ he₁ he₂) he₃
  have hserved : sink₃.filterMap (·.served) = [] := hserved₃.trans (hserved₂.trans hserved₁)
  refine ensures_get_bind (ensures_orPanic_bind fun ⟨completions, runtime, sink⟩ hpoll => ?_)
  refine ensures_set_bind (ensures_count_bind (ensures_modify (elsewhere_trans _ _ _ he ?_)))
  have hnone : served (sink.map .runtime) = [] := by
    rw [served_map_runtime, pollCompletions_served hpoll, hserved]
  simp only [Elsewhere, Harness.view, served_append, hnone, List.append_nil]
  rfl

end Workload

/-! ### Requests -/

/-- The request was accepted, and a drain will hand out its answer. -/
structure Submitted (cq : CqHandle) (desc : UapiDescriptor) (v v' : View) : Prop where
  answers : Uapi.Answers v.surface v'.surface cq 0
    (v.surface.directory.answer v.surface.limits desc)
  served : v'.served = v.served
  failures : v'.failures = v.failures
  sent : v'.sent = v.sent.after [desc]

/-- The requests were asked one after the other, and each of them was answered before the next. -/
structure Asked (cq : CqHandle) (descs : List UapiDescriptor) (v v' : View) : Prop where
  rest : v'.surface.AtRest cq 0
  limits : v'.surface.limits = v.surface.limits
  directory : v'.surface.directory = (v.surface.directory.answerAll v.surface.limits descs).2
  served : v'.served = v.served ++
    (v.surface.directory.answerAll v.surface.limits descs).1.reduceOption
  failures : v'.failures =
    (v.surface.directory.answerAll v.surface.limits descs).1.reduceOption.foldl Failures.count
      v.failures
  sent : v'.sent = v.sent.after descs

variable {cq : CqHandle} {descs : List UapiDescriptor} {v v' v'' : View} {h h' : Harness}

theorem asked_nil (hrest : v.surface.AtRest cq 0) : Asked cq [] v v :=
  ⟨hrest, rfl, rfl, (List.append_nil _).symm, rfl, rfl⟩

theorem Asked.trans {descs' : List UapiDescriptor} (ha : Asked cq descs v v')
    (ha' : Asked cq descs' v' v'') : Asked cq (descs ++ descs') v v'' := by
  have hall := Directory.answerAll_append v.surface.limits v.surface.directory descs descs'
  have hserved := ha'.served
  have hfailures := ha'.failures
  have hdirectory := ha'.directory
  rw [ha.limits, ha.directory] at hserved hfailures hdirectory
  refine ⟨ha'.rest, ha'.limits.trans ha.limits, ?_, ?_, ?_, ?_⟩
  · rw [hall, hdirectory]
  · rw [hall, hserved, ha.served, List.reduceOption_append, List.append_assoc]
  · rw [hall, hfailures, ha.failures, List.reduceOption_append, List.foldl_append]
  · rw [ha'.sent, ha.sent, Sent.after_append]

theorem Asked.elsewhere (ha : Asked cq descs v h.view) (he : Elsewhere h h') :
    Asked cq descs v h'.view := by
  rw [he]
  exact ha

namespace Directory

variable (limits : Limits) (d : Directory)

theorem answerAll_one (desc : UapiDescriptor) :
    d.answerAll limits [desc] = ([(d.answer limits desc).1], (d.answer limits desc).2) := rfl

/-- The chip is not a service. -/
theorem answer_source (desc : UapiDescriptor) :
    ∀ answer ∈ (d.answer limits desc).1, answer.source ≠ .chipBackend := by
  have hserve : ∀ outcome ∈ (d.serve limits desc).1, outcome.1 ≠ .chipBackend := by
    cases desc with
    | io req =>
      rcases req with ⟨opId, task, entity, opcode, segment, _ | block⟩ <;> cases opcode <;>
        simp [serve]
    | dbPut req =>
      simp only [serve]
      split_ifs <;> simp
    | _ => simp [serve]
  intro answer hanswer
  simp only [Directory.answer] at hanswer
  split at hanswer
  · rename_i source status heq
    split_ifs at hanswer
    · cases hanswer
    · cases hanswer
      exact hserve (source, status) heq
  · cases hanswer

end Directory

namespace Workload

theorem execute_exec {cmd : UapiCommand} {response : UapiResponse} {s : LocalGuestUapiSurface}
    (hexec : h.surface.execute cmd = (.ok response, s)) :
    exec (execute cmd) h = (.ok response, { h with surface := s }) := by
  have htry : exec (tryExecute cmd) h =
      (.ok (h.surface.execute cmd).1, { h with surface := (h.surface.execute cmd).2 }) := rfl
  rw [hexec] at htry
  rw [execute, exec_bind_ok htry]
  rfl

theorem execute_error {cmd : UapiCommand} {e : SimError} {s : LocalGuestUapiSurface}
    (hexec : h.surface.execute cmd = (.error e, s)) :
    exec (execute cmd) h = (.error (.error e), { h with surface := s }) := by
  have htry : exec (tryExecute cmd) h =
      (.ok (h.surface.execute cmd).1, { h with surface := (h.surface.execute cmd).2 }) := rfl
  rw [hexec] at htry
  rw [execute, exec_bind_ok htry]
  rfl

/-- Whatever the surface returns, it has the outcome that the directory says. -/
theorem tryExecute_ensures (hrest : h.surface.AtRest cq 0) (desc : UapiDescriptor) :
    Ensures (tryExecute desc.command) h fun _ h' => ∃ s, h' = { h with surface := s } ∧
      Uapi.Answers h.surface s cq 0 (h.surface.directory.answer h.surface.limits desc) := by
  intro _ h' hexec
  cases hexec
  exact ⟨_, rfl, LocalGuestUapiSurface.command_answers hrest desc⟩

theorem submitted_ensures (hrest : h.surface.AtRest cq 0) (desc : UapiDescriptor)
    (responseErr : String) : Ensures (submitted desc.command responseErr) h fun _ h' =>
      ∃ s, h' = { h with surface := s } ∧ Uapi.Answers h.surface s cq 0
        (h.surface.directory.answer h.surface.limits desc) := by
  refine ((tryExecute_ensures hrest desc).bind fun result h₁ hanswers => ?_).bind ?_
    (Q := fun _ h' => ∃ s, h' = { h with surface := s } ∧ Uapi.Answers h.surface s cq 0
        (h.surface.directory.answer h.surface.limits desc))
  · cases result with
    | ok response => exact ensures_pure hanswers
    | error err => exact ensures_throw _
  · intro response h₁ hanswers
    cases response with
    | ioSubmitted opId => exact ensures_pure hanswers
    | _ => exact ensures_throw _

/-- **A drain hands out the answer.** -/
theorem drainAndRecord_ensures {desc : UapiDescriptor} (hsub : Submitted cq desc v h.view)
    (responseErr : String) :
    Ensures (drainAndRecord cq responseErr) h fun _ h' => Asked cq [desc] v h'.view := by
  obtain ⟨hdirectory, hlimits, events, entry, hholds, hanswer⟩ := hsub.answers
  obtain ⟨s, hdrain, hrest, hdirectory', hlimits'⟩ := Uapi.drain_spec hholds.runtime hholds.keys
    hholds.queue hholds.waiting hholds.route
  intro _ h' hexec
  rw [drainAndRecord, exec_bind_ok (execute_exec hdrain)] at hexec
  generalize hcompletions : (events ++ entry.toList).map (·.event) = completions at hexec
  have hanswers : completions.map (·.answer) =
      (v.surface.directory.answer v.surface.limits desc).1.toList := by
    rw [← hcompletions, ← hanswer, List.map_map]
    rfl
  have hservice : (completions.map (·.answer)).filter (·.source ≠ .chipBackend) =
      (v.surface.directory.answer v.surface.limits desc).1.toList := by
    rw [hanswers, List.filter_eq_self]
    intro answer hmem
    simpa using Directory.answer_source _ _ _ answer (Option.mem_toList.1 hmem)
  refine ensures_count_bind (Q := fun _ h' => Asked cq [desc] v h'.view)
    (fun _ h₁ hforM => ?_) _ h' hexec
  rw [exec_forM_count] at hforM
  cases hforM
  obtain ⟨hserved, hfailures, hsent⟩ := foldl_recordCompletion_served completions
    { h.report with completions := h.report.completions + completions.length }
  have hall := Directory.answerAll_one v.surface.limits v.surface.directory desc
  have hone : ([(v.surface.directory.answer v.surface.limits desc).1]).reduceOption =
      (v.surface.directory.answer v.surface.limits desc).1.toList := by
    cases (v.surface.directory.answer v.surface.limits desc).1 <;> rfl
  refine ⟨hrest, hlimits'.trans hlimits, ?_, ?_, ?_, ?_⟩
  · rw [hall]
    exact hdirectory'.trans hdirectory
  · rw [hall, hone, ← hservice, ← hsub.served]
    exact hserved
  · rw [hall, hone, ← hanswers, ← hsub.failures]
    exact hfailures
  · exact hsent.trans hsub.sent

/-- A request to the block service; the directory reads no operation id. -/
def blockRequest (opcode : IoOpcode) (task : TaskKey) (block : BlockHash) : UapiDescriptor :=
  .io { opId := 0, task := some task, entity := 0, opcode, segment := none, block := some block }

theorem submitBlockIo_ensures (hrest : h.surface.AtRest cq 0) (req : IoSubmitReq) :
    Ensures (submitBlockIo cq req false) h fun _ h' => ∃ s, h' = { h with surface := s } ∧
      Uapi.Answers h.surface s cq 0 (h.surface.directory.answer h.surface.limits (.io req)) := by
  refine (tryExecute_ensures hrest (.io req)).bind fun result h₁ hanswers => ?_
  split
  · exact ensures_pure hanswers
  · exact ensures_throw _
  · rw [if_neg (by simp)]
    exact ensures_throw _

theorem submitBlockRead_ensures (hrest : h.surface.AtRest cq 0) (task : TaskKey)
    (block : BlockHash) : Ensures (submitBlockRead cq task block false) h fun _ h' =>
      Submitted cq (blockRequest .readBlock task block) h.view h'.view := by
  refine ensures_get_bind ((submitBlockIo_ensures hrest _).mono ?_)
  rintro _ _ ⟨s, rfl, hanswers⟩
  exact ⟨hanswers, rfl, rfl, rfl⟩

theorem submitBlockWrite_ensures (hrest : h.surface.AtRest cq 0) (task : TaskKey)
    (block : BlockHash) : Ensures (submitBlockWrite cq task block false) h fun _ h' =>
      Submitted cq (blockRequest .writeBlock task block) h.view h'.view := by
  let counted : Harness :=
    { h with report := { h.report with blockWrites := h.report.blockWrites + 1 } }
  have hcounted : counted.surface.AtRest cq 0 := hrest
  refine ensures_count_bind (ensures_get_bind ((submitBlockIo_ensures hcounted _).mono ?_))
  rintro _ _ ⟨s, rfl, hanswers⟩
  exact ⟨hanswers, rfl, rfl, rfl⟩

theorem shmemPut_asks (ha : Asked cq descs v h.view) (req : ShmemPutReq)
    (responseErr drainErr : String) : Ensures (shmemPut cq req responseErr drainErr) h fun _ h' =>
      Asked cq (descs ++ [.shmemPut req]) v h'.view := by
  refine (submitted_ensures ha.rest (.shmemPut req) responseErr).bind ?_
  rintro _ _ ⟨s, rfl, hanswers⟩
  have hsub : Submitted cq (.shmemPut req) h.view
      { h with
        surface := s
        report := { h.report with shmemPuts := h.report.shmemPuts + 1 } : Harness }.view :=
    ⟨hanswers, rfl, rfl, rfl⟩
  exact ensures_count_bind ((drainAndRecord_ensures hsub drainErr).mono fun _ _ => ha.trans)

theorem shmemGet_asks (ha : Asked cq descs v h.view) (req : ShmemGetReq)
    (responseErr drainErr : String) : Ensures (shmemGet cq req responseErr drainErr) h fun _ h' =>
      Asked cq (descs ++ [.shmemGet req]) v h'.view := by
  refine (submitted_ensures ha.rest (.shmemGet req) responseErr).bind ?_
  rintro _ _ ⟨s, rfl, hanswers⟩
  have hsub : Submitted cq (.shmemGet req) h.view
      { h with
        surface := s
        report := { h.report with shmemGets := h.report.shmemGets + 1 } : Harness }.view :=
    ⟨hanswers, rfl, rfl, rfl⟩
  exact ensures_count_bind ((drainAndRecord_ensures hsub drainErr).mono fun _ _ => ha.trans)

end Workload

end LinquUb
