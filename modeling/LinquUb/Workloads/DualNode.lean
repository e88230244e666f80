import LinquUb.Workloads.Accounting
import LinquUb.Workloads.Requests

/-!
# What the services tell the two nodes

The dual-node workloads ask one request at a time.

* `Workload.mailboxRound_asks`, `Workload.blockComputeRound_asks`, `Workload.cacheFillRound_asks` :
  what a round asks;
* `Directory.answerAll_mailbox`, `Directory.answerAll_blockCompute`, `Directory.answerAll_fill` :
  what the directory answers;
* `WorkloadConfig.answers_trace` : **in a dual-node workload every request is answered once, in
  program order, and no answer is a failure**.
-/

namespace LinquUb

open Action

variable {cq : CqHandle} {descs : List UapiDescriptor} {v : View} {h h' : Harness}

namespace Workload

/-! ### The rounds -/

def mailboxRequests (payloadBytes : UInt64) (payloadSegment ackSegment : SegmentHandle)
    (round : ℕ) : List UapiDescriptor :=
  [.shmemPut { task := some (mailboxTask round 0), requesterEntity := 0, segment := payloadSegment,
               bytes := payloadBytes },
   .shmemGet { task := some (mailboxTask round 1), requesterEntity := 1, segment := payloadSegment,
               bytes := payloadBytes },
   .shmemPut { task := some (mailboxTask round 1), requesterEntity := 1, segment := ackSegment,
               bytes := payloadBytes },
   .shmemGet { task := some (mailboxTask round 0), requesterEntity := 0, segment := ackSegment,
               bytes := payloadBytes }]

/-- The payload goes from the first node to the second, and the acknowledgment back. -/
theorem mailboxRound_asks (ha : Asked cq descs v h.view) (runner : DispatchRunner)
    (payloadBytes : UInt64) (payloadSegment ackSegment : SegmentHandle) (ubpu : SimUbpu)
    (round : ℕ) :
    Ensures (mailboxRound runner cq payloadBytes payloadSegment ackSegment ubpu round) h
      fun _ h' => Asked cq (descs ++ mailboxRequests payloadBytes payloadSegment ackSegment round) v
        h'.view := by
  refine (elsewhere_emit rfl).ensures_bind fun _ h₁ he₁ => ?_
  refine (elsewhere_emit rfl).ensures_bind fun _ h₂ he₂ => ?_
  refine (shmemPut_asks ((ha.elsewhere he₁).elsewhere he₂) _ _ _).bind fun _ h₃ ha₃ => ?_
  refine (shmemGet_asks ha₃ _ _ _).bind fun _ h₄ ha₄ => ?_
  refine (elsewhere_runOnChip _ _).ensures_bind fun _ h₅ he₅ => ?_
  refine (shmemPut_asks (ha₄.elsewhere he₅) _ _ _).bind fun _ h₆ ha₆ => ?_
  refine (shmemGet_asks ha₆ _ _ _).mono fun _ h₇ ha₇ => ?_
  simp only [List.append_assoc] at ha₇
  exact ha₇

def sourceBlock (round : ℕ) : BlockHash := ⟨s!"w2-source-block-{round}"⟩

def resultBlock (round : ℕ) : BlockHash := ⟨s!"w2-result-block-{round}"⟩

def blockComputeRequests (round : ℕ) : List UapiDescriptor :=
  [blockRequest .writeBlock (mailboxTask round 1) (sourceBlock round),
   blockRequest .readBlock (mailboxTask round 0) (sourceBlock round),
   blockRequest .writeBlock (mailboxTask round 0) (resultBlock round)]

/-- The first node reads what the second has written, and writes its result. -/
theorem blockComputeRound_asks (ha : Asked cq descs v h.view) (runner : DispatchRunner)
    (ubpu : SimUbpu) (round : ℕ) :
    Ensures (blockComputeRound runner cq ubpu round) h fun _ h' =>
      Asked cq (descs ++ blockComputeRequests round) v h'.view := by
  refine elsewhere_count_bind (fun _ => ⟨rfl, rfl, rfl⟩) fun h₁ he₁ => ?_
  refine (elsewhere_emit rfl).ensures_bind fun _ h₂ he₂ => ?_
  refine (elsewhere_emit rfl).ensures_bind fun _ h₃ he₃ => ?_
  have ha₃ := ((ha.elsewhere he₁).elsewhere he₂).elsewhere he₃
  refine (submitBlockWrite_ensures ha₃.rest _ _).bind fun _ h₄ hsub₄ => ?_
  refine (drainAndRecord_ensures hsub₄ _).bind fun _ h₅ hone₅ => ?_
  have ha₅ := ha₃.trans hone₅
  refine (submitBlockRead_ensures ha₅.rest _ _).bind fun _ h₆ hsub₆ => ?_
  refine (drainAndRecord_ensures hsub₆ _).bind fun _ h₇ hone₇ => ?_
  refine (elsewhere_runOnChip _ _).ensures_bind fun _ h₈ he₈ => ?_
  have ha₈ := (ha₅.trans hone₇).elsewhere he₈
  refine (submitBlockWrite_ensures ha₈.rest _ _).bind fun _ h₉ hsub₉ => ?_
  refine (drainAndRecord_ensures hsub₉ _).mono fun _ h' hone => ?_
  have ha' := ha₈.trans hone
  simp only [List.append_assoc] at ha'
  exact ha'

/-- The read of a round that misses the cache. -/
def fillRequest (round : ℕ) : UapiDescriptor :=
  blockRequest .readBlock (mailboxTask round 0) sharedBlock

theorem hitOrFill_asks (ha : Asked cq descs v h.view) (planner : RecursiveRoutePlanner)
    (topology : SimTopology) (round : ℕ) :
    Ensures (hitOrFill planner topology cq (mailboxTask round 0) round) h fun _ h' =>
      Asked cq (descs ++ if (h.store.lookup sharedBlock).found then [] else [fillRequest round]) v
        h'.view := by
  refine ensures_get_bind ?_
  split_ifs
  · rw [List.append_nil]
    refine Ensures.mono (elsewhere_count ?_ h) fun _ _ he => ha.elsewhere he
    exact fun _ => ⟨rfl, rfl, rfl⟩
  · refine elsewhere_count_bind (fun _ => ⟨rfl, rfl, rfl⟩) fun h₁ he₁ => ?_
    refine (elsewhere_lift _).ensures_bind fun decision h₂ he₂ => ?_
    refine (elsewhere_emit rfl).ensures_bind fun _ h₃ he₃ => ?_
    have ha₃ := ((ha.elsewhere he₁).elsewhere he₂).elsewhere he₃
    refine ((submitBlockRead_ensures ha₃.rest _ _).bind fun _ h₄ hsub₄ =>
      drainAndRecord_ensures hsub₄ _).bind fun _ h₅ hone₅ => ?_
    have ha₅ := ha₃.trans hone₅
    refine (elsewhere_stageInsert _).ensures_bind fun _ h₆ he₆ => ?_
    refine elsewhere_count_bind (fun _ => ⟨rfl, rfl, rfl⟩) fun h₇ he₇ => ?_
    refine ensures_get_bind ?_
    have ha₇ := (ha₅.elsewhere he₆).elsewhere he₇
    split
    · exact (elsewhere_emit rfl h₇).mono fun _ _ he => ha₇.elsewhere he
    · exact ensures_pure ha₇

theorem cacheFillRound_asks {capacity : ℕ} {c : FifoSet.Cache BlockHash}
    (hs : InStep capacity c h) (ha : Asked cq descs v h.view) (runner : DispatchRunner)
    (planner : RecursiveRoutePlanner) (topology : SimTopology) (ubpu : SimUbpu) (round : ℕ) :
    Ensures (cacheFillRound runner planner topology cq ubpu round) h fun _ h' =>
      Asked cq (descs ++ if sharedBlock ∈ c.resident.items then [] else [fillRequest round]) v
        h'.view := by
  let counted : Harness :=
    { h with report := { h.report with blocksTotal := h.report.blocksTotal + 1 } }
  have hs₁ : InStep capacity c counted :=
    hs.total (b := fun t => t.books.blocksTotal + 1)
      ⟨rfl, id, fun _ hs => ⟨hs.completions, hs.fallback⟩⟩
  have ha₁ : Asked cq descs v counted.view := ha
  refine ensures_count_bind ?_
  refine ((quiet_emit rfl rfl counted).and (elsewhere_emit rfl counted)).bind
    fun _ h₂ ⟨hq₂, he₂⟩ => ?_
  refine (hitOrFill_asks (ha₁.elsewhere he₂) planner topology round).bind fun _ h₃ ha₃ => ?_
  refine (elsewhere_runOnChip _ _ h₃).mono fun _ h' he => ?_
  have hfound : (h₂.store.lookup sharedBlock).found = true ↔ sharedBlock ∈ c.resident.items :=
    (hs₁.quiet hq₂).found_iff
  simp only [hfound] at ha₃
  exact ha₃.elsewhere he

/-! ### The beginning -/

/-- The completion queue of a new surface. -/
theorem registerCq_rests {config : LocalGuestUapiSurface.Config}
    (hfresh : h.surface = .withProfilesAndRuntimePolicy config) (responseErr : String) :
    Ensures (registerCq responseErr) h fun cq h' => cq = ⟨1⟩ ∧ ∃ s, h' = { h with surface := s } ∧
      s.AtRest ⟨1⟩ 0 ∧ s.limits = h.surface.limits ∧ s.directory = ⟨∅, ∅, ∅, ∅⟩ := by
  have hexec : h.surface.execute (.registerCq 0) =
      (.ok (.cqRegistered ⟨1⟩), (h.surface.execute (.registerCq 0)).2) := by
    rw [hfresh]
    rfl
  intro cq h' hrun
  rw [registerCq, exec_bind_ok (execute_exec hexec)] at hrun
  cases hrun
  rw [hfresh]
  exact ⟨rfl, _, rfl, LocalGuestUapiSurface.registerCq_atRest config 0, rfl, rfl⟩

theorem createSegment_rests (hrest : h.surface.AtRest cq 0) (bytes : UInt64)
    (responseErr : String) :
    Ensures (createSegment bytes responseErr) h fun segment h' => ∃ s,
      h' = { h with surface := s } ∧ s.AtRest cq 0 ∧ s.limits = h.surface.limits ∧
        s.directory = { h.surface.directory with
          segments := Finmap.insert segment ⟨0, bytes⟩ h.surface.directory.segments } := by
  obtain ⟨hrest', hdirectory, hlimits⟩ := LocalGuestUapiSurface.createSegment_atRest hrest bytes
  intro segment h' hrun
  rcases Uapi.createSegment_spec bytes h.surface with
    ⟨e, s, hcreate, -⟩ | ⟨stub, hregister, hcreate⟩
  · have hexec : h.surface.execute (.createSegment bytes) = (.error e, s) :=
      exec_bind_error hcreate
    rw [createSegment, exec_bind_error (execute_error hexec)] at hrun
    cases hrun
  · have hexec : h.surface.execute (.createSegment bytes) =
        (.ok (.segmentCreated ⟨h.surface.nextSegmentId + 1⟩), { h.surface with
          nextSegmentId := h.surface.nextSegmentId + 1, shmemService := stub }) :=
      (exec_bind_ok hcreate).trans rfl
    rw [createSegment, exec_bind_ok (execute_exec hexec)] at hrun
    cases hrun
    rw [hexec] at hrest' hlimits
    refine ⟨_, rfl, hrest', hlimits, ?_⟩
    rw [ShmemServiceStub.registerSegment_ok hregister]
    rfl

/-! ### The end -/

theorem elsewhere_requireDualNode (name chipBackendMode : String) (topology : SimTopology) :
    Along Elsewhere (requireDualNode name chipBackendMode topology) :=
  (along_onlyIf elsewhere_refl (along_throw _)).bind elsewhere_trans fun _ =>
    along_onlyIf elsewhere_refl (along_throw _)

theorem elsewhere_unitOf (topology : SimTopology) (host : SimHost) (what : String) :
    Along Elsewhere (unitOf topology host what) := by
  unfold unitOf
  split
  · exact along_pure elsewhere_refl _
  · exact along_throw _

/-- The report of a run shows these answers, and nothing has failed. -/
structure Shows (answers : List Answer) (sent : Sent) (report : WorkloadRunReport) : Prop where
  served : served report.events = answers
  failures : report.failures = ⟨0, 0, 0, 0⟩
  sent : report.sent = sent

/-- A harness at the beginning of a workload. -/
structure Fresh (v : View) : Prop where
  surface : ∃ config, v.surface = .withProfilesAndRuntimePolicy config
  blocks : v.surface.limits.depths .blockService ≠ 0
  shmem : v.surface.limits.depths .shmemService ≠ 0
  peers : v.surface.limits.peerCount = 2
  served : v.served = []
  failures : v.failures = ⟨0, 0, 0, 0⟩
  sent : v.sent = ⟨0, 0, 0⟩

theorem Fresh.elsewhere (hf : Fresh h.view) (he : Elsewhere h h') : Fresh h'.view := by
  rw [he]
  exact hf

end Workload

/-! ### What the directory answers -/

def success (source : CompletionSource) (task : TaskKey) : Answer := ⟨some task, source, .success⟩

namespace Directory

open Workload

variable {limits : Limits} {d : Directory}

/-- Rounds that keep a condition. -/
theorem answerAll_rounds {ι : Type} {P : Directory → Prop} {requests : ι → List UapiDescriptor}
    {answers : ι → List Answer}
    (hround : ∀ d i, P d → (d.answerAll limits (requests i)).1 = (answers i).map some ∧
      P (d.answerAll limits (requests i)).2) (hd : P d) (l : List ι) :
    (d.answerAll limits (l.flatMap requests)).1 = (l.flatMap answers).map some := by
  induction l generalizing d with
  | nil => rfl
  | cons i l ih =>
    obtain ⟨hfirst, hnext⟩ := hround d i hd
    rw [List.flatMap_cons, answerAll_append, hfirst, ih hnext, List.flatMap_cons, List.map_append]

theorem answer_shmem {desc : UapiDescriptor} {requester : EntityId} {segment : SegmentHandle}
    {bytes : UInt64} {task : TaskKey} (htask : runtimeTaskForDescriptor desc = some task)
    (hserve : d.serve limits desc =
      (some (.shmemService, d.access limits requester segment bytes), d))
    (hdepth : limits.depths .shmemService ≠ 0) (hpeer : requester < limits.peerCount)
    (hsegment : d.segments.lookup segment = some ⟨0, bytes⟩) :
    d.answer limits desc = (some (success .shmemService task), d) := by
  have haccess : d.access limits requester segment bytes = .success := by
    simp only [access, hsegment]
    rw [if_neg (by simp), if_neg fun hdenied => UInt32.not_le.2 hpeer hdenied.2]
  rw [haccess] at hserve
  rw [answer_eq hserve (by simp), if_neg hdepth, htask]
  rfl

theorem answer_put (hdepth : limits.depths .shmemService ≠ 0) (task : TaskKey)
    {requester : EntityId} {segment : SegmentHandle} {bytes : UInt64}
    (hpeer : requester < limits.peerCount)
    (hsegment : d.segments.lookup segment = some ⟨0, bytes⟩) :
    d.answer limits (.shmemPut ⟨some task, requester, segment, bytes⟩) =
      (some (success .shmemService task), d) :=
  answer_shmem rfl rfl hdepth hpeer hsegment

theorem answer_get (hdepth : limits.depths .shmemService ≠ 0) (task : TaskKey)
    {requester : EntityId} {segment : SegmentHandle} {bytes : UInt64}
    (hpeer : requester < limits.peerCount)
    (hsegment : d.segments.lookup segment = some ⟨0, bytes⟩) :
    d.answer limits (.shmemGet ⟨some task, requester, segment, bytes⟩) =
      (some (success .shmemService task), d) :=
  answer_shmem rfl rfl hdepth hpeer hsegment

theorem answerAll_mailbox {bytes : UInt64} {payloadSegment ackSegment : SegmentHandle}
    (hdepth : limits.depths .shmemService ≠ 0) (hpeers : limits.peerCount = 2)
    (hpayload : d.segments.lookup payloadSegment = some ⟨0, bytes⟩)
    (hack : d.segments.lookup ackSegment = some ⟨0, bytes⟩) (round : ℕ) :
    d.answerAll limits (mailboxRequests bytes payloadSegment ackSegment round) =
      (([0, 1, 1, 0].map fun host => success .shmemService (mailboxTask round host)).map some,
        d) := by
  have hfirst : (0 : EntityId) < limits.peerCount := by rw [hpeers]; decide
  have hsecond : (1 : EntityId) < limits.peerCount := by rw [hpeers]; decide
  simp only [mailboxRequests, answerAll, answer_put hdepth _ hfirst hpayload,
    answer_get hdepth _ hsecond hpayload, answer_put hdepth _ hsecond hack,
    answer_get hdepth _ hfirst hack]
  rfl

theorem answer_write (hdepth : limits.depths .blockService ≠ 0) (task : TaskKey)
    (block : BlockHash) : d.answer limits (blockRequest .writeBlock task block) =
      (some (success .blockService task), { d with blocks := insert block d.blocks }) := by
  have hserve : d.serve limits (blockRequest .writeBlock task block) =
      (some (.blockService, .success), { d with blocks := insert block d.blocks }) := rfl
  rw [answer_eq hserve (by simp), if_neg hdepth]
  rfl

theorem answer_read (hdepth : limits.depths .blockService ≠ 0) (task : TaskKey)
    {block : BlockHash} (hblock : block ∈ d.blocks) :
    d.answer limits (blockRequest .readBlock task block) =
      (some (success .blockService task), d) := by
  have hserve : d.serve limits (blockRequest .readBlock task block) =
      (some (.blockService, .success), d) := by
    simp [serve, blockRequest, found, hblock]
  rw [answer_eq hserve (by simp), if_neg hdepth]
  rfl

theorem answerAll_blockCompute (hdepth : limits.depths .blockService ≠ 0) (round : ℕ) :
    (d.answerAll limits (blockComputeRequests round)).1 =
      ([1, 0, 0].map fun host => success .blockService (mailboxTask round host)).map some := by
  simp only [blockComputeRequests, answerAll, answer_write hdepth,
    answer_read (d := { d with blocks := insert (sourceBlock round) d.blocks }) hdepth _
      (Finset.mem_insert_self _ _)]
  rfl

theorem answerAll_fill (hdepth : limits.depths .blockService ≠ 0)
    (hblock : sharedBlock ∈ d.blocks) (rounds : List ℕ) :
    (d.answerAll limits (rounds.map fillRequest)).1 =
      (rounds.map fun round => success .blockService (mailboxTask round 0)).map some := by
  induction rounds with
  | nil => rfl
  | cons round rounds ih =>
    simp only [List.map_cons, answerAll, fillRequest, answer_read hdepth _ hblock]
    exact congrArg _ ih

end Directory

/-! ### Whole workloads -/

/-- The rounds of the cache-fill workload that miss. -/
def missedRounds (capacity rounds : ℕ) : List ℕ :=
  if capacity = 0 then List.range rounds else (List.range rounds).take 1

namespace WorkloadConfig

/-- The answers of the services in a dual-node workload. -/
def answers (capacity : ℕ) : WorkloadConfig → List Answer
  | .dualNodeShmemMailbox rounds _ => (List.range rounds.toNat).flatMap fun round =>
    [0, 1, 1, 0].map fun host => success .shmemService (Workload.mailboxTask round host)
  | .dualNodeBlockCompute rounds => (List.range rounds.toNat).flatMap fun round =>
    [1, 0, 0].map fun host => success .blockService (Workload.mailboxTask round host)
  | .dualNodeCacheFill rounds => success .blockService (Workload.mailboxTask 0 1) ::
    (missedRounds capacity rounds.toNat).map fun round =>
      success .blockService (Workload.mailboxTask round 0)
  | _ => []

theorem answers_success (workload : WorkloadConfig) {capacity : ℕ} :
    ∀ answer ∈ workload.answers capacity, answer.status = .success := by
  intro answer hmem
  cases workload with
  | dualNodeShmemMailbox rounds payloadBytes =>
    simp only [answers, List.mem_flatMap, List.mem_map] at hmem
    obtain ⟨round, -, host, -, rfl⟩ := hmem
    rfl
  | dualNodeBlockCompute rounds =>
    simp only [answers, List.mem_flatMap, List.mem_map] at hmem
    obtain ⟨round, -, host, -, rfl⟩ := hmem
    rfl
  | dualNodeCacheFill rounds =>
    simp only [answers, List.mem_cons, List.mem_map] at hmem
    obtain rfl | ⟨round, -, rfl⟩ := hmem <;> rfl
  | _ => cases hmem

/-- The requests that the report of a dual-node workload counts. -/
def sent : WorkloadConfig → Sent
  | .dualNodeShmemMailbox rounds _ => ⟨2 * rounds.toNat, 2 * rounds.toNat, 0⟩
  | .dualNodeBlockCompute rounds => ⟨0, 0, 2 * rounds.toNat⟩
  | .dualNodeCacheFill _ => ⟨0, 0, 1⟩
  | _ => ⟨0, 0, 0⟩

end WorkloadConfig

namespace Workload

/-- The end of a workload that has asked its requests. -/
theorem finish_shows {workload : WorkloadConfig} {capacity : ℕ} (ha : Asked cq descs v h.view)
    (hall : (v.surface.directory.answerAll v.surface.limits descs).1 =
      (workload.answers capacity).map some) (hserved : v.served = [])
    (hfailures : v.failures = ⟨0, 0, 0, 0⟩) (hsent : v.sent.after descs = workload.sent) :
    Ensures finish h fun report _ => Shows (workload.answers capacity) workload.sent report := by
  have hreduce : ((workload.answers capacity).map some).reduceOption =
      workload.answers capacity := by
    simp [List.reduceOption]
  have hanswers := ha.served
  have hcounted := ha.failures
  rw [hall, hreduce] at hanswers hcounted
  rw [hserved, List.nil_append] at hanswers
  rw [Failures.foldl_success _ workload.answers_success, hfailures] at hcounted
  intro report h' hexec
  cases hexec
  exact ⟨hanswers, hcounted, ha.sent.trans hsent⟩

theorem forM_asks {requests : ℕ → List UapiDescriptor} {body : ℕ → Workload PUnit}
    (hbody : ∀ descs h round, Asked cq descs v h.view →
      Ensures (body round) h fun _ h' => Asked cq (descs ++ requests round) v h'.view)
    (ha : Asked cq descs v h.view) (rounds : List ℕ) :
    Ensures (rounds.forM body) h fun _ h' =>
      Asked cq (descs ++ rounds.flatMap requests) v h'.view := by
  induction rounds generalizing descs h with
  | nil => exact ensures_pure (by simpa using ha)
  | cons round rounds ih =>
    refine (hbody descs h round ha).bind fun _ h₁ ha₁ => ?_
    simpa only [List.flatMap_cons, List.append_assoc] using ih ha₁

/-- Segments of one owner and size do not disturb each other. -/
theorem lookup_insert_same {m : Finmap fun _ : SegmentHandle => SegmentMeta}
    {segment other : SegmentHandle} {seg : SegmentMeta} (h : m.lookup segment = some seg) :
    (Finmap.insert other seg m).lookup segment = some seg := by
  by_cases heq : segment = other
  · rw [heq, Finmap.lookup_insert]
  · rw [Finmap.lookup_insert_of_ne m heq, h]

theorem mailbox_shows (hf : Fresh h.view) (runner : DispatchRunner) (chipBackendMode : String)
    (topology : SimTopology) (rounds payloadBytes : UInt64) (capacity : ℕ) :
    Ensures (runDualNodeShmemMailboxWorkload runner chipBackendMode topology rounds payloadBytes) h
      fun report _ => Shows ((WorkloadConfig.dualNodeShmemMailbox rounds payloadBytes).answers
        capacity) (WorkloadConfig.dualNodeShmemMailbox rounds payloadBytes).sent report := by
  refine (elsewhere_requireDualNode _ _ _).ensures_bind fun _ h₁ he₁ => ?_
  refine (elsewhere_orPanic _).ensures_bind fun hostB h₂ he₂ => ?_
  refine (elsewhere_unitOf _ _ _).ensures_bind fun ubpuB h₃ he₃ => ?_
  have hf₃ := ((hf.elsewhere he₁).elsewhere he₂).elsewhere he₃
  obtain ⟨config, hsurface⟩ := hf₃.surface
  refine (registerCq_rests hsurface _).bind ?_
  rintro _ _ ⟨rfl, s₄, rfl, hrest₄, hlimits₄, -⟩
  refine Ensures.bind (createSegment_rests hrest₄ payloadBytes _) ?_
  rintro payloadSegment _ ⟨s₅, rfl, hrest₅, hlimits₅, hdirectory₅⟩
  refine Ensures.bind (createSegment_rests hrest₅ payloadBytes _) ?_
  rintro resultSegment _ ⟨s₆, rfl, hrest₆, hlimits₆, hdirectory₆⟩
  refine Ensures.bind (createSegment_rests hrest₆ payloadBytes _) ?_
  rintro ackSegment _ ⟨s₇, rfl, hrest₇, hlimits₇, hdirectory₇⟩
  have hlimits : s₇.limits = h₃.surface.limits :=
    hlimits₇.trans (hlimits₆.trans (hlimits₅.trans hlimits₄))
  have hpayload : s₇.directory.segments.lookup payloadSegment = some ⟨0, payloadBytes⟩ := by
    rw [hdirectory₇]
    refine lookup_insert_same ?_
    rw [hdirectory₆]
    refine lookup_insert_same ?_
    rw [hdirectory₅]
    exact Finmap.lookup_insert _
  have hack : s₇.directory.segments.lookup ackSegment = some ⟨0, payloadBytes⟩ := by
    rw [hdirectory₇]
    exact Finmap.lookup_insert _
  have hnil : Asked ⟨1⟩ [] _ ({ h₃ with surface := s₇ } : Harness).view := asked_nil hrest₇
  refine (forM_asks (fun _ _ round ha => mailboxRound_asks ha _ payloadBytes payloadSegment
    ackSegment ubpuB round) hnil _).bind fun _ h₈ ha₈ => ?_
  have hall : (s₇.directory.answerAll s₇.limits ((List.range rounds.toNat).flatMap
      (mailboxRequests payloadBytes payloadSegment ackSegment))).1 =
        ((WorkloadConfig.dualNodeShmemMailbox rounds payloadBytes).answers capacity).map some := by
    refine Directory.answerAll_rounds (P := (· = s₇.directory)) ?_ rfl _
    rintro _ round rfl
    rw [Directory.answerAll_mailbox (hlimits ▸ hf₃.shmem) (hlimits ▸ hf₃.peers) hpayload hack]
    exact ⟨rfl, rfl⟩
  refine finish_shows ha₈ hall hf₃.served hf₃.failures ?_
  have hsent : h₃.report.sent = ⟨0, 0, 0⟩ := hf₃.sent
  simp [Harness.view, hsent, Sent.after, List.countP_flatMap, mailboxRequests, UapiDescriptor.puts,
      UapiDescriptor.gets, UapiDescriptor.writesBlock, Function.comp_def, WorkloadConfig.sent,
      mul_comm]

theorem blockCompute_shows (hf : Fresh h.view) (runner : DispatchRunner)
    (chipBackendMode : String) (topology : SimTopology) (rounds : UInt64) (capacity : ℕ) :
    Ensures (runDualNodeBlockComputeWorkload runner chipBackendMode topology rounds) h
      fun report _ => Shows ((WorkloadConfig.dualNodeBlockCompute rounds).answers capacity)
        (WorkloadConfig.dualNodeBlockCompute rounds).sent report := by
  refine (elsewhere_requireDualNode _ _ _).ensures_bind fun _ h₁ he₁ => ?_
  refine (elsewhere_orPanic _).ensures_bind fun hostA h₂ he₂ => ?_
  refine (elsewhere_unitOf _ _ _).ensures_bind fun ubpuA h₃ he₃ => ?_
  have hf₃ := ((hf.elsewhere he₁).elsewhere he₂).elsewhere he₃
  obtain ⟨config, hsurface⟩ := hf₃.surface
  refine (registerCq_rests hsurface _).bind ?_
  rintro _ _ ⟨rfl, s₄, rfl, hrest₄, hlimits₄, -⟩
  have hnil : Asked ⟨1⟩ [] _ ({ h₃ with surface := s₄ } : Harness).view := asked_nil hrest₄
  refine (forM_asks (fun _ _ round ha => blockComputeRound_asks ha _ ubpuA round) hnil _).bind
    fun _ h₅ ha₅ => ?_
  have hall : (s₄.directory.answerAll s₄.limits ((List.range rounds.toNat).flatMap
      blockComputeRequests)).1 =
        ((WorkloadConfig.dualNodeBlockCompute rounds).answers capacity).map some := by
    refine Directory.answerAll_rounds (P := fun _ => True) (fun d round _ => ?_) trivial _
    exact ⟨Directory.answerAll_blockCompute (hlimits₄ ▸ hf₃.blocks) round, trivial⟩
  refine finish_shows ha₅ hall hf₃.served hf₃.failures ?_
  have hsent : h₃.report.sent = ⟨0, 0, 0⟩ := hf₃.sent
  simp [Harness.view, hsent, Sent.after, List.countP_flatMap, blockComputeRequests, blockRequest,
      UapiDescriptor.puts, UapiDescriptor.gets, UapiDescriptor.writesBlock, Function.comp_def,
      WorkloadConfig.sent, mul_comm]

/-- A round of the cache-fill workload: the cache, and what was asked so far. -/
def fillStep (capacity : ℕ) (t : FifoSet.Cache BlockHash × List UapiDescriptor) (round : ℕ) :
    FifoSet.Cache BlockHash × List UapiDescriptor :=
  (t.1.step capacity (.touch sharedBlock),
    t.2 ++ if sharedBlock ∈ t.1.resident.items then [] else [fillRequest round])

theorem insert_of_empty {s : FifoSet BlockHash} (h : s.items = []) (capacity : ℕ)
    (block : BlockHash) :
    (s.insert capacity block).items = if capacity = 0 then [] else [block] := by
  have hpush : (s.push block).items = [block] := by
    rw [FifoSet.push_items_of_not_mem (by simp [h]), h, List.nil_append]
  have hinsert : (s.insert capacity block).items =
      (s.push block).items.drop ((s.push block).items.length - capacity) := rfl
  rw [hinsert, hpush]
  rcases capacity with _ | capacity <;> simp

theorem missedRounds_succ (capacity rounds : ℕ) : missedRounds capacity (rounds + 1) =
    missedRounds capacity rounds ++ if capacity = 0 ∨ rounds = 0 then [rounds] else [] := by
  unfold missedRounds
  rcases capacity with _ | capacity
  · simp [List.range_succ]
  · rcases rounds with _ | rounds
    · rfl
    · simp [List.range_succ_eq_map]

theorem foldl_fillStep (capacity rounds : ℕ) (descs : List UapiDescriptor) :
    ((List.range rounds).foldl (fillStep capacity) (.empty, descs)).1.resident.items =
        (if capacity = 0 ∨ rounds = 0 then [] else [sharedBlock]) ∧
      ((List.range rounds).foldl (fillStep capacity) (.empty, descs)).2 =
        descs ++ (missedRounds capacity rounds).map fillRequest := by
  induction rounds with
  | zero => simp [missedRounds, FifoSet.Cache.empty, FifoSet.empty]
  | succ rounds ih =>
    obtain ⟨hresident, hdescs⟩ := ih
    rw [List.range_succ, List.foldl_append, List.foldl_cons, List.foldl_nil, missedRounds_succ]
    by_cases hmiss : capacity = 0 ∨ rounds = 0
    · rw [if_pos hmiss] at hresident
      have hnot : sharedBlock ∉
          ((List.range rounds).foldl (fillStep capacity) (.empty, descs)).1.resident.items := by
        simp [hresident]
      simp only [fillStep, FifoSet.Cache.step, if_neg hnot, if_pos hmiss, hdescs, List.map_append,
        List.append_assoc, insert_of_empty hresident]
      exact ⟨by simp, rfl⟩
    · rw [if_neg hmiss] at hresident
      have hin : sharedBlock ∈
          ((List.range rounds).foldl (fillStep capacity) (.empty, descs)).1.resident.items := by
        simp [hresident]
      have hlater : ¬(capacity = 0 ∨ rounds + 1 = 0) := by omega
      simp only [fillStep, FifoSet.Cache.step, if_pos hin, if_neg hmiss, if_neg hlater, hdescs,
        List.append_nil]
      exact ⟨hresident, trivial⟩

theorem cacheFill_shows {capacity : ℕ} (hf : Fresh h.view) (hs : InStep capacity .empty h)
    (runner : DispatchRunner) (planner : RecursiveRoutePlanner) (chipBackendMode : String)
    (topology : SimTopology) (rounds : UInt64) :
    Ensures (runDualNodeCacheFillWorkload runner planner chipBackendMode topology rounds) h
      fun report _ => Shows ((WorkloadConfig.dualNodeCacheFill rounds).answers capacity)
        (WorkloadConfig.dualNodeCacheFill rounds).sent report := by
  refine ((quiet_requireDualNode _ _ _ h).and (elsewhere_requireDualNode _ _ _ h)).bind
    fun _ h₁ ⟨hq₁, he₁⟩ => ?_
  refine ((quiet_orPanic _ h₁).and (elsewhere_orPanic _ h₁)).bind fun hostA h₂ ⟨hq₂, he₂⟩ => ?_
  refine ((quiet_unitOf _ _ _ h₂).and (elsewhere_unitOf _ _ _ h₂)).bind
    fun ubpuA h₃ ⟨hq₃, he₃⟩ => ?_
  have hf₃ := ((hf.elsewhere he₁).elsewhere he₂).elsewhere he₃
  obtain ⟨config, hsurface⟩ := hf₃.surface
  refine ((quiet_registerCq _ h₃).and (registerCq_rests hsurface _)).bind ?_
  rintro _ _ ⟨hq₄, rfl, s₄, rfl, hrest₄, hlimits₄, -⟩
  refine Ensures.bind ((quiet_submitBlockWrite _ _ _ _ _).and
    (submitBlockWrite_ensures hrest₄ _ _)) fun _ h₅ ⟨hq₅, hsub₅⟩ => ?_
  refine ((quiet_drainAndRecord _ _ h₅).and (drainAndRecord_ensures hsub₅ _)).bind
    fun _ h₆ ⟨hq₆, ha₆⟩ => ?_
  have hs₄ := (((hs.quiet hq₁).quiet hq₂).quiet hq₃).quiet hq₄
  refine (ensures_forM (fun t h => InStep capacity t.1 h ∧ Asked ⟨1⟩ t.2 _ h.view)
    (fillStep capacity) (fun t h round _ ⟨hs, ha⟩ =>
      (cacheFillRound_ensures runner planner topology _ ubpuA round hs).and
        (cacheFillRound_asks hs ha runner planner topology ubpuA round))
    (t := (.empty, _)) ⟨(hs₄.quiet hq₅).quiet hq₆, ha₆⟩).bind fun _ h₇ ⟨_, ha₇⟩ => ?_
  rw [(foldl_fillStep capacity rounds.toNat _).2] at ha₇
  have hdepth : s₄.limits.depths .blockService ≠ 0 := hlimits₄ ▸ hf₃.blocks
  have hall : (s₄.directory.answerAll s₄.limits ([blockRequest .writeBlock (mailboxTask 0 1)
      sharedBlock] ++ (missedRounds capacity rounds.toNat).map fillRequest)).1 =
        ((WorkloadConfig.dualNodeCacheFill rounds).answers capacity).map some := by
    rw [Directory.answerAll_append, Directory.answerAll_one, Directory.answer_write hdepth,
      Directory.answerAll_fill hdepth (Finset.mem_insert_self _ _)]
    rfl
  refine finish_shows ha₇ hall hf₃.served hf₃.failures ?_
  have hsent : h₃.report.sent = ⟨0, 0, 0⟩ := hf₃.sent
  simp [Harness.view, hsent, Sent.after, List.countP_map, fillRequest, blockRequest, UapiDescriptor.puts,
      UapiDescriptor.gets, UapiDescriptor.writesBlock, Function.comp_def, WorkloadConfig.sent]

theorem start_fresh (env : Environment) (config : SimConfig) (topology : SimTopology)
    (runtime : LocalRuntimeEngine) : Fresh (Harness.start env config topology runtime).view := by
  obtain ⟨kind, profile, requests, hbase⟩ := config.workload.baseReport_eq
  have hdepth : config.workload.blockProfile.queueDepth ≠ 0 := by
    unfold WorkloadConfig.blockProfile
    split
    · split_ifs <;> simp [BlockServiceProfile.default]
    · simp [BlockServiceProfile.default]
  refine ⟨⟨_, rfl⟩, hdepth, ?_, rfl, ?_, ?_, ?_⟩
  · exact (show ShmemServiceProfile.default.queueDepth ≠ 0 by decide)
  all_goals
    simp only [Harness.view, Harness.start, hbase]
    rfl

theorem workload_shows {env : Environment} {config : SimConfig} {topology : SimTopology}
    {runtime : LocalRuntimeEngine}
    (hruntime : LocalRuntimeEngine.fromConfig config = some runtime)
    (hkind : config.workload.plan = none) :
    Ensures (workload env config topology) (Harness.start env config topology runtime)
      fun report _ => Shows
        (config.workload.answers config.levels.l2UbpuTier.capacityBlocks.toNat)
        config.workload.sent report := by
  have hf := start_fresh env config topology runtime
  have hs := start_inStep env config topology hruntime
  unfold workload
  rcases hworkload : config.workload with _ | _ | ⟨rounds, payloadBytes⟩ | rounds | rounds | _
  · rw [hworkload] at hkind
    cases hkind
  · rw [hworkload] at hkind
    cases hkind
  · exact mailbox_shows hf _ _ _ _ _ _
  · exact blockCompute_shows hf _ _ _ _ _
  · exact cacheFill_shows hf hs _ _ _ _ _
  · rw [hworkload] at hkind
    cases hkind

end Workload

/-- **The services of a dual-node workload.**  Every request of the two nodes is answered once, in
program order, and no answer is a failure: a node reads what the other has written.  In the
cache-fill workload the rounds that hit ask nothing. -/
theorem WorkloadConfig.answers_trace (env : Environment) (config : SimConfig)
    (topology : SimTopology) (report : WorkloadRunReport) (h : Harness)
    (hkind : config.workload.plan = none)
    (hrun : runMinimalWorkload env config topology = .ok (report, h)) :
    Workload.Shows (config.workload.answers config.levels.l2UbpuTier.capacityBlocks.toNat)
      config.workload.sent report := by
  unfold runMinimalWorkload at hrun
  split at hrun
  · cases hrun
  · rename_i runtime hruntime
    split at hrun
    · rename_i hexec
      cases hrun
      exact Workload.workload_shows hruntime hkind _ _ hexec
    · cases hrun

/-- Two rounds of the mailbox. -/
def SimConfig.twoRounds : SimConfig :=
  { SimConfig.oneRequest 4 with
    workload := .dualNodeShmemMailbox 2 64
    chipBackendMode := "simpler"
    dispatchLatencyUs := some 10
    l3FetchLatencyUs := some 5
    l4FetchLatencyUs := some 5 }

theorem WorkloadConfig.answers_trace_twoRounds : ∃ topology report h,
    SimTopology.fromConfig SimConfig.twoRounds.toScenarioConfig = .ok topology ∧
      runMinimalWorkload .orderly .twoRounds topology = .ok (report, h) ∧
      Workload.Shows (SimConfig.twoRounds.workload.answers 4) ⟨4, 4, 0⟩ report := by
  obtain ⟨topology, report, h, htopology, hrun, -⟩ :=
    SimConfig.exists_run .twoRounds (fun _ _ => true) (by decide +kernel)
  exact ⟨topology, report, h, htopology, hrun,
    WorkloadConfig.answers_trace .orderly .twoRounds topology report h rfl hrun⟩

end LinquUb
