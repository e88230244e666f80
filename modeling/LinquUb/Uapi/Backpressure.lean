import LinquUb.Uapi.Levels

/-!
# How much backpressure a poll absorbs

A record that its service refuses goes back to the runtime queue, behind a drain of all services, and
the flush drives the queue again.  Every level of the flush divides the records that a service of
depth `D` still owes by `D + 1`, so `R` retries absorb fewer than `(D + 1) ^ R` of them beyond the
room that the service has.

* `Fresh` : between commands no record has used a retry;
* `Absorbs source s j` : `j` levels are enough for the records of a service;
* `Overruns source s j` : there is one record more than that, and no other service to drain this one;
* `LocalGuestUapiSurface.poll_absorbs` : **no descriptor is given up for a full queue while there are
  fewer of them than that**, and one is with the first number beyond it.
-/

namespace LinquUb

open Action

namespace Uapi

open Flow (Isolated)
open LocalGuestUapiSurface (SameServices)

variable {s s' : LocalGuestUapiSurface} {source : CompletionSource}

/-! ### Between commands -/

/-- No record of the runtime queue has used a retry. -/
def Fresh (s : LocalGuestUapiSurface) : Prop :=
  ∀ record ∈ s.runtimeQueue.queue.pending, record.attempts = 0

/-- The runtime queue stays as it is. -/
def SameRuntime (s s' : LocalGuestUapiSurface) : Prop := s'.runtimeQueue = s.runtimeQueue

theorem Fresh.same (h : Fresh s) (hsame : SameRuntime s s') : Fresh s' := by
  rw [Fresh, hsame]
  exact h

theorem createSegment_sameRuntime (bytes : UInt64) : Within SameRuntime (createSegment bytes) := by
  intro s
  rcases createSegment_spec bytes s with ⟨_, _, hexec, rfl | rfl⟩ | ⟨_, _, hexec⟩ <;> rw [hexec] <;>
    rfl

theorem createCmdQueue_sameRuntime (cq : CqHandle) (owner : EntityId) (depth : ℕ) :
    Within SameRuntime (createCmdQueue cq owner depth) := by
  intro s
  rcases createCmdQueue_spec cq owner depth s with ⟨_, hexec⟩ | ⟨_, _, _, hexec⟩ <;> rw [hexec] <;>
    rfl

theorem enqueueCmd_sameRuntime (cmdq : CmdQueueHandle) (owner : EntityId) (desc : UapiDescriptor) :
    Within SameRuntime (enqueueCmd cmdq owner desc) := by
  intro s
  rcases enqueueCmd_cases cmdq owner desc s with ⟨_, hexec⟩ | ⟨_, _, _, _, hexec⟩ <;> rw [hexec] <;>
    rfl

theorem submitDirect_sameRuntime (desc : UapiDescriptor) :
    Within SameRuntime (submitDirect desc) := by
  intro s
  unfold submitDirect
  rcases defaultCq_spec s with ⟨cq, st, hcq, hexec⟩ | ⟨_, hexec⟩
  · rw [exec_bind_ok hexec]
    let sub : Submission := { desc, ticket := s.tickets, queue := none }
    let s₁ := { s with tickets := s.tickets + 1 }
    rw [exec_bind_ok (show exec (enter desc none) s = (.ok sub, s₁) from rfl)]
    exact (submitDescriptorToCq_disposes sub cq s₁).1.1
  · rw [exec_bind_error hexec]
    rfl

theorem stageAll_fresh (cq : CqHandle) (subs : List Submission) (h : Fresh s) :
    Fresh (exec (stageAll cq subs) s).2 := by
  induction subs generalizing s with
  | nil => exact h
  | cons sub rest ih =>
    rcases stageRuntimeDescriptor_spec cq sub s with ⟨_, hexec⟩ | ⟨_, hexec⟩
    · rw [stageAll, exec_bind_ok hexec]
      refine ih fun record hrecord => ?_
      rcases List.mem_append.1 hrecord with hrecord | hrecord
      · exact h record hrecord
      · rw [List.mem_singleton.1 hrecord]
        rfl
    · rw [stageAll, exec_bind_error hexec]
      exact h

theorem ringDoorbell_fresh (cmdq : CmdQueueHandle) (owner : EntityId) (maxBatch : Option ℕ)
    (h : Fresh s) : Fresh (exec (ringDoorbell cmdq owner maxBatch) s).2 := by
  rcases doorbell_cases s cmdq owner with ⟨queue, hq, rfl⟩ | hforeign
  · rw [ringDoorbell_exec maxBatch hq, exec_map_snd]
    exact stageAll_fresh queue.cq _ h
  · obtain ⟨e, hexec⟩ := ringDoorbell_foreign maxBatch hforeign
    rw [hexec]
    exact h

theorem pollCqWithOwner_fresh (hs : Isolated s.flow) (cq : CqHandle) (owner : EntityId)
    (maxEntries : Option ℕ) : Fresh (exec (pollCqWithOwner cq owner maxEntries) s).2 := by
  have hruntime := (pollCqWithOwner_drained hs cq owner maxEntries).runtime
  have hnone := List.isEmpty_iff.1 hruntime
  intro record hrecord
  rw [hnone] at hrecord
  cases hrecord

/-- A poll leaves nothing behind that could have used a retry. -/
theorem execute_fresh (hs : Isolated s.flow) (h : Fresh s) (cmd : UapiCommand) :
    Fresh (s.execute cmd).2 := by
  unfold LocalGuestUapiSurface.execute
  cases cmd with
  | queryTopology => exact h
  | createSegment bytes =>
    rw [Uapi.execute, exec_map_snd]
    exact h.same (createSegment_sameRuntime bytes s)
  | registerCq owner => exact h
  | createCmdQueue cq owner depth =>
    rw [Uapi.execute, exec_map_snd]
    exact h.same (createCmdQueue_sameRuntime cq owner depth s)
  | enqueueCmd cmdq owner desc =>
    exact (exec_map_snd (enqueueCmd cmdq owner desc) _ s).symm ▸
      h.same (enqueueCmd_sameRuntime cmdq owner desc s)
  | ringDoorbell cmdq owner maxBatch =>
    exact (exec_map_snd (ringDoorbell cmdq owner maxBatch) _ s).symm ▸
      ringDoorbell_fresh cmdq owner maxBatch h
  | getHealth entity =>
    rw [Uapi.execute, exec_map_snd, getHealth_state]
    exact h
  | pollCq cq owner maxEntries =>
    exact (exec_map_snd (pollCqWithOwner cq owner maxEntries) _ s).symm ▸
      pollCqWithOwner_fresh hs cq owner maxEntries
  | drainCq cq owner =>
    exact (exec_map_snd (pollCqWithOwner cq owner none) _ s).symm ▸
      pollCqWithOwner_fresh hs cq owner none
  | submitIo req | submitBlockWriteback block task | submitShmemPut req | submitShmemGet req
  | submitDfsRead req | submitDfsWrite req | submitDbPut req | submitDbGet req =>
    rw [Uapi.execute, exec_map_snd]
    exact h.same (submitDirect_sameRuntime _ s)

/-! ### Few enough records -/

theorem waitingFor_pos {pending : List UapiRecord} {record : UapiRecord} (hrecord : record ∈ pending)
    (hsource : serviceOf record = some source) : 0 < waitingFor source pending :=
  List.countP_pos_iff.2 ⟨record, hrecord, decide_eq_true hsource⟩

theorem givenUp_pos_iff {failures : List UapiRuntimeFailure} :
    0 < givenUp source failures ↔ ∃ failure ∈ failures,
      isQueueFull failure.code = true ∧ failure.sub.desc.service = some source := by
  simp [givenUp, List.countP_pos_iff]

/-- While every record has a retry left, none is given up. -/
theorem Level.givenUp_eq_zero {again : Bool} (h : Level s s' again)
    (hbudget : ∀ record ∈ s.runtimeQueue.queue.pending, serviceOf record = some source →
      record.attempts < s.runtimeQueue.queue.maxRetries) :
    givenUp source (levelFailures s) = 0 := by
  by_contra hne
  obtain ⟨failure, hfailure, hfull, hsource⟩ := givenUp_pos_iff.1 (Nat.pos_of_ne_zero hne)
  obtain ⟨entry, t, -, hentry, hsub, hspent⟩ := h.spent hfailure hfull
  have hlt := hbudget entry hentry (by rw [← hsource, serviceOf, hsub])
  omega

/-- The records of the service that are waiting need no more than `j` retries. -/
structure Absorbs (source : CompletionSource) (s : LocalGuestUapiSurface) (j : ℕ) : Prop where
  isolated : Isolated s.flow
  budget : ∀ record ∈ s.runtimeQueue.queue.pending, serviceOf record = some source →
    record.attempts + j ≤ s.runtimeQueue.queue.maxRetries
  waiting : waitingFor source s.runtimeQueue.queue.pending <
    ((s.depths source).toNat + 1) ^ j + s.room source

namespace Absorbs

variable {again : Bool} {j : ℕ}

/-- There is room for all of them at the last level. -/
theorem last (h : Absorbs source s 0) (hlevel : Level s s' again) :
    waitingFor source s'.runtimeQueue.queue.pending = 0 ∧ givenUp source (levelFailures s) = 0 := by
  obtain ⟨slack, heq, -⟩ := hlevel.turnedAway_eq source
  have hwaiting := h.waiting
  have hroom := hlevel.room_le source
  rw [← Nat.add_eq_zero_iff]
  by_contra hne
  have := Nat.le_mul_of_pos_left ((s.depths source).toNat + 1) (Nat.pos_of_ne_zero hne)
  rw [Nat.pow_zero] at hwaiting
  omega

/-- **A level of a flush brings the records of the service one level closer.** -/
theorem next (h : Absorbs source s (j + 1)) (hlevel : Level s s' again) : Absorbs source s' j := by
  refine ⟨hlevel.isolated, fun record hrecord hsource => ?_, ?_⟩
  · obtain ⟨entry, hentry, hpayload, hattempts⟩ := hlevel.requeued hrecord
    have hbudget := h.budget entry hentry (by rw [← hsource, serviceOf, serviceOf, hpayload])
    rw [hlevel.maxRetries]
    omega
  · obtain ⟨slack, heq, -⟩ := hlevel.turnedAway_eq source
    have hwaiting := h.waiting
    have hroom := hlevel.room_le source
    rw [hlevel.depths]
    rw [Nat.pow_succ] at hwaiting
    by_contra hmany
    have hmul := Nat.mul_le_mul_right ((s.depths source).toNat + 1) (Nat.not_lt.1 hmany)
    rw [Nat.add_mul] at hmul heq
    have : s'.room source ≤ s'.room source * ((s.depths source).toNat + 1) :=
      Nat.le_mul_of_pos_right _ (Nat.succ_pos _)
    omega

/-- A level gives none of them up. -/
theorem givenUp_eq_zero (h : Absorbs source s j) (hlevel : Level s s' again) :
    givenUp source (levelFailures s) = 0 := by
  cases j with
  | zero => exact (h.last hlevel).2
  | succ j =>
    refine hlevel.givenUp_eq_zero fun record hrecord hsource => ?_
    have := h.budget record hrecord hsource
    omega

/-- No record of the service is given up for a full queue. -/
theorem reports (h : Absorbs source s j) {failure : UapiRuntimeFailure}
    (hreports : FlushReports s failure) (hsource : failure.sub.desc.service = some source) :
    isQueueFull failure.code = false := by
  induction hreports generalizing j with
  | @here s failure hreport =>
    obtain ⟨_, _, hlevel⟩ := exists_level h.isolated
    by_contra hfull
    have hpos := givenUp_pos_iff.2 ⟨failure, hreport, Bool.not_eq_false _ ▸ hfull, hsource⟩
    exact absurd (h.givenUp_eq_zero hlevel) (Nat.ne_of_gt hpos)
  | @deeper s s' failure hagain hrest ih =>
    obtain ⟨_, _, hlevel⟩ := exists_level h.isolated
    have hexec := hlevel.exec
    rw [hagain] at hexec
    cases hexec
    cases j with
    | succ j => exact ih (h.next hlevel) hsource
    | zero =>
      -- the others go on, without records of the service
      refine ih (j := 0) ⟨hlevel.isolated, fun record hrecord hservice => ?_, ?_⟩ hsource
      · exact absurd (h.last hlevel).1 (Nat.ne_of_gt (waitingFor_pos hrecord hservice))
      · rw [(h.last hlevel).1, Nat.pow_zero]
        omega

/-- Every record of the service is accepted by it at some level. -/
theorem submitted (h : Absorbs source s j) {entry : UapiRecord}
    (hentry : entry ∈ s.runtimeQueue.queue.pending) (hsource : serviceOf entry = some source) :
    ∃ entry' t, FlushCalls s entry' t ∧ entry'.payload = entry.payload ∧ Submitted entry' t := by
  induction j generalizing s entry with
  | zero =>
    obtain ⟨s', _, hlevel⟩ := exists_level h.isolated
    obtain ⟨hnone, hkept⟩ := h.last hlevel
    obtain ⟨t, hcall, hsubmitted | ⟨record, hrecord, hpayload⟩ | ⟨failure, hfailure, hfull, hsub⟩⟩ :=
      hlevel.settled hentry hsource
    · exact ⟨entry, t, .here hcall, rfl, hsubmitted⟩
    · have hpos := waitingFor_pos hrecord (by rw [← hsource, serviceOf, serviceOf, hpayload])
      exact absurd hnone (Nat.ne_of_gt hpos)
    · have hpos := givenUp_pos_iff.2 ⟨failure, hfailure, hfull, by rw [← hsource, serviceOf, hsub]⟩
      exact absurd hkept (Nat.ne_of_gt hpos)
  | succ j ih =>
    obtain ⟨s', again, hlevel⟩ := exists_level h.isolated
    have hkept := h.givenUp_eq_zero hlevel
    obtain ⟨t, hcall, hsubmitted | ⟨record, hrecord, hpayload⟩ | ⟨failure, hfailure, hfull, hsub⟩⟩ :=
      hlevel.settled hentry hsource
    · exact ⟨entry, t, .here hcall, rfl, hsubmitted⟩
    · obtain ⟨entry', t, hcall, hpayload', hsubmitted⟩ := ih (h.next hlevel) hrecord (by
        rw [← hsource, serviceOf, serviceOf, hpayload])
      have hagain : again = true := hlevel.again.2 (List.ne_nil_of_mem hrecord)
      exact ⟨entry', t, .deeper (hagain ▸ hlevel.exec) hcall, hpayload'.trans hpayload, hsubmitted⟩
    · have hpos := givenUp_pos_iff.2 ⟨failure, hfailure, hfull, by rw [← hsource, serviceOf, hsub]⟩
      exact absurd hkept (Nat.ne_of_gt hpos)

end Absorbs

/-! ### One record too many -/

/-- One record more than `j` levels absorb, while nothing is waiting for the other services. -/
structure Overruns (source : CompletionSource) (s : LocalGuestUapiSurface) (j : ℕ) : Prop where
  isolated : Isolated s.flow
  alone : Alone source s.runtimeQueue.queue.pending
  budget : ∀ record ∈ s.runtimeQueue.queue.pending, serviceOf record = some source →
    record.attempts + j = s.runtimeQueue.queue.maxRetries
  waiting : waitingFor source s.runtimeQueue.queue.pending =
    ((s.depths source).toNat + 1) ^ j + s.room source

/-- A remainder below the factor of two multiples vanishes. -/
theorem eq_of_mul_succ {d p r w : ℕ} (heq : w * (d + 1) = r + p * (d + 1)) (hr : r ≤ d) :
    w = p ∧ r = 0 := by
  have hdvd : d + 1 ∣ r := (Nat.dvd_add_left (Nat.dvd_mul_left _ p)).1 (heq ▸ Nat.dvd_mul_left _ w)
  have hzero := Nat.eq_zero_of_dvd_of_lt hdvd (Nat.lt_succ_of_le hr)
  refine ⟨Nat.eq_of_mul_eq_mul_right (Nat.succ_pos d) ?_, hzero⟩
  rw [heq, hzero, Nat.zero_add]

namespace Overruns

variable {again : Bool} {j : ℕ}

/-- The last level gives a record up. -/
theorem last (h : Overruns source s 0) (hlevel : Level s s' again) :
    0 < givenUp source (levelFailures s) := by
  obtain ⟨slack, heq, hzero⟩ := hlevel.turnedAway_eq source
  have hwaiting := h.waiting
  have hnone : waitingFor source s'.runtimeQueue.queue.pending = 0 := by
    -- a record that came back would have been retried once too often
    by_contra hne
    obtain ⟨record, hrecord, hsource⟩ := List.countP_pos_iff.1 (Nat.pos_of_ne_zero hne)
    obtain ⟨entry, hentry, hpayload, hattempts⟩ := hlevel.requeued hrecord
    have hservice : serviceOf entry = some source := by
      rw [← of_decide_eq_true hsource, serviceOf, serviceOf, hpayload]
    have hbudget := h.budget entry hentry hservice
    have hwithin := hlevel.budget record hrecord
    omega
  rw [hnone, hzero h.alone, Nat.zero_add] at heq
  rw [Nat.pow_zero] at hwaiting
  by_contra hnot
  rw [Nat.eq_zero_of_not_pos hnot, Nat.zero_mul] at heq
  omega

/-- A level leaves as many records as the other levels do not absorb, and no room. -/
theorem next (h : Overruns source s (j + 1)) (hlevel : Level s s' again) :
    Overruns source s' j := by
  refine ⟨hlevel.isolated, fun record hrecord => ?_, fun record hrecord hsource => ?_, ?_⟩
  · obtain ⟨entry, hentry, hpayload, -⟩ := hlevel.requeued hrecord
    rw [serviceOf, hpayload]
    exact h.alone entry hentry
  · obtain ⟨entry, hentry, hpayload, hattempts⟩ := hlevel.requeued hrecord
    have hbudget := h.budget entry hentry (by rw [← hsource, serviceOf, serviceOf, hpayload])
    rw [hlevel.maxRetries]
    omega
  · have hkept : givenUp source (levelFailures s) = 0 := by
      refine hlevel.givenUp_eq_zero fun record hrecord hsource => ?_
      have hbudget := h.budget record hrecord hsource
      omega
    obtain ⟨slack, heq, hzero⟩ := hlevel.turnedAway_eq source
    have hroom := hlevel.room_le source
    rw [h.waiting, hkept, hzero h.alone, Nat.pow_succ, Nat.add_zero, Nat.add_zero] at heq
    obtain ⟨hwaiting, hnone⟩ := eq_of_mul_succ (p := ((s.depths source).toNat + 1) ^ j)
      (w := waitingFor source s'.runtimeQueue.queue.pending) (by omega) hroom
    rw [hlevel.depths, hwaiting, hnone]
    rfl

/-- A flush gives one of them up for a full queue. -/
theorem reports (h : Overruns source s j) :
    ∃ failure, FlushReports s failure ∧ isQueueFull failure.code = true ∧
      failure.sub.desc.service = some source := by
  induction j generalizing s with
  | zero =>
    obtain ⟨_, _, hlevel⟩ := exists_level h.isolated
    obtain ⟨failure, hfailure, hfull, hsource⟩ := givenUp_pos_iff.1 (h.last hlevel)
    exact ⟨failure, .here hfailure, hfull, hsource⟩
  | succ j ih =>
    obtain ⟨s', again, hlevel⟩ := exists_level h.isolated
    obtain ⟨failure, hreports, hfailure⟩ := ih (h.next hlevel)
    have hwaiting := (h.next hlevel).waiting
    have hpow : 0 < ((s'.depths source).toNat + 1) ^ j := Nat.pow_pos (Nat.succ_pos _)
    -- so the flush goes on
    have hagain : again = true := hlevel.again.2 fun hnil => by
      rw [hnil, waitingFor, List.countP_nil] at hwaiting
      omega
    exact ⟨failure, .deeper (hagain ▸ hlevel.exec) hreports, hfailure⟩

end Overruns

end Uapi

namespace LocalGuestUapiSurface

open Uapi

theorem run_fresh (config : Config) (cmds : List UapiCommand) :
    Fresh ((withProfilesAndRuntimePolicy config).run cmds) := by
  induction cmds using List.reverseRecOn with
  | nil => exact fun _ h => (by cases h)
  | append_singleton cmds cmd ih =>
    rw [run, List.foldl_append]
    exact execute_fresh (run_isolated config cmds) ih cmd

/-- The surface after a poll has the state of `pollCqWithOwner`. -/
theorem execute_pollCq (s : LocalGuestUapiSurface) (cq : CqHandle) (owner : EntityId)
    (maxEntries : Option ℕ) : (s.execute (.pollCq cq owner maxEntries)).2 =
      (exec (pollCqWithOwner cq owner maxEntries) s).2 :=
  exec_map_snd (pollCqWithOwner cq owner maxEntries) _ s

/-- The completions that a poll pushes. -/
def pollPushes (s : LocalGuestUapiSurface) (cq : CqHandle) (owner : EntityId)
    (maxEntries : Option ℕ) : List (CqHandle × Owned Submission) :=
  (s.execute (.pollCq cq owner maxEntries)).2.history.pushes.drop s.history.pushes.length

/-- Which completions of a poll report exhaustion. -/
theorem pollPushes_tells {s : LocalGuestUapiSurface} (hs : Flow.Isolated s.flow) (cq : CqHandle)
    (owner : EntityId) (maxEntries : Option ℕ) :
    (∀ push ∈ s.pollPushes cq owner maxEntries, RuntimeExhausted push.2.event →
      ∃ failure, FlushReports s failure ∧ Reports failure push) ∧
    ∀ failure, FlushReports s failure →
      ∃ push ∈ s.pollPushes cq owner maxEntries, Reports failure push := by
  obtain ⟨added, hadded, htells⟩ := pollCqWithOwner_tells hs cq owner maxEntries
  rw [pollPushes, execute_pollCq, hadded, List.drop_left]
  exact htells

/-- **A poll absorbs the backpressure of a service of depth `D` up to `(D + 1) ^ maxRetries`
descriptors beyond the room of the service**: then each of them is accepted by the service, and no
completion reports that one was given up because the service was full.  With that many, and nothing
for the other services, there is such a completion.  In any case a descriptor is given up for a full
queue only once its retries are used up. -/
theorem poll_absorbs (config : Config) (cmds : List UapiCommand) (source : CompletionSource) :
    let s := (withProfilesAndRuntimePolicy config).run cmds
    let pending := s.runtimeQueue.queue.pending
    let most := ((s.depths source).toNat + 1) ^ s.runtimeQueue.queue.maxRetries + s.room source
    (waitingFor source pending < most →
      (∀ entry ∈ pending, serviceOf entry = some source →
        ∃ entry' t, FlushCalls s entry' t ∧ entry'.payload = entry.payload ∧ Submitted entry' t) ∧
      ∀ cq owner maxEntries, ∀ push ∈ s.pollPushes cq owner maxEntries,
        push.2.owner.desc.service = some source → ¬RuntimeExhausted push.2.event) ∧
    (waitingFor source pending = most → Alone source pending →
      ∀ cq owner maxEntries, ∃ push ∈ s.pollPushes cq owner maxEntries,
        push.2.owner.desc.service = some source ∧ RuntimeExhausted push.2.event) ∧
    ∀ cq owner maxEntries, ∀ push ∈ s.pollPushes cq owner maxEntries,
      RuntimeExhausted push.2.event → ∃ entry t, FlushCalls s entry t ∧
        entry.payload.payload.sub = push.2.owner ∧
        s.runtimeQueue.queue.maxRetries ≤ entry.attempts := by
  intro s pending most
  have hs := run_isolated config cmds
  have hfresh := run_fresh config cmds
  refine ⟨fun hwaiting => ?_, fun hwaiting halone cq owner maxEntries => ?_,
    fun cq owner maxEntries push hpush hexhausted => ?_⟩
  · have habsorbs : Absorbs source s s.runtimeQueue.queue.maxRetries :=
      ⟨hs, fun record hrecord _ => by rw [hfresh record hrecord, Nat.zero_add], hwaiting⟩
    refine ⟨fun entry hentry hsource => habsorbs.submitted hentry hsource,
      fun cq owner maxEntries push hpush hsource hexhausted => ?_⟩
    obtain ⟨failure, hreports, hpushed⟩ :=
      (pollPushes_tells hs cq owner maxEntries).1 push hpush hexhausted
    have hfull := habsorbs.reports hreports (hpushed.owner ▸ hsource)
    rw [hpushed.exhausted_iff.1 hexhausted] at hfull
    cases hfull
  · have hoverruns : Overruns source s s.runtimeQueue.queue.maxRetries :=
      ⟨hs, halone, fun record hrecord _ => by rw [hfresh record hrecord, Nat.zero_add], hwaiting⟩
    obtain ⟨failure, hreports, hfull, hsource⟩ := hoverruns.reports
    obtain ⟨push, hpush, hpushed⟩ := (pollPushes_tells hs cq owner maxEntries).2 failure hreports
    exact ⟨push, hpush, hpushed.owner ▸ hsource, hpushed.exhausted_iff.2 hfull⟩
  · obtain ⟨failure, hreports, hpushed⟩ :=
      (pollPushes_tells hs cq owner maxEntries).1 push hpush hexhausted
    obtain ⟨entry, t, hcall, hentry, hspent⟩ :=
      hreports.spent hs (hpushed.exhausted_iff.1 hexhausted)
    exact ⟨entry, t, hcall, hentry.trans hpushed.owner.symm, hspent⟩

/-- Puts of the given keys, rung with one doorbell. -/
def puts (keys : List String) : List UapiCommand :=
  [.registerCq 1, .createCmdQueue ⟨1⟩ 1 8] ++
    (keys.map fun key => .enqueueCmd ⟨1⟩ 1 (.dbPut ⟨none, key, 8⟩)) ++ [.ringDoorbell ⟨1⟩ 1 none]

theorem poll_absorbs_two :
    let s := (withProfilesAndRuntimePolicy (.sample 1 32)).run (puts ["a", "b"])
    waitingFor .dbService s.runtimeQueue.queue.pending = 2 ∧
      ∀ push ∈ s.pollPushes ⟨1⟩ 1 none, push.2.owner.desc.service = some .dbService →
        ¬RuntimeExhausted push.2.event :=
  ⟨by decide +kernel, ((poll_absorbs (.sample 1 32) (puts ["a", "b"]) .dbService).1
    (by decide +kernel)).2 ⟨1⟩ 1 none⟩

/-- A database queue of depth 1 and one retry do not absorb three puts: the second one finds the
queue full twice. -/
theorem three_puts_exhaust :
    let config := Config.sample 1 32
    let s := (withProfilesAndRuntimePolicy config).run (puts ["a", "b", "c"])
    (1 ≤ config.blockProfile.queueDepth ∧ 1 ≤ config.shmemProfile.queueDepth ∧
      1 ≤ config.dfsProfile.queueDepth ∧ 1 ≤ config.dbProfile.queueDepth ∧
      1 ≤ config.runtimeMaxRetries) ∧
    waitingFor .dbService s.runtimeQueue.queue.pending = 3 ∧
    ∃ push ∈ s.pollPushes ⟨1⟩ 1 none,
      push.2.owner.desc.service = some .dbService ∧ RuntimeExhausted push.2.event := by
  intro config s
  have hthird : (s.pollPushes ⟨1⟩ 1 none)[2]?.map (fun push => (push.2.owner.desc,
      push.2.event.source, push.2.event.status)) = some (.dbPut ⟨none, "b", 8⟩, .guestUapi,
        .retryableFailure "runtime_exhausted_db queue full") := by decide +kernel
  obtain ⟨push, hpush, hreport⟩ := Option.map_eq_some_iff.1 hthird
  obtain ⟨hdesc, hsource, hstatus⟩ : push.2.owner.desc = _ ∧ push.2.event.source = _ ∧
    push.2.event.status = _ := by simpa only [Prod.mk.injEq] using hreport
  refine ⟨by decide, by decide +kernel, push, List.mem_of_getElem? hpush, ?_, hsource,
    "db queue full", by decide, hstatus⟩
  rw [hdesc]
  rfl

end LocalGuestUapiSurface

end LinquUb
