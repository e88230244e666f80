import LinquUb.Uapi.Rooms

/-!
# The levels of a flush

One level of a forced flush drives the records of the runtime queue once: the records that go back
have used one more retry, and those that have none left are reported as exhausted.

* `Level` : one level, with what it leaves behind and what it reports;
* `Level.settled` : a record is accepted by its service, goes back, or is given up;
* `FlushReports` : the failures that a forced flush reports;
* `pollCqWithOwner_tells` : **the completions of a poll that report exhaustion are those for these
  failures**.
-/

namespace LinquUb

open Action

namespace Uapi

open Flow (Isolated)
open LocalGuestUapiSurface (SameServices)

variable {s s' : LocalGuestUapiSurface} {source : CompletionSource}

/-! ### Driving -/

namespace Driven

variable {ready : List UapiRecord}
  {acc acc' : SharedRuntimeQueue (RuntimeWorkItem UapiRuntimePayload) × List UapiRuntimeFailure}

theorem grows (h : Driven ready acc s acc' s') :
    acc.1.pending ⊆ acc'.1.pending ∧ acc.2 ⊆ acc'.2 := by
  induction h with
  | nil => exact ⟨fun _ h => h, fun _ h => h⟩
  | cons _ _ _ ih =>
    obtain ⟨hpending, hfailures⟩ := SharedRuntimeExecutor.settle_grows u64Max _ _ _
    exact ⟨fun _ h => ih.1 (hpending h), fun _ h => ih.2 (hfailures h)⟩

/-- A record is accepted by its service, goes back to the queue, or is given up for a full queue. -/
theorem settled (h : Driven ready acc s acc' s') {entry : UapiRecord} (hentry : entry ∈ ready)
    (hsource : serviceOf entry = some source) :
    ∃ t, DriveCalls ready s entry t ∧ (Submitted entry t ∨
      (∃ record ∈ acc'.1.pending, record.payload = entry.payload) ∨
      ∃ failure ∈ acc'.2, isQueueFull failure.code = true ∧
        failure.sub = entry.payload.payload.sub) := by
  induction h with
  | nil => cases hentry
  | @cons head ready acc acc' s s₁ s' action hrun hissued hrest ih =>
    rcases List.mem_cons.1 hentry with rfl | hentry
    · refine ⟨s, .here, ?_⟩
      obtain ⟨hpending, hfailures⟩ := hrest.grows
      cases hissued with
      | complete hsubmitted => exact .inl hsubmitted
      | fail code hnone =>
        rw [hnone] at hsource
        cases hsource
      | retry code hcode =>
        refine .inr ?_
        rcases acc.1.retry_spec entry u64Max with ⟨_, hretry⟩ | ⟨_, hretry⟩ <;>
          simp only [SharedRuntimeExecutor.settle, hretry] at hpending hfailures
        · exact .inl ⟨_, hpending (List.mem_append_right _ (List.mem_singleton_self _)), rfl⟩
        · exact .inr ⟨_, hfailures (List.mem_append_right _ (List.mem_singleton_self _)), hcode, rfl⟩
    · obtain ⟨t, hcall, hsettled⟩ := ih hentry
      exact ⟨t, .later hrun hcall, hsettled⟩

/-- A record that goes back to the queue has used one more retry. -/
theorem requeued (h : Driven ready acc s acc' s') :
    ∀ record ∈ acc'.1.pending, record ∈ acc.1.pending ∨ ∃ entry ∈ ready,
      record.payload = entry.payload ∧ record.attempts = entry.attempts + 1 := by
  induction h with
  | nil => exact fun record hrecord => .inl hrecord
  | @cons entry ready acc acc' s s₁ s' action hrun hissued hrest ih =>
    intro record hrecord
    rcases ih record hrecord with hrecord | ⟨entry', hentry', hsame⟩
    · cases hissued with
      | complete => exact .inl hrecord
      | fail => exact .inl hrecord
      | retry =>
        rcases acc.1.retry_spec entry u64Max with ⟨_, hretry⟩ | ⟨_, hretry⟩ <;>
          simp only [SharedRuntimeExecutor.settle, hretry] at hrecord
        · refine (List.mem_append.1 hrecord).imp_right fun hnew => ?_
          rw [List.mem_singleton.1 hnew]
          exact ⟨entry, List.mem_cons_self, rfl, rfl⟩
        · exact .inl hrecord
    · exact .inr ⟨entry', List.mem_cons_of_mem _ hentry', hsame⟩

/-- A record is given up for a full queue only when its retries are used up. -/
theorem spent (h : Driven ready acc s acc' s') {m : ℕ} (hmax : acc.1.maxRetries = m) :
    ∀ failure ∈ acc'.2, failure ∈ acc.2 ∨ isQueueFull failure.code = false ∨
      ∃ entry t, DriveCalls ready s entry t ∧ entry ∈ ready ∧
        failure.sub = entry.payload.payload.sub ∧ m ≤ entry.attempts := by
  induction h with
  | nil => exact fun failure hfailure => .inl hfailure
  | @cons entry ready acc acc' s s₁ s' action hrun hissued hrest ih =>
    intro failure hfailure
    have hmax' := (SharedRuntimeExecutor.settle_maxRetries u64Max entry acc action).trans hmax
    rcases ih hmax' failure hfailure with hfailure | hother | ⟨entry', t, hcall, hmem, hspent⟩
    · cases hissued with
      | complete => exact .inl hfailure
      | fail code _ hcode =>
        refine (List.mem_append.1 hfailure).imp_right fun hnew => .inl ?_
        rw [List.mem_singleton.1 hnew]
        exact hcode
      | retry code =>
        rcases acc.1.retry_spec entry u64Max with ⟨_, hretry⟩ | ⟨hle, hretry⟩ <;>
          simp only [SharedRuntimeExecutor.settle, hretry] at hfailure
        · exact .inl hfailure
        · refine (List.mem_append.1 hfailure).imp_right fun hnew => .inr ?_
          rw [List.mem_singleton.1 hnew]
          exact ⟨entry, s, .here, List.mem_cons_self, rfl, hmax ▸ hle⟩
    · exact .inr (.inl hother)
    · exact .inr (.inr ⟨entry', t, .later hrun hcall, List.mem_cons_of_mem _ hmem, hspent⟩)

end Driven

/-! ### Reporting -/

/-- The completion that reports a failure. -/
structure Reports (failure : UapiRuntimeFailure) (push : CqHandle × Owned Submission) : Prop where
  cq : push.1 = failure.cq
  owner : push.2.owner = failure.sub
  source : push.2.event.source = .guestUapi
  status : push.2.event.status = .retryableFailure ("runtime_exhausted_" ++ failure.code)

theorem Reports.exhausted_iff {failure : UapiRuntimeFailure} {push : CqHandle × Owned Submission}
    (h : Reports failure push) :
    RuntimeExhausted push.2.event ↔ isQueueFull failure.code = true := by
  refine ⟨?_, fun hfull => ⟨h.source, failure.code, hfull, h.status⟩⟩
  rintro ⟨-, code, hfull, hcode⟩
  have htext := CompletionStatus.retryableFailure.inj (hcode.symm.trans h.status)
  rw [String.append_right_inj] at htext
  exact htext ▸ hfull

/-- The completions pushed on the way that report exhaustion are those for the failures. -/
def Tells (failures : UapiRuntimeFailure → Prop) (s s' : LocalGuestUapiSurface) : Prop :=
  ∃ added, s'.history.pushes = s.history.pushes ++ added ∧
    (∀ push ∈ added, RuntimeExhausted push.2.event →
      ∃ failure, failures failure ∧ Reports failure push) ∧
    ∀ failure, failures failure → ∃ push ∈ added, Reports failure push

theorem Tells.trans {failures failures' all : UapiRuntimeFailure → Prop}
    {s t u : LocalGuestUapiSurface} (h : Tells failures s t) (h' : Tells failures' t u)
    (hall : ∀ failure, all failure ↔ failures failure ∨ failures' failure) : Tells all s u := by
  obtain ⟨added, hadded, hcaused, htold⟩ := h
  obtain ⟨added', hadded', hcaused', htold'⟩ := h'
  refine ⟨added ++ added', by rw [hadded', hadded, List.append_assoc], ?_, fun failure hfailure => ?_⟩
  · intro push hpush hexhausted
    rcases List.mem_append.1 hpush with hpush | hpush
    · obtain ⟨failure, hfailure, hreports⟩ := hcaused push hpush hexhausted
      exact ⟨failure, (hall failure).2 (.inl hfailure), hreports⟩
    · obtain ⟨failure, hfailure, hreports⟩ := hcaused' push hpush hexhausted
      exact ⟨failure, (hall failure).2 (.inr hfailure), hreports⟩
  · rcases (hall failure).1 hfailure with hfailure | hfailure
    · obtain ⟨push, hpush, hreports⟩ := htold failure hfailure
      exact ⟨push, List.mem_append_left _ hpush, hreports⟩
    · obtain ⟨push, hpush, hreports⟩ := htold' failure hfailure
      exact ⟨push, List.mem_append_right _ hpush, hreports⟩

theorem Quiet.tells (h : Quiet s s') (hs : Sourced s) : Tells (fun _ => False) s s' := by
  obtain ⟨-, added, hadded, hquiet⟩ := h hs
  exact ⟨added, hadded, fun push hpush hexhausted => absurd hexhausted (hquiet push hpush),
    fun _ h => h.elim⟩

theorem reportFailures_sameServices (now : UInt64) (failures : List UapiRuntimeFailure) :
    Within SameServices (reportFailures now failures) := by
  induction failures with
  | nil => exact within_pure SameServices.refl ()
  | cons failure rest ih =>
    refine within_bind SameServices.trans (fun s => ⟨rfl, rfl⟩) fun opId =>
      within_bind SameServices.trans (fun s => ?_) fun _ => ih
    rcases enqueueToCq_spec s failure.cq _ with ⟨_, _, hexec⟩ | ⟨_, hexec⟩ <;> rw [hexec] <;>
      exact ⟨rfl, rfl⟩

theorem reportFailures_tells {now : UInt64} {failures : List UapiRuntimeFailure}
    (hexec : exec (reportFailures now failures) s = (.ok (), s')) :
    Tells (· ∈ failures) s s' := by
  induction failures generalizing s with
  | nil =>
    cases hexec
    exact ⟨[], (List.append_nil _).symm, fun _ h => (by cases h), fun _ h => (by cases h)⟩
  | cons failure rest ih =>
    rw [reportFailures_cons] at hexec
    obtain ⟨_, s₁, hpush, hrest⟩ := exec_bind_eq_ok.1 hexec
    rcases enqueueToCq_spec (ticked s) failure.cq ⟨exhausted now s failure, failure.sub⟩ with
      ⟨st, _, hpushed⟩ | ⟨_, hnone⟩
    · rw [hpushed] at hpush
      cases hpush
      have hreports : Reports failure (failure.cq, ⟨exhausted now s failure, failure.sub⟩) :=
        ⟨rfl, rfl, rfl, rfl⟩
      have hhere : Tells (· = failure) s
          (pushed (ticked s) failure.cq st ⟨exhausted now s failure, failure.sub⟩) := by
        refine ⟨[_], rfl, fun push hpush _ => ⟨failure, rfl, ?_⟩, fun failure' hfailure => ?_⟩
        · exact List.mem_singleton.1 hpush ▸ hreports
        · exact ⟨_, List.mem_singleton_self _, hfailure ▸ hreports⟩
      exact hhere.trans (ih hrest) fun _ => List.mem_cons
    · rw [hnone] at hpush
      cases hpush

/-! ### One level -/

/-- The failures that one level of a forced flush reports. -/
def levelFailures (s : LocalGuestUapiSurface) : List UapiRuntimeFailure :=
  ((driveAll s.runtimeQueue.queue.pending ({ s.runtimeQueue.queue with pending := [] }, [])).run
    (emptied s)).1.2

/-- One level of a forced flush drives the records of the runtime queue, and goes on while some of
them have come back. -/
structure Level (s s' : LocalGuestUapiSurface) (again : Bool) : Prop where
  exec : exec (flushRuntimeLevel u64Max) s = (.ok again, s')
  driven : ∃ s₁, Driven s.runtimeQueue.queue.pending
    ({ s.runtimeQueue.queue with pending := [] }, []) (emptied s)
    (s'.runtimeQueue.queue, levelFailures s) s₁ ∧ SameServices s₁ s'
  tells : Tells (· ∈ levelFailures s) s s'
  isolated : Isolated s'.flow
  maxRetries : s'.runtimeQueue.queue.maxRetries = s.runtimeQueue.queue.maxRetries
  budget : ∀ record ∈ s'.runtimeQueue.queue.pending,
    record.attempts ≤ s.runtimeQueue.queue.maxRetries
  again : again = true ↔ s'.runtimeQueue.queue.pending ≠ []

theorem exists_level (hs : Isolated s.flow) : ∃ s' again, Level s s' again := by
  obtain ⟨queue, failures, s₁, hfold, hlevel⟩ := flushRuntimeLevel_run s
  obtain ⟨hsteady, hcalls⟩ := flushRuntimeLevel_steady hs
  obtain ⟨again, hexec⟩ := hsteady.exec
  have hdriven := driveAll_driven _ _ _ hcalls hfold
  have hfailures : levelFailures s = failures := congrArg (fun r => r.1.2) hfold
  obtain ⟨hmax, hretried, hagain⟩ := flushRuntimeLevel_attempts (fun _ _ => Nat.zero_le _) hexec
  have hsteps := flushRuntimeLevel_steps False s
  have hsame := reportFailures_sameQueue u64Max failures { s₁ with runtimeQueue := ⟨queue⟩ }
  have hservices := reportFailures_sameServices u64Max failures { s₁ with runtimeQueue := ⟨queue⟩ }
  -- the level succeeds, so the reports do, and what is read at the end leaves the surface alone
  obtain ⟨_, s₂, hreport, hread⟩ := exec_bind_eq_ok.1 (hlevel.symm.trans hexec)
  rw [hreport] at hsame hservices
  have hstate : s₂ = (Action.exec (flushRuntimeLevel u64Max) s).2 := congrArg Prod.snd hread
  subst hstate
  have hqueue : (Action.exec (flushRuntimeLevel u64Max) s).2.runtimeQueue.queue = queue :=
    congrArg (·.queue) hsame.1
  have hquiet : Quiet s { s₁ with runtimeQueue := ⟨queue⟩ } := hdriven.quiet
  refine ⟨_, again, hexec, ⟨s₁, ?_, ⟨hservices.services, hservices.depths⟩⟩, ?_,
    hs.steps hsteps, hmax, fun record hrecord => (hretried record hrecord).2, hagain again rfl⟩
  · rw [hqueue, hfailures]
    exact hdriven
  · rw [hfailures]
    exact (hquiet.tells hs.routed.sources).trans (reportFailures_tells hreport) fun _ => by simp

namespace Level

variable {again : Bool}

theorem depths (h : Level s s' again) : s'.depths = s.depths := by
  have hdepths := depths_along.flushRuntimeLevel s
  rw [h.exec] at hdepths
  exact hdepths

/-- A record is accepted by its service, comes back, or is given up for a full queue. -/
theorem settled (h : Level s s' again) {entry : UapiRecord}
    (hentry : entry ∈ s.runtimeQueue.queue.pending) (hsource : serviceOf entry = some source) :
    ∃ t, DriveCalls s.runtimeQueue.queue.pending (emptied s) entry t ∧ (Submitted entry t ∨
      (∃ record ∈ s'.runtimeQueue.queue.pending, record.payload = entry.payload) ∨
      ∃ failure ∈ levelFailures s, isQueueFull failure.code = true ∧
        failure.sub = entry.payload.payload.sub) := by
  obtain ⟨s₁, hdriven, -⟩ := h.driven
  exact hdriven.settled hentry hsource

/-- A record that comes back has used one more retry. -/
theorem requeued (h : Level s s' again) {record : UapiRecord}
    (hrecord : record ∈ s'.runtimeQueue.queue.pending) :
    ∃ entry ∈ s.runtimeQueue.queue.pending, record.payload = entry.payload ∧
      record.attempts = entry.attempts + 1 := by
  obtain ⟨s₁, hdriven, -⟩ := h.driven
  exact (hdriven.requeued record hrecord).resolve_left List.not_mem_nil

/-- A record that is given up for a full queue has no retry left. -/
theorem spent (h : Level s s' again) {failure : UapiRuntimeFailure}
    (hfailure : failure ∈ levelFailures s) (hfull : isQueueFull failure.code = true) :
    ∃ entry t, DriveCalls s.runtimeQueue.queue.pending (emptied s) entry t ∧
      entry ∈ s.runtimeQueue.queue.pending ∧ failure.sub = entry.payload.payload.sub ∧
      s.runtimeQueue.queue.maxRetries ≤ entry.attempts := by
  obtain ⟨s₁, hdriven, -⟩ := h.driven
  rcases hdriven.spent rfl failure hfailure with hnone | hother | hspent
  · cases hnone
  · rw [hother] at hfull
    cases hfull
  · exact hspent

/-- What a level turns away, exactly if there are no records for other services. -/
theorem turnedAway_eq (h : Level s s' again) (source : CompletionSource) :
    ∃ slack, (waitingFor source s'.runtimeQueue.queue.pending +
          givenUp source (levelFailures s)) * ((s.depths source).toNat + 1) +
        s.room source + slack =
      s'.room source + waitingFor source s.runtimeQueue.queue.pending ∧
      (Alone source s.runtimeQueue.queue.pending → slack = 0) := by
  obtain ⟨s₁, hdriven, hservices⟩ := h.driven
  obtain ⟨slack, heq, hzero⟩ := hdriven.turnedAway_eq source
  have hnone : turnedAway source ({ s.runtimeQueue.queue with pending := [] }, []) = 0 := rfl
  rw [hnone, Nat.zero_mul, Nat.zero_add] at heq
  refine ⟨slack, ?_, hzero⟩
  rw [hservices.room]
  exact heq

theorem room_le (h : Level s s' again) (source : CompletionSource) :
    s'.room source ≤ (s.depths source).toNat := by
  rw [← h.depths]
  exact Nat.sub_le _ _

end Level

/-! ### All levels -/

/-- The failures that a forced flush reports. -/
inductive FlushReports : LocalGuestUapiSurface → UapiRuntimeFailure → Prop
  | here {s : LocalGuestUapiSurface} {failure : UapiRuntimeFailure}
    (hreport : failure ∈ levelFailures s) : FlushReports s failure
  | deeper {s s' : LocalGuestUapiSurface} {failure : UapiRuntimeFailure}
    (hagain : exec (flushRuntimeLevel u64Max) s = (.ok true, s'))
    (hrest : FlushReports s' failure) : FlushReports s failure

theorem FlushReports.iff_of_level {again : Bool} (h : Level s s' again)
    (failure : UapiRuntimeFailure) :
    FlushReports s failure ↔
      failure ∈ levelFailures s ∨ again = true ∧ FlushReports s' failure := by
  constructor
  · rintro (hreport | ⟨hagain, hrest⟩)
    · exact .inl hreport
    · rw [h.exec] at hagain
      cases hagain
      exact .inr ⟨rfl, hrest⟩
  · rintro (hreport | ⟨rfl, hrest⟩)
    · exact .here hreport
    · exact .deeper h.exec hrest

/-- A flush gives a record up for a full queue only when its retries are used up. -/
theorem FlushReports.spent {failure : UapiRuntimeFailure} (h : FlushReports s failure)
    (hs : Isolated s.flow) (hfull : isQueueFull failure.code = true) :
    ∃ entry t, FlushCalls s entry t ∧ entry.payload.payload.sub = failure.sub ∧
      s.runtimeQueue.queue.maxRetries ≤ entry.attempts := by
  induction h with
  | here hreport =>
    obtain ⟨_, _, hlevel⟩ := exists_level hs
    obtain ⟨entry, t, hcall, -, hsub, hspent⟩ := hlevel.spent hreport hfull
    exact ⟨entry, t, .here hcall, hsub.symm, hspent⟩
  | deeper hagain _ ih =>
    obtain ⟨_, _, hlevel⟩ := exists_level hs
    have hexec := hlevel.exec
    rw [hagain] at hexec
    cases hexec
    obtain ⟨entry, t, hcall, hsub, hspent⟩ := ih hlevel.isolated hfull
    exact ⟨entry, t, .deeper hagain hcall, hsub, hlevel.maxRetries ▸ hspent⟩

theorem flushRuntime_tells {levels : ℕ} (h : FlushLevels s levels) (hs : Isolated s.flow) :
    Tells (FlushReports s) s (exec (flushRuntime u64Max) s).2 := by
  induction h with
  | @last s hlast =>
    obtain ⟨s', again, hlevel⟩ := exists_level hs
    cases again with
    | true => exact absurd (congrArg Prod.fst hlevel.exec) hlast
    | false =>
      have hexec : exec (flushRuntime u64Max) s = (.ok (), s') := by
        rw [flushRuntime_eq, exec_bind_ok hlevel.exec]
        rfl
      rw [hexec]
      obtain ⟨added, hadded, htells⟩ := hlevel.tells
      refine ⟨added, hadded, ?_⟩
      simpa only [FlushReports.iff_of_level hlevel, Bool.false_eq_true, false_and, or_false]
        using htells
  | @again s s' levels hagain hrest ih =>
    obtain ⟨s'', again, hlevel⟩ := exists_level hs
    have hexec := hlevel.exec
    rw [hagain] at hexec
    cases hexec
    have hflush : exec (flushRuntime u64Max) s = exec (flushRuntime u64Max) s' := by
      rw [flushRuntime_eq, exec_bind_ok hagain]
      rfl
    rw [hflush]
    exact hlevel.tells.trans (ih hlevel.isolated) fun failure => by
      simp [FlushReports.iff_of_level hlevel]

/-- **The completions of a poll that report exhaustion are those for the failures of its flush.** -/
theorem pollCqWithOwner_tells (hs : Isolated s.flow) (cq : CqHandle) (owner : EntityId)
    (maxEntries : Option ℕ) :
    Tells (FlushReports s) s (exec (pollCqWithOwner cq owner maxEntries) s).2 := by
  obtain ⟨s₁, hflush, -⟩ := flush_drains hs
  have hpoll : Tells (fun _ => False) s₁ (exec (pollCqWithOwner cq owner maxEntries) s).2 := by
    refine ⟨[], ?_, fun _ h => (by cases h), fun _ h => h.elim⟩
    rcases pollCqWithOwner_exec cq owner maxEntries hflush with
      ⟨queue, n, -, -, hexec⟩ | ⟨-, e, hexec⟩ <;> rw [hexec] <;> exact (List.append_nil _).symm
  obtain ⟨_, s₀, hruntime, hservices⟩ := exec_bind_eq_ok.1 hflush
  obtain ⟨levels, -, hlevels⟩ := exists_flushLevels (m := s.runtimeQueue.queue.maxRetries) _ 0 rfl s
    rfl fun _ _ => Nat.zero_le _
  have htells := flushRuntime_tells hlevels hs
  have hsteps := flushRuntime_steps False s
  have hquiet := flushServices_quiet u64Max s₀
  rw [hruntime] at htells hsteps
  rw [hservices] at hquiet
  -- the services report no exhaustion
  have hrest := (hquiet.tells (hs.steps hsteps).routed.sources).trans hpoll fun _ =>
    or_self_iff.symm
  exact htells.trans hrest fun failure => by rw [or_false]

end Uapi

end LinquUb
