import LinquUb.Runtime.Advance

/-!
# Time sums of the runtime engine

The shared queue adds a latency to a time with saturation, and a retry at the flush time adds
nothing.  Only the issue of an operation makes plain sums: its ready time and its deadline, both
counted from its submission.

* `LocalRuntimeEngine.advanceTo_ne_none` : an advance overflows exactly if it issues an operation
  that was queued too late;
* `Ledger.timesComputed_iff` : **the same for whole runs**;
* `Ledger.timesComputed_of_early` : **calls whose times leave room for the delays never overflow**.
-/

namespace LinquUb

open LocalRuntimeEngine

namespace LocalRuntimeEngine

variable {self : LocalRuntimeEngine} {now : SimTimestamp}

/-- The operations that an advance issues: they are queued, and their records are ready. -/
def issuedBy (self : LocalRuntimeEngine) (now : SimTimestamp) : List RuntimeOpRecord :=
  self.inflight.filter fun op => op.state == .queued &&
    decide (op.opId ∈ pendingIds (self.submissionQueue.queue.drainReady now).1)

/-- The last time at which an operation of this kind may be queued: its latency and the timeout lead
to `u64::MAX` at most. -/
def lastStart (self : LocalRuntimeEngine) (kind : RuntimeOpKind) : ℕ :=
  2 ^ 64 - 1 - max (self.latencyOf kind).toNat self.timeoutUs.toNat

theorem checkedAdd_ne_none {a b : UInt64} : checkedAdd a b ≠ none ↔ a.toNat + b.toNat < 2 ^ 64 := by
  unfold checkedAdd
  split_ifs with h
  · exact iff_of_true (Option.some_ne_none _) h
  · exact iff_of_false (fun hne => hne rfl) h

theorem issueOp_ne_none {op : RuntimeOpRecord} :
    self.issueOp now op ≠ none ↔ op.submittedAt.toNat ≤ self.lastStart op.kind := by
  have hlatency := (self.latencyOf op.kind).toNat_lt
  have htimeout := self.timeoutUs.toNat_lt
  have hsums : self.issueOp now op ≠ none ↔
      checkedAdd op.submittedAt (self.latencyOf op.kind) ≠ none ∧
        checkedAdd op.submittedAt self.timeoutUs ≠ none := by
    unfold issueOp
    cases checkedAdd op.submittedAt (self.latencyOf op.kind) <;>
      cases checkedAdd op.submittedAt self.timeoutUs <;> simp
  rw [hsums, checkedAdd_ne_none, checkedAdd_ne_none, lastStart]
  omega

theorem advanceTo_ne_none (hunique : (opIds self.inflight).Nodup) {runner : DispatchRunner}
    {sink : List SimEvent} :
    self.advanceTo runner now sink ≠ none ↔
      ∀ op ∈ self.issuedBy now, op.submittedAt.toNat ≤ self.lastStart op.kind := by
  have hdrive := driveReady_issueReady self now self.submissionQueue self.inflight
  rw [issueAll_eq now _ hunique] at hdrive
  have hpass : self.advanceTo runner now sink ≠ none ↔ self.inflight.mapM (self.issueAmong now
      (pendingIds (self.submissionQueue.queue.drainReady now).1)) ≠ none := by
    rw [advanceTo, hdrive]
    cases self.inflight.mapM (self.issueAmong now _) <;> simp
  rw [hpass, LTS.mapM_ne_none]
  simp only [issuedBy, List.mem_filter, Bool.and_eq_true, beq_iff_eq, decide_eq_true_eq, and_imp]
  refine forall_congr' fun op => imp_congr_right fun _ => ?_
  unfold issueAmong
  split_ifs with h
  · rw [issueOp_ne_none]
    exact ⟨fun hle _ _ => hle, fun hle => hle h.2 h.1⟩
  · exact iff_of_true (Option.some_ne_none _) fun hq hid => absurd ⟨hid, hq⟩ h

/-! ### Times of submission -/

theorem settleOp_submittedAt (self : LocalRuntimeEngine) (runner : DispatchRunner)
    (now : SimTimestamp) (op : RuntimeOpRecord) (p : Progress) :
    (self.settleOp runner now op p).1.submittedAt = op.submittedAt ∨
      (self.settleOp runner now op p).1.submittedAt = now := by
  unfold settleOp
  split_ifs with hready htimeout
  · exact .inl rfl
  · rcases retry_submission p.submissionQueue (retryEntry now op) now with
      ⟨queue, hretry, -⟩ | hretry <;> rw [hretry]
    · exact .inr rfl
    · exact .inl rfl
  · exact .inl rfl

theorem settleOps_submittedAt {runner : DispatchRunner} {ops : List RuntimeOpRecord} {p : Progress}
    {op : RuntimeOpRecord} (hop : op ∈ (self.settleOps runner now ops p).1) :
    op.submittedAt = now ∨ ∃ op' ∈ ops, op.submittedAt = op'.submittedAt := by
  induction ops generalizing p with
  | nil => cases hop
  | cons first ops ih =>
    rcases List.mem_cons.1 hop with rfl | hop
    · rcases settleOp_submittedAt self runner now first p with hsame | hnow
      · exact .inr ⟨first, List.mem_cons_self, hsame⟩
      · exact .inl hnow
    · rcases ih hop with hnow | ⟨op', hop', hsame⟩
      · exact .inl hnow
      · exact .inr ⟨op', List.mem_cons_of_mem _ hop', hsame⟩

/-- After an advance an operation has the time of its submission, or it was requeued just now. -/
theorem advanceTo_submittedAt (hunique : (opIds self.inflight).Nodup) {runner : DispatchRunner}
    {sink sink' : List SimEvent} {engine : LocalRuntimeEngine}
    (h : self.advanceTo runner now sink = some (engine, sink')) :
    engine.now = now ∧ engine.latencyOf = self.latencyOf ∧ engine.timeoutUs = self.timeoutUs ∧
      ∀ op ∈ engine.inflight, op.submittedAt = now ∨
        ∃ op' ∈ self.inflight, op.submittedAt = op'.submittedAt := by
  have hdrive := driveReady_issueReady self now self.submissionQueue self.inflight
  rw [issueAll_eq now _ hunique] at hdrive
  rw [advanceTo, hdrive] at h
  simp only [Option.bind_eq_bind, Option.bind_eq_some_iff, Option.map_eq_some_iff] at h
  obtain ⟨_, ⟨issued, hissue, rfl⟩, h⟩ := h
  cases h
  refine ⟨rfl, rfl, rfl, fun op hop => ?_⟩
  rcases settleOps_submittedAt (List.mem_filter.1 hop).1 with hnow | ⟨op', hop', hsame⟩
  · exact .inl hnow
  · obtain ⟨op₀, hop₀, hamong⟩ := LTS.exists_of_mem_right (LTS.mapM_eq_some_iff.1 hissue) hop'
    refine .inr ⟨op₀, hop₀, hsame.trans ?_⟩
    unfold issueAmong at hamong
    split_ifs at hamong
    · obtain ⟨-, _, _, rfl⟩ := issueOp_spec hamong
      rfl
    · rw [Option.some.inj hamong]

end LocalRuntimeEngine

namespace Ledger

variable {l l' : Ledger} {runner : DispatchRunner} {call : EngineCall}

/-- An advance or a poll computes its times without an overflow; a submit only saturates. -/
def TimesComputed (runner : DispatchRunner) (l : Ledger) (call : EngineCall) : Prop :=
  call.time ≠ none → step runner l call ≠ none

/-- No operation that the call issues was submitted, or requeued, too late. -/
def IssuesEarly (l : Ledger) (call : EngineCall) : Prop :=
  ∀ now ∈ call.time, ∀ op ∈ l.engine.issuedBy now, op.submittedAt.toNat ≤ l.engine.lastStart op.kind

theorem step_ne_none_of_time {now : SimTimestamp} (htime : call.time = some now) :
    step runner l call ≠ none ↔ l.engine.advanceTo runner now l.sink ≠ none := by
  cases call with
  | submitDispatch req => cases htime
  | submitCopy req => cases htime
  | advanceTo time =>
    cases htime
    cases hadvance : l.engine.advanceTo runner now l.sink <;> simp [step, hadvance]
  | pollCompletions time =>
    cases htime
    cases hadvance : l.engine.advanceTo runner now l.sink <;> simp [step, pollCompletions, hadvance]

theorem Inv.unique (hl : l.Inv) : (opIds l.engine.inflight).Nodup :=
  (List.nodup_append.1 (hl.partition.nodup_iff.2 hl.accepted_nodup)).1

theorem Inv.computes_iff (hl : l.Inv) : TimesComputed runner l call ↔ IssuesEarly l call := by
  unfold TimesComputed IssuesEarly
  cases htime : call.time with
  | none => simp
  | some now =>
    rw [step_ne_none_of_time htime, advanceTo_ne_none hl.unique]
    simp

/-- The invariant does not depend on the mode of the engine. -/
theorem start_inv_mode (backendMode : ChipBackendMode)
    (dispatchLatencyUs copyLatencyUs timeoutUs : SimTimestamp) (maxInflight maxRetries : ℕ) :
    (start { withPolicy dispatchLatencyUs copyLatencyUs timeoutUs maxInflight maxRetries with
      backendMode }).Inv :=
  { start_inv dispatchLatencyUs copyLatencyUs timeoutUs maxInflight maxRetries with }

/-- **Time sums of the runtime engine.**  A run of an engine with any policy, in either mode, makes
every time sum without an overflow exactly if no call issues an operation that was submitted, or
requeued by a timeout, later than `u64::MAX` minus the longer of its latency and the timeout. -/
theorem timesComputed_iff (runner : DispatchRunner) (backendMode : ChipBackendMode)
    (dispatchLatencyUs copyLatencyUs timeoutUs : SimTimestamp) (maxInflight maxRetries : ℕ)
    (calls : List EngineCall) :
    LTS.EveryCall (step runner) (TimesComputed runner)
        (start { withPolicy dispatchLatencyUs copyLatencyUs timeoutUs maxInflight maxRetries with
          backendMode }) calls ↔
      LTS.EveryCall (step runner) IssuesEarly
        (start { withPolicy dispatchLatencyUs copyLatencyUs timeoutUs maxInflight maxRetries with
          backendMode }) calls :=
  LTS.everyCall_iff (step_inv runner) (fun _ _ hl => hl.computes_iff) (start_inv_mode ..) calls

/-- A copy that is submitted after an advance to the flush time: the next advance adds 30
microseconds to the largest time. -/
theorem copy_overflows : ¬ LTS.EveryCall (step fun _ => .ok ()) (TimesComputed fun _ => .ok ())
    (start { withPolicy 15 30 80 4 1 with backendMode := .localRuntime })
    [.advanceTo u64Max, .submitCopy ⟨sampleTask, .hostToDevice⟩, .advanceTo u64Max] := by
  rintro ⟨-, hcalls⟩
  obtain ⟨-, hcalls⟩ := hcalls _ (Option.some_get (by decide +kernel)).symm
  obtain ⟨hlast, -⟩ := hcalls _ (Option.some_get (by decide +kernel)).symm
  exact hlast (Option.some_ne_none _) (by decide +kernel)

/-- All times so far leave room for every delay. -/
structure Early (bound : ℕ) (l : Ledger) : Prop where
  latency : ∀ kind, bound + (l.engine.latencyOf kind).toNat < 2 ^ 64
  timeout : bound + l.engine.timeoutUs.toNat < 2 ^ 64
  now : l.engine.now.toNat ≤ bound
  submitted : ∀ op ∈ l.engine.inflight, op.submittedAt.toNat ≤ bound

variable {bound : ℕ}

theorem Early.issuesEarly (h : l.Early bound) : IssuesEarly l call := by
  intro now _ op hop
  have hle := h.submitted op (List.mem_filter.1 hop).1
  have hlatency := h.latency op.kind
  have htimeout := h.timeout
  rw [lastStart]
  omega

theorem Early.step (hl : l.Inv) (h : l.Early bound) (htime : ∀ now ∈ call.time, now.toNat ≤ bound)
    (hstep : step runner l call = some l') : l'.Early bound := by
  rcases step_cases hstep with ⟨kind, task, details, onOk, out, -, -, hsubmit, rfl⟩ |
    ⟨now, engine, sink, hnow, hadvance, hengine, -, -, -⟩
  · obtain ⟨result, engine, sink⟩ := out
    rcases hl.submitOp_cases hsubmit with ⟨rfl, rfl, rfl, -⟩ | ⟨opId, rfl, -, -, rfl, rfl⟩
    · exact ⟨h.latency, h.timeout, h.now, h.submitted⟩
    · refine ⟨h.latency, h.timeout, h.now, fun op hop => ?_⟩
      rcases List.mem_append.1 hop with hold | hnew
      · exact h.submitted op hold
      · rw [List.mem_singleton.1 hnew]
        exact h.now
  · obtain ⟨hclock, hlatency, htimeout, hsubmitted⟩ := advanceTo_submittedAt hl.unique hadvance
    have hbound := htime now hnow
    refine ⟨fun kind => ?_, ?_, ?_, fun op hop => ?_⟩
    · rw [hengine]
      exact congrFun hlatency kind ▸ h.latency kind
    · rw [hengine]
      exact htimeout ▸ h.timeout
    · rw [hengine]
      exact hclock ▸ hbound
    · rw [hengine] at hop
      rcases hsubmitted op hop with hrequeued | ⟨op', hop', hsame⟩
      · rw [hrequeued]
        exact hbound
      · rw [hsame]
        exact h.submitted op' hop'

/-- **Calls at times that leave room for the latencies and the timeout** never overflow. -/
theorem timesComputed_of_early (runner : DispatchRunner) (backendMode : ChipBackendMode)
    (dispatchLatencyUs copyLatencyUs timeoutUs : SimTimestamp) (maxInflight maxRetries : ℕ)
    (calls : List EngineCall) (htimes : ∀ call ∈ calls, ∀ now ∈ call.time,
      now.toNat + dispatchLatencyUs.toNat < 2 ^ 64 ∧ now.toNat + copyLatencyUs.toNat < 2 ^ 64 ∧
        now.toNat + timeoutUs.toNat < 2 ^ 64) :
    LTS.EveryCall (step runner) (TimesComputed runner)
      (start { withPolicy dispatchLatencyUs copyLatencyUs timeoutUs maxInflight maxRetries with
        backendMode }) calls := by
  let delay := max (max dispatchLatencyUs.toNat copyLatencyUs.toNat) timeoutUs.toNat
  have hdispatch := dispatchLatencyUs.toNat_lt
  have hcopy := copyLatencyUs.toNat_lt
  have htimeout := timeoutUs.toNat_lt
  have hstart : Early (2 ^ 64 - 1 - delay)
      (start { withPolicy dispatchLatencyUs copyLatencyUs timeoutUs maxInflight maxRetries with
        backendMode }) := by
    refine ⟨fun kind => ?_, ?_, Nat.zero_le _, by simp [start, withPolicy]⟩
    · cases kind <;> simp [start, withPolicy, latencyOf, delay] <;> omega
    · simp only [start, withPolicy, delay]
      omega
  refine LTS.everyCall_of (P := fun l => l.Inv ∧ l.Early (2 ^ 64 - 1 - delay))
    (fun l call hcall l' h hstep => ⟨step_inv runner l call l' h.1 hstep, h.2.step h.1 ?_ hstep⟩)
    (fun l call _ h => h.1.computes_iff.2 h.2.issuesEarly) ⟨start_inv_mode .., hstart⟩
  intro now hnow
  have hroom := htimes call hcall now hnow
  simp only [delay]
  omega

end Ledger

end LinquUb
