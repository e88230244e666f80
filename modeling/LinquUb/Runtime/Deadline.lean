import LinquUb.Runtime.Advance

/-!
# Deadlines of the runtime engine

An operation that is not ready `timeout_us` after its submission is retried or given up.  An advance
looks at `ready_at` first, though, so one that jumps past both instants completes the operation with
the finishing time `ready_at`, which is late.

* `Ledger.meetsDeadlines_iff` : a call meets the deadlines exactly if it jumps past no late
  operation;
* `Ledger.deadlines_met_iff` : **the same for whole runs**.
-/

namespace LinquUb

open LocalRuntimeEngine

namespace Ledger

variable {l l' : Ledger} {runner : DispatchRunner} {call : EngineCall}

/-- What the deadlines ask of the completions of a call: no success is later than `timeout_us` after
the submission, or the last retry, of its operation, and a slower operation ends by its timeout. -/
structure Punctual (engine : LocalRuntimeEngine) (completions : List CompletionEvent) : Prop where
  success : ∀ c ∈ completions, c.status = .success → ∃ op ∈ engine.inflight, op.opId = c.opId ∧
    c.finishedAt.toNat ≤ op.submittedAt.toNat + engine.timeoutUs.toNat
  slow : ∀ c ∈ completions, ∀ op ∈ engine.inflight, op.opId = c.opId →
    engine.timeoutUs < engine.latencyOf op.kind → c.status = .fatalFailure "timeout_exhausted"

/-- The completions that the call adds are punctual. -/
def MeetsDeadlines (l : Ledger) (_ : EngineCall) (l' : Ledger) : Prop :=
  ∃ completions, l'.pushed = l.pushed ++ completions ∧ Punctual l.engine completions

/-- The call comes before an operation in flight that is slower than its timeout becomes ready. -/
def InTime (l : Ledger) (call : EngineCall) (_ : Ledger) : Prop :=
  ∀ now ∈ call.time, ∀ op ∈ l.engine.inflight, l.engine.timeoutUs < l.engine.latencyOf op.kind →
    now.toNat < op.submittedAt.toNat + (l.engine.latencyOf op.kind).toNat

/-! ### One call -/

section Issued

variable {engine : LocalRuntimeEngine} {now : SimTimestamp} {issued : List RuntimeOpRecord}

/-- The completions of the loop of an advance. -/
def settledCompletions (engine : LocalRuntimeEngine) (now : SimTimestamp)
    (issued : List RuntimeOpRecord) : List CompletionEvent :=
  issued.flatMap fun op => (settlement (engine.driven now) now op).completions

/-- An operation that is due and has become ready succeeds. -/
theorem mem_settledCompletions_of_ready (h : engine.Linked)
    (hissue : engine.inflight.mapM (engine.issueDue now) = some issued) {op : RuntimeOpRecord}
    (hop : op ∈ engine.inflight)
    (hready : op.submittedAt.toNat + (engine.latencyOf op.kind).toNat ≤ now.toNat) :
    ∃ c ∈ settledCompletions engine now issued, c.opId = op.opId ∧ c.status = .success := by
  obtain ⟨op', hop', hdue⟩ := LTS.exists_of_mem_left (LTS.mapM_eq_some_iff.1 hissue) hop
  have hissued : op'.state = .issued ∧ op'.readyAt ≤ now ∧ op'.opId = op.opId := by
    rcases issueDue_cases hdue with ⟨-, -, hsched, _, _, rfl⟩ | ⟨hlate, rfl⟩
    · exact ⟨rfl, UInt64.le_iff_toNat_le.2 (hsched.readyAt.trans_le hready), rfl⟩
    · rcases h.live op' hop with hst | hst
      · have hlt := UInt64.lt_iff_toNat_lt.1 (hlate hst)
        omega
      · exact ⟨hst, UInt64.le_iff_toNat_le.2 ((h.scheduled op' hop hst).readyAt.trans_le hready),
          rfl⟩
  obtain ⟨hst, hle, hid⟩ := hissued
  refine ⟨successEvent op', List.mem_flatMap.2 ⟨op', hop', ?_⟩, hid, rfl⟩
  rcases settlement_cases (engine.driven now) now op' with
    ⟨hpending, -⟩ | ⟨-, -, hs⟩ | ⟨-, hlt, -⟩ | ⟨-, hlt, -⟩
  · exact absurd (hpending hst).1 (UInt64.not_lt.2 hle)
  · rw [hs]
    exact List.mem_singleton.2 rfl
  · exact absurd hlt (UInt64.not_lt.2 hle)
  · exact absurd hlt (UInt64.not_lt.2 hle)

/-- Where a completion comes from: a ready operation, or one that is given up. -/
theorem settledCompletions_cases (h : engine.Linked)
    (hissue : engine.inflight.mapM (engine.issueDue now) = some issued) {c : CompletionEvent}
    (hc : c ∈ settledCompletions engine now issued) : ∃ op ∈ engine.inflight, op.opId = c.opId ∧
      (c.status = .fatalFailure "timeout_exhausted" ∨
        c.finishedAt.toNat = op.submittedAt.toNat + (engine.latencyOf op.kind).toNat ∧
          c.finishedAt ≤ now) := by
  obtain ⟨op', hop', hc⟩ := List.mem_flatMap.1 hc
  obtain ⟨op, hop, hdue⟩ := LTS.exists_of_mem_right (LTS.mapM_eq_some_iff.1 hissue) hop'
  refine ⟨op, hop, ?_⟩
  rcases settlement_cases (engine.driven now) now op' with
    ⟨-, hs⟩ | ⟨hst, hready, hs⟩ | ⟨-, -, -, -, hs⟩ | ⟨-, -, -, -, hs⟩ <;> rw [hs] at hc
  · cases hc
  · rw [List.mem_singleton.1 hc]
    rcases issueDue_cases hdue with ⟨-, -, hsched, _, _, rfl⟩ | ⟨-, rfl⟩
    · exact ⟨rfl, .inr ⟨hsched.readyAt, hready⟩⟩
    · exact ⟨rfl, .inr ⟨(h.scheduled op' hop hst).readyAt, hready⟩⟩
  · cases hc
  · rw [List.mem_singleton.1 hc]
    exact ⟨(issueDue_opId hdue).symm, .inl rfl⟩

/-- An advance is punctual exactly if no slow operation has become ready. -/
theorem punctual_iff (h : engine.Linked)
    (hissue : engine.inflight.mapM (engine.issueDue now) = some issued) :
    Punctual engine (settledCompletions engine now issued) ↔
      ∀ op ∈ engine.inflight, engine.timeoutUs < engine.latencyOf op.kind →
        now.toNat < op.submittedAt.toNat + (engine.latencyOf op.kind).toNat := by
  constructor
  · intro hpunctual op hop hslow
    by_contra hready
    obtain ⟨c, hc, hid, hsuccess⟩ :=
      mem_settledCompletions_of_ready h hissue hop (Nat.not_lt.1 hready)
    have hfailed := hpunctual.slow c hc op hop hid.symm hslow
    rw [hsuccess] at hfailed
    cases hfailed
  · intro hintime
    refine ⟨?_, ?_⟩
    · intro c hc hsuccess
      obtain ⟨op, hop, hid, hend⟩ := settledCompletions_cases h hissue hc
      refine ⟨op, hop, hid, ?_⟩
      rcases hend with hfailed | ⟨hfinished, hle⟩
      · rw [hsuccess] at hfailed
        cases hfailed
      · have hle := UInt64.le_iff_toNat_le.1 hle
        by_cases hslow : engine.timeoutUs < engine.latencyOf op.kind
        · have hlt := hintime op hop hslow
          omega
        · have hfast := UInt64.le_iff_toNat_le.1 (UInt64.not_lt.1 hslow)
          omega
    · intro c hc op hop hid hslow
      obtain ⟨op', hop', hid', hend⟩ := settledCompletions_cases h hissue hc
      obtain rfl := List.inj_on_of_nodup_map h.unique hop' hop (hid'.trans hid.symm)
      rcases hend with hfailed | ⟨hfinished, hle⟩
      · exact hfailed
      · have hle := UInt64.le_iff_toNat_le.1 hle
        have hlt := hintime op' hop hslow
        omega

end Issued

/-- **A call meets the deadlines exactly if it jumps past no late operation.** -/
theorem meetsDeadlines_iff (hl : l.Inv) (hlinked : l.engine.Linked)
    (hstep : step runner l call = some l') : MeetsDeadlines l call l' ↔ InTime l call l' := by
  rcases step_cases hstep with ⟨_, _, _, _, out, htime, -, hsubmit, rfl⟩ |
    ⟨now, engine, sink, htime, hadvance, -, -, -, hpushed⟩
  · -- a submit completes nothing
    have hnone : InTime l call (l.submitted out) := by
      intro now hnow
      rw [htime] at hnow
      cases hnow
    refine iff_of_true ⟨[], ?_, by simp, by simp⟩ hnone
    obtain ⟨result, engine, sink⟩ := out
    rcases hl.submitOp_cases hsubmit with ⟨rfl, rfl, rfl, -⟩ | ⟨_, rfl, -, -, rfl, rfl⟩ <;>
      simp [pushed, submitted]
  · rw [hlinked.advanceTo_eq, Option.map_eq_some_iff] at hadvance
    obtain ⟨issued, hissue, hpair⟩ := hadvance
    cases hpair
    have hnew : l'.pushed = l.pushed ++ settledCompletions l.engine now issued := by
      rw [hpushed, pushed, List.append_assoc]
      rfl
    have hintime : InTime l call l' ↔ ∀ op ∈ l.engine.inflight,
        l.engine.timeoutUs < l.engine.latencyOf op.kind →
          now.toNat < op.submittedAt.toNat + (l.engine.latencyOf op.kind).toNat := by
      simp [InTime, htime]
    rw [hintime, ← punctual_iff hlinked hissue]
    constructor
    · rintro ⟨completions, happend, hpunctual⟩
      rwa [List.append_cancel_left (happend.symm.trans hnew)] at hpunctual
    · intro hpunctual
      exact ⟨_, hnew, hpunctual⟩

/-! ### The guarantee -/

/-- **Deadlines of the runtime engine.**  A run of an engine in `LocalRuntime` mode, at whatever
times, meets the deadlines with every call exactly if no advance and no poll reaches the time at
which an operation in flight that is slower than its timeout becomes ready. -/
theorem deadlines_met_iff (runner : DispatchRunner)
    (dispatchLatencyUs copyLatencyUs timeoutUs : SimTimestamp) (maxInflight maxRetries : ℕ)
    (calls : List EngineCall) :
    LTS.EveryStep (step runner) MeetsDeadlines
        (start (withPolicy dispatchLatencyUs copyLatencyUs timeoutUs maxInflight maxRetries)) calls ↔
      LTS.EveryStep (step runner) InTime
        (start (withPolicy dispatchLatencyUs copyLatencyUs timeoutUs maxInflight maxRetries))
          calls :=
  LTS.everyStep_iff (P := fun l => l.Inv ∧ l.engine.Linked)
    (fun l call l' hl hstep =>
      ⟨step_inv runner l call l' hl.1 hstep, step_linked hl.1 hl.2 hstep⟩)
    (fun _ _ _ hl hstep => meetsDeadlines_iff hl.1 hl.2 hstep)
    ⟨start_inv .., start_linked ..⟩ calls

/-- A copy of 30 microseconds with a timeout of 5 and no retry, first polled at 30: it succeeds, and
its finishing time is 25 microseconds late. -/
theorem deadlines_missed : ¬ LTS.EveryStep (step fun _ => .ok ()) MeetsDeadlines
    (start (withPolicy 15 30 5 4 0))
    [.submitCopy ⟨sampleTask, .hostToDevice⟩, .pollCompletions 30] := by
  intro hmet
  obtain ⟨-, hpolled⟩ := hmet.get (by decide +kernel)
  obtain ⟨⟨completions, hnew, hpunctual⟩, -⟩ := hpolled.get (by decide +kernel)
  have hcompletions : completions =
      [{ opId := 1, task := some sampleTask, source := .chipBackend, status := .success,
         finishedAt := 30 }] := by
    rw [← hnew.trans (List.nil_append _)]
    decide +kernel
  subst hcompletions
  exact absurd (hpunctual.success _ (List.mem_singleton.2 rfl) rfl) (by decide +kernel)

end Ledger

end LinquUb
