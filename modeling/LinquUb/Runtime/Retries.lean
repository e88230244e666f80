import LinquUb.Runtime.Advance
import LinquUb.LTS.History

/-!
# The retry budget of the runtime engine

An operation counts its attempts in the in-flight table, its record counts them in the submission
queue, and every retry emits an event with the number of the attempt.  `Ledger.Counted` says that
the three agree, for the operations in flight and for the finished ones.

* `Ledger.Counted.step` : every call keeps the counts;
* `Ledger.retries_within_budget` : **the retries of an operation are numbered from one, there are at
  most `max_retries` of them, and an operation is given up only after the last one**.
-/

namespace LinquUb

open LocalRuntimeEngine

/-- The attempt number of an event, if it is a retry of the operation. -/
def attemptOf (id : OpId) : SimEvent → Option ℕ
  | .runtimeRetried _ opId _ attempt => if opId = id then some attempt else none
  | _ => none

/-- The attempt numbers of the retries of an operation, in the order of their emission. -/
def retryAttempts (id : OpId) (sink : List SimEvent) : List ℕ := sink.filterMap (attemptOf id)

@[simp] theorem retryAttempts_append (id : OpId) (sink sink' : List SimEvent) :
    retryAttempts id (sink ++ sink') = retryAttempts id sink ++ retryAttempts id sink' :=
  List.filterMap_append

/-- The completion and the event with which an operation is given up. -/
def Exhausted (id : OpId) : SimEvent → Prop
  | .runtimeFailed _ opId reason => opId = id ∧ reason = "timeout_exhausted"
  | _ => False

namespace LocalRuntimeEngine

variable {self : LocalRuntimeEngine} {now : SimTimestamp} {issued : List RuntimeOpRecord}

/-- An operation emits retries of its own only. -/
theorem retryAttempts_settlement_of_ne (queue : SharedRuntimeQueue (RuntimeWorkItem Unit))
    {op : RuntimeOpRecord} {id : OpId} (hne : id ≠ op.opId) :
    retryAttempts id (settlement queue now op).events = [] := by
  rcases settlement_cases queue now op with
    ⟨-, hs⟩ | ⟨-, -, hs⟩ | ⟨-, -, -, -, hs⟩ | ⟨-, -, -, -, hs⟩ <;>
    simp [hs, retryAttempts, attemptOf, hne.symm]

/-- The retries that an advance emits for an operation of the table. -/
theorem retryAttempts_settledEvents (hunique : (opIds issued).Nodup) {op : RuntimeOpRecord}
    (hop : op ∈ issued) :
    retryAttempts op.opId (self.settledEvents now issued) =
      retryAttempts op.opId (settlement (self.driven now) now op).events :=
  LTS.filterMap_flatMap_of_nodup hunique
    (fun _ _ _ hne => retryAttempts_settlement_of_ne (self.driven now) hne) hop

theorem retryAttempts_settledEvents_of_not_mem {id : OpId} (hid : id ∉ opIds issued) :
    retryAttempts id (self.settledEvents now issued) = [] := by
  rw [retryAttempts, settledEvents, List.filterMap_flatMap, List.flatMap_eq_nil_iff]
  intro op hop
  exact retryAttempts_settlement_of_ne _ fun he => hid (he ▸ List.mem_map_of_mem hop)

/-- The completions of an advance belong to operations of the table. -/
theorem mem_completions {op : RuntimeOpRecord} {c : CompletionEvent}
    (hc : c ∈ (settlement (self.driven now) now op).completions) : c.opId = op.opId := by
  rcases settlement_cases (self.driven now) now op with
    ⟨-, hs⟩ | ⟨-, -, hs⟩ | ⟨-, -, -, -, hs⟩ | ⟨-, -, -, -, hs⟩ <;> rw [hs] at hc
  · cases hc
  · rw [List.mem_singleton.1 hc]
    rfl
  · cases hc
  · rw [List.mem_singleton.1 hc]
    rfl

end LocalRuntimeEngine

namespace Ledger

variable {l l' : Ledger} {maxRetries : ℕ}

/-- The retries emitted for every operation agree with its attempts. -/
structure Counted (maxRetries : ℕ) (l : Ledger) : Prop where
  budget : l.engine.submissionQueue.queue.maxRetries = maxRetries
  inflight : ∀ op ∈ l.engine.inflight,
    retryAttempts op.opId l.sink = List.range' 1 op.attempts ∧ op.attempts ≤ maxRetries
  finished : ∀ c ∈ l.pushed, ∃ k ≤ maxRetries, retryAttempts c.opId l.sink = List.range' 1 k ∧
    (c.status = .fatalFailure "timeout_exhausted" → k = maxRetries)
  fresh : ∀ id ∉ l.accepted, retryAttempts id l.sink = []
  exhausted : ∀ before event after id, l.sink = before ++ event :: after → Exhausted id event →
    retryAttempts id before = List.range' 1 maxRetries

theorem start_counted (dispatchLatencyUs copyLatencyUs timeoutUs : SimTimestamp)
    (maxInflight maxRetries : ℕ) :
    (start (withPolicy dispatchLatencyUs copyLatencyUs timeoutUs maxInflight maxRetries)).Counted
      maxRetries where
  budget := rfl
  inflight := by simp [start, withPolicy]
  finished := by simp [start, withPolicy, pushed]
  fresh _ _ := rfl
  exhausted before event after id h := by
    have hlength := congrArg List.length h
    simp [start] at hlength

/-- A submit emits no retry. -/
theorem Counted.submitted (hl : l.Inv) (h : l.Counted maxRetries) {kind : RuntimeOpKind}
    {task : TaskKey} {details : OpDetails} {onOk : List SimEvent}
    (hquiet : onOk = [] ∨ ∃ req, onOk = [.dispatchSubmitted l.engine.now req])
    {out : Except SimError OpId × LocalRuntimeEngine × List SimEvent}
    (hsubmit : l.engine.submitOp kind task details onOk l.sink = some out) :
    (l.submitted out).Counted maxRetries := by
  obtain ⟨result, engine, sink⟩ := out
  rcases hl.submitOp_cases hsubmit with ⟨rfl, rfl, rfl, -⟩ | ⟨opId, rfl, hid, -, rfl, rfl⟩
  · exact { h with }
  have hretries : ∀ id, retryAttempts id (l.sink ++ onOk) = retryAttempts id l.sink := by
    intro id
    rcases hquiet with rfl | ⟨req, rfl⟩ <;> simp [retryAttempts, attemptOf]
  have hfresh : opId ∉ l.accepted := by
    intro hmem
    have hrange := hl.accepted ▸ List.mem_map_of_mem (f := fun id : OpId => id.toNat) hmem
    rw [List.mem_range'_1] at hrange
    omega
  refine ⟨h.budget, ?_, ?_, ?_, ?_⟩
  · intro op hop
    simp only [Ledger.submitted, hretries]
    rcases List.mem_append.1 hop with hop | hop
    · exact h.inflight op hop
    · rw [List.mem_singleton.1 hop]
      exact ⟨h.fresh _ hfresh, Nat.zero_le _⟩
  · intro c hc
    simp only [Ledger.submitted, hretries]
    exact h.finished c hc
  · intro id hnot
    simp only [Ledger.submitted, hretries]
    exact h.fresh id fun hmem => hnot (List.mem_append_left _ hmem)
  · intro before event after id hsink hevent
    rcases append_eq_append_cons hsink with ⟨rest, hold⟩ | ⟨mid, -, hnew⟩
    · exact h.exhausted before event rest id hold hevent
    · -- what a submit emits gives up no operation
      have hmem : event ∈ onOk := hnew ▸ List.mem_append_right _ List.mem_cons_self
      rcases hquiet with rfl | ⟨req, rfl⟩
      · cases hmem
      · rw [List.mem_singleton.1 hmem] at hevent
        cases hevent

/-- **An advance keeps the counts.** -/
theorem Counted.advanced (hl : l.Inv) (hlinked : l.engine.Linked) (h : l.Counted maxRetries)
    {now : SimTimestamp} {issued : List RuntimeOpRecord}
    (hissue : l.engine.inflight.mapM (l.engine.issueDue now) = some issued) :
    ({ l with
      engine := l.engine.settled now issued
      sink := l.sink ++ l.engine.settledEvents now issued } : Ledger).Counted maxRetries := by
  have hids : opIds issued = opIds l.engine.inflight := opIds_issued hissue
  have hunique : (opIds issued).Nodup := hids ▸ hlinked.unique
  -- the drive does not touch the attempts
  have hissued : ∀ op ∈ issued, retryAttempts op.opId l.sink = List.range' 1 op.attempts ∧
      op.attempts ≤ maxRetries := by
    intro op hop
    obtain ⟨op₀, hop₀, hdue⟩ := LTS.exists_of_mem_right (LTS.mapM_eq_some_iff.1 hissue) hop
    rcases issueDue_cases hdue with ⟨-, -, -, _, _, rfl⟩ | ⟨-, rfl⟩
    · exact h.inflight op₀ hop₀
    · exact h.inflight _ hop₀
  have hbudget : (l.engine.driven now).maxRetries = maxRetries := h.budget
  refine ⟨h.budget, ?_, ?_, ?_, ?_⟩
  · intro op hop
    obtain ⟨op', hop', rfl, hlive⟩ := mem_settled.1 hop
    obtain ⟨hattempts, hle⟩ := hissued op' hop'
    rw [settlement_opId, retryAttempts_append, retryAttempts_settledEvents hunique hop', hattempts]
    rcases settlement_cases (l.engine.driven now) now op' with
      ⟨-, hs⟩ | ⟨-, -, hs⟩ | ⟨-, -, -, hlt, hs⟩ | ⟨-, -, -, -, hs⟩ <;> rw [hs] at hlive ⊢
    · exact ⟨List.append_nil _, hle⟩
    · cases hlive
    · refine ⟨?_, by simpa [requeued] using hbudget ▸ hlt⟩
      simp [retryAttempts, attemptOf, requeued, List.range'_concat, Nat.add_comm]
    · cases hlive
  · intro c hc
    simp only [pushed, LocalRuntimeEngine.settled, ← List.append_assoc] at hc
    rcases List.mem_append.1 hc with hc | hc
    · -- finished before, so it is not in flight any more
      have hnot : c.opId ∉ opIds issued := by
        rw [hids]
        intro hmem
        have hnodup := hl.partition.nodup_iff.2 hl.accepted_nodup
        exact (List.nodup_append.1 hnodup).2.2 _ hmem _ (List.mem_map_of_mem hc) rfl
      obtain ⟨k, hk, hattempts, hgiven⟩ := h.finished c hc
      refine ⟨k, hk, ?_, hgiven⟩
      rw [retryAttempts_append, retryAttempts_settledEvents_of_not_mem hnot, List.append_nil,
        hattempts]
    · obtain ⟨op, hop, hc⟩ := List.mem_flatMap.1 hc
      obtain ⟨hattempts, hle⟩ := hissued op hop
      rw [mem_completions hc, retryAttempts_append, retryAttempts_settledEvents hunique hop,
        hattempts]
      rcases settlement_cases (l.engine.driven now) now op with
        ⟨-, hs⟩ | ⟨-, -, hs⟩ | ⟨-, -, -, -, hs⟩ | ⟨-, -, -, hge, hs⟩ <;> rw [hs] at hc ⊢
      · cases hc
      · rw [List.mem_singleton.1 hc]
        exact ⟨op.attempts, hle, List.append_nil _, fun hstatus => by cases hstatus⟩
      · cases hc
      · exact ⟨op.attempts, hle, List.append_nil _, fun _ => le_antisymm hle (hbudget ▸ hge)⟩
  · intro id hnot
    have hid : id ∉ opIds issued := fun hmem =>
      hnot (hl.partition.subset (List.mem_append_left _ (hids ▸ hmem)))
    rw [retryAttempts_append, retryAttempts_settledEvents_of_not_mem hid, List.append_nil]
    exact h.fresh id hnot
  · intro before event after id hsink hevent
    rcases append_eq_append_cons hsink with ⟨rest, hold⟩ | ⟨mid, rfl, hnew⟩
    · exact h.exhausted before event rest id hold hevent
    -- given up by this advance, which retries it no more
    have hmem : event ∈ l.engine.settledEvents now issued :=
      hnew ▸ List.mem_append_right _ List.mem_cons_self
    obtain ⟨op, hop, hmem⟩ := List.mem_flatMap.1 hmem
    have hnone : op.opId = id ∧ maxRetries ≤ op.attempts ∧
        retryAttempts op.opId (settlement (l.engine.driven now) now op).events = [] := by
      rcases settlement_cases (l.engine.driven now) now op with
        ⟨-, hs⟩ | ⟨-, -, hs⟩ | ⟨-, -, -, -, hs⟩ | ⟨-, -, -, hge, hs⟩ <;> rw [hs] at hmem ⊢
      · cases hmem
      · rw [List.mem_singleton.1 hmem] at hevent
        cases hevent
      · rw [List.mem_singleton.1 hmem] at hevent
        cases hevent
      · rcases List.mem_cons.1 hmem with rfl | hmem
        · exact ⟨hevent.1, hbudget ▸ hge, rfl⟩
        · rw [List.mem_singleton.1 hmem] at hevent
          cases hevent
    obtain ⟨rfl, hge, hquiet⟩ := hnone
    obtain ⟨hattempts, hle⟩ := hissued op hop
    rw [← retryAttempts_settledEvents hunique hop, hnew, retryAttempts_append,
      List.append_eq_nil_iff] at hquiet
    rw [retryAttempts_append, hquiet.1, List.append_nil, hattempts, le_antisymm hle hge]

/-- **Every call keeps the counts.** -/
theorem Counted.step {runner : DispatchRunner} {call : EngineCall} (hl : l.Inv)
    (hlinked : l.engine.Linked) (h : l.Counted maxRetries)
    (hstep : Ledger.step runner l call = some l') : l'.Counted maxRetries := by
  rcases step_cases hstep with ⟨_, _, _, _, out, -, hquiet, hsubmit, rfl⟩ |
    ⟨now, engine, sink, -, hadvance, hengine, hsink, haccepted, hpushed⟩
  · exact h.submitted hl hquiet hsubmit
  · rw [hlinked.advanceTo_eq, Option.map_eq_some_iff] at hadvance
    obtain ⟨issued, hissue, hpair⟩ := hadvance
    cases hpair
    have hadvanced := h.advanced hl hlinked hissue
    refine ⟨?_, ?_, ?_, ?_, ?_⟩
    · rw [hengine]
      exact hadvanced.budget
    · rw [hengine, hsink]
      exact hadvanced.inflight
    · rw [hpushed, hsink]
      exact hadvanced.finished
    · rw [haccepted, hsink]
      exact hadvanced.fresh
    · rw [hsink]
      exact hadvanced.exhausted

/-! ### The guarantee -/

/-- What the engine promises about retries. -/
structure WithinBudget (maxRetries : ℕ) (l : Ledger) : Prop where
  /-- The retries of an operation are numbered 1, 2, ..., k in the order of their emission. -/
  numbered : ∀ id, ∃ k ≤ maxRetries, retryAttempts id l.sink = List.range' 1 k
  /-- When an operation is given up, exactly `max_retries` retries of it have been emitted. -/
  exhausted : ∀ before event after id, l.sink = before ++ event :: after → Exhausted id event →
    retryAttempts id before = List.range' 1 maxRetries
  /-- So it is for an operation whose completion says so. -/
  givenUp : ∀ c ∈ l.pushed, c.status = .fatalFailure "timeout_exhausted" →
    retryAttempts c.opId l.sink = List.range' 1 maxRetries
  /-- A queued operation has a record, which counts the same attempts. -/
  recorded : ∀ op ∈ l.engine.inflight, op.state = .queued →
    (∃ record ∈ l.engine.submissionQueue.queue.pending, record.payload.opId = op.opId) ∧
      ∀ record ∈ l.engine.submissionQueue.queue.pending, record.payload.opId = op.opId →
        record.attempts = op.attempts

theorem Counted.withinBudget (hl : l.Inv) (hlinked : l.engine.Linked) (h : l.Counted maxRetries) :
    l.WithinBudget maxRetries where
  numbered id := by
    by_cases hid : id ∈ l.accepted
    · rcases hl.exactlyOnce hid with ⟨op, hop, rfl, -⟩ | ⟨-, hone⟩
      · exact ⟨op.attempts, (h.inflight op hop).2, (h.inflight op hop).1⟩
      · have hmem : id ∈ completedIds l.pushed := List.count_pos_iff.1 (by omega)
        obtain ⟨c, hc, rfl⟩ := List.mem_map.1 hmem
        obtain ⟨k, hk, hattempts, -⟩ := h.finished c hc
        exact ⟨k, hk, hattempts⟩
    · exact ⟨0, Nat.zero_le _, h.fresh id hid⟩
  exhausted := h.exhausted
  givenUp c hc hstatus := by
    obtain ⟨k, -, hattempts, hgiven⟩ := h.finished c hc
    rw [hattempts, hgiven hstatus]
  recorded op hop hq := by
    obtain ⟨record, hrecord, hmatch⟩ := hlinked.pending op hop hq
    refine ⟨⟨record, hrecord, hmatch.opId⟩, fun other hother hid => ?_⟩
    obtain ⟨op', hop', hmatch'⟩ := hlinked.owned other hother
    have hsame := List.inj_on_of_nodup_map hlinked.unique hop' hop (hmatch'.opId.symm.trans hid)
    rw [hmatch'.attempts, hsame]

/-- **The retry budget of the runtime engine.**  In every run of an engine in `LocalRuntime` mode,
at whatever times, the retries of every operation are numbered from one up to at most `max_retries`,
an operation is given up only after the last of them, and its record counts them too. -/
theorem retries_within_budget (runner : DispatchRunner)
    (dispatchLatencyUs copyLatencyUs timeoutUs : SimTimestamp) (maxInflight maxRetries : ℕ)
    (calls : List EngineCall) (l : Ledger)
    (h : LTS.run (Ledger.step runner)
      (start (withPolicy dispatchLatencyUs copyLatencyUs timeoutUs maxInflight maxRetries)) calls
        = some l) : l.WithinBudget maxRetries := by
  have hrun := LTS.run_invariant
    (P := fun l => (l.Inv ∧ l.engine.Linked) ∧ l.Counted maxRetries)
    (fun l call l' hl hstep => ⟨⟨step_inv runner l call l' hl.1.1 hstep,
      step_linked hl.1.1 hl.1.2 hstep⟩, hl.2.step hl.1.1 hl.1.2 hstep⟩)
    ⟨⟨start_inv .., start_linked ..⟩, start_counted ..⟩ h
  exact hrun.2.withinBudget hrun.1.1 hrun.1.2

/-- Two retries, and then the operation is given up. -/
theorem retries_within_budget_givenUp : ∃ l,
    LTS.run (Ledger.step fun _ => .ok ()) (start (withPolicy 15 30 5 1 2))
      [.submitCopy ⟨sampleTask, .hostToDevice⟩, .advanceTo 5, .advanceTo 12, .pollCompletions 20]
        = some l ∧ l.WithinBudget 2 := by
  obtain ⟨l, hl⟩ := Option.isSome_iff_exists.1 (by decide +kernel :
    (LTS.run (Ledger.step fun _ => .ok ()) (start (withPolicy 15 30 5 1 2))
      [.submitCopy ⟨sampleTask, .hostToDevice⟩, .advanceTo 5, .advanceTo 12,
        .pollCompletions 20]).isSome = true)
  exact ⟨l, hl, retries_within_budget _ 15 30 5 1 2 _ l hl⟩

end Ledger

end LinquUb
