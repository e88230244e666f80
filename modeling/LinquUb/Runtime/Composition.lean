import LinquUb.Runtime.Advance

/-!
# Composition of advances

While no latency exceeds the timeout, an operation that has reached its timeout is ready, so an
advance only issues operations and completes them.  The deadlines of an operation do not depend on
the time at which it is issued, and therefore an advance on the way to a later one is not observable,
except in `issued_at`.

* `LocalRuntimeEngine.Linked.settled_eq` : an advance without timeouts;
* `LocalRuntimeEngine.issue_twice` : two passes over the in-flight table against one;
* `Ledger.advances_compose` : **an advance on the way to a later one changes nothing**.
-/

namespace LinquUb

open LocalRuntimeEngine

namespace LocalRuntimeEngine

variable {self : LocalRuntimeEngine} {now t₁ t₂ : SimTimestamp} {issued : List RuntimeOpRecord}

/-- The operation without the time of its issue. -/
def forgetIssue (op : RuntimeOpRecord) : RuntimeOpRecord := { op with issuedAt := none }

/-- The engines agree up to the times of issue and the order of the completions. -/
structure Agree (a b : LocalRuntimeEngine) : Prop where
  inflight : a.inflight.map forgetIssue = b.inflight.map forgetIssue
  completed : a.completed.Perm b.completed
  rest : { a with inflight := [], completed := [] } = { b with inflight := [], completed := [] }

/-- No latency exceeds the timeout. -/
structure Timely (engine : LocalRuntimeEngine) : Prop where
  dispatch : engine.dispatchLatencyUs ≤ engine.timeoutUs
  copy : engine.copyLatencyUs ≤ engine.timeoutUs

theorem Timely.latencyOf (h : self.Timely) (kind : RuntimeOpKind) :
    self.latencyOf kind ≤ self.timeoutUs := by
  cases kind <;> first | exact h.dispatch | exact h.copy | exact UInt64.zero_le

/-! ### An advance without timeouts -/

/-- The operation completes at `now`. -/
def completes (now : SimTimestamp) (op : RuntimeOpRecord) : Bool :=
  op.state == .issued && decide (op.readyAt ≤ now)

/-- The operations that an advance leaves in flight. -/
def kept (now : SimTimestamp) (issued : List RuntimeOpRecord) : List RuntimeOpRecord :=
  issued.filter fun op => !completes now op

/-- The completions of an advance. -/
def successes (now : SimTimestamp) (issued : List RuntimeOpRecord) : List CompletionEvent :=
  (issued.filter (completes now)).map successEvent

/-- An operation that is live and, once issued, times out only when it is ready. -/
structure OnTime (op : RuntimeOpRecord) : Prop where
  live : op.state = .queued ∨ op.state = .issued
  ready : op.state = .issued → op.readyAt ≤ op.timeoutAt

theorem Scheduled.readyAt_le (htimely : self.Timely) {op : RuntimeOpRecord}
    (h : self.Scheduled op) : op.readyAt ≤ op.timeoutAt := by
  have hlatency := UInt64.le_iff_toNat_le.1 (htimely.latencyOf op.kind)
  rw [UInt64.le_iff_toNat_le, h.readyAt, h.timeoutAt]
  omega

theorem Linked.onTime (h : self.Linked) (htimely : self.Timely)
    (hissue : self.inflight.mapM (self.issueDue now) = some issued) {op : RuntimeOpRecord}
    (hop : op ∈ issued) : OnTime op := by
  rcases h.issued_cases hissue hop with ⟨hst, hsched⟩ | ⟨hst, -, -⟩
  · exact ⟨.inr hst, fun _ => hsched.readyAt_le htimely⟩
  · exact ⟨.inl hst, fun hissued => by cases hst.symm.trans hissued⟩

/-- The settlement of an operation that is on time. -/
theorem OnTime.settlement_eq {op : RuntimeOpRecord} (h : OnTime op)
    (queue : SharedRuntimeQueue (RuntimeWorkItem Unit)) (now : SimTimestamp) :
    (completes now op = false ∧ (settlement queue now op).op = op ∧
        (settlement queue now op).records = [] ∧ (settlement queue now op).completions = []) ∨
      (completes now op = true ∧ (settlement queue now op).op = { op with state := .completed } ∧
        (settlement queue now op).records = [] ∧
        (settlement queue now op).completions = [successEvent op]) := by
  rcases settlement_cases queue now op with
    ⟨hlate, hs⟩ | ⟨hst, hready, hs⟩ | ⟨hst, hlate, htimeout, -, -⟩ | ⟨hst, hlate, htimeout, -, -⟩
  · refine .inl ⟨?_, by rw [hs], by rw [hs], by rw [hs]⟩
    simp only [completes, Bool.and_eq_false_imp, beq_iff_eq, decide_eq_false_iff_not,
      UInt64.not_le]
    exact fun hst => (hlate hst).1
  · exact .inr ⟨by simp [completes, hst, hready], by rw [hs], by rw [hs], by rw [hs]⟩
  · exact absurd (UInt64.le_trans (h.ready hst) htimeout) (UInt64.not_le.2 hlate)
  · exact absurd (UInt64.le_trans (h.ready hst) htimeout) (UInt64.not_le.2 hlate)

theorem settlements_eq (queue : SharedRuntimeQueue (RuntimeWorkItem Unit)) (now : SimTimestamp)
    {ops : List RuntimeOpRecord} (h : ∀ op ∈ ops, OnTime op) :
    ((ops.map fun op => (settlement queue now op).op).filter isLive = kept now ops ∧
      (ops.flatMap fun op => (settlement queue now op).records) = []) ∧
      (ops.flatMap fun op => (settlement queue now op).completions) = successes now ops := by
  induction ops with
  | nil => exact ⟨⟨rfl, rfl⟩, rfl⟩
  | cons op ops ih =>
    obtain ⟨⟨hkept, hrecords⟩, hdone⟩ := ih fun op hop => h op (List.mem_cons_of_mem _ hop)
    have hop := h op List.mem_cons_self
    have hlive : isLive op = true := by
      rcases hop.live with hst | hst <;> simp [isLive, hst]
    rw [List.map_cons, List.filter_cons, List.flatMap_cons, List.flatMap_cons, hkept, hrecords,
      hdone]
    rcases hop.settlement_eq queue now with ⟨hc, h₁, h₂, h₃⟩ | ⟨hc, h₁, h₂, h₃⟩ <;>
      rw [h₁, h₂, h₃]
    · simp [kept, successes, hc, hlive]
    · simp [kept, successes, hc, isLive]

/-- **An advance without timeouts** issues operations and completes some of them. -/
theorem Linked.settled_eq (h : self.Linked) (htimely : self.Timely)
    (hissue : self.inflight.mapM (self.issueDue now) = some issued) :
    self.settled now issued =
      { self with
        now
        submissionQueue := ⟨self.driven now⟩
        inflight := kept now issued
        completed := self.completed ++ successes now issued } := by
  obtain ⟨⟨hkept, hrecords⟩, hdone⟩ :=
    settlements_eq (self.driven now) now fun op hop => h.onTime htimely hissue hop
  simp only [LocalRuntimeEngine.settled, hkept, hrecords, hdone, List.append_nil]

/-! ### Two passes against one -/

/-- An operation issued late has the same deadlines. -/
theorem issueDue_twice (self : LocalRuntimeEngine) (h : t₁ ≤ t₂) (op : RuntimeOpRecord) :
    ((self.issueDue t₁ op).bind (self.issueDue t₂)).map forgetIssue =
      (self.issueDue t₂ op).map forgetIssue := by
  unfold issueDue
  by_cases hdue : op.state = .queued ∧ op.submittedAt ≤ t₁
  · rw [if_pos hdue, if_pos ⟨hdue.1, UInt64.le_trans hdue.2 h⟩]
    unfold issueOp
    cases checkedAdd op.submittedAt (self.latencyOf op.kind) with
    | none => rfl
    | some readyAt =>
      cases checkedAdd op.submittedAt self.timeoutUs with
      | none => rfl
      | some timeoutAt => simp [forgetIssue]
  · rw [if_neg hdue, Option.bind_some]

/-- The passes of two advances, against the pass of the later one alone. -/
structure Merges (t₁ t₂ : SimTimestamp) (twice : List RuntimeOpRecord × List RuntimeOpRecord)
    (once : List RuntimeOpRecord) : Prop where
  kept : (kept t₂ twice.2).map forgetIssue = (kept t₂ once).map forgetIssue
  successes : (successes t₁ twice.1 ++ successes t₂ twice.2).Perm (successes t₂ once)

section Merges

variable {op₁ op₂ op₂' : RuntimeOpRecord} {first second once : List RuntimeOpRecord}

theorem completes_eq_of_forgetIssue (now : SimTimestamp) (h : forgetIssue op₁ = forgetIssue op₂) :
    completes now op₁ = completes now op₂ :=
  (congrArg (completes now) h :)

theorem successEvent_eq_of_forgetIssue (h : forgetIssue op₁ = forgetIssue op₂) :
    successEvent op₁ = successEvent op₂ :=
  (congrArg successEvent h :)

/-- The first pass completes the operation. -/
theorem Merges.early (hm : Merges t₁ t₂ (first, second) once) (h : t₁ ≤ t₂)
    (hdone : completes t₁ op₁ = true) (hsame : forgetIssue op₁ = forgetIssue op₂) :
    Merges t₁ t₂ (op₁ :: first, second) (op₂ :: once) := by
  have hdone₂ : completes t₂ op₂ = true := by
    rw [← completes_eq_of_forgetIssue t₂ hsame]
    simp only [completes, Bool.and_eq_true, decide_eq_true_eq] at hdone ⊢
    exact ⟨hdone.1, UInt64.le_trans hdone.2 h⟩
  refine ⟨?_, ?_⟩
  · simpa [LocalRuntimeEngine.kept, hdone₂] using hm.kept
  · have hcons := hm.successes.cons (successEvent op₂)
    simpa [LocalRuntimeEngine.successes, hdone, hdone₂, successEvent_eq_of_forgetIssue hsame]
      using hcons

/-- The operation meets the second pass. -/
theorem Merges.late (hm : Merges t₁ t₂ (first, second) once) (hdone : completes t₁ op₁ = false)
    (hsame : forgetIssue op₂' = forgetIssue op₂) :
    Merges t₁ t₂ (op₁ :: first, op₂' :: second) (op₂ :: once) := by
  have hdone₂ := completes_eq_of_forgetIssue t₂ hsame
  refine ⟨?_, ?_⟩
  · cases hc : completes t₂ op₂ <;> rw [hc] at hdone₂
    · simpa [LocalRuntimeEngine.kept, hc, hdone₂, hsame] using hm.kept
    · simpa [LocalRuntimeEngine.kept, hc, hdone₂] using hm.kept
  · cases hc : completes t₂ op₂ <;> rw [hc] at hdone₂
    · simpa [LocalRuntimeEngine.successes, hc, hdone, hdone₂] using hm.successes
    · have hcons := List.perm_middle.trans (hm.successes.cons (successEvent op₂))
      simpa [LocalRuntimeEngine.successes, hc, hdone, hdone₂,
        successEvent_eq_of_forgetIssue hsame] using hcons

end Merges

/-- **Two passes against one**: an operation that the first pass completes is completed by the single
pass with the same completion, and the others meet the second pass as they would meet the single
one. -/
theorem issue_twice (self : LocalRuntimeEngine) (h : t₁ ≤ t₂) (ops : List RuntimeOpRecord) :
    Option.Rel (Merges t₁ t₂)
      ((ops.mapM (self.issueDue t₁)).bind fun first =>
        ((kept t₁ first).mapM (self.issueDue t₂)).map fun second => (first, second))
      (ops.mapM (self.issueDue t₂)) := by
  induction ops with
  | nil => exact .some ⟨rfl, .refl _⟩
  | cons op ops ih =>
    have htwice := issueDue_twice self h op
    rw [List.mapM_cons, List.mapM_cons]
    cases hop₁ : self.issueDue t₁ op with
    | none =>
      rw [hop₁, Option.bind_none, Option.map_none, eq_comm, Option.map_eq_none_iff] at htwice
      rw [htwice]
      exact .none
    | some op₁ =>
      rw [hop₁, Option.bind_some] at htwice
      cases hops₁ : ops.mapM (self.issueDue t₁) with
      | none =>
        -- the rest of the table overflows in either case
        rw [hops₁] at ih
        cases hops₂ : ops.mapM (self.issueDue t₂) with
        | none => cases self.issueDue t₂ op <;> exact .none
        | some once =>
          rw [hops₂] at ih
          cases ih
      | some first =>
        rw [hops₁] at ih
        cases hdone : completes t₁ op₁ with
        | true =>
          have hissued : self.issueDue t₂ op₁ = some op₁ := by
            simp only [completes, Bool.and_eq_true, beq_iff_eq] at hdone
            simp [issueDue, hdone.1]
          rw [hissued, Option.map_some, eq_comm, Option.map_eq_some_iff] at htwice
          obtain ⟨op₂, hop₂, hsame⟩ := htwice
          have hkept : kept t₁ (op₁ :: first) = kept t₁ first := by simp [kept, hdone]
          simp only [Option.bind_eq_bind, Option.bind_some, Option.pure_def, hkept, hop₂] at ih ⊢
          cases hsecond : (kept t₁ first).mapM (self.issueDue t₂) <;>
            cases hops₂ : ops.mapM (self.issueDue t₂) <;> rw [hsecond, hops₂] at ih <;> cases ih
          · exact .none
          · exact .some (Merges.early ‹_› h hdone hsame.symm)
        | false =>
          have hkept : kept t₁ (op₁ :: first) = op₁ :: kept t₁ first := by simp [kept, hdone]
          simp only [Option.bind_eq_bind, Option.bind_some, Option.pure_def, hkept,
            List.mapM_cons] at ih ⊢
          cases hop₂ : self.issueDue t₂ op with
          | none =>
            rw [hop₂, Option.map_none, Option.map_eq_none_iff] at htwice
            rw [htwice]
            exact .none
          | some op₂ =>
            rw [hop₂, Option.map_some, Option.map_eq_some_iff] at htwice
            obtain ⟨op₂', hop₂', hsame⟩ := htwice
            simp only [hop₂', Option.bind_some]
            cases hsecond : (kept t₁ first).mapM (self.issueDue t₂) <;>
              cases hops₂ : ops.mapM (self.issueDue t₂) <;> rw [hsecond, hops₂] at ih <;> cases ih
            · exact .none
            · exact .some (Merges.late ‹_› hdone hsame)

/-- What is pending after two drives is what the later one alone leaves. -/
theorem drainReady_twice (h : t₁ ≤ t₂) (queue : SharedRuntimeQueue (RuntimeWorkItem Unit)) :
    ((queue.drainReady t₁).2.2.drainReady t₂).2.2 = (queue.drainReady t₂).2.2 := by
  simp only [SharedRuntimeQueue.drainReady, List.filter_filter]
  congr 2
  funext record
  rw [Bool.eq_iff_iff]
  simp only [Bool.and_eq_true, Bool.not_eq_true', Bool.eq_false_iff, ne_eq, isReady_iff]
  exact ⟨fun hlate => hlate.1, fun hlate =>
    ⟨hlate, fun hready => hlate (UInt64.le_trans hready h)⟩⟩

/-- **An advance on the way to a later one**: both fail, or the engines agree afterwards. -/
theorem Linked.advanceTo_twice (h : self.Linked) (htimely : self.Timely) (runner : DispatchRunner)
    (hle : t₁ ≤ t₂) (sink : List SimEvent) :
    Option.Rel (fun twice once => Agree twice.1 once.1)
      ((self.advanceTo runner t₁ sink).bind fun (engine, sink) => engine.advanceTo runner t₂ sink)
      (self.advanceTo runner t₂ sink) := by
  have hmerge := issue_twice self hle self.inflight
  rw [h.advanceTo_eq, h.advanceTo_eq]
  cases hfirst : self.inflight.mapM (self.issueDue t₁) with
  | none =>
    rw [hfirst] at hmerge
    cases honce : self.inflight.mapM (self.issueDue t₂) with
    | none => exact .none
    | some once =>
      rw [honce] at hmerge
      cases hmerge
  | some first =>
    have hlinked := h.settled hfirst
    have htimely' : (self.settled t₁ first).Timely := ⟨htimely.dispatch, htimely.copy⟩
    -- the second advance meets what the first one has left in flight
    have hleft : (self.settled t₁ first).inflight.mapM ((self.settled t₁ first).issueDue t₂) =
        (kept t₁ first).mapM (self.issueDue t₂) := by
      rw [h.settled_eq htimely hfirst]
      rfl
    rw [hfirst, Option.bind_some, ← hleft] at hmerge
    simp only [Option.map_some, Option.bind_some]
    rw [hlinked.advanceTo_eq]
    cases hsecond : (self.settled t₁ first).inflight.mapM ((self.settled t₁ first).issueDue t₂) <;>
      cases honce : self.inflight.mapM (self.issueDue t₂) <;> rw [hsecond, honce] at hmerge <;>
      cases hmerge
    · exact .none
    · rename_i second once hmerges
      refine .some ?_
      show Agree ((self.settled t₁ first).settled t₂ second) (self.settled t₂ once)
      rw [hlinked.settled_eq htimely' hsecond, h.settled_eq htimely honce,
        h.settled_eq htimely hfirst]
      refine ⟨hmerges.kept, ?_, ?_⟩
      · simp only [List.append_assoc]
        exact hmerges.successes.append_left _
      · have hqueue := drainReady_twice hle self.submissionQueue.queue
        simp only [driven, hqueue]

end LocalRuntimeEngine

namespace Ledger

variable {l l' : Ledger}

/-- No call changes a latency. -/
theorem step_timely {runner : DispatchRunner} {call : EngineCall} (hl : l.Inv)
    (hlinked : l.engine.Linked) (h : l.engine.Timely) (hstep : step runner l call = some l') :
    l'.engine.Timely := by
  rcases step_cases hstep with ⟨_, _, _, _, out, -, -, hsubmit, rfl⟩ |
    ⟨now, engine, sink, -, hadvance, hengine, -, -, -⟩
  · obtain ⟨result, engine, sink⟩ := out
    rcases hl.submitOp_cases hsubmit with ⟨rfl, rfl, rfl, -⟩ | ⟨_, rfl, -, -, rfl, rfl⟩
    · exact h
    · exact ⟨h.dispatch, h.copy⟩
  · rw [hlinked.advanceTo_eq, Option.map_eq_some_iff] at hadvance
    obtain ⟨issued, -, hpair⟩ := hadvance
    cases hpair
    rw [hengine]
    exact ⟨h.dispatch, h.copy⟩

/-- **Composition of advances.**  At every reachable state of an engine in `LocalRuntime` mode whose
latencies do not exceed its timeout, an advance to `t₁` and then to `t₂` overflows exactly if the
advance to `t₂` alone does; otherwise both leave the same operations in flight, up to their issue
times, the same completions, up to their order, and the same rest. -/
theorem advances_compose (runner : DispatchRunner)
    (dispatchLatencyUs copyLatencyUs timeoutUs : SimTimestamp) (maxInflight maxRetries : ℕ)
    (hdispatch : dispatchLatencyUs ≤ timeoutUs) (hcopy : copyLatencyUs ≤ timeoutUs)
    (calls : List EngineCall) (l : Ledger)
    (h : LTS.run (step runner)
      (start (withPolicy dispatchLatencyUs copyLatencyUs timeoutUs maxInflight maxRetries)) calls
        = some l) (t₁ t₂ : SimTimestamp) (hle : t₁ ≤ t₂) :
    Option.Rel (fun twice once => Agree twice.1 once.1)
      ((l.engine.advanceTo runner t₁ l.sink).bind fun (engine, sink) =>
        engine.advanceTo runner t₂ sink)
      (l.engine.advanceTo runner t₂ l.sink) := by
  have hrun := LTS.run_invariant
    (P := fun l => (l.Inv ∧ l.engine.Linked) ∧ l.engine.Timely)
    (fun l call l' hl hstep => ⟨⟨step_inv runner l call l' hl.1.1 hstep,
      step_linked hl.1.1 hl.1.2 hstep⟩, step_timely hl.1.1 hl.1.2 hl.2 hstep⟩)
    ⟨⟨start_inv .., start_linked ..⟩, ⟨hdispatch, hcopy⟩⟩ h
  exact hrun.1.2.advanceTo_twice hrun.2 runner hle l.sink

/-- An issued and a queued operation; the first one completes on the way. -/
theorem advances_compose_sample : ∃ l,
    LTS.run (step fun _ => .ok ()) (start (withPolicy 15 30 40 4 1))
      [.submitCopy ⟨sampleTask, .hostToDevice⟩, .advanceTo 10,
        .submitCopy ⟨sampleTask, .deviceToHost⟩] = some l ∧
      Option.Rel (fun twice once => Agree twice.1 once.1)
        ((l.engine.advanceTo (fun _ => .ok ()) 30 l.sink).bind fun (engine, sink) =>
          engine.advanceTo (fun _ => .ok ()) 45 sink)
        (l.engine.advanceTo (fun _ => .ok ()) 45 l.sink) := by
  obtain ⟨l, hl⟩ := Option.isSome_iff_exists.1 (by decide +kernel :
    (LTS.run (step fun _ => .ok ()) (start (withPolicy 15 30 40 4 1))
      [.submitCopy ⟨sampleTask, .hostToDevice⟩, .advanceTo 10,
        .submitCopy ⟨sampleTask, .deviceToHost⟩]).isSome = true)
  exact ⟨l, hl, advances_compose _ 15 30 40 4 1 (by decide) (by decide) _ l hl 30 45 (by decide)⟩

end Ledger

end LinquUb
