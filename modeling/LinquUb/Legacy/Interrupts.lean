import LinquUb.Legacy.MessageRegisters

/-!
# The interrupt line and the message queue

The line is up while an endpoint has an interrupt pending, or the message queue has raised
`cq_int_ro` and the guest has not masked it.  A completion entry sets `cq_int_status` but clears
`cq_int_ro`, which only a batch that fails sets.

* `IrqDevice.regWrite` : the registers of the message queue with the calls of `qemu_set_irq`;
* `IrqDevice.Current` : the line is at the level of `linqu_ub_has_pending_irq`;
* `IrqDevice.irq_of_served` : **an answered batch leaves the line to the endpoints**;
* `IrqDevice.completion_interrupt_iff` : **when a completion that waits keeps the line up, over
  whole runs**.

An endpoint is seen through its `irq_status` only, which every access to its registers may change;
a function that does so ends with `linqu_ub_update_irq`.
-/

namespace LinquUb

namespace Legacy

open MessageQueue

/-- What the interrupt line depends on. -/
structure IrqDevice where
  msgq : MessageQueue
  /-- `irq_status` of the endpoints. -/
  irqStatus : List UInt64
  /-- The level of the line. -/
  irq : Bool
  /-- A completion entry has been written since the guest has caught up or acknowledged. -/
  waiting : Bool
deriving DecidableEq, Repr

inductive IrqInput
  | msgq (reg : Register) (value : UInt64)
  /-- An access to endpoint `i` that leaves this `irq_status`. -/
  | endpoint (i : ℕ) (status : UInt64)

namespace IrqDevice

/-- `linqu_ub_has_pending_irq`. -/
def hasPendingIrq (d : IrqDevice) : Bool :=
  d.irqStatus.any (· ≠ 0) || (decide (d.msgq.cqIntRo ≠ 0) && decide (d.msgq.cqIntMask = 0))

def updateIrq (d : IrqDevice) : IrqDevice := { d with irq := d.hasPendingIrq }

/-- The batch of a producer index.  Every completion entry of it sets the line. -/
def ringSq (bus : DmaBus) (d : IrqDevice) (value : ℕ) : ℤ × IrqDevice :=
  let (rc, s) := MessageQueue.ringSq bus { d.msgq with sqPi := value } value
  if d.msgq.cq.written.length < s.cq.written.length then
    (rc, updateIrq { d with msgq := s, waiting := true })
  else (rc, { d with msgq := s })

def regWrite (bus : DmaBus) (d : IrqDevice) (reg : Register) (value : UInt64) : IrqDevice :=
  let next := { d with msgq := d.msgq.msgqRegWrite bus reg value }
  match reg with
  | .sqPi =>
    if d.msgq.sqDepth = 0 ∨ value.toNat ≥ d.msgq.sqDepth then d
    else
      match ringSq bus d value.toNat with
      | (rc, d) =>
        if rc < 0 then updateIrq { d with msgq.cqIntStatus := 1, msgq.cqIntRo := 1 } else d
  | .cqCi =>
    updateIrq { next with waiting := d.waiting && decide (next.msgq.cq.ci ≠ next.msgq.cq.pi) }
  | .cqIntMask => updateIrq next
  | .cqIntStatus =>
    updateIrq { next with waiting := d.waiting && decide (value.toNat % 2 ^ 32 % 2 ≠ 1) }
  | .rst =>
    if value.toNat % 2 ^ 32 % 2 = 1 then updateIrq { next with waiting := false } else next
  | _ => next

def step (bus : DmaBus) (d : IrqDevice) : IrqInput → Option IrqDevice
  | .msgq reg value => some (d.regWrite bus reg value)
  | .endpoint i status => some (updateIrq { d with irqStatus := d.irqStatus.set i status })

/-- After a reset of the device. -/
def start (config : ConfigSpace) (endpoints : ℕ) : IrqDevice where
  msgq := MessageQueue.start config 0 0 0 0 0 0
  irqStatus := List.replicate endpoints 0
  irq := false
  waiting := false

variable {bus : DmaBus} {d d' : IrqDevice} {input : IrqInput}

/-! ### The level of the line -/

/-- The line is at the level that its sources give. -/
def Current (d : IrqDevice) : Prop := d.irq = d.hasPendingIrq

/-- Some endpoint has an interrupt pending. -/
def EndpointPending (d : IrqDevice) : Prop := ∃ status ∈ d.irqStatus, status ≠ 0

theorem current_updateIrq (d : IrqDevice) : d.updateIrq.Current := rfl

/-- What does not touch the sources leaves the line current. -/
theorem Current.frame (h : d.Current) (hirq : d'.irq = d.irq) (hstatus : d'.irqStatus = d.irqStatus)
    (hro : d'.msgq.cqIntRo = d.msgq.cqIntRo) (hmask : d'.msgq.cqIntMask = d.msgq.cqIntMask) :
    d'.Current := by
  unfold Current hasPendingIrq at h ⊢
  rw [hirq, hstatus, hro, hmask, h]

theorem Current.irq_iff (h : d.Current) :
    d.irq = true ↔ d.EndpointPending ∨ d.msgq.cqIntRo ≠ 0 ∧ d.msgq.cqIntMask = 0 := by
  rw [h, hasPendingIrq]
  simp [EndpointPending]

/-! ### Producer indices -/

/-- The batch that a producer index publishes is answered completely. -/
def AnswersBatch (bus : DmaBus) (d : IrqDevice) (value : UInt64) : Prop :=
  value.toNat < d.msgq.sqDepth ∧ value.toNat ≠ d.msgq.sqCi ∧
    BatchServed bus d.msgq (batch d.msgq.sqDepth d.msgq.sqCi value.toNat)

/-- Nothing has happened that the line or the waiting completions depend on. -/
structure Idle (d d' : IrqDevice) : Prop where
  irqStatus : d'.irqStatus = d.irqStatus
  cqIntRo : d'.msgq.cqIntRo = d.msgq.cqIntRo
  cqIntMask : d'.msgq.cqIntMask = d.msgq.cqIntMask
  waiting : d'.waiting = d.waiting
  current : d.Current → d'.Current

/-- A batch is answered: its completions wait, and `cq_int_ro` is down. -/
structure Completed (d d' : IrqDevice) : Prop where
  irqStatus : d'.irqStatus = d.irqStatus
  cqIntRo : d'.msgq.cqIntRo = 0
  cqIntMask : d'.msgq.cqIntMask = d.msgq.cqIntMask
  waiting : d'.waiting = true
  current : d'.Current

/-- A batch fails, perhaps behind some completions: `cq_int_ro` is up. -/
structure Failed (d' : IrqDevice) : Prop where
  cqIntRo : d'.msgq.cqIntRo ≠ 0
  current : d'.Current

theorem ringSq_progress {value k : ℕ}
    (h : Progress { d.msgq with sqPi := value }
      (MessageQueue.ringSq bus { d.msgq with sqPi := value } value).2 k) :
    (d.ringSq bus value).1 = (MessageQueue.ringSq bus { d.msgq with sqPi := value } value).1 ∧
      if k = 0 then Idle d (d.ringSq bus value).2 else Completed d (d.ringSq bus value).2 := by
  have hentries := h.entries
  have hro := h.cqIntRo
  unfold ringSq
  generalize MessageQueue.ringSq bus { d.msgq with sqPi := value } value = out at h hentries hro ⊢
  obtain ⟨rc, t⟩ := out
  dsimp only at h hentries hro ⊢
  by_cases hk : k = 0
  · rw [if_pos hk] at hro ⊢
    rw [if_neg (by omega)]
    exact ⟨rfl, rfl, hro, h.cqIntMask, rfl, fun hd => hd.frame rfl rfl hro h.cqIntMask⟩
  · rw [if_neg hk] at hro ⊢
    rw [if_pos (by omega)]
    exact ⟨rfl, rfl, hro, h.cqIntMask, rfl, current_updateIrq _⟩

/-- **What a producer index does to the line.** -/
theorem regWrite_sqPi (bus : DmaBus) (d : IrqDevice) (value : UInt64) :
    (AnswersBatch bus d value ∧ Completed d (d.regWrite bus .sqPi value)) ∨
    (¬ AnswersBatch bus d value ∧
      (Idle d (d.regWrite bus .sqPi value) ∨ Failed (d.regWrite bus .sqPi value))) := by
  by_cases hvalue : d.msgq.sqDepth ≤ value.toNat
  · have hsame : d.regWrite bus .sqPi value = d := if_pos (.inr hvalue)
    rw [hsame]
    exact .inr ⟨fun h => absurd h.1 (Nat.not_lt.2 hvalue), .inl ⟨rfl, rfl, rfl, rfl, id⟩⟩
  have hlt := Nat.lt_of_not_le hvalue
  have hwrite : d.regWrite bus .sqPi value =
      if (d.ringSq bus value.toNat).1 < 0 then
        updateIrq { (d.ringSq bus value.toNat).2 with
          msgq.cqIntStatus := 1, msgq.cqIntRo := 1 }
      else (d.ringSq bus value.toNat).2 := by
    rw [regWrite, if_neg (by omega)]
  have hiff : BatchServed bus { d.msgq with sqPi := value.toNat }
      (batch d.msgq.sqDepth d.msgq.sqCi value.toNat) ↔
        BatchServed bus d.msgq (batch d.msgq.sqDepth d.msgq.sqCi value.toNat) :=
    Alike.batchServed_iff { Alike.refl d.msgq with }
  rw [hwrite]
  rcases ringSq_end bus (s := { d.msgq with sqPi := value.toNat }) hlt with
    ⟨hall, hrc, h⟩ | ⟨hall, hrc, k, h⟩
  · obtain ⟨hrc', hcase⟩ := ringSq_progress h
    rw [hrc', hrc, if_neg (lt_irrefl 0)]
    dsimp only at hcase hall
    by_cases hempty : d.msgq.sqCi = value.toNat
    · rw [hempty, batch_self, if_pos List.length_nil] at hcase
      exact .inr ⟨fun h => h.2.1 hempty.symm, .inl hcase⟩
    · rw [batch_cons hempty hlt, List.length_cons, if_neg (Nat.succ_ne_zero _)] at hcase
      exact .inl ⟨⟨hlt, fun heq => hempty heq.symm, hiff.1 hall⟩, hcase⟩
  · obtain ⟨hrc', -⟩ := ringSq_progress h
    rw [hrc', if_pos hrc]
    exact .inr ⟨fun hanswers => hall (hiff.2 hanswers.2.2),
      .inr ⟨Nat.one_ne_zero, current_updateIrq _⟩⟩

/-- **A completion does not raise the line**: behind an answered batch it is up only if an endpoint
has an interrupt pending. -/
theorem irq_of_served {value : UInt64} (h : AnswersBatch bus d value) :
    (d.regWrite bus .sqPi value).waiting = true ∧
      ((d.regWrite bus .sqPi value).irq = true ↔ d.EndpointPending) := by
  rcases regWrite_sqPi bus d value with ⟨-, hcompleted⟩ | ⟨hnot, -⟩
  · refine ⟨hcompleted.waiting, ?_⟩
    rw [hcompleted.current.irq_iff, EndpointPending, hcompleted.irqStatus, hcompleted.cqIntRo]
    simp [EndpointPending]
  · exact absurd h hnot

/-! ### Acknowledgements -/

/-- No completion waits any more. -/
structure Released (d' : IrqDevice) : Prop where
  waiting : d'.waiting = false
  current : d'.Current

/-- A consumer index releases the completions if it catches up. -/
theorem regWrite_cqCi (bus : DmaBus) (d : IrqDevice) (value : UInt64) :
    Idle d (d.regWrite bus .cqCi value) ∨ Released (d.regWrite bus .cqCi value) := by
  have hcq : (d.msgq.msgqRegWrite bus .cqCi value).cq =
      d.msgq.cq.consume (value.toNat % 2 ^ 32) := by
    simp only [msgqRegWrite]
    split_ifs <;> rfl
  have hwaiting : (d.regWrite bus .cqCi value).waiting =
      (d.waiting && decide (value.toNat % 2 ^ 32 ≠ d.msgq.cq.pi)) := by
    simp only [regWrite, updateIrq, hcq, MsgRing.consume]
  by_cases hcaught : value.toNat % 2 ^ 32 = d.msgq.cq.pi
  · refine .inr ⟨?_, current_updateIrq _⟩
    rw [hwaiting, decide_eq_false (not_not.2 hcaught), Bool.and_false]
  · have hsame : d.msgq.msgqRegWrite bus .cqCi value =
        { d.msgq with cq := d.msgq.cq.consume (value.toNat % 2 ^ 32) } := if_neg hcaught
    refine .inl ⟨rfl, ?_, ?_, ?_, fun _ => current_updateIrq _⟩
    · simp only [regWrite, updateIrq, hsame]
    · simp only [regWrite, updateIrq, hsame]
    · rw [hwaiting, decide_eq_true hcaught, Bool.and_true]

theorem regWrite_cqIntStatus (bus : DmaBus) (d : IrqDevice) (value : UInt64) :
    Idle d (d.regWrite bus .cqIntStatus value) ∨ Released (d.regWrite bus .cqIntStatus value) := by
  have hwaiting : (d.regWrite bus .cqIntStatus value).waiting =
      (d.waiting && decide (value.toNat % 2 ^ 32 % 2 ≠ 1)) := rfl
  by_cases hack : value.toNat % 2 ^ 32 % 2 = 1
  · refine .inr ⟨?_, current_updateIrq _⟩
    rw [hwaiting, decide_eq_false (not_not.2 hack), Bool.and_false]
  · have hsame : d.msgq.msgqRegWrite bus .cqIntStatus value = d.msgq := if_neg hack
    refine .inl ⟨rfl, ?_, ?_, ?_, fun _ => current_updateIrq _⟩
    · simp only [regWrite, updateIrq, hsame]
    · simp only [regWrite, updateIrq, hsame]
    · rw [hwaiting, decide_eq_true hack, Bool.and_true]

theorem regWrite_rst (bus : DmaBus) (d : IrqDevice) (value : UInt64) :
    Idle d (d.regWrite bus .rst value) ∨ Released (d.regWrite bus .rst value) := by
  by_cases hreset : value.toNat % 2 ^ 32 % 2 = 1
  · have hwrite : d.regWrite bus .rst value =
        updateIrq { d with msgq := d.msgq.msgqRegWrite bus .rst value, waiting := false } :=
      if_pos hreset
    rw [hwrite]
    exact .inr ⟨rfl, current_updateIrq _⟩
  · have hwrite : d.regWrite bus .rst value =
        { d with msgq := d.msgq.msgqRegWrite bus .rst value } := if_neg hreset
    have hsame : d.msgq.msgqRegWrite bus .rst value = d.msgq := if_neg hreset
    rw [hwrite, hsame]
    exact .inl ⟨rfl, rfl, rfl, rfl, id⟩

/-! ### Whole runs -/

/-- What the guest expects of the line: it is up while a completion waits, unless it is masked. -/
def Asserted (d : IrqDevice) : Prop :=
  d.msgq.cqIntMask = 0 → d.waiting = true → d.irq = true

/-- A completion waits, and nothing but an endpoint can keep the line up for it. -/
def Unsignalled (d : IrqDevice) : Prop := d.waiting = true ∧ d.msgq.cqIntRo = 0

/-- The endpoints stand in for the message queue: one has an interrupt pending when a batch is
answered, when the guest takes the mask away and when it handles the interrupt of an endpoint. -/
def EndpointsStandIn (bus : DmaBus) (d : IrqDevice) : IrqInput → Prop
  | .msgq .sqPi value =>
    AnswersBatch bus d value → d.msgq.cqIntMask = 0 → d.EndpointPending
  | .msgq .cqIntMask value => value.toNat % 2 = 0 → d.Unsignalled → d.EndpointPending
  | .endpoint i status =>
    d.msgq.cqIntMask = 0 → d.Unsignalled → ∃ status' ∈ d.irqStatus.set i status, status' ≠ 0
  | .msgq _ _ => True

theorem Current.asserted_iff (h : d.Current) :
    d.Asserted ↔ (d.msgq.cqIntMask = 0 → d.Unsignalled → d.EndpointPending) := by
  unfold Asserted Unsignalled
  rw [h.irq_iff]
  constructor
  · rintro hasserted hmask ⟨hwaiting, hro⟩
    exact (hasserted hmask hwaiting).resolve_right fun hup => hup.1 hro
  · intro hstand hmask hwaiting
    by_cases hro : d.msgq.cqIntRo = 0
    · exact .inl (hstand hmask ⟨hwaiting, hro⟩)
    · exact .inr ⟨hro, hmask⟩

theorem Idle.asserted (h : Idle d d') (hcurrent : d.Current) (hd : d.Asserted) : d'.Asserted := by
  rw [(h.current hcurrent).asserted_iff, Unsignalled, EndpointPending, h.cqIntMask, h.waiting,
    h.cqIntRo, h.irqStatus]
  exact hcurrent.asserted_iff.1 hd

theorem Released.asserted (h : Released d') : d'.Asserted := by
  intro _ hwaiting
  rw [h.waiting] at hwaiting
  cases hwaiting

theorem Failed.asserted (h : Failed d') : d'.Asserted :=
  h.current.asserted_iff.2 fun _ hunsignalled => absurd hunsignalled.2 h.cqIntRo

theorem Completed.asserted_iff (h : Completed d d') :
    d'.Asserted ↔ (d.msgq.cqIntMask = 0 → d.EndpointPending) := by
  rw [h.current.asserted_iff, Unsignalled, EndpointPending, h.cqIntMask, h.waiting, h.cqIntRo,
    h.irqStatus]
  simp [EndpointPending]

/-- **What an input does to the line.** -/
theorem asserted_step (hcurrent : d.Current) (hd : d.Asserted)
    (hstep : step bus d input = some d') :
    (d'.Asserted ↔ d.EndpointsStandIn bus input) ∧ d'.Current := by
  have hother {t : IrqDevice} (h : Idle d t ∨ Released t) : (t.Asserted ↔ True) ∧ t.Current := by
    rcases h with hidle | hreleased
    · exact ⟨iff_of_true (hidle.asserted hcurrent hd) trivial, hidle.current hcurrent⟩
    · exact ⟨iff_of_true hreleased.asserted trivial, hreleased.current⟩
  cases input with
  | endpoint i status =>
    obtain rfl := Option.some.inj hstep
    exact ⟨(current_updateIrq _).asserted_iff, current_updateIrq _⟩
  | msgq reg value =>
    obtain rfl : d.regWrite bus reg value = d' := Option.some.inj hstep
    cases reg with
    | sqPi =>
      rcases regWrite_sqPi bus d value with ⟨hanswers, h⟩ | ⟨hnot, hidle | hfailed⟩
      · refine ⟨h.asserted_iff.trans ?_, h.current⟩
        simp only [EndpointsStandIn, hanswers, true_imp_iff]
      · exact ⟨iff_of_true (hidle.asserted hcurrent hd) fun h => absurd h hnot,
          hidle.current hcurrent⟩
      · exact ⟨iff_of_true hfailed.asserted fun h => absurd h hnot, hfailed.current⟩
    | cqIntMask =>
      have hcurrent' : (d.regWrite bus .cqIntMask value).Current := current_updateIrq _
      have hmask : (d.regWrite bus .cqIntMask value).msgq.cqIntMask = 0 ↔ value.toNat % 2 = 0 := by
        change value.toNat % 2 ^ 32 % 2 = 0 ↔ value.toNat % 2 = 0
        omega
      refine ⟨?_, hcurrent'⟩
      rw [hcurrent'.asserted_iff, hmask]
      exact Iff.rfl
    | cqCi => exact hother (regWrite_cqCi bus d value)
    | cqIntStatus => exact hother (regWrite_cqIntStatus bus d value)
    | rst => exact hother (regWrite_rst bus d value)
    | _ => exact hother (.inl ⟨rfl, rfl, rfl, rfl, fun h => h.frame rfl rfl rfl rfl⟩)

theorem start_current (config : ConfigSpace) (endpoints : ℕ) :
    (start config endpoints).Current := by
  simp [Current, hasPendingIrq, start, MessageQueue.start]

/-- **The completion interrupt.**  From a reset on, whatever the guest writes to the registers of
the message queue and whatever happens at the endpoints, the line is up in every state with a
completion that waits and an open mask if and only if the endpoints stand in for the message
queue. -/
theorem completion_interrupt_iff (bus : DmaBus) (config : ConfigSpace) (endpoints : ℕ)
    (inputs : List IrqInput) :
    LTS.EveryStep (step bus) (fun _ _ d' => d'.Asserted) (start config endpoints) inputs ↔
      LTS.EveryStep (step bus) (fun d input _ => d.EndpointsStandIn bus input)
        (start config endpoints) inputs := by
  refine LTS.everyStep_congr (P := fun d => d.Current ∧ d.Asserted) ?_ ?_ inputs
  · rintro d input d' ⟨hcurrent, hd⟩ hstep
    obtain ⟨hiff, hcurrent'⟩ := asserted_step hcurrent hd hstep
    exact ⟨hiff, fun h => ⟨hcurrent', h⟩⟩
  · exact ⟨start_current config endpoints, fun _ hwaiting => nomatch hwaiting⟩

/-- The guest sets up the three queues through the window and publishes a request that is answered:
the completion waits, the interrupt is not masked, and the line is down. -/
theorem completion_unsignalled :
    ∃ d, LTS.run (step (requestBus 0)) (start noConfig 1)
        [.msgq .sqAddrL 0x1000, .msgq .sqDepth 4, .msgq .rqAddrL 0x2000, .msgq .rqDepth 4,
          .msgq .cqAddrL 0x3000, .msgq .cqDepth 4, .msgq .sqPi 1] = some d ∧
      LTS.run (windowStep (requestBus 0)) (MessageQueue.start noConfig 0 0 0 0 0 0)
        [⟨0x200, 0x1000, 4⟩, ⟨0x210, 4, 4⟩, ⟨0x240, 0x2000, 4⟩, ⟨0x250, 4, 4⟩,
          ⟨0x270, 0x3000, 4⟩, ⟨0x280, 4, 4⟩, ⟨0x208, 1, 4⟩] = some d.msgq ∧
      d.msgq.cqIntMask = 0 ∧ d.waiting = true ∧ d.msgq.cq.ci ≠ d.msgq.cq.pi ∧ d.irq = false := by
  refine ⟨_, rfl, ?_⟩
  decide +kernel

end IrqDevice

end Legacy

end LinquUb
