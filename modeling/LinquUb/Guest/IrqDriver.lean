import LinquUb.LTS.Run
import Mathlib.Logic.Function.Basic
import Mathlib.Tactic.SplitIfs

/-!
# Interrupts in the guest driver

`linqu_ub_irq_thread` and `linqu_ub_read` of `linqu_ub_drv.c`.  The interrupt thread acknowledges
the causes that the device reports and then notes them for the readers; a reader takes a snapshot of
what is noted and then copies it to user space.

* `LinquUbDrv.step` : a step of the interrupt thread, of a reader or of the device; the interrupt is
  threaded and one-shot, so there is one thread, and any number of readers;
* `CausesKept` : an acknowledged cause has been returned, or can be read, or a call has it in hand;
* `NoCauseLost` : the same when no call is in progress;
* `LinquUbDrv.run_keeps_causes` : **no cause is lost in a run in which no interrupt replaces causes
  that have not been read, and no copy to user space fails**.

A section under the lock is one step.  The log (`LinquUbDrv.log`) is read by no function.
-/

namespace LinquUb

/-- `struct linqu_ub_irq_snapshot` -/
structure IrqSnapshot where
  irqCount : UInt64
  irqStatus : UInt64
deriving DecidableEq, Repr

/-- `sizeof(struct linqu_ub_irq_snapshot)` -/
def IrqSnapshot.sizeBytes : ℕ := 16

/-- Where the interrupt thread is. -/
inductive IrqThread
  | idle
  /-- It has read the status of the device. -/
  | read (status : UInt64)
  /-- It has acknowledged the status. -/
  | acked (status : UInt64)
deriving DecidableEq, Repr

/-- The status that the thread is about to note. -/
def IrqThread.unnoted : IrqThread → Option UInt64
  | .acked status => some status
  | _ => none

/-- Where a reader is. -/
inductive ReadCall
  | idle
  | waiting
  /-- It has seen that an event is pending. -/
  | woken
  /-- It has taken a snapshot, when the log had `takenAt` events. -/
  | taken (takenAt : ℕ) (snapshot : IrqSnapshot)
deriving DecidableEq, Repr

inductive DrvEvent
  /-- The causes were acknowledged to the device. -/
  | acknowledged (status : UInt64)
  /-- A read returned the snapshot that it had taken. -/
  | returned (takenAt : ℕ) (snapshot : IrqSnapshot)
deriving DecidableEq, Repr

/-- The driver, with its interrupt thread, its readers and the status register of the device. -/
structure LinquUbDrv where
  eventPending : Bool
  irqCount : UInt64
  lastIrqStatus : UInt64
  device : UInt64
  thread : IrqThread
  calls : ℕ → ReadCall
  /-- What has happened so far. -/
  log : List DrvEvent

inductive DrvAction
  /-- The device has new causes. -/
  | raise (bits : UInt64)
  | irqRead
  | irqAck
  /-- The section under the lock, and the wake-up. -/
  | irqRecord
  /-- A reader calls `read` with a buffer of `count` bytes. -/
  | readCall (r count : ℕ)
  /-- The reader sees that an event is pending. -/
  | readWake (r : ℕ)
  /-- A signal interrupts the reader. -/
  | readInterrupt (r : ℕ)
  /-- The section under the lock. -/
  | readSnapshot (r : ℕ)
  /-- `copy_to_user`, and whether it copies everything. -/
  | readCopy (r : ℕ) (copied : Bool)
deriving DecidableEq, Repr

namespace LinquUbDrv

/-- The driver behind `linqu_ub_probe`. -/
def start : LinquUbDrv :=
  { eventPending := false, irqCount := 0, lastIrqStatus := 0, device := 0, thread := .idle
    calls := fun _ => .idle, log := [] }

def setCall (s : LinquUbDrv) (r : ℕ) (call : ReadCall) : LinquUbDrv :=
  { s with calls := Function.update s.calls r call }

def step (s : LinquUbDrv) : DrvAction → Option LinquUbDrv
  | .raise bits => some { s with device := s.device ||| bits }
  | .irqRead =>
    match s.thread with
    | .idle => some (if s.device = 0 then s else { s with thread := .read s.device })
    | _ => none
  | .irqAck =>
    match s.thread with
    | .read status => some { s with
        device := s.device &&& ~~~status
        thread := .acked status
        log := s.log ++ [.acknowledged status] }
    | _ => none
  | .irqRecord =>
    match s.thread with
    | .acked status => some { s with
        irqCount := s.irqCount + 1
        lastIrqStatus := status
        eventPending := true
        thread := .idle }
    | _ => none
  | .readCall r count =>
    match s.calls r with
    | .idle => some (if count < IrqSnapshot.sizeBytes then s else s.setCall r .waiting)
    | _ => none
  | .readWake r =>
    match s.calls r with
    | .waiting => if s.eventPending then some (s.setCall r .woken) else none
    | _ => none
  | .readInterrupt r =>
    match s.calls r with
    | .waiting => some (s.setCall r .idle)
    | _ => none
  | .readSnapshot r =>
    match s.calls r with
    | .woken => some { s.setCall r (.taken s.log.length ⟨s.irqCount, s.lastIrqStatus⟩) with
        eventPending := false }
    | _ => none
  | .readCopy r copied =>
    match s.calls r with
    | .taken takenAt snapshot => some { s.setCall r .idle with
        log := if copied then s.log ++ [.returned takenAt snapshot] else s.log }
    | _ => none

/-! ### Causes -/

/-- The cause with number `b` is set. -/
def HasCause (status : UInt64) (b : ℕ) : Prop := status.toNat.testBit b = true

instance (status : UInt64) (b : ℕ) : Decidable (HasCause status b) :=
  inferInstanceAs (Decidable (_ = _))

section Properties

variable (s : LinquUbDrv)

/-- A read has returned the cause in a snapshot that it took after the event with number `i`. -/
def Returned (i b : ℕ) : Prop :=
  ∃ takenAt snapshot, .returned takenAt snapshot ∈ s.log ∧ i < takenAt ∧
    HasCause snapshot.irqStatus b

/-- The next snapshot has the cause, and an event is pending. -/
def Readable (b : ℕ) : Prop := s.eventPending = true ∧ HasCause s.lastIrqStatus b

/-- The interrupt thread is about to note the cause, or a reader to return it. -/
def InHand (i b : ℕ) : Prop :=
  (∃ status, s.thread = .acked status ∧ HasCause status b) ∨
  ∃ r takenAt snapshot, s.calls r = .taken takenAt snapshot ∧ i < takenAt ∧
    HasCause snapshot.irqStatus b

/-- Every cause that was acknowledged has been returned since, or it will be. -/
def CausesKept : Prop :=
  ∀ i status, s.log[i]? = some (.acknowledged status) → ∀ b, HasCause status b →
    s.Returned i b ∨ s.Readable b ∨ s.InHand i b

/-- Every cause that was acknowledged has been returned since, or can be read. -/
def NoCauseLost : Prop :=
  ∀ i status, s.log[i]? = some (.acknowledged status) → ∀ b, HasCause status b →
    s.Returned i b ∨ s.Readable b

/-- No call is between the two places where a cause is kept. -/
def Settled : Prop :=
  (∀ status, s.thread ≠ .acked status) ∧
  ∀ r takenAt snapshot, s.calls r ≠ .taken takenAt snapshot

/-- An interrupt that is noted has all causes that can still be read, and a copy succeeds. -/
def LosesNothing : DrvAction → Prop
  | .irqRecord => ∀ status ∈ s.thread.unnoted, s.eventPending = true →
      s.lastIrqStatus &&& status = s.lastIrqStatus
  | .readCopy _ copied => copied = true
  | _ => True

instance : ∀ action, Decidable (s.LosesNothing action)
  | .irqRecord => Option.decidableForallMem s.thread.unnoted
  | .readCopy _ copied => inferInstanceAs (Decidable (copied = true))
  | .raise _ | .irqRead | .irqAck | .readCall .. | .readWake _ | .readInterrupt _
  | .readSnapshot _ => .isTrue trivial

end Properties

variable {s s' : LinquUbDrv} {action : DrvAction} {i b r : ℕ}

theorem start_causesKept : start.CausesKept := fun _ _ h => absurd h (by simp [start])

/-- Steps that only move a reader between the states in which it has nothing in hand. -/
theorem CausesKept.setCall (h : s.CausesKept) {call : ReadCall}
    (hbefore : ∀ takenAt snapshot, s.calls r ≠ .taken takenAt snapshot) :
    (s.setCall r call).CausesKept := by
  intro i status hi b hb
  rcases h i status hi b hb with hret | hread | ⟨st, hthread, hcause⟩ |
    ⟨q, at_, snap, hq, hlt, hcause⟩
  · exact .inl hret
  · exact .inr (.inl hread)
  · exact .inr (.inr (.inl ⟨st, hthread, hcause⟩))
  · have hne : q ≠ r := fun heq => hbefore at_ snap (heq ▸ hq)
    refine .inr (.inr (.inr ⟨q, at_, snap, ?_, hlt, hcause⟩))
    exact (Function.update_of_ne hne _ _).trans hq

/-- An event of the longer log is one of the shorter log, or the last one. -/
theorem getElem?_log_snoc {log : List DrvEvent} {last event : DrvEvent}
    (h : (log ++ [last])[i]? = some event) : log[i]? = some event ∨ last = event := by
  by_cases hlt : i < log.length
  · rw [List.getElem?_append_left hlt] at h
    exact .inl h
  · rw [List.getElem?_append_right (Nat.not_lt.1 hlt)] at h
    exact .inr (List.mem_singleton.1 (List.mem_of_getElem? h)).symm

/-- The interrupt thread has read the status register and has nothing in hand yet. -/
theorem CausesKept.read (h : s.CausesKept) (hidle : s.thread = .idle) (status : UInt64) :
    CausesKept { s with thread := .read status } := by
  intro i st hi b hb
  rcases h i st hi b hb with hret | hread | ⟨st', hst', -⟩ | htaken
  · exact .inl hret
  · exact .inr (.inl hread)
  · rw [hidle] at hst'
    cases hst'
  · exact .inr (.inr (.inr htaken))

theorem CausesKept.ack (h : s.CausesKept) {status : UInt64} (hthread : s.thread = .read status)
    (device : UInt64) :
    CausesKept { s with
      device, thread := .acked status, log := s.log ++ [.acknowledged status] } := by
  intro i st hi b hb
  rcases getElem?_log_snoc hi with hold | hnew
  · rcases h i st hold b hb with ⟨at_, snap, hin, hlt, hcause⟩ | hread | ⟨st', hst', -⟩ | htaken
    · exact .inl ⟨at_, snap, List.mem_append_left _ hin, hlt, hcause⟩
    · exact .inr (.inl hread)
    · rw [hthread] at hst'
      cases hst'
    · exact .inr (.inr (.inr htaken))
  · -- the event that is being logged
    cases hnew
    exact .inr (.inr (.inl ⟨status, rfl, hb⟩))

/-- Noting an interrupt that has all causes that can still be read. -/
theorem CausesKept.record (h : s.CausesKept) {status : UInt64} (hthread : s.thread = .acked status)
    (hall : s.eventPending = true → s.lastIrqStatus &&& status = s.lastIrqStatus)
    (irqCount : UInt64) :
    CausesKept { s with
      irqCount, lastIrqStatus := status, eventPending := true, thread := .idle } := by
  intro i st hi b hb
  rcases h i st hi b hb with hret | ⟨hpending, hcause⟩ | ⟨st', hst', hcause⟩ | htaken
  · exact .inl hret
  · refine .inr (.inl ⟨rfl, ?_⟩)
    unfold HasCause at hcause
    rw [← hall hpending, UInt64.toNat_and, Nat.testBit_and, Bool.and_eq_true] at hcause
    exact hcause.2
  · rw [hthread] at hst'
    cases hst'
    exact .inr (.inl ⟨rfl, hcause⟩)
  · exact .inr (.inr (.inr htaken))

/-- A snapshot has the causes that could be read. -/
theorem CausesKept.snapshot (h : s.CausesKept)
    (hbefore : ∀ takenAt snapshot, s.calls r ≠ .taken takenAt snapshot) :
    CausesKept { s.setCall r (.taken s.log.length ⟨s.irqCount, s.lastIrqStatus⟩) with
      eventPending := false } := by
  intro i status hi b hb
  rcases h i status hi b hb with hret | ⟨-, hcause⟩ | ⟨st, hthread, hcause⟩ |
    ⟨q, at_, snap, hq, hlt, hcause⟩
  · exact .inl hret
  · have hlt : i < s.log.length := (List.getElem?_eq_some_iff.1 hi).1
    exact .inr (.inr (.inr ⟨r, _, _, Function.update_self r _ _, hlt, hcause⟩))
  · exact .inr (.inr (.inl ⟨st, hthread, hcause⟩))
  · have hne : q ≠ r := fun heq => hbefore at_ snap (heq ▸ hq)
    refine .inr (.inr (.inr ⟨q, at_, snap, ?_, hlt, hcause⟩))
    exact (Function.update_of_ne hne _ _).trans hq

/-- A copy returns the causes of the snapshot. -/
theorem CausesKept.copy (h : s.CausesKept) {takenAt : ℕ} {snapshot : IrqSnapshot}
    (hcall : s.calls r = .taken takenAt snapshot) :
    CausesKept { s.setCall r .idle with log := s.log ++ [.returned takenAt snapshot] } := by
  intro i status hi b hb
  have hold : s.log[i]? = some (.acknowledged status) :=
    (getElem?_log_snoc hi).resolve_right nofun
  rcases h i status hold b hb with ⟨at_, snap, hin, hlt, hcause⟩ | hread | ⟨st, hthread, hcause⟩ |
    ⟨q, at_, snap, hq, hlt, hcause⟩
  · exact .inl ⟨at_, snap, List.mem_append_left _ hin, hlt, hcause⟩
  · exact .inr (.inl hread)
  · exact .inr (.inr (.inl ⟨st, hthread, hcause⟩))
  · by_cases heq : q = r
    · subst heq
      rw [hcall] at hq
      cases hq
      exact .inl ⟨takenAt, snapshot, List.mem_append_right _ List.mem_cons_self, hlt, hcause⟩
    · refine .inr (.inr (.inr ⟨q, at_, snap, ?_, hlt, hcause⟩))
      exact (Function.update_of_ne heq _ _).trans hq

theorem step_causesKept (h : s.CausesKept) (hstep : s.step action = some s')
    (hloses : s.LosesNothing action) : s'.CausesKept := by
  cases action with
  | raise bits =>
    cases hstep
    exact h
  | irqRead =>
    simp only [step] at hstep
    split at hstep
    · rename_i hidle
      cases hstep
      split_ifs
      · exact h
      · exact h.read hidle _
    · cases hstep
  | irqAck =>
    simp only [step] at hstep
    split at hstep
    · rename_i hthread
      cases hstep
      exact h.ack hthread _
    · cases hstep
  | irqRecord =>
    simp only [step] at hstep
    split at hstep
    · rename_i hthread
      cases hstep
      refine h.record hthread (hloses _ ?_) _
      rw [hthread]
      rfl
    · cases hstep
  | readCall r count =>
    simp only [step] at hstep
    split at hstep
    · rename_i hcall
      cases hstep
      split_ifs
      · exact h
      · exact h.setCall (by rw [hcall]; exact nofun)
    · cases hstep
  | readWake r =>
    simp only [step] at hstep
    split at hstep
    · rename_i hcall
      obtain ⟨-, hstep⟩ := Option.ite_none_right_eq_some.1 hstep
      cases hstep
      exact h.setCall (by rw [hcall]; exact nofun)
    · cases hstep
  | readInterrupt r =>
    simp only [step] at hstep
    split at hstep
    · rename_i hcall
      cases hstep
      exact h.setCall (by rw [hcall]; exact nofun)
    · cases hstep
  | readSnapshot r =>
    simp only [step] at hstep
    split at hstep
    · rename_i hcall
      cases hstep
      exact h.snapshot (by rw [hcall]; exact nofun)
    · cases hstep
  | readCopy r copied =>
    simp only [step] at hstep
    split at hstep
    · rename_i hcall
      obtain rfl : copied = true := hloses
      cases hstep
      exact h.copy hcall
    · cases hstep

/-- **Causes are kept.**  In a run in which no interrupt replaces causes that have not been read,
and no copy fails, no cause is lost. -/
theorem run_keeps_causes (actions : List DrvAction) (s : LinquUbDrv)
    (hrun : LTS.run step start actions = some s)
    (hloses : LTS.EveryStep step (fun s action _ => s.LosesNothing action) start actions) :
    s.CausesKept ∧ (s.Settled → s.NoCauseLost) := by
  have hkept : s.CausesKept := hloses.invariant
    (fun _ _ _ h hstep hloses => step_causesKept h hstep hloses) start_causesKept hrun
  refine ⟨hkept, fun hsettled i status hi b hb => ?_⟩
  rcases hkept i status hi b hb with hret | hread | ⟨st, hthread, -⟩ | ⟨r, at_, snap, hcall, -⟩
  · exact .inl hret
  · exact .inr hread
  · exact absurd hthread (hsettled.1 st)
  · exact absurd hcall (hsettled.2 r at_ snap)

/-! ### Examples of runs -/

/-- An interrupt with the causes, from the device to the readers. -/
def interrupt (bits : UInt64) : List DrvAction := [.raise bits, .irqRead, .irqAck, .irqRecord]

/-- A read by the first reader. -/
def readBy0 (copied : Bool) : List DrvAction :=
  [.readCall 0 16, .readWake 0, .readSnapshot 0, .readCopy 0 copied]

/-- A second interrupt with all causes of the first, before the read. -/
theorem run_keeps_causes_read : ∃ s,
    LTS.run step start (interrupt 1 ++ interrupt 3 ++ readBy0 true) = some s ∧
    s.log = [.acknowledged 1, .acknowledged 3, .returned 2 ⟨2, 3⟩] ∧
    s.CausesKept ∧ (s.Settled → s.NoCauseLost) :=
  ⟨_, rfl, rfl, run_keeps_causes (interrupt 1 ++ interrupt 3 ++ readBy0 true) _ rfl
    (by decide +kernel)⟩

/-- A second interrupt before the first read, or a copy that fails, loses the first cause. -/
theorem first_cause_lost :
    (∃ s, LTS.run step start (interrupt 1 ++ interrupt 2) = some s ∧ s.Settled ∧
      ¬ s.NoCauseLost) ∧
    ∃ s, LTS.run step start (interrupt 1 ++ readBy0 false) = some s ∧ s.Settled ∧
      ¬ s.NoCauseLost := by
  constructor
  · refine ⟨{ start with
      eventPending := true, irqCount := 2, lastIrqStatus := 2
      log := [.acknowledged 1, .acknowledged 2] }, rfl, ⟨nofun, nofun⟩, fun h => ?_⟩
    rcases h 0 1 rfl 0 (by decide) with ⟨takenAt, snapshot, hin, -⟩ | ⟨-, hcause⟩
    · simp at hin
    · exact absurd hcause (by decide)
  · let waiting := Function.update start.calls 0 .waiting
    let taken := Function.update (Function.update waiting 0 .woken) 0 (.taken 1 ⟨1, 1⟩)
    refine ⟨{ start with
      irqCount := 1, lastIrqStatus := 1, log := [.acknowledged 1]
      calls := Function.update taken 0 .idle }, rfl, ⟨nofun, fun r takenAt snapshot h => ?_⟩,
      fun h => ?_⟩
    · have hidle : Function.update start.calls 0 .idle = start.calls :=
        Function.update_eq_self 0 start.calls
      rw [Function.update_idem, Function.update_idem, Function.update_idem, hidle] at h
      cases h
    · rcases h 0 1 rfl 0 (by decide) with ⟨takenAt, snapshot, hin, -⟩ | ⟨hpending, -⟩
      · simp at hin
      · cases hpending

end LinquUbDrv

end LinquUb
