import Mathlib.Data.Nat.Find
import LinquUb.LTS.Window
import LinquUb.Legacy.ConfigSpace

/-!
# An endpoint of the archived QEMU device

The C device gives every endpoint a command ring and a completion ring in guest memory.  A doorbell
copies command slots to the backend (`kick`), and then copies completions of the backend to the
completion ring (`flushCq`).

* `Ring` : the registers of a ring;
* `DmaBus`, `LinquUbBackendOps` : what the device calls.  Every call may fail; its answer depends on
  how many calls of its kind came before;
* `Endpoint` : the registers with what went to and came from the backend so far;
* `submitSlots_ok`, `submitSlots_error`, `pollSlots_cases` : **what the two loops do**.
-/

namespace LinquUb

open LTS

namespace Legacy

/-- `LINQU_UB_DESC_BYTES`. -/
def descBytes : ℕ := 64

inductive LinquUbErrorCode
  | none
  | invalidRegisterWrite
  | invalidOffset
  | queueOverflow
  | range
  | invalidDescriptor
  | notImplemented
deriving DecidableEq, Repr

def irqCompletion : UInt64 := 1
def irqError : UInt64 := 2
def irqCqOverflow : UInt64 := 4

/-! ### Rings -/

/-- Base address, size, head and tail. -/
@[ext] structure Ring where
  iova : UInt64
  depth : ℕ
  head : ℕ
  tail : ℕ
  head_lt : head < depth
  tail_lt : tail < depth
deriving DecidableEq, Repr

namespace Ring

variable (r : Ring)

theorem depth_pos : 0 < r.depth := Nat.zero_lt_of_lt r.head_lt

def moveHead (n : ℕ) : Ring :=
  { r with head := (r.head + n) % r.depth, head_lt := Nat.mod_lt _ r.depth_pos }

def moveTail (n : ℕ) : Ring :=
  { r with tail := (r.tail + n) % r.depth, tail_lt := Nat.mod_lt _ r.depth_pos }

/-- The slots from head to tail. -/
def pending : ℕ := advance r.depth r.head r.tail

/-- A completion ring keeps one slot empty. -/
def free : ℕ := r.depth - 1 - r.pending

/-- The address that `linqu_ub_read_slot` and `linqu_ub_write_slot` compute. -/
def slotAddress (slot : ℕ) : UInt64 := r.iova + slot.toUInt64 * descBytes.toUInt64

@[simp] theorem moveHead_depth (n : ℕ) : (r.moveHead n).depth = r.depth := rfl
@[simp] theorem moveHead_head (n : ℕ) : (r.moveHead n).head = (r.head + n) % r.depth := rfl
@[simp] theorem moveTail_depth (n : ℕ) : (r.moveTail n).depth = r.depth := rfl
@[simp] theorem moveTail_tail (n : ℕ) : (r.moveTail n).tail = (r.tail + n) % r.depth := rfl

@[simp] theorem moveHead_zero : r.moveHead 0 = r := by
  ext <;> simp [moveHead, Nat.mod_eq_of_lt r.head_lt]

@[simp] theorem moveTail_zero : r.moveTail 0 = r := by
  ext <;> simp [moveTail, Nat.mod_eq_of_lt r.tail_lt]

theorem moveHead_moveHead (m n : ℕ) : (r.moveHead m).moveHead n = r.moveHead (m + n) := by
  ext <;> simp [moveHead, Nat.add_assoc]

theorem moveTail_moveTail (m n : ℕ) : (r.moveTail m).moveTail n = r.moveTail (m + n) := by
  ext <;> simp [moveTail, Nat.add_assoc]

variable {r}

theorem pending_lt : r.pending < r.depth := advance_lt r.head_lt r.tail_lt

theorem pending_eq_zero : r.pending = 0 ↔ r.head = r.tail := advance_eq_zero r.head_lt

theorem pending_moveHead (hne : r.head ≠ r.tail) : r.pending = (r.moveHead 1).pending + 1 :=
  advance_succ r.head_lt r.tail_lt hne

theorem pending_moveTail (hne : (r.tail + 1) % r.depth ≠ r.head) :
    (r.moveTail 1).pending = r.pending + 1 :=
  advance_stop_succ r.head_lt r.tail_lt hne

/-- The tail is `pending` slots behind the head. -/
theorem tail_eq : (r.head + r.pending) % r.depth = r.tail := advance_mod r.head_lt r.tail_lt

theorem free_le : r.free ≤ r.depth := (Nat.sub_le _ _).trans (Nat.sub_le _ _)

theorem free_eq_zero : r.free = 0 ↔ (r.tail + 1) % r.depth = r.head := by
  have hlt := r.pending_lt
  constructor
  · intro hfull
    have hrev : r.head + r.pending + 1 = r.head + r.depth := by
      unfold free at hfull
      omega
    rw [← tail_eq, Nat.mod_add_mod, hrev, Nat.add_mod_right, Nat.mod_eq_of_lt r.head_lt]
  · intro hfull
    by_contra hfree
    rw [← tail_eq, Nat.mod_add_mod, Nat.add_assoc] at hfull
    have hlast : r.pending + 1 < r.depth := by
      unfold free at hfree
      omega
    have hne : (r.head + 0) % r.depth ≠ (r.head + (r.pending + 1)) % r.depth :=
      slot_ne (Nat.succ_pos r.pending) hlast
    exact hne ((Nat.mod_eq_of_lt r.head_lt).trans hfull.symm)

theorem free_moveTail (hne : (r.tail + 1) % r.depth ≠ r.head) :
    r.free = (r.moveTail 1).free + 1 := by
  have hlt := (r.moveTail 1).pending_lt
  rw [moveTail_depth, pending_moveTail hne] at hlt
  rw [free, free, moveTail_depth, pending_moveTail hne]
  omega

end Ring

/-! ### The outside -/

/-- The answers to the DMA transactions with an address and a length: a read that fails is `none`, a
write that fails is `false`. -/
structure DmaBus where
  read : ℕ → UInt64 → ℕ → Option (List UInt8)
  write : ℕ → UInt64 → ℕ → Bool

/-- The answers of the backend.  A negative number is a failure, and `1` says that there is no
completion. -/
structure LinquUbBackendOps where
  submitSlot : Option (ℕ → UInt16 → List UInt8 → ℤ)
  ringDoorbell : Option (ℕ → UInt16 → ℕ → ℤ)
  pollCompletion : Option (ℕ → UInt16 → ℤ × List UInt8)

/-! ### State -/

structure LinquUbEndpointState where
  endpointId : UInt16
  cmdq : Ring
  cq : Ring
  lastError : LinquUbErrorCode
  irqStatus : UInt64
deriving DecidableEq, Repr

/-- An endpoint and its past: how many calls of each kind it made, the command slots that the
backend took, the completions that it gave out, and the slots that they were written to. -/
structure Endpoint extends LinquUbEndpointState where
  reads : ℕ
  submits : ℕ
  rings : ℕ
  polls : ℕ
  writes : ℕ
  submitted : List ℕ
  taken : List (List UInt8)
  written : List (ℕ × List UInt8)
deriving DecidableEq, Repr

namespace Endpoint

variable (bus : DmaBus) (ops : LinquUbBackendOps)

def setError (s : Endpoint) (code : LinquUbErrorCode) : Endpoint :=
  { s with lastError := code, irqStatus := s.irqStatus ||| irqError }

/-- The loop of `linqu_ub_kick` with its local copy of the ring; `n` slots of the batch are
left. -/
def submitSlots (submitSlot : ℕ → UInt16 → List UInt8 → ℤ) :
    ℕ → Endpoint → Ring → ℕ → Except ℤ (Ring × ℕ) × Endpoint
  | 0, s, ring, submitted => (.ok (ring, submitted), s)
  | n + 1, s, ring, submitted =>
    if ring.head = ring.tail then (.ok (ring, submitted), s)
    else
      match bus.read s.reads (ring.slotAddress ring.head) descBytes with
      | none => (.error (-1), { s with reads := s.reads + 1 }.setError .range)
      | some slot =>
        let rc := submitSlot s.submits s.endpointId slot
        let s := { s with reads := s.reads + 1, submits := s.submits + 1 }
        if rc < 0 then (.error rc, s.setError .invalidDescriptor)
        else submitSlots submitSlot n { s with submitted := s.submitted ++ [ring.head] }
          (ring.moveHead 1) (submitted + 1)

/-- A completion has gone to the tail of the ring. -/
def deliver (s : Endpoint) (slot : List UInt8) : Endpoint :=
  { s with
    polls := s.polls + 1
    taken := s.taken ++ [slot]
    writes := s.writes + 1
    written := s.written ++ [(s.cq.tail, slot)]
    cq := s.cq.moveTail 1
    irqStatus := s.irqStatus ||| irqCompletion }

/-- The loop of `linqu_ub_flush_cq`, which ends within `depth` rounds (`pollSlots_of_le`). -/
def pollSlots (pollCompletion : ℕ → UInt16 → ℤ × List UInt8) :
    ℕ → Endpoint → Except ℤ Unit × Endpoint
  | 0, s => (.ok (), s)
  | n + 1, s =>
    if (s.cq.tail + 1) % s.cq.depth = s.cq.head then (.ok (), s)
    else
      let (rc, slot) := pollCompletion s.polls s.endpointId
      if rc = 1 then (.ok (), { s with polls := s.polls + 1 })
      else if rc < 0 then (.error rc, { s with polls := s.polls + 1 }.setError .invalidDescriptor)
      else if bus.write s.writes (s.cq.slotAddress s.cq.tail) descBytes then
        pollSlots pollCompletion n (s.deliver slot)
      else
        -- the backend has given the completion out
        (.error (-1),
          { s with polls := s.polls + 1, taken := s.taken ++ [slot], writes := s.writes + 1 }.setError
            .range)

def flushCq (s : Endpoint) : ℤ × Endpoint :=
  match ops.pollCompletion with
  | none => (0, s)
  | some pollCompletion =>
    match pollSlots bus pollCompletion s.cq.depth s with
    | (.error rc, s) => (rc, s)
    | (.ok (), s) =>
      if (s.cq.tail + 1) % s.cq.depth = s.cq.head then
        (0, { s with irqStatus := s.irqStatus ||| irqCqOverflow })
      else (0, s)

def kick (s : Endpoint) (batch : ℕ) : ℤ × Endpoint :=
  match ops.submitSlot, ops.ringDoorbell with
  | some submitSlot, some ringDoorbell =>
    match submitSlots bus submitSlot batch s s.cmdq 0 with
    | (.error rc, s) => (rc, s)
    | (.ok (ring, submitted), s) =>
      let rc := ringDoorbell s.rings s.endpointId submitted
      let s := { s with rings := s.rings + 1 }
      if rc < 0 then (rc, s.setError .queueOverflow)
      else flushCq bus ops { s with cmdq := ring }
  | _, _ => (-1, s.setError .notImplemented)

/-- The registers of an endpoint; the guest may write to other offsets, too. -/
inductive Register
  | cmdqBaseLo | cmdqBaseHi | cmdqSize | cmdqHead | cmdqTail
  | cqBaseLo | cqBaseHi | cqSize | cqHead | cqTail
  | status | doorbell | lastError | irqStatus | irqAck | defaultSegment
  | other
deriving DecidableEq, Repr

/-- `batch` is a 32-bit number. -/
def batchOf (s : Endpoint) (value : UInt64) : ℕ :=
  (if value = 0 then s.cmdq.depth else value.toNat) % 2 ^ 32

def epRegWrite (s : Endpoint) (reg : Register) (value : UInt64) : Endpoint :=
  match reg with
  | .cmdqBaseLo => { s with cmdq.iova := withLow s.cmdq.iova value }
  | .cmdqBaseHi => { s with cmdq.iova := withHigh s.cmdq.iova value }
  | .cmdqTail =>
    if h : value.toNat < s.cmdq.depth then
      { s with cmdq := { s.cmdq with tail := value.toNat, tail_lt := h } }
    else s.setError .range
  | .cqBaseLo => { s with cq.iova := withLow s.cq.iova value }
  | .cqBaseHi => { s with cq.iova := withHigh s.cq.iova value }
  | .cqHead =>
    if h : value.toNat < s.cq.depth then
      let s := { s with cq := { s.cq with head := value.toNat, head_lt := h } }
      -- the complement of the 32-bit constant
      if s.cq.head = s.cq.tail then { s with irqStatus := s.irqStatus &&& (0xfffffffe : UInt64) }
      else s
    else s.setError .range
  | .doorbell => (s.kick bus ops (s.batchOf value)).2
  | .irqAck => { s with irqStatus := s.irqStatus &&& ~~~value }
  | .cmdqSize | .cqSize | .cmdqHead | .cqTail | .status | .lastError | .irqStatus
  | .defaultSegment => s.setError .invalidRegisterWrite
  | .other => s.setError .invalidOffset

def step (s : Endpoint) (write : Register × UInt64) : Option Endpoint :=
  some (s.epRegWrite bus ops write.1 write.2)

/-- The rings after a reset of the device. -/
def start (endpointId : UInt16) : Endpoint where
  endpointId
  cmdq := ⟨0, 32, 0, 0, by decide, by decide⟩
  cq := ⟨0, 64, 0, 0, by decide, by decide⟩
  lastError := .none
  irqStatus := 0
  reads := 0
  submits := 0
  rings := 0
  polls := 0
  writes := 0
  submitted := []
  taken := []
  written := []

/-! ### Submitting -/

section Submit

variable {bus} {ops}
variable {submitSlot : ℕ → UInt16 → List UInt8 → ℤ}

/-- The slot `i` places behind the head can be read, and the backend takes it. -/
def SlotAccepted (bus : DmaBus) (submitSlot : ℕ → UInt16 → List UInt8 → ℤ) (s : Endpoint)
    (ring : Ring) (i : ℕ) : Prop :=
  ∃ slot, bus.read (s.reads + i) (ring.slotAddress ((ring.head + i) % ring.depth)) descBytes =
      some slot ∧
    0 ≤ submitSlot (s.submits + i) s.endpointId slot

/-- The next `n` slots have gone to the backend. -/
def accept (s : Endpoint) (ring : Ring) (n : ℕ) : Endpoint :=
  { s with
    reads := s.reads + n
    submits := s.submits + n
    submitted := s.submitted ++ slots ring.depth ring.head n }

@[simp] theorem accept_zero (s : Endpoint) (ring : Ring) : s.accept ring 0 = s := by
  simp [accept]

theorem accept_one (s : Endpoint) (ring : Ring) : s.accept ring 1 =
    { s with
      reads := s.reads + 1
      submits := s.submits + 1
      submitted := s.submitted ++ [ring.head] } := by
  rw [accept, slots_cons ring.head_lt, slots_zero]

theorem accept_succ (s : Endpoint) (ring : Ring) (n : ℕ) :
    (s.accept ring 1).accept (ring.moveHead 1) n = s.accept ring (n + 1) := by
  simp only [accept, Ring.moveHead_depth, Ring.moveHead_head, List.append_assoc, ← slots_add,
    Nat.add_assoc, Nat.add_comm 1 n]

theorem slotAccepted_succ {s : Endpoint} {ring : Ring} {i : ℕ} :
    SlotAccepted bus submitSlot (s.accept ring 1) (ring.moveHead 1) i ↔
      SlotAccepted bus submitSlot s ring (i + 1) := by
  simp only [SlotAccepted, accept, Ring.moveHead_depth, Ring.moveHead_head, slot_succ,
    Nat.add_assoc, Nat.add_comm 1 i]
  rfl

/-- One round of the loop, when the backend takes the slot. -/
theorem submitSlots_succ {s : Endpoint} {ring : Ring} {n submitted : ℕ}
    (hne : ring.head ≠ ring.tail) (hslot : SlotAccepted bus submitSlot s ring 0) :
    submitSlots bus submitSlot (n + 1) s ring submitted =
      submitSlots bus submitSlot n (s.accept ring 1) (ring.moveHead 1) (submitted + 1) := by
  obtain ⟨slot, hread, hrc⟩ := hslot
  rw [Nat.add_zero, Nat.add_zero, Nat.mod_eq_of_lt ring.head_lt] at hread
  rw [accept_one, submitSlots, if_neg hne, hread]
  exact if_neg (Int.not_lt.2 hrc)

/-- The backend takes the whole batch. -/
theorem submitSlots_ok {s : Endpoint} {ring : Ring} {n submitted : ℕ}
    (hslots : ∀ i < min n ring.pending, SlotAccepted bus submitSlot s ring i) :
    submitSlots bus submitSlot n s ring submitted =
      (.ok (ring.moveHead (min n ring.pending), submitted + min n ring.pending),
        s.accept ring (min n ring.pending)) := by
  induction n generalizing s ring submitted with
  | zero => simp [submitSlots]
  | succ n ih =>
    by_cases hend : ring.head = ring.tail
    · rw [Ring.pending_eq_zero.2 hend]
      simp [submitSlots, hend]
    · have hmin : min (n + 1) ring.pending = min n (ring.moveHead 1).pending + 1 := by
        rw [Ring.pending_moveHead hend, Nat.add_min_add_right]
      rw [hmin] at hslots ⊢
      rw [submitSlots_succ hend (hslots 0 (Nat.succ_pos _)), ih fun i hi => ?_, accept_succ,
        Ring.moveHead_moveHead, Nat.add_comm 1, Nat.add_right_comm, Nat.add_assoc]
      exact slotAccepted_succ.2 (hslots (i + 1) (Nat.succ_lt_succ hi))

/-- The loop ends at the first slot that cannot be read or that the backend refuses. -/
theorem submitSlots_error {s : Endpoint} {ring : Ring} {n k : ℕ} (submitted : ℕ)
    (hk : k < min n ring.pending) (hslots : ∀ i < k, SlotAccepted bus submitSlot s ring i)
    (hbad : ¬ SlotAccepted bus submitSlot s ring k) :
    ∃ rc < 0, ∃ reads submits code, submitSlots bus submitSlot n s ring submitted =
      (.error rc, { s.accept ring k with reads := reads, submits := submits }.setError code) := by
  induction n generalizing s ring k submitted with
  | zero => omega
  | succ n ih =>
    have hne : ring.head ≠ ring.tail := fun hend => by
      rw [Ring.pending_eq_zero.2 hend] at hk
      omega
    rcases k with _ | k
    · rw [submitSlots, if_neg hne, accept_zero]
      cases hread : bus.read s.reads (ring.slotAddress ring.head) descBytes with
      | none => exact ⟨-1, by decide, s.reads + 1, s.submits, .range, rfl⟩
      | some slot =>
        have hrc : submitSlot s.submits s.endpointId slot < 0 := by
          by_contra hrc
          refine hbad ⟨slot, ?_, Int.not_lt.1 hrc⟩
          rwa [Nat.add_zero, Nat.add_zero, Nat.mod_eq_of_lt ring.head_lt]
        exact ⟨_, hrc, s.reads + 1, s.submits + 1, .invalidDescriptor, if_pos hrc⟩
    · rw [Ring.pending_moveHead hne] at hk
      rw [submitSlots_succ hne (hslots 0 (Nat.succ_pos k)), ← accept_succ s ring k]
      refine ih _ (by omega) (fun i hi => slotAccepted_succ.2 (hslots _ (Nat.succ_lt_succ hi))) ?_
      exact fun hgood => hbad (slotAccepted_succ.1 hgood)

end Submit

/-! ### Polling -/

section Poll

variable {bus} {ops}
variable {pollCompletion : ℕ → UInt16 → ℤ × List UInt8}

/-- The backend gives out a completion at its poll `i` from now. -/
def Given (pollCompletion : ℕ → UInt16 → ℤ × List UInt8) (s : Endpoint) (i : ℕ) : Prop :=
  (pollCompletion (s.polls + i) s.endpointId).1 ≠ 1 ∧
    0 ≤ (pollCompletion (s.polls + i) s.endpointId).1

/-- Guest memory takes an entry `i` places behind the tail. -/
def Stored (bus : DmaBus) (s : Endpoint) (i : ℕ) : Prop :=
  bus.write (s.writes + i) (s.cq.slotAddress ((s.cq.tail + i) % s.cq.depth)) descBytes = true

/-- As long as there is room, guest memory takes what the backend gives out. -/
def Writable (bus : DmaBus) (pollCompletion : ℕ → UInt16 → ℤ × List UInt8) (s : Endpoint) : Prop :=
  ∀ i < s.cq.free, (∀ j ≤ i, Given pollCompletion s j) → Stored bus s i

theorem given_succ {s : Endpoint} {slot : List UInt8} {i : ℕ} :
    Given pollCompletion (s.deliver slot) i ↔ Given pollCompletion s (i + 1) := by
  simp only [Given, deliver, Nat.add_assoc, Nat.add_comm 1 i]

theorem stored_succ {s : Endpoint} {slot : List UInt8} {i : ℕ} :
    Stored bus (s.deliver slot) i ↔ Stored bus s (i + 1) := by
  simp only [Stored, deliver, Ring.moveTail_depth, Ring.moveTail_tail, slot_succ, Nat.add_assoc,
    Nat.add_comm 1 i]
  rfl

theorem writable_deliver {s : Endpoint} {slot : List UInt8}
    (hroom : (s.cq.tail + 1) % s.cq.depth ≠ s.cq.head) (hgiven : Given pollCompletion s 0)
    (hstored : Stored bus s 0) :
    Writable bus pollCompletion (s.deliver slot) ↔ Writable bus pollCompletion s := by
  have hfree : s.cq.free = (s.deliver slot).cq.free + 1 := Ring.free_moveTail hroom
  constructor
  · intro h i hi hall
    rcases i with _ | i
    · exact hstored
    · refine stored_succ.1 (h i (by omega) fun j hj => given_succ.2 (hall _ (Nat.succ_le_succ hj)))
  · intro h i hi hall
    refine stored_succ.2 (h (i + 1) (by omega) fun j hj => ?_)
    rcases j with _ | j
    · exact hgiven
    · exact given_succ.1 (hall j (Nat.le_of_succ_le_succ hj))

/-- What a flush leaves alone, and what it adds: the completions `new` in the next slots, and the
completions `lost` that left the backend and were not written. -/
structure Flushed (s s' : Endpoint) (new : List (ℕ × List UInt8)) (lost : List (List UInt8)) :
    Prop where
  cmdq : s'.cmdq = s.cmdq
  submitted : s'.submitted = s.submitted
  cq : s'.cq = s.cq.moveTail new.length
  written : s'.written = s.written ++ new
  taken : s'.taken = s.taken ++ new.map Prod.snd ++ lost
  places : new.map Prod.fst = slots s.cq.depth s.cq.tail new.length
  room : new.length ≤ s.cq.free

/-- The loop ends before it writes. -/
theorem Flushed.stop {s s' : Endpoint} {lost : List (List UInt8)} (hcmdq : s'.cmdq = s.cmdq)
    (hsubmitted : s'.submitted = s.submitted) (hcq : s'.cq = s.cq)
    (hwritten : s'.written = s.written) (htaken : s'.taken = s.taken ++ lost) :
    Flushed s s' [] lost :=
  ⟨hcmdq, hsubmitted, by simpa using hcq, by simpa using hwritten, by simpa using htaken, rfl,
    Nat.zero_le _⟩

theorem Flushed.cons {s s' : Endpoint} {slot : List UInt8} {new : List (ℕ × List UInt8)}
    {lost : List (List UInt8)} (hroom : (s.cq.tail + 1) % s.cq.depth ≠ s.cq.head)
    (h : Flushed (s.deliver slot) s' new lost) : Flushed s s' ((s.cq.tail, slot) :: new) lost where
  cmdq := h.cmdq
  submitted := h.submitted
  cq := by
    rw [h.cq, List.length_cons, Nat.add_comm]
    exact Ring.moveTail_moveTail _ _ _
  written := by
    rw [h.written, List.append_cons]
    rfl
  taken := by
    rw [h.taken, List.map_cons, List.append_cons]
    rfl
  places := by
    rw [List.map_cons, List.length_cons, slots_cons s.cq.tail_lt, h.places]
    rfl
  room := by
    have hle := h.room
    have hfree : s.cq.free = (s.deliver slot).cq.free + 1 := Ring.free_moveTail hroom
    rw [List.length_cons]
    omega

/-- **What the loop of a flush does.**  It loses a completion exactly if guest memory refuses one
that the backend gave out. -/
theorem pollSlots_cases (bus : DmaBus) (pollCompletion : ℕ → UInt16 → ℤ × List UInt8)
    {s : Endpoint} {n : ℕ} (hn : s.cq.free ≤ n) :
    ∃ res s' new lost, pollSlots bus pollCompletion n s = (res, s') ∧ Flushed s s' new lost ∧
      (lost = [] ↔ Writable bus pollCompletion s) := by
  induction n generalizing s with
  | zero =>
    refine ⟨_, _, [], [], rfl, .stop rfl rfl rfl rfl (List.append_nil _).symm,
      iff_of_true rfl fun i hi => ?_⟩
    omega
  | succ n ih =>
    rw [pollSlots]
    by_cases hfull : (s.cq.tail + 1) % s.cq.depth = s.cq.head
    · rw [if_pos hfull]
      refine ⟨_, _, [], [], rfl, .stop rfl rfl rfl rfl (List.append_nil _).symm,
        iff_of_true rfl fun i hi => ?_⟩
      rw [Ring.free_eq_zero.2 hfull] at hi
      omega
    rw [if_neg hfull]
    have hfree := Ring.free_moveTail hfull
    dsimp only
    split_ifs with hnone hfailed hdone
    · refine ⟨_, _, [], [], rfl, .stop rfl rfl rfl rfl (List.append_nil _).symm,
        iff_of_true rfl fun i _ hgiven => ?_⟩
      exact absurd hnone (hgiven 0 (Nat.zero_le i)).1
    · refine ⟨_, _, [], [], rfl, .stop rfl rfl rfl rfl (List.append_nil _).symm,
        iff_of_true rfl fun i _ hgiven => ?_⟩
      exact absurd hfailed (Int.not_lt.2 (hgiven 0 (Nat.zero_le i)).2)
    · obtain ⟨res, s', new, lost, heq, hflushed, hlost⟩ :=
        ih (s := s.deliver (pollCompletion s.polls s.endpointId).2) (by
          show (s.cq.moveTail 1).free ≤ n
          omega)
      have hstored : Stored bus s 0 := by
        rw [Stored, Nat.add_zero, Nat.add_zero, Nat.mod_eq_of_lt s.cq.tail_lt]
        exact hdone
      exact ⟨res, s', _, lost, heq, hflushed.cons hfull,
        hlost.trans (writable_deliver hfull ⟨hnone, Int.not_lt.1 hfailed⟩ hstored)⟩
    · refine ⟨_, _, [], [(pollCompletion s.polls s.endpointId).2], rfl,
        .stop rfl rfl rfl rfl rfl, iff_of_false (List.cons_ne_nil _ _) fun hwritable => hdone ?_⟩
      have hstored := hwritable 0 (by omega) fun j hj => by
        rw [Nat.le_zero.1 hj]
        exact ⟨hnone, Int.not_lt.1 hfailed⟩
      rwa [Stored, Nat.add_zero, Nat.add_zero, Nat.mod_eq_of_lt s.cq.tail_lt] at hstored

/-- Rounds beyond the free slots change nothing: the bound on the loop is never reached. -/
theorem pollSlots_of_le {s : Endpoint} {m n : ℕ} (hm : s.cq.free ≤ m) (hmn : m ≤ n) :
    pollSlots bus pollCompletion n s = pollSlots bus pollCompletion m s := by
  induction m generalizing n s with
  | zero =>
    rcases n with _ | n
    · rfl
    · exact if_pos (Ring.free_eq_zero.1 (Nat.le_zero.1 hm))
  | succ m ih =>
    obtain ⟨n, rfl⟩ : ∃ n', n = n' + 1 := ⟨n - 1, by omega⟩
    rw [pollSlots, pollSlots]
    by_cases hfull : (s.cq.tail + 1) % s.cq.depth = s.cq.head
    · rw [if_pos hfull, if_pos hfull]
    · rw [if_neg hfull, if_neg hfull]
      have hfree := Ring.free_moveTail hfull
      dsimp only
      have hfree' : (s.deliver (pollCompletion s.polls s.endpointId).2).cq.free ≤ m := by
        show (s.cq.moveTail 1).free ≤ m
        omega
      rw [ih hfree' (Nat.le_of_succ_le_succ hmn)]

theorem flushCq_cases (bus : DmaBus) (ops : LinquUbBackendOps) (s : Endpoint) :
    ∃ rc s' new lost, flushCq bus ops s = (rc, s') ∧ Flushed s s' new lost ∧
      (lost = [] ↔ ∀ pollCompletion ∈ ops.pollCompletion, Writable bus pollCompletion s) := by
  rw [flushCq]
  cases hpoll : ops.pollCompletion with
  | none =>
    exact ⟨0, s, [], [], rfl, .stop rfl rfl rfl rfl (List.append_nil _).symm, by simp⟩
  | some pollCompletion =>
    obtain ⟨res, s', new, lost, heq, hflushed, hlost⟩ :=
      pollSlots_cases bus pollCompletion s.cq.free_le
    simp only [heq, Option.mem_def, Option.some.injEq, forall_eq']
    rcases res with rc | ⟨⟩
    · exact ⟨rc, s', new, lost, rfl, hflushed, hlost⟩
    · by_cases hfull : (s'.cq.tail + 1) % s'.cq.depth = s'.cq.head
      · refine ⟨0, _, new, lost, if_pos hfull, ?_, hlost⟩
        exact ⟨hflushed.cmdq, hflushed.submitted, hflushed.cq, hflushed.written, hflushed.taken,
          hflushed.places, hflushed.room⟩
      · exact ⟨0, s', new, lost, if_neg hfull, hflushed, hlost⟩

end Poll

/-! ### A doorbell -/

section Kick

variable {bus} {ops}

/-- The slots that a batch takes: what is published, up to the bound of the guest. -/
def batchLength (s : Endpoint) (batch : ℕ) : ℕ := min batch s.cmdq.pending

/-- The backend takes every slot of the batch, and the doorbell. -/
def CommandsPass (bus : DmaBus) (ops : LinquUbBackendOps) (s : Endpoint) (batch : ℕ) : Prop :=
  ∃ submitSlot ∈ ops.submitSlot, ∃ ringDoorbell ∈ ops.ringDoorbell,
    (∀ i < s.batchLength batch, SlotAccepted bus submitSlot s s.cmdq i) ∧
      0 ≤ ringDoorbell s.rings s.endpointId (s.batchLength batch)

/-- The backend is not asked for a slot, or does not get the first one. -/
def CommandsStop (bus : DmaBus) (ops : LinquUbBackendOps) (s : Endpoint) (batch : ℕ) : Prop :=
  ∀ submitSlot ∈ ops.submitSlot, ops.ringDoorbell.isSome = true → 0 < s.batchLength batch →
    ¬ SlotAccepted bus submitSlot s s.cmdq 0

/-- A doorbell that fails before the completion ring is looked at: `n` slots have gone to the
backend, and the head has not moved. -/
structure Refused (s s' : Endpoint) (n : ℕ) : Prop where
  cmdq : s'.cmdq = s.cmdq
  submitted : s'.submitted = s.submitted ++ slots s.cmdq.depth s.cmdq.head n
  cq : s'.cq = s.cq
  written : s'.written = s.written
  taken : s'.taken = s.taken

/-- **What a doorbell does.** -/
theorem kick_cases (bus : DmaBus) (ops : LinquUbBackendOps) (s : Endpoint) (batch : ℕ) :
    CommandsPass bus ops s batch ∧ kick bus ops s batch = flushCq bus ops
        { s.accept s.cmdq (s.batchLength batch) with
          rings := s.rings + 1
          cmdq := s.cmdq.moveHead (s.batchLength batch) } ∨
      ¬ CommandsPass bus ops s batch ∧ ∃ rc s' n, kick bus ops s batch = (rc, s') ∧ rc < 0 ∧
        Refused s s' n ∧ n ≤ s.batchLength batch ∧ (n = 0 ↔ CommandsStop bus ops s batch) := by
  have hnothing : ∀ code, Refused s (s.setError code) 0 := fun _ =>
    ⟨rfl, by simp [setError], rfl, rfl, rfl⟩
  cases hsubmit : ops.submitSlot with
  | none =>
    refine .inr ⟨?_, -1, s.setError .notImplemented, 0, by simp [kick, hsubmit], by decide,
      hnothing _, Nat.zero_le _, by simp [CommandsStop, hsubmit]⟩
    simp [CommandsPass, hsubmit]
  | some submitSlot =>
  cases hring : ops.ringDoorbell with
  | none =>
    refine .inr ⟨?_, -1, s.setError .notImplemented, 0, by simp [kick, hring], by decide,
      hnothing _, Nat.zero_le _, by simp [CommandsStop, hring]⟩
    simp [CommandsPass, hring]
  | some ringDoorbell =>
  have hpass : CommandsPass bus ops s batch ↔
      (∀ i < s.batchLength batch, SlotAccepted bus submitSlot s s.cmdq i) ∧
        0 ≤ ringDoorbell s.rings s.endpointId (s.batchLength batch) := by
    simp [CommandsPass, hsubmit, hring]
  have hstop : CommandsStop bus ops s batch ↔
      (0 < s.batchLength batch → ¬ SlotAccepted bus submitSlot s s.cmdq 0) := by
    simp [CommandsStop, hsubmit, hring]
  rw [hpass, hstop, kick, hsubmit, hring]
  dsimp only
  by_cases hslots : ∀ i < s.batchLength batch, SlotAccepted bus submitSlot s s.cmdq i
  · rw [submitSlots_ok hslots, Nat.zero_add]
    by_cases hrc : ringDoorbell s.rings s.endpointId (s.batchLength batch) < 0
    · refine .inr ⟨fun h => absurd hrc (Int.not_lt.2 h.2), _, _, s.batchLength batch, if_pos hrc,
        hrc, ⟨rfl, rfl, rfl, rfl, rfl⟩, le_rfl, ?_⟩
      constructor
      · intro hzero hpos
        omega
      · intro h
        by_contra hpos
        exact h (Nat.pos_of_ne_zero hpos) (hslots 0 (Nat.pos_of_ne_zero hpos))
    · exact .inl ⟨⟨hslots, Int.not_lt.1 hrc⟩, if_neg hrc⟩
  · -- the first slot that does not pass
    obtain ⟨n, hn, hfirst⟩ : ∃ n, (n < s.batchLength batch ∧ ¬ SlotAccepted bus submitSlot s s.cmdq n) ∧
        ∀ i < n, SlotAccepted bus submitSlot s s.cmdq i := by
      push Not at hslots
      classical
      refine ⟨Nat.find hslots, Nat.find_spec hslots, fun i hi => ?_⟩
      by_contra hbad
      exact Nat.find_min hslots hi ⟨hi.trans (Nat.find_spec hslots).1, hbad⟩
    obtain ⟨rc, hrc, reads, submits, code, heq⟩ :=
      submitSlots_error 0 hn.1 hfirst hn.2
    rw [heq]
    refine .inr ⟨fun h => hslots h.1, rc, _, n, rfl, hrc, ⟨rfl, rfl, rfl, rfl, rfl⟩, hn.1.le, ?_⟩
    constructor
    · rintro rfl -
      exact hn.2
    · intro h
      by_contra hpos
      exact h (by omega) (hfirst 0 (Nat.pos_of_ne_zero hpos))

/-- A register write that is not a doorbell moves neither the head of the command ring nor the tail
of the completion ring. -/
structure Quiet (s s' : Endpoint) : Prop where
  cmdqDepth : s'.cmdq.depth = s.cmdq.depth
  cmdqHead : s'.cmdq.head = s.cmdq.head
  submitted : s'.submitted = s.submitted
  cqDepth : s'.cq.depth = s.cq.depth
  cqTail : s'.cq.tail = s.cq.tail
  written : s'.written = s.written
  taken : s'.taken = s.taken

theorem epRegWrite_quiet (bus : DmaBus) (ops : LinquUbBackendOps) (s : Endpoint) {reg : Register}
    (hreg : reg ≠ .doorbell) (value : UInt64) :
    Quiet s (s.epRegWrite bus ops reg value) := by
  cases reg <;> simp only [epRegWrite] <;> try split_ifs
  case doorbell => exact absurd rfl hreg
  all_goals exact ⟨rfl, rfl, rfl, rfl, rfl, rfl, rfl⟩

end Kick

end Endpoint

end Legacy

end LinquUb
