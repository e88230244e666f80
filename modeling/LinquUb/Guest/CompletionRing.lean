import LinquUb.LTS.Run
import Mathlib.Algebra.Group.Nat.Defs
import Mathlib.Data.List.Basic
import Mathlib.Logic.Function.Basic

/-!
# The completion ring of the RDMA demo

The device writes completions into a ring of 64 entries, and `rdma_get_cqe` of `ub_rdma_demo.c`
tells new entries from old ones by an owner bit, which the device flips in every round.

* `RdmaStep` : one step of the device or of the guest, on sequentially consistent memory;
* `RdmaState.Inv` : the entries ahead of the consumer are written, those ahead of the producer carry
  the owner bit of the round before;
* `RdmaState.cqes_in_order` : **the guest gets the completions in order, each once**.

The completions are an arbitrary sequence `data`.  How many have been written and how many have been
consumed is counted in `ℕ`; the code itself only sees `cq_ci`, which wraps around, and the doorbell.
-/

namespace LinquUb

variable {β : Type}

/-- A completion entry: the owner bit and everything else. -/
structure Cqe (β : Type) where
  owner : UInt32
  body : β

def rdmaQDepth : ℕ := 64

def rdmaCqShift : UInt32 := 6

def udmaJfcDbValidOwnerM : UInt32 := 1

def udmaJfcDbCiIdxM : UInt32 := 0x003fffff

def rdmaCqValidOwner (ci : UInt32) : UInt32 := (ci >>> rdmaCqShift) &&& udmaJfcDbValidOwnerM

/-- `ci & (RDMA_Q_DEPTH - 1)`. -/
def cqSlot (ci : UInt32) : ℕ := (ci &&& .ofNat (rdmaQDepth - 1)).toNat

/-- The slot that the pointer points to; `none` is a null pointer. -/
def rdmaGetCqe (ring : ℕ → Cqe β) (ci : UInt32) : Option ℕ :=
  if (ring (cqSlot ci)).owner ^^^ rdmaCqValidOwner ci = 0 then none else some (cqSlot ci)

/-- The owner bit with which the device writes completion `k`. -/
def ownerBit (k : ℕ) : UInt32 := .ofNat (1 - k / rdmaQDepth % 2)

/-- Where the guest is in `rdma_poll_one_cqe`. -/
inductive RdmaPc
  | poll
  | copy (slot : ℕ)
  /-- In `rdma_consume_cqe`, before `cq_ci++`. -/
  | consume
  /-- Before the write to the doorbell. -/
  | ring
deriving DecidableEq, Repr

structure RdmaState (β : Type) where
  ring : ℕ → Cqe β
  /-- The number of completions that the device has written. -/
  written : ℕ
  /-- The next completion is in its slot, but for the owner bit. -/
  filling : Bool
  cqCi : UInt32
  db : UInt32
  pc : RdmaPc
  /-- How often `cq_ci` was incremented. -/
  consumed : ℕ
  /-- The completions that were copied out. -/
  returned : List β

/-- The start: zeroed memory. -/
def RdmaState.start (zero : β) : RdmaState β :=
  { ring := fun _ => ⟨0, zero⟩
    written := 0, filling := false, cqCi := 0, db := 0, pc := .poll, consumed := 0, returned := [] }

/-- One step.  The device never gets more than 64 completions ahead of `cq_ci`. -/
inductive RdmaStep (data : ℕ → β) (s : RdmaState β) : RdmaState β → Prop
  | fill (hfilling : s.filling = false) (hroom : s.written < s.consumed + rdmaQDepth) :
    RdmaStep data s { s with
      ring := Function.update s.ring (s.written % rdmaQDepth)
        { s.ring (s.written % rdmaQDepth) with body := data s.written }
      filling := true }
  | publish (hfilling : s.filling = true) :
    RdmaStep data s { s with
      ring := Function.update s.ring (s.written % rdmaQDepth)
        { s.ring (s.written % rdmaQDepth) with owner := ownerBit s.written }
      written := s.written + 1
      filling := false }
  | empty (hpc : s.pc = .poll) (hget : rdmaGetCqe s.ring s.cqCi = none) : RdmaStep data s s
  | get {slot : ℕ} (hpc : s.pc = .poll) (hget : rdmaGetCqe s.ring s.cqCi = some slot) :
    RdmaStep data s { s with pc := .copy slot }
  | copy {slot : ℕ} (hpc : s.pc = .copy slot) :
    RdmaStep data s { s with returned := s.returned ++ [(s.ring slot).body], pc := .consume }
  | consume (hpc : s.pc = .consume) :
    RdmaStep data s { s with cqCi := s.cqCi + 1, consumed := s.consumed + 1, pc := .ring }
  | ring (hpc : s.pc = .ring) :
    RdmaStep data s { s with db := s.cqCi &&& udmaJfcDbCiIdxM, pc := .poll }

/-! ### Counters that wrap around -/

theorem cqSlot_ofNat (k : ℕ) : cqSlot (.ofNat k) = k % 64 := by
  have hmask : (UInt32.ofNat (rdmaQDepth - 1)).toNat = 2 ^ 6 - 1 := rfl
  rw [cqSlot, UInt32.toNat_and, UInt32.toNat_ofNat', hmask, Nat.and_two_pow_sub_one_eq_mod]
  omega

theorem rdmaCqValidOwner_ofNat (k : ℕ) : rdmaCqValidOwner (.ofNat k) = .ofNat (k / 64 % 2) := by
  have hshift : (UInt32.ofNat k >>> rdmaCqShift).toNat = k % 2 ^ 32 / 64 := by
    rw [UInt32.toNat_shiftRight, UInt32.toNat_ofNat', Nat.shiftRight_eq_div_pow]
    rfl
  have hone : udmaJfcDbValidOwnerM.toNat = 1 := rfl
  rw [rdmaCqValidOwner, ← UInt32.toNat_inj, UInt32.toNat_and, hshift, hone, Nat.and_one_is_mod,
    UInt32.toNat_ofNat']
  omega

theorem doorbell_ofNat (k : ℕ) : (UInt32.ofNat k &&& udmaJfcDbCiIdxM).toNat = k % 2 ^ 22 := by
  have hmask : udmaJfcDbCiIdxM.toNat = 2 ^ 22 - 1 := rfl
  rw [UInt32.toNat_and, UInt32.toNat_ofNat', hmask, Nat.and_two_pow_sub_one_eq_mod]
  omega

/-- The bit of a round is the complement of the bit that the consumer compares with. -/
theorem ownerBit_ne (k : ℕ) : ownerBit k ≠ .ofNat (k / 64 % 2) := by
  unfold ownerBit rdmaQDepth
  rcases Nat.mod_two_eq_zero_or_one (k / 64) with h | h <;> rw [h] <;> decide

theorem ownerBit_next (k : ℕ) : ownerBit k = .ofNat ((k + 64) / 64 % 2) := by
  unfold ownerBit rdmaQDepth
  congr 1
  omega

theorem rdmaGetCqe_eq_none {ring : ℕ → Cqe β} {k : ℕ} :
    rdmaGetCqe ring (.ofNat k) = none ↔ (ring (k % 64)).owner = .ofNat (k / 64 % 2) := by
  rw [rdmaGetCqe, cqSlot_ofNat, rdmaCqValidOwner_ofNat]
  simp

theorem rdmaGetCqe_eq_some {ring : ℕ → Cqe β} {k slot : ℕ}
    (h : rdmaGetCqe ring (.ofNat k) = some slot) :
    slot = k % 64 ∧ (ring (k % 64)).owner ≠ .ofNat (k / 64 % 2) := by
  rw [rdmaGetCqe, cqSlot_ofNat, rdmaCqValidOwner_ofNat] at h
  split_ifs at h with howner
  cases h
  exact ⟨rfl, fun heq => howner (by rw [heq, UInt32.xor_self])⟩

namespace RdmaState

/-- What the position of the guest says about its counters. -/
def PcInv (s : RdmaState β) : Prop :=
  match s.pc with
  | .poll => s.returned.length = s.consumed
  | .copy slot => s.returned.length = s.consumed ∧ s.consumed < s.written ∧ slot = s.consumed % 64
  | .consume => s.returned.length = s.consumed + 1 ∧ s.consumed < s.written
  | .ring => s.returned.length = s.consumed ∧ 0 < s.consumed

structure Inv (data : ℕ → β) (s : RdmaState β) : Prop where
  behind : s.consumed ≤ s.written
  ahead : s.written ≤ s.consumed + 64
  room : s.filling = true → s.written < s.consumed + 64
  ci : s.cqCi = .ofNat s.consumed
  /-- What the guest has not consumed yet is in the ring. -/
  fresh : ∀ k, s.consumed ≤ k → k < s.written → s.ring (k % 64) = ⟨ownerBit k, data k⟩
  /-- The other slots look old to the guest. -/
  stale : ∀ k, s.written ≤ k → k < s.consumed + 64 →
    (s.ring (k % 64)).owner = .ofNat (k / 64 % 2)
  filled : s.filling = true → (s.ring (s.written % 64)).body = data s.written
  pc : s.PcInv
  returned : s.returned = (List.range s.returned.length).map data
  db : s.db.toNat = (if s.pc = .ring then s.consumed - 1 else s.consumed) % 2 ^ 22

variable {data : ℕ → β} {s s' : RdmaState β}

theorem start_inv (data : ℕ → β) (zero : β) : Inv data (start zero) where
  behind := Nat.le_refl 0
  ahead := Nat.zero_le _
  room h := by cases h
  ci := rfl
  fresh k _ hk := absurd hk (Nat.not_lt_zero k)
  stale k _ hk := by
    have hround : k / 64 = 0 := Nat.div_eq_of_lt (by simpa [start] using hk)
    rw [hround]
    rfl
  filled h := by cases h
  pc := rfl
  returned := rfl
  db := rfl

theorem Inv.fill (h : Inv data s) (hroom : s.written < s.consumed + 64) :
    Inv data { s with
      ring := Function.update s.ring (s.written % 64)
        { s.ring (s.written % 64) with body := data s.written }
      filling := true } where
  behind := h.behind
  ahead := h.ahead
  room _ := hroom
  ci := h.ci
  fresh k hk hlt := by
    -- the slot of the next completion is not one of those ahead of the guest
    have hslot : k % 64 ≠ s.written % 64 := by
      have hk : s.consumed ≤ k := hk
      have hlt : k < s.written := hlt
      omega
    show Function.update _ _ _ _ = _
    rw [Function.update_of_ne hslot]
    exact h.fresh k hk hlt
  stale k hk hlt := by
    by_cases hslot : k % 64 = s.written % 64
    · have howner := h.stale k hk hlt
      rw [hslot] at howner ⊢
      show (Function.update s.ring (s.written % 64) _ (s.written % 64)).owner = _
      rw [Function.update_self]
      exact howner
    · show (Function.update s.ring (s.written % 64) _ (k % 64)).owner = _
      rw [Function.update_of_ne hslot]
      exact h.stale k hk hlt
  filled _ := by
    show (Function.update s.ring (s.written % 64) _ (s.written % 64)).body = _
    rw [Function.update_self]
  pc := h.pc
  returned := h.returned
  db := h.db

theorem Inv.publish (h : Inv data s) (hfilling : s.filling = true) :
    Inv data { s with
      ring := Function.update s.ring (s.written % 64)
        { s.ring (s.written % 64) with owner := ownerBit s.written }
      written := s.written + 1
      filling := false } where
  behind := Nat.le_succ_of_le h.behind
  ahead := h.room hfilling
  room h := by cases h
  ci := h.ci
  fresh k hk hlt := by
    have hk : s.consumed ≤ k := hk
    have hroom := h.room hfilling
    rcases Nat.lt_succ_iff_lt_or_eq.1 hlt with hlt | rfl
    · have hslot : k % 64 ≠ s.written % 64 := by omega
      show Function.update _ _ _ _ = _
      rw [Function.update_of_ne hslot]
      exact h.fresh k hk hlt
    · show Function.update _ _ _ _ = _
      rw [Function.update_self, h.filled hfilling]
  stale k hk hlt := by
    have hk : s.written + 1 ≤ k := hk
    have hlt : k < s.consumed + 64 := hlt
    have hbehind := h.behind
    have hslot : k % 64 ≠ s.written % 64 := by omega
    show (Function.update s.ring (s.written % 64) _ (k % 64)).owner = _
    rw [Function.update_of_ne hslot]
    exact h.stale k (by omega) hlt
  filled h := by cases h
  pc := by
    have hpc := h.pc
    unfold PcInv at hpc ⊢
    cases hs : s.pc <;> simp only [hs] at hpc ⊢ <;> omega
  returned := h.returned
  db := h.db

/-- What the guest is about to copy. -/
theorem Inv.get (h : Inv data s) {slot : ℕ} (hpc : s.pc = .poll)
    (hget : rdmaGetCqe s.ring s.cqCi = some slot) : Inv data { s with pc := .copy slot } := by
  rw [h.ci] at hget
  obtain ⟨hslot, howner⟩ := rdmaGetCqe_eq_some hget
  have hsome : s.consumed < s.written := by
    by_contra hnone
    exact howner (h.stale s.consumed (by omega) (by omega))
  have hreturned : s.returned.length = s.consumed := by
    have := h.pc
    rwa [PcInv, hpc] at this
  have hdb := h.db
  rw [hpc] at hdb
  exact ⟨h.behind, h.ahead, h.room, h.ci, h.fresh, h.stale, h.filled, ⟨hreturned, hsome, hslot⟩,
    h.returned, hdb⟩

theorem Inv.copy (h : Inv data s) {slot : ℕ} (hpc : s.pc = .copy slot) :
    (s.ring slot).body = data s.returned.length ∧
      Inv data { s with returned := s.returned ++ [(s.ring slot).body], pc := .consume } := by
  have hcopy := h.pc
  rw [PcInv, hpc] at hcopy
  obtain ⟨hlength, hsome, rfl⟩ := hcopy
  have hbody : (s.ring (s.consumed % 64)).body = data s.returned.length := by
    rw [h.fresh s.consumed (Nat.le_refl _) hsome, hlength]
  have hdb := h.db
  rw [hpc] at hdb
  refine ⟨hbody, h.behind, h.ahead, h.room, h.ci, h.fresh, h.stale, h.filled, ⟨?_, hsome⟩, ?_, hdb⟩
  · rw [List.length_append, List.length_singleton, hlength]
  · show s.returned ++ _ = _
    rw [List.length_append, List.length_singleton, List.range_succ, List.map_append, ← h.returned,
      hbody]
    rfl

theorem Inv.consume (h : Inv data s) (hpc : s.pc = .consume) :
    Inv data { s with cqCi := s.cqCi + 1, consumed := s.consumed + 1, pc := .ring } := by
  have hconsume := h.pc
  rw [PcInv, hpc] at hconsume
  obtain ⟨hlength, hsome⟩ := hconsume
  have hahead := h.ahead
  have hdb := h.db
  rw [hpc] at hdb
  refine ⟨hsome, ?_, fun hfilling => ?_, ?_, fun k hk => h.fresh k (Nat.le_of_succ_le hk),
    fun k hk hlt => ?_, h.filled, ⟨hlength, Nat.succ_pos _⟩, h.returned, hdb⟩
  · show s.written ≤ s.consumed + 1 + 64
    omega
  · have := h.room hfilling
    show s.written < s.consumed + 1 + 64
    omega
  · show s.cqCi + 1 = _
    rw [h.ci]
    exact (UInt32.ofNat_add _ _).symm
  · -- the slot that was consumed is free for the next round
    rcases Nat.lt_or_ge k (s.consumed + 64) with hlt' | hge
    · exact h.stale k hk hlt'
    · have hk : k = s.consumed + 64 := by
        have hlt : k < s.consumed + 1 + 64 := hlt
        omega
      subst hk
      show (s.ring _).owner = _
      rw [Nat.add_mod_right, h.fresh s.consumed (Nat.le_refl _) hsome]
      exact ownerBit_next s.consumed

theorem Inv.ring (h : Inv data s) (hpc : s.pc = .ring) :
    Inv data { s with db := s.cqCi &&& udmaJfcDbCiIdxM, pc := .poll } := by
  have hring := h.pc
  rw [PcInv, hpc] at hring
  refine ⟨h.behind, h.ahead, h.room, h.ci, h.fresh, h.stale, h.filled, hring.1, h.returned, ?_⟩
  show (s.cqCi &&& udmaJfcDbCiIdxM).toNat = _
  rw [h.ci, doorbell_ofNat]
  rfl

/-- **Every step of the device and of the guest keeps the invariant.** -/
theorem Inv.step (h : Inv data s) (hs : RdmaStep data s s') : Inv data s' := by
  cases hs with
  | fill _ hroom => exact h.fill hroom
  | publish hfilling => exact h.publish hfilling
  | empty => exact h
  | get hpc hget => exact h.get hpc hget
  | copy hpc => exact (h.copy hpc).2
  | consume hpc => exact h.consume hpc
  | ring hpc => exact h.ring hpc

/-- **The guest gets the completions in order.**  In every state that device and guest can reach,
the guest has copied out the completions `0, 1, …` and nothing else; a poll finds nothing exactly if
everything that was written has been copied, and otherwise the slot of the next completion; and the
doorbell shows the number of consumed completions modulo `2^22`. -/
theorem cqes_in_order (data : ℕ → β) (zero : β) {s : RdmaState β}
    (hs : Relation.ReflTransGen (RdmaStep data) (start zero) s) :
    s.returned = (List.range s.returned.length).map data ∧ s.returned.length ≤ s.written ∧
      (s.pc = .poll → (rdmaGetCqe s.ring s.cqCi = none ↔ s.returned.length = s.written)) ∧
      (s.pc = .poll → ∀ slot, rdmaGetCqe s.ring s.cqCi = some slot →
        (s.ring slot).body = data s.returned.length) ∧
      (∀ slot, s.pc = .copy slot → (s.ring slot).body = data s.returned.length) ∧
      s.db.toNat = (if s.pc = .ring then s.consumed - 1 else s.consumed) % 2 ^ 22 := by
  have h : Inv data s := LTS.steps_invariant (fun _ _ h hs => h.step hs) (start_inv data zero) hs
  have hpc := h.pc
  refine ⟨h.returned, ?_, fun hpoll => ?_, fun hpoll slot hget => ?_, fun slot hcopy =>
    (h.copy hcopy).1, h.db⟩
  · have hbehind := h.behind
    unfold PcInv at hpc
    cases hs : s.pc <;> simp only [hs] at hpc <;> omega
  · rw [PcInv, hpoll] at hpc
    rw [h.ci, rdmaGetCqe_eq_none, hpc]
    constructor
    · intro hstale
      by_contra hne
      have hbehind := h.behind
      rw [h.fresh s.consumed (Nat.le_refl _) (by omega)] at hstale
      exact ownerBit_ne s.consumed hstale
    · intro hall
      exact h.stale s.consumed (by omega) (by omega)
  · exact ((h.get hpoll hget).copy rfl).1

/-- A poll that finds nothing, and then two completions, the second of which the device writes while
the guest gets the first. -/
theorem cqes_in_order_two :
    ∃ s, Relation.ReflTransGen (RdmaStep fun k => k + 7) (start 0) s ∧ s.returned = [7, 8] ∧
      s.returned = ((List.range s.returned.length).map fun k => k + 7) ∧
      rdmaGetCqe s.ring s.cqCi = none ∧ s.db.toNat = 2 := by
  have hfirst : Relation.ReflTransGen (RdmaStep fun k => k + 7) (start 0) _ :=
    (((((Relation.ReflTransGen.single (.empty rfl (by decide))).tail (.fill rfl (by decide))).tail
      (.publish rfl)).tail (@RdmaStep.get _ _ _ 0 rfl (by decide))).tail (.fill rfl (by decide))).tail
      (.copy rfl)
  have hs : Relation.ReflTransGen (RdmaStep fun k => k + 7) (start 0) _ :=
    ((((((hfirst.tail (.publish rfl)).tail (.consume rfl)).tail (.ring rfl)).tail
      (@RdmaStep.get _ _ _ 1 rfl (by decide))).tail (.copy rfl)).tail (.consume rfl)).tail (.ring rfl)
  obtain ⟨hreturned, -, hnone, -, -, hdb⟩ := cqes_in_order (fun k => k + 7) 0 hs
  exact ⟨_, hs, rfl, hreturned, (hnone rfl).2 rfl, hdb⟩

end RdmaState

end LinquUb
