import LinquUb.Legacy.Batches

/-!
# The register window of the message queue

The guest reads and writes the registers of the message queue with accesses of 4 or 8 bytes.  The
registers are 4 bytes apart, but the device takes every access for one to the register of 8 bytes
that starts at the address rounded down, so that it never gets to half of the registers.

* `MessageQueue.mmioRead`, `MessageQueue.mmioWrite` : the two accesses;
* `MessageQueue.msgqRegWrite_stores` : the registers themselves keep what is written to them;
* `MessageQueue.mmio_restores_iff` : **an access of 4 bytes does so exactly if the register starts
  at a multiple of 8, or the value is zero**.
-/

namespace LinquUb

namespace Legacy

/-! ### Halves of a register -/

def accessExtract (fullValue reg : UInt64) (size : ℕ) : UInt64 :=
  if size = 8 then fullValue
  else if size = 4 then
    if reg &&& (0x4 : UInt64) ≠ 0 then (fullValue >>> (32 : UInt64)) &&& (0xffffffff : UInt64)
    else fullValue &&& (0xffffffff : UInt64)
  else 0

def accessMerge (currentValue reg value : UInt64) (size : ℕ) : UInt64 :=
  if size = 8 then value
  else if size = 4 then
    if reg &&& (0x4 : UInt64) ≠ 0 then withHigh currentValue (value &&& (0xffffffff : UInt64))
    else withLow currentValue value
  else currentValue

theorem and_mask_eq (x : UInt64) : x &&& (0xffffffff : UInt64) = (lowHalf x).toUInt64 := by
  rw [← UInt64.toNat_inj]
  simp only [lowHalf, UInt64.toNat_and, UInt32.toNat_toUInt64, UInt64.toNat_toUInt32]
  exact Nat.and_two_pow_sub_one_eq_mod x.toNat 32

theorem shiftRight_eq (x : UInt64) : x >>> (32 : UInt64) = (highHalf x).toUInt64 := by
  have hlt := x.toNat_lt
  rw [← UInt64.toNat_inj]
  simp only [highHalf, UInt32.toNat_toUInt64, UInt64.toNat_toUInt32, UInt64.toNat_shiftRight]
  change x.toNat >>> 32 = (x.toNat >>> 32) % 2 ^ 32
  rw [Nat.shiftRight_eq_div_pow]
  omega

@[simp] theorem lowHalf_toUInt64 (x : UInt32) : lowHalf x.toUInt64 = x := by
  simp [lowHalf]

@[simp] theorem highHalf_toUInt64 (x : UInt32) : highHalf x.toUInt64 = 0 := by
  have hlt := x.toNat_lt
  rw [← UInt32.toNat_inj]
  simp only [highHalf, UInt32.toNat_toUInt64, UInt64.toNat_toUInt32, UInt64.toNat_shiftRight]
  change (x.toNat >>> 32) % 2 ^ 32 = 0
  rw [Nat.shiftRight_eq_div_pow]
  omega

@[simp] theorem lowHalf_withHigh (reg value : UInt64) :
    lowHalf (withHigh reg value) = lowHalf reg := by
  have hzero : lowHalf (value <<< (32 : UInt64)) = 0 := by
    rw [← UInt32.toNat_inj]
    simp only [lowHalf, UInt64.toNat_toUInt32, UInt64.toNat_shiftLeft]
    change (value.toNat <<< 32 % 2 ^ 64) % 2 ^ 32 = 0
    rw [Nat.shiftLeft_eq]
    omega
  have hones : lowHalf (0xffffffff : UInt64) = -1 := rfl
  simp only [lowHalf] at hzero hones ⊢
  rw [withHigh, UInt64.toUInt32_or, UInt64.toUInt32_and, hzero, hones, UInt32.or_zero,
    UInt32.and_neg_one]

theorem withLow_eq_self {reg value : UInt64} (h : lowHalf value = lowHalf reg) :
    withLow reg value = reg := by
  rw [withLow, and_mask_eq value, h, ← and_mask_eq, ← UInt64.toBitVec_inj, UInt64.toBitVec_or,
    UInt64.toBitVec_and, UInt64.toBitVec_and, ← BitVec.and_or_distrib_left]
  exact BitVec.and_allOnes

theorem lowHalf_withLow_eq (reg value : UInt64) : lowHalf (withLow reg value) = lowHalf value := by
  have hzero : lowHalf (0xffffffff00000000 : UInt64) = 0 := rfl
  have hones : lowHalf (0xffffffff : UInt64) = -1 := rfl
  simp only [lowHalf] at hzero hones ⊢
  rw [withLow, UInt64.toUInt32_or, UInt64.toUInt32_and, UInt64.toUInt32_and, hzero, hones,
    UInt32.and_zero, UInt32.zero_or, UInt32.and_neg_one]

theorem withLow_shiftRight (reg value : UInt64) :
    withLow reg value >>> (32 : UInt64) = reg >>> (32 : UInt64) := by
  have hzero : (0xffffffff : UInt64) >>> (32 : UInt64) = 0 := rfl
  have hones : (0xffffffff00000000 : UInt64) >>> (32 : UInt64) = 0xffffffff := rfl
  rw [withLow, UInt64.shiftRight_or, UInt64.shiftRight_and, UInt64.shiftRight_and, hzero, hones,
    UInt64.and_zero, UInt64.or_zero, and_mask_eq, shiftRight_eq, lowHalf_toUInt64]

theorem withHigh_shiftRight (reg value : UInt64) :
    withHigh reg value >>> (32 : UInt64) = (lowHalf value).toUInt64 := by
  have hzero : (0xffffffff : UInt64) >>> (32 : UInt64) = 0 := rfl
  rw [withHigh, UInt64.shiftRight_or, UInt64.shiftRight_and, hzero, UInt64.and_zero, UInt64.zero_or,
    ← UInt64.toNat_inj]
  simp only [lowHalf, UInt32.toNat_toUInt64, UInt64.toNat_toUInt32, UInt64.toNat_shiftRight,
    UInt64.toNat_shiftLeft]
  change (value.toNat <<< 32 % 2 ^ 64) >>> 32 = value.toNat % 2 ^ 32
  rw [Nat.shiftLeft_eq, Nat.shiftRight_eq_div_pow]
  omega

theorem highHalf_toUInt64_of_lt {n : ℕ} (h : n < 2 ^ 32) : highHalf n.toUInt64 = 0 := by
  have hword : n.toUInt64 = n.toUInt32.toUInt64 := by
    rw [← UInt64.toNat_inj, UInt32.toNat_toUInt64]
    change n % 2 ^ 64 = n % 2 ^ 32
    omega
  rw [hword, highHalf_toUInt64]

theorem toNat_mod_eq (x : UInt64) : x.toNat % 2 ^ 32 = (lowHalf x).toNat :=
  (UInt64.toNat_toUInt32 x).symm

namespace MessageQueue

/-! ### The registers -/

/-- `LINQU_UB_MSGQ_BASE`. -/
def msgqBase : UInt64 := 0x200

/-- `LINQU_UB_MSGQ_WINDOW_SIZE`. -/
def msgqOffsetValid (addr : UInt64) : Prop := msgqBase ≤ addr ∧ addr < msgqBase + 0x120

instance (addr : UInt64) : Decidable (msgqOffsetValid addr) := inferInstanceAs (Decidable (_ ∧ _))

def msgqReg (addr : UInt64) : ℕ := (addr - msgqBase).toUInt32.toNat

/-- The registers that the device lets the guest write, by their offsets. -/
def registerAt : ℕ → Register
  | 0x000 => .sqAddrL
  | 0x004 => .sqAddrH
  | 0x008 => .sqPi
  | 0x00c => .sqCi
  | 0x010 => .sqDepth
  | 0x040 => .rqAddrL
  | 0x044 => .rqAddrH
  | 0x048 => .rqPi
  | 0x04c => .rqCi
  | 0x050 => .rqDepth
  | 0x054 => .rqEntrySize
  | 0x070 => .cqAddrL
  | 0x074 => .cqAddrH
  | 0x078 => .cqPi
  | 0x07c => .cqCi
  | 0x080 => .cqDepth
  | 0x088 => .cqIntMask
  | 0x08c => .cqIntStatus
  | 0x0b0 => .rst
  | 0x0c0 => .intSel
  | _ => .other

def msgqRegRead (s : MessageQueue) : ℕ → UInt64
  | 0x000 => (lowHalf s.sqIova).toUInt64
  | 0x004 => s.sqIova >>> (32 : UInt64)
  | 0x008 => s.sqPi.toUInt64
  | 0x00c => s.sqCi.toUInt64
  | 0x010 => s.sqDepth.toUInt64
  | 0x014 => 0
  | 0x018 => 0
  | 0x040 => (lowHalf s.rq.iova).toUInt64
  | 0x044 => s.rq.iova >>> (32 : UInt64)
  | 0x048 => s.rq.pi.toUInt64
  | 0x04c => s.rq.ci.toUInt64
  | 0x050 => s.rq.depth.toUInt64
  | 0x054 => s.rqEntrySize.toUInt64
  | 0x058 => 0
  | 0x070 => (lowHalf s.cq.iova).toUInt64
  | 0x074 => s.cq.iova >>> (32 : UInt64)
  | 0x078 => s.cq.pi.toUInt64
  | 0x07c => s.cq.ci.toUInt64
  | 0x080 => s.cq.depth.toUInt64
  | 0x084 => 0
  | 0x088 => s.cqIntMask.toUInt64
  | 0x08c => s.cqIntStatus.toUInt64
  | 0x090 => s.cqIntRo.toUInt64
  | 0x0c0 => s.msgqIntSel.toUInt64
  | 0x0b0 => 0
  | _ => 0

/-- A read; `none` for the registers of the endpoints and of the UMMU. -/
def mmioRead (s : MessageQueue) (addr : UInt64) (size : ℕ) : Option UInt64 :=
  if size ≠ 4 ∧ size ≠ 8 then some 0
  -- `LINQU_UB_REG_VERSION` and `LINQU_UB_REG_FEATURES`
  else if addr = 0x00 then some (accessExtract 1 addr size)
  else if addr = 0x08 then some 0
  else if msgqOffsetValid addr then
    some (accessExtract (s.msgqRegRead (msgqReg (addr &&& ~~~(0x7 : UInt64)))) addr size)
  else none

/-- A write.  The other registers of the device do not touch the queue. -/
def mmioWrite (bus : DmaBus) (s : MessageQueue) (addr value : UInt64) (size : ℕ) : MessageQueue :=
  if size ≠ 4 ∧ size ≠ 8 then s
  else if msgqOffsetValid addr then
    let reg := msgqReg (addr &&& ~~~(0x7 : UInt64))
    s.msgqRegWrite bus (registerAt reg) (accessMerge (s.msgqRegRead reg) addr value size)
  else s

/-- The offsets of the registers that `linqu_ub_msgq_reg_write` stores a value in and does nothing
else. -/
def rwRegisters : List ℕ :=
  [0x000, 0x004, 0x010, 0x040, 0x044, 0x04c, 0x050, 0x054, 0x070, 0x074, 0x080, 0x0c0]

variable {bus : DmaBus} {s s' : MessageQueue} {reg : ℕ} {value : UInt64}

theorem word_toUInt64 (x : UInt64) : (x.toNat % 2 ^ 32).toUInt64 = (lowHalf x).toUInt64 := by
  rw [toNat_mod_eq]
  simp

/-- **A register keeps the word that is written to it**, and the write touches no other. -/
theorem msgqRegWrite_stores (bus : DmaBus) (s : MessageQueue) (value : UInt64)
    (hreg : reg ∈ rwRegisters) :
    (s.msgqRegWrite bus (registerAt reg) value).msgqRegRead reg = (lowHalf value).toUInt64 ∧
      ∀ other, other ≠ reg →
        (s.msgqRegWrite bus (registerAt reg) value).msgqRegRead other = s.msgqRegRead other := by
  simp only [rwRegisters, List.mem_cons, List.not_mem_nil, or_false] at hreg
  rcases hreg with rfl | rfl | rfl | rfl | rfl | rfl | rfl | rfl | rfl | rfl | rfl | rfl
  all_goals
    refine ⟨?_, fun other hother => ?_⟩
    · first
        | exact word_toUInt64 value
        | exact withHigh_shiftRight _ value
        | exact congrArg UInt32.toUInt64 (lowHalf_withLow_eq _ value)
    · -- only the two halves of an address share a field
      unfold msgqRegRead
      split <;> first
        | rfl
        | exact absurd rfl hother
        | exact withLow_shiftRight _ value
        | exact congrArg UInt32.toUInt64 (lowHalf_withHigh _ value)

/-! ### Whole runs -/

/-- The registers that are read in place of their neighbors have 32 bits. -/
structure Words (s : MessageQueue) : Prop where
  rqDepth : s.rq.depth < 2 ^ 32
  rqPi : s.rq.pi < 2 ^ 32

theorem Words.progress {k : ℕ} (h : s.Words) (hprogress : Progress s s' k) : s'.Words where
  rqDepth := hprogress.rqDepth ▸ h.rqDepth
  rqPi := by
    rcases hprogress.rqPi with heq | hlt
    · exact heq ▸ h.rqPi
    · exact hlt.trans h.rqDepth

theorem Words.msgqRegWrite (h : s.Words) (reg : Register) :
    (s.msgqRegWrite bus reg value).Words := by
  have hword : value.toNat % 2 ^ 32 < 2 ^ 32 := Nat.mod_lt _ (by decide)
  cases reg with
  | rqDepth => exact ⟨hword, h.rqPi⟩
  | rst =>
    simp only [MessageQueue.msgqRegWrite]
    split_ifs
    · exact ⟨h.rqDepth, Nat.two_pow_pos 32⟩
    · exact h
  | sqPi =>
    rcases sqPi_cases bus s value with ⟨-, heq⟩ | ⟨-, -, hprogress⟩ | ⟨-, -, t, k, hprogress, heq⟩
    · rwa [heq]
    · exact h.progress hprogress
    · rw [heq]
      exact { h.progress hprogress with }
  | cqCi | cqIntStatus =>
    simp only [MessageQueue.msgqRegWrite]
    split_ifs <;> exact ⟨h.rqDepth, h.rqPi⟩
  | _ => exact ⟨h.rqDepth, h.rqPi⟩

/-- A write of `size` bytes. -/
structure WindowWrite where
  addr : UInt64
  value : UInt64
  size : ℕ

def windowStep (bus : DmaBus) (s : MessageQueue) (write : WindowWrite) : Option MessageQueue :=
  some (s.mmioWrite bus write.addr write.value write.size)

theorem words_of_run {config : ConfigSpace} {writes : List WindowWrite}
    (h : LTS.run (windowStep bus) (start config 0 0 0 0 0 0) writes = some s) : s.Words := by
  refine LTS.run_invariant (P := Words) ?_ ⟨Nat.two_pow_pos 32, Nat.two_pow_pos 32⟩ h
  intro s write s' hs hstep
  obtain rfl : s.mmioWrite bus write.addr write.value write.size = s' := Option.some.inj hstep
  unfold mmioWrite
  split_ifs
  · exact hs
  · exact hs.msgqRegWrite _
  · exact hs

/-! ### Accesses of 4 bytes -/

def registerAddress (reg : ℕ) : UInt64 := msgqBase + reg.toUInt64

/-- What the guest expects of a register: it reads back what it has written, and nothing else has
changed. -/
def Restores (bus : DmaBus) (s : MessageQueue) (reg : ℕ) (word : UInt32) : Prop :=
  (s.mmioWrite bus (registerAddress reg) word.toUInt64 4).mmioRead (registerAddress reg) 4 =
      some word.toUInt64 ∧
    ∀ other, other ≠ reg →
      (s.mmioWrite bus (registerAddress reg) word.toUInt64 4).msgqRegRead other =
        s.msgqRegRead other

/-- Where an access to a register ends up. -/
structure Decodes (reg : ℕ) : Prop where
  ne_version : registerAddress reg ≠ 0
  ne_features : registerAddress reg ≠ 8
  valid : msgqOffsetValid (registerAddress reg)
  reg_eq : msgqReg (registerAddress reg &&& ~~~(0x7 : UInt64)) = reg / 8 * 8
  high : registerAddress reg &&& (0x4 : UInt64) ≠ 0 ↔ reg % 8 ≠ 0

theorem decodes (hreg : reg ∈ rwRegisters) : Decodes reg := by
  have hall : ∀ reg ∈ rwRegisters, registerAddress reg ≠ 0 ∧ registerAddress reg ≠ 8 ∧
      msgqOffsetValid (registerAddress reg) ∧
      msgqReg (registerAddress reg &&& ~~~(0x7 : UInt64)) = reg / 8 * 8 ∧
      (registerAddress reg &&& (0x4 : UInt64) ≠ 0 ↔ reg % 8 ≠ 0) := by decide
  obtain ⟨hversion, hfeatures, hvalid, hreg, hhigh⟩ := hall reg hreg
  exact ⟨hversion, hfeatures, hvalid, hreg, hhigh⟩

theorem mmioRead_eq (hreg : reg ∈ rwRegisters) :
    s.mmioRead (registerAddress reg) 4 =
      some (if reg % 8 ≠ 0 then (highHalf (s.msgqRegRead (reg / 8 * 8))).toUInt64
        else (lowHalf (s.msgqRegRead (reg / 8 * 8))).toUInt64) := by
  have hdecodes := decodes hreg
  simp only [mmioRead, accessExtract, hdecodes.ne_version, hdecodes.ne_features, hdecodes.valid,
    hdecodes.reg_eq, hdecodes.high, and_mask_eq, shiftRight_eq, lowHalf_toUInt64]
  rfl

theorem mmioWrite_eq (hreg : reg ∈ rwRegisters) (word : UInt32) :
    s.mmioWrite bus (registerAddress reg) word.toUInt64 4 =
      s.msgqRegWrite bus (registerAt (reg / 8 * 8))
        (if reg % 8 ≠ 0 then withHigh (s.msgqRegRead (reg / 8 * 8)) word.toUInt64
          else withLow (s.msgqRegRead (reg / 8 * 8)) word.toUInt64) := by
  have hdecodes := decodes hreg
  simp only [mmioWrite, accessMerge, hdecodes.valid, hdecodes.reg_eq, hdecodes.high, and_mask_eq,
    lowHalf_toUInt64]
  rfl

/-- The neighbor of a register that does not start at a multiple of 8 has no high half to read, and
a write of its high half does nothing. -/
theorem neighbor_inert (bus : DmaBus) (value : UInt64) (hs : s.Words) (hreg : reg ∈ rwRegisters)
    (hodd : reg % 8 ≠ 0) :
    highHalf (s.msgqRegRead (reg / 8 * 8)) = 0 ∧
      s.msgqRegWrite bus (registerAt (reg / 8 * 8))
        (withHigh (s.msgqRegRead (reg / 8 * 8)) value) = s := by
  have haddress (iova : UInt64) :
      withLow iova (withHigh (lowHalf iova).toUInt64 value) = iova :=
    withLow_eq_self (by rw [lowHalf_withHigh, lowHalf_toUInt64])
  have hdepth : (withHigh s.rq.depth.toUInt64 value).toNat % 2 ^ 32 = s.rq.depth := by
    rw [toNat_mod_eq, lowHalf_withHigh, ← toNat_mod_eq]
    have hlt := hs.rqDepth
    change s.rq.depth % 2 ^ 64 % 2 ^ 32 = s.rq.depth
    omega
  have hodds : reg ∈ [0x004, 0x044, 0x04c, 0x054, 0x074] :=
    (by decide : ∀ reg ∈ rwRegisters, reg % 8 ≠ 0 → reg ∈ [0x004, 0x044, 0x04c, 0x054, 0x074])
      reg hreg hodd
  simp only [List.mem_cons, List.not_mem_nil, or_false] at hodds
  rcases hodds with rfl | rfl | rfl | rfl | rfl
  · exact ⟨highHalf_toUInt64 _,
      congrArg (fun iova => { s with sqIova := iova }) (haddress s.sqIova)⟩
  · exact ⟨highHalf_toUInt64 _,
      congrArg (fun iova => { s with rq.iova := iova }) (haddress s.rq.iova)⟩
  · -- the producer index belongs to the device
    exact ⟨highHalf_toUInt64_of_lt hs.rqPi, rfl⟩
  · exact ⟨highHalf_toUInt64_of_lt hs.rqDepth,
      congrArg (fun depth => { s with rq.depth := depth }) hdepth⟩
  · exact ⟨highHalf_toUInt64 _,
      congrArg (fun iova => { s with cq.iova := iova }) (haddress s.cq.iova)⟩

theorem restores_iff (hs : s.Words) (hreg : reg ∈ rwRegisters) (word : UInt32) :
    Restores bus s reg word ↔ reg % 8 = 0 ∨ word = 0 := by
  unfold Restores
  rw [mmioWrite_eq hreg, mmioRead_eq hreg]
  by_cases hodd : reg % 8 ≠ 0
  · obtain ⟨hzero, hwrite⟩ := neighbor_inert bus word.toUInt64 hs hreg hodd
    rw [if_pos hodd, if_pos hodd, hwrite, hzero]
    refine ⟨fun h => .inr ?_, fun h => ⟨?_, fun _ _ => rfl⟩⟩
    · have hword := congrArg lowHalf (Option.some.inj h.1)
      rw [lowHalf_toUInt64, lowHalf_toUInt64] at hword
      exact hword.symm
    · rw [h.resolve_left hodd]
  · have heven : reg / 8 * 8 = reg := by omega
    obtain ⟨hread, hframe⟩ := msgqRegWrite_stores bus s
      (withLow (s.msgqRegRead reg) word.toUInt64) hreg
    rw [if_neg hodd, if_neg hodd, heven]
    refine iff_of_true ⟨?_, hframe⟩ (.inl (not_not.1 hodd))
    rw [hread, lowHalf_withLow_eq, lowHalf_toUInt64, lowHalf_toUInt64]

/-- **Registers through the window.**  After every run of writes of whatever size to whatever
addresses, a write of 4 bytes to a register with no side effects is read back there and changes no
other register if and only if the register starts at a multiple of 8, or the word is zero. -/
theorem mmio_restores_iff (bus : DmaBus) (config : ConfigSpace) (writes : List WindowWrite)
    (s : MessageQueue)
    (h : LTS.run (windowStep bus) (start config 0 0 0 0 0 0) writes = some s)
    (reg : ℕ) (hreg : reg ∈ rwRegisters) (word : UInt32) :
    Restores bus s reg word ↔ reg % 8 = 0 ∨ word = 0 :=
  restores_iff (words_of_run h) hreg word

/-- The depth of the submission queue is stored. -/
theorem mmio_restores_iff_sqDepth :
    LTS.run (windowStep (requestBus 0)) (start noConfig 0 0 0 0 0 0) [⟨0x210, 8, 4⟩] =
        some (start noConfig 0 0 0 8 0 0) ∧
      (Restores (requestBus 0) (start noConfig 0 0 0 8 0 0) 0x010 16 ↔
        0x010 % 8 = 0 ∨ (16 : UInt32) = 0) :=
  ⟨by decide +kernel, mmio_restores_iff (requestBus 0) noConfig [⟨0x210, 8, 4⟩] _
    (by decide +kernel) 0x010 (by decide) 16⟩

/-- The high half of the address of the submission queue cannot be set. -/
theorem sqAddrH_lost :
    ¬ Restores (requestBus 0) (start noConfig 0 0 0 0 0 0) 0x004 1 ∧
      ((start noConfig 0 0 0 0 0 0).mmioWrite (requestBus 0) 0x204 1 4).mmioRead 0x204 4 = some 0 ∧
      (start noConfig 0 0 0 0 0 0).mmioWrite (requestBus 0) 0x204 1 4 =
        start noConfig 0 0 0 0 0 0 := by
  refine ⟨fun h => ?_, by decide +kernel, by decide +kernel⟩
  exact absurd h.1 (by decide +kernel)

end MessageQueue

end Legacy

end LinquUb
