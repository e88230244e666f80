import LinquUb.LTS.ShiftRegister
import LinquUb.Guest.RpcServer

/-!
# The checksum of the RPC demo

`crc32_ieee` of `ub_rpc_demo.c` feeds a shift register with the bits of its input, byte by byte and
least significant bit first.

* `crcRegister` : the register, with the feedback of the source;
* `foldl_crcByte` : the loop of the source feeds the register with the bits of the input;
* `crc32_error_detection` : **errors within 32 consecutive bits change the checksum, and the
  checksum of the exclusive or of three inputs is that of the checksums**.
-/

namespace LinquUb

/-- The bits of a string, byte by byte and least significant bit first. -/
def messageBits (s : CString) : List Bool :=
  s.flatMap fun byte => List.ofFn fun i : Fin 8 => byte.toBitVec.getLsbD i

/-- The exclusive or of two strings, byte by byte. -/
def xorBytes (a b : CString) : CString := List.zipWith (· ^^^ ·) a b

def crcRegister : ShiftRegister 32 where
  poly := 0xedb88320#32
  top := by decide

/-- An iteration of the outer loop. -/
def crcByte (crc : UInt32) (byte : UInt8) : UInt32 := crcBit^[8] (crc ^^^ byte.toUInt32)

theorem crc32Ieee_eq (data : CString) :
    crc32Ieee data = data.foldl crcByte 0xffffffff ^^^ 0xffffffff := rfl

/-! ### The loop feeds the register -/

theorem low_bit_iff (crc : UInt32) : crc &&& 1 ≠ 0 ↔ crc.toBitVec.getLsbD 0 = true := by
  rw [ne_eq, ← UInt32.toBitVec_inj, UInt32.toBitVec_and]
  have : (crc.toBitVec &&& 1#32) = (BitVec.ofBool (crc.toBitVec.getLsbD 0)).setWidth 32 :=
    BitVec.and_one_eq_setWidth_ofBool_getLsbD
  cases hlow : crc.toBitVec.getLsbD 0 <;> simp_all

theorem toBitVec_crcBit (crc : UInt32) :
    (crcBit crc).toBitVec = crcRegister.step crc.toBitVec := by
  rw [crcBit, ShiftRegister.step]
  simp only [low_bit_iff]
  split_ifs <;> rfl

theorem toBitVec_iterate_crcBit (n : ℕ) (crc : UInt32) :
    (crcBit^[n] crc).toBitVec = crcRegister.step^[n] crc.toBitVec := by
  induction n generalizing crc with
  | zero => rfl
  | succ n ih => rw [Function.iterate_succ_apply, Function.iterate_succ_apply, ih, toBitVec_crcBit]

theorem word_messageBits_singleton (byte : UInt8) :
    ShiftRegister.word 32 (messageBits [byte]) = byte.toUInt32.toBitVec := by
  refine BitVec.eq_of_getLsbD_eq fun i hi => ?_
  rw [ShiftRegister.getLsbD_word, UInt8.toBitVec_toUInt32, BitVec.getLsbD_setWidth, messageBits,
    List.flatMap_singleton, List.getD_eq_getElem?_getD, List.getElem?_ofFn]
  by_cases hbyte : i < 8
  · rw [dif_pos hbyte, Option.getD_some]
  · rw [dif_neg hbyte, Option.getD_none, BitVec.getLsbD_of_ge byte.toBitVec i (by omega)]

theorem toBitVec_crcByte (crc : UInt32) (byte : UInt8) :
    (crcByte crc byte).toBitVec = (messageBits [byte]).foldl crcRegister.feed crc.toBitVec := by
  rw [crcRegister.foldl_feed_of_length_le (by simp [messageBits]), word_messageBits_singleton,
    crcByte, toBitVec_iterate_crcBit, UInt32.toBitVec_xor]
  rfl

theorem foldl_crcByte (data : CString) (crc : UInt32) :
    (data.foldl crcByte crc).toBitVec = (messageBits data).foldl crcRegister.feed crc.toBitVec := by
  induction data generalizing crc with
  | nil => rfl
  | cons byte data ih =>
    calc ((byte :: data).foldl crcByte crc).toBitVec
        = (messageBits data).foldl crcRegister.feed (crcByte crc byte).toBitVec := ih _
      _ = (messageBits [byte] ++ messageBits data).foldl crcRegister.feed crc.toBitVec := by
          rw [toBitVec_crcByte, List.foldl_append]
      _ = (messageBits (byte :: data)).foldl crcRegister.feed crc.toBitVec := by
          rw [messageBits, messageBits, messageBits, ← List.flatMap_append, List.singleton_append]

/-! ### Bursts -/

theorem length_messageBits (s : CString) : (messageBits s).length = 8 * s.length := by
  induction s with
  | nil => rfl
  | cons byte s ih =>
    rw [messageBits, List.flatMap_cons, List.length_append, List.length_ofFn, ← messageBits, ih,
      List.length_cons]
    omega

theorem crc32Ieee_ne {a b : CString} (hlength : a.length = b.length) {p : ℕ}
    (hburst : ∀ i : ℕ, (messageBits a)[i]? ≠ (messageBits b)[i]? → p ≤ i ∧ i < p + 32)
    (hne : ∃ i : ℕ, (messageBits a)[i]? ≠ (messageBits b)[i]?) : crc32Ieee a ≠ crc32Ieee b := by
  intro h
  rw [crc32Ieee_eq, crc32Ieee_eq, UInt32.xor_left_inj, ← UInt32.toBitVec_inj, foldl_crcByte,
    foldl_crcByte] at h
  obtain ⟨i, hi⟩ := hne
  refine crcRegister.foldl_feed_ne ?_ hburst (fun heq => hi (by rw [heq])) _ h
  rw [length_messageBits, length_messageBits, hlength]

/-! ### Linearity -/

theorem crcByte_xor (x y : UInt32) (a b : UInt8) :
    crcByte (x ^^^ y) (a ^^^ b) = crcByte x a ^^^ crcByte y b := by
  rw [← UInt32.toBitVec_inj, UInt32.toBitVec_xor, crcByte, crcByte, crcByte,
    toBitVec_iterate_crcBit, toBitVec_iterate_crcBit, toBitVec_iterate_crcBit,
    ← ShiftRegister.iterate_step_xor, ← UInt32.toBitVec_xor, UInt8.toUInt32_xor]
  refine congrArg (fun crc : UInt32 => crcRegister.step^[8] crc.toBitVec) ?_
  ac_rfl

theorem foldl_crcByte_xor {a b : CString} (hlength : a.length = b.length) (x y : UInt32) :
    (xorBytes a b).foldl crcByte (x ^^^ y) = a.foldl crcByte x ^^^ b.foldl crcByte y := by
  induction a generalizing b x y with
  | nil =>
    obtain rfl : b = [] := List.length_eq_zero_iff.1 hlength.symm
    rfl
  | cons byte a ih =>
    cases b with
    | nil => cases hlength
    | cons byte' b =>
      rw [xorBytes, List.zipWith_cons_cons, List.foldl_cons, List.foldl_cons, List.foldl_cons,
        crcByte_xor]
      exact ih (Nat.succ.inj hlength) _ _

theorem crc32Ieee_xor {a b c : CString} (hab : a.length = b.length) (hbc : b.length = c.length) :
    crc32Ieee (xorBytes (xorBytes a b) c) = crc32Ieee a ^^^ crc32Ieee b ^^^ crc32Ieee c := by
  have hcancel (x y z u : UInt32) :
      x ^^^ y ^^^ z ^^^ (u ^^^ u ^^^ u) = (x ^^^ u) ^^^ (y ^^^ u) ^^^ (z ^^^ u) := by ac_rfl
  have hthree : (0xffffffff : UInt32) = 0xffffffff ^^^ 0xffffffff ^^^ 0xffffffff := by decide
  have hlength : (xorBytes a b).length = c.length := by simp [xorBytes, hab, hbc]
  calc crc32Ieee (xorBytes (xorBytes a b) c)
      = (xorBytes (xorBytes a b) c).foldl crcByte (0xffffffff ^^^ 0xffffffff ^^^ 0xffffffff) ^^^
          (0xffffffff ^^^ 0xffffffff ^^^ 0xffffffff) := by rw [crc32Ieee_eq, ← hthree]
    _ = crc32Ieee a ^^^ crc32Ieee b ^^^ crc32Ieee c := by
        rw [foldl_crcByte_xor hlength, foldl_crcByte_xor hab, hcancel, ← crc32Ieee_eq,
          ← crc32Ieee_eq, ← crc32Ieee_eq]

/-- **The checksum detects bursts of up to 32 bits and is affine.** -/
theorem crc32_error_detection :
    (∀ (a b : CString) (p : ℕ), a.length = b.length →
      (∀ i : ℕ, (messageBits a)[i]? ≠ (messageBits b)[i]? → p ≤ i ∧ i < p + 32) →
      (∃ i : ℕ, (messageBits a)[i]? ≠ (messageBits b)[i]?) → crc32Ieee a ≠ crc32Ieee b) ∧
    ∀ a b c : CString, a.length = b.length → b.length = c.length →
      crc32Ieee (xorBytes (xorBytes a b) c) = crc32Ieee a ^^^ crc32Ieee b ^^^ crc32Ieee c :=
  ⟨fun _ _ _ hlength hburst hne => crc32Ieee_ne hlength hburst hne,
    fun _ _ _ hab hbc => crc32Ieee_xor hab hbc⟩

/-- The lowest bit of the first byte is an error of one bit. -/
theorem crc32_error_detection_zero_one :
    crc32Ieee [0, 7] ≠ crc32Ieee [1, 7] ∧
      crc32Ieee (xorBytes (xorBytes [1, 2] [3, 4]) [5, 6]) =
        crc32Ieee [1, 2] ^^^ crc32Ieee [3, 4] ^^^ crc32Ieee [5, 6] := by
  refine ⟨crc32_error_detection.1 [0, 7] [1, 7] 0 rfl (fun i hi => ⟨Nat.zero_le i, ?_⟩)
    ⟨0, by decide⟩, crc32_error_detection.2 [1, 2] [3, 4] [5, 6] rfl rfl⟩
  by_contra hlast
  have hend (s : CString) (hs : s.length = 2) : (messageBits s)[i]? = none := by
    rw [List.getElem?_eq_none_iff, length_messageBits, hs]
    omega
  exact hi ((hend [0, 7] rfl).trans (hend [1, 7] rfl).symm)

end LinquUb
