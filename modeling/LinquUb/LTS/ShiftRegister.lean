import Mathlib.Data.List.Basic
import Mathlib.Logic.Function.Iterate

/-!
# Shift registers with feedback

A register of `w` bits moves down by a bit in each step, and the bit that falls out decides whether
the feedback is added.  A message is fed into it bit by bit.

* `ShiftRegister.step_xor` : a step is linear in exclusive or;
* `ShiftRegister.step_injective` : and injective, the top bit of the feedback being set;
* `ShiftRegister.foldl_feed_of_length_le` : at most `w` bits can be fed at once;
* `ShiftRegister.foldl_feed_ne` : **two messages that differ, but only within `w` consecutive bits,
  leave different registers**.
-/

namespace LinquUb

/-- A shift register of `w` bits, given by its feedback. -/
structure ShiftRegister (w : ℕ) where
  poly : BitVec w
  top : poly.getLsbD (w - 1) = true

namespace ShiftRegister

/-- The word with the bits `bs`, the least significant one first. -/
def word (w : ℕ) : List Bool → BitVec w
  | [] => 0#w
  | b :: bs => (BitVec.ofBool b).setWidth w ^^^ (word w bs <<< 1)

variable {w : ℕ} (R : ShiftRegister w)

def step (x : BitVec w) : BitVec w := if x.getLsbD 0 then (x >>> 1) ^^^ R.poly else x >>> 1

/-- Feed a bit. -/
def feed (x : BitVec w) (b : Bool) : BitVec w := R.step (x ^^^ (BitVec.ofBool b).setWidth w)

/-! ### Words -/

theorem getLsbD_bit (b : Bool) (i : ℕ) :
    ((BitVec.ofBool b).setWidth w).getLsbD i = (decide (i < w) && (decide (i = 0) && b)) := by
  simp [BitVec.getLsbD_setWidth, BitVec.getLsbD_ofBool]

theorem getLsbD_word (bs : List Bool) (i : ℕ) :
    (word w bs).getLsbD i = (decide (i < w) && bs.getD i false) := by
  induction bs generalizing i with
  | nil => simp [word]
  | cons b bs ih =>
    rw [word, BitVec.getLsbD_xor, getLsbD_bit, BitVec.getLsbD_shiftLeft]
    cases i with
    | zero => simp
    | succ i =>
      rw [Nat.add_sub_cancel, ih]
      by_cases hi : i + 1 < w
      · simp [hi, Nat.lt_of_succ_lt hi]
      · simp [hi]

theorem word_inj {as bs : List Bool} (hlength : as.length = bs.length) (hle : as.length ≤ w)
    (h : word w as = word w bs) : as = bs := by
  refine List.ext_getElem hlength fun i hi hi' => ?_
  have hbit := congrArg (BitVec.getLsbD · i) h
  simp only [getLsbD_word] at hbit
  simpa [hi, hi', Nat.lt_of_lt_of_le hi hle] using hbit

/-! ### Steps -/

theorem getLsbD_step (x : BitVec w) (i : ℕ) :
    (R.step x).getLsbD i = (x.getLsbD (i + 1) ^^ (x.getLsbD 0 && R.poly.getLsbD i)) := by
  rw [step]
  cases x.getLsbD 0 <;> simp [Nat.add_comm]

theorem step_xor (x y : BitVec w) : R.step (x ^^^ y) = R.step x ^^^ R.step y := by
  refine BitVec.eq_of_getLsbD_eq fun i _ => ?_
  simp only [getLsbD_step, BitVec.getLsbD_xor]
  cases x.getLsbD 0 <;> cases y.getLsbD 0 <;> simp [Bool.xor_comm, Bool.xor_left_comm]

theorem iterate_step_xor (n : ℕ) (x y : BitVec w) :
    R.step^[n] (x ^^^ y) = R.step^[n] x ^^^ R.step^[n] y := by
  induction n generalizing x y with
  | zero => rfl
  | succ n ih => simp only [Function.iterate_succ_apply, step_xor, ih]

theorem step_injective : Function.Injective R.step := by
  intro x y h
  have hbit (i : ℕ) := congrArg (BitVec.getLsbD · i) h
  simp only [getLsbD_step] at hbit
  -- the top bit of the result is the bit that fell out
  have hlow : x.getLsbD 0 = y.getLsbD 0 := by
    have htop := hbit (w - 1)
    rwa [R.top, BitVec.getLsbD_of_ge x _ (by omega), BitVec.getLsbD_of_ge y _ (by omega),
      Bool.and_true, Bool.and_true, Bool.false_xor, Bool.false_xor] at htop
  refine BitVec.eq_of_getLsbD_eq fun i _ => ?_
  cases i with
  | zero => exact hlow
  | succ i => simpa [hlow] using hbit i

theorem step_shiftLeft {x : BitVec w} (hx : x.getLsbD (w - 1) = false) :
    R.step (x <<< 1) = x := by
  refine BitVec.eq_of_getLsbD_eq fun i hi => ?_
  rw [getLsbD_step]
  simp only [BitVec.getLsbD_shiftLeft]
  by_cases hlast : i + 1 < w
  · simp [hlast]
  · obtain rfl : i = w - 1 := by omega
    simp [hlast, hx]

/-! ### Messages -/

/-- Bits that fit into the register can be added at once, and the steps made afterwards. -/
theorem foldl_feed_of_length_le {bs : List Bool} (hle : bs.length ≤ w) (x : BitVec w) :
    bs.foldl R.feed x = R.step^[bs.length] (x ^^^ word w bs) := by
  induction bs generalizing x with
  | nil => simp [word]
  | cons b bs ih =>
    have hlt : bs.length < w := hle
    have htop : (word w bs).getLsbD (w - 1) = false := by
      simp [getLsbD_word, List.getElem?_eq_none (show bs.length ≤ w - 1 by omega)]
    calc (b :: bs).foldl R.feed x = R.step^[bs.length] (R.feed x b ^^^ word w bs) :=
          ih (Nat.le_of_lt hlt) (R.feed x b)
      _ = R.step^[bs.length]
            (R.step (x ^^^ (BitVec.ofBool b).setWidth w) ^^^ R.step (word w bs <<< 1)) := by
          rw [R.step_shiftLeft htop, feed]
      _ = R.step^[(b :: bs).length] (x ^^^ word w (b :: bs)) := by
          rw [← step_xor, List.length_cons, Function.iterate_succ_apply, word, BitVec.xor_assoc]

theorem feed_left_injective (b : Bool) : Function.Injective (R.feed · b) := by
  intro x y h
  exact (BitVec.xor_left_inj _).1 (R.step_injective h)

theorem foldl_feed_left_injective (bs : List Bool) :
    Function.Injective fun x => bs.foldl R.feed x := by
  induction bs with
  | nil => exact fun _ _ h => h
  | cons b bs ih => exact fun x y h => R.feed_left_injective b (ih h)

theorem foldl_feed_right_inj {as bs : List Bool} (hlength : as.length = bs.length)
    (hle : as.length ≤ w) {x : BitVec w} (h : as.foldl R.feed x = bs.foldl R.feed x) :
    as = bs := by
  rw [R.foldl_feed_of_length_le hle, R.foldl_feed_of_length_le (hlength ▸ hle), ← hlength] at h
  exact word_inj hlength hle ((BitVec.xor_right_inj _).1 (R.step_injective.iterate _ h))

/-- **Bursts of at most `w` bits are detected.** -/
theorem foldl_feed_ne {as bs : List Bool} (hlength : as.length = bs.length) {p : ℕ}
    (hburst : ∀ i, as[i]? ≠ bs[i]? → p ≤ i ∧ i < p + w) (hne : as ≠ bs) (x : BitVec w) :
    as.foldl R.feed x ≠ bs.foldl R.feed x := by
  have hsame (i : ℕ) (hi : i < p ∨ p + w ≤ i) : as[i]? = bs[i]? := by
    by_contra hdiff
    have := hburst i hdiff
    omega
  have hbefore : as.take p = bs.take p := by
    refine List.ext_getElem? fun i => ?_
    rw [List.getElem?_take, List.getElem?_take]
    split_ifs with hi
    · exact hsame i (.inl hi)
    · rfl
  have hafter : (as.drop p).drop w = (bs.drop p).drop w := by
    refine List.ext_getElem? fun i => ?_
    rw [List.getElem?_drop, List.getElem?_drop, List.getElem?_drop, List.getElem?_drop]
    exact hsame _ (.inr (by omega))
  have hsplit (cs : List Bool) : cs = cs.take p ++ ((cs.drop p).take w ++ (cs.drop p).drop w) := by
    rw [List.take_append_drop, List.take_append_drop]
  intro h
  rw [hsplit as, hsplit bs, hbefore, hafter] at h
  simp only [List.foldl_append] at h
  have hwithin : (as.drop p).take w = (bs.drop p).take w :=
    R.foldl_feed_right_inj (by simp [hlength]) (List.length_take_le _ _)
      (R.foldl_feed_left_injective _ h)
  exact hne (by rw [hsplit as, hsplit bs, hbefore, hwithin, hafter])

end ShiftRegister

end LinquUb
