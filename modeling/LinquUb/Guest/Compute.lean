import LinquUb.Guest.RpcServer
import LinquUb.Guest.Strtol

/-!
# Expressions of the RPC demo

`compute_eval` of `ub_rpc_demo.c` reads two numbers and an operator.  The numbers are checked by
`strtol` and a division by zero is refused, but a result that no `long` holds is not.

* `computeRead` : what is read from an expression;
* `computeOp_toInt` : the result of an operation is the exact one, wrapped around;
* `compute_exact_iff` : **a result is exact as long as the operation does not overflow**.
-/

namespace LinquUb

/-- The operands and the operator that `compute_eval` reads. -/
def computeRead (expr : CString) : Option (ℤ × UInt8 × ℤ) := do
  let (a, p) ← strtol (expr.dropWhile fun c => c = 32 ∨ c = 9)
  match p.dropWhile (· = 32) with
  | [] => none
  | op :: p =>
    let (b, _) ← strtol (p.dropWhile (· = 32))
    return (a, op, b)

/-- Evaluating is reading and then operating. -/
theorem computeEval_eq (expr : CString) : computeEval expr =
    (computeRead expr).bind fun read => computeOp read.2.1 (.ofInt read.1) (.ofInt read.2.2) := by
  unfold computeEval computeRead
  rcases strtol (expr.dropWhile fun c => c = 32 ∨ c = 9) with _ | ⟨a, p⟩
  · rfl
  · simp only [Option.bind_eq_bind, Option.bind_some]
    cases p.dropWhile (· = 32) with
    | nil => rfl
    | cons op p =>
      dsimp only
      rcases strtol (p.dropWhile (· = 32)) with _ | ⟨b, _⟩ <;> rfl

theorem computeRead_isLong {expr : CString} {a b : ℤ} {op : UInt8}
    (h : computeRead expr = some (a, op, b)) : IsLong a ∧ IsLong b := by
  unfold computeRead at h
  obtain ⟨⟨a', p⟩, ha, h⟩ := Option.bind_eq_some_iff.1 h
  dsimp only at h
  rcases hp : p.dropWhile (· = 32) with _ | ⟨op', q⟩
  · rw [hp] at h
    cases h
  · rw [hp] at h
    obtain ⟨⟨b', _⟩, hb, h⟩ := Option.bind_eq_some_iff.1 h
    cases h
    exact ⟨strtol_isLong ha, strtol_isLong hb⟩

namespace Compute

/-- The mathematical value of an operation; the quotient is truncated. -/
def exactValue (op : UInt8) (a b : ℤ) : ℤ :=
  if op = 43 then a + b
  else if op = 45 then a - b
  else if op = 42 then a * b
  else a.tdiv b

/-- The operation is defined in C: there is neither an overflow nor a division by zero. -/
def Defined (op : UInt8) (a b : ℤ) : Prop := (op = 47 → b ≠ 0) ∧ IsLong (exactValue op a b)

/-- No overflow: the sum, the difference or the product fits into a `long`, and the quotient is not
that of the least `long` by `-1`. -/
def Fits (op : UInt8) (a b : ℤ) : Prop :=
  if op = 43 then IsLong (a + b)
  else if op = 45 then IsLong (a - b)
  else if op = 42 then IsLong (a * b)
  else op = 47 → ¬(a = -2 ^ 63 ∧ b = -1)

/-- The only quotient that overflows. -/
theorem isLong_tdiv_iff {a b : ℤ} (ha : IsLong a) (hb : b ≠ 0) :
    IsLong (a.tdiv b) ↔ ¬(a = -2 ^ 63 ∧ b = -1) := by
  obtain ⟨hge, hlt⟩ := ha
  constructor
  · rintro hfits ⟨rfl, rfl⟩
    exact absurd hfits (by decide)
  · intro hnot
    by_cases hone : b = -1
    · subst hone
      rw [Int.tdiv_neg, Int.tdiv_one]
      have hne : a ≠ -2 ^ 63 := fun h => hnot ⟨h, rfl⟩
      exact ⟨by omega, by omega⟩
    · -- the quotient is at most the dividend, and in size less if the dividend is the least one
      have hle := Int.natAbs_tdiv_le_natAbs a b
      by_cases hmin : (a.tdiv b).natAbs = 2 ^ 63
      · have hquot : (a.tdiv b).natAbs * 2 ≤ a.natAbs ∨ b = 1 := by
          rcases eq_or_ne b 1 with h1 | h1
          · exact .inr h1
          · refine .inl ?_
            rw [Int.natAbs_tdiv]
            have htwo : 2 ≤ b.natAbs := by omega
            calc a.natAbs / b.natAbs * 2 ≤ a.natAbs / b.natAbs * b.natAbs :=
                  Nat.mul_le_mul_left _ htwo
              _ ≤ a.natAbs := Nat.div_mul_le_self _ _
        rcases hquot with hhalf | rfl
        · omega
        · rw [Int.tdiv_one]
          exact ⟨hge, hlt⟩
      · exact ⟨by omega, by omega⟩

/-- A value that wraps around is the exact one if and only if that fits. -/
theorem bmod_eq_self_iff {n : ℤ} : n.bmod (2 ^ 64) = n ↔ IsLong n := by
  constructor
  · intro h
    have hge := Int.le_bmod (x := n) (m := 2 ^ 64) (by decide)
    have hlt := Int.bmod_lt (x := n) (m := 2 ^ 64) (by decide)
    rw [h] at hge hlt
    exact ⟨by omega, by omega⟩
  · rintro ⟨hge, hlt⟩
    exact Int.bmod_eq_of_le (by omega) (by omega)

variable {op : UInt8} {a b : ℤ} {r : Int64}

/-- What the target computes: the exact result, wrapped around. -/
theorem computeOp_toInt (ha : IsLong a) (hb : IsLong b)
    (h : computeOp op (.ofInt a) (.ofInt b) = some r) :
    r.toInt = (exactValue op a b).bmod (2 ^ 64) ∧ (op = 43 ∨ op = 45 ∨ op = 42 ∨ op = 47) ∧
      (op = 47 → b ≠ 0) := by
  have hleft : (Int64.ofInt a).toInt = a := Int64.toInt_ofInt_of_le ha.1 ha.2
  have hright : (Int64.ofInt b).toInt = b := Int64.toInt_ofInt_of_le hb.1 hb.2
  unfold computeOp at h
  split_ifs at h with hadd hsub hmul hdiv hzero <;> cases h
  · subst hadd
    exact ⟨by rw [Int64.toInt_add, hleft, hright]; rfl, by decide, fun h47 => absurd h47 (by decide)⟩
  · subst hsub
    exact ⟨by rw [Int64.toInt_sub, hleft, hright]; rfl, by decide, fun h47 => absurd h47 (by decide)⟩
  · subst hmul
    exact ⟨by rw [Int64.toInt_mul, hleft, hright]; rfl, by decide, fun h47 => absurd h47 (by decide)⟩
  · subst hdiv
    refine ⟨by rw [Int64.toInt_div, hleft, hright]; rfl, by decide, fun _ hb0 => hzero ?_⟩
    rw [hb0]
    rfl

/-- An operation that is refused does not overflow. -/
theorem fits_of_computeOp (hb : IsLong b) (h : computeOp op (.ofInt a) (.ofInt b) = none) :
    Fits op a b := by
  unfold computeOp at h
  unfold Fits
  split_ifs at h ⊢ with hadd hsub hmul hdiv hzero
  · rintro - ⟨-, rfl⟩
    exact absurd hzero (by decide)
  · exact fun hdiv' => absurd hdiv' hdiv

/-- The result is the exact value of a defined operation if and only if that does not overflow. -/
theorem exact_iff (ha : IsLong a) (hb : IsLong b)
    (h : computeOp op (.ofInt a) (.ofInt b) = some r) :
    r.toInt = exactValue op a b ∧ Defined op a b ↔ Fits op a b := by
  obtain ⟨hvalue, hop, hzero⟩ := computeOp_toInt ha hb h
  have hfits : Fits op a b ↔ IsLong (exactValue op a b) := by
    rcases hop with rfl | rfl | rfl | rfl
    · rfl
    · rfl
    · rfl
    · have hquot := isLong_tdiv_iff ha (hzero rfl)
      simpa [Fits, exactValue] using hquot.symm
  rw [hvalue, hfits, Defined, bmod_eq_self_iff]
  exact ⟨fun hexact => hexact.1, fun hlong => ⟨hlong, hzero, hlong⟩⟩

end Compute

open Compute

/-- **An expression is evaluated exactly if and only if its operation does not overflow.** -/
theorem compute_exact_iff (expr : CString) :
    (∀ r a op b, computeEval expr = some r → computeRead expr = some (a, op, b) →
      r.toInt = exactValue op a b ∧ Defined op a b) ↔
    ∀ a op b, computeRead expr = some (a, op, b) → Fits op a b := by
  rw [computeEval_eq]
  constructor
  · intro hexact a op b hread
    obtain ⟨ha, hb⟩ := computeRead_isLong hread
    rw [hread] at hexact
    cases hop : computeOp op (.ofInt a) (.ofInt b) with
    | none => exact fits_of_computeOp hb hop
    | some r => exact (exact_iff ha hb hop).1 (hexact r a op b hop rfl)
  · intro hfits r a op b heval hread
    obtain ⟨ha, hb⟩ := computeRead_isLong hread
    rw [hread] at heval
    exact (exact_iff ha hb heval).2 (hfits a op b hread)

/-- One more than the largest `long` is answered with the least. -/
theorem compute_wraps : ∃ r a op b,
    computeEval (ascii "9223372036854775807+1") = some r ∧
      computeRead (ascii "9223372036854775807+1") = some (a, op, b) ∧
      r.toInt = -2 ^ 63 ∧ exactValue op a b = 2 ^ 63 ∧ ¬Defined op a b :=
  ⟨.ofInt (-2 ^ 63), 2 ^ 63 - 1, 43, 1, by decide +kernel, by decide +kernel, by decide, by decide,
    fun h => absurd h.2 (by decide)⟩

end LinquUb
