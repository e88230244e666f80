import Mathlib.Data.Finset.Sort
import Mathlib.Data.List.TakeDrop

/-!
# Aligned slots

The slots of an interval `[lo, hi)` are the aligned regions that lie in it: the multiples `a` of
`align` with `lo ≤ a` and `a + align ≤ hi`.

* `slotWalk align hi n cur` : a cursor that takes one slot after the other, at most `n` of them;
* `slotWalk_eq_take` : **it takes the first slots of the interval**, so it misses none.
-/

namespace LinquUb

namespace LTS

/-- The first multiple of `align` from `a` on. -/
def roundUp (align a : ℕ) : ℕ := (a + align - 1) / align * align

def alignedSlots (align lo hi : ℕ) : Finset ℕ :=
  (Finset.range hi).filter fun a => align ∣ a ∧ lo ≤ a ∧ a + align ≤ hi

def slotWalk (align hi : ℕ) : ℕ → ℕ → List ℕ
  | 0, _ => []
  | n + 1, cur =>
    if cur + align ≤ hi then cur :: slotWalk align hi n (roundUp align (cur + align)) else []

variable {align lo hi a b : ℕ}

/-! ### Rounding up -/

theorem dvd_roundUp (align a : ℕ) : align ∣ roundUp align a := Nat.dvd_mul_left align _

theorem le_roundUp (halign : 0 < align) (a : ℕ) : a ≤ roundUp align a := by
  have hdiv := Nat.div_add_mod (a + align - 1) align
  have hmod := Nat.mod_lt (a + align - 1) halign
  rw [Nat.mul_comm] at hdiv
  unfold roundUp
  omega

theorem roundUp_lt (halign : 0 < align) (a : ℕ) : roundUp align a < a + align := by
  have hle := Nat.div_mul_le_self (a + align - 1) align
  unfold roundUp
  omega

/-- Multiples from `a` on are multiples from the rounded `a` on. -/
theorem roundUp_le_iff (halign : 0 < align) (hb : align ∣ b) : roundUp align a ≤ b ↔ a ≤ b := by
  refine ⟨(le_roundUp halign a).trans, fun hab => ?_⟩
  obtain ⟨k, rfl⟩ := hb
  by_contra hlt
  have hnext : align * k + align ≤ roundUp align a := by
    obtain ⟨j, hj⟩ := dvd_roundUp align a
    rw [hj] at hlt ⊢
    have hkj : k < j := Nat.lt_of_mul_lt_mul_left (not_le.1 hlt)
    rw [← Nat.mul_succ]
    exact Nat.mul_le_mul_left align hkj
  have := roundUp_lt halign a
  omega

/-! ### Slots -/

@[simp] theorem mem_alignedSlots (halign : 0 < align) :
    a ∈ alignedSlots align lo hi ↔ align ∣ a ∧ lo ≤ a ∧ a + align ≤ hi := by
  simp only [alignedSlots, Finset.mem_filter, Finset.mem_range, and_iff_right_iff_imp]
  omega

theorem alignedSlots_eq_empty (halign : 0 < align) (h : hi < roundUp align lo + align) :
    alignedSlots align lo hi = ∅ := by
  refine Finset.eq_empty_of_forall_notMem fun a ha => ?_
  obtain ⟨hdvd, hlo, hhi⟩ := (mem_alignedSlots halign).1 ha
  have := (roundUp_le_iff halign hdvd).2 hlo
  omega

/-- Behind the first slot there are the slots of the rest. -/
theorem alignedSlots_eq_insert (halign : 0 < align) (h : roundUp align lo + align ≤ hi) :
    alignedSlots align lo hi =
      insert (roundUp align lo) (alignedSlots align (roundUp align lo + align) hi) := by
  ext a
  rw [Finset.mem_insert, mem_alignedSlots halign, mem_alignedSlots halign]
  constructor
  · rintro ⟨hdvd, hlo, hhi⟩
    rcases eq_or_lt_of_le ((roundUp_le_iff halign hdvd).2 hlo) with heq | hlt
    · exact .inl heq.symm
    · refine .inr ⟨hdvd, ?_, hhi⟩
      have hgap := Nat.le_of_dvd (by omega) (Nat.dvd_sub hdvd (dvd_roundUp align lo))
      omega
  · rintro (rfl | ⟨hdvd, hlo, hhi⟩)
    · exact ⟨dvd_roundUp align lo, le_roundUp halign lo, h⟩
    · have := le_roundUp halign lo
      exact ⟨hdvd, by omega, hhi⟩

/-! ### The walk -/

/-- **The walk takes the first slots.** -/
theorem slotWalk_eq_take (halign : 0 < align) (lo hi n : ℕ) :
    slotWalk align hi n (roundUp align lo) = ((alignedSlots align lo hi).sort (· ≤ ·)).take n := by
  induction n generalizing lo with
  | zero => rfl
  | succ n ih =>
    unfold slotWalk
    split_ifs with hfits
    · have hlower : ∀ b ∈ alignedSlots align (roundUp align lo + align) hi,
          roundUp align lo + align ≤ b := fun b hb => ((mem_alignedSlots halign).1 hb).2.1
      rw [alignedSlots_eq_insert halign hfits, Finset.sort_insert, List.take_succ_cons, ih]
      · exact fun b hb => (Nat.le_add_right _ align).trans (hlower b hb)
      · intro hin
        have := hlower _ hin
        omega
    · rw [alignedSlots_eq_empty halign (by omega), Finset.sort_empty, List.take_nil]

theorem length_slotWalk (halign : 0 < align) (lo hi n : ℕ) :
    (slotWalk align hi n (roundUp align lo)).length = min n (alignedSlots align lo hi).card := by
  rw [slotWalk_eq_take halign, List.length_take, Finset.length_sort]

theorem mem_slotWalk (halign : 0 < align) {n : ℕ}
    (h : a ∈ slotWalk align hi n (roundUp align lo)) : align ∣ a ∧ lo ≤ a ∧ a + align ≤ hi := by
  rw [slotWalk_eq_take halign] at h
  exact (mem_alignedSlots halign).1 ((Finset.mem_sort _).1 (List.mem_of_mem_take h))

/-- The slots that the walk takes do not overlap. -/
theorem pairwise_slotWalk (halign : 0 < align) (lo hi n : ℕ) :
    (slotWalk align hi n (roundUp align lo)).Pairwise fun a b => a + align ≤ b := by
  rw [slotWalk_eq_take halign]
  refine List.Pairwise.sublist (List.take_sublist _ _) ?_
  refine ((alignedSlots align lo hi).sortedLT_sort.pairwise).imp_of_mem fun ha hb hlt => ?_
  obtain ⟨hdvd, -⟩ := (mem_alignedSlots halign).1 ((Finset.mem_sort _).1 ha)
  obtain ⟨hdvd', -⟩ := (mem_alignedSlots halign).1 ((Finset.mem_sort _).1 hb)
  have := Nat.le_of_dvd (by omega) (Nat.dvd_sub hdvd' hdvd)
  omega

end LTS

end LinquUb
