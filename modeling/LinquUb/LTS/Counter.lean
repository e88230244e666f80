import Mathlib.Algebra.Group.Nat.Defs
import Mathlib.Data.List.Nodup

/-!
# Ids of a wrapping counter

Ids are drawn from a 64-bit counter that wraps around, used up in order, and given back from the
oldest on.  The ids in use are then consecutive, up to the last one drawn (`Consecutive`).

* `Consecutive.snoc` : drawing an id;
* `Consecutive.nodup` : **at most `2 ^ 64` ids in use are pairwise distinct**.
-/

namespace LinquUb

/-- The ids are consecutive and `last` is the last of them. -/
def Consecutive (last : UInt64) : List UInt64 → Prop
  | [] => True
  | id :: ids => id + UInt64.ofNat ids.length = last ∧ Consecutive last ids

namespace Consecutive

variable {last : UInt64} {ids : List UInt64}

theorem snoc (h : Consecutive last ids) : Consecutive (last + 1) (ids ++ [last + 1]) := by
  induction ids with
  | nil => simp [Consecutive]
  | cons id ids ih =>
    obtain ⟨hid, hrest⟩ := h
    refine ⟨?_, ih hrest⟩
    show id + UInt64.ofNat (ids ++ [last + 1]).length = last + 1
    rw [List.length_append, List.length_singleton, UInt64.ofNat_add, ← UInt64.add_assoc, hid]
    rfl

/-- An id in use is behind the last one by less than the number of ids in use. -/
theorem exists_behind (h : Consecutive last ids) {id : UInt64} (hid : id ∈ ids) :
    ∃ k < ids.length, id + UInt64.ofNat k = last := by
  induction ids with
  | nil => cases hid
  | cons id' ids ih =>
    obtain ⟨hlast, hrest⟩ := h
    rcases List.mem_cons.1 hid with rfl | hmem
    · exact ⟨ids.length, by simp, hlast⟩
    · obtain ⟨k, hk, hbehind⟩ := ih hrest hmem
      exact ⟨k, by simp only [List.length_cons]; omega, hbehind⟩

theorem nodup (h : Consecutive last ids) (hlength : ids.length ≤ 2 ^ 64) : ids.Nodup := by
  induction ids with
  | nil => exact List.nodup_nil
  | cons id ids ih =>
    obtain ⟨hlast, hrest⟩ := h
    rw [List.length_cons] at hlength
    refine List.nodup_cons.2 ⟨fun hmem => ?_, ih hrest (by omega)⟩
    -- two distances smaller than `2 ^ 64` from `id` to `last` would differ
    obtain ⟨k, hk, hbehind⟩ := exists_behind hrest hmem
    have heq : UInt64.ofNat k = UInt64.ofNat ids.length :=
      (UInt64.add_right_inj id).1 (hbehind.trans hlast.symm)
    have hnat := congrArg UInt64.toNat heq
    rw [UInt64.toNat_ofNat', UInt64.toNat_ofNat', Nat.mod_eq_of_lt (by omega),
      Nat.mod_eq_of_lt (by omega)] at hnat
    omega

end Consecutive

end LinquUb
