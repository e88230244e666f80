import Mathlib.Data.Nat.ModEq
import Mathlib.Data.List.Nodup
import Mathlib.Data.List.Range

/-!
# Windows of a ring

A ring has `depth` slots.  The slots in use form a window: the `count` slots from `head` on,
continued at slot `0` behind the last one.

* `Window depth head tail count` : `tail` is the slot behind the window;
* `Holds held depth head xs` : the slots from `head` on hold the elements of `xs` in order, where
  `held slot x` says that `slot` holds `x`;
* `slots depth start count` : the slots that a pointer passes.

Entering at the tail and leaving at the head keep both.
-/

namespace LinquUb

namespace LTS

/-- A ring without slots has its head at `0`. -/
structure Window (depth head tail count : ℕ) : Prop where
  head_lt : head < max depth 1
  count_le : count ≤ depth
  tail_eq : (head + count) % depth = tail

/-- How far a pointer goes from one slot to another. -/
def advance (depth start stop : ℕ) : ℕ :=
  if stop ≥ start then stop - start else depth - start + stop

variable {depth head tail count : ℕ}

theorem advance_mod {start stop : ℕ} (hstart : start < depth) (hstop : stop < depth) :
    (start + advance depth start stop) % depth = stop := by
  unfold advance
  split_ifs with h
  · rw [Nat.add_sub_cancel' h, Nat.mod_eq_of_lt hstop]
  · have hsum : start + (depth - start + stop) = stop + depth := by omega
    rw [hsum, Nat.add_mod_right, Nat.mod_eq_of_lt hstop]

/-- Slots at different distances from the head differ, up to one revolution. -/
theorem slot_ne {i j : ℕ} (hij : i < j) (hj : j < depth) :
    (head + i) % depth ≠ (head + j) % depth := by
  intro h
  have hmod : i ≡ j [MOD depth] := Nat.ModEq.add_left_cancel' head h
  rw [Nat.ModEq, Nat.mod_eq_of_lt (hij.trans hj), Nat.mod_eq_of_lt hj] at hmod
  omega

/-- Distances from the next slot. -/
theorem slot_succ (head i : ℕ) : ((head + 1) % depth + i) % depth = (head + (i + 1)) % depth := by
  rw [Nat.mod_add_mod]
  congr 1
  omega

/-- A pointer that has not reached its goal is one slot further away than the next slot. -/
theorem advance_succ {start stop : ℕ} (hstart : start < depth) (hstop : stop < depth)
    (hne : start ≠ stop) : advance depth start stop = advance depth ((start + 1) % depth) stop + 1 := by
  by_cases hwrap : start + 1 = depth
  · rw [hwrap, Nat.mod_self]
    unfold advance
    split_ifs <;> omega
  · rw [Nat.mod_eq_of_lt (by omega)]
    unfold advance
    split_ifs <;> omega

/-- A goal that is not right behind the pointer moves away from it. -/
theorem advance_stop_succ {start stop : ℕ} (hstart : start < depth) (hstop : stop < depth)
    (hne : (stop + 1) % depth ≠ start) :
    advance depth start ((stop + 1) % depth) = advance depth start stop + 1 := by
  by_cases hwrap : stop + 1 = depth
  · rw [hwrap, Nat.mod_self] at hne ⊢
    unfold advance
    split_ifs <;> omega
  · rw [Nat.mod_eq_of_lt (by omega)] at hne ⊢
    unfold advance
    split_ifs <;> omega

/-- A pointer at its goal, or one revolution behind it. -/
theorem advance_eq_zero {start stop : ℕ} (hstart : start < depth) :
    advance depth start stop = 0 ↔ start = stop := by
  unfold advance
  split_ifs <;> omega

theorem advance_self (depth start : ℕ) : advance depth start start = 0 := by
  simp [advance]

theorem advance_lt {start stop : ℕ} (hstart : start < depth) (hstop : stop < depth) :
    advance depth start stop < depth := by
  unfold advance
  split_ifs <;> omega

/-! ### Passing slots -/

def slots (depth start count : ℕ) : List ℕ := (List.range count).map fun i => (start + i) % depth

@[simp] theorem slots_length (depth start count : ℕ) : (slots depth start count).length = count := by
  simp [slots]

@[simp] theorem slots_zero (depth start : ℕ) : slots depth start 0 = [] := rfl

theorem mem_slots {start count slot : ℕ} :
    slot ∈ slots depth start count ↔ ∃ i < count, (start + i) % depth = slot := by
  simp [slots]

theorem slots_add (depth start m n : ℕ) :
    slots depth start (m + n) = slots depth start m ++ slots depth ((start + m) % depth) n := by
  simp [slots, List.range_add, Nat.add_assoc]

theorem slots_succ (depth start count : ℕ) :
    slots depth start (count + 1) = slots depth start count ++ [(start + count) % depth] := by
  simp [slots, List.range_succ]

theorem slots_cons {start : ℕ} (hstart : start < depth) (count : ℕ) :
    slots depth start (count + 1) = start :: slots depth ((start + 1) % depth) count := by
  rw [Nat.add_comm, slots_add, slots_succ, slots_zero, Nat.add_zero, Nat.mod_eq_of_lt hstart]
  rfl

/-- Up to one revolution no slot is passed twice. -/
theorem slots_nodup {start count : ℕ} (hcount : count ≤ depth) : (slots depth start count).Nodup := by
  refine List.Nodup.map_on ?_ List.nodup_range
  intro i hi j hj heq
  rw [List.mem_range] at hi hj
  rcases Nat.lt_trichotomy i j with hlt | rfl | hgt
  · exact absurd heq (slot_ne hlt (by omega))
  · rfl
  · exact absurd heq.symm (slot_ne hgt (by omega))

namespace Window

theorem empty (depth : ℕ) : Window depth 0 0 0 :=
  ⟨by omega, Nat.zero_le _, Nat.zero_mod _⟩

theorem head_lt_depth (h : Window depth head tail count) (hdepth : 0 < depth) : head < depth := by
  have := h.head_lt
  omega

theorem tail_lt (h : Window depth head tail count) (hdepth : 0 < depth) : tail < depth :=
  h.tail_eq ▸ Nat.mod_lt _ hdepth

/-- The tail has the bound of the head. -/
theorem tail_lt_max (h : Window depth head tail count) : tail < max depth 1 := by
  rcases Nat.eq_zero_or_pos depth with rfl | hpos
  · have hcount := Nat.le_zero.1 h.count_le
    rw [← h.tail_eq, hcount, Nat.add_zero, Nat.mod_zero]
    exact h.head_lt
  · exact (h.tail_lt hpos).trans_le (Nat.le_max_left _ _)

theorem enter (h : Window depth head tail count) (hroom : count < depth) :
    Window depth head ((tail + 1) % depth) (count + 1) := by
  refine ⟨h.head_lt, hroom, ?_⟩
  rw [← h.tail_eq, Nat.mod_add_mod]
  rfl

theorem leave (h : Window depth head tail count) (hsome : 0 < count) :
    Window depth ((head + 1) % depth) tail (count - 1) := by
  have hdepth : 0 < depth := hsome.trans_le h.count_le
  refine ⟨(Nat.mod_lt _ hdepth).trans_le (Nat.le_max_left _ _),
    (Nat.sub_le _ _).trans h.count_le, ?_⟩
  rw [slot_succ, Nat.sub_add_cancel hsome, h.tail_eq]

/-- A producer moves the tail on. -/
theorem extend {stop : ℕ} (h : Window depth head tail count) (hstop : stop < depth)
    (hroom : count + advance depth tail stop ≤ depth) :
    Window depth head stop (count + advance depth tail stop) := by
  have hdepth : 0 < depth := Nat.zero_lt_of_lt hstop
  refine ⟨h.head_lt, hroom, ?_⟩
  rw [← Nat.add_assoc, ← Nat.mod_add_mod, h.tail_eq]
  exact advance_mod (h.tail_lt hdepth) hstop

end Window

/-! ### Contents -/

variable {α : Type} {held held' : ℕ → α → Prop} {x : α} {xs : List α}

def Holds (held : ℕ → α → Prop) (depth head : ℕ) (xs : List α) : Prop :=
  ∀ i x, xs[i]? = some x → held ((head + i) % depth) x

namespace Holds

theorem nil : Holds held depth head [] := by
  intro i x h
  cases h

theorem front (h : Holds held depth head (x :: xs)) (hhead : head < depth) : held head x := by
  have hheld := h 0 x rfl
  rwa [Nat.add_zero, Nat.mod_eq_of_lt hhead] at hheld

theorem cons (hhead : head < depth) (hx : held head x)
    (h : Holds held depth ((head + 1) % depth) xs) : Holds held depth head (x :: xs) := by
  intro i y hy
  cases i with
  | zero =>
    rw [Nat.add_zero, Nat.mod_eq_of_lt hhead]
    exact Option.some.inj hy ▸ hx
  | succ i => exact slot_succ head i ▸ h i y hy

theorem mono (h : Holds held depth head xs) (himp : ∀ slot y, held slot y → held' slot y) :
    Holds held' depth head xs :=
  fun i y hy => himp _ _ (h i y hy)

/-- A slot behind the window is written; the slots in the window are not that slot. -/
theorem enter (h : Holds held depth head xs) (hroom : xs.length < depth)
    (hnew : held' ((head + xs.length) % depth) x)
    (hold : ∀ slot y, slot ≠ (head + xs.length) % depth → held slot y → held' slot y) :
    Holds held' depth head (xs ++ [x]) := by
  intro i y hy
  rcases Nat.lt_trichotomy i xs.length with hlt | rfl | hgt
  · rw [List.getElem?_append_left hlt] at hy
    exact hold _ y (slot_ne hlt hroom) (h i y hy)
  · rw [List.getElem?_concat_length] at hy
    exact Option.some.inj hy ▸ hnew
  · have hnone : (xs ++ [x])[i]? = none := by
      rw [List.getElem?_eq_none_iff, List.length_append, List.length_singleton]
      omega
    rw [hnone] at hy
    cases hy

/-- The first slot is given up; the other slots of the window are not that slot. -/
theorem leave (h : Holds held depth head (x :: xs)) (hlen : xs.length < depth)
    (hold : ∀ slot y, slot ≠ head % depth → held slot y → held' slot y) :
    Holds held' depth ((head + 1) % depth) xs := by
  intro i y hy
  have hi : i < xs.length := (List.getElem?_eq_some_iff.1 hy).1
  rw [slot_succ]
  refine hold _ y (fun heq => ?_) (h (i + 1) y hy)
  exact slot_ne (Nat.succ_pos i) (by omega) heq.symm

end Holds

end LTS

end LinquUb
