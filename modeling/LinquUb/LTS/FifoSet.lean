import Mathlib.Data.List.Nodup
import Mathlib.Order.Lattice.Nat

/-!
# Sets in insertion order

A `FifoSet` holds distinct elements, the oldest first.  A `Cache` of bounded capacity is one
together with what happened to it: its hits and misses, the elements that were evicted on request
and those that were lost because an insertion found it full.

* `FifoSet.length_insert_le`, `FifoSet.mem_insert` : what an insertion guarantees;
* `FifoSet.Cache.run_balanced` : every element that entered is resident, evicted or lost;
* `FifoSet.Cache.run_lost_eq_nil` : **nothing is lost exactly when a cache without a bound would
  never outgrow the capacity**.
-/

namespace LinquUb

structure FifoSet (α : Type) where
  /-- Oldest first. -/
  items : List α
  nodup : items.Nodup

namespace FifoSet

variable {α : Type}

theorem ext {s t : FifoSet α} (h : s.items = t.items) : s = t := by
  cases s
  cases t
  cases h
  rfl

def empty : FifoSet α := ⟨[], .nil⟩

/-- Without the `n` oldest elements. -/
def drop (s : FifoSet α) (n : ℕ) : FifoSet α :=
  ⟨s.items.drop n, s.nodup.sublist (List.drop_sublist n s.items)⟩

theorem drop_zero (s : FifoSet α) : s.drop 0 = s := ext rfl

variable [DecidableEq α]

/-- Enter an element as the youngest, unless it is there. -/
def push (s : FifoSet α) (a : α) : FifoSet α :=
  if h : a ∈ s.items then s
  else ⟨s.items ++ [a], s.nodup.append (List.nodup_singleton a) (by simpa using h)⟩

/-- By how much the set exceeds a capacity. -/
def excess (s : FifoSet α) (capacity : ℕ) : ℕ := s.items.length - capacity

/-- Enter an element and make room for it at the old end. -/
def insert (s : FifoSet α) (capacity : ℕ) (a : α) : FifoSet α :=
  (s.push a).drop ((s.push a).excess capacity)

variable {s : FifoSet α} {a : α} {capacity : ℕ}

theorem push_of_mem (h : a ∈ s.items) : s.push a = s := dif_pos h

theorem push_items_of_not_mem (h : a ∉ s.items) : (s.push a).items = s.items ++ [a] := by
  rw [push, dif_neg h]

theorem length_insert_le : (s.insert capacity a).items.length ≤ capacity := by
  simp only [insert, drop, excess, List.length_drop]
  omega

/-- An insertion that fits loses nothing. -/
theorem insert_of_le (h : (s.push a).items.length ≤ capacity) :
    s.insert capacity a = s.push a := by
  rw [insert, excess, Nat.sub_eq_zero_of_le h, drop_zero]

/-- A new element stays if there can be any. -/
theorem mem_insert (hcapacity : 1 ≤ capacity) (h : a ∉ s.items) :
    a ∈ (s.insert capacity a).items := by
  have hpush := push_items_of_not_mem h
  simp only [insert, drop, excess, hpush, List.length_append, List.length_singleton]
  rw [List.drop_append_of_le_length (by omega)]
  exact List.mem_append_right _ List.mem_cons_self

/-! ### Caches -/

inductive Access (α : Type)
  | touch (a : α)
  | evict (n : ℕ)
deriving DecidableEq

structure Cache (α : Type) where
  resident : FifoSet α
  hits : ℕ
  misses : ℕ
  /-- Evicted on request. -/
  evicted : List α
  /-- Displaced by an insertion. -/
  lost : List α

namespace Cache

def empty : Cache α :=
  { resident := .empty, hits := 0, misses := 0, evicted := [], lost := [] }

def step (capacity : ℕ) (c : Cache α) : Access α → Cache α
  | .touch a =>
    if a ∈ c.resident.items then { c with hits := c.hits + 1 }
    else { c with
      misses := c.misses + 1
      resident := c.resident.insert capacity a
      lost := c.lost ++
        (c.resident.push a).items.take ((c.resident.push a).excess capacity) }
  | .evict n => { c with
      resident := c.resident.drop n
      evicted := c.evicted ++ c.resident.items.take n }

def run (capacity : ℕ) (c : Cache α) (accesses : List (Access α)) : Cache α :=
  accesses.foldl (step capacity) c

variable {c : Cache α} {access : Access α} {accesses : List (Access α)}

theorem step_hit (h : a ∈ c.resident.items) :
    c.step capacity (.touch a) = { c with hits := c.hits + 1 } := if_pos h

theorem step_miss (h : a ∉ c.resident.items) : c.step capacity (.touch a) =
    { c with
      misses := c.misses + 1
      resident := c.resident.insert capacity a
      lost := c.lost ++
        (c.resident.push a).items.take ((c.resident.push a).excess capacity) } := if_neg h

/-- Every element that entered is still there or has left in one of the two ways. -/
def Balanced (c : Cache α) : Prop :=
  c.misses = c.evicted.length + c.lost.length + c.resident.items.length

theorem Balanced.step (h : c.Balanced) : (c.step capacity access).Balanced := by
  unfold Balanced at h ⊢
  cases access with
  | touch a =>
    by_cases hmem : a ∈ c.resident.items
    · rw [step_hit hmem]
      exact h
    · rw [step_miss hmem]
      simp only [insert, drop, excess, push_items_of_not_mem hmem, List.length_append,
        List.length_singleton, List.length_take, List.length_drop]
      omega
  | evict n =>
    simp only [Cache.step, drop, List.length_append, List.length_take, List.length_drop]
    omega

theorem run_balanced (h : c.Balanced) (capacity : ℕ) (accesses : List (Access α)) :
    (c.run capacity accesses).Balanced := by
  induction accesses generalizing c with
  | nil => exact h
  | cons access rest ih => exact ih h.step

theorem lost_step : c.lost <+: (c.step capacity access).lost := by
  cases access with
  | touch a =>
    by_cases hmem : a ∈ c.resident.items
    · rw [step_hit hmem]
    · rw [step_miss hmem]
      exact List.prefix_append _ _
  | evict n => exact List.prefix_rfl

theorem lost_run : c.lost <+: (c.run capacity accesses).lost := by
  induction accesses generalizing c with
  | nil => exact List.prefix_rfl
  | cons access rest ih => exact lost_step.trans ih

end Cache

/-! ### The room that accesses need -/

/-- An access without a bound on the capacity. -/
def grow (s : FifoSet α) : Access α → FifoSet α
  | .touch a => s.push a
  | .evict n => s.drop n

/-- The largest number of elements that are there at the same time. -/
def peak (s : FifoSet α) : List (Access α) → ℕ
  | [] => s.items.length
  | access :: rest => max s.items.length (peak (s.grow access) rest)

variable {access : Access α} {accesses : List (Access α)}

theorem length_le_peak (s : FifoSet α) (accesses : List (Access α)) :
    s.items.length ≤ s.peak accesses := by
  cases accesses with
  | nil => exact Nat.le_refl _
  | cons access rest => exact Nat.le_max_left _ _

namespace Cache

variable {c : Cache α}

/-- Nothing was lost so far: an access either fits and does what it does without a bound, or it
loses an element. -/
theorem step_cases (capacity : ℕ) (access : Access α) (hlost : c.lost = []) :
    ((c.step capacity access).lost = [] ∧
        (c.step capacity access).resident = c.resident.grow access ∧
        (c.resident.items.length ≤ capacity →
          (c.resident.grow access).items.length ≤ capacity)) ∨
      ((c.step capacity access).lost ≠ [] ∧
        capacity < (c.resident.grow access).items.length) := by
  cases access with
  | touch a =>
    by_cases hmem : a ∈ c.resident.items
    · refine .inl ⟨?_, ?_, ?_⟩
      · rw [step_hit hmem]
        exact hlost
      · rw [step_hit hmem, grow, push_of_mem hmem]
      · rw [grow, push_of_mem hmem]
        exact id
    · rw [step_miss hmem, grow]
      by_cases hfits : (c.resident.push a).items.length ≤ capacity
      · refine .inl ⟨?_, insert_of_le hfits, fun _ => hfits⟩
        simp only [hlost, excess, Nat.sub_eq_zero_of_le hfits, List.take_zero, List.append_nil]
      · refine .inr ⟨fun hnil => ?_, by omega⟩
        have htaken := congrArg List.length hnil
        simp only [excess, List.length_append, List.length_take, List.length_nil] at htaken
        omega
  | evict n =>
    refine .inl ⟨hlost, rfl, fun hle => ?_⟩
    simp only [grow, drop, List.length_drop]
    omega

/-- **When nothing is lost.** -/
theorem run_lost_eq_nil (hlost : c.lost = []) (hle : c.resident.items.length ≤ capacity)
    (accesses : List (Access α)) :
    (c.run capacity accesses).lost = [] ↔ c.resident.peak accesses ≤ capacity := by
  induction accesses generalizing c with
  | nil => exact ⟨fun _ => hle, fun _ => hlost⟩
  | cons access rest ih =>
    have hpeak : c.resident.peak (access :: rest) =
        max c.resident.items.length ((c.resident.grow access).peak rest) := rfl
    rw [show c.run capacity (access :: rest) = (c.step capacity access).run capacity rest from rfl,
      hpeak, Nat.max_le]
    rcases step_cases capacity access hlost with
      ⟨hnil, hresident, hkeep⟩ | ⟨hlosing, hexceeds⟩
    · rw [ih hnil (hresident ▸ hkeep hle), hresident]
      exact ⟨fun h => ⟨hle, h⟩, fun h => h.2⟩
    · constructor
      · intro hnil
        exact absurd (List.prefix_nil.1 (hnil ▸ lost_run)) hlosing
      · rintro ⟨-, hrest⟩
        have := length_le_peak (c.resident.grow access) rest
        omega

end Cache

end FifoSet

end LinquUb
