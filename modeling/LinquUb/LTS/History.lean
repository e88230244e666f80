import Mathlib.Data.List.Basic
import Mathlib.Data.List.Induction
import Mathlib.Tactic.SplitIfs

/-!
# Event histories

A history is the list of the events so far, the oldest first.

* `Before e f log` : an `e` stands before every `f`;
* `Before.snoc` : an event that happens later keeps the order;
* `before_of_mem_takeWhile` : reading the order off a given history;
* `append_eq_append_cons` : where an event of a history that has grown stands;
* `latest f log` : what the last event says that `f` reads something from, and `foldl_latest` : a
  state that remembers it.
-/

namespace LinquUb

variable {α : Type} {e f x : α} {log : List α}

def Before (e f : α) (log : List α) : Prop := ∀ pre post, log = pre ++ f :: post → e ∈ pre

theorem before_of_not_mem (h : f ∉ log) : Before e f log := by
  rintro pre post rfl
  simp at h

/-- The order stays if the event that happens is not `f`, or `e` has happened. -/
theorem Before.snoc (h : Before e f log) (hx : x = f → e ∈ log) : Before e f (log ++ [x]) := by
  intro pre post heq
  rcases List.eq_nil_or_concat post with rfl | ⟨post, y, rfl⟩
  · obtain ⟨rfl, hlast⟩ := List.append_inj' heq rfl
    exact hx (List.singleton_inj.1 hlast)
  · rw [List.concat_eq_append, ← List.cons_append, ← List.append_assoc] at heq
    exact h pre post (List.append_inj' heq rfl).1

theorem before_of_mem_takeWhile [DecidableEq α] (h : e ∈ log.takeWhile (· ≠ f)) :
    Before e f log := by
  rintro pre post rfl
  rw [List.takeWhile_append] at h
  split_ifs at h with hall
  · rw [List.takeWhile_cons_of_neg (by simp), List.append_nil] at h
    exact h
  · exact (List.takeWhile_sublist _).subset h

/-- An event of a longer history stands in the old part or in the new one. -/
theorem append_eq_append_cons {xs ys before after : List α} (h : xs ++ ys = before ++ x :: after) :
    (∃ rest, xs = before ++ x :: rest) ∨ ∃ mid, before = xs ++ mid ∧ ys = mid ++ x :: after := by
  rcases List.append_eq_append_iff.1 h with ⟨mid, hbefore, hys⟩ | ⟨rest, hxs, hrest⟩
  · exact .inr ⟨mid, hbefore, hys⟩
  · cases rest with
    | nil => exact .inr ⟨[], by simpa using hxs.symm, by simpa using hrest.symm⟩
    | cons y rest =>
      rw [List.cons_append, List.cons.injEq] at hrest
      exact .inl ⟨rest, hrest.1 ▸ hxs⟩

/-! ### The last word -/

section Latest

variable {β : Type} {g : α → Option β}

def latest (g : α → Option β) (log : List α) : Option β := (log.filterMap g).getLast?

@[simp] theorem latest_nil : latest g [] = none := rfl

theorem latest_snoc : latest g (log ++ [x]) = (g x).or (latest g log) := by
  cases h : g x <;> simp [latest, h]

/-- A part of the state that an event sets or leaves alone is what the last event has set. -/
theorem foldl_latest {σ : Type} {step : σ → α → σ} {get : σ → β}
    (h : ∀ s x, get (step s x) = (g x).getD (get s)) (s : σ) (log : List α) :
    get (log.foldl step s) = (latest g log).getD (get s) := by
  induction log using List.reverseRecOn with
  | nil => rfl
  | append_singleton log x ih =>
    rw [List.foldl_append, latest_snoc]
    cases hx : g x <;> simp [h, hx, ih]

end Latest

end LinquUb
