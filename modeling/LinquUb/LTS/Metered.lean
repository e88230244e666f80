import Mathlib.Logic.Basic
import Mathlib.Data.List.Basic

/-!
# Computations within a budget

A computation that makes objects and counts them, and stops where a count leaves its range.

* `Meters I Fits excess f c c'` : `f` makes a state of count `c'` out of one of count `c` if `c'`
  fits, and stops with `excess` if it does not;
* `Meters.bind`, `Meters.foldlM` : **a sequence and a loop meter the last of their counts**, so that
  whether a program stops is decided by its final count alone;
* `foldlM_agrees` : a loop of computations that agree where they end well.
-/

namespace LinquUb

variable {S C A ε : Type}

def Meters (I : C → S → Prop) (Fits : C → Prop) (excess : ε) (f : S → Except ε S) (c c' : C) :
    Prop :=
  ∀ s, I c s → (Fits c' → ∃ s', f s = .ok s' ∧ I c' s') ∧ (¬ Fits c' → f s = .error excess)

variable {I : C → S → Prop} {Fits : C → Prop} {excess : ε} {f g : S → Except ε S} {c c' c'' : C}

theorem meters_pure (hfits : ∀ s, I c s → Fits c) : Meters I Fits excess (fun s => .ok s) c c :=
  fun s hs => ⟨fun _ => ⟨s, rfl, hs⟩, fun hnot => absurd (hfits s hs) hnot⟩

/-- The later count fits only if the earlier one does. -/
theorem Meters.bind (hf : Meters I Fits excess f c c') (hg : Meters I Fits excess g c' c'')
    (hmono : Fits c'' → Fits c') : Meters I Fits excess (fun s => f s >>= g) c c'' := by
  intro s hs
  obtain ⟨hok, hstop⟩ := hf s hs
  constructor
  · intro hfits
    obtain ⟨s', hfs, hs'⟩ := hok (hmono hfits)
    obtain ⟨s'', hgs, hs''⟩ := (hg s' hs').1 hfits
    refine ⟨s'', ?_, hs''⟩
    show (f s >>= g) = .ok s''
    rw [hfs]
    exact hgs
  · intro hnot
    show (f s >>= g) = .error excess
    by_cases hfits : Fits c'
    · obtain ⟨s', hfs, hs'⟩ := hok hfits
      rw [hfs]
      exact (hg s' hs').2 hnot
    · rw [hstop hfits]
      rfl

theorem fits_of_fits_add (count : ℕ → C) (hmono : ∀ i, Fits (count (i + 1)) → Fits (count i))
    (n : ℕ) (h : Fits (count n)) : Fits (count 0) := by
  induction n with
  | zero => exact h
  | succ n ih => exact ih (hmono n h)

/-- The count after the first `i` rounds is `count i`. -/
theorem Meters.foldlM {f : S → A → Except ε S} {l : List A} (count : ℕ → C)
    (hstep : ∀ i a, l[i]? = some a →
      Meters I Fits excess (fun s => f s a) (count i) (count (i + 1)))
    (hmono : ∀ i, Fits (count (i + 1)) → Fits (count i))
    (hfits : ∀ s i, I (count i) s → Fits (count i)) :
    Meters I Fits excess (fun s => l.foldlM f s) (count 0) (count l.length) := by
  induction l generalizing count with
  | nil => exact meters_pure fun s hs => hfits s 0 hs
  | cons a l ih =>
    have hrest := ih (fun i => count (i + 1)) (fun i a ha => hstep (i + 1) a ha)
      (fun i => hmono (i + 1)) (fun s i => hfits s (i + 1))
    exact (hstep 0 a rfl).bind hrest (fits_of_fits_add (fun i => count (i + 1))
      (fun i => hmono (i + 1)) l.length)

/-- Where the first loop ends well, so does the second, and with the same state. -/
theorem foldlM_agrees {δ : Type} {f : S → A → Except ε S} {g : S → A → Except δ S} {l : List A}
    (h : ∀ s a s', f s a = .ok s' → g s a = .ok s') {s s' : S} (hf : l.foldlM f s = .ok s') :
    l.foldlM g s = .ok s' := by
  induction l generalizing s with
  | nil =>
    cases hf
    rfl
  | cons a l ih =>
    rw [List.foldlM_cons] at hf ⊢
    cases hstep : f s a with
    | error e =>
      rw [hstep] at hf
      cases hf
    | ok t =>
      rw [hstep] at hf
      rw [h s a t hstep]
      exact ih hf

theorem foldl_of_foldlM {f : S → A → Except ε S} {g : S → A → S} {l : List A}
    (h : ∀ s a s', f s a = .ok s' → g s a = s') {s s' : S} (hf : l.foldlM f s = .ok s') :
    l.foldl g s = s' := by
  have hpure := foldlM_agrees (g := fun s a => (.ok (g s a) : Except ε S))
    (fun s a s' hs => congrArg Except.ok (h s a s' hs)) hf
  exact Except.ok.inj (List.foldlM_pure.symm.trans hpure)

theorem except_bind_ok {x : Except ε S} {f : S → Except ε A} {a : A} :
    x >>= f = .ok a ↔ ∃ s, x = .ok s ∧ f s = .ok a := by
  cases x with
  | error e => exact ⟨fun h => (by cases h), fun ⟨s, h, _⟩ => (by cases h)⟩
  | ok s => exact ⟨fun h => ⟨s, rfl, h⟩, fun ⟨_, h, hs⟩ => Except.ok.inj h ▸ hs⟩

end LinquUb
