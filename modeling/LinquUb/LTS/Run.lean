import Mathlib.Logic.Function.Iterate
import Mathlib.Logic.Relation

/-!
# Runs of step functions and step relations

A partial step function `step : σ → ι → Option σ` consumes one input at a time (`none` is an
abort); `run` feeds it a list of inputs.

* `run_invariant` : **a property that every step keeps holds after every run**;
* `EveryStep.invariant` : the same for the runs whose steps have a property;
* `everyStep_congr`, `everyStep_iff` : what two properties of single steps say about whole runs;
* `EveryCall` : a property of the inputs of a run, the one that aborts it included;
* `steps_invariant` : the invariant of the reachable states of a step relation;
* `Leads next Q s` : a total step function comes from `s` to a state with `Q`.
-/

namespace LinquUb

namespace LTS

variable {σ ι : Type}

/-- The state after the inputs in order, unless some step aborts. -/
def run (step : σ → ι → Option σ) (s : σ) : List ι → Option σ
  | [] => some s
  | i :: is => (step s i).bind fun s' => run step s' is

/-- Every step from a state with `P` ends in a state with `P`. -/
def Keeps (step : σ → ι → Option σ) (P : σ → Prop) : Prop :=
  ∀ s i s', P s → step s i = some s' → P s'

variable {step : σ → ι → Option σ} {P : σ → Prop}

theorem run_cons_eq_some {s t : σ} {i : ι} {is : List ι} :
    run step s (i :: is) = some t ↔ ∃ s', step s i = some s' ∧ run step s' is = some t := by
  simp [run, Option.bind_eq_some_iff]

theorem run_invariant (hstep : Keeps step P) {s t : σ} {is : List ι} (hs : P s)
    (h : run step s is = some t) : P t := by
  induction is generalizing s with
  | nil => exact Option.some.inj h ▸ hs
  | cons i is ih =>
    obtain ⟨s', hi, hrest⟩ := run_cons_eq_some.1 h
    exact ih (hstep s i s' hs hi) hrest

/-- Every step of a run satisfies `Q`, as far as the run gets. -/
def EveryStep (step : σ → ι → Option σ) (Q : σ → ι → σ → Prop) : σ → List ι → Prop
  | _, [] => True
  | s, i :: is => ∀ s', step s i = some s' → Q s i s' ∧ EveryStep step Q s' is

instance EveryStep.decidable {Q : σ → ι → σ → Prop} [∀ s i s', Decidable (Q s i s')] :
    ∀ s is, Decidable (EveryStep step Q s is)
  | _, [] => .isTrue trivial
  | s, i :: is =>
    match hi : step s i with
    | none => .isTrue fun _ h => (Option.some_ne_none _ (h.symm.trans hi)).elim
    | some s' =>
      have := decidable (Q := Q) s' is
      decidable_of_iff (Q s i s' ∧ EveryStep step Q s' is)
        ⟨fun h _ hs => Option.some.inj (hi.symm.trans hs) ▸ h, fun h => h s' hi⟩

theorem EveryStep.get {Q : σ → ι → σ → Prop} {s : σ} {i : ι} {is : List ι}
    (h : EveryStep step Q s (i :: is)) (hi : (step s i).isSome = true) :
    Q s i ((step s i).get hi) ∧ EveryStep step Q ((step s i).get hi) is :=
  h _ (Option.some_get hi).symm

/-- A property that every step of the run keeps. -/
theorem EveryStep.invariant {Q : σ → ι → σ → Prop} {s t : σ} {is : List ι}
    (h : EveryStep step Q s is) (hstep : ∀ s i s', P s → step s i = some s' → Q s i s' → P s')
    (hs : P s) (hrun : run step s is = some t) : P t := by
  induction is generalizing s with
  | nil => exact Option.some.inj hrun ▸ hs
  | cons i is ih =>
    obtain ⟨s', hi, hrest⟩ := run_cons_eq_some.1 hrun
    obtain ⟨hq, hothers⟩ := h s' hi
    exact ih hothers (hstep s i s' hs hi hq) hrest

/-- The invariant may depend on the property that is characterised. -/
theorem everyStep_congr {Q R : σ → ι → σ → Prop}
    (h : ∀ s i s', P s → step s i = some s' → (Q s i s' ↔ R s i s') ∧ (Q s i s' → P s')) {s : σ}
    (hs : P s) (is : List ι) : EveryStep step Q s is ↔ EveryStep step R s is := by
  induction is generalizing s with
  | nil => exact Iff.rfl
  | cons i is ih =>
    refine forall_congr' fun s' => imp_congr_right fun hi => ?_
    obtain ⟨hiff, hkeep⟩ := h s i s' hs hi
    constructor
    · rintro ⟨hq, hrest⟩
      exact ⟨hiff.1 hq, (ih (hkeep hq)).1 hrest⟩
    · rintro ⟨hr, hrest⟩
      exact ⟨hiff.2 hr, (ih (hkeep (hiff.2 hr))).2 hrest⟩

theorem everyStep_iff {Q R : σ → ι → σ → Prop} (hstep : Keeps step P)
    (h : ∀ s i s', P s → step s i = some s' → (Q s i s' ↔ R s i s')) {s : σ} (hs : P s)
    (is : List ι) : EveryStep step Q s is ↔ EveryStep step R s is :=
  everyStep_congr (fun s i s' hs hi => ⟨h s i s' hs hi, fun _ => hstep s i s' hs hi⟩) hs is

/-- Every input of a run satisfies `Q` in the state that it meets, as far as the run gets. -/
def EveryCall (step : σ → ι → Option σ) (Q : σ → ι → Prop) : σ → List ι → Prop
  | _, [] => True
  | s, i :: is => Q s i ∧ ∀ s', step s i = some s' → EveryCall step Q s' is

theorem everyCall_iff {Q R : σ → ι → Prop} (hstep : Keeps step P)
    (h : ∀ s i, P s → (Q s i ↔ R s i)) {s : σ} (hs : P s) (is : List ι) :
    EveryCall step Q s is ↔ EveryCall step R s is := by
  induction is generalizing s with
  | nil => exact Iff.rfl
  | cons i is ih =>
    exact and_congr (h s i hs) (forall_congr' fun s' => imp_congr_right fun hi =>
      ih (hstep s i s' hs hi))

/-- The inputs of a run keep the property and with it give `Q`. -/
theorem everyCall_of {Q : σ → ι → Prop} {is : List ι}
    (hstep : ∀ s, ∀ i ∈ is, ∀ s', P s → step s i = some s' → P s') (h : ∀ s, ∀ i ∈ is, P s → Q s i)
    {s : σ} (hs : P s) : EveryCall step Q s is := by
  induction is generalizing s with
  | nil => trivial
  | cons i is ih =>
    refine ⟨h s i List.mem_cons_self hs, fun s' hi => ?_⟩
    exact ih (fun s i hmem => hstep s i (List.mem_cons_of_mem _ hmem))
      (fun s i hmem => h s i (List.mem_cons_of_mem _ hmem)) (hstep s i List.mem_cons_self s' hs hi)

/-- A property of the reachable states of a step relation. -/
theorem steps_invariant {R : σ → σ → Prop} (hstep : ∀ s s', P s → R s s' → P s') {s t : σ}
    (hs : P s) (h : Relation.ReflTransGen R s t) : P t := by
  induction h with
  | refl => exact hs
  | tail _ hlast ih => exact hstep _ _ ih hlast

/-! ### Step functions that do not abort -/

variable {next : σ → σ} {Q : σ → Prop} {s : σ}

/-- After some number of steps `Q` holds. -/
def Leads (next : σ → σ) (Q : σ → Prop) (s : σ) : Prop := ∃ n, Q (next^[n] s)

theorem Leads.here (h : Q s) : Leads next Q s := ⟨0, h⟩

theorem Leads.succ (h : Leads next Q (next s)) : Leads next Q s := by
  obtain ⟨n, hn⟩ := h
  exact ⟨n + 1, hn⟩

theorem Leads.trans (h : Leads next P s) (hPQ : ∀ t, P t → Leads next Q t) : Leads next Q s := by
  obtain ⟨n, hn⟩ := h
  obtain ⟨m, hm⟩ := hPQ _ hn
  refine ⟨m + n, ?_⟩
  rwa [Function.iterate_add_apply]

end LTS

end LinquUb
