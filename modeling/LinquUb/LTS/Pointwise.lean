import Mathlib.Data.List.Forall2
import Mathlib.Data.List.Perm.Basic

/-!
# Updating a table entry by entry

A pass over a table that does the same partial function to every entry is `List.mapM` in `Option`;
it fails as a whole if it fails for one entry.

* `mapM_eq_some_iff` : what a successful pass relates;
* `mapM_bind_mapM` : **two passes are one pass of the composed function**;
* `filterMap_flatMap_of_nodup` : what the entry with a given key contributes to a list to which
  every entry contributes under its own key.
-/

namespace LinquUb

namespace LTS

variable {α β γ κ : Type}

theorem mapM_eq_some_iff {f : α → Option β} {xs : List α} {ys : List β} :
    xs.mapM f = some ys ↔ List.Forall₂ (fun x y => f x = some y) xs ys := by
  induction xs generalizing ys with
  | nil => simp [eq_comm]
  | cons x xs ih =>
    simp only [List.mapM_cons, Option.bind_eq_bind, Option.bind_eq_some_iff, Option.pure_def,
      Option.some.injEq, List.forall₂_cons_left_iff]
    constructor
    · rintro ⟨y, hy, ys', hys, rfl⟩
      exact ⟨y, ys', hy, ih.1 hys, rfl⟩
    · rintro ⟨y, ys', hy, hys, rfl⟩
      exact ⟨y, hy, ys', ih.2 hys, rfl⟩

theorem mapM_some (xs : List α) : xs.mapM some = some xs := by
  induction xs with
  | nil => rfl
  | cons x xs ih => rw [List.mapM_cons, ih]; rfl

/-- A pass fails exactly if it fails for some entry. -/
theorem mapM_ne_none {f : α → Option β} {xs : List α} :
    xs.mapM f ≠ none ↔ ∀ x ∈ xs, f x ≠ none := by
  induction xs with
  | nil => simp
  | cons x xs ih =>
    rw [List.forall_mem_cons, ← ih, List.mapM_cons]
    cases f x <;> cases xs.mapM f <;> simp

theorem mapM_congr {f g : α → Option β} {xs : List α} (h : ∀ x ∈ xs, f x = g x) :
    xs.mapM f = xs.mapM g := by
  induction xs with
  | nil => rfl
  | cons x xs ih =>
    rw [List.mapM_cons, List.mapM_cons, h x List.mem_cons_self,
      ih fun y hy => h y (List.mem_cons_of_mem _ hy)]

theorem mapM_bind_mapM (f : α → Option β) (g : β → Option γ) (xs : List α) :
    (xs.mapM f).bind (·.mapM g) = xs.mapM fun x => (f x).bind g := by
  induction xs with
  | nil => rfl
  | cons x xs ih =>
    rw [List.mapM_cons, List.mapM_cons, ← ih]
    cases hx : f x with
    | none => rfl
    | some y =>
      cases hxs : xs.mapM f with
      | none => cases hy : g y <;> simp [hy]
      | some ys => simp

theorem exists_of_mem_right {R : α → β → Prop} {xs : List α} {ys : List β}
    (h : List.Forall₂ R xs ys) {y : β} (hy : y ∈ ys) : ∃ x ∈ xs, R x y := by
  induction h with
  | nil => cases hy
  | cons hxy _ ih =>
    rcases List.mem_cons.1 hy with rfl | hy
    · exact ⟨_, List.mem_cons_self, hxy⟩
    · obtain ⟨x, hx, hR⟩ := ih hy
      exact ⟨x, List.mem_cons_of_mem _ hx, hR⟩

theorem exists_of_mem_left {R : α → β → Prop} {xs : List α} {ys : List β}
    (h : List.Forall₂ R xs ys) {x : α} (hx : x ∈ xs) : ∃ y ∈ ys, R x y :=
  exists_of_mem_right h.flip hx

theorem map_eq_of_forall₂ {R : α → β → Prop} {f : α → γ} {g : β → γ} {xs : List α} {ys : List β}
    (h : List.Forall₂ R xs ys) (hfg : ∀ x y, R x y → g y = f x) : ys.map g = xs.map f := by
  induction h with
  | nil => rfl
  | cons hxy _ ih => rw [List.map_cons, List.map_cons, hfg _ _ hxy, ih]

/-- Every entry contributes under its own key; read back under one of the keys. -/
theorem filterMap_flatMap_of_nodup {δ : Type} {key : α → κ} {f : α → List β} {read : κ → β → Option δ}
    {xs : List α} (h : (xs.map key).Nodup)
    (hown : ∀ x ∈ xs, ∀ k, k ≠ key x → (f x).filterMap (read k) = []) {x : α} (hx : x ∈ xs) :
    (xs.flatMap f).filterMap (read (key x)) = (f x).filterMap (read (key x)) := by
  induction xs with
  | nil => cases hx
  | cons y ys ih =>
    rw [List.map_cons, List.nodup_cons] at h
    rw [List.flatMap_cons, List.filterMap_append]
    rcases List.mem_cons.1 hx with rfl | hx
    · have hrest : (ys.flatMap f).filterMap (read (key x)) = [] := by
        rw [List.filterMap_flatMap, List.flatMap_eq_nil_iff]
        intro z hz
        refine hown z (List.mem_cons_of_mem _ hz) _ fun he => h.1 ?_
        exact he ▸ List.mem_map_of_mem hz
      rw [hrest, List.append_nil]
    · have hne : key x ≠ key y := fun he => h.1 (he ▸ List.mem_map_of_mem hx)
      rw [hown y List.mem_cons_self _ hne, List.nil_append]
      exact ih h.2 (fun z hz => hown z (List.mem_cons_of_mem _ hz)) hx

end LTS

end LinquUb
