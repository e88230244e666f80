import Mathlib.Data.List.Perm.Basic
import Mathlib.Tactic.SplitIfs

/-!
# Tokens and places

A system holds tokens at places: `held p` lists the tokens at place `p`.

* `Sole held x` : there is one copy of `x` altogether;
* `Moves`, `Adds` : tokens go from one place to another, and a token appears at a place;
* `Accounted` : every token of a list is sole, and no token that counts as new is anywhere;
* `Accounted.moves`, `Accounted.adds`, `Accounted.removes` : **tokens stay accounted for** when
  others move, when a new one is added and when one that is not listed disappears.
-/

namespace LinquUb

namespace Places

variable {π α : Type} [DecidableEq α] {held held' : π → List α} {a b : π} {x y : α} {xs : List α}

/-- One place holds one copy of `x`, and no other place holds any. -/
def Sole (held : π → List α) (x : α) : Prop :=
  ∃ p, (held p).count x = 1 ∧ ∀ p', p' ≠ p → (held p').count x = 0

/-- No place holds a copy of `x`. -/
def Absent (held : π → List α) (x : α) : Prop := ∀ p, (held p).count x = 0

/-- The tokens `xs` go from `a` to `b`. -/
structure Moves (held held' : π → List α) (a b : π) (xs : List α) : Prop where
  ne : a ≠ b
  source : (held' a ++ xs).Perm (held a)
  target : (held' b).Perm (held b ++ xs)
  others : ∀ p, p ≠ a → p ≠ b → held' p = held p

/-- The token `x` appears at `b`. -/
structure Adds (held held' : π → List α) (b : π) (x : α) : Prop where
  target : (held' b).Perm (held b ++ [x])
  others : ∀ p, p ≠ b → held' p = held p

theorem Sole.count_le_one (h : Sole held x) (p : π) : (held p).count x ≤ 1 := by
  obtain ⟨q, hq, hother⟩ := h
  by_cases hp : p = q
  · exact Nat.le_of_eq (hp ▸ hq)
  · rw [hother p hp]
    omega

theorem Sole.moves (h : Sole held x) (hm : Moves held held' a b xs) : Sole held' x := by
  have hsource := hm.source.count_eq x
  have htarget := hm.target.count_eq x
  rw [List.count_append] at hsource htarget
  have hle := h.count_le_one a
  obtain ⟨q, hq, hother⟩ := h
  by_cases hk : xs.count x = 0
  · -- the copy stays where it is
    have hsame : ∀ p, (held' p).count x = (held p).count x := by
      intro p
      by_cases hpa : p = a
      · subst hpa
        omega
      · by_cases hpb : p = b
        · subst hpb
          omega
        · rw [hm.others p hpa hpb]
    exact ⟨q, (hsame q).trans hq, fun p hp => (hsame p).trans (hother p hp)⟩
  · -- the copy that moves is the only one
    have hqa : q = a := by
      by_contra hne
      have hzero := hother a (Ne.symm hne)
      omega
    subst hqa
    have hb := hother b (Ne.symm hm.ne)
    refine ⟨b, by omega, fun p hp => ?_⟩
    by_cases hpq : p = q
    · subst hpq
      omega
    · rw [hm.others p hpq hp]
      exact hother p hpq

theorem Absent.moves (h : Absent held x) (hm : Moves held held' a b xs) : Absent held' x := by
  have hsource := hm.source.count_eq x
  have htarget := hm.target.count_eq x
  rw [List.count_append] at hsource htarget
  have ha := h a
  have hb := h b
  intro p
  by_cases hpa : p = a
  · subst hpa
    omega
  · by_cases hpb : p = b
    · subst hpb
      omega
    · rw [hm.others p hpa hpb]
      exact h p

/-- Other tokens do not notice that `x` appears. -/
theorem Adds.count_of_ne (h : Adds held held' b x) (hne : y ≠ x) (p : π) :
    (held' p).count y = (held p).count y := by
  by_cases hp : p = b
  · subst hp
    rw [h.target.count_eq, List.count_append, List.count_singleton, if_neg (by simpa using hne.symm),
      Nat.add_zero]
  · rw [h.others p hp]

theorem Adds.sole (h : Adds held held' b x) (hx : Absent held x) : Sole held' x := by
  refine ⟨b, ?_, fun p hp => ?_⟩
  · rw [h.target.count_eq, List.count_append, hx b, List.count_singleton_self]
  · rw [h.others p hp]
    exact hx p

/-! ### Accounts -/

/-- Every listed token is sole, and a token that counts as new is nowhere. -/
structure Accounted (held : π → List α) (tokens : List α) (new : α → Prop) : Prop where
  nodup : tokens.Nodup
  sole : ∀ x ∈ tokens, Sole held x
  absent : ∀ x, new x → x ∉ tokens ∧ Absent held x

namespace Accounted

variable {tokens : List α} {new new' : α → Prop}

theorem moves (h : Accounted held tokens new) (hm : Moves held held' a b xs) :
    Accounted held' tokens new :=
  ⟨h.nodup, fun x hx => (h.sole x hx).moves hm,
    fun x hx => ⟨(h.absent x hx).1, (h.absent x hx).2.moves hm⟩⟩

/-- A token that disappears and is not listed is not missed. -/
theorem removes (h : Accounted held tokens new) (hr : Adds held' held a x) (hx : x ∉ tokens) :
    Accounted held' tokens new := by
  refine ⟨h.nodup, fun y hy => ?_, fun y hy => ⟨(h.absent y hy).1, fun p => ?_⟩⟩
  · have hne : y ≠ x := fun heq => hx (heq ▸ hy)
    obtain ⟨p, hp, hother⟩ := h.sole y hy
    exact ⟨p, (hr.count_of_ne hne p).symm.trans hp,
      fun p' hp' => (hr.count_of_ne hne p').symm.trans (hother p' hp')⟩
  · have habsent := (h.absent y hy).2 p
    by_cases hne : y = x
    · subst hne
      by_cases hp : p = a
      · subst hp
        have hcount := hr.target.count_eq y
        rw [List.count_append, List.count_singleton_self] at hcount
        omega
      · rwa [← hr.others p hp]
    · rwa [← hr.count_of_ne hne p]

/-- A new token is listed, or not. -/
theorem adds (h : Accounted held tokens new) (ha : Adds held held' b x) (hx : new x)
    (hnew : ∀ y, new' y → new y ∧ y ≠ x) {tokens' : List α}
    (htokens : tokens' = tokens ++ [x] ∨ tokens' = tokens) : Accounted held' tokens' new' := by
  obtain ⟨hfresh, habsent⟩ := h.absent x hx
  have hsole : ∀ y ∈ tokens, Sole held' y := by
    intro y hy
    have hne : y ≠ x := fun heq => hfresh (heq ▸ hy)
    obtain ⟨p, hp, hother⟩ := h.sole y hy
    exact ⟨p, (ha.count_of_ne hne p).trans hp,
      fun p' hp' => (ha.count_of_ne hne p').trans (hother p' hp')⟩
  have hnone : ∀ y, new' y → Absent held' y := by
    intro y hy p
    rw [ha.count_of_ne (hnew y hy).2]
    exact (h.absent y (hnew y hy).1).2 p
  rcases htokens with rfl | rfl
  · refine ⟨?_, fun y hy => ?_, fun y hy => ⟨fun hmem => ?_, hnone y hy⟩⟩
    · refine List.nodup_append.2 ⟨h.nodup, by simp, fun y hy z hz heq => ?_⟩
      exact hfresh (List.mem_singleton.1 hz ▸ heq ▸ hy)
    · rcases List.mem_append.1 hy with hy | hy
      · exact hsole y hy
      · rw [List.mem_singleton.1 hy]
        exact ha.sole habsent
    · rcases List.mem_append.1 hmem with hmem | hmem
      · exact (h.absent y (hnew y hy).1).1 hmem
      · exact (hnew y hy).2 (List.mem_singleton.1 hmem)
  · exact ⟨h.nodup, hsole, fun y hy => ⟨(h.absent y (hnew y hy).1).1, hnone y hy⟩⟩

end Accounted

end Places

end LinquUb
