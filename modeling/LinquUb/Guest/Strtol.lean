import LinquUb.Guest.RpcMessage
import Mathlib.Data.List.TakeWhile

/-!
# Numbers in the text of the guest programs

`strtol(p, &end, 10)` skips blanks, takes a sign and then as many digits as there are.

* `Numeral` : a number as it can be written;
* `strtol_eq_some_iff` : **`strtol` reads a number exactly if one is written there**.
-/

namespace LinquUb

/-- The value fits into a `long`. -/
def IsLong (n : ℤ) : Prop := -2 ^ 63 ≤ n ∧ n < 2 ^ 63

instance (n : ℤ) : Decidable (IsLong n) := inferInstanceAs (Decidable (_ ∧ _))

/-- The value of a string of digits. -/
def digitsValue (digits : CString) : ℤ := digits.foldl (fun n d => 10 * n + (d.toNat - 48)) 0

/-- The sign in front of the digits of a number. -/
def IsSign (negative : Bool) (sign : CString) : Prop :=
  if negative then sign = [45] else sign = [] ∨ sign = [43]

/-- A number as it can be written: blanks, a sign and digits. -/
structure Numeral (text : CString) (n : ℤ) : Prop where
  written : ∃ blanks negative sign digits, text = blanks ++ (sign ++ digits) ∧
    (∀ c ∈ blanks, isSpace c = true) ∧ IsSign negative sign ∧
    (∀ c ∈ digits, isDigit c = true) ∧ digits ≠ [] ∧
    n = if negative then -digitsValue digits else digitsValue digits
  isLong : IsLong n

/-- A digit is neither a blank nor a sign. -/
theorem takeSign_digit {d : UInt8} (hd : isDigit d = true) (p : CString) :
    takeSign ((d :: p).dropWhile isSpace) = (false, d :: p) := by
  simp only [isDigit, decide_eq_true_eq, UInt8.le_iff_toNat_le, UInt8.reduceToNat] at hd
  have hspace : isSpace d = false := by
    simp only [isSpace, decide_eq_false_iff_not, not_or, UInt8.le_iff_toNat_le, UInt8.reduceToNat]
    refine ⟨?_, by omega⟩
    rintro rfl
    exact absurd hd (by decide)
  rw [List.dropWhile_cons_of_neg (by rw [hspace]; decide), takeSign]
  · rintro rest ⟨⟩
    exact absurd hd.1 (by decide)
  · rintro rest ⟨⟩
    exact absurd hd.1 (by decide)

/-- What is taken off is a sign. -/
theorem takeSign_spec (p : CString) :
    ∃ sign, p = sign ++ (takeSign p).2 ∧ IsSign (takeSign p).1 sign := by
  unfold takeSign
  split
  · exact ⟨[45], rfl, rfl⟩
  · exact ⟨[43], rfl, .inr rfl⟩
  · exact ⟨[], rfl, .inl rfl⟩

/-- A sign in front of digits is taken off. -/
theorem takeSign_append {negative : Bool} {sign digits : CString} (hsign : IsSign negative sign)
    (hdigits : ∀ c ∈ digits, isDigit c = true) (hne : digits ≠ []) (rest : CString) :
    takeSign ((sign ++ (digits ++ rest)).dropWhile isSpace) = (negative, digits ++ rest) := by
  obtain ⟨d, ds, rfl⟩ := List.exists_cons_of_ne_nil hne
  have hd := takeSign_digit (hdigits d List.mem_cons_self) (ds ++ rest)
  cases negative with
  | true =>
    obtain rfl : sign = [45] := hsign
    rfl
  | false =>
    obtain rfl | rfl : sign = [] ∨ sign = [43] := hsign
    · exact hd
    · rfl

/-- The digits end where something else begins. -/
theorem span_digits {digits rest : CString} (hdigits : ∀ c ∈ digits, isDigit c = true)
    (hrest : ∀ c ∈ rest.head?, isDigit c = false) :
    (digits ++ rest).takeWhile isDigit = digits ∧ (digits ++ rest).dropWhile isDigit = rest := by
  rw [List.takeWhile_append_of_pos hdigits, List.dropWhile_append_of_pos hdigits]
  cases rest with
  | nil => exact ⟨List.append_nil _, rfl⟩
  | cons c rest =>
    have hc : ¬isDigit c = true := by rw [hrest c rfl]; decide
    rw [List.takeWhile_cons_of_neg hc, List.dropWhile_cons_of_neg hc]
    exact ⟨List.append_nil _, rfl⟩

/-- **What `strtol` reads.** -/
theorem strtol_eq_some_iff {p rest : CString} {n : ℤ} :
    strtol p = some (n, rest) ↔
      ∃ text, Numeral text n ∧ p = text ++ rest ∧ ∀ c ∈ rest.head?, isDigit c = false := by
  constructor
  · intro h
    simp only [strtol, Option.ite_none_left_eq_some, not_or, not_lt, not_le, Option.some.injEq,
      Prod.mk.injEq] at h
    obtain ⟨⟨hne, hrange⟩, rfl, rfl⟩ := h
    obtain ⟨sign, hsplit, hsign⟩ := takeSign_spec (p.dropWhile isSpace)
    generalize takeSign (p.dropWhile isSpace) = taken at *
    refine ⟨p.takeWhile isSpace ++ (sign ++ taken.2.takeWhile isDigit),
      ⟨⟨_, taken.1, sign, _, rfl, fun c hc => List.mem_takeWhile_imp hc, hsign,
        fun c hc => List.mem_takeWhile_imp hc, hne, rfl⟩, hrange⟩, ?_, fun c hc => ?_⟩
    · rw [List.append_assoc, List.append_assoc, List.takeWhile_append_dropWhile, ← hsplit,
        List.takeWhile_append_dropWhile]
    · have hhead := List.head?_dropWhile_not isDigit taken.2
      rw [hc] at hhead
      exact hhead
  · rintro ⟨text, ⟨⟨blanks, negative, sign, digits, rfl, hblanks, hsign, hdigits, hne, rfl⟩, hlong⟩,
      rfl, hrest⟩
    have hsigned : takeSign ((blanks ++ (sign ++ digits) ++ rest).dropWhile isSpace) =
        (negative, digits ++ rest) := by
      rw [List.append_assoc, List.dropWhile_append_of_pos hblanks, List.append_assoc]
      exact takeSign_append hsign hdigits hne rest
    obtain ⟨htake, hdrop⟩ := span_digits hdigits hrest
    simp only [strtol, hsigned, htake, hdrop, Option.ite_none_left_eq_some, not_or, not_lt, not_le]
    exact ⟨⟨hne, hlong⟩, rfl⟩

theorem strtol_isLong {p q : CString} {n : ℤ} (h : strtol p = some (n, q)) : IsLong n := by
  obtain ⟨text, hnumeral, -⟩ := strtol_eq_some_iff.1 h
  exact hnumeral.isLong

end LinquUb
