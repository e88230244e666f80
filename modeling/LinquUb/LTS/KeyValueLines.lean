import Mathlib.Data.List.Basic

/-!
# Lines of keys and values

A program writes a line `key sep value` for each entry, and a shell script reads the lines with
`while IFS=sep read -r key value`.

* `shellLines` : the lines of a text, each of them ended by a newline;
* `readPair` : the key is the text before the first separator, the value is the rest;
* `readPairs_writePairs_iff` : **the entries are read back exactly if each value survives.**

`read` splits a line into fields that the separator *ends*, so a separator that is the only one of
the value and its last character is not part of the value.  A shell variable has no NUL.
-/

namespace LinquUb

namespace LTS

/-- What follows the last newline is not a line. -/
def shellLines : List Char → List (List Char)
  | [] => []
  | c :: text =>
    if c = '\n' then [] :: shellLines text
    else
      match shellLines text with
      | [] => []
      | line :: lines => (c :: line) :: lines

/-- The last variable of `read`. -/
def lastField (sep : Char) (text : List Char) : List Char :=
  if text.idxOf sep + 1 = text.length then text.dropLast else text

def readPair (sep : Char) (line : List Char) : List Char × List Char :=
  let text := line.filter (· ≠ '\x00')
  (text.takeWhile (· ≠ sep), lastField sep (text.dropWhile (· ≠ sep)).tail)

def readPairs (sep : Char) (text : List Char) : List (List Char × List Char) :=
  (shellLines text).map (readPair sep)

def pairLine (sep : Char) (entry : List Char × List Char) : List Char :=
  entry.1 ++ sep :: entry.2

def writePairs (sep : Char) (entries : List (List Char × List Char)) : List Char :=
  entries.flatMap fun entry => pairLine sep entry ++ ['\n']

/-- The value is read back. -/
structure Survives (sep : Char) (value : List Char) : Prop where
  newline : '\n' ∉ value
  nul : '\x00' ∉ value
  sep : value.idxOf sep + 1 ≠ value.length

/-- The key is neither cut nor split. -/
structure PlainKey (sep : Char) (key : List Char) : Prop where
  newline : '\n' ∉ key
  nul : '\x00' ∉ key
  sep : sep ∉ key

variable {sep : Char} {text line value : List Char} {entries : List (List Char × List Char)}

/-! ### Lines -/

theorem shellLines_append (h : '\n' ∉ line) (text : List Char) :
    shellLines (line ++ '\n' :: text) = line :: shellLines text := by
  induction line with
  | nil => rfl
  | cons c line ih =>
    have hc : c ≠ '\n' := fun hc => h (hc ▸ List.mem_cons_self)
    rw [List.cons_append, shellLines, if_neg hc, ih fun hin => h (List.mem_cons_of_mem c hin)]

theorem newline_notMem_shellLines (text : List Char) : ∀ line ∈ shellLines text, '\n' ∉ line := by
  induction text with
  | nil => exact fun line hline => absurd hline List.not_mem_nil
  | cons c text ih =>
    intro line hline
    unfold shellLines at hline
    split_ifs at hline with hc
    · rcases List.mem_cons.1 hline with rfl | hline
      · exact List.not_mem_nil
      · exact ih line hline
    · cases hlines : shellLines text with
      | nil =>
        rw [hlines] at hline
        exact absurd hline List.not_mem_nil
      | cons first lines =>
        rw [hlines] at hline ih
        rcases List.mem_cons.1 hline with rfl | hline
        · intro hin
          rcases List.mem_cons.1 hin with heq | hin
          · exact hc heq.symm
          · exact ih first List.mem_cons_self hin
        · exact ih line (List.mem_cons_of_mem first hline)

/-- Lines without newlines of their own are the lines of the text. -/
theorem shellLines_writePairs (h : ∀ entry ∈ entries, '\n' ∉ pairLine sep entry) :
    shellLines (writePairs sep entries) = entries.map (pairLine sep) := by
  induction entries with
  | nil => rfl
  | cons entry entries ih =>
    rw [writePairs, List.flatMap_cons, List.append_assoc, List.singleton_append,
      shellLines_append (h entry List.mem_cons_self), List.map_cons]
    exact congrArg _ (ih fun e he => h e (List.mem_cons_of_mem entry he))

/-! ### Keys and values -/

theorem mem_of_mem_lastField {c : Char} (h : c ∈ lastField sep text) : c ∈ text := by
  unfold lastField at h
  split_ifs at h
  · exact (List.dropLast_sublist text).mem h
  · exact h

/-- What is read has neither newlines nor NULs. -/
theorem readPair_snd {c : Char} (h : c ∈ (readPair sep line).2) : c ∈ line ∧ c ≠ '\x00' := by
  have hin := (List.dropWhile_sublist _).mem (List.mem_of_mem_tail (mem_of_mem_lastField h))
  rw [List.mem_filter, decide_eq_true_eq] at hin
  exact hin

theorem lastField_eq_self_iff :
    lastField sep value = value ↔ value.idxOf sep + 1 ≠ value.length := by
  unfold lastField
  split_ifs with h
  · refine iff_of_false (fun heq => ?_) (not_not_intro h)
    have hlength := congrArg List.length heq
    rw [List.length_dropLast] at hlength
    omega
  · exact iff_of_true rfl h

/-- The key comes back, and the value up to a separator at its end. -/
theorem readPair_pairLine {key : List Char} (hkey : PlainKey sep key) (hsep : sep ≠ '\x00')
    (hnul : '\x00' ∉ value) : readPair sep (pairLine sep (key, value)) =
      (key, lastField sep value) := by
  have hfilter : (pairLine sep (key, value)).filter (· ≠ '\x00') = key ++ sep :: value := by
    refine List.filter_eq_self.2 fun c hc => decide_eq_true fun hzero => ?_
    subst hzero
    rcases List.mem_append.1 hc with hc | hc
    · exact hkey.nul hc
    · rcases List.mem_cons.1 hc with hc | hc
      · exact hsep hc.symm
      · exact hnul hc
  have hall : ∀ c ∈ key, decide (c ≠ sep) = true :=
    fun c hc => decide_eq_true fun heq => hkey.sep (heq ▸ hc)
  have hstop : decide (sep ≠ sep) = false := decide_eq_false fun h => h rfl
  simp only [readPair, hfilter]
  rw [List.takeWhile_append_of_pos hall, List.dropWhile_append_of_pos hall,
    List.takeWhile_cons_of_neg (by simp), List.dropWhile_cons_of_neg (by simp), List.append_nil]
  rfl

/-- **Reading back.** -/
theorem readPairs_writePairs_iff (hkeys : ∀ entry ∈ entries, PlainKey sep entry.1)
    (hnul : sep ≠ '\x00') (hnewline : sep ≠ '\n') :
    readPairs sep (writePairs sep entries) = entries ↔
      ∀ entry ∈ entries, Survives sep entry.2 := by
  have hread : (∀ entry ∈ entries, '\n' ∉ entry.2 ∧ '\x00' ∉ entry.2) →
      readPairs sep (writePairs sep entries) =
        entries.map fun entry => (entry.1, lastField sep entry.2) := by
    intro hvalues
    have hlines : ∀ entry ∈ entries, '\n' ∉ pairLine sep entry := by
      intro entry hentry hin
      rcases List.mem_append.1 hin with hin | hin
      · exact (hkeys entry hentry).newline hin
      · rcases List.mem_cons.1 hin with hin | hin
        · exact hnewline hin.symm
        · exact (hvalues entry hentry).1 hin
    rw [readPairs, shellLines_writePairs hlines, List.map_map]
    refine List.map_congr_left fun entry hentry => ?_
    exact readPair_pairLine (hkeys entry hentry) hnul (hvalues entry hentry).2
  constructor
  · intro heq
    -- what has been read has no newline and no NUL, so the lines are the entries
    have hvalues : ∀ entry ∈ entries, '\n' ∉ entry.2 ∧ '\x00' ∉ entry.2 := by
      intro entry hentry
      rw [← heq] at hentry
      obtain ⟨line, hline, rfl⟩ := List.mem_map.1 hentry
      exact ⟨fun hin => newline_notMem_shellLines _ line hline (readPair_snd hin).1,
        fun hin => (readPair_snd hin).2 rfl⟩
    rw [hread hvalues] at heq
    intro entry hentry
    have hsame := List.map_inj_left.1 (heq.trans (List.map_id entries).symm) entry hentry
    exact ⟨(hvalues entry hentry).1, (hvalues entry hentry).2,
      lastField_eq_self_iff.1 (congrArg Prod.snd hsame)⟩
  · intro hsurvive
    rw [hread fun entry hentry => ⟨(hsurvive entry hentry).newline, (hsurvive entry hentry).nul⟩]
    refine (List.map_congr_left fun entry hentry => ?_).trans (List.map_id entries)
    exact Prod.ext rfl (lastField_eq_self_iff.2 (hsurvive entry hentry).sep)

end LTS

end LinquUb
