import LinquUb.Guest.ObmmDemo
import LinquUb.LTS.AlignedSlots
import Mathlib.Data.UInt
import Mathlib.Order.CompletePartialOrder
import Mathlib.Order.Interval.Set.Disjoint

/-!
# Addresses for imported regions

`parse_windows` and `allocate_import_pas` of `ub_obmm_pool_demo.c`: the memory windows that the
driver offers are filled with regions of one size, one window after the other.

* `MemWindow.fill` : the loop over one window;
* `allocateImportPas` : the result, with the entries of `pas` and `map_osync` that are written.

How a line of the file is scanned is a parameter (`scan`), and of a line only the fields that the
allocation uses are kept.  No window reaches an address of `2^53`, so nothing wraps around.

* `MemWindow.fill_eq` : the loop is the walk over the aligned slots of the window;
* `allocateImportPas_places` : **the regions lie apart in windows, and there are enough of them
  exactly if enough fit**.
-/

namespace LinquUb

open LTS (alignedSlots roundUp slotWalk)

/-! ### Windows -/

def maxWindows : ℕ := 16

def importAlign : UInt64 := 2 * 1024 * 1024

/-- What `sscanf` reads from a line. -/
structure WindowLine where
  ccBaseMb : UInt64
  ccSizeMb : UInt64
  ncBaseMb : UInt64
  ncSizeMb : UInt64
deriving DecidableEq, Repr

structure MemWindow where
  basePa : UInt64
  sizeBytes : UInt64
  isCacheable : Bool
deriving DecidableEq, Repr

/-- The window that a line offers. -/
def WindowLine.window (line : WindowLine) : MemWindow :=
  if line.ncSizeMb ≠ 0 then
    { basePa := line.ncBaseMb <<< 20, sizeBytes := line.ncSizeMb <<< 20, isCacheable := false }
  else
    { basePa := line.ccBaseMb <<< 20, sizeBytes := line.ccSizeMb <<< 20, isCacheable := true }

section Parsing

variable (scan : String → Option WindowLine)

/-- The loop over the lines. -/
def readWindows : List String → List MemWindow → List MemWindow
  | [], windows => windows
  | line :: lines, windows =>
    match scan line with
    | none => readWindows lines windows
    | some line =>
      if windows.length ≥ maxWindows then windows
      else readWindows lines (windows ++ [line.window])

/-- The file is `none` if it cannot be opened. -/
def parseWindows (file : Option (List String)) : Option (List MemWindow) := do
  let lines ← file
  let windows := readWindows scan lines []
  if windows.length > 0 then some windows else none

/-- The lines of the file that are windows. -/
def windowLines (file : Option (List String)) : List WindowLine := (file.getD []).filterMap scan

end Parsing

/-! ### Allocation -/

def alignUpU64 (v align : UInt64) : UInt64 := (v + align - 1) &&& ~~~(align - 1)

/-- An entry of `pas` and the entry of `map_osync`. -/
structure ImportPa where
  pa : UInt64
  osync : Bool
deriving DecidableEq, Repr

/-- The loop over one window, for at most as many imports as are missing. -/
def MemWindow.fill (w : MemWindow) (sizePerImport : UInt64) : ℕ → UInt64 → List ImportPa
  | 0, _ => []
  | n + 1, cur =>
    if cur + sizePerImport ≤ w.basePa + w.sizeBytes then
      { pa := cur, osync := !w.isCacheable } ::
        w.fill sizePerImport n (alignUpU64 (cur + sizePerImport) importAlign)
    else []

/-- The loop over the windows. -/
def fillWindows (sizePerImport : UInt64) : List MemWindow → ℕ → List ImportPa
  | [], _ => []
  | w :: windows, n =>
    let filled := w.fill sizePerImport n (alignUpU64 w.basePa importAlign)
    filled ++ fillWindows sizePerImport windows (n - filled.length)

def allocateImportPas (scan : String → Option WindowLine) (file : Option (List String))
    (importCount : ℤ) (sizePerImport : UInt64) : Bool × List ImportPa :=
  if importCount ≤ 0 then (true, [])
  else
    match parseWindows scan file with
    | none => (false, [])
    | some windows =>
      let imports := fillWindows sizePerImport windows importCount.toNat
      (imports.length == importCount.toNat, imports)

/-! ### Parsed windows -/

variable {scan : String → Option WindowLine} {w : MemWindow} {windows : List MemWindow}

theorem readWindows_eq (lines : List String) (windows : List MemWindow)
    (hroom : windows.length + (lines.filterMap scan).length ≤ maxWindows) :
    readWindows scan lines windows = windows ++ (lines.filterMap scan).map (·.window) := by
  induction lines generalizing windows with
  | nil => exact (List.append_nil windows).symm
  | cons line lines ih =>
    unfold readWindows
    cases hscan : scan line with
    | none =>
      rw [List.filterMap_cons_none hscan] at hroom ⊢
      exact ih windows hroom
    | some found =>
      rw [List.filterMap_cons_some hscan, List.length_cons] at hroom
      have hfull : ¬ windows.length ≥ maxWindows := by omega
      rw [List.filterMap_cons_some hscan, List.map_cons]
      simp only [if_neg hfull]
      rw [ih, List.append_assoc]
      · rfl
      · rw [List.length_append, List.length_singleton]
        omega

/-- What the file offers, as far as there is room. -/
theorem parseWindows_getD (file : Option (List String))
    (hroom : (windowLines scan file).length ≤ maxWindows) :
    (parseWindows scan file).getD [] = (windowLines scan file).map (·.window) := by
  cases file with
  | none => rfl
  | some lines =>
    have hread : readWindows scan lines [] = (windowLines scan (some lines)).map (·.window) := by
      rw [readWindows_eq lines [] (by rw [List.length_nil, Nat.zero_add]; exact hroom)]
      rfl
    simp only [parseWindows, Option.bind_eq_bind, Option.bind_some, hread]
    split_ifs with hsome
    · rfl
    · exact (List.length_eq_zero_iff.1 (by omega)).symm

/-! ### Addresses as numbers -/

def MemWindow.lo (w : MemWindow) : ℕ := w.basePa.toNat

def MemWindow.hi (w : MemWindow) : ℕ := w.basePa.toNat + w.sizeBytes.toNat

/-- The addresses of the window. -/
def MemWindow.range (w : MemWindow) : Set ℕ := Set.Ico w.lo w.hi

/-- The base and the size of the window are numbers of MiB below `2^32`. -/
def WindowLine.Bounded (line : WindowLine) : Prop :=
  if line.ncSizeMb ≠ 0 then line.ncBaseMb < 2 ^ 32 ∧ line.ncSizeMb < 2 ^ 32
  else line.ccBaseMb < 2 ^ 32 ∧ line.ccSizeMb < 2 ^ 32

theorem toNat_mbToBytes_lt {x : UInt64} (h : x < 2 ^ 32) : (x <<< 20).toNat < 2 ^ 52 := by
  have hx : x.toNat < 2 ^ 32 := UInt64.lt_iff_toNat_lt.1 h
  rw [UInt64.toNat_shiftLeft]
  refine (Nat.mod_le _ _).trans_lt ?_
  rw [show (20 : UInt64).toNat % 64 = 20 from rfl, Nat.shiftLeft_eq]
  omega

theorem WindowLine.Bounded.hi_lt {line : WindowLine} (h : line.Bounded) :
    line.window.hi < 2 ^ 53 := by
  unfold Bounded at h
  unfold MemWindow.hi window
  split_ifs with hnc
  · rw [if_pos hnc] at h
    have hbase := toNat_mbToBytes_lt h.1
    have hsize := toNat_mbToBytes_lt h.2
    dsimp only
    omega
  · rw [if_neg hnc] at h
    have hbase := toNat_mbToBytes_lt h.1
    have hsize := toNat_mbToBytes_lt h.2
    dsimp only
    omega

/-- Clearing the low bits of a number. -/
theorem and_highMask (x : ℕ) (hx : x < 2 ^ 64) : x &&& (2 ^ 64 - 2 ^ 21) = x / 2 ^ 21 * 2 ^ 21 := by
  refine Nat.eq_of_testBit_eq fun i => ?_
  have hmask : (2 ^ 64 - 2 ^ 21) = (2 ^ 43 - 1) * 2 ^ 21 := rfl
  rw [Nat.testBit_and, hmask, Nat.testBit_mul_two_pow, Nat.testBit_mul_two_pow,
    Nat.testBit_div_two_pow, Nat.testBit_two_pow_sub_one]
  by_cases hi : i < 64
  · by_cases hlow : 21 ≤ i
    · have hhigh : i - 21 < 43 := by omega
      simp [hlow, hhigh]
    · simp [hlow]
  · have hbig : x < 2 ^ i := hx.trans_le (Nat.pow_le_pow_right (by omega) (by omega))
    have hlow : 21 ≤ i := by omega
    simp [hlow, Nat.testBit_lt_two_pow hbig]

theorem toNat_alignUpU64 {v : UInt64} (hv : v.toNat < 2 ^ 63) :
    (alignUpU64 v importAlign).toNat = roundUp importAlign.toNat v.toNat := by
  have halign : importAlign.toNat = 2 ^ 21 := rfl
  have hsum : (v + importAlign - 1).toNat = v.toNat + importAlign.toNat - 1 := by
    rw [UInt64.toNat_sub_of_le, UInt64.toNat_add, halign, Nat.mod_eq_of_lt (by omega)]
    · rfl
    · rw [UInt64.le_iff_toNat_le, UInt64.toNat_add, halign, Nat.mod_eq_of_lt (by omega)]
      exact le_trans (by decide) (Nat.le_add_left _ _)
  have hmask : (~~~(importAlign - 1) : UInt64).toNat = 2 ^ 64 - 2 ^ 21 := rfl
  rw [alignUpU64, UInt64.toNat_and, hsum, hmask, and_highMask _ (by omega)]
  rfl

/-! ### One window -/

/-- The import at an address of the window. -/
def MemWindow.importAt (w : MemWindow) (a : ℕ) : ImportPa := ⟨.ofNat a, !w.isCacheable⟩

/-- The loop over one window is the walk over its slots. -/
theorem MemWindow.fill_eq (hw : w.hi < 2 ^ 53) (n : ℕ) {cur : UInt64} (hcur : cur.toNat < 2 ^ 54) :
    w.fill exportRegionSize n cur =
      (slotWalk importAlign.toNat w.hi n cur.toNat).map w.importAt := by
  have hsize : exportRegionSize.toNat = 2 ^ 21 := rfl
  have halign : importAlign.toNat = 2 ^ 21 := rfl
  induction n generalizing cur with
  | zero => rfl
  | succ n ih =>
    have hend : (w.basePa + w.sizeBytes).toNat = w.hi := by
      have hlt : w.basePa.toNat + w.sizeBytes.toNat < 2 ^ 64 := hw.trans (by decide)
      rw [UInt64.toNat_add, Nat.mod_eq_of_lt hlt]
      rfl
    have hnext : (cur + exportRegionSize).toNat = cur.toNat + importAlign.toNat := by
      rw [UInt64.toNat_add, hsize, halign, Nat.mod_eq_of_lt (by omega)]
    unfold fill slotWalk
    simp only [UInt64.le_iff_toNat_le, hend, hnext]
    split_ifs with hfits
    · have hround : (alignUpU64 (cur + exportRegionSize) importAlign).toNat =
          roundUp importAlign.toNat (cur.toNat + importAlign.toNat) := by
        rw [toNat_alignUpU64 (by omega), hnext]
      have hlt := LTS.roundUp_lt (by decide : 0 < importAlign.toNat)
        (cur.toNat + importAlign.toNat)
      rw [ih (by omega), hround, List.map_cons, importAt, UInt64.ofNat_toNat]
    · rfl

/-- Every region that is taken from a window, and how many there are. -/
structure Taken (w : MemWindow) (n : ℕ) (filled : List ImportPa) : Prop where
  length : filled.length = min n (alignedSlots importAlign.toNat w.lo w.hi).card
  aligned : ∀ p ∈ filled, importAlign.toNat ∣ p.pa.toNat
  inside : ∀ p ∈ filled, w.lo ≤ p.pa.toNat ∧ p.pa.toNat + exportRegionSize.toNat ≤ w.hi
  osync : ∀ p ∈ filled, p.osync = !w.isCacheable
  apart : filled.Pairwise fun p q => p.pa.toNat + exportRegionSize.toNat ≤ q.pa.toNat

theorem MemWindow.fill_taken (hw : w.hi < 2 ^ 53) (n : ℕ) :
    Taken w n (w.fill exportRegionSize n (alignUpU64 w.basePa importAlign)) := by
  have halign : 0 < importAlign.toNat := by decide
  have hlo : w.basePa.toNat ≤ w.hi := Nat.le_add_right _ _
  have hstart := toNat_alignUpU64 (v := w.basePa) (by omega)
  have hlt := LTS.roundUp_lt halign w.basePa.toNat
  have hcur : (alignUpU64 w.basePa importAlign).toNat < 2 ^ 54 := by
    have hsize : importAlign.toNat = 2 ^ 21 := rfl
    omega
  rw [fill_eq hw n hcur, hstart]
  have hpa : ∀ a ∈ slotWalk importAlign.toNat w.hi n (roundUp importAlign.toNat w.basePa.toNat),
      (w.importAt a).pa.toNat = a := by
    intro a ha
    have hhi := (LTS.mem_slotWalk halign ha).2.2
    exact UInt64.toNat_ofNat_of_lt' (by rw [UInt64.size]; omega)
  refine ⟨?_, ?_, ?_, ?_, ?_⟩
  · rw [List.length_map, LTS.length_slotWalk halign]
    rfl
  · rintro p hp
    obtain ⟨a, ha, rfl⟩ := List.mem_map.1 hp
    rw [hpa a ha]
    exact (LTS.mem_slotWalk halign ha).1
  · rintro p hp
    obtain ⟨a, ha, rfl⟩ := List.mem_map.1 hp
    rw [hpa a ha]
    exact (LTS.mem_slotWalk halign ha).2
  · rintro p hp
    obtain ⟨a, -, rfl⟩ := List.mem_map.1 hp
    rfl
  · rw [List.pairwise_map]
    refine (LTS.pairwise_slotWalk halign _ _ n).imp_of_mem fun ha hb hab => ?_
    rw [hpa _ ha, hpa _ hb]
    exact hab

/-! ### All windows -/

/-- The addresses of an import. -/
def ImportPa.range (p : ImportPa) : Set ℕ :=
  Set.Ico p.pa.toNat (p.pa.toNat + exportRegionSize.toNat)

/-- The import is an aligned region of the window. -/
structure ImportPa.In (p : ImportPa) (w : MemWindow) : Prop where
  aligned : importAlign.toNat ∣ p.pa.toNat
  inside : p.range ⊆ w.range
  osync : p.osync = !w.isCacheable

/-- How many regions fit into the windows. -/
def capacity (windows : List MemWindow) : ℕ :=
  (windows.map fun w => (alignedSlots importAlign.toNat w.lo w.hi).card).sum

theorem Taken.mem_in {n : ℕ} {filled : List ImportPa} (h : Taken w n filled) :
    ∀ p ∈ filled, p.In w := by
  intro p hp
  obtain ⟨hlo, hhi⟩ := h.inside p hp
  exact ⟨h.aligned p hp, Set.Ico_subset_Ico hlo hhi, h.osync p hp⟩

theorem length_fillWindows (hw : ∀ w ∈ windows, w.hi < 2 ^ 53) (n : ℕ) :
    (fillWindows exportRegionSize windows n).length = min n (capacity windows) := by
  induction windows generalizing n with
  | nil => exact (Nat.min_zero n).symm
  | cons w windows ih =>
    have htaken := MemWindow.fill_taken (hw w List.mem_cons_self) n
    have hrest := ih (fun v hv => hw v (List.mem_cons_of_mem w hv))
    simp only [fillWindows, List.length_append, hrest, htaken.length, capacity, List.map_cons,
      List.sum_cons]
    omega

theorem fillWindows_in (hw : ∀ w ∈ windows, w.hi < 2 ^ 53) (n : ℕ) :
    ∀ p ∈ fillWindows exportRegionSize windows n, ∃ w ∈ windows, p.In w := by
  induction windows generalizing n with
  | nil => exact fun p hp => absurd hp List.not_mem_nil
  | cons w windows ih =>
    have htaken := MemWindow.fill_taken (hw w List.mem_cons_self) n
    intro p hp
    rcases List.mem_append.1 hp with hp | hp
    · exact ⟨w, List.mem_cons_self, htaken.mem_in p hp⟩
    · obtain ⟨v, hv, hin⟩ := ih (fun v hv => hw v (List.mem_cons_of_mem w hv)) _ p hp
      exact ⟨v, List.mem_cons_of_mem w hv, hin⟩

theorem fillWindows_disjoint (hw : ∀ w ∈ windows, w.hi < 2 ^ 53)
    (hdisjoint : windows.Pairwise fun v w => Disjoint v.range w.range) (n : ℕ) :
    (fillWindows exportRegionSize windows n).Pairwise fun p q => Disjoint p.range q.range := by
  induction windows generalizing n with
  | nil => exact .nil
  | cons w windows ih =>
    have htaken := MemWindow.fill_taken (hw w List.mem_cons_self) n
    have hrest : ∀ v ∈ windows, v.hi < 2 ^ 53 := fun v hv => hw v (List.mem_cons_of_mem w hv)
    obtain ⟨hfirst, hothers⟩ := List.pairwise_cons.1 hdisjoint
    refine List.pairwise_append.2 ⟨?_, ih hrest hothers _, ?_⟩
    · refine htaken.apart.imp fun {p q} hpq => ?_
      rw [ImportPa.range, ImportPa.range, Set.Ico_disjoint_Ico]
      omega
    · intro p hp q hq
      obtain ⟨v, hv, hin⟩ := fillWindows_in hrest _ q hq
      exact (hfirst v hv).mono (htaken.mem_in p hp).inside hin.inside

/-- What `allocate_import_pas` promises for these windows. -/
structure Allocated (windows : List MemWindow) (importCount : ℤ) (result : Bool × List ImportPa) :
    Prop where
  ok_iff : result.1 = true ↔ importCount ≤ capacity windows
  length : result.1 = true → result.2.length = importCount.toNat
  room : result.2.length ≤ maxNodes
  inside : ∀ p ∈ result.2, ∃ w ∈ windows, p.In w
  disjoint : result.2.Pairwise fun p q => Disjoint p.range q.range

/-- **Allocation.**  The imports are aligned, lie in windows and do not overlap, and there are as
many as were asked for exactly if the windows have room for them. -/
theorem allocateImportPas_places (scan : String → Option WindowLine) (file : Option (List String))
    (importCount : ℤ) (hcount : importCount ≤ maxNodes)
    (hlength : (windowLines scan file).length ≤ maxWindows)
    (hbounded : ∀ line ∈ windowLines scan file, line.Bounded)
    (hdisjoint : ((windowLines scan file).map (·.window)).Pairwise fun v w =>
      Disjoint v.range w.range) :
    Allocated ((windowLines scan file).map (·.window)) importCount
      (allocateImportPas scan file importCount exportRegionSize) := by
  have hwindows := parseWindows_getD file hlength
  have hw : ∀ w ∈ (windowLines scan file).map (·.window), w.hi < 2 ^ 53 := by
    intro w hw
    obtain ⟨line, hline, rfl⟩ := List.mem_map.1 hw
    exact (hbounded line hline).hi_lt
  rw [← hwindows] at hw hdisjoint ⊢
  unfold allocateImportPas
  split_ifs with hpos
  · refine ⟨by simp only [true_iff]; omega, fun _ => ?_, Nat.zero_le _, ?_, .nil⟩
    · exact (Int.toNat_of_nonpos hpos).symm
    · exact fun p hp => absurd hp List.not_mem_nil
  · cases hparse : parseWindows scan file with
    | none =>
      have hcap : capacity (Option.getD none []) = 0 := rfl
      refine ⟨?_, fun h => absurd h Bool.false_ne_true, Nat.zero_le _, ?_, .nil⟩
      · rw [hcap]
        simp only [Bool.false_eq_true, false_iff]
        omega
      · exact fun p hp => absurd hp List.not_mem_nil
    | some windows =>
      rw [hparse, Option.getD_some] at hw hdisjoint
      have hfilled := length_fillWindows hw importCount.toNat
      refine ⟨?_, fun h => beq_iff_eq.1 h, ?_, fillWindows_in hw _,
        fillWindows_disjoint hw hdisjoint _⟩
      · dsimp only
        rw [beq_iff_eq, hfilled, Option.getD_some]
        omega
      · dsimp only
        rw [hfilled]
        omega

/-- A cacheable window of 5 MiB and one of 2 MiB that is not. -/
def twoWindows : List String :=
  ["mar0 decode=0x0 cc_base_mb=0x1 cc_size_mb=0x5 nc_base_mb=0x0 nc_size_mb=0x0\n",
   "mar1 decode=0x1 cc_base_mb=0x0 cc_size_mb=0x0 nc_base_mb=0x8 nc_size_mb=0x2\n"]

def scanTwoWindows (line : String) : Option WindowLine :=
  if line = twoWindows[0] then some ⟨1, 5, 0, 0⟩
  else if line = twoWindows[1] then some ⟨0, 0, 8, 2⟩
  else none

theorem allocateImportPas_places_three :
    (allocateImportPas scanTwoWindows (some twoWindows) 3 exportRegionSize).1 = true ∧
    Allocated ((windowLines scanTwoWindows (some twoWindows)).map (·.window)) 3
      (allocateImportPas scanTwoWindows (some twoWindows) 3 exportRegionSize) := by
  have hlines : windowLines scanTwoWindows (some twoWindows) = [⟨1, 5, 0, 0⟩, ⟨0, 0, 8, 2⟩] := by
    decide +kernel
  refine ⟨by decide +kernel, allocateImportPas_places scanTwoWindows (some twoWindows) 3
    (by decide) ?_ ?_ ?_⟩
  · rw [hlines]
    decide
  · rw [hlines]
    unfold WindowLine.Bounded
    decide
  · rw [hlines, List.map_cons, List.map_singleton, List.pairwise_pair, MemWindow.range,
      MemWindow.range, Set.Ico_disjoint_Ico]
    decide

end LinquUb
