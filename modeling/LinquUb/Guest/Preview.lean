import LinquUb.Qemu.Codec

/-!
# The probe's view of a completion

`decode_completion_preview` of `probe.c` reads a completion slot at fixed offsets.  The device puts
the task and the code of a failure between the fields, so that these offsets are right only for some
completions.

* `take_append_eq_iff` : a list in front of which another one changes nothing repeats that one;
* `decodeCompletionPreview_layout` : what is read behind the operation id;
* `preview_exact_iff` : **the preview and the counts are those of the completion exactly for the
  completions of `PreviewFits`**.
-/

namespace LinquUb

open Wire (leBytes ofLeBytes ofLeBytes_append ofLeBytes_leBytes)
open Slot

/-- `struct completion_preview`. -/
structure CompletionPreview where
  opId : UInt64
  taskFlag : UInt8
  source : UInt8
  status : UInt8
  finishedAt : UInt64
deriving DecidableEq, Repr

/-- `struct completion_counts`. -/
structure CompletionCounts where
  shmem : UInt64
  dfs : UInt64
  db : UInt64
  success : UInt64
  retryable : UInt64
  fatal : UInt64
deriving DecidableEq, Repr

/-- `decode_completion_preview`.  Numbers are copied as they lie, in a little-endian guest. -/
def decodeCompletionPreview (slot : List UInt8) : Option CompletionPreview :=
  if slot.length < 19 then none
  else some
    { opId := .ofNat (ofLeBytes (slot.take 8))
      taskFlag := slot.getD 8 0
      source := slot.getD 9 0
      status := slot.getD 10 0
      finishedAt := .ofNat (ofLeBytes ((slot.drop 11).take 8)) }

/-- `count_completion`. -/
def countCompletion (preview : CompletionPreview) (counts : CompletionCounts) : CompletionCounts :=
  let counts := match preview.source with
    | 3 => { counts with shmem := counts.shmem + 1 }
    | 4 => { counts with dfs := counts.dfs + 1 }
    | 5 => { counts with db := counts.db + 1 }
    | _ => counts
  match preview.status with
  | 1 => { counts with success := counts.success + 1 }
  | 2 => { counts with retryable := counts.retryable + 1 }
  | 3 => { counts with fatal := counts.fatal + 1 }
  | _ => counts

/-! ### What a completion is -/

/-- The byte of a status. -/
def CompletionStatus.kind : CompletionStatus → UInt8
  | .success => 1
  | .retryableFailure _ => 2
  | .fatalFailure _ => 3

namespace CompletionEvent

/-- The preview that says of a completion what it is. -/
def preview (event : CompletionEvent) : CompletionPreview :=
  { opId := event.opId
    taskFlag := if event.task.isSome then 1 else 0
    source := encodeSource event.source
    status := event.status.kind
    finishedAt := event.finishedAt }

/-- The counts with a completion added under its own source and status. -/
def addTo (event : CompletionEvent) (counts : CompletionCounts) : CompletionCounts where
  shmem := counts.shmem + if event.source = .shmemService then 1 else 0
  dfs := counts.dfs + if event.source = .dfsService then 1 else 0
  db := counts.db + if event.source = .dbService then 1 else 0
  success := counts.success + match event.status with | .success => 1 | _ => 0
  retryable := counts.retryable + match event.status with | .retryableFailure _ => 1 | _ => 0
  fatal := counts.fatal + match event.status with | .fatalFailure _ => 1 | _ => 0

/-- A right preview is counted under the source and the status of the completion. -/
theorem countCompletion_preview (event : CompletionEvent) (counts : CompletionCounts) :
    countCompletion event.preview counts = event.addTo counts := by
  obtain ⟨opId, task, source, status, finishedAt⟩ := event
  cases source <;> cases status <;>
    simp [countCompletion, preview, addTo, encodeSource, CompletionStatus.kind]

end CompletionEvent

/-- What follows the byte of a status. -/
def CompletionStatus.text : CompletionStatus → List UInt8
  | .success => []
  | .retryableFailure code | .fatalFailure code =>
    writeU8 (.ofNat code.utf8ByteSize) ++ asBytes code

/-- The number whose eight bytes are the length and the text of a code, over and over. -/
def codeStamp (code : String) : UInt64 :=
  .ofNat (ofLeBytes ((List.replicate 8
    (writeU8 (.ofNat code.utf8ByteSize) ++ asBytes code)).flatten.take 8))

/-- The completions whose fields lie where the probe looks for them, or that happen to have the
right bytes there: a success without a task; a failure without a task that finished at the stamp of
its code; a completion with a task whose first numbers spell its source, status and finish time. -/
def PreviewFits (event : CompletionEvent) : Prop :=
  match event.task, event.status with
  | none, .success => True
  | none, .retryableFailure code => event.finishedAt = codeStamp code
  | none, .fatalFailure code => event.finishedAt = codeStamp code
  | some task, status =>
    task.logicalSystem.id.toNat = (encodeSource event.source).toNat + 2 ^ 8 * status.kind.toNat +
        2 ^ 16 * (event.finishedAt.toNat % 2 ^ 16) ∧
      (task.coord.levels.get 0).toNat = event.finishedAt.toNat / 2 ^ 16 % 2 ^ 32 ∧
      (task.coord.levels.get 1).toNat % 2 ^ 16 = event.finishedAt.toNat / 2 ^ 48

/-! ### Repeated bytes -/

variable {α : Type} {s x : List α} {n : ℕ}

theorem take_append_take (s x : List α) (n : ℕ) : (s ++ x.take n).take n = (s ++ x).take n := by
  rw [List.take_append, List.take_append, List.take_take, Nat.min_eq_left (Nat.sub_le _ _)]

/-- A list that does not change when `s` is put in front of it is `s` over and over. -/
theorem take_append_eq_iff (hs : s ≠ []) (hx : x.length = n) :
    (s ++ x).take n = x ↔ x = (List.replicate n s).flatten.take n := by
  have hlength : n ≤ (List.replicate n s).flatten.length := by
    rw [List.length_flatten, List.map_replicate, List.sum_replicate_nat]
    exact Nat.le_mul_of_pos_right n (List.length_pos_of_ne_nil hs)
  constructor
  · intro h
    have hrepeat : ∀ m, ((List.replicate m s).flatten ++ x).take n = x := by
      intro m
      induction m with
      | zero => exact List.take_of_length_le hx.le
      | succ m ih =>
        rw [List.replicate_succ, List.flatten_cons, List.append_assoc, ← take_append_take, ih, h]
    rw [← List.take_append_of_le_length hlength, hrepeat]
  · intro h
    have hcycle : s ++ (List.replicate n s).flatten = (List.replicate n s).flatten ++ s := by
      rw [← List.flatten_cons, ← List.replicate_succ, List.replicate_succ', List.flatten_append,
        List.flatten_singleton]
    calc (s ++ x).take n = (s ++ (List.replicate n s).flatten.take n).take n := by rw [← h]
      _ = ((List.replicate n s).flatten ++ s).take n := by rw [take_append_take, hcycle]
      _ = x := by rw [List.take_append_of_le_length hlength, h]

/-! ### Reading at the offsets -/

theorem ofLeBytes_writeU64 (value : UInt64) : ofLeBytes (writeU64 value) = value.toNat :=
  (ofLeBytes_leBytes 8 _).trans (Nat.mod_eq_of_lt value.toNat_lt)

theorem writeU64_ofLeBytes {bytes : List UInt8} (h : bytes.length = 8) :
    writeU64 (.ofNat (ofLeBytes bytes)) = bytes := by
  have hlt := Wire.ofLeBytes_lt bytes
  rw [h] at hlt
  have hvalue : (UInt64.ofNat (ofLeBytes bytes)).toNat = ofLeBytes bytes := by
    rw [UInt64.toNat_ofNat']
    exact Nat.mod_eq_of_lt hlt
  rw [writeU64, hvalue, ← h, Wire.leBytes_ofLeBytes]

/-- What is read from a slot that starts with an operation id. -/
theorem decodeCompletionPreview_layout (opId : UInt64) (flag source status : UInt8)
    {tail : List UInt8} (htail : 8 ≤ tail.length) :
    decodeCompletionPreview (writeU64 opId ++ flag :: source :: status :: tail) =
      some ⟨opId, flag, source, status, .ofNat (ofLeBytes (tail.take 8))⟩ := by
  have hlen : (writeU64 opId).length = 8 := writeU64_length opId
  have hfront : (writeU64 opId ++ [flag, source, status]).length = 11 := by simp
  have hdrop : (writeU64 opId ++ flag :: source :: status :: tail).drop 11 = tail := by
    have hleft : ((writeU64 opId ++ [flag, source, status]) ++ tail).drop 11 = tail :=
      List.drop_left' hfront
    rwa [List.append_assoc] at hleft
  unfold decodeCompletionPreview
  rw [if_neg (by simp; omega), List.take_left' hlen, hdrop, ofLeBytes_writeU64, UInt64.ofNat_toNat]
  simp [List.getD_eq_getElem?_getD, List.getElem?_append_right, hlen]

/-- A finish time is read correctly if its bytes are those that are read. -/
theorem ofLeBytes_take_iff {tail : List UInt8} {finishedAt : UInt64} (htail : 8 ≤ tail.length) :
    UInt64.ofNat (ofLeBytes (tail.take 8)) = finishedAt ↔ tail.take 8 = writeU64 finishedAt := by
  constructor
  · rintro rfl
    exact (writeU64_ofLeBytes (List.length_take_of_le htail)).symm
  · intro h
    rw [h, ofLeBytes_writeU64, UInt64.ofNat_toNat]

/-! ### The layout of a completion -/

variable {event : CompletionEvent} {bytes : List UInt8}

theorem encodeStatus_ok {status : CompletionStatus} {bytes : List UInt8}
    (h : encodeStatus status = .ok bytes) : bytes = status.kind :: status.text := by
  have hstring : ∀ {code : String} {kind : UInt8},
      (do return writeU8 kind ++ (← encodeString code) : Except String _) = .ok bytes →
        bytes = kind :: (writeU8 (.ofNat code.utf8ByteSize) ++ asBytes code) := by
    intro code kind h
    rcases encodeString_cases code with ⟨_, herror⟩ | ⟨_, hok⟩
    · rw [herror] at h
      cases h
    · rw [hok] at h
      cases h
      rfl
  cases status with
  | success =>
    cases h
    rfl
  | retryableFailure code => exact hstring h
  | fatalFailure code => exact hstring h

theorem encodeCompletion_layout {n : ℕ} (h : encodeCompletion event n = .ok bytes) :
    ∃ pad, bytes = writeU64 event.opId ++ (encodeTask event.task ++ encodeSource event.source ::
      event.status.kind :: (event.status.text ++ (writeU64 event.finishedAt ++ pad))) := by
  unfold encodeCompletion CompletionEvent.payload at h
  cases hstatus : encodeStatus event.status with
  | error e =>
    rw [hstatus] at h
    cases h
  | ok status =>
    rw [hstatus] at h
    obtain ⟨-, hbytes⟩ := padSlot_ok_iff.1 h
    rw [encodeStatus_ok hstatus] at hbytes
    simp only [writeU8, List.append_assoc, List.cons_append, List.nil_append] at hbytes
    exact ⟨_, hbytes⟩

/-- The preview of a slot is that of the completion, and so are the counts. -/
def Previewed (event : CompletionEvent) (bytes : List UInt8) : Prop :=
  ∃ preview, decodeCompletionPreview bytes = some preview ∧ preview = event.preview ∧
    ∀ counts, countCompletion preview counts = event.addTo counts

theorem previewed_iff :
    Previewed event bytes ↔ decodeCompletionPreview bytes = some event.preview := by
  constructor
  · rintro ⟨_, h, rfl, -⟩
    exact h
  · intro h
    exact ⟨_, h, rfl, event.countCompletion_preview⟩

/-- A status has a text only if it is a failure, and that is not empty. -/
theorem stamp_iff (status : CompletionStatus) (finishedAt : UInt64) :
    (status.text ++ writeU64 finishedAt).take 8 = writeU64 finishedAt ↔
      match status with
      | .success => True
      | .retryableFailure code => finishedAt = codeStamp code
      | .fatalFailure code => finishedAt = codeStamp code := by
  have hlen := writeU64_length finishedAt
  have hcode : ∀ code : String,
      ((writeU8 (.ofNat code.utf8ByteSize) ++ asBytes code) ++ writeU64 finishedAt).take 8 =
        writeU64 finishedAt ↔ finishedAt = codeStamp code := by
    intro code
    have hlong : 8 ≤ (List.replicate 8
        (writeU8 (.ofNat code.utf8ByteSize) ++ asBytes code)).flatten.length := by
      simp
      omega
    rw [take_append_eq_iff (by simp [writeU8]) hlen, eq_comm, ← ofLeBytes_take_iff hlong, eq_comm]
    rfl
  cases status with
  | success => exact iff_of_true (List.take_of_length_le hlen.le) trivial
  | retryableFailure code => exact hcode code
  | fatalFailure code => exact hcode code

/-- Without a task the finish time is looked for right behind the status. -/
theorem previewed_none_iff (pad : List UInt8) (hnone : event.task = none)
    (hbytes : bytes = writeU64 event.opId ++ (encodeTask event.task ++ encodeSource event.source ::
      event.status.kind :: (event.status.text ++ (writeU64 event.finishedAt ++ pad)))) :
    decodeCompletionPreview bytes = some event.preview ↔ PreviewFits event := by
  have hlen := writeU64_length event.finishedAt
  have htail : 8 ≤ (event.status.text ++ (writeU64 event.finishedAt ++ pad)).length := by
    simp
    omega
  have htake : (event.status.text ++ (writeU64 event.finishedAt ++ pad)).take 8 =
      (event.status.text ++ writeU64 event.finishedAt).take 8 := by
    rw [← List.append_assoc]
    exact List.take_append_of_le_length (by simp)
  have hfits : PreviewFits event ↔ (event.status.text ++ writeU64 event.finishedAt).take 8 =
      writeU64 event.finishedAt := by
    rw [stamp_iff, PreviewFits, hnone]
    cases event.status <;> rfl
  have hfront : bytes = writeU64 event.opId ++ 0 :: encodeSource event.source ::
      event.status.kind :: (event.status.text ++ (writeU64 event.finishedAt ++ pad)) := by
    rw [hbytes, hnone]
    rfl
  rw [hfront, decodeCompletionPreview_layout _ _ _ _ htail, hfits, ← htake,
    ← ofLeBytes_take_iff htail]
  simp [CompletionEvent.preview, hnone]

/-- A task starts with its system and its levels. -/
theorem encodeTask_layout (task : TaskKey) : ∃ more, encodeTask (some task) =
    1 :: (writeU32 task.logicalSystem.id ++ (writeU32 (task.coord.levels.get 0) ++
      (writeU32 (task.coord.levels.get 1) ++ more))) := by
  obtain ⟨l0, rest0, hlevels⟩ := task.coord.levels.exists_eq_cons
  obtain ⟨l1, rest1, rfl⟩ := rest0.exists_eq_cons
  refine ⟨rest1.toList.flatMap writeU32 ++ (writeU32 task.scopeDepth ++ writeU64 task.taskId), ?_⟩
  have hget0 : task.coord.levels.get 0 = l0 := by
    rw [hlevels]
    rfl
  have hget1 : task.coord.levels.get 1 = l1 := by
    rw [hlevels]
    rfl
  rw [hget0, hget1]
  simp [encodeTask, hlevels, writeU8]

/-- With a task the bytes of its first numbers are taken for the rest. -/
theorem previewed_some_iff {task : TaskKey} (rest : List UInt8) (hsome : event.task = some task)
    (hbytes : bytes = writeU64 event.opId ++ (encodeTask event.task ++ rest)) :
    decodeCompletionPreview bytes = some event.preview ↔ PreviewFits event := by
  obtain ⟨more, htask⟩ := encodeTask_layout task
  have hfits : PreviewFits event ↔
      task.logicalSystem.id.toNat = (encodeSource event.source).toNat +
          2 ^ 8 * event.status.kind.toNat + 2 ^ 16 * (event.finishedAt.toNat % 2 ^ 16) ∧
        (task.coord.levels.get 0).toNat = event.finishedAt.toNat / 2 ^ 16 % 2 ^ 32 ∧
        (task.coord.levels.get 1).toNat % 2 ^ 16 = event.finishedAt.toNat / 2 ^ 48 := by
    rw [PreviewFits, hsome]
  rw [hfits]
  generalize task.logicalSystem.id = system, task.coord.levels.get 0 = l0,
    task.coord.levels.get 1 = l1 at htask ⊢
  -- the system gives the source and the status, and its upper half begins the finish time
  have hfront : bytes = writeU64 event.opId ++ 1 :: UInt8.ofNat system.toNat ::
      UInt8.ofNat (system.toNat / 256) :: ((leBytes 2 (system.toNat / 256 / 256) ++
        (writeU32 l0 ++ leBytes 2 l1.toNat)) ++
          (leBytes 2 (l1.toNat / 256 / 256) ++ (more ++ rest))) := by
    rw [hbytes, hsome, htask]
    simp only [List.append_assoc, List.cons_append]
    rfl
  have hfinish : ofLeBytes (leBytes 2 (system.toNat / 256 / 256) ++
      (writeU32 l0 ++ leBytes 2 l1.toNat)) =
        system.toNat / 2 ^ 16 + 2 ^ 16 * l0.toNat + 2 ^ 48 * (l1.toNat % 2 ^ 16) := by
    have hsystem := system.toNat_lt
    have hl0 := l0.toNat_lt
    rw [ofLeBytes_append, ofLeBytes_append, writeU32, ofLeBytes_leBytes, ofLeBytes_leBytes,
      ofLeBytes_leBytes, Wire.leBytes_length, Wire.leBytes_length]
    omega
  rw [hfront, decodeCompletionPreview_layout _ _ _ _ (by simp; omega),
    List.take_left' (by simp), hfinish]
  have hsystem := system.toNat_lt
  have hl0 := l0.toNat_lt
  have hl1 := l1.toNat_lt
  have hsource := (encodeSource event.source).toNat_lt
  have hkind := event.status.kind.toNat_lt
  have hfin := event.finishedAt.toNat_lt
  simp only [CompletionEvent.preview, hsome, Option.isSome_some, if_pos, Option.some.injEq,
    CompletionPreview.mk.injEq, true_and, ← UInt8.toNat_inj, ← UInt64.toNat_inj,
    UInt8.toNat_ofNat', UInt64.toNat_ofNat']
  omega

/-- **A completion is previewed and counted as what it is if and only if its fields fit.** -/
theorem preview_exact_iff {event : CompletionEvent} {n : ℕ} {bytes : List UInt8}
    (h : encodeCompletion event n = .ok bytes) : Previewed event bytes ↔ PreviewFits event := by
  obtain ⟨pad, hbytes⟩ := encodeCompletion_layout h
  rw [previewed_iff]
  cases htask : event.task with
  | none => exact previewed_none_iff pad htask hbytes
  | some task => exact previewed_some_iff _ htask hbytes

/-- A lookup that succeeds is previewed as what it is. -/
theorem preview_exact_lookup :
    let event : CompletionEvent := ⟨3, none, .dbService, .success, 100⟩
    Previewed event (writeU64 3 ++ [0, 5, 1] ++ writeU64 100 ++ List.replicate 45 0) := by
  intro event
  have hencode : encodeCompletion event 64 =
      .ok (writeU64 3 ++ [0, 5, 1] ++ writeU64 100 ++ List.replicate 45 0) := by decide +kernel
  exact (preview_exact_iff hencode).2 trivial

/-- A lookup that fails is previewed with a finish time that is the text of its failure. -/
theorem preview_reads_code :
    let event : CompletionEvent := ⟨3, none, .dbService, .retryableFailure "db_missing_key", 100⟩
    ∃ bytes, encodeCompletion event 64 = .ok bytes ∧ ¬Previewed event bytes ∧
      decodeCompletionPreview bytes = some ⟨3, 0, 5, 2, 0x7373696d5f62640e⟩ := by
  refine ⟨_, rfl, ?_, by decide +kernel⟩
  rintro ⟨preview, h, rfl, -⟩
  exact absurd h (by decide +kernel)

end LinquUb
