import LinquUb.Qemu.Codec
import LinquUb.Wire.Cursor

/-!
# Slots from the guest

The decoders as the source has them, on a cursor whose slices and indices are checked.

* `SlotCursor.readU8_agrees`, …, `GuestDescriptor.decodeAt_agrees` : they agree with the readers of
  `Qemu/Types.lean` and never go out of range;
* `Slot.decodeString_ok`, …, `GuestDescriptor.reader_ok` : what was taken is the encoding of what
  was returned;
* `GuestDescriptor.decode_canonical`, `CompletionEvent.completion_codec` : **decoding is total and
  canonical**.
-/

namespace LinquUb

open Wire (Reader Decoder Cursor Agrees agrees_pure agrees_fail agrees_take run_bind_ok
  run_pure_ok run_take_ok run_le_ok)

/-! ### The decoders on a cursor -/

namespace SlotCursor

def take (len : ℕ) : Decoder (List UInt8) := Cursor.take "slot underflow" len

def readU8 : Decoder UInt8 := do
  let bytes ← take 1
  Wire.index bytes 0

def readU32 : Decoder UInt32 := do
  let bytes ← take 4
  let arr ← Wire.copyFromSlice 4 bytes
  return .ofNat (Wire.ofLeBytes arr)

def readU64 : Decoder UInt64 := do
  let bytes ← take 8
  let arr ← Wire.copyFromSlice 8 bytes
  return .ofNat (Wire.ofLeBytes arr)

def decodeString : Decoder String := do
  let len ← readU8
  let bytes ← take len.toNat
  match String.fromUTF8? ⟨bytes.toArray⟩ with
  | some value => return value
  | none => Wire.fail "invalid utf8 in slot"

def decodeOptString : Decoder (Option String) := do
  match ← readU8 with
  | 0 => return none
  | 1 => return some (← decodeString)
  | _ => Wire.fail "invalid optional string flag"

def decodeOptSegment : Decoder (Option SegmentHandle) := do
  match ← readU8 with
  | 0 => return none
  | 1 => return some ⟨← readU64⟩
  | _ => Wire.fail "invalid optional segment flag"

/-- The loop over the levels of a coordinate. -/
def decodeLevels : (n : ℕ) → Decoder (List.Vector UInt32 n)
  | 0 => return .nil
  | n + 1 => do
    let level ← readU32
    let levels ← decodeLevels n
    return level ::ᵥ levels

def decodeTask : Decoder (Option TaskKey) := do
  match ← readU8 with
  | 0 => return none
  | 1 =>
    let logicalSystem ← readU32
    let levels ← decodeLevels 8
    let scopeDepth ← readU32
    let taskId ← readU64
    return some { logicalSystem := ⟨logicalSystem⟩, coord := ⟨levels⟩, scopeDepth, taskId }
  | _ => Wire.fail "invalid task flag"

/-- The result of a table lookup. -/
def ofResult {α : Type} : Except String α → Decoder α
  | .ok value => return value
  | .error message => Wire.fail message

theorem take_agrees (len : ℕ) : Agrees (take len) (Slot.take len) := agrees_take _ len

/-- Taking some bytes and looking at them, where the look cannot fail. -/
theorem agrees_take_map {α : Type} {n : ℕ} {check : List UInt8 → Wire.Decoder α}
    {g : List UInt8 → α} (hcheck : ∀ bytes, bytes.length = n → check bytes = pure (g bytes)) :
    Agrees (take n >>= check) (do return g (← Slot.take n)) := by
  intro c hc
  rcases take_agrees n c hc with ⟨bytes, k, hr, hk, hm⟩ | ⟨message, hr, hm⟩
  · have hlength : bytes.length = n := (run_take_ok hr).2
    refine .inl ⟨g bytes, k, ?_, hk, ?_⟩
    · rw [StateT.run_bind, hr]
      rfl
    · rw [StateT.run_bind, hm]
      show (check bytes).run _ = _
      rw [hcheck bytes hlength]
      rfl
  · exact .inr ⟨message, by rw [StateT.run_bind, hr]; rfl, by rw [StateT.run_bind, hm]; rfl⟩

theorem readU8_agrees : Agrees readU8 Slot.readU8 := by
  refine agrees_take_map fun bytes hlength => ?_
  obtain ⟨b, rfl⟩ := List.length_eq_one_iff.1 hlength
  rfl

theorem readU32_agrees : Agrees readU32 Slot.readU32 := by
  refine agrees_take_map fun bytes hlength => ?_
  rw [Wire.copyFromSlice, if_pos hlength]
  rfl

theorem readU64_agrees : Agrees readU64 Slot.readU64 := by
  refine agrees_take_map fun bytes hlength => ?_
  rw [Wire.copyFromSlice, if_pos hlength]
  rfl

theorem decodeString_agrees : Agrees decodeString Slot.decodeString := by
  refine readU8_agrees.bind fun len => (take_agrees _).bind fun bytes => ?_
  cases String.fromUTF8? ⟨bytes.toArray⟩ with
  | some value => exact agrees_pure value
  | none => exact agrees_fail _

theorem decodeOptString_agrees : Agrees decodeOptString Slot.decodeOptString := by
  refine readU8_agrees.bind fun flag => ?_
  split
  · exact agrees_pure none
  · exact decodeString_agrees.bind fun value => agrees_pure (some value)
  · simp [agrees_fail, *]

theorem decodeOptSegment_agrees : Agrees decodeOptSegment Slot.decodeOptSegment := by
  refine readU8_agrees.bind fun flag => ?_
  split
  · exact agrees_pure none
  · exact readU64_agrees.bind fun id => agrees_pure (some (SegmentHandle.mk id))
  · simp [agrees_fail, *]

theorem decodeLevels_agrees (n : ℕ) : Agrees (decodeLevels n) (Slot.decodeLevels n) := by
  induction n with
  | zero => exact agrees_pure _
  | succ n ih => exact readU32_agrees.bind fun level => ih.bind fun levels => agrees_pure _

theorem decodeTask_agrees : Agrees decodeTask Slot.decodeTask := by
  refine readU8_agrees.bind fun flag => ?_
  split
  · exact agrees_pure none
  · exact readU32_agrees.bind fun logicalSystem => (decodeLevels_agrees 8).bind fun levels =>
      readU32_agrees.bind fun scopeDepth => readU64_agrees.bind fun taskId => agrees_pure _
  · simp [agrees_fail, *]

theorem ofResult_agrees {α : Type} (result : Except String α) :
    Agrees (ofResult result) (liftM result) := by
  cases result with
  | ok value => exact agrees_pure value
  | error message => exact agrees_fail message

end SlotCursor

open SlotCursor

/-- `GuestDescriptor::decode`, from a cursor on. -/
def GuestDescriptor.decodeAt : Decoder GuestDescriptor := do
  match ← readU8 with
  | 1 =>
    let opId ← readU64
    let task ← decodeTask
    let entity ← readU32
    let opcode ← ofResult (decodeOpcode (← readU8))
    let segment ← decodeOptSegment
    let block ← decodeOptString
    return .io { opId, task, entity, opcode, segment, block := block.map .mk }
  | 2 =>
    let task ← decodeTask
    let block ← decodeString
    return .service (.blockWriteback ⟨block⟩ task)
  | 3 =>
    let task ← decodeTask
    let requesterEntity ← readU32
    let segment ← readU64
    let bytes ← readU64
    return .service (.shmemPut { task, requesterEntity, segment := ⟨segment⟩, bytes })
  | 4 =>
    let task ← decodeTask
    let requesterEntity ← readU32
    let segment ← readU64
    let bytes ← readU64
    return .service (.shmemGet { task, requesterEntity, segment := ⟨segment⟩, bytes })
  | 5 =>
    let task ← decodeTask
    let path ← decodeString
    return .service (.dfsRead { task, path })
  | 6 =>
    let task ← decodeTask
    let path ← decodeString
    let bytes ← readU64
    return .service (.dfsWrite { task, path, bytes })
  | 7 =>
    let task ← decodeTask
    let key ← decodeString
    let bytes ← readU64
    return .service (.dbPut { task, key, bytes })
  | 8 =>
    let task ← decodeTask
    let key ← decodeString
    return .service (.dbGet { task, key })
  | _ => Wire.fail "invalid descriptor kind"

theorem GuestDescriptor.decodeAt_agrees : Agrees decodeAt reader := by
  refine readU8_agrees.bind fun kind => ?_
  split
  · exact readU64_agrees.bind fun opId => decodeTask_agrees.bind fun task =>
      readU32_agrees.bind fun entity => readU8_agrees.bind fun byte =>
        (ofResult_agrees (decodeOpcode byte)).bind fun opcode =>
          decodeOptSegment_agrees.bind fun segment => decodeOptString_agrees.bind fun block =>
            agrees_pure _
  · exact decodeTask_agrees.bind fun task => decodeString_agrees.bind fun block => agrees_pure _
  · exact decodeTask_agrees.bind fun task => readU32_agrees.bind fun requester =>
      readU64_agrees.bind fun segment => readU64_agrees.bind fun bytes => agrees_pure _
  · exact decodeTask_agrees.bind fun task => readU32_agrees.bind fun requester =>
      readU64_agrees.bind fun segment => readU64_agrees.bind fun bytes => agrees_pure _
  · exact decodeTask_agrees.bind fun task => decodeString_agrees.bind fun path => agrees_pure _
  · exact decodeTask_agrees.bind fun task => decodeString_agrees.bind fun path =>
      readU64_agrees.bind fun bytes => agrees_pure _
  · exact decodeTask_agrees.bind fun task => decodeString_agrees.bind fun key =>
      readU64_agrees.bind fun bytes => agrees_pure _
  · exact decodeTask_agrees.bind fun task => decodeString_agrees.bind fun key => agrees_pure _
  · simp [agrees_fail, *]

def decodeStatusAt : Decoder CompletionStatus := do
  match ← readU8 with
  | 1 => return .success
  | 2 => return .retryableFailure (← decodeString)
  | 3 => return .fatalFailure (← decodeString)
  | _ => Wire.fail "invalid completion status"

/-- `decode_completion`, from a cursor on. -/
def CompletionEvent.decodeAt : Decoder CompletionEvent := do
  let opId ← readU64
  let task ← decodeTask
  let source ← ofResult (decodeSource (← readU8))
  let status ← decodeStatusAt
  let finishedAt ← readU64
  return { opId, task, source, status, finishedAt }

theorem decodeStatusAt_agrees : Agrees decodeStatusAt decodeStatus := by
  refine readU8_agrees.bind fun kind => ?_
  split
  · exact agrees_pure _
  · exact decodeString_agrees.bind fun code => agrees_pure _
  · exact decodeString_agrees.bind fun code => agrees_pure _
  · simp [agrees_fail, *]

theorem CompletionEvent.decodeAt_agrees : Agrees decodeAt reader :=
  readU64_agrees.bind fun _ => decodeTask_agrees.bind fun _ => readU8_agrees.bind fun byte =>
    (ofResult_agrees (decodeSource byte)).bind fun _ => decodeStatusAt_agrees.bind fun _ =>
      readU64_agrees.bind fun _ => agrees_pure _

/-! ### What was taken -/

namespace Slot

variable {bytes rest : List UInt8}

theorem readU8_ok {value : UInt8} (h : readU8.run bytes = .ok (value, rest)) :
    bytes = writeU8 value ++ rest := by
  obtain ⟨taken, mid, htake, hpure⟩ := run_bind_ok.1 h
  obtain ⟨rfl, rfl⟩ := run_pure_ok.1 hpure
  obtain ⟨rfl, hlength⟩ := run_take_ok htake
  obtain ⟨b, rfl⟩ := List.length_eq_one_iff.1 hlength
  rfl

theorem readU32_ok {value : UInt32} (h : readU32.run bytes = .ok (value, rest)) :
    bytes = writeU32 value ++ rest := by
  obtain ⟨v, hv, rfl, hbytes⟩ := run_le_ok h
  have hlt : v < 2 ^ 32 := hv
  rw [hbytes, writeU32, UInt32.toNat_ofNat', Nat.mod_eq_of_lt hlt]

theorem readU64_ok {value : UInt64} (h : readU64.run bytes = .ok (value, rest)) :
    bytes = writeU64 value ++ rest := by
  obtain ⟨v, hv, rfl, hbytes⟩ := run_le_ok h
  have hlt : v < 2 ^ 64 := hv
  rw [hbytes, writeU64, UInt64.toNat_ofNat', Nat.mod_eq_of_lt hlt]

/-- The bytes of a string that was validated. -/
theorem asBytes_fromUTF8 {taken : List UInt8} {value : String}
    (h : String.fromUTF8? ⟨taken.toArray⟩ = some value) : asBytes value = taken := by
  unfold String.fromUTF8? at h
  split at h
  · cases h
    rfl
  · cases h

theorem decodeString_ok {value : String} (h : decodeString.run bytes = .ok (value, rest)) :
    ∃ front, encodeString value = .ok front ∧ bytes = front ++ rest := by
  obtain ⟨len, mid, hlen, hbody⟩ := run_bind_ok.1 h
  obtain ⟨taken, mid', htake, hvalidate⟩ := run_bind_ok.1 hbody
  obtain rfl := readU8_ok hlen
  obtain ⟨rfl, hlength⟩ := run_take_ok htake
  cases hvalue : String.fromUTF8? ⟨taken.toArray⟩ with
  | none =>
    rw [hvalue] at hvalidate
    cases hvalidate
  | some value' =>
    rw [hvalue] at hvalidate
    obtain ⟨rfl, rfl⟩ := run_pure_ok.1 hvalidate
    have hbytes := asBytes_fromUTF8 hvalue
    have hsize : value'.utf8ByteSize = len.toNat := by
      rw [← asBytes_length, hbytes, hlength]
    have hlt := len.toNat_lt
    refine ⟨writeU8 len ++ taken, ?_, by rw [List.append_assoc]⟩
    rw [encodeString, if_neg (by omega), hsize, hbytes, UInt8.ofNat_toNat]

theorem decodeOptString_ok {value : Option String}
    (h : decodeOptString.run bytes = .ok (value, rest)) :
    ∃ front, encodeOptString value = .ok front ∧ bytes = front ++ rest := by
  obtain ⟨flag, mid, hflag, hbody⟩ := run_bind_ok.1 h
  obtain rfl := readU8_ok hflag
  split at hbody
  · obtain ⟨rfl, rfl⟩ := run_pure_ok.1 hbody
    exact ⟨writeU8 0, rfl, rfl⟩
  · obtain ⟨value', mid', hvalue, hbody⟩ := run_bind_ok.1 hbody
    obtain ⟨rfl, rfl⟩ := run_pure_ok.1 hbody
    obtain ⟨front, hencode, rfl⟩ := decodeString_ok hvalue
    exact ⟨writeU8 1 ++ front, by rw [encodeOptString, hencode]; rfl, by rw [List.append_assoc]⟩
  · cases hbody

theorem decodeOptSegment_ok {segment : Option SegmentHandle}
    (h : decodeOptSegment.run bytes = .ok (segment, rest)) :
    bytes = encodeOptSegment segment ++ rest := by
  obtain ⟨flag, mid, hflag, hbody⟩ := run_bind_ok.1 h
  obtain rfl := readU8_ok hflag
  split at hbody
  · obtain ⟨rfl, rfl⟩ := run_pure_ok.1 hbody
    rfl
  · obtain ⟨id, mid', hid, hbody⟩ := run_bind_ok.1 hbody
    obtain ⟨rfl, rfl⟩ := run_pure_ok.1 hbody
    rw [readU64_ok hid, encodeOptSegment, List.append_assoc]
  · cases hbody

theorem decodeLevels_ok {n : ℕ} {levels : List.Vector UInt32 n}
    (h : (decodeLevels n).run bytes = .ok (levels, rest)) :
    bytes = levels.toList.flatMap writeU32 ++ rest := by
  induction n generalizing bytes with
  | zero =>
    obtain ⟨rfl, rfl⟩ := run_pure_ok.1 h
    rfl
  | succ n ih =>
    obtain ⟨level, mid, hlevel, h⟩ := run_bind_ok.1 h
    obtain ⟨levels', mid', hlevels, h⟩ := run_bind_ok.1 h
    obtain ⟨rfl, rfl⟩ := run_pure_ok.1 h
    rw [readU32_ok hlevel, ih hlevels, List.Vector.toList_cons, List.flatMap_cons, List.append_assoc]

theorem decodeTask_ok {task : Option TaskKey} (h : decodeTask.run bytes = .ok (task, rest)) :
    bytes = encodeTask task ++ rest := by
  obtain ⟨flag, mid, hflag, hbody⟩ := run_bind_ok.1 h
  obtain rfl := readU8_ok hflag
  split at hbody
  · obtain ⟨rfl, rfl⟩ := run_pure_ok.1 hbody
    rfl
  · obtain ⟨logicalSystem, _, hlogical, hbody⟩ := run_bind_ok.1 hbody
    obtain ⟨levels, _, hlevels, hbody⟩ := run_bind_ok.1 hbody
    obtain ⟨scopeDepth, _, hscope, hbody⟩ := run_bind_ok.1 hbody
    obtain ⟨taskId, _, htask, hbody⟩ := run_bind_ok.1 hbody
    obtain ⟨rfl, rfl⟩ := run_pure_ok.1 hbody
    rw [readU32_ok hlogical, decodeLevels_ok hlevels, readU32_ok hscope, readU64_ok htask]
    simp only [encodeTask, List.append_assoc]
  · cases hbody

theorem run_lift_ok {α : Type} {result : Except String α} {a : α}
    (h : (liftM result : Reader α).run bytes = .ok (a, rest)) : result = .ok a ∧ bytes = rest := by
  cases result with
  | error message => cases h
  | ok value =>
    cases h
    exact ⟨rfl, rfl⟩

end Slot

open Slot (readU8_ok readU32_ok readU64_ok decodeString_ok decodeOptString_ok decodeOptSegment_ok
  decodeTask_ok run_lift_ok encodeString writeU8 padSlot)

variable {bytes rest : List UInt8}

theorem encodeOpcode_decodeOpcode {byte : UInt8} {opcode : IoOpcode}
    (h : decodeOpcode byte = .ok opcode) : encodeOpcode opcode = .ok byte := by
  unfold decodeOpcode at h
  split at h <;> cases h <;> rfl

theorem encodeSource_decodeSource {byte : UInt8} {source : CompletionSource}
    (h : decodeSource byte = .ok source) : encodeSource source = byte := by
  unfold decodeSource at h
  split at h <;> cases h <;> rfl

theorem decodeStatus_ok {status : CompletionStatus}
    (h : decodeStatus.run bytes = .ok (status, rest)) :
    ∃ front, encodeStatus status = .ok front ∧ bytes = front ++ rest := by
  obtain ⟨kind, mid, hkind, hbody⟩ := run_bind_ok.1 h
  obtain rfl := readU8_ok hkind
  split at hbody
  · obtain ⟨rfl, rfl⟩ := run_pure_ok.1 hbody
    exact ⟨writeU8 1, rfl, rfl⟩
  · obtain ⟨code, mid', hcode, hbody⟩ := run_bind_ok.1 hbody
    obtain ⟨rfl, rfl⟩ := run_pure_ok.1 hbody
    obtain ⟨front, hencode, rfl⟩ := decodeString_ok hcode
    exact ⟨writeU8 2 ++ front, by rw [encodeStatus, hencode]; rfl, by rw [List.append_assoc]⟩
  · obtain ⟨code, mid', hcode, hbody⟩ := run_bind_ok.1 hbody
    obtain ⟨rfl, rfl⟩ := run_pure_ok.1 hbody
    obtain ⟨front, hencode, rfl⟩ := decodeString_ok hcode
    exact ⟨writeU8 3 ++ front, by rw [encodeStatus, hencode]; rfl, by rw [List.append_assoc]⟩
  · cases hbody

/-- What a completion was read from is its payload. -/
theorem CompletionEvent.reader_ok {event : CompletionEvent}
    (h : reader.run bytes = .ok (event, rest)) :
    ∃ front, event.payload = .ok front ∧ bytes = front ++ rest := by
  obtain ⟨opId, _, hopId, hbody⟩ := run_bind_ok.1 h
  obtain ⟨task, _, htask, hbody⟩ := run_bind_ok.1 hbody
  obtain ⟨byte, _, hbyte, hbody⟩ := run_bind_ok.1 hbody
  obtain ⟨source, _, hsource, hbody⟩ := run_bind_ok.1 hbody
  obtain ⟨status, _, hstatus, hbody⟩ := run_bind_ok.1 hbody
  obtain ⟨finishedAt, _, hfinished, hbody⟩ := run_bind_ok.1 hbody
  obtain ⟨rfl, rfl⟩ := run_pure_ok.1 hbody
  obtain ⟨hdecode, rfl⟩ := run_lift_ok hsource
  obtain ⟨front, hencode, hfront⟩ := decodeStatus_ok hstatus
  refine ⟨_, by rw [payload, hencode]; rfl, ?_⟩
  rw [readU64_ok hopId, decodeTask_ok htask, readU8_ok hbyte, hfront, readU64_ok hfinished,
    encodeSource_decodeSource hdecode]
  simp only [List.append_assoc]

namespace GuestDescriptor

/-- What a descriptor was read from is its payload. -/
theorem reader_ok {d : GuestDescriptor} (h : reader.run bytes = .ok (d, rest)) :
    ∃ front, d.payload = .ok front ∧ bytes = front ++ rest := by
  obtain ⟨kind, mid, hkind, hbody⟩ := run_bind_ok.1 h
  obtain rfl := readU8_ok hkind
  split at hbody
  · obtain ⟨opId, _, hopId, hbody⟩ := run_bind_ok.1 hbody
    obtain ⟨task, _, htask, hbody⟩ := run_bind_ok.1 hbody
    obtain ⟨entity, _, hentity, hbody⟩ := run_bind_ok.1 hbody
    obtain ⟨byte, _, hbyte, hbody⟩ := run_bind_ok.1 hbody
    obtain ⟨opcode, _, hopcode, hbody⟩ := run_bind_ok.1 hbody
    obtain ⟨segment, _, hsegment, hbody⟩ := run_bind_ok.1 hbody
    obtain ⟨block, _, hblock, hbody⟩ := run_bind_ok.1 hbody
    obtain ⟨rfl, rfl⟩ := run_pure_ok.1 hbody
    obtain ⟨hdecode, rfl⟩ := run_lift_ok hopcode
    obtain ⟨front, hencode, hfront⟩ := decodeOptString_ok hblock
    have hhash : (block.map BlockHash.mk).map (·.hash) = block := by cases block <;> rfl
    have hbyte' : encodeOpcode opcode = .ok byte := encodeOpcode_decodeOpcode hdecode
    refine ⟨_, by simp only [payload, hbyte', hhash, hencode]; rfl, ?_⟩
    rw [readU64_ok hopId, decodeTask_ok htask, readU32_ok hentity, readU8_ok hbyte,
      decodeOptSegment_ok hsegment, hfront]
    simp only [List.append_assoc]
  · obtain ⟨task, _, htask, hbody⟩ := run_bind_ok.1 hbody
    obtain ⟨block, _, hblock, hbody⟩ := run_bind_ok.1 hbody
    obtain ⟨rfl, rfl⟩ := run_pure_ok.1 hbody
    obtain ⟨front, hencode, hfront⟩ := decodeString_ok hblock
    refine ⟨_, by rw [payload, hencode]; rfl, ?_⟩
    rw [decodeTask_ok htask, hfront]
    simp only [List.append_assoc]
  · obtain ⟨task, _, htask, hbody⟩ := run_bind_ok.1 hbody
    obtain ⟨requester, _, hrequester, hbody⟩ := run_bind_ok.1 hbody
    obtain ⟨segment, _, hsegment, hbody⟩ := run_bind_ok.1 hbody
    obtain ⟨size, _, hsize, hbody⟩ := run_bind_ok.1 hbody
    obtain ⟨rfl, rfl⟩ := run_pure_ok.1 hbody
    refine ⟨_, rfl, ?_⟩
    rw [decodeTask_ok htask, readU32_ok hrequester, readU64_ok hsegment, readU64_ok hsize]
    simp only [List.append_assoc]
  · obtain ⟨task, _, htask, hbody⟩ := run_bind_ok.1 hbody
    obtain ⟨requester, _, hrequester, hbody⟩ := run_bind_ok.1 hbody
    obtain ⟨segment, _, hsegment, hbody⟩ := run_bind_ok.1 hbody
    obtain ⟨size, _, hsize, hbody⟩ := run_bind_ok.1 hbody
    obtain ⟨rfl, rfl⟩ := run_pure_ok.1 hbody
    refine ⟨_, rfl, ?_⟩
    rw [decodeTask_ok htask, readU32_ok hrequester, readU64_ok hsegment, readU64_ok hsize]
    simp only [List.append_assoc]
  · obtain ⟨task, _, htask, hbody⟩ := run_bind_ok.1 hbody
    obtain ⟨path, _, hpath, hbody⟩ := run_bind_ok.1 hbody
    obtain ⟨rfl, rfl⟩ := run_pure_ok.1 hbody
    obtain ⟨front, hencode, hfront⟩ := decodeString_ok hpath
    refine ⟨_, by rw [payload, hencode]; rfl, ?_⟩
    rw [decodeTask_ok htask, hfront]
    simp only [List.append_assoc]
  · obtain ⟨task, _, htask, hbody⟩ := run_bind_ok.1 hbody
    obtain ⟨path, _, hpath, hbody⟩ := run_bind_ok.1 hbody
    obtain ⟨size, _, hsize, hbody⟩ := run_bind_ok.1 hbody
    obtain ⟨rfl, rfl⟩ := run_pure_ok.1 hbody
    obtain ⟨front, hencode, hfront⟩ := decodeString_ok hpath
    refine ⟨_, by rw [payload, hencode]; rfl, ?_⟩
    rw [decodeTask_ok htask, hfront, readU64_ok hsize]
    simp only [List.append_assoc]
  · obtain ⟨task, _, htask, hbody⟩ := run_bind_ok.1 hbody
    obtain ⟨key, _, hkey, hbody⟩ := run_bind_ok.1 hbody
    obtain ⟨size, _, hsize, hbody⟩ := run_bind_ok.1 hbody
    obtain ⟨rfl, rfl⟩ := run_pure_ok.1 hbody
    obtain ⟨front, hencode, hfront⟩ := decodeString_ok hkey
    refine ⟨_, by rw [payload, hencode]; rfl, ?_⟩
    rw [decodeTask_ok htask, hfront, readU64_ok hsize]
    simp only [List.append_assoc]
  · obtain ⟨task, _, htask, hbody⟩ := run_bind_ok.1 hbody
    obtain ⟨key, _, hkey, hbody⟩ := run_bind_ok.1 hbody
    obtain ⟨rfl, rfl⟩ := run_pure_ok.1 hbody
    obtain ⟨front, hencode, hfront⟩ := decodeString_ok hkey
    refine ⟨_, by rw [payload, hencode]; rfl, ?_⟩
    rw [decodeTask_ok htask, hfront]
    simp only [List.append_assoc]
  · cases hbody

end GuestDescriptor

/-! ### Total and canonical -/

/-- A decoder that agrees with a reader, on a whole slot. -/
theorem decode_cases {α : Type} {m : Decoder α} {r : Reader α} (h : Agrees m r)
    (bytes : List UInt8) :
    (∃ a k, k ≤ bytes.length ∧ m.run (.new bytes) = .ok (a, ⟨bytes, k⟩) ∧
        r.run bytes = .ok (a, bytes.drop k) ∧ r.run' bytes = .ok a) ∨
      ∃ message, m.run (.new bytes) = .error (.error message) ∧ r.run' bytes = .error message := by
  have hrun' : r.run' bytes = (fun x : α × List UInt8 => x.1) <$> r.run bytes := rfl
  rcases h (.new bytes) (Nat.zero_le _) with ⟨a, k, hr, hk, hm⟩ | ⟨message, hr, hm⟩
  · rw [show (Cursor.new bytes).offset = 0 from rfl, Nat.zero_add] at hr hm hk
    have hrun : r.run bytes = .ok (a, bytes.drop k) := hr
    exact .inl ⟨a, k, hk, hm, hrun, by rw [hrun', hrun]; rfl⟩
  · have hrun : r.run bytes = .error message := hr
    exact .inr ⟨message, hm, by rw [hrun', hrun]; rfl⟩

/-- What the reader returns, the decoder returns, too. -/
theorem decoder_of_reader {α : Type} {m : Decoder α} {r : Reader α} (h : Agrees m r) {a : α}
    (hr : r.run' bytes = .ok a) : ∃ c, m.run (.new bytes) = .ok (a, c) := by
  rcases decode_cases h bytes with ⟨a', k, -, hm, -, hr'⟩ | ⟨message, -, hr'⟩
  · obtain rfl : a' = a := Except.ok.inj (hr'.symm.trans hr)
    exact ⟨_, hm⟩
  · cases hr'.symm.trans hr

/-- A slot that starts with a payload has the same payload when it is padded anew. -/
theorem padSlot_take {front : List UInt8} {k : ℕ} (hk : k ≤ bytes.length)
    (hbytes : bytes = front ++ bytes.drop k) :
    ∃ padded, padSlot front bytes.length = .ok padded ∧ padded.take k = bytes.take k := by
  have hfront : front = bytes.take k := by
    have hsplit := List.take_append_drop k bytes
    exact List.append_cancel_right (hbytes.symm.trans hsplit.symm)
  have hlength : front.length = k := by rw [hfront, List.length_take_of_le hk]
  refine ⟨_, Slot.padSlot_ok_iff.2 ⟨by omega, rfl⟩, ?_⟩
  rw [← hfront, ← hlength, List.take_left]

/-- **Command slots are decoded totally and canonically**: on all bytes `decode` returns a value or
an error and never goes out of range, and a descriptor that it returns is encoded, for a slot of
the same size, to bytes that decode to it and that are the same as far as `decode` has read. -/
theorem GuestDescriptor.decode_canonical (bytes : List UInt8) :
    decodeAt.run (.new bytes) ≠ .error .outOfRange ∧
      (∀ d, decode bytes = .ok d → ∃ c, decodeAt.run (.new bytes) = .ok (d, c)) ∧
      ∀ d c, decodeAt.run (.new bytes) = .ok (d, c) →
        decode bytes = .ok d ∧ ∃ bytes', d.encode bytes.length = .ok bytes' ∧
          decode bytes' = .ok d ∧ bytes'.take c.offset = bytes.take c.offset := by
  have hreturned : ∀ d, decode bytes = .ok d → ∃ c, decodeAt.run (.new bytes) = .ok (d, c) :=
    fun d hd => decoder_of_reader decodeAt_agrees hd
  rcases decode_cases decodeAt_agrees bytes with ⟨a, k, hk, hm, hr, hr'⟩ | ⟨message, hm, _⟩
  · refine ⟨fun h => ?_, hreturned, fun d c h => ?_⟩
    · cases hm.symm.trans h
    cases hm.symm.trans h
    obtain ⟨front, hpayload, hbytes⟩ := reader_ok hr
    obtain ⟨bytes', hpad, htake⟩ := padSlot_take hk hbytes
    have hencode : a.encode bytes.length = .ok bytes' := by
      rw [encode, hpayload]
      exact hpad
    exact ⟨hr', bytes', hencode, ((slot_codec a _).1 bytes' hencode).2, htake⟩
  · refine ⟨fun h => ?_, hreturned, fun d c h => ?_⟩
    · cases hm.symm.trans h
    · cases hm.symm.trans h

/-- **Completion slots**: what is encoded has the size of the slot and decodes to the event; on all
bytes decoding never goes out of range, and an event that it returns is encoded to bytes that are
the same as far as it has read. -/
theorem CompletionEvent.completion_codec :
    (∀ (event : CompletionEvent) (n : ℕ) bytes, encodeCompletion event n = .ok bytes →
        bytes.length = n ∧ decodeCompletion bytes = .ok event) ∧
      ∀ bytes : List UInt8, decodeAt.run (.new bytes) ≠ .error .outOfRange ∧
        (∀ event, decodeCompletion bytes = .ok event →
          ∃ c, decodeAt.run (.new bytes) = .ok (event, c)) ∧
        ∀ event c, decodeAt.run (.new bytes) = .ok (event, c) →
          decodeCompletion bytes = .ok event ∧
            ∃ bytes', encodeCompletion event bytes.length = .ok bytes' ∧
              bytes'.take c.offset = bytes.take c.offset := by
  refine ⟨fun event n bytes h => ?_, fun bytes => ?_⟩
  · rcases event.encodeCompletion_spec n with ⟨_, e, herror⟩ | ⟨_, bytes', hok, hlength, hdecode⟩
    · rw [herror] at h
      cases h
    · rw [hok] at h
      cases h
      exact ⟨hlength, hdecode⟩
  · have hreturned : ∀ event, decodeCompletion bytes = .ok event →
        ∃ c, decodeAt.run (.new bytes) = .ok (event, c) :=
      fun event h => decoder_of_reader decodeAt_agrees h
    rcases decode_cases decodeAt_agrees bytes with ⟨a, k, hk, hm, hr, hr'⟩ | ⟨message, hm, _⟩
    · refine ⟨fun h => ?_, hreturned, fun event c h => ?_⟩
      · cases hm.symm.trans h
      cases hm.symm.trans h
      obtain ⟨front, hpayload, hbytes⟩ := reader_ok hr
      obtain ⟨bytes', hpad, htake⟩ := padSlot_take hk hbytes
      refine ⟨hr', bytes', ?_, htake⟩
      rw [encodeCompletion, hpayload]
      exact hpad
    · refine ⟨fun h => ?_, hreturned, fun event c h => ?_⟩
      · cases hm.symm.trans h
      · cases hm.symm.trans h

end LinquUb
