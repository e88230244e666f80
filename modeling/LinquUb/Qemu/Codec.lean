import LinquUb.Qemu.Types

/-!
# The slot codec

* `reads_u8`, …, `reads_task` : every field is read back as it was written;
* `GuestDescriptor.payload_ok` : the fields of a descriptor in order;
* `GuestDescriptor.slot_codec` : **a command slot decodes to the descriptor it was encoded from, and
  encoding fails only for the reasons that the format has**;
* `CompletionEvent.encodeCompletion_spec` : the same for completion slots.
-/

namespace LinquUb

open Wire (Reader Reads reads_take reads_le)

namespace Slot

theorem reads_u8 (value : UInt8) : Reads readU8 (writeU8 value) value :=
  (reads_take "slot underflow" rfl).map fun bytes => bytes.headD 0

theorem reads_u32 (value : UInt32) : Reads readU32 (writeU32 value) value := by
  have hread := reads_le 4 value.toNat "slot underflow" UInt32.ofNat value.toNat_lt
  rwa [UInt32.ofNat_toNat] at hread

theorem reads_u64 (value : UInt64) : Reads readU64 (writeU64 value) value := by
  have hread := reads_le 8 value.toNat "slot underflow" UInt64.ofNat value.toNat_lt
  rwa [UInt64.ofNat_toNat] at hread

theorem asBytes_length (value : String) : (asBytes value).length = value.utf8ByteSize := by
  rw [asBytes, Array.length_toList]
  rfl

theorem fromUTF8_asBytes (value : String) :
    String.fromUTF8? ⟨(asBytes value).toArray⟩ = some value := by
  have hbytes : (⟨(asBytes value).toArray⟩ : ByteArray) = value.toByteArray := by
    simp [asBytes]
  rw [hbytes, String.fromUTF8?, dif_pos value.isValidUTF8]
  rfl

theorem encodeString_cases (value : String) :
    (255 < value.utf8ByteSize ∧ encodeString value = .error "string too long for slot encoding") ∨
      (value.utf8ByteSize ≤ 255 ∧
        encodeString value = .ok (writeU8 (.ofNat value.utf8ByteSize) ++ asBytes value)) := by
  by_cases h : value.utf8ByteSize > 255
  · exact .inl ⟨h, if_pos h⟩
  · exact .inr ⟨by omega, if_neg h⟩

theorem reads_string {value : String} {bytes : List UInt8} (h : encodeString value = .ok bytes) :
    Reads decodeString bytes value := by
  rcases encodeString_cases value with ⟨_, herror⟩ | ⟨hsize, hok⟩
  · rw [herror] at h
    cases h
  · rw [hok] at h
    cases h
    refine (reads_u8 _).bind ?_
    have hlen : (UInt8.ofNat value.utf8ByteSize).toNat = value.utf8ByteSize := by
      rw [UInt8.toNat_ofNat', Nat.mod_eq_of_lt (by omega)]
    have htake : Reads (take (UInt8.ofNat value.utf8ByteSize).toNat) (asBytes value)
        (asBytes value) := reads_take _ ((asBytes_length value).trans hlen.symm)
    rw [← List.append_nil (asBytes value)]
    refine htake.bind ?_
    rw [fromUTF8_asBytes]
    exact Reads.pure value

theorem encodeString_length {value : String} {bytes : List UInt8}
    (h : encodeString value = .ok bytes) : bytes.length = 1 + value.utf8ByteSize := by
  rcases encodeString_cases value with ⟨_, herror⟩ | ⟨_, hok⟩
  · rw [herror] at h
    cases h
  · rw [hok] at h
    cases h
    rw [List.length_append, asBytes_length]
    rfl

theorem reads_optString {value : Option String} {bytes : List UInt8}
    (h : encodeOptString value = .ok bytes) : Reads decodeOptString bytes value := by
  cases value with
  | none =>
    cases h
    exact (reads_u8 0).bind (Reads.pure none)
  | some value =>
    cases hvalue : encodeString value with
    | error e =>
      rw [encodeOptString, hvalue] at h
      cases h
    | ok tail =>
      rw [encodeOptString, hvalue] at h
      cases h
      exact (reads_u8 1).bind ((reads_string hvalue).map some)

theorem reads_optSegment (segment : Option SegmentHandle) :
    Reads decodeOptSegment (encodeOptSegment segment) segment := by
  cases segment with
  | none => exact (reads_u8 0).bind (Reads.pure none)
  | some segment =>
    exact (reads_u8 1).bind ((reads_u64 segment.id).map fun id => some (SegmentHandle.mk id))

theorem reads_levels {n : ℕ} (levels : List.Vector UInt32 n) :
    Reads (decodeLevels n) (levels.toList.flatMap writeU32) levels := by
  induction n with
  | zero =>
    rw [List.Vector.eq_nil levels]
    exact Reads.pure _
  | succ n ih =>
    obtain ⟨level, rest, rfl⟩ := levels.exists_eq_cons
    rw [List.Vector.toList_cons, List.flatMap_cons]
    exact (reads_u32 level).bind ((ih rest).map fun levels => level ::ᵥ levels)

theorem reads_task (task : Option TaskKey) : Reads decodeTask (encodeTask task) task := by
  cases task with
  | none => exact (reads_u8 0).bind (Reads.pure none)
  | some task =>
    simp only [encodeTask, List.append_assoc]
    exact (reads_u8 1).bind ((reads_u32 _).bind ((reads_levels _).bind ((reads_u32 _).bind
      ((reads_u64 _).map fun taskId => some _))))

/-! ### Lengths -/

@[simp] theorem writeU8_length (value : UInt8) : (writeU8 value).length = 1 := rfl

@[simp] theorem writeU32_length (value : UInt32) : (writeU32 value).length = 4 :=
  Wire.leBytes_length 4 _

@[simp] theorem writeU64_length (value : UInt64) : (writeU64 value).length = 8 :=
  Wire.leBytes_length 8 _

def taskLength (task : Option TaskKey) : ℕ := if task.isSome then 49 else 1

def optSegmentLength (segment : Option SegmentHandle) : ℕ := if segment.isSome then 9 else 1

def stringLength (value : String) : ℕ := 1 + value.utf8ByteSize

def optStringLength (value : Option String) : ℕ := 1 + (value.map stringLength).getD 0

@[simp] theorem encodeTask_length (task : Option TaskKey) :
    (encodeTask task).length = taskLength task := by
  cases task with
  | none => rfl
  | some task =>
    have hlevels : (task.coord.levels.toList.flatMap writeU32).length = 32 := by
      rw [List.length_flatMap]
      simp
    simp [encodeTask, taskLength, hlevels]

@[simp] theorem encodeOptSegment_length (segment : Option SegmentHandle) :
    (encodeOptSegment segment).length = optSegmentLength segment := by
  cases segment <;> simp [encodeOptSegment, optSegmentLength]

theorem padSlot_ok_iff {buf bytes : List UInt8} {n : ℕ} :
    padSlot buf n = .ok bytes ↔
      buf.length ≤ n ∧ bytes = buf ++ List.replicate (n - buf.length) 0 := by
  unfold padSlot
  by_cases h : buf.length > n
  · rw [if_pos h]
    exact ⟨fun h' => (by cases h'), fun h' => absurd h'.1 (by omega)⟩
  · rw [if_neg h]
    exact ⟨fun h' => ⟨by omega, (Except.ok.inj h').symm⟩, fun h' => congrArg _ h'.2.symm⟩

/-- A reader that reads the payload reads the padded slot. -/
theorem Reads.run'_pad {α : Type} {r : Reader α} {buf bytes : List UInt8} {a : α} {n : ℕ}
    (h : Reads r buf a) (hpad : padSlot buf n = .ok bytes) : r.run' bytes = .ok a := by
  obtain ⟨_, rfl⟩ := padSlot_ok_iff.1 hpad
  have hrun := h (List.replicate (n - buf.length) 0)
  show (fun x : α × List UInt8 => x.1) <$> r.run _ = _
  rw [hrun]
  rfl

end Slot

open Slot

theorem decodeOpcode_encodeOpcode {opcode : IoOpcode} {byte : UInt8}
    (h : encodeOpcode opcode = .ok byte) : decodeOpcode byte = .ok opcode := by
  cases opcode <;> cases h <;> rfl

namespace GuestDescriptor

/-- The descriptors that guests cannot encode. -/
def IsRemote : GuestDescriptor → Prop
  | .io desc => desc.opcode = .remoteFetch ∨ desc.opcode = .remoteStore
  | .service _ => False

/-- The string fields that are encoded. -/
def strings : GuestDescriptor → List String
  | .io desc => (desc.block.map (·.hash)).toList
  | .service (.blockWriteback block _) => [block.hash]
  | .service (.shmemPut _) => []
  | .service (.shmemGet _) => []
  | .service (.dfsRead req) => [req.path]
  | .service (.dfsWrite req) => [req.path]
  | .service (.dbPut req) => [req.key]
  | .service (.dbGet req) => [req.key]

/-- The length of all fields together. -/
def encodedLength : GuestDescriptor → ℕ
  | .io desc => 1 + 8 + taskLength desc.task + 4 + 1 + optSegmentLength desc.segment +
      optStringLength (desc.block.map (·.hash))
  | .service (.blockWriteback block task) => 1 + taskLength task + stringLength block.hash
  | .service (.shmemPut req) => 1 + taskLength req.task + 4 + 8 + 8
  | .service (.shmemGet req) => 1 + taskLength req.task + 4 + 8 + 8
  | .service (.dfsRead req) => 1 + taskLength req.task + stringLength req.path
  | .service (.dfsWrite req) => 1 + taskLength req.task + stringLength req.path + 8
  | .service (.dbPut req) => 1 + taskLength req.task + stringLength req.key + 8
  | .service (.dbGet req) => 1 + taskLength req.task + stringLength req.key

/-- The descriptor has an encoding, apart from the length of the slot. -/
def Encodable (d : GuestDescriptor) : Prop :=
  ¬d.IsRemote ∧ ∀ s ∈ d.strings, s.utf8ByteSize ≤ 255

/-- What an encoded payload is: it has the length of the fields, and is read back. -/
structure Encodes (d : GuestDescriptor) (bytes : List UInt8) : Prop where
  length : bytes.length = d.encodedLength
  reads : Reads reader bytes d

/-- A payload with one string field: it has no encoding when the string is too long. -/
theorem payload_string {d : GuestDescriptor} (value : String) (f : List UInt8 → List UInt8)
    (hpayload : d.payload = do return f (← encodeString value)) (hremote : ¬d.IsRemote)
    (hstrings : d.strings = [value])
    (hf : ∀ bytes, encodeString value = .ok bytes → d.Encodes (f bytes)) :
    (¬d.Encodable ∧ ∃ e, d.payload = .error e) ∨
      d.Encodable ∧ ∃ bytes, d.payload = .ok bytes ∧ d.Encodes bytes := by
  rw [hpayload]
  rcases encodeString_cases value with ⟨hsize, herror⟩ | ⟨hsize, hok⟩
  · refine .inl ⟨fun h => ?_, _, by rw [herror]; rfl⟩
    have hle := h.2 value (hstrings ▸ List.mem_singleton_self value)
    omega
  · refine .inr ⟨⟨hremote, fun s hs => ?_⟩, _, by rw [hok]; rfl, hf _ hok⟩
    rw [hstrings] at hs
    rwa [List.mem_singleton.1 hs]

theorem payload_plain {d : GuestDescriptor} {bytes : List UInt8} (hpayload : d.payload = .ok bytes)
    (hremote : ¬d.IsRemote) (hstrings : d.strings = []) (hbytes : d.Encodes bytes) :
    (¬d.Encodable ∧ ∃ e, d.payload = .error e) ∨
      d.Encodable ∧ ∃ bytes, d.payload = .ok bytes ∧ d.Encodes bytes := by
  refine .inr ⟨⟨hremote, fun s hs => ?_⟩, bytes, hpayload, hbytes⟩
  rw [hstrings] at hs
  cases hs

theorem payload_io (desc : GuestIoDescriptor) :
    (¬(GuestDescriptor.io desc).Encodable ∧ ∃ e, (GuestDescriptor.io desc).payload = .error e) ∨
      (GuestDescriptor.io desc).Encodable ∧ ∃ bytes, (GuestDescriptor.io desc).payload = .ok bytes ∧
        (GuestDescriptor.io desc).Encodes bytes := by
  cases hopcode : encodeOpcode desc.opcode with
  | error e =>
    refine .inl ⟨fun h => h.1 ?_, e, ?_⟩
    · show desc.opcode = .remoteFetch ∨ desc.opcode = .remoteStore
      revert hopcode
      cases desc.opcode <;> simp [encodeOpcode]
    · simp only [payload, hopcode]
      rfl
  | ok opcode =>
    have hremote : ¬(GuestDescriptor.io desc).IsRemote := by
      intro h
      rcases h with h | h <;> rw [h] at hopcode <;> cases hopcode
    have hencodes (block : List UInt8) (hblock : Reads decodeOptString block
        (desc.block.map (·.hash))) (hlength : block.length =
          optStringLength (desc.block.map (·.hash))) :
        (GuestDescriptor.io desc).Encodes (writeU8 1 ++ writeU64 desc.opId ++
          encodeTask desc.task ++ writeU32 desc.entity ++ writeU8 opcode ++
          encodeOptSegment desc.segment ++ block) := by
      constructor
      · simp [encodedLength, hlength]
        omega
      · simp only [List.append_assoc]
        have hopcode' : Reads (decodeOpcode opcode : Reader IoOpcode) [] desc.opcode :=
          Reads.lift (decodeOpcode_encodeOpcode hopcode)
        have hlast : Reads (do
            let segment ← decodeOptSegment
            let block ← decodeOptString
            return GuestDescriptor.io { desc with segment, block := block.map .mk })
            (encodeOptSegment desc.segment ++ block) (.io desc) := by
          have hblock' := hblock.map fun block =>
            GuestDescriptor.io { desc with block := block.map .mk }
          rw [Option.map_map] at hblock'
          have hid : (BlockHash.mk ∘ BlockHash.hash : BlockHash → BlockHash) = id := rfl
          rw [hid, Option.map_id_fun, id] at hblock'
          exact (reads_optSegment desc.segment).bind hblock'
        exact (reads_u8 1).bind ((reads_u64 _).bind ((reads_task _).bind ((reads_u32 _).bind
          ((reads_u8 opcode).bind (hopcode'.bind hlast)))))
    cases hblock : desc.block with
    | none =>
      refine payload_plain ?_ hremote ?_ (hencodes (writeU8 0) ?_ ?_)
      · simp only [payload, hopcode, hblock]
        rfl
      · simp [strings, hblock]
      · rw [hblock]
        exact reads_optString rfl
      · rw [hblock]
        rfl
    | some block =>
      refine payload_string block.hash (fun bytes => writeU8 1 ++ writeU64 desc.opId ++
        encodeTask desc.task ++ writeU32 desc.entity ++ writeU8 opcode ++
        encodeOptSegment desc.segment ++ (writeU8 1 ++ bytes)) ?_ hremote ?_
        fun bytes hbytes => hencodes (writeU8 1 ++ bytes) ?_ ?_
      · simp only [payload, hopcode, hblock, encodeOptString, Option.map_some]
        cases encodeString block.hash <;> rfl
      · simp [strings, hblock]
      · rw [hblock]
        refine reads_optString ?_
        simp only [encodeOptString, Option.map_some, hbytes]
        rfl
      · simp [hblock, optStringLength, stringLength, encodeString_length hbytes]

/-- **A payload exists exactly for the encodable descriptors, and is read back.** -/
theorem payload_spec (d : GuestDescriptor) :
    (¬d.Encodable ∧ ∃ e, d.payload = .error e) ∨
      d.Encodable ∧ ∃ bytes, d.payload = .ok bytes ∧ d.Encodes bytes := by
  cases d with
  | io desc => exact payload_io desc
  | service desc =>
    cases desc with
    | blockWriteback block task =>
      refine payload_string block.hash (fun bytes => writeU8 2 ++ encodeTask task ++ bytes) rfl id
        rfl fun bytes hbytes => ⟨?_, ?_⟩
      · simp [encodedLength, stringLength, encodeString_length hbytes]
        omega
      · simp only [List.append_assoc]
        exact (reads_u8 2).bind ((reads_task task).bind ((reads_string hbytes).map fun hash =>
          GuestDescriptor.service (.blockWriteback ⟨hash⟩ task)))
    | shmemPut req =>
      refine payload_plain rfl id rfl ⟨?_, ?_⟩
      · simp [encodedLength]
        omega
      · simp only [List.append_assoc]
        exact (reads_u8 3).bind ((reads_task _).bind ((reads_u32 _).bind ((reads_u64 _).bind
          ((reads_u64 _).map fun bytes => GuestDescriptor.service (.shmemPut { req with bytes })))))
    | shmemGet req =>
      refine payload_plain rfl id rfl ⟨?_, ?_⟩
      · simp [encodedLength]
        omega
      · simp only [List.append_assoc]
        exact (reads_u8 4).bind ((reads_task _).bind ((reads_u32 _).bind ((reads_u64 _).bind
          ((reads_u64 _).map fun bytes => GuestDescriptor.service (.shmemGet { req with bytes })))))
    | dfsRead req =>
      refine payload_string req.path (fun bytes => writeU8 5 ++ encodeTask req.task ++ bytes) rfl id
        rfl fun bytes hbytes => ⟨?_, ?_⟩
      · simp [encodedLength, stringLength, encodeString_length hbytes]
        omega
      · simp only [List.append_assoc]
        exact (reads_u8 5).bind ((reads_task _).bind ((reads_string hbytes).map fun path =>
          GuestDescriptor.service (.dfsRead { req with path })))
    | dfsWrite req =>
      refine payload_string req.path (fun bytes => writeU8 6 ++ encodeTask req.task ++ bytes ++
        writeU64 req.bytes) rfl id rfl fun bytes hbytes => ⟨?_, ?_⟩
      · simp [encodedLength, stringLength, encodeString_length hbytes]
        omega
      · simp only [List.append_assoc]
        exact (reads_u8 6).bind ((reads_task _).bind ((reads_string hbytes).bind
          ((reads_u64 _).map fun bytes => GuestDescriptor.service (.dfsWrite { req with bytes }))))
    | dbPut req =>
      refine payload_string req.key (fun bytes => writeU8 7 ++ encodeTask req.task ++ bytes ++
        writeU64 req.bytes) rfl id rfl fun bytes hbytes => ⟨?_, ?_⟩
      · simp [encodedLength, stringLength, encodeString_length hbytes]
        omega
      · simp only [List.append_assoc]
        exact (reads_u8 7).bind ((reads_task _).bind ((reads_string hbytes).bind
          ((reads_u64 _).map fun bytes => GuestDescriptor.service (.dbPut { req with bytes }))))
    | dbGet req =>
      refine payload_string req.key (fun bytes => writeU8 8 ++ encodeTask req.task ++ bytes) rfl id
        rfl fun bytes hbytes => ⟨?_, ?_⟩
      · simp [encodedLength, stringLength, encodeString_length hbytes]
        omega
      · simp only [List.append_assoc]
        exact (reads_u8 8).bind ((reads_task _).bind ((reads_string hbytes).map fun key =>
          GuestDescriptor.service (.dbGet { req with key })))

/-- **The command slot codec.**  What `encode` returns has the size of the slot and decodes to the
descriptor; `encode` fails exactly for a remote opcode, a string that is too long, or a slot that is
too small. -/
theorem slot_codec (d : GuestDescriptor) (n : ℕ) :
    (∀ bytes, d.encode n = .ok bytes → bytes.length = n ∧ decode bytes = .ok d) ∧
      ((∃ e, d.encode n = .error e) ↔
        d.IsRemote ∨ (∃ s ∈ d.strings, 255 < s.utf8ByteSize) ∨ n < d.encodedLength) := by
  rcases d.payload_spec with ⟨hnot, e, herror⟩ | ⟨hencodable, buf, hok, hencodes⟩
  · have hencode : d.encode n = .error e := by
      rw [encode, herror]
      rfl
    refine ⟨fun bytes h => (by rw [hencode] at h; cases h), fun _ => ?_, fun _ => ⟨e, hencode⟩⟩
    by_contra hall
    simp only [not_or, not_exists, not_and, Nat.not_lt] at hall
    exact hnot ⟨hall.1, hall.2.1⟩
  · have hencode : d.encode n = padSlot buf n := by
      rw [encode, hok]
      rfl
    rw [hencode]
    refine ⟨fun bytes h => ⟨?_, Reads.run'_pad hencodes.reads h⟩, fun ⟨e, he⟩ => ?_, fun h => ?_⟩
    · obtain ⟨hle, rfl⟩ := padSlot_ok_iff.1 h
      rw [List.length_append, List.length_replicate]
      omega
    · refine .inr (.inr ?_)
      by_contra hle
      have hpad := padSlot_ok_iff.2 ⟨hencodes.length ▸ Nat.le_of_not_lt hle, rfl⟩
      rw [hpad] at he
      cases he
    · rcases h with h | ⟨s, hs, hlt⟩ | h
      · exact absurd h hencodable.1
      · exact absurd (hencodable.2 s hs) (by omega)
      · refine ⟨"encoded payload exceeds slot size", ?_⟩
        unfold padSlot
        rw [if_pos (by rw [hencodes.length]; omega)]

end GuestDescriptor

/-! ### Completions -/

theorem decodeSource_encodeSource (source : CompletionSource) :
    decodeSource (encodeSource source) = .ok source := by
  cases source <;> rfl

/-- The failure code of a status. -/
def CompletionStatus.code : CompletionStatus → Option String
  | .success => none
  | .retryableFailure code => some code
  | .fatalFailure code => some code

def statusLength (status : CompletionStatus) : ℕ := 1 + (status.code.map stringLength).getD 0

theorem encodeStatus_cases (status : CompletionStatus) :
    (∃ code, status.code = some code ∧ 255 < code.utf8ByteSize ∧
        encodeStatus status = .error "string too long for slot encoding") ∨
      ∃ bytes, (∀ code ∈ status.code, code.utf8ByteSize ≤ 255) ∧ encodeStatus status = .ok bytes ∧
        bytes.length = statusLength status ∧ Reads decodeStatus bytes status := by
  cases status with
  | success =>
    exact .inr ⟨writeU8 1, fun _ h => (by cases h), rfl, rfl, (reads_u8 1).bind (Reads.pure _)⟩
  | retryableFailure code =>
    rcases encodeString_cases code with ⟨hsize, herror⟩ | ⟨hsize, hok⟩
    · exact .inl ⟨code, rfl, hsize, by rw [encodeStatus, herror]; rfl⟩
    · refine .inr ⟨_, fun _ h => Option.some.inj h ▸ hsize, by rw [encodeStatus, hok]; rfl, ?_,
        (reads_u8 2).bind ((reads_string hok).map CompletionStatus.retryableFailure)⟩
      rw [List.length_append, encodeString_length hok]
      rfl
  | fatalFailure code =>
    rcases encodeString_cases code with ⟨hsize, herror⟩ | ⟨hsize, hok⟩
    · exact .inl ⟨code, rfl, hsize, by rw [encodeStatus, herror]; rfl⟩
    · refine .inr ⟨_, fun _ h => Option.some.inj h ▸ hsize, by rw [encodeStatus, hok]; rfl, ?_,
        (reads_u8 3).bind ((reads_string hok).map CompletionStatus.fatalFailure)⟩
      rw [List.length_append, encodeString_length hok]
      rfl

namespace CompletionEvent

def encodedLength (event : CompletionEvent) : ℕ :=
  8 + taskLength event.task + 1 + statusLength event.status + 8

/-- The event has an encoding in a slot of `n` bytes. -/
def Fits (event : CompletionEvent) (n : ℕ) : Prop :=
  (∀ code ∈ event.status.code, code.utf8ByteSize ≤ 255) ∧ event.encodedLength ≤ n

instance (event : CompletionEvent) (n : ℕ) : Decidable (event.Fits n) :=
  inferInstanceAs (Decidable (_ ∧ _))

/-- The errors of the encoder. -/
theorem encodeCompletion_error {event : CompletionEvent} {n : ℕ} {e : String}
    (h : encodeCompletion event n = .error e) :
    e = "string too long for slot encoding" ∨ e = "encoded payload exceeds slot size" := by
  rcases encodeStatus_cases event.status with ⟨_, _, _, herror⟩ | ⟨status, _, hok, _, _⟩
  · simp only [encodeCompletion, payload, herror] at h
    exact .inl (Except.error.inj h).symm
  · simp only [encodeCompletion, payload, hok] at h
    have hpad : padSlot (writeU64 event.opId ++ encodeTask event.task ++
        writeU8 (encodeSource event.source) ++ status ++ writeU64 event.finishedAt) n = .error e := h
    unfold padSlot at hpad
    split_ifs at hpad
    exact .inr (Except.error.inj hpad).symm

/-- **The completion slot codec**: an event that fits is encoded and read back. -/
theorem encodeCompletion_spec (event : CompletionEvent) (n : ℕ) :
    (¬event.Fits n ∧ ∃ e, encodeCompletion event n = .error e) ∨
      event.Fits n ∧ ∃ bytes, encodeCompletion event n = .ok bytes ∧ bytes.length = n ∧
        decodeCompletion bytes = .ok event := by
  rcases encodeStatus_cases event.status with ⟨code, hcode, hsize, herror⟩ |
    ⟨status, hsize, hok, hlength, hreads⟩
  · refine .inl ⟨fun h => ?_, "string too long for slot encoding", ?_⟩
    · have hle := h.1 code hcode
      omega
    · simp only [encodeCompletion, payload, herror]
      rfl
  · let buf := writeU64 event.opId ++ encodeTask event.task ++ writeU8 (encodeSource event.source) ++
      status ++ writeU64 event.finishedAt
    have hencode : encodeCompletion event n = padSlot buf n := by
      simp only [encodeCompletion, payload, hok]
      rfl
    have hbuf : buf.length = event.encodedLength := by
      simp only [buf, List.length_append, writeU64_length, encodeTask_length, writeU8_length,
        hlength, encodedLength]
    have hread : Reads reader buf event := by
      simp only [buf, List.append_assoc]
      have hsource : Reads (decodeSource (encodeSource event.source) : Reader CompletionSource) []
          event.source := Reads.lift (decodeSource_encodeSource event.source)
      exact (reads_u64 _).bind ((reads_task _).bind ((reads_u8 _).bind (hsource.bind (hreads.bind
        ((reads_u64 _).map fun finishedAt => { event with finishedAt })))))
    rw [hencode]
    by_cases hfits : event.encodedLength ≤ n
    · have hpad := padSlot_ok_iff.2 ⟨hbuf.symm ▸ hfits, rfl⟩
      refine .inr ⟨⟨hsize, hfits⟩, _, hpad, ?_, Reads.run'_pad hread hpad⟩
      rw [List.length_append, List.length_replicate]
      omega
    · refine .inl ⟨fun h => hfits h.2, "encoded payload exceeds slot size", ?_⟩
      unfold padSlot
      rw [if_pos (by omega)]

end CompletionEvent

end LinquUb
