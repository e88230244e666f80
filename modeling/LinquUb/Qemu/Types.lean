import LinquUb.Uapi.Types
import LinquUb.Wire.Reader

/-!
# Guest descriptors and their slots

The types of `sim-qemu` and the hand-written codec of command and completion slots.  A cursor is the
list of the bytes that are left; writers return the bytes that they append.
-/

namespace LinquUb

open Wire (Reader)

structure GuestEndpointLayout where
  descriptorBytes : UInt32
  cmdqDepth : UInt16
  cqDepth : UInt16
  doorbellStrideBytes : UInt32
deriving DecidableEq, Repr

def GuestEndpointLayout.default : GuestEndpointLayout :=
  { descriptorBytes := 64, cmdqDepth := 32, cqDepth := 64, doorbellStrideBytes := 8 }

structure MachineProfile where
  name : String
  endpoint : GuestEndpointLayout
deriving DecidableEq, Repr

def MachineProfile.default : MachineProfile :=
  { name := "ub-host-minimal", endpoint := .default }

structure GuestIoDescriptor where
  opId : UInt64
  task : Option TaskKey
  entity : EntityId
  opcode : IoOpcode
  segment : Option SegmentHandle
  block : Option BlockHash
deriving DecidableEq

inductive GuestServiceDescriptor
  | blockWriteback (block : BlockHash) (task : Option TaskKey)
  | shmemPut (req : ShmemPutReq)
  | shmemGet (req : ShmemGetReq)
  | dfsRead (req : DfsReadReq)
  | dfsWrite (req : DfsWriteReq)
  | dbPut (req : DbPutReq)
  | dbGet (req : DbGetReq)
deriving DecidableEq

inductive GuestDescriptor
  | io (desc : GuestIoDescriptor)
  | service (desc : GuestServiceDescriptor)
deriving DecidableEq

def GuestDescriptor.toUapiDescriptor : GuestDescriptor → UapiDescriptor
  | .io desc => .io
    { opId := desc.opId, task := desc.task, entity := desc.entity, opcode := desc.opcode,
      segment := desc.segment, block := desc.block }
  | .service (.blockWriteback block task) => .blockWriteback block task
  | .service (.shmemPut req) => .shmemPut req
  | .service (.shmemGet req) => .shmemGet req
  | .service (.dfsRead req) => .dfsRead req
  | .service (.dfsWrite req) => .dfsWrite req
  | .service (.dbPut req) => .dbPut req
  | .service (.dbGet req) => .dbGet req

/-! ### Sessions and registers -/

structure GuestEndpointSession where
  entity : EntityId
  cq : CqHandle
  cmdq : CmdQueueHandle
  layout : GuestEndpointLayout
deriving DecidableEq, Repr

structure EndpointId where
  id : UInt16
deriving DecidableEq, Repr

structure MmioRegisterMap where
  endpointBase : UInt64
  endpointStride : UInt64
  cmdqHeadOffset : UInt64
  cmdqTailOffset : UInt64
  cqHeadOffset : UInt64
  cqTailOffset : UInt64
  statusOffset : UInt64
  doorbellOffset : UInt64
  lastErrorOffset : UInt64
  irqStatusOffset : UInt64
  irqAckOffset : UInt64
deriving DecidableEq, Repr

def MmioRegisterMap.default : MmioRegisterMap :=
  { endpointBase := 0x1000, endpointStride := 0x100, cmdqHeadOffset := 0x00,
    cmdqTailOffset := 0x08, cqHeadOffset := 0x10, cqTailOffset := 0x18, statusOffset := 0x20,
    doorbellOffset := 0x28, lastErrorOffset := 0x30, irqStatusOffset := 0x38,
    irqAckOffset := 0x40 }

structure DoorbellWrite where
  endpoint : EndpointId
  batch : Option ℕ
deriving DecidableEq, Repr

structure DeviceQueueStatus where
  cmdqHead : ℕ
  cmdqTail : ℕ
  cmdqPending : ℕ
  cqHead : ℕ
  cqTail : ℕ
  cqPending : ℕ
deriving DecidableEq, Repr

inductive DeviceErrorCode
  | none | invalidRegisterWrite | invalidRegisterRead | invalidOffset | endpointNotFound
  | queueOverflow | rangeError | invalidDescriptor | notImplemented
deriving DecidableEq, Repr

def DeviceErrorCode.toU64 : DeviceErrorCode → UInt64
  | .none => 0
  | .invalidRegisterWrite => 1
  | .invalidRegisterRead => 2
  | .invalidOffset => 3
  | .endpointNotFound => 4
  | .queueOverflow => 5
  | .rangeError => 6
  | .invalidDescriptor => 7
  | .notImplemented => 8

namespace DeviceInterruptStatus

def completion : UInt64 := 1

def error : UInt64 := 2

end DeviceInterruptStatus

/-! ### Reading and writing -/

namespace Slot

/-- `Cursor::take`. -/
def take (len : ℕ) : Reader (List UInt8) := Wire.take len "slot underflow"

def writeU8 (value : UInt8) : List UInt8 := [value]

def writeU32 (value : UInt32) : List UInt8 := Wire.leBytes 4 value.toNat

def writeU64 (value : UInt64) : List UInt8 := Wire.leBytes 8 value.toNat

def readU8 : Reader UInt8 := do return (← take 1).headD 0

def readU32 : Reader UInt32 := do return .ofNat (Wire.ofLeBytes (← take 4))

def readU64 : Reader UInt64 := do return .ofNat (Wire.ofLeBytes (← take 8))

/-- `str::as_bytes`. -/
def asBytes (value : String) : List UInt8 := value.toByteArray.data.toList

def encodeString (value : String) : Except String (List UInt8) :=
  if value.utf8ByteSize > 255 then
    .error "string too long for slot encoding"
  else
    .ok (writeU8 (.ofNat value.utf8ByteSize) ++ asBytes value)

def decodeString : Reader String := do
  let len ← readU8
  let bytes ← take len.toNat
  match String.fromUTF8? ⟨bytes.toArray⟩ with
  | some value => return value
  | none => throw "invalid utf8 in slot"

def encodeOptString : Option String → Except String (List UInt8)
  | some value => do return writeU8 1 ++ (← encodeString value)
  | none => .ok (writeU8 0)

def decodeOptString : Reader (Option String) := do
  match ← readU8 with
  | 0 => return none
  | 1 => return some (← decodeString)
  | _ => throw "invalid optional string flag"

def encodeOptSegment : Option SegmentHandle → List UInt8
  | some segment => writeU8 1 ++ writeU64 segment.id
  | none => writeU8 0

def decodeOptSegment : Reader (Option SegmentHandle) := do
  match ← readU8 with
  | 0 => return none
  | 1 => return some ⟨← readU64⟩
  | _ => throw "invalid optional segment flag"

def encodeTask : Option TaskKey → List UInt8
  | some task =>
    writeU8 1 ++ writeU32 task.logicalSystem.id ++ task.coord.levels.toList.flatMap writeU32 ++
      writeU32 task.scopeDepth ++ writeU64 task.taskId
  | none => writeU8 0

def decodeLevels : (n : ℕ) → Reader (List.Vector UInt32 n)
  | 0 => return .nil
  | n + 1 => do
    let level ← readU32
    let levels ← decodeLevels n
    return level ::ᵥ levels

def decodeTask : Reader (Option TaskKey) := do
  match ← readU8 with
  | 0 => return none
  | 1 =>
    let logicalSystem ← readU32
    let levels ← decodeLevels 8
    let scopeDepth ← readU32
    let taskId ← readU64
    return some { logicalSystem := ⟨logicalSystem⟩, coord := ⟨levels⟩, scopeDepth, taskId }
  | _ => throw "invalid task flag"

def padSlot (buf : List UInt8) (slotBytes : ℕ) : Except String (List UInt8) :=
  if buf.length > slotBytes then
    .error "encoded payload exceeds slot size"
  else
    .ok (buf ++ List.replicate (slotBytes - buf.length) 0)

end Slot

open Slot

/-! ### Command slots -/

/-- The byte of an opcode that guests can encode. -/
def encodeOpcode : IoOpcode → Except String UInt8
  | .readBlock => .ok 1
  | .writeBlock => .ok 2
  | .dispatch => .ok 3
  | .remoteFetch | .remoteStore =>
    .error "remote fetch/store not yet supported in guest descriptor encoding"

def decodeOpcode : UInt8 → Except String IoOpcode
  | 1 => .ok .readBlock
  | 2 => .ok .writeBlock
  | 3 => .ok .dispatch
  | _ => .error "invalid io opcode"

namespace GuestDescriptor

/-- The slot's content before it is padded. -/
def payload : GuestDescriptor → Except String (List UInt8)
  | .io desc => do
    let opcode ← encodeOpcode desc.opcode
    let block ← encodeOptString (desc.block.map (·.hash))
    return writeU8 1 ++ writeU64 desc.opId ++ encodeTask desc.task ++ writeU32 desc.entity ++
      writeU8 opcode ++ encodeOptSegment desc.segment ++ block
  | .service (.blockWriteback block task) => do
    return writeU8 2 ++ encodeTask task ++ (← encodeString block.hash)
  | .service (.shmemPut req) =>
    return writeU8 3 ++ encodeTask req.task ++ writeU32 req.requesterEntity ++
      writeU64 req.segment.id ++ writeU64 req.bytes
  | .service (.shmemGet req) =>
    return writeU8 4 ++ encodeTask req.task ++ writeU32 req.requesterEntity ++
      writeU64 req.segment.id ++ writeU64 req.bytes
  | .service (.dfsRead req) => do
    return writeU8 5 ++ encodeTask req.task ++ (← encodeString req.path)
  | .service (.dfsWrite req) => do
    return writeU8 6 ++ encodeTask req.task ++ (← encodeString req.path) ++ writeU64 req.bytes
  | .service (.dbPut req) => do
    return writeU8 7 ++ encodeTask req.task ++ (← encodeString req.key) ++ writeU64 req.bytes
  | .service (.dbGet req) => do
    return writeU8 8 ++ encodeTask req.task ++ (← encodeString req.key)

def encode (self : GuestDescriptor) (slotBytes : ℕ) : Except String (List UInt8) := do
  padSlot (← self.payload) slotBytes

def reader : Reader GuestDescriptor := do
  match ← readU8 with
  | 1 =>
    let opId ← readU64
    let task ← decodeTask
    let entity ← readU32
    let opcode ← decodeOpcode (← readU8)
    let segment ← decodeOptSegment
    let block ← decodeOptString
    return .io { opId, task, entity, opcode, segment, block := block.map .mk }
  | 2 =>
    let task ← decodeTask
    let block ← decodeString
    return .service (.blockWriteback ⟨block⟩ task)
  | 3 =>
    let task ← decodeTask
    let requesterEntity ← readU32
    let segment ← readU64
    let bytes ← readU64
    return .service (.shmemPut { task, requesterEntity, segment := ⟨segment⟩, bytes })
  | 4 =>
    let task ← decodeTask
    let requesterEntity ← readU32
    let segment ← readU64
    let bytes ← readU64
    return .service (.shmemGet { task, requesterEntity, segment := ⟨segment⟩, bytes })
  | 5 =>
    let task ← decodeTask
    let path ← decodeString
    return .service (.dfsRead { task, path })
  | 6 =>
    let task ← decodeTask
    let path ← decodeString
    let bytes ← readU64
    return .service (.dfsWrite { task, path, bytes })
  | 7 =>
    let task ← decodeTask
    let key ← decodeString
    let bytes ← readU64
    return .service (.dbPut { task, key, bytes })
  | 8 =>
    let task ← decodeTask
    let key ← decodeString
    return .service (.dbGet { task, key })
  | _ => throw "invalid descriptor kind"

def decode (bytes : List UInt8) : Except String GuestDescriptor := reader.run' bytes

end GuestDescriptor

/-! ### Completion slots -/

def encodeSource : CompletionSource → UInt8
  | .chipBackend => 1
  | .blockService => 2
  | .shmemService => 3
  | .dfsService => 4
  | .dbService => 5
  | .guestUapi => 6
  | .remoteNode => 7

def decodeSource : UInt8 → Except String CompletionSource
  | 1 => .ok .chipBackend
  | 2 => .ok .blockService
  | 3 => .ok .shmemService
  | 4 => .ok .dfsService
  | 5 => .ok .dbService
  | 6 => .ok .guestUapi
  | 7 => .ok .remoteNode
  | _ => .error "invalid completion source"

def encodeStatus : CompletionStatus → Except String (List UInt8)
  | .success => .ok (writeU8 1)
  | .retryableFailure code => do return writeU8 2 ++ (← encodeString code)
  | .fatalFailure code => do return writeU8 3 ++ (← encodeString code)

def decodeStatus : Reader CompletionStatus := do
  match ← readU8 with
  | 1 => return .success
  | 2 => return .retryableFailure (← decodeString)
  | 3 => return .fatalFailure (← decodeString)
  | _ => throw "invalid completion status"

namespace CompletionEvent

def payload (event : CompletionEvent) : Except String (List UInt8) := do
  let status ← encodeStatus event.status
  return writeU64 event.opId ++ encodeTask event.task ++ writeU8 (encodeSource event.source) ++
    status ++ writeU64 event.finishedAt

def reader : Reader CompletionEvent := do
  let opId ← readU64
  let task ← decodeTask
  let source ← decodeSource (← readU8)
  let status ← decodeStatus
  let finishedAt ← readU64
  return { opId, task, source, status, finishedAt }

end CompletionEvent

def encodeCompletion (event : CompletionEvent) (slotBytes : ℕ) : Except String (List UInt8) := do
  padSlot (← event.payload) slotBytes

def decodeCompletion (bytes : List UInt8) : Except String CompletionEvent :=
  CompletionEvent.reader.run' bytes

end LinquUb
