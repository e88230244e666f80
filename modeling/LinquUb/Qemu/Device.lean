import LinquUb.LTS.Window
import LinquUb.Qemu.Adapter
import LinquUb.Qemu.Memory

/-!
# The device model

`LinquDeviceModel` of `sim-qemu`: endpoints with a command ring and a completion ring in guest
memory, driven by memory-mapped registers.

* A method that has looked up its endpoint works on the adapter and that endpoint's state
  (`EndpointView`); `withEndpoint` is the lookup.
* 16-bit sums wrap around, as in a release build; a debug build would stop there.
* Every endpoint carries a history that no function reads: the completions stored in its ring, how
  many of them have left it, and those that were returned by a poll.
-/

namespace LinquUb

open Action

structure DeviceEndpointState where
  session : GuestEndpointSession
  memory : GuestRingMemory
  cmdqHead : ℕ
  cmdqTail : ℕ
  cmdqCount : ℕ
  cqHead : ℕ
  cqTail : ℕ
  cqCount : ℕ
  lastError : UInt64
  irqStatus : UInt64
  /-- The completions that were stored in the ring, in the order of their arrival. -/
  arrived : List CompletionEvent
  /-- How many of them have left the ring. -/
  retired : ℕ
  /-- The completions that polls have returned. -/
  returned : List CompletionEvent

namespace DeviceEndpointState

def new (session : GuestEndpointSession) : DeviceEndpointState :=
  { session
    memory := .new session.layout.cmdqDepth.toNat session.layout.cqDepth.toNat
      session.layout.descriptorBytes.toNat
    cmdqHead := 0, cmdqTail := 0, cmdqCount := 0
    cqHead := 0, cqTail := 0, cqCount := 0
    lastError := 0, irqStatus := 0
    arrived := [], retired := 0, returned := [] }

variable (self : DeviceEndpointState)

/-- One descriptor has been submitted. -/
def submitted : DeviceEndpointState :=
  { self with
    cmdqHead := (self.cmdqHead + 1) % self.memory.cmdDepth
    cmdqCount := self.cmdqCount - 1 }

/-- One completion leaves the ring. -/
def retire : DeviceEndpointState :=
  { self with
    cqHead := (self.cqHead + 1) % self.memory.cqDepth
    cqCount := self.cqCount - 1
    retired := self.retired + 1 }

/-- A completion has been written to the slot at the tail. -/
def store (memory : GuestRingMemory) (completion : CompletionEvent) : DeviceEndpointState :=
  { self with
    memory
    cqTail := (self.cqTail + 1) % memory.cqDepth
    cqCount := self.cqCount + 1
    arrived := self.arrived ++ [completion] }

end DeviceEndpointState

/-- What a method that has looked up its endpoint works on. -/
structure EndpointView where
  adapter : QemuBackendAdapter
  state : DeviceEndpointState

namespace EndpointView

def onAdapter {α : Type} (m : Action QemuBackendAdapter SimError α) :
    Action EndpointView SimError α :=
  zoom (·.adapter) (fun view adapter => { view with adapter }) m

def onState {α : Type} (m : Action DeviceEndpointState SimError α) :
    Action EndpointView SimError α :=
  zoom (·.state) (fun view state => { view with state }) m

end EndpointView

open EndpointView (onAdapter onState)

namespace DeviceEndpointState

def writeCmdDescriptor (slot : ℕ) (desc : GuestDescriptor) :
    Action DeviceEndpointState SimError Unit := do
  let st ← get
  let memory ← mapErr .invalidInput (ofExcept (st.memory.writeCmdSlot slot desc))
  set { st with memory }

def writeCmdqTail (newTail : ℕ) : Action DeviceEndpointState SimError Unit := do
  let st ← get
  let depth := st.memory.cmdDepth
  if newTail ≥ depth then
    throw (.invalidInput "cmd tail out of range")
  let advance := LTS.advance depth st.cmdqTail newTail
  if st.cmdqCount + advance > depth then
    throw (.invalidInput "cmd queue overflow")
  set { st with cmdqTail := newTail, cmdqCount := st.cmdqCount + advance }

def writeCqHead (newHead : ℕ) : Action DeviceEndpointState SimError Unit := do
  let st ← get
  let depth := st.memory.cqDepth
  if newHead ≥ depth then
    throw (.invalidInput "cq head out of range")
  let advance := LTS.advance depth st.cqHead newHead
  if advance > st.cqCount then
    throw (.invalidInput "cq head exceeds pending completions")
  -- the loop of the source: one slot after the other, without taking what it holds
  set (retire^[advance] st)

def writeIrqAck (value : UInt64) : Action DeviceEndpointState SimError Unit :=
  modify fun st => { st with irqStatus := st.irqStatus &&& ~~~value }

/-- Take a descriptor out of the ring; the slot is given up even if this fails. -/
def takeCmd : Action DeviceEndpointState SimError GuestDescriptor := do
  let st ← get
  let (desc, memory) := st.memory.takeCmdSlot st.cmdqHead
  set { st with memory }
  mapErr .invalidInput (ofExcept desc)

/-- Take a completion out of the ring. -/
def takeCq : Action DeviceEndpointState SimError CompletionEvent := do
  let st ← get
  let (completion, memory) := st.memory.takeCqSlot st.cqHead
  set { st with memory }
  mapErr .invalidInput (ofExcept completion)

/-- The loop of `poll_cq`. -/
def takeCompletions : ℕ → Action DeviceEndpointState SimError (List CompletionEvent)
  | 0 => return []
  | n + 1 => do
    let completion ← takeCq
    modify retire
    return completion :: (← takeCompletions n)

/-- `poll_cq` after the flush. -/
def pollRing (maxEntries : Option ℕ) :
    Action DeviceEndpointState SimError (List CompletionEvent × ℕ) := do
  let st ← get
  let limit := min (maxEntries.getD st.cqCount) st.cqCount
  let events ← takeCompletions limit
  modify fun st => { st with returned := st.returned ++ events }
  return (events, (← get).cqCount)

/-- The loop of `flush_cq_ring`; an error leaves the rest of the completions behind. -/
def storeAll (events : List CompletionEvent) : Action DeviceEndpointState SimError Unit :=
  match events with
  | [] => pure ()
  | completion :: rest => do
    let st ← get
    let memory ← mapErr .invalidInput (ofExcept (st.memory.writeCqSlot st.cqTail completion))
    set (st.store memory completion)
    storeAll rest

/-- `flush_cq_ring` after the poll of the adapter. -/
def storeCompletions (events : List CompletionEvent) : Action DeviceEndpointState SimError Unit := do
  storeAll events
  let st ← get
  if st.cqCount > 0 then
    set { st with irqStatus := st.irqStatus ||| DeviceInterruptStatus.completion }

end DeviceEndpointState

namespace EndpointView

open DeviceEndpointState

/-- `flush_cq_ring` after the lookup. -/
def flushCqRing : Action EndpointView SimError Unit := do
  let st := (← get).state
  let available := st.memory.cqDepth - st.cqCount
  if available = 0 then
    return
  let (events, _) ← onAdapter (QemuBackendAdapter.pollCq st.session (some available))
  onState (storeCompletions events)

/-- The loop of `mmio_ring_doorbell`. -/
def submitSlots : ℕ → Action EndpointView SimError Unit
  | 0 => pure ()
  | n + 1 => do
    let desc ← onState takeCmd
    let _ ← onAdapter (QemuBackendAdapter.enqueueDescriptor (← get).state.session desc)
    onState (modify submitted)
    submitSlots n

/-- The first block of `mmio_ring_doorbell`: the session, the number of descriptors that were
enqueued and the number of those left in the ring. -/
def submitBatch (batch : Option ℕ) : Action EndpointView SimError (GuestEndpointSession × ℕ × ℕ) := do
  let st := (← get).state
  let toSubmit := min (batch.getD st.cmdqCount) st.cmdqCount
  submitSlots toSubmit
  return (st.session, toSubmit, (← get).state.cmdqCount)

end EndpointView

inductive RegisterKind
  | cmdqHead | cmdqTail | cqHead | cqTail | status | doorbell | lastError | irqStatus | irqAck
deriving DecidableEq, Repr

structure LinquDeviceModel where
  mmio : MmioRegisterMap
  adapter : QemuBackendAdapter
  nextEndpointId : UInt16
  endpoints : Finmap fun _ : EndpointId => DeviceEndpointState

/-- A method of the device. -/
abbrev Device (α : Type) := Action LinquDeviceModel SimError α

namespace LinquDeviceModel

def withProfile (machine : Machine) (profile : MachineProfile) : LinquDeviceModel :=
  { mmio := .default, adapter := .withProfile machine profile, nextEndpointId := 0, endpoints := ∅ }

variable (self : LinquDeviceModel)

def decodeMmioOffset (offset : UInt64) : Except SimError (EndpointId × RegisterKind) :=
  if offset < self.mmio.endpointBase then
    .error (.invalidInput "mmio offset below endpoint base")
  else
    let relative := offset - self.mmio.endpointBase
    let regOffset := relative % self.mmio.endpointStride
    let endpoint : EndpointId := ⟨(relative / self.mmio.endpointStride).toUInt16 + 1⟩
    if (self.endpoints.lookup endpoint).isNone then .error (.notFound "endpoint")
    else if regOffset = self.mmio.cmdqHeadOffset then .ok (endpoint, .cmdqHead)
    else if regOffset = self.mmio.cmdqTailOffset then .ok (endpoint, .cmdqTail)
    else if regOffset = self.mmio.cqHeadOffset then .ok (endpoint, .cqHead)
    else if regOffset = self.mmio.cqTailOffset then .ok (endpoint, .cqTail)
    else if regOffset = self.mmio.statusOffset then .ok (endpoint, .status)
    else if regOffset = self.mmio.doorbellOffset then .ok (endpoint, .doorbell)
    else if regOffset = self.mmio.lastErrorOffset then .ok (endpoint, .lastError)
    else if regOffset = self.mmio.irqStatusOffset then .ok (endpoint, .irqStatus)
    else if regOffset = self.mmio.irqAckOffset then .ok (endpoint, .irqAck)
    else .error (.invalidInput "unknown mmio register")

def tryDecodeEndpoint (offset : UInt64) : Option EndpointId :=
  if offset < self.mmio.endpointBase then
    none
  else
    let relative := offset - self.mmio.endpointBase
    some ⟨(relative / self.mmio.endpointStride).toUInt16 + 1⟩

def encodeStatus (status : DeviceQueueStatus) : UInt64 :=
  let field (value : ℕ) (mask shift : UInt64) : UInt64 := (UInt64.ofNat value &&& mask) <<< shift
  field status.cmdqPending 0xffff 0 ||| field status.cqPending 0xffff 16 |||
    field status.cmdqHead 0xff 32 ||| field status.cmdqTail 0xff 40 |||
    field status.cqHead 0xff 48 ||| field status.cqTail 0xff 56

def classifyError : SimError → DeviceErrorCode
  | .notFound _ => .endpointNotFound
  | .notImplemented => .notImplemented
  | .invalidInput "mmio register is read-only" => .invalidRegisterWrite
  | .invalidInput "unknown mmio register" => .invalidOffset
  | .invalidInput "mmio offset below endpoint base" => .invalidOffset
  | .invalidInput "cmd queue overflow" => .queueOverflow
  | .invalidInput "cmd slot out of range" => .rangeError
  | .invalidInput "cmd tail out of range" => .rangeError
  | .invalidInput "cq head out of range" => .rangeError
  | .invalidInput "cq head exceeds pending completions" => .rangeError
  | .invalidInput "missing descriptor in cmd ring" => .invalidDescriptor
  | .invalidInput "missing completion in cq ring" => .invalidDescriptor
  | .invalidInput _ => .invalidRegisterRead

/-- The state of one endpoint is replaced. -/
def update (endpoint : EndpointId) (state : DeviceEndpointState) : LinquDeviceModel :=
  { self with endpoints := Finmap.insert endpoint state self.endpoints }

def setLastError (endpoint : EndpointId) (err : SimError) : LinquDeviceModel :=
  match self.endpoints.lookup endpoint with
  | none => self
  | some state => self.update endpoint { state with
      lastError := (classifyError err).toU64
      irqStatus := state.irqStatus ||| DeviceInterruptStatus.error }

end LinquDeviceModel

namespace Device

def onAdapter {α : Type} (m : Action QemuBackendAdapter SimError α) : Device α :=
  zoom (·.adapter) (fun device adapter => { device with adapter }) m

/-- Look up an endpoint and work on it. -/
def withEndpoint {α : Type} (endpoint : EndpointId) (m : Action EndpointView SimError α) :
    Device α := do
  let device ← get
  match device.endpoints.lookup endpoint with
  | none => throw (.notFound "endpoint")
  | some state =>
    let (result, view) := exec m { adapter := device.adapter, state }
    set { device.update endpoint view.state with adapter := view.adapter }
    ofExcept result

/-- Run a method and record its error in the endpoint. -/
def recordError {α : Type} (endpoint : EndpointId) (m : Device α) : Device α :=
  tryCatch m fun err => do
    modify (·.setLastError endpoint err)
    throw err

def decodeMmioOffset (offset : UInt64) : Device (EndpointId × RegisterKind) := do
  let device ← get
  match device.decodeMmioOffset offset, device.tryDecodeEndpoint offset with
  | .ok decoded, _ => return decoded
  | .error err, some endpoint => recordError endpoint (throw err)
  | .error err, none => throw err

def queryTopology : Device TopologySnapshot := onAdapter QemuBackendAdapter.queryTopology

def realizeEndpoint (entity : EntityId) : Device (EndpointId × GuestEndpointLayout) := do
  modify fun device => { device with nextEndpointId := device.nextEndpointId + 1 }
  let endpoint : EndpointId := ⟨(← get).nextEndpointId⟩
  let session ← onAdapter (QemuBackendAdapter.registerEndpoint entity)
  modify (·.update endpoint (.new session))
  return (endpoint, session.layout)

def createSegment (endpoint : EndpointId) (bytes : UInt64) : Device SegmentHandle :=
  withEndpoint endpoint (EndpointView.onAdapter (QemuBackendAdapter.createSegment bytes))

def writeCmdDescriptor (endpoint : EndpointId) (slot : ℕ) (desc : GuestDescriptor) : Device Unit :=
  withEndpoint endpoint (onState (DeviceEndpointState.writeCmdDescriptor slot desc))

def mmioWriteCmdqTail (endpoint : EndpointId) (newTail : ℕ) : Device Unit :=
  withEndpoint endpoint (onState (DeviceEndpointState.writeCmdqTail newTail))

def mmioWriteCqHead (endpoint : EndpointId) (newHead : ℕ) : Device Unit :=
  withEndpoint endpoint (onState (DeviceEndpointState.writeCqHead newHead))

def mmioWriteIrqAck (endpoint : EndpointId) (value : UInt64) : Device Unit :=
  withEndpoint endpoint (onState (DeviceEndpointState.writeIrqAck value))

def flushCqRing (endpoint : EndpointId) : Device Unit :=
  withEndpoint endpoint EndpointView.flushCqRing

def readStatus (endpoint : EndpointId) : Device DeviceQueueStatus := do
  flushCqRing endpoint
  withEndpoint endpoint do
    let st := (← get).state
    return { cmdqHead := st.cmdqHead, cmdqTail := st.cmdqTail, cmdqPending := st.cmdqCount,
             cqHead := st.cqHead, cqTail := st.cqTail, cqPending := st.cqCount }

/-- `mmio_ring_doorbell` up to its flush; the last component says whether the adapter was rung. -/
def submitAndRing (write : DoorbellWrite) : Device (ℕ × ℕ × Bool) := do
  let (session, enqueued, pendingAfterSubmit) ←
    withEndpoint write.endpoint (EndpointView.submitBatch write.batch)
  if enqueued = 0 then
    return (0, pendingAfterSubmit, false)
  let (submitted, pending) ← onAdapter (QemuBackendAdapter.ringDoorbell session (some enqueued))
  return (submitted, pending, true)

def mmioRingDoorbell (write : DoorbellWrite) : Device (ℕ × ℕ) := do
  let (submitted, pending, rung) ← submitAndRing write
  if rung then
    flushCqRing write.endpoint
  return (submitted, pending)

def pollCq (endpoint : EndpointId) (maxEntries : Option ℕ) : Device (List CompletionEvent × ℕ) := do
  flushCqRing endpoint
  withEndpoint endpoint (onState (DeviceEndpointState.pollRing maxEntries))

def drainCq (endpoint : EndpointId) : Device (List CompletionEvent) := do
  flushCqRing endpoint
  let (events, _) ← pollCq endpoint none
  return events

def getHealth (entity : EntityId) : Device HealthStatus := onAdapter (QemuBackendAdapter.getHealth entity)

/-- The match of `mmio_write`. -/
def writeRegister (endpoint : EndpointId) (value : UInt64) : RegisterKind → Device Unit
  | .cmdqTail => mmioWriteCmdqTail endpoint value.toNat
  | .cqHead => mmioWriteCqHead endpoint value.toNat
  | .doorbell => do
    let _ ← mmioRingDoorbell { endpoint, batch := some value.toNat }
  | .irqAck => mmioWriteIrqAck endpoint value
  | .cmdqHead | .cqTail | .status | .lastError | .irqStatus =>
    throw (.invalidInput "mmio register is read-only")

def mmioWrite (offset value : UInt64) : Device Unit := do
  let (endpoint, reg) ← decodeMmioOffset offset
  recordError endpoint (writeRegister endpoint value reg)

def mmioRead (offset : UInt64) : Device UInt64 := do
  let (endpoint, reg) ← decodeMmioOffset offset
  -- a failing `read_status` returns at once, so its error is not recorded
  match reg with
  | .cmdqHead => return UInt64.ofNat (← readStatus endpoint).cmdqHead
  | .cmdqTail => return UInt64.ofNat (← readStatus endpoint).cmdqTail
  | .cqHead => return UInt64.ofNat (← readStatus endpoint).cqHead
  | .cqTail => return UInt64.ofNat (← readStatus endpoint).cqTail
  | .status => return LinquDeviceModel.encodeStatus (← readStatus endpoint)
  | .doorbell => return 0
  | .lastError => withEndpoint endpoint do return (← get).state.lastError
  | .irqStatus => withEndpoint endpoint do return (← get).state.irqStatus
  | .irqAck => recordError endpoint (throw (.invalidInput "mmio register is write-only"))

end Device

/-- The calls of the device's public methods. -/
inductive DeviceCall
  | queryTopology
  | realizeEndpoint (entity : EntityId)
  | createSegment (endpoint : EndpointId) (bytes : UInt64)
  | writeCmdDescriptor (endpoint : EndpointId) (slot : ℕ) (desc : GuestDescriptor)
  | mmioWriteCmdqTail (endpoint : EndpointId) (newTail : ℕ)
  | mmioWrite (offset value : UInt64)
  | mmioRead (offset : UInt64)
  | readStatus (endpoint : EndpointId)
  | mmioRingDoorbell (write : DoorbellWrite)
  | pollCq (endpoint : EndpointId) (maxEntries : Option ℕ)
  | drainCq (endpoint : EndpointId)
  | getHealth (entity : EntityId)
deriving DecidableEq

/-- Make a call and drop its result. -/
def Device.call : DeviceCall → Device Unit
  | .queryTopology => discard queryTopology
  | .realizeEndpoint entity => discard (realizeEndpoint entity)
  | .createSegment endpoint bytes => discard (createSegment endpoint bytes)
  | .writeCmdDescriptor endpoint slot desc => writeCmdDescriptor endpoint slot desc
  | .mmioWriteCmdqTail endpoint newTail => mmioWriteCmdqTail endpoint newTail
  | .mmioWrite offset value => mmioWrite offset value
  | .mmioRead offset => discard (mmioRead offset)
  | .readStatus endpoint => discard (readStatus endpoint)
  | .mmioRingDoorbell write => discard (mmioRingDoorbell write)
  | .pollCq endpoint maxEntries => discard (pollCq endpoint maxEntries)
  | .drainCq endpoint => discard (drainCq endpoint)
  | .getHealth entity => discard (getHealth entity)

/-- The device after a sequence of calls; calls that fail count as well. -/
def LinquDeviceModel.run (self : LinquDeviceModel) (calls : List DeviceCall) : LinquDeviceModel :=
  calls.foldl (fun device call => (exec (Device.call call) device).2) self

end LinquUb
