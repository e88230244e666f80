import LinquUb.Qemu.Codec
import LinquUb.Uapi.Commands

/-!
# The backend adapter

`QemuBackendAdapter` of `sim-qemu` runs the commands of an endpoint on the guest surface, and
`LinquUbBridge` is the interface that the emulator calls.

The `LINQU_UB_*` variables of the environment are a parameter; a variable that does not parse counts
as missing.
-/

namespace LinquUb

open Action

/-- The variables that tune the surface. -/
structure TuningEnv where
  blockQueueDepth : Option UInt64
  shmemQueueDepth : Option UInt64
  dfsQueueDepth : Option UInt64
  dbQueueDepth : Option UInt64
  runtimeIssueLatencyUs : Option UInt64
  runtimeRetryDelayUs : Option UInt64
  runtimeQueueDepth : Option ℕ
  runtimeMaxRetries : Option ℕ
deriving DecidableEq, Repr

/-- No variable is set. -/
def TuningEnv.unset : TuningEnv := ⟨none, none, none, none, none, none, none, none⟩

/-- What the simulator is started with: the topology, the hash order and the environment. -/
structure Machine where
  topology : SimTopology
  hashOrder : HashOrder
  env : TuningEnv

def Machine.config (machine : Machine) : LocalGuestUapiSurface.Config :=
  { topology := machine.topology
    hashOrder := machine.hashOrder
    blockProfile := { BlockServiceProfile.default with
      queueDepth := machine.env.blockQueueDepth.getD 16 }
    shmemProfile := { ShmemServiceProfile.default with
      queueDepth := machine.env.shmemQueueDepth.getD 16 }
    dfsProfile := { DfsServiceProfile.default with
      queueDepth := machine.env.dfsQueueDepth.getD 16 }
    dbProfile := { DbServiceProfile.default with
      queueDepth := machine.env.dbQueueDepth.getD 16 }
    runtimeIssueLatencyUs := machine.env.runtimeIssueLatencyUs.getD 4
    runtimeRetryDelayUs := machine.env.runtimeRetryDelayUs.getD 5
    runtimeQueueDepth := machine.env.runtimeQueueDepth.getD 32
    runtimeMaxRetries := machine.env.runtimeMaxRetries.getD 1 }

def tunedSurfaceFromEnv (machine : Machine) : LocalGuestUapiSurface :=
  .withProfilesAndRuntimePolicy machine.config

/-- An empty topology, the hash order that takes the largest handle, and no variables. -/
def Machine.sample : Machine :=
  { topology := ⟨[], [], [], [], [], [], [], []⟩
    hashOrder := LocalGuestUapiSurface.HashOrder.descending
    env := .unset }

structure QemuBackendAdapter where
  profile : MachineProfile
  surface : LocalGuestUapiSurface

namespace QemuBackendAdapter

def withProfile (machine : Machine) (profile : MachineProfile) : QemuBackendAdapter :=
  { profile, surface := tunedSurfaceFromEnv machine }

def new (machine : Machine) : QemuBackendAdapter := withProfile machine .default

/-- `self.surface.execute(cmd)?`. -/
def execute (cmd : UapiCommand) : Action QemuBackendAdapter SimError UapiResponse :=
  zoom (·.surface) (fun adapter surface => { adapter with surface }) (Uapi.execute cmd)

def queryTopology : Action QemuBackendAdapter SimError TopologySnapshot := do
  match ← execute .queryTopology with
  | .topologySnapshot snapshot => return snapshot
  | _ => throw (.invalidInput "unexpected topology response")

/-- The first half of `register_endpoint`. -/
def registerCq (entity : EntityId) : Action QemuBackendAdapter SimError CqHandle := do
  match ← execute (.registerCq entity) with
  | .cqRegistered cq => return cq
  | _ => throw (.invalidInput "unexpected cq registration response")

/-- The second half of `register_endpoint`. -/
def createCmdQueue (cq : CqHandle) (entity : EntityId) (depth : ℕ) :
    Action QemuBackendAdapter SimError CmdQueueHandle := do
  match ← execute (.createCmdQueue cq entity depth) with
  | .cmdQueueCreated cmdq => return cmdq
  | _ => throw (.invalidInput "unexpected cmdq creation response")

def registerEndpoint (entity : EntityId) : Action QemuBackendAdapter SimError GuestEndpointSession := do
  let cq ← registerCq entity
  let layout := (← get).profile.endpoint
  let cmdq ← createCmdQueue cq entity layout.cmdqDepth.toNat
  return { entity, cq, cmdq, layout }

def createSegment (bytes : UInt64) : Action QemuBackendAdapter SimError SegmentHandle := do
  match ← execute (.createSegment bytes) with
  | .segmentCreated segment => return segment
  | _ => throw (.invalidInput "unexpected segment response")

def enqueueDescriptor (session : GuestEndpointSession) (desc : GuestDescriptor) :
    Action QemuBackendAdapter SimError (ℕ × ℕ) := do
  match ← execute (.enqueueCmd session.cmdq session.entity desc.toUapiDescriptor) with
  | .commandEnqueued depth remainingCapacity => return (depth, remainingCapacity)
  | _ => throw (.invalidInput "unexpected enqueue response")

def ringDoorbell (session : GuestEndpointSession) (maxBatch : Option ℕ) :
    Action QemuBackendAdapter SimError (ℕ × ℕ) := do
  match ← execute (.ringDoorbell session.cmdq session.entity maxBatch) with
  | .doorbellRung submitted pending => return (submitted, pending)
  | _ => throw (.invalidInput "unexpected doorbell response")

def pollCq (session : GuestEndpointSession) (maxEntries : Option ℕ) :
    Action QemuBackendAdapter SimError (List CompletionEvent × ℕ) := do
  match ← execute (.pollCq session.cq session.entity maxEntries) with
  | .completions events remaining => return (events, remaining)
  | _ => throw (.invalidInput "unexpected cq poll response")

def getHealth (entity : EntityId) : Action QemuBackendAdapter SimError HealthStatus := do
  match ← execute (.getHealth entity) with
  | .healthStatus health => return health
  | _ => throw (.invalidInput "unexpected health response")

/-! ### Every method is a run of the surface -/

/-- The surface has only executed commands since. -/
structure Runs (adapter adapter' : QemuBackendAdapter) : Prop where
  profile : adapter'.profile = adapter.profile
  surface : ∃ cmds, adapter'.surface = adapter.surface.run cmds

theorem Runs.refl (adapter : QemuBackendAdapter) : Runs adapter adapter := ⟨rfl, [], rfl⟩

theorem Runs.trans (a b c : QemuBackendAdapter) (hab : Runs a b) (hbc : Runs b c) : Runs a c := by
  obtain ⟨hprofile, cmds, hcmds⟩ := hab
  obtain ⟨hprofile', cmds', hcmds'⟩ := hbc
  refine ⟨hprofile'.trans hprofile, cmds ++ cmds', ?_⟩
  rw [hcmds', hcmds, LocalGuestUapiSurface.run, LocalGuestUapiSurface.run,
    LocalGuestUapiSurface.run, List.foldl_append]

theorem execute_runs (cmd : UapiCommand) : Within Runs (execute cmd) :=
  fun _ => ⟨rfl, [cmd], rfl⟩

/-- A method that executes one command and reads its response. -/
theorem respond_runs {α : Type} (cmd : UapiCommand)
    {f : UapiResponse → Action QemuBackendAdapter SimError α}
    (hf : ∀ response, Within Runs (f response)) : Within Runs (execute cmd >>= f) :=
  within_bind Runs.trans (execute_runs cmd) hf

theorem queryTopology_runs : Within Runs queryTopology :=
  respond_runs _ fun response _ => by cases response <;> exact .refl _

theorem registerCq_runs (entity : EntityId) : Within Runs (registerCq entity) :=
  respond_runs _ fun response _ => by cases response <;> exact .refl _

theorem createCmdQueue_runs (cq : CqHandle) (entity : EntityId) (depth : ℕ) :
    Within Runs (createCmdQueue cq entity depth) :=
  respond_runs _ fun response _ => by cases response <;> exact .refl _

theorem registerEndpoint_runs (entity : EntityId) : Within Runs (registerEndpoint entity) := by
  refine within_bind Runs.trans (registerCq_runs entity) fun cq => ?_
  refine within_bind Runs.trans Runs.refl fun adapter => ?_
  exact within_bind Runs.trans (createCmdQueue_runs _ _ _) fun _ => Runs.refl

theorem createSegment_runs (bytes : UInt64) : Within Runs (createSegment bytes) :=
  respond_runs _ fun response _ => by cases response <;> exact .refl _

theorem enqueueDescriptor_runs (session : GuestEndpointSession) (desc : GuestDescriptor) :
    Within Runs (enqueueDescriptor session desc) :=
  respond_runs _ fun response _ => by cases response <;> exact .refl _

theorem ringDoorbell_runs (session : GuestEndpointSession) (maxBatch : Option ℕ) :
    Within Runs (ringDoorbell session maxBatch) :=
  respond_runs _ fun response _ => by cases response <;> exact .refl _

theorem pollCq_runs (session : GuestEndpointSession) (maxEntries : Option ℕ) :
    Within Runs (pollCq session maxEntries) :=
  respond_runs _ fun response _ => by cases response <;> exact .refl _

theorem getHealth_runs (entity : EntityId) : Within Runs (getHealth entity) :=
  respond_runs _ fun response _ => by cases response <;> exact .refl _

/-- A poll hands out at most as many completions as it is asked for. -/
theorem pollCq_length {session : GuestEndpointSession} {n rest : ℕ} {events : List CompletionEvent}
    {adapter adapter' : QemuBackendAdapter}
    (h : exec (pollCq session (some n)) adapter = (.ok (events, rest), adapter')) :
    events.length ≤ n := by
  obtain ⟨response, adapter₁, hexecute, h⟩ := exec_bind_eq_ok.1 h
  obtain ⟨hresponse, _⟩ := Prod.mk.inj hexecute
  obtain ⟨⟨polled, remaining⟩, s, hpoll, hreturn⟩ :=
    exec_bind_eq_ok.1 (Prod.ext hresponse rfl : exec (Uapi.execute (.pollCq session.cq
      session.entity (some n))) adapter.surface = (.ok response, _))
  cases hreturn
  cases h
  exact Uapi.pollCqWithOwner_length hpoll

/-! ### What a method does on the surface -/

/-- A method that executes one command and unpacks its response. -/
theorem respond_exec {α : Type} {cmd : UapiCommand} {m : Uapi α} (wrap : α → UapiResponse)
    {f : UapiResponse → Action QemuBackendAdapter SimError α}
    (hcmd : Uapi.execute cmd = do return wrap (← m)) (hf : ∀ a, f (wrap a) = pure a)
    (adapter : QemuBackendAdapter) : exec (execute cmd >>= f) adapter =
      ((exec m adapter.surface).1, { adapter with surface := (exec m adapter.surface).2 }) := by
  rcases hexec : exec m adapter.surface with ⟨e | a, s⟩
  · have hexecute : exec (execute cmd) adapter = (.error e, { adapter with surface := s }) := by
      rw [execute, exec_zoom, hcmd, exec_bind_error hexec]
    rw [exec_bind_error hexecute]
  · have hexecute : exec (execute cmd) adapter = (.ok (wrap a), { adapter with surface := s }) := by
      rw [execute, exec_zoom, hcmd, exec_bind_ok hexec]
      rfl
    rw [exec_bind_ok hexecute, hf]
    rfl

theorem createCmdQueue_exec (cq : CqHandle) (entity : EntityId) (depth : ℕ)
    (adapter : QemuBackendAdapter) : exec (createCmdQueue cq entity depth) adapter =
      ((exec (Uapi.createCmdQueue cq entity depth) adapter.surface).1,
        { adapter with surface := (exec (Uapi.createCmdQueue cq entity depth) adapter.surface).2 }) :=
  respond_exec .cmdQueueCreated rfl (fun _ => rfl) adapter

theorem enqueueDescriptor_exec (session : GuestEndpointSession) (desc : GuestDescriptor)
    (adapter : QemuBackendAdapter) : exec (enqueueDescriptor session desc) adapter =
      ((exec (Uapi.enqueueCmd session.cmdq session.entity desc.toUapiDescriptor) adapter.surface).1,
        { adapter with surface :=
          (exec (Uapi.enqueueCmd session.cmdq session.entity desc.toUapiDescriptor)
            adapter.surface).2 }) :=
  respond_exec (fun counts => .commandEnqueued counts.1 counts.2) rfl (fun _ => rfl) adapter

theorem ringDoorbell_exec (session : GuestEndpointSession) (maxBatch : Option ℕ)
    (adapter : QemuBackendAdapter) : exec (ringDoorbell session maxBatch) adapter =
      ((exec (Uapi.ringDoorbell session.cmdq session.entity maxBatch) adapter.surface).1,
        { adapter with surface :=
          (exec (Uapi.ringDoorbell session.cmdq session.entity maxBatch) adapter.surface).2 }) :=
  respond_exec (fun counts => .doorbellRung counts.1 counts.2) rfl (fun _ => rfl) adapter

end QemuBackendAdapter

/-! ### The bridge -/

structure BridgeEndpointSession where
  session : GuestEndpointSession
  defaultSegment : UInt64
deriving DecidableEq

structure LinquUbBridge where
  adapter : QemuBackendAdapter
  sessions : Finmap fun _ : UInt16 => BridgeEndpointSession

namespace LinquUbBridge

/-- The bridge of a scenario that has been read. -/
def new (machine : Machine) : LinquUbBridge := { adapter := .new machine, sessions := ∅ }

/-- A call of the adapter. -/
def onAdapter {α : Type} (m : Action QemuBackendAdapter SimError α) :
    Action LinquUbBridge SimError α :=
  zoom (·.adapter) (fun bridge adapter => { bridge with adapter }) m

def session (endpointId : UInt16) : Action LinquUbBridge String GuestEndpointSession := do
  match (← get).sessions.lookup endpointId with
  | some entry => return entry.session
  | none => throw "unknown endpoint"

def registerEndpoint (endpointId : UInt16) (entityId : EntityId) : Action LinquUbBridge String Unit :=
  do
    let session ← mapErr (fun _ => "register endpoint failed")
      (onAdapter (QemuBackendAdapter.registerEndpoint entityId))
    let defaultSegment ← mapErr (fun _ => "create default segment failed")
      (onAdapter (QemuBackendAdapter.createSegment 4096))
    modify fun bridge => { bridge with
      sessions := Finmap.insert endpointId ⟨session, defaultSegment.id⟩ bridge.sessions }

def submitSlot (endpointId : UInt16) (slot : List UInt8) : Action LinquUbBridge String Unit := do
  let session ← session endpointId
  let desc ← ofExcept (GuestDescriptor.decode slot)
  let _ ← mapErr (fun _ => "enqueue failed")
    (onAdapter (QemuBackendAdapter.enqueueDescriptor session desc))

def ringDoorbell (endpointId : UInt16) (maxBatch : UInt32) :
    Action LinquUbBridge String (UInt32 × UInt32) := do
  let session ← session endpointId
  let (submitted, pending) ← mapErr (fun _ => "doorbell failed")
    (onAdapter (QemuBackendAdapter.ringDoorbell session (some maxBatch.toNat)))
  return (.ofNat submitted, .ofNat pending)

/-- The result is the new content of `slot_out`, if there was a completion. -/
def pollCompletion (endpointId : UInt16) (slotOut : List UInt8) :
    Action LinquUbBridge String (Option (List UInt8)) := do
  let session ← session endpointId
  let (events, _) ← mapErr (fun _ => "poll completion failed")
    (onAdapter (QemuBackendAdapter.pollCq session (some 1)))
  match events.head? with
  | some event => return some (← ofExcept (encodeCompletion event slotOut.length))
  | none => return none

end LinquUbBridge

end LinquUb
