import LinquUb.Qemu.Sessions

/-!
# What the methods of the device do, barring some errors

The rules of `CallRules` ask that a relation holds for everything that an adapter can do.  Here the
methods of the adapter are taken one by one, and the relation need not hold when a method throws an
error `E`.

* `MethodRules` : the parts;
* `MethodRules.call` : **the calls**;
* `CommandRules.methodRules` : **what every command of the surface follows, every call follows**.
-/

namespace LinquUb

open Action

/-- `V` relates what a method on an endpoint finds and leaves, and `R` the devices before and after
it, unless it ends in an error `E`. -/
structure MethodRules (E : SimError → Prop) (V : EndpointView → EndpointView → Prop)
    (R : LinquDeviceModel → LinquDeviceModel → Prop) : Prop where
  refl : ∀ d, R d d
  trans : ∀ d e f, R d e → R e f → R d f
  endpoint : ∀ {α : Type} (endpoint : EndpointId) {m : Action EndpointView SimError α},
    Barring E V m → Barring E R (Device.withEndpoint endpoint m)
  lastError : ∀ d endpoint err, R d (d.setLastError endpoint err)
  realize : ∀ entity, Barring E R (Device.realizeEndpoint entity)
  queryTopology : Barring E R Device.queryTopology
  getHealth : ∀ entity, Barring E R (Device.getHealth entity)
  ring : ∀ session batch,
    Barring E R (Device.onAdapter (QemuBackendAdapter.ringDoorbell session batch))
  viewRefl : ∀ v, V v v
  segment : ∀ bytes, Barring E V (EndpointView.onAdapter (QemuBackendAdapter.createSegment bytes))
  flush : Barring E V EndpointView.flushCqRing
  submit : ∀ batch, Barring E V (EndpointView.submitBatch batch)
  poll : ∀ maxEntries,
    Barring E V (EndpointView.onState (DeviceEndpointState.pollRing maxEntries))
  writeCmd : ∀ slot desc,
    Barring E V (EndpointView.onState (DeviceEndpointState.writeCmdDescriptor slot desc))
  writeTail : ∀ newTail,
    Barring E V (EndpointView.onState (DeviceEndpointState.writeCmdqTail newTail))
  writeHead : ∀ newHead,
    Barring E V (EndpointView.onState (DeviceEndpointState.writeCqHead newHead))
  writeAck : ∀ value,
    Barring E V (EndpointView.onState (DeviceEndpointState.writeIrqAck value))

namespace MethodRules

variable {E : SimError → Prop} {V : EndpointView → EndpointView → Prop}
  {R : LinquDeviceModel → LinquDeviceModel → Prop} {α : Type}

theorem pure (rules : MethodRules E V R) (a : α) : Barring E R (pure a : Device α) :=
  (within_pure rules.refl a).barring

theorem throw (rules : MethodRules E V R) (e : SimError) : Barring E R (throw e : Device α) :=
  (within_throw rules.refl e).barring

theorem read (rules : MethodRules E V R) (endpoint : EndpointId) (f : EndpointView → α) :
    Barring E R (Device.withEndpoint endpoint do return f (← get)) :=
  rules.endpoint endpoint fun v _ => rules.viewRefl v

theorem recordError (rules : MethodRules E V R) (endpoint : EndpointId) {m : Device α}
    (hm : Barring E R m) : Barring E R (Device.recordError endpoint m) :=
  hm.tryCatch rules.trans fun err d => rules.lastError d endpoint err

theorem flushCqRing (rules : MethodRules E V R) (endpoint : EndpointId) :
    Barring E R (Device.flushCqRing endpoint) :=
  rules.endpoint endpoint rules.flush

theorem readStatus (rules : MethodRules E V R) (endpoint : EndpointId) :
    Barring E R (Device.readStatus endpoint) :=
  (rules.flushCqRing endpoint).bind rules.trans fun _ => rules.read endpoint _

theorem pollCq (rules : MethodRules E V R) (endpoint : EndpointId) (maxEntries : Option ℕ) :
    Barring E R (Device.pollCq endpoint maxEntries) :=
  (rules.flushCqRing endpoint).bind rules.trans fun _ =>
    rules.endpoint endpoint (rules.poll maxEntries)

theorem submitAndRing (rules : MethodRules E V R) (write : DoorbellWrite) :
    Barring E R (Device.submitAndRing write) := by
  refine (rules.endpoint _ (rules.submit write.batch)).bind rules.trans ?_
  rintro ⟨session, enqueued, pending⟩
  by_cases hnone : enqueued = 0
  · simp only [hnone, if_true]
    exact rules.pure _
  · simp only [hnone, if_false]
    exact (rules.ring session _).bind rules.trans fun _ => rules.pure _

theorem mmioRingDoorbell (rules : MethodRules E V R) (write : DoorbellWrite) :
    Barring E R (Device.mmioRingDoorbell write) := by
  refine (rules.submitAndRing write).bind rules.trans ?_
  rintro ⟨submitted, pending, rung⟩
  cases rung with
  | false => exact rules.pure _
  | true => exact (rules.flushCqRing _).bind rules.trans fun _ => rules.pure _

theorem decodeMmioOffset (rules : MethodRules E V R) (offset : UInt64) :
    Barring E R (Device.decodeMmioOffset offset) := by
  intro d
  unfold Device.decodeMmioOffset
  rw [exec_bind_ok (exec_get d)]
  rcases d.decodeMmioOffset offset with err | decoded
  · rcases d.tryDecodeEndpoint offset with _ | endpoint
    · exact fun _ => rules.refl d
    · exact rules.recordError endpoint (rules.throw err) d
  · exact fun _ => rules.refl d

theorem mmioWriteCmdqTail (rules : MethodRules E V R) (endpoint : EndpointId) (newTail : ℕ) :
    Barring E R (Device.mmioWriteCmdqTail endpoint newTail) :=
  rules.endpoint endpoint (rules.writeTail newTail)

theorem mmioWriteCqHead (rules : MethodRules E V R) (endpoint : EndpointId) (newHead : ℕ) :
    Barring E R (Device.mmioWriteCqHead endpoint newHead) :=
  rules.endpoint endpoint (rules.writeHead newHead)

theorem mmioWriteIrqAck (rules : MethodRules E V R) (endpoint : EndpointId) (value : UInt64) :
    Barring E R (Device.mmioWriteIrqAck endpoint value) :=
  rules.endpoint endpoint (rules.writeAck value)

theorem writeCmdDescriptor (rules : MethodRules E V R) (endpoint : EndpointId) (slot : ℕ)
    (desc : GuestDescriptor) : Barring E R (Device.writeCmdDescriptor endpoint slot desc) :=
  rules.endpoint endpoint (rules.writeCmd slot desc)

theorem createSegment (rules : MethodRules E V R) (endpoint : EndpointId) (bytes : UInt64) :
    Barring E R (Device.createSegment endpoint bytes) :=
  rules.endpoint endpoint (rules.segment bytes)

theorem writeRegister (rules : MethodRules E V R) (endpoint : EndpointId) (value : UInt64)
    (reg : RegisterKind) : Barring E R (Device.writeRegister endpoint value reg) := by
  cases reg with
  | cmdqTail => exact rules.mmioWriteCmdqTail endpoint value.toNat
  | cqHead => exact rules.mmioWriteCqHead endpoint value.toNat
  | doorbell => exact (rules.mmioRingDoorbell _).bind rules.trans fun _ => rules.pure _
  | irqAck => exact rules.mmioWriteIrqAck endpoint value
  | cmdqHead | cqTail | status | lastError | irqStatus => exact rules.throw _

theorem mmioWrite (rules : MethodRules E V R) (offset value : UInt64) :
    Barring E R (Device.mmioWrite offset value) :=
  (rules.decodeMmioOffset offset).bind rules.trans fun decoded =>
    rules.recordError decoded.1 (rules.writeRegister decoded.1 value decoded.2)

theorem mmioRead (rules : MethodRules E V R) (offset : UInt64) :
    Barring E R (Device.mmioRead offset) := by
  refine (rules.decodeMmioOffset offset).bind rules.trans ?_
  rintro ⟨endpoint, reg⟩
  cases reg with
  | cmdqHead | cmdqTail | cqHead | cqTail | status =>
    exact (rules.readStatus endpoint).bind rules.trans fun _ => rules.pure _
  | doorbell => exact rules.pure _
  | lastError | irqStatus => exact rules.read endpoint _
  | irqAck => exact rules.recordError endpoint (rules.throw _)

/-- **Every call follows the relation**, unless it ends in an error `E`. -/
theorem call (rules : MethodRules E V R) (call : DeviceCall) : Barring E R (Device.call call) := by
  cases call with
  | queryTopology => exact rules.queryTopology.discard
  | realizeEndpoint entity => exact (rules.realize entity).discard
  | createSegment endpoint bytes => exact (rules.createSegment endpoint bytes).discard
  | writeCmdDescriptor endpoint slot desc => exact rules.writeCmdDescriptor endpoint slot desc
  | mmioWriteCmdqTail endpoint newTail => exact rules.mmioWriteCmdqTail endpoint newTail
  | mmioWrite offset value => exact rules.mmioWrite offset value
  | mmioRead offset => exact (rules.mmioRead offset).discard
  | readStatus endpoint => exact (rules.readStatus endpoint).discard
  | mmioRingDoorbell write => exact (rules.mmioRingDoorbell write).discard
  | pollCq endpoint maxEntries => exact (rules.pollCq endpoint maxEntries).discard
  | drainCq endpoint =>
    refine Barring.discard ((rules.flushCqRing endpoint).bind rules.trans fun _ => ?_)
    exact (rules.pollCq endpoint none).bind rules.trans fun _ => rules.pure _
  | getHealth entity => exact (rules.getHealth entity).discard

end MethodRules

/-! ### Relations between surfaces -/

/-- Unless it throws an `E`, every command follows the relation. -/
structure CommandRules (E : SimError → Prop)
    (S : LocalGuestUapiSurface → LocalGuestUapiSurface → Prop) : Prop where
  refl : ∀ s, S s s
  trans : ∀ s t u, S s t → S t u → S s u
  execute : ∀ cmd, Barring E S (Uapi.execute cmd)

namespace CommandRules

open EndpointView (onAdapter onState)

variable {E : SimError → Prop} {S : LocalGuestUapiSurface → LocalGuestUapiSurface → Prop} {α : Type}

/-- The relation between what adapters, endpoints and devices work on. -/
def OnAdapters (S : LocalGuestUapiSurface → LocalGuestUapiSurface → Prop)
    (a b : QemuBackendAdapter) : Prop := S a.surface b.surface

def OnViews (S : LocalGuestUapiSurface → LocalGuestUapiSurface → Prop) (v w : EndpointView) : Prop :=
  S v.adapter.surface w.adapter.surface

def OnDevices (S : LocalGuestUapiSurface → LocalGuestUapiSurface → Prop)
    (d e : LinquDeviceModel) : Prop := S d.adapter.surface e.adapter.surface

/-- A method that executes one command and reads its response. -/
theorem respond (rules : CommandRules E S) (cmd : UapiCommand)
    {f : UapiResponse → Action QemuBackendAdapter SimError α}
    (hf : ∀ response, Within (OnAdapters S) (f response)) :
    Barring E (OnAdapters S) (QemuBackendAdapter.execute cmd >>= f) := by
  have hexecute : Barring E (OnAdapters S) (QemuBackendAdapter.execute cmd) :=
    barring_zoom (rules.execute cmd) fun _ _ h => h
  have htrans : ∀ a b c : QemuBackendAdapter, OnAdapters S a b → OnAdapters S b c →
      OnAdapters S a c := fun _ _ _ => rules.trans _ _ _
  exact hexecute.bind htrans fun response => (hf response).barring

theorem registerEndpoint (rules : CommandRules E S) (entity : EntityId) :
    Barring E (OnAdapters S) (QemuBackendAdapter.registerEndpoint entity) := by
  have htrans : ∀ a b c : QemuBackendAdapter, OnAdapters S a b → OnAdapters S b c →
      OnAdapters S a c := fun _ _ _ => rules.trans _ _ _
  have hcq : Barring E (OnAdapters S) (QemuBackendAdapter.registerCq entity) :=
    rules.respond _ fun response _ => by cases response <;> exact rules.refl _
  have hcmdq : ∀ cq depth,
      Barring E (OnAdapters S) (QemuBackendAdapter.createCmdQueue cq entity depth) := fun _ _ =>
    rules.respond _ fun response _ => by cases response <;> exact rules.refl _
  refine hcq.bind htrans fun cq => Barring.bind htrans (fun a _ => rules.refl _) fun a => ?_
  exact (hcmdq cq _).bind htrans fun cmdq => (fun a _ => rules.refl _)

theorem flushCqRing (rules : CommandRules E S) : Barring E (OnViews S) EndpointView.flushCqRing := by
  have htrans : ∀ u v w : EndpointView, OnViews S u v → OnViews S v w → OnViews S u w :=
    fun _ _ _ => rules.trans _ _ _
  have hpoll : ∀ session n,
      Barring E (OnViews S) (onAdapter (QemuBackendAdapter.pollCq session n)) := fun session n => by
    have hadapter : Barring E (OnAdapters S) (QemuBackendAdapter.pollCq session n) :=
      rules.respond _ fun response _ => by cases response <;> exact rules.refl _
    exact barring_zoom hadapter fun _ _ h => h
  refine Barring.bind htrans (fun v _ => rules.refl _) fun v => ?_
  dsimp only
  split_ifs
  · exact fun v _ => rules.refl _
  · exact (hpoll _ _).bind htrans fun _ => (fun v _ => rules.refl _)

theorem submitSlots (rules : CommandRules E S) (n : ℕ) :
    Barring E (OnViews S) (EndpointView.submitSlots n) := by
  have htrans : ∀ u v w : EndpointView, OnViews S u v → OnViews S v w → OnViews S u w :=
    fun _ _ _ => rules.trans _ _ _
  have henqueue : ∀ session desc,
      Barring E (OnViews S) (onAdapter (QemuBackendAdapter.enqueueDescriptor session desc)) :=
    fun session desc => by
      have hadapter : Barring E (OnAdapters S)
          (QemuBackendAdapter.enqueueDescriptor session desc) :=
        rules.respond _ fun response _ => by cases response <;> exact rules.refl _
      exact barring_zoom hadapter fun _ _ h => h
  induction n with
  | zero => exact fun v _ => rules.refl _
  | succ n ih =>
    refine Barring.bind htrans (fun v _ => rules.refl _) fun desc => ?_
    refine Barring.bind htrans (fun v _ => rules.refl _) fun v => ?_
    refine (henqueue v.state.session desc).bind htrans fun _ => ?_
    exact Barring.bind htrans (fun v _ => rules.refl _) fun _ => ih

theorem submitBatch (rules : CommandRules E S) (batch : Option ℕ) :
    Barring E (OnViews S) (EndpointView.submitBatch batch) := by
  have htrans : ∀ u v w : EndpointView, OnViews S u v → OnViews S v w → OnViews S u w :=
    fun _ _ _ => rules.trans _ _ _
  refine Barring.bind htrans (fun v _ => rules.refl _) fun v => ?_
  refine (rules.submitSlots _).bind htrans fun _ => ?_
  exact Barring.bind htrans (fun v _ => rules.refl _) fun _ => (fun v _ => rules.refl _)

theorem withEndpoint (rules : CommandRules E S) (endpoint : EndpointId)
    {m : Action EndpointView SimError α} (hm : Barring E (OnViews S) m) :
    Barring E (OnDevices S) (Device.withEndpoint endpoint m) := by
  intro d hd
  cases hlookup : d.endpoints.lookup endpoint with
  | none =>
    rw [Device.withEndpoint_none hlookup]
    exact rules.refl _
  | some st =>
    rw [Device.withEndpoint_eq hlookup] at hd ⊢
    exact hm ⟨d.adapter, st⟩ hd

theorem onAdapter {m : Action QemuBackendAdapter SimError α} (hm : Barring E (OnAdapters S) m) :
    Barring E (OnDevices S) (Device.onAdapter m) :=
  barring_zoom hm fun _ _ h => h

/-- **What every command follows, every call follows.** -/
theorem methodRules (rules : CommandRules E S) : MethodRules E (OnViews S) (OnDevices S) where
  refl := fun _ => rules.refl _
  trans := fun _ _ _ => rules.trans _ _ _
  endpoint := rules.withEndpoint
  lastError := fun d endpoint err => by
    unfold LinquDeviceModel.setLastError
    cases d.endpoints.lookup endpoint <;> exact rules.refl _
  realize := fun entity => by
    have htrans : ∀ d e f : LinquDeviceModel, OnDevices S d e → OnDevices S e f → OnDevices S d f :=
      fun _ _ _ => rules.trans _ _ _
    refine Barring.bind htrans (fun d _ => rules.refl _) fun _ => ?_
    refine Barring.bind htrans (fun d _ => rules.refl _) fun d => ?_
    refine (onAdapter (rules.registerEndpoint entity)).bind htrans fun session => ?_
    exact Barring.bind htrans (fun d _ => rules.refl _) fun _ => (fun d _ => rules.refl _)
  queryTopology := onAdapter
    (rules.respond _ fun response _ => by cases response <;> exact rules.refl _)
  getHealth := fun _ => onAdapter
    (rules.respond _ fun response _ => by cases response <;> exact rules.refl _)
  ring := fun _ _ => onAdapter
    (rules.respond _ fun response _ => by cases response <;> exact rules.refl _)
  viewRefl := fun _ => rules.refl _
  segment := fun bytes => by
    have hadapter : Barring E (OnAdapters S) (QemuBackendAdapter.createSegment bytes) :=
      rules.respond _ fun response _ => by cases response <;> exact rules.refl _
    exact barring_zoom hadapter fun _ _ h => h
  flush := rules.flushCqRing
  submit := rules.submitBatch
  poll := fun _ _ _ => rules.refl _
  writeCmd := fun _ _ _ _ => rules.refl _
  writeTail := fun _ _ _ => rules.refl _
  writeHead := fun _ _ _ => rules.refl _
  writeAck := fun _ _ _ => rules.refl _

end CommandRules

end LinquUb
