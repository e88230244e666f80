import LinquUb.Qemu.Device

/-!
# What calls of the device preserve

A public method of the device looks up an endpoint, works on it and the adapter, and may record an
error.  A relation between devices that these parts follow is followed by every call.

* `withEndpoint_eq`, `withEndpoint_none` : a method on an endpoint, seen from the device;
* `CallRules` : the parts;
* `CallRules.call` : **the calls**;
* `CallRules.ofDevice` : a relation that does not look into the endpoints.
-/

namespace LinquUb

open Action

namespace Device

variable {α : Type}

/-- A method on an endpoint, seen from the device. -/
theorem withEndpoint_eq {endpoint : EndpointId} {m : Action EndpointView SimError α}
    {d : LinquDeviceModel} {st : DeviceEndpointState}
    (hlookup : d.endpoints.lookup endpoint = some st) :
    exec (withEndpoint endpoint m) d = ((exec m ⟨d.adapter, st⟩).1,
      { d.update endpoint (exec m ⟨d.adapter, st⟩).2.state with
        adapter := (exec m ⟨d.adapter, st⟩).2.adapter }) := by
  unfold withEndpoint
  rw [exec_bind_ok (exec_get d)]
  simp only [hlookup]
  rcases exec m ⟨d.adapter, st⟩ with ⟨_ | _, v⟩ <;> rfl

theorem withEndpoint_none {endpoint : EndpointId} {m : Action EndpointView SimError α}
    {d : LinquDeviceModel} (hlookup : d.endpoints.lookup endpoint = none) :
    exec (withEndpoint endpoint m) d = (.error (.notFound "endpoint"), d) := by
  unfold withEndpoint
  rw [exec_bind_ok (exec_get d)]
  simp only [hlookup]
  rfl

end Device

open QemuBackendAdapter (Runs)

/-- `V` relates what a method on an endpoint finds and leaves, and `R` the devices before and after
it. -/
structure CallRules (V : EndpointView → EndpointView → Prop)
    (R : LinquDeviceModel → LinquDeviceModel → Prop) : Prop where
  refl : ∀ d, R d d
  trans : ∀ d e f, R d e → R e f → R d f
  adapter : ∀ {α : Type} {m : Action QemuBackendAdapter SimError α}, Within Runs m →
    Within R (Device.onAdapter m)
  endpoint : ∀ {α : Type} (endpoint : EndpointId) {m : Action EndpointView SimError α},
    Within V m → Within R (Device.withEndpoint endpoint m)
  lastError : ∀ d endpoint err, R d (d.setLastError endpoint err)
  realize : ∀ entity, Within R (Device.realizeEndpoint entity)
  viewRefl : ∀ v, V v v
  viewAdapter : ∀ {α : Type} {m : Action QemuBackendAdapter SimError α}, Within Runs m →
    Within V (EndpointView.onAdapter m)
  flush : Within V EndpointView.flushCqRing
  submit : ∀ batch, Within V (EndpointView.submitBatch batch)
  poll : ∀ maxEntries, Within V (EndpointView.onState (DeviceEndpointState.pollRing maxEntries))
  writeCmd : ∀ slot desc,
    Within V (EndpointView.onState (DeviceEndpointState.writeCmdDescriptor slot desc))
  writeTail : ∀ newTail, Within V (EndpointView.onState (DeviceEndpointState.writeCmdqTail newTail))
  writeHead : ∀ newHead, Within V (EndpointView.onState (DeviceEndpointState.writeCqHead newHead))
  writeAck : ∀ value, Within V (EndpointView.onState (DeviceEndpointState.writeIrqAck value))

namespace CallRules

variable {V : EndpointView → EndpointView → Prop} {R : LinquDeviceModel → LinquDeviceModel → Prop}
variable {α : Type}

theorem read (rules : CallRules V R) (endpoint : EndpointId) (f : EndpointView → α) :
    Within R (Device.withEndpoint endpoint do return f (← get)) :=
  rules.endpoint endpoint fun v => rules.viewRefl v

theorem recordError (rules : CallRules V R) (endpoint : EndpointId) {m : Device α}
    (hm : Within R m) : Within R (Device.recordError endpoint m) := by
  intro d
  have hfirst := hm d
  have hrecord : (exec (Device.recordError endpoint m) d).2 = (exec m d).2 ∨
      ∃ err, (exec (Device.recordError endpoint m) d).2 =
        (exec m d).2.setLastError endpoint err := by
    unfold Device.recordError
    rcases hexec : exec m d with ⟨err | a, d'⟩
    · exact .inr ⟨err, by rw [exec_tryCatch, hexec]; rfl⟩
    · exact .inl (by rw [exec_tryCatch, hexec])
  rcases hrecord with heq | ⟨err, heq⟩ <;> rw [heq]
  · exact hfirst
  · exact rules.trans _ _ _ hfirst (rules.lastError ..)

theorem flushCqRing (rules : CallRules V R) (endpoint : EndpointId) :
    Within R (Device.flushCqRing endpoint) :=
  rules.endpoint endpoint rules.flush

theorem readStatus (rules : CallRules V R) (endpoint : EndpointId) :
    Within R (Device.readStatus endpoint) :=
  within_bind rules.trans (rules.flushCqRing endpoint) fun _ => rules.read endpoint _

theorem pollCq (rules : CallRules V R) (endpoint : EndpointId) (maxEntries : Option ℕ) :
    Within R (Device.pollCq endpoint maxEntries) :=
  within_bind rules.trans (rules.flushCqRing endpoint) fun _ =>
    rules.endpoint endpoint (rules.poll maxEntries)

theorem submitAndRing (rules : CallRules V R) (write : DoorbellWrite) :
    Within R (Device.submitAndRing write) := by
  refine within_bind rules.trans (rules.endpoint _ (rules.submit write.batch)) ?_
  rintro ⟨session, enqueued, pending⟩
  by_cases hnone : enqueued = 0
  · simp only [hnone, if_true]
    exact within_pure rules.refl _
  · simp only [hnone, if_false]
    exact within_bind rules.trans (rules.adapter (QemuBackendAdapter.ringDoorbell_runs _ _))
      fun _ => within_pure rules.refl _

theorem mmioRingDoorbell (rules : CallRules V R) (write : DoorbellWrite) :
    Within R (Device.mmioRingDoorbell write) := by
  refine within_bind rules.trans (rules.submitAndRing write) ?_
  rintro ⟨submitted, pending, rung⟩
  cases rung with
  | false => exact within_pure rules.refl _
  | true =>
    exact within_bind rules.trans (rules.flushCqRing _) fun _ => within_pure rules.refl _

theorem decodeMmioOffset (rules : CallRules V R) (offset : UInt64) :
    Within R (Device.decodeMmioOffset offset) := by
  intro d
  unfold Device.decodeMmioOffset
  rw [exec_bind_ok (exec_get d)]
  rcases d.decodeMmioOffset offset with err | decoded
  · rcases d.tryDecodeEndpoint offset with _ | endpoint
    · exact rules.refl d
    · exact rules.recordError endpoint (within_throw rules.refl err) d
  · exact rules.refl d

theorem mmioWriteCmdqTail (rules : CallRules V R) (endpoint : EndpointId) (newTail : ℕ) :
    Within R (Device.mmioWriteCmdqTail endpoint newTail) :=
  rules.endpoint endpoint (rules.writeTail newTail)

theorem mmioWriteCqHead (rules : CallRules V R) (endpoint : EndpointId) (newHead : ℕ) :
    Within R (Device.mmioWriteCqHead endpoint newHead) :=
  rules.endpoint endpoint (rules.writeHead newHead)

theorem mmioWriteIrqAck (rules : CallRules V R) (endpoint : EndpointId) (value : UInt64) :
    Within R (Device.mmioWriteIrqAck endpoint value) :=
  rules.endpoint endpoint (rules.writeAck value)

theorem writeCmdDescriptor (rules : CallRules V R) (endpoint : EndpointId) (slot : ℕ)
    (desc : GuestDescriptor) : Within R (Device.writeCmdDescriptor endpoint slot desc) :=
  rules.endpoint endpoint (rules.writeCmd slot desc)

theorem writeRegister (rules : CallRules V R) (endpoint : EndpointId) (value : UInt64)
    (reg : RegisterKind) : Within R (Device.writeRegister endpoint value reg) := by
  cases reg with
  | cmdqTail => exact rules.mmioWriteCmdqTail endpoint value.toNat
  | cqHead => exact rules.mmioWriteCqHead endpoint value.toNat
  | doorbell =>
    exact within_bind rules.trans (rules.mmioRingDoorbell _) fun _ => within_pure rules.refl _
  | irqAck => exact rules.mmioWriteIrqAck endpoint value
  | cmdqHead | cqTail | status | lastError | irqStatus => exact within_throw rules.refl _

theorem mmioWrite (rules : CallRules V R) (offset value : UInt64) :
    Within R (Device.mmioWrite offset value) :=
  within_bind rules.trans (rules.decodeMmioOffset offset) fun decoded =>
    rules.recordError decoded.1 (rules.writeRegister decoded.1 value decoded.2)

theorem mmioRead (rules : CallRules V R) (offset : UInt64) : Within R (Device.mmioRead offset) := by
  refine within_bind rules.trans (rules.decodeMmioOffset offset) ?_
  rintro ⟨endpoint, reg⟩
  cases reg with
  | cmdqHead | cmdqTail | cqHead | cqTail | status =>
    exact within_bind rules.trans (rules.readStatus endpoint) fun _ => within_pure rules.refl _
  | doorbell => exact within_pure rules.refl _
  | lastError | irqStatus => exact rules.read endpoint _
  | irqAck => exact rules.recordError endpoint (within_throw rules.refl _)

/-- **Every call follows the relation.** -/
theorem call (rules : CallRules V R) (call : DeviceCall) : Within R (Device.call call) := by
  cases call with
  | queryTopology => exact (rules.adapter QemuBackendAdapter.queryTopology_runs).discard
  | realizeEndpoint entity => exact (rules.realize entity).discard
  | createSegment endpoint bytes =>
    exact (rules.endpoint endpoint (rules.viewAdapter
      (QemuBackendAdapter.createSegment_runs bytes))).discard
  | writeCmdDescriptor endpoint slot desc => exact rules.writeCmdDescriptor endpoint slot desc
  | mmioWriteCmdqTail endpoint newTail => exact rules.mmioWriteCmdqTail endpoint newTail
  | mmioWrite offset value => exact rules.mmioWrite offset value
  | mmioRead offset => exact (rules.mmioRead offset).discard
  | readStatus endpoint => exact (rules.readStatus endpoint).discard
  | mmioRingDoorbell write => exact (rules.mmioRingDoorbell write).discard
  | pollCq endpoint maxEntries => exact (rules.pollCq endpoint maxEntries).discard
  | drainCq endpoint =>
    refine Within.discard (within_bind rules.trans (rules.flushCqRing endpoint) fun _ => ?_)
    exact within_bind rules.trans (rules.pollCq endpoint none) fun _ => within_pure rules.refl _
  | getHealth entity => exact (rules.adapter (QemuBackendAdapter.getHealth_runs entity)).discard

/-- A relation that holds whenever the adapter, the counter of endpoints or one endpoint is
replaced. -/
theorem ofDevice (refl : ∀ d, R d d) (trans : ∀ d e f, R d e → R e f → R d f)
    (adapter : ∀ (d : LinquDeviceModel) adapter, R d { d with adapter })
    (counter : ∀ (d : LinquDeviceModel) nextEndpointId, R d { d with nextEndpointId })
    (update : ∀ (d : LinquDeviceModel) endpoint st, R d (d.update endpoint st)) :
    CallRules (fun _ _ => True) R where
  refl := refl
  trans := trans
  adapter _ d := adapter d _
  endpoint endpoint m _ d := by
    cases hlookup : d.endpoints.lookup endpoint with
    | none =>
      rw [Device.withEndpoint_none hlookup]
      exact refl d
    | some st =>
      rw [Device.withEndpoint_eq hlookup]
      exact trans _ _ _ (update d endpoint _) (adapter _ _)
  lastError d endpoint err := by
    unfold LinquDeviceModel.setLastError
    cases d.endpoints.lookup endpoint with
    | none => exact refl d
    | some st => exact update d endpoint _
  realize entity := by
    refine within_bind trans (fun d => counter d _) fun _ => ?_
    refine within_bind trans refl fun d => ?_
    refine within_bind trans (fun d => adapter d _) fun session => ?_
    exact within_bind trans (fun d => update d _ _) fun _ => within_pure refl _
  viewRefl _ := trivial
  viewAdapter _ _ := trivial
  flush _ := trivial
  submit _ _ := trivial
  poll _ _ := trivial
  writeCmd _ _ _ := trivial
  writeTail _ _ := trivial
  writeHead _ _ := trivial
  writeAck _ _ := trivial

end CallRules

end LinquUb
