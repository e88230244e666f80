import LinquUb.Qemu.Registers
import LinquUb.Qemu.Doorbell
import LinquUb.Uapi.ForceFlush

/-!
# Latched errors

An access that fails leaves the code of its error and the error interrupt in its endpoint.  The
reads of the ring registers return before that when their flush fails.

* `Flow.HasCq` : a completion queue with its owner, which no move takes away;
* `flushCqRing_outcome` : how a flush ends;
* `errors_latched_iff` : **in which reachable states an access latches its error**.
-/

namespace LinquUb

open Action

/-! ### The completion queues of sessions -/

namespace Flow

variable {f f' : Flow} {drops : Prop} {cq : CqHandle} {owner : EntityId}

/-- The completion queue exists, and belongs to `owner`. -/
structure HasCq (f : Flow) (cq : CqHandle) (owner : EntityId) : Prop where
  id_le : cq.id ≤ f.nextCq
  queue : ∃ st, f.cqs.lookup cq = some st ∧ st.owner = owner

/-- Only the completions in a queue change. -/
theorem HasCq.insert (h : f.HasCq cq owner) {other : CqHandle} {st : CompletionQueueState}
    (hother : f.cqs.lookup other = some st) (events : List (Owned Submission))
    (hcqs : f'.cqs = Finmap.insert other { st with events } f.cqs) (hnext : f'.nextCq = f.nextCq) :
    f'.HasCq cq owner := by
  refine ⟨hnext ▸ h.id_le, ?_⟩
  obtain ⟨st', hcq, howner⟩ := h.queue
  rw [hcqs]
  by_cases heq : cq = other
  · subst heq
    rw [hother] at hcq
    cases hcq
    exact ⟨_, Finmap.lookup_insert _, howner⟩
  · exact ⟨st', by rwa [Finmap.lookup_insert_of_ne _ heq], howner⟩

theorem HasCq.step (h : f.HasCq cq owner) (hs : Step drops f f') : f'.HasCq cq owner := by
  cases hs with
  | openCq owner' =>
    have hne : cq ≠ ⟨f.nextCq + 1⟩ := by
      rintro rfl
      exact absurd h.id_le (Nat.not_succ_le_self _)
    obtain ⟨st, hcq, howner⟩ := h.queue
    exact ⟨h.id_le.trans (Nat.le_succ _), st, by rwa [Finmap.lookup_insert_of_ne _ hne], howner⟩
  | answered hsubject hcq hevent => exact h.insert hcq _ rfl rfl
  | report hfailing hcq hevent => exact h.insert hcq _ rfl rfl
  | route hpolled hdest hcq => exact h.insert hcq _ rfl rfl
  | handBack hcq htaken => exact h.insert hcq _ rfl rfl
  | _ => exact ⟨h.id_le, h.queue⟩

end Flow

namespace QemuBackendAdapter

variable {adapter adapter' : QemuBackendAdapter} {session : GuestEndpointSession}

/-- The session has its completion queue. -/
def Collects (adapter : QemuBackendAdapter) (session : GuestEndpointSession) : Prop :=
  adapter.surface.flow.HasCq session.cq session.entity

theorem Collects.runs (h : adapter.Collects session) (hruns : adapter.Runs adapter') :
    adapter'.Collects session := by
  obtain ⟨cmds, hcmds⟩ := hruns.surface
  rw [Collects, hcmds]
  exact LocalGuestUapiSurface.run_invariant (fun _ _ hf hs => Flow.HasCq.step hf hs) h cmds

theorem registerEndpoint_collects {entity : EntityId}
    (h : exec (registerEndpoint entity) adapter = (.ok session, adapter')) :
    adapter'.Collects session := by
  obtain ⟨cq, adapter₁, hcq, h⟩ := exec_bind_eq_ok.1 h
  rw [exec_bind_ok (exec_get adapter₁)] at h
  obtain ⟨cmdq, adapter₂, hcreate, h⟩ := exec_bind_eq_ok.1 h
  have hruns := createCmdQueue_runs cq entity adapter₁.profile.endpoint.cmdqDepth.toNat adapter₁
  rw [hcreate] at hruns
  have hhas : adapter₁.Collects ⟨entity, cq, cmdq, adapter₁.profile.endpoint⟩ := by
    cases hcq
    exact ⟨le_rfl, _, Finmap.lookup_insert _, rfl⟩
  cases h
  exact hhas.runs hruns

theorem pollCq_exec (session : GuestEndpointSession) (maxEntries : Option ℕ)
    (adapter : QemuBackendAdapter) : exec (pollCq session maxEntries) adapter =
      ((exec (Uapi.pollCqWithOwner session.cq session.entity maxEntries) adapter.surface).1,
        { adapter with surface := (exec (Uapi.pollCqWithOwner session.cq session.entity maxEntries)
          adapter.surface).2 }) :=
  respond_exec (fun polled => .completions polled.1 polled.2) rfl (fun _ => rfl) adapter

/-- **A poll of a session succeeds.** -/
theorem pollCq_ok (h : adapter.Collects session) (hs : adapter.surface.flow.Isolated)
    (maxEntries : Option ℕ) : ∃ events rest adapter',
      exec (pollCq session maxEntries) adapter = (.ok (events, rest), adapter') := by
  have hkept := h.runs (pollCq_runs session maxEntries adapter)
  obtain ⟨s₁, hflush, -⟩ := Uapi.flush_drains hs
  rw [pollCq_exec] at hkept ⊢
  rcases Uapi.pollCqWithOwner_exec session.cq session.entity maxEntries hflush with
    ⟨queue, n, -, -, hpoll⟩ | ⟨hforeign, e, hpoll⟩
  · rw [hpoll]
    exact ⟨_, _, _, rfl⟩
  · rw [hpoll] at hkept
    obtain ⟨queue, hqueue, howner⟩ := hkept.queue
    exact absurd howner (hforeign queue hqueue)

end QemuBackendAdapter

/-! ### How a flush ends -/

namespace DeviceEndpointState

/-- The error registers stay as they are. -/
structure SameErrors (st st' : DeviceEndpointState) : Prop where
  lastError : st'.lastError = st.lastError
  irqStatus : st'.irqStatus = st.irqStatus

theorem SameErrors.refl (st : DeviceEndpointState) : SameErrors st st := ⟨rfl, rfl⟩

theorem SameErrors.trans (s t u : DeviceEndpointState) (h : SameErrors s t) (h' : SameErrors t u) :
    SameErrors s u :=
  ⟨h'.lastError.trans h.lastError, h'.irqStatus.trans h.irqStatus⟩

theorem storeAll_sameErrors (events : List CompletionEvent) : Within SameErrors (storeAll events) := by
  induction events with
  | nil => exact within_pure SameErrors.refl _
  | cons completion rest ih =>
    intro st
    rw [storeAll, exec_bind_ok (exec_get st)]
    cases st.memory.writeCqSlot st.cqTail completion with
    | error e => exact .refl st
    | ok memory => exact SameErrors.trans st (st.store memory completion) _ ⟨rfl, rfl⟩ (ih _)

theorem storeAll_code (events : List CompletionEvent) :
    Throws (fun e => LinquDeviceModel.classifyError e = .invalidRegisterRead) (storeAll events) := by
  induction events with
  | nil => exact throws_pure ()
  | cons completion rest ih =>
    refine throws_get_bind fun st => throws_bind ?_ fun memory => ?_
    · refine throws_mapErr (throws_ofExcept fun e h => ?_)
      rcases GuestRingMemory.writeCqSlot_error h with rfl | rfl | rfl <;> rfl
    · exact throws_bind (fun _ _ _ h => (by cases h)) fun _ => ih

/-- Storing completions fails exactly if one of them does not fit, and then leaves the error
registers as they are. -/
theorem storeCompletions_outcome {st : DeviceEndpointState} {events : List CompletionEvent}
    (h : st.Rings) (hroom : events.length ≤ st.memory.cqDepth - st.cqCount) :
    ((∀ event ∈ events, event.Fits st.memory.slotBytes) ∧
      ∃ st', exec (storeCompletions events) st = (.ok (), st')) ∨
    (¬(∀ event ∈ events, event.Fits st.memory.slotBytes) ∧
      ∃ e st', exec (storeCompletions events) st = (.error e, st') ∧
        LinquDeviceModel.classifyError e = .invalidRegisterRead ∧ st.SameErrors st') := by
  have hfails := (storeAll_stored events h hroom).fails
  have hsame := storeAll_sameErrors events st
  rcases hexec : exec (storeAll events) st with ⟨e | a, st'⟩
  · rw [hexec] at hfails hsame
    refine .inr ⟨?_, e, st', ?_, storeAll_code events st e st' hexec, hsame⟩
    · push Not
      exact hfails.1 ⟨e, rfl⟩
    · rw [storeCompletions, exec_bind_error hexec]
  · rw [hexec] at hfails
    refine .inl ⟨?_, ?_⟩
    · by_contra hnot
      push Not at hnot
      obtain ⟨e, he⟩ := hfails.2 hnot
      cases he
    · rw [storeCompletions, exec_bind_ok hexec, exec_bind_ok (exec_get st')]
      by_cases hcount : st'.cqCount > 0
      · simp only [hcount, if_true]
        exact ⟨_, rfl⟩
      · simp only [hcount, if_false]
        exact ⟨_, rfl⟩

end DeviceEndpointState

namespace EndpointView

open DeviceEndpointState

/-- The ring has no free slot, or each completion that the adapter has for the free slots fits. -/
def FlushFits (v : EndpointView) : Prop :=
  v.state.memory.cqDepth ≤ v.state.cqCount ∨
    ∀ events rest adapter, exec (QemuBackendAdapter.pollCq v.state.session
        (some (v.state.memory.cqDepth - v.state.cqCount))) v.adapter = (.ok (events, rest), adapter) →
      ∀ event ∈ events, event.Fits v.state.memory.slotBytes

/-- **How a flush ends.** -/
theorem flushCqRing_outcome {v : EndpointView} (h : v.state.Rings)
    (hcollects : v.adapter.Collects v.state.session) (hs : v.adapter.surface.flow.Isolated) :
    (v.FlushFits ∧ ∃ v', exec flushCqRing v = (.ok (), v')) ∨
    (¬v.FlushFits ∧ ∃ e v', exec flushCqRing v = (.error e, v') ∧
      LinquDeviceModel.classifyError e = .invalidRegisterRead ∧ v.state.SameErrors v'.state) := by
  rcases flushCqRing_cases v with ⟨hfull, hflush⟩ | ⟨e, adapter, -, hpoll⟩ |
    ⟨events, rest, adapter, hpoll, hflush⟩
  · exact .inl ⟨.inl (Nat.le_of_sub_eq_zero hfull), v, hflush⟩
  · obtain ⟨events, rest, adapter', hok⟩ := QemuBackendAdapter.pollCq_ok hcollects hs
      (some (v.state.memory.cqDepth - v.state.cqCount))
    rw [hpoll] at hok
    cases hok
  · have hlength := QemuBackendAdapter.pollCq_length hpoll
    rw [onState, exec_zoom] at hflush
    rcases storeCompletions_outcome h hlength with ⟨hfits, st', hstore⟩ |
      ⟨hnot, e, st', hstore, hcode, hsame⟩
    · rw [hstore] at hflush
      refine .inl ⟨.inr fun events' rest' adapter' hpoll' => ?_, _, hflush⟩
      rw [hpoll] at hpoll'
      cases hpoll'
      exact hfits
    · rw [hstore] at hflush
      refine .inr ⟨?_, e, _, hflush, hcode, hsame⟩
      rintro (hfull | hall)
      · -- a poll for no slot takes nothing
        have hnone : events = [] := by
          refine List.length_eq_zero_iff.1 ?_
          omega
        subst hnone
        exact hnot fun event hevent => absurd hevent List.not_mem_nil
      · exact hnot (hall _ _ _ hpoll)

end EndpointView

/-! ### Accesses -/

/-- The error interrupt is set, and the error register has this code. -/
structure DeviceEndpointState.Shows (st : DeviceEndpointState) (code : DeviceErrorCode) : Prop where
  irqStatus : st.irqStatus &&& DeviceInterruptStatus.error = DeviceInterruptStatus.error
  lastError : st.lastError = code.toU64

theorem DeviceEndpointState.shows_congr {st st' : DeviceEndpointState} {code : DeviceErrorCode}
    (h : st.SameErrors st') : st'.Shows code ↔ st.Shows code := by
  constructor
  · rintro ⟨hirq, hlast⟩
    exact ⟨h.irqStatus ▸ hirq, h.lastError ▸ hlast⟩
  · rintro ⟨hirq, hlast⟩
    exact ⟨h.irqStatus.symm ▸ hirq, h.lastError.symm ▸ hlast⟩

/-- The registers whose reads flush the completion ring. -/
def RegisterKind.ReadsRings : RegisterKind → Prop
  | .cmdqHead | .cmdqTail | .cqHead | .cqTail | .status => True
  | .doorbell | .lastError | .irqStatus | .irqAck => False

namespace LinquDeviceModel

variable {d d' : LinquDeviceModel} {endpoint : EndpointId} {st : DeviceEndpointState}
  {offset : UInt64} {err : SimError}

/-- The endpoint shows the error. -/
def Latched (d : LinquDeviceModel) (endpoint : EndpointId) (err : SimError) : Prop :=
  ∃ st, d.endpoints.lookup endpoint = some st ∧ st.Shows (classifyError err)

/-- If the access fails, the endpoint shows its error. -/
def LatchesError {α : Type} (d : LinquDeviceModel) (endpoint : EndpointId) (m : Device α) : Prop :=
  ∀ err d', exec m d = (.error err, d') → d'.Latched endpoint err

theorem or_and_self (x y : UInt64) : (x ||| y) &&& y = y := by
  refine UInt64.toBitVec_inj.1 (BitVec.eq_of_getElem_eq fun i hi => ?_)
  simp only [UInt64.toBitVec_and, UInt64.toBitVec_or, BitVec.getElem_and, BitVec.getElem_or]
  cases x.toBitVec[i] <;> simp

theorem setLastError_latched (h : (d.endpoints.lookup endpoint).isSome) (err : SimError) :
    (d.setLastError endpoint err).Latched endpoint err := by
  obtain ⟨st, hst⟩ := Option.isSome_iff_exists.1 h
  unfold setLastError
  rw [hst]
  exact ⟨_, Finmap.lookup_insert _, or_and_self _ _, rfl⟩

/-- Endpoints that have been realized stay. -/
theorem keepsEndpoints_rules : CallRules (fun _ _ => True) fun d d' =>
    ∀ endpoint, (d.endpoints.lookup endpoint).isSome → (d'.endpoints.lookup endpoint).isSome := by
  refine .ofDevice (fun _ _ h => h) (fun _ _ _ hde hef endpoint h => hef endpoint (hde endpoint h))
    (fun _ _ _ h => h) (fun _ _ _ h => h) fun d endpoint st other h => ?_
  by_cases heq : other = endpoint
  · subst heq
    rw [update, Finmap.lookup_insert]
    rfl
  · rwa [update, Finmap.lookup_insert_of_ne _ heq]

theorem recordError_latches {α : Type} {m : Device α}
    (hm : Within (fun d d' => ∀ endpoint, (d.endpoints.lookup endpoint).isSome →
      (d'.endpoints.lookup endpoint).isSome) m)
    (h : (d.endpoints.lookup endpoint).isSome) :
    d.LatchesError endpoint (Device.recordError endpoint m) := by
  intro err d' hexec
  have hkept := hm d endpoint h
  unfold Device.recordError at hexec
  rcases hm' : exec m d with ⟨e | a, d₁⟩
  · rw [exec_tryCatch, hm'] at hexec
    rw [hm'] at hkept
    cases hexec
    exact setLastError_latched hkept _
  · rw [exec_tryCatch, hm'] at hexec
    cases hexec

/-! ### Windows -/

/-- The offset is in the window of the endpoint.  The ids of endpoints begin with 1. -/
structure InWindow (d : LinquDeviceModel) (endpoint : EndpointId) (offset : UInt64) : Prop where
  pos : 0 < endpoint.id.toNat
  le : (d.mmio.endpointOffset endpoint).toNat ≤ offset.toNat
  lt : offset.toNat < (d.mmio.endpointOffset endpoint).toNat + d.mmio.endpointStride.toNat

variable {reg : RegisterKind}

theorem InWindow.index (hmmio : d.mmio = .default) (h : d.InWindow endpoint offset) :
    0x1000 ≤ offset.toNat ∧ (offset.toNat - 0x1000) / 0x100 + 1 = endpoint.id.toNat := by
  obtain ⟨hpos, hle, hlt⟩ := h
  have hstride : MmioRegisterMap.default.endpointStride.toNat = 0x100 := rfl
  rw [hmmio, MmioRegisterMap.endpointOffset_toNat] at hle hlt
  rw [hstride] at hlt
  omega

theorem InWindow.tryDecode (hmmio : d.mmio = .default) (h : d.InWindow endpoint offset) :
    d.tryDecodeEndpoint offset = some endpoint := by
  obtain ⟨hbase, hindex⟩ := h.index hmmio
  have hle : ¬offset < MmioRegisterMap.default.endpointBase :=
    UInt64.not_lt.2 (UInt64.le_iff_toNat_le.2 hbase)
  unfold tryDecodeEndpoint
  rw [hmmio, if_neg hle]
  refine congrArg some (endpointId_eq ?_)
  have hid := MmioRegisterMap.endpointIndex_toNat hbase
  have hone : (1 : UInt16).toNat = 1 := rfl
  have hlt := endpoint.id.toNat_lt
  show ((MmioRegisterMap.default.endpointIndex offset).toUInt16 + 1).toNat = endpoint.id.toNat
  rw [UInt16.toNat_add, UInt64.toNat_toUInt16, hid, hone]
  omega

/-- In the window of an endpoint its registers are decoded. -/
theorem InWindow.decode_iff (hmmio : d.mmio = .default) (h : d.InWindow endpoint offset)
    (hsome : (d.endpoints.lookup endpoint).isSome) {endpoint' : EndpointId} :
    d.decodeMmioOffset offset = .ok (endpoint', reg) ↔
      endpoint' = endpoint ∧ offset = d.mmio.addr endpoint reg := by
  obtain ⟨hbase, hindex⟩ := h.index hmmio
  have hlt := endpoint.id.toNat_lt
  rw [decodeMmioOffset_eq_ok_iff hmmio, hmmio, eq_addr_iff]
  constructor
  · rintro ⟨-, -, hid, hreg⟩
    refine ⟨endpointId_eq ?_, hbase, by omega, hreg⟩
    rw [hid, hindex, Nat.mod_eq_of_lt hlt]
  · rintro ⟨rfl, -, -, hreg⟩
    refine ⟨hbase, hsome, ?_, hreg⟩
    rw [hindex, Nat.mod_eq_of_lt hlt]

/-- An access in the window of an endpoint decodes a register of that endpoint, or fails and shows
why. -/
theorem InWindow.decode_cases (hmmio : d.mmio = .default) (h : d.InWindow endpoint offset)
    (hsome : (d.endpoints.lookup endpoint).isSome) :
    (∃ reg, offset = d.mmio.addr endpoint reg ∧
      exec (Device.decodeMmioOffset offset) d = (.ok (endpoint, reg), d)) ∨
    (∀ reg, offset ≠ d.mmio.addr endpoint reg) ∧ ∃ err d',
      exec (Device.decodeMmioOffset offset) d = (.error err, d') ∧ d'.Latched endpoint err := by
  unfold Device.decodeMmioOffset
  rw [exec_bind_ok (exec_get d), h.tryDecode hmmio]
  rcases hdecode : d.decodeMmioOffset offset with err | ⟨endpoint', reg⟩
  · refine .inr ⟨fun reg haddr => ?_, err, d.setLastError endpoint err, rfl,
      setLastError_latched hsome err⟩
    have hok := (h.decode_iff hmmio hsome).2 ⟨rfl, haddr⟩
    rw [hdecode] at hok
    cases hok
  · obtain ⟨rfl, haddr⟩ := (h.decode_iff hmmio hsome).1 hdecode
    exact .inl ⟨reg, haddr, rfl⟩

/-! ### Which errors are latched -/

theorem mmioWrite_latches (hmmio : d.mmio = .default) (h : d.InWindow endpoint offset)
    (hsome : (d.endpoints.lookup endpoint).isSome) (value : UInt64) :
    d.LatchesError endpoint (Device.mmioWrite offset value) := by
  intro err d' hexec
  unfold Device.mmioWrite at hexec
  rcases h.decode_cases hmmio hsome with ⟨reg, -, hdecode⟩ | ⟨-, err', d₁, hdecode, hlatched⟩
  · rw [exec_bind_ok hdecode] at hexec
    exact recordError_latches (keepsEndpoints_rules.writeRegister endpoint value reg) hsome err d' hexec
  · rw [exec_bind_error hdecode] at hexec
    cases hexec
    exact hlatched

theorem latchesError_congr {α : Type} {m m' : Device α} (h : exec m d = exec m' d) :
    d.LatchesError endpoint m ↔ d.LatchesError endpoint m' := by
  rw [LatchesError, LatchesError, h]

theorem latchesError_of_ok {α : Type} {m : Device α} {a : α} (h : exec m d = (.ok a, d')) :
    d.LatchesError endpoint m := by
  intro err d₁ hexec
  rw [h] at hexec
  cases hexec

theorem latchesError_of_error {α : Type} {m : Device α} (h : exec m d = (.error err, d')) :
    d.LatchesError endpoint m ↔ d'.Latched endpoint err := by
  refine ⟨fun hlatches => hlatches err d' h, fun hlatched err' d₁ hexec => ?_⟩
  rw [h] at hexec
  cases hexec
  exact hlatched

/-- The read of a register that flushes the ring. -/
theorem readStatus_latches_iff {α : Type} (hst : d.endpoints.lookup endpoint = some st)
    (hrings : st.Rings) (hcollects : d.adapter.Collects st.session)
    (hs : d.adapter.surface.flow.Isolated) (f : DeviceQueueStatus → α) :
    d.LatchesError endpoint (do return f (← Device.readStatus endpoint)) ↔
      EndpointView.FlushFits ⟨d.adapter, st⟩ ∨ st.Shows .invalidRegisterRead := by
  let v : EndpointView := ⟨d.adapter, st⟩
  have hwith : ∀ result v', exec EndpointView.flushCqRing v = (result, v') →
      exec (Device.flushCqRing endpoint) d = (result, d.afterView endpoint v') := by
    intro result v' hflush
    rw [Device.flushCqRing, Device.withEndpoint_eq hst, hflush]
    rfl
  rcases EndpointView.flushCqRing_outcome (v := v) hrings hcollects hs with
    ⟨hfits, v', hflush⟩ | ⟨hnot, e, v', hflush, hcode, hsame⟩
  · -- behind a flush that succeeds nothing fails
    have hread : ∃ status d', exec (Device.readStatus endpoint) d = (.ok status, d') := by
      rw [Device.readStatus, exec_bind_ok (hwith _ _ hflush),
        Device.withEndpoint_eq (afterView_lookup d endpoint v')]
      exact ⟨_, _, rfl⟩
    obtain ⟨status, d', hread⟩ := hread
    exact iff_of_true (latchesError_of_ok (exec_bind_ok hread)) (.inl hfits)
  · have hread : exec (Device.readStatus endpoint) d = (.error e, d.afterView endpoint v') := by
      rw [Device.readStatus, exec_bind_error (hwith _ _ hflush)]
    rw [latchesError_of_error (exec_bind_error hread), or_iff_right hnot,
      ← DeviceEndpointState.shows_congr hsame, ← hcode, Latched, afterView_lookup]
    simp

theorem mmioRead_latches_iff (hmmio : d.mmio = .default) (h : d.InWindow endpoint offset)
    (hst : d.endpoints.lookup endpoint = some st) (hrings : st.Rings)
    (hcollects : d.adapter.Collects st.session) (hs : d.adapter.surface.flow.Isolated) :
    d.LatchesError endpoint (Device.mmioRead offset) ↔
      ((∃ reg : RegisterKind, reg.ReadsRings ∧ offset = d.mmio.addr endpoint reg) →
        EndpointView.FlushFits ⟨d.adapter, st⟩ ∨ st.Shows .invalidRegisterRead) := by
  have hsome : (d.endpoints.lookup endpoint).isSome := hst ▸ rfl
  rcases h.decode_cases hmmio hsome with ⟨reg, haddr, hdecode⟩ | ⟨hno, err, d', hdecode, hlatched⟩
  · rw [Device.mmioRead, latchesError_congr (exec_bind_ok hdecode)]
    have hreads : (∃ reg' : RegisterKind, reg'.ReadsRings ∧ offset = d.mmio.addr endpoint reg') ↔
        reg.ReadsRings := by
      refine ⟨fun ⟨reg', hreads, haddr'⟩ => ?_, fun hreads => ⟨reg, hreads, haddr⟩⟩
      have hok := (h.decode_iff hmmio hsome).2 ⟨rfl, haddr⟩
      have hok' := (h.decode_iff hmmio hsome).2 ⟨rfl, haddr'⟩
      rw [hok] at hok'
      cases hok'
      exact hreads
    rw [hreads]
    cases reg with
    | cmdqHead | cmdqTail | cqHead | cqTail | status =>
      rw [RegisterKind.ReadsRings, true_imp_iff]
      exact readStatus_latches_iff hst hrings hcollects hs _
    | doorbell => exact iff_of_true (latchesError_of_ok rfl) False.elim
    | lastError | irqStatus =>
      refine iff_of_true (fun err d' hexec => ?_) False.elim
      rw [Device.withEndpoint_eq hst] at hexec
      cases hexec
    | irqAck =>
      refine iff_of_true (recordError_latches ?_ hsome) False.elim
      exact fun d endpoint h => h
  · rw [Device.mmioRead, latchesError_of_error (exec_bind_error hdecode)]
    exact iff_of_true hlatched fun ⟨reg, _, haddr⟩ => absurd haddr (hno reg)

theorem collects_rules : SessionRules QemuBackendAdapter.Collects :=
  ⟨QemuBackendAdapter.Collects.runs, QemuBackendAdapter.registerEndpoint_collects⟩

/-- **In which reachable states an access latches its error.**  A write always does.  A read does,
except for the reads of the ring registers when a completion that they store does not fit. -/
theorem errors_latched_iff {machine : Machine} {profile : MachineProfile}
    (hd : Reachable machine profile d) (hst : d.endpoints.lookup endpoint = some st)
    (hwindow : d.InWindow endpoint offset) :
    (∀ value, d.LatchesError endpoint (Device.mmioWrite offset value)) ∧
    (d.LatchesError endpoint (Device.mmioRead offset) ↔
      ((∃ reg : RegisterKind, reg.ReadsRings ∧ offset = d.mmio.addr endpoint reg) →
        EndpointView.FlushFits ⟨d.adapter, st⟩ ∨ st.Shows .invalidRegisterRead)) := by
  have hcollects := hd.sessionsHave collects_rules endpoint st hst
  have hs : d.adapter.surface.flow.Isolated := by
    obtain ⟨cmds, hcmds⟩ := hd.runs.surface
    rw [hcmds]
    exact LocalGuestUapiSurface.run_isolated _ cmds
  exact ⟨mmioWrite_latches hd.mmio hwindow (hst ▸ rfl),
    mmioRead_latches_iff hd.mmio hwindow hst (hd.ringsHold endpoint st hst) hcollects hs⟩

def oneSlotProfile : MachineProfile :=
  { MachineProfile.default with endpoint := { GuestEndpointLayout.default with cqDepth := 1 } }

/-- An endpoint with one completion slot.  Of two puts the first, without a task key, has been
polled; the completion of the second is still in the adapter. -/
def secondPending (task : Option TaskKey) : LinquDeviceModel :=
  (withProfile .sample oneSlotProfile).run
    [.realizeEndpoint 0, .writeCmdDescriptor ⟨1⟩ 0 (.service (.dbPut ⟨none, "", 1⟩)),
      .writeCmdDescriptor ⟨1⟩ 1 (.service (.dbPut ⟨task, "", 1⟩)), .mmioWriteCmdqTail ⟨1⟩ 2,
      .mmioRingDoorbell ⟨⟨1⟩, none⟩, .pollCq ⟨1⟩ none]

theorem secondPending_reachable (task : Option TaskKey) :
    Reachable .sample oneSlotProfile (secondPending task) :=
  .call _ (.call _ (.call _ (.call _ (.call _ (.call _ .start)))))

/-- The same endpoint, where a read of the write-only register has been refused before. -/
def secondRefused : LinquDeviceModel :=
  (exec (Device.call (.mmioRead 0x1040)) (secondPending (some zeroTask))).2

theorem secondRefused_reachable : Reachable .sample oneSlotProfile secondRefused :=
  .call _ (secondPending_reachable _)

/-- The status register cannot be written; and a read of it fails, because the second completion does
not fit.  The endpoint shows both errors. -/
theorem errors_latched_status :
    (secondRefused.LatchesError ⟨1⟩ (Device.mmioWrite 0x1020 0) ∧
      (exec (Device.mmioWrite 0x1020 0) secondRefused).1.isOk = false) ∧
    secondRefused.LatchesError ⟨1⟩ (Device.mmioRead 0x1020) ∧
      (exec (Device.mmioRead 0x1020) secondRefused).1.isOk = false := by
  obtain ⟨st, hst⟩ : ∃ st, secondRefused.endpoints.lookup ⟨1⟩ = some st :=
    Option.isSome_iff_exists.1 (by decide +kernel)
  have hshows : (secondRefused.endpoints.lookup ⟨1⟩).map (fun st => (st.lastError,
      st.irqStatus &&& DeviceInterruptStatus.error)) =
        some (DeviceErrorCode.invalidRegisterRead.toU64, DeviceInterruptStatus.error) := by
    decide +kernel
  rw [hst] at hshows
  obtain ⟨hcode, hbit⟩ := Prod.mk.inj (Option.some.inj hshows)
  have hwindow : secondRefused.InWindow ⟨1⟩ 0x1020 :=
    ⟨by decide, by decide +kernel, by decide +kernel⟩
  obtain ⟨hwrite, hread⟩ := errors_latched_iff secondRefused_reachable hst hwindow
  exact ⟨⟨hwrite 0, by decide +kernel⟩, hread.2 fun _ => .inr ⟨hbit, hcode⟩, by decide +kernel⟩

/-- It does not fit into the slot.  The status read fails and leaves no trace of that. -/
theorem status_error_unlatched :
    Reachable .sample oneSlotProfile (secondPending (some zeroTask)) ∧
      (secondPending (some zeroTask)).InWindow ⟨1⟩ 0x1020 ∧
      (exec (Device.mmioRead 0x1020) (secondPending (some zeroTask))).1.isOk = false ∧
      ((exec (Device.mmioRead 0x1020) (secondPending (some zeroTask))).2.endpoints.lookup ⟨1⟩).map
        (fun st => (st.irqStatus &&& DeviceInterruptStatus.error, st.lastError)) = some (0, 0) :=
  ⟨secondPending_reachable _, ⟨by decide, by decide +kernel, by decide +kernel⟩, by decide +kernel,
    by decide +kernel⟩

end LinquDeviceModel

end LinquUb
