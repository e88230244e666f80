import LinquUb.Qemu.Methods
import LinquUb.Qemu.Queues

/-!
# Where the completions in the rings come from

The device takes completions out of the surface only for the endpoint that it is flushing, and every
endpoint has a completion queue and a command queue of its own there.

* `EndpointView.Delivers` : what a method on an endpoint hands out of the surface and stores in the
  ring of the endpoint;
* `LinquDeviceModel.Provenance` : every ring has received only completions of its own queue;
* `LinquDeviceModel.Reachable.provenance` : **it holds in every reachable state**.
-/

namespace LinquUb

open Action
open LocalGuestUapiSurface (SameBooks)
open Uapi (HandsOut)

/-! ### Methods on the state of an endpoint -/

namespace DeviceEndpointState

/-- The session, the size of the slots and what has arrived stay as they are. -/
structure SameArrived (st st' : DeviceEndpointState) : Prop where
  session : st'.session = st.session
  slotBytes : st'.memory.slotBytes = st.memory.slotBytes
  arrived : st'.arrived = st.arrived

theorem SameArrived.refl (st : DeviceEndpointState) : SameArrived st st := ⟨rfl, rfl, rfl⟩

theorem SameArrived.trans (s t u : DeviceEndpointState) (h : SameArrived s t)
    (h' : SameArrived t u) : SameArrived s u :=
  ⟨h'.session.trans h.session, h'.slotBytes.trans h.slotBytes, h'.arrived.trans h.arrived⟩

theorem takeCq_arrived : Within SameArrived takeCq := by
  intro st
  unfold takeCq
  rw [exec_bind_ok (exec_get st)]
  have hmemory : (st.memory.takeCqSlot st.cqHead).2.slotBytes = st.memory.slotBytes := by
    unfold GuestRingMemory.takeCqSlot
    split_ifs <;> rfl
  rcases htake : st.memory.takeCqSlot st.cqHead with ⟨_ | completion, memory⟩ <;>
    rw [htake] at hmemory <;> exact ⟨rfl, hmemory, rfl⟩

theorem takeCompletions_arrived (n : ℕ) : Within SameArrived (takeCompletions n) := by
  induction n with
  | zero => exact within_pure SameArrived.refl _
  | succ n ih =>
    refine within_bind SameArrived.trans takeCq_arrived fun _ => ?_
    refine within_bind SameArrived.trans (fun st => ⟨rfl, rfl, rfl⟩) fun _ => ?_
    exact within_bind SameArrived.trans ih fun _ => within_pure SameArrived.refl _

theorem pollRing_arrived (maxEntries : Option ℕ) : Within SameArrived (pollRing maxEntries) := by
  refine within_bind SameArrived.trans SameArrived.refl fun st => ?_
  refine within_bind SameArrived.trans (takeCompletions_arrived _) fun events => ?_
  refine within_bind SameArrived.trans (fun st => ⟨rfl, rfl, rfl⟩) fun _ => ?_
  exact within_bind SameArrived.trans SameArrived.refl fun _ => within_pure SameArrived.refl _

theorem takeCmd_arrived : Within SameArrived takeCmd := by
  intro st
  rcases takeCmd_state st with heq | heq <;> rw [heq] <;> exact ⟨rfl, rfl, rfl⟩

theorem writeCmdDescriptor_arrived (slot : ℕ) (desc : GuestDescriptor) :
    Within SameArrived (writeCmdDescriptor slot desc) := by
  intro st
  unfold writeCmdDescriptor
  rw [exec_bind_ok (exec_get st)]
  cases hwrite : st.memory.writeCmdSlot slot desc with
  | error e => exact .refl st
  | ok memory =>
    obtain ⟨bytes, rfl⟩ := GuestRingMemory.writeCmdSlot_ok hwrite
    exact ⟨rfl, rfl, rfl⟩

theorem writeCmdqTail_arrived (newTail : ℕ) : Within SameArrived (writeCmdqTail newTail) := by
  intro st
  unfold writeCmdqTail
  rw [exec_bind_ok (exec_get st)]
  by_cases hrange : newTail ≥ st.memory.cmdDepth
  · simp only [hrange, if_true]
    exact .refl st
  · by_cases hover : st.cmdqCount + LTS.advance st.memory.cmdDepth st.cmdqTail newTail >
        st.memory.cmdDepth
    · simp only [hrange, hover, if_false, if_true]
      exact .refl st
    · simp only [hrange, hover, if_false]
      exact ⟨rfl, rfl, rfl⟩

theorem retire_iterate_arrived (n : ℕ) (st : DeviceEndpointState) :
    SameArrived st (retire^[n] st) := by
  induction n generalizing st with
  | zero => exact .refl st
  | succ n ih =>
    rw [Function.iterate_succ_apply]
    exact (show SameArrived st st.retire from ⟨rfl, rfl, rfl⟩).trans _ _ _ (ih _)

theorem writeCqHead_arrived (newHead : ℕ) : Within SameArrived (writeCqHead newHead) := by
  intro st
  unfold writeCqHead
  rw [exec_bind_ok (exec_get st)]
  by_cases hrange : newHead ≥ st.memory.cqDepth
  · simp only [hrange, if_true]
    exact .refl st
  · by_cases hover : LTS.advance st.memory.cqDepth st.cqHead newHead > st.cqCount
    · simp only [hrange, hover, if_false, if_true]
      exact .refl st
    · simp only [hrange, hover, if_false]
      exact retire_iterate_arrived _ st

/-- What is stored changes neither the session nor the size of the slots. -/
theorem storeCompletions_slotBytes (events : List CompletionEvent) (st : DeviceEndpointState) :
    (exec (storeCompletions events) st).2.memory.slotBytes = st.memory.slotBytes := by
  have hall : ∀ st, (exec (storeAll events) st).2.memory.slotBytes = st.memory.slotBytes := by
    induction events with
    | nil => exact fun st => rfl
    | cons completion rest ih =>
      intro st
      rw [storeAll, exec_bind_ok (exec_get st)]
      cases hwrite : st.memory.writeCqSlot st.cqTail completion with
      | error e => rfl
      | ok memory =>
        obtain ⟨bytes, rfl⟩ := GuestRingMemory.writeCqSlot_ok hwrite
        exact ih (st.store (st.memory.putCq st.cqTail bytes) completion)
  rw [← hall st]
  unfold storeCompletions
  rcases hexec : exec (storeAll events) st with ⟨e | ⟨⟩, st'⟩
  · rw [exec_bind_error hexec]
  · rw [exec_bind_ok hexec, exec_bind_ok (exec_get st')]
    split_ifs <;> rfl

end DeviceEndpointState

/-! ### Methods on an endpoint -/

namespace EndpointView

open DeviceEndpointState (SameArrived)

/-- The surface hands out `taken`, of which `stored` arrives in the ring: all of it, if it fits. -/
structure Delivery (taken stored : List (Owned Submission)) (v v' : EndpointView) : Prop where
  hands : HandsOut v.state.session.cq taken v.adapter.surface v'.adapter.surface
  sublist : stored.Sublist taken
  fits : (∀ entry ∈ taken, entry.event.Fits v.state.memory.slotBytes) → stored = taken
  arrived : v'.state.arrived = v.state.arrived ++ stored.map (·.event)

structure Delivers (v v' : EndpointView) : Prop where
  keeps : v.Keeps v'
  session : v'.state.session = v.state.session
  slotBytes : v'.state.memory.slotBytes = v.state.memory.slotBytes
  delivery : v.state.Rings → v.adapter.surface.flow.Isolated →
    ∃ taken stored, Delivery taken stored v v'

variable {v v' : EndpointView} {α : Type}

/-- The books of the surface are kept, and nothing arrives. -/
theorem delivers_nothing (hkeeps : v.Keeps v')
    (hbooks : SameBooks v.adapter.surface v'.adapter.surface)
    (hstate : SameArrived v.state v'.state) : Delivers v v' := by
  refine ⟨hkeeps, hstate.session, hstate.slotBytes, fun _ _ => ⟨[], [], ?_⟩⟩
  exact ⟨Uapi.handsOut_nil _ hbooks, .refl _, fun _ => rfl, by simp [hstate.arrived]⟩

theorem Delivers.refl (v : EndpointView) : Delivers v v :=
  delivers_nothing (.refl v) (.refl _) (.refl _)

theorem onState_delivers {m : Action DeviceEndpointState SimError α}
    (hkeeps : Within Keeps (onState m)) (hm : Within SameArrived m) :
    Within Delivers (onState m) :=
  fun v => delivers_nothing (hkeeps v) (.refl _) (hm v.state)

/-- **A flush delivers.** -/
theorem flushCqRing_delivers : Within Delivers flushCqRing := by
  intro v
  have hkeeps := flushCqRing_keeps v
  have hsession := (flushCqRing_session v).session
  rcases flushCqRing_cases v with ⟨-, hflush⟩ | ⟨e, adapter, hflush, hpoll⟩ |
    ⟨events, rest, adapter, hpoll, hflush⟩
  · rw [hflush]
    exact .refl v
  · rw [hflush] at hkeeps hsession ⊢
    refine ⟨hkeeps, hsession, rfl, fun _ hi => ⟨[], [], ?_⟩⟩
    rcases QemuBackendAdapter.pollCq_handsOut hi v.state.session
      (v.state.memory.cqDepth - v.state.cqCount) with
      ⟨e', adapter', hexec, hbooks⟩ | ⟨taken, rest, adapter', hexec, -⟩
    all_goals
      rw [hpoll] at hexec
      cases hexec
    exact ⟨Uapi.handsOut_nil _ hbooks, .refl _, fun _ => rfl, by simp⟩
  · rw [hflush] at hkeeps hsession ⊢
    refine ⟨hkeeps, hsession, DeviceEndpointState.storeCompletions_slotBytes events v.state,
      fun hrings hi => ?_⟩
    rcases QemuBackendAdapter.pollCq_handsOut hi v.state.session
      (v.state.memory.cqDepth - v.state.cqCount) with
      ⟨e', adapter', hexec, -⟩ | ⟨taken, rest', adapter', hexec, hout⟩
    all_goals
      rw [hpoll] at hexec
      cases hexec
    have hstored := DeviceEndpointState.storeCompletions_stored hrings
      (QemuBackendAdapter.pollCq_length hpoll)
    refine ⟨taken, taken.takeWhile (·.event.Fits v.state.memory.slotBytes), hout,
      List.takeWhile_sublist _, fun hall => ?_, ?_⟩
    · exact List.takeWhile_eq_self_iff.2 (by simpa using hall)
    · have harrived := hstored.arrived
      rw [List.takeWhile_map] at harrived
      exact harrived

/-- The books of the surface are kept, and nothing arrives. -/
structure Quiet (v v' : EndpointView) : Prop where
  books : SameBooks v.adapter.surface v'.adapter.surface
  state : SameArrived v.state v'.state

theorem Quiet.refl (v : EndpointView) : Quiet v v := ⟨.refl _, .refl _⟩

theorem Quiet.trans (u v w : EndpointView) (h : Quiet u v) (h' : Quiet v w) : Quiet u w :=
  ⟨h.books.trans _ _ _ h'.books, h.state.trans _ _ _ h'.state⟩

/-- The loop of a doorbell hands out nothing. -/
theorem submitSlots_quiet (n : ℕ) : Within Quiet (submitSlots n) := by
  induction n with
  | zero => exact within_pure Quiet.refl _
  | succ n ih =>
    refine within_bind Quiet.trans (fun v => ⟨.refl _, DeviceEndpointState.takeCmd_arrived _⟩)
      fun desc => ?_
    refine within_bind Quiet.trans Quiet.refl fun v => ?_
    refine within_bind Quiet.trans (fun v' => ⟨?_, .refl _⟩) fun _ => ?_
    · rw [onAdapter, exec_zoom, QemuBackendAdapter.enqueueDescriptor_exec]
      exact Uapi.enqueueCmd_sameBooks _ _ _ _
    · exact within_bind Quiet.trans (fun v => ⟨.refl _, ⟨rfl, rfl, rfl⟩⟩) fun _ => ih

theorem submitBatch_delivers (batch : Option ℕ) : Within Delivers (submitBatch batch) := by
  have hquiet : Within Quiet (submitBatch batch) := by
    refine within_bind Quiet.trans Quiet.refl fun v => ?_
    refine within_bind Quiet.trans (submitSlots_quiet _) fun _ => ?_
    exact within_bind Quiet.trans Quiet.refl fun _ => within_pure Quiet.refl _
  exact fun v => delivers_nothing (submitBatch_keeps batch v) (hquiet v).books (hquiet v).state

theorem createSegment_delivers (bytes : UInt64) :
    Within Delivers (onAdapter (QemuBackendAdapter.createSegment bytes)) := by
  intro v
  refine delivers_nothing (onAdapter_keeps (QemuBackendAdapter.createSegment_runs bytes) v) ?_
    (.refl _)
  rw [onAdapter, exec_zoom, QemuBackendAdapter.createSegment_exec]
  exact (Uapi.createSegment_nothingEnters _ _).toSameBooks

end EndpointView

/-! ### All endpoints -/

namespace LinquDeviceModel

variable {d d' : LinquDeviceModel}

/-- What has arrived in the ring are completions that the queue of the session has handed out, in
their order; if all of them fit, none is missing. -/
def Received (s : LocalGuestUapiSurface) (st : DeviceEndpointState) : Prop :=
  ∃ entries, st.arrived = entries.map (·.event) ∧ entries.Sublist (s.returnsOf st.session.cq) ∧
    ((∀ entry ∈ s.returnsOf st.session.cq, entry.event.Fits st.memory.slotBytes) →
      entries = s.returnsOf st.session.cq)

/-- The session of an endpoint. -/
def sessionOf (d : LinquDeviceModel) (endpoint : EndpointId) : Option GuestEndpointSession :=
  (d.endpoints.lookup endpoint).map (·.session)

theorem sessionOf_eq {endpoint : EndpointId} {st : DeviceEndpointState}
    (hst : d.endpoints.lookup endpoint = some st) : d.sessionOf endpoint = some st.session :=
  congrArg (Option.map fun st : DeviceEndpointState => st.session) hst

/-- Every endpoint has queues of its own, and its ring has received completions of its own queue
only. -/
structure Provenance (d : LinquDeviceModel) : Prop where
  queues : OwnQueues d.adapter.surface d.sessionOf
  rings : d.RingsHold
  received : ∀ endpoint st, d.endpoints.lookup endpoint = some st →
    Received d.adapter.surface st

/-- The part of the ring counts only, and what the queue has handed out. -/
theorem Received.same {s s' : LocalGuestUapiSurface} {st st' : DeviceEndpointState}
    (h : Received s st) (hstate : st.SameArrived st')
    (hreturns : s'.returnsOf st.session.cq = s.returnsOf st.session.cq) : Received s' st' := by
  obtain ⟨entries, harrived, hsublist, hfits⟩ := h
  refine ⟨entries, hstate.arrived.trans harrived, ?_, ?_⟩
  · rw [hstate.session, hreturns]
    exact hsublist
  · rw [hstate.session, hreturns, hstate.slotBytes]
    exact hfits

/-- A delivery to the ring of the queue. -/
theorem Received.deliver {v v' : EndpointView} {taken stored : List (Owned Submission)}
    (h : Received v.adapter.surface v.state) (hdelivery : v.Delivery taken stored v')
    (hsession : v'.state.session = v.state.session)
    (hbytes : v'.state.memory.slotBytes = v.state.memory.slotBytes) :
    Received v'.adapter.surface v'.state := by
  obtain ⟨entries, harrived, hsublist, hfits⟩ := h
  have hreturns := hdelivery.hands.returnsOf v.state.session.cq
  rw [if_pos rfl] at hreturns
  refine ⟨entries ++ stored, ?_, ?_, fun hall => ?_⟩
  · rw [hdelivery.arrived, harrived, List.map_append]
  · rw [hsession, hreturns]
    exact hsublist.append hdelivery.sublist
  · rw [hsession, hreturns, hbytes] at hall
    rw [hsession, hreturns, hfits fun entry hentry => hall entry (List.mem_append_left _ hentry),
      hdelivery.fits fun entry hentry => hall entry (List.mem_append_right _ hentry)]

/-- The adapter changes, and no queue is opened and nothing handed out. -/
theorem Provenance.onAdapter (h : Provenance d) {adapter : QemuBackendAdapter}
    (hruns : d.adapter.Runs adapter) (hbooks : SameBooks d.adapter.surface adapter.surface) :
    Provenance { d with adapter } where
  queues := h.queues.same (hruns.isolated h.queues.isolated) hbooks
  rings := h.rings
  received := fun endpoint st hst => (h.received endpoint st hst).same (.refl st) (by
    simp only [LocalGuestUapiSurface.returnsOf, hbooks.returns])

/-- The adapter runs commands, and one endpoint receives what they hand out. -/
theorem Provenance.deliver (h : Provenance d) {endpoint : EndpointId} {st : DeviceEndpointState}
    (hst : d.endpoints.lookup endpoint = some st) {v : EndpointView}
    (hv : EndpointView.Delivers ⟨d.adapter, st⟩ v) :
    Provenance { d.update endpoint v.state with adapter := v.adapter } := by
  have hisolated := h.queues.isolated
  obtain ⟨taken, stored, hdelivery⟩ := hv.delivery (h.rings endpoint st hst) hisolated
  have hcases : ∀ other st', (d.update endpoint v.state).endpoints.lookup other = some st' →
      (other = endpoint ∧ st' = v.state) ∨
        (other ≠ endpoint ∧ d.endpoints.lookup other = some st') :=
    fun other st' hother => Flow.lookup_insert_cases hother
  -- every endpoint keeps its session
  have hsessions : (d.update endpoint v.state).sessionOf = d.sessionOf := by
    funext other
    exact Flow.lookup_insert_map hst (·.session) hv.session other
  refine ⟨?_, h.rings.update endpoint (hv.keeps.rings (h.rings endpoint st hst)), ?_⟩
  · show OwnQueues v.adapter.surface (d.update endpoint v.state).sessionOf
    rw [hsessions]
    exact h.queues.hands (hv.keeps.runs.isolated hisolated) hdelivery.hands
  · intro other st' hother
    rcases hcases other st' hother with ⟨rfl, rfl⟩ | ⟨hne, hother⟩
    · exact Received.deliver (h.received other st hst) hdelivery hv.session hv.slotBytes
    · exact (h.received other st' hother).same (.refl st') (h.queues.returnsOf_other
        (sessionOf_eq hst) (sessionOf_eq hother) hne hdelivery.hands)

/-- **An endpoint is realized** with queues of its own. -/
theorem realizeEndpoint_provenance (h : Provenance d) (entity : EntityId) :
    Provenance (exec (Device.realizeEndpoint entity) d).2 := by
  let d₁ := { d with nextEndpointId := d.nextEndpointId + 1 }
  have hregistered := QemuBackendAdapter.registerEndpoint_spec entity d.adapter
  have hisolated :=
    (QemuBackendAdapter.registerEndpoint_runs entity d.adapter).isolated h.queues.isolated
  unfold Device.realizeEndpoint
  rw [exec_bind_ok (exec_modify _ d), exec_bind_ok (exec_get d₁)]
  rcases hregister : exec (QemuBackendAdapter.registerEndpoint entity) d.adapter with
    ⟨result, adapter⟩
  rw [hregister] at hregistered hisolated
  dsimp only at hregistered hisolated
  have hsame : ∀ cq, adapter.surface.returnsOf cq = d.adapter.surface.returnsOf cq := by
    intro cq
    simp only [LocalGuestUapiSurface.returnsOf, hregistered.history]
  have hon : exec (Device.onAdapter (QemuBackendAdapter.registerEndpoint entity)) d₁ =
      (result, { d₁ with adapter }) := by
    rw [Device.onAdapter, exec_zoom, hregister]
  cases result with
  | error e =>
    rw [exec_bind_error hon]
    exact ⟨h.queues.refused hisolated hregistered, h.rings,
      fun endpoint st hst => (h.received endpoint st hst).same (.refl st) (hsame _)⟩
  | ok session =>
    rw [exec_bind_ok hon]
    let endpoint : EndpointId := ⟨d.nextEndpointId + 1⟩
    have hcases : ∀ other st, (d.update endpoint (.new session)).endpoints.lookup other = some st →
        (other = endpoint ∧ st = .new session) ∨
          (other ≠ endpoint ∧ d.endpoints.lookup other = some st) :=
      fun other st hother => Flow.lookup_insert_cases hother
    refine ⟨h.queues.opened hisolated hregistered endpoint ?_,
      h.rings.update endpoint (DeviceEndpointState.new_rings session), ?_⟩
    · intro other session' hother
      obtain ⟨st, hst, rfl⟩ := Option.map_eq_some_iff.1 hother
      rcases hcases other st hst with ⟨rfl, rfl⟩ | ⟨_, hst⟩
      · exact .inr ⟨rfl, rfl⟩
      · exact .inl (sessionOf_eq hst)
    · intro other st hother
      show Received adapter.surface st
      rcases hcases other st hother with ⟨rfl, rfl⟩ | ⟨_, hother⟩
      · have hnone : adapter.surface.returnsOf session.cq = [] := by
          rw [hsame, hregistered.session_eq]
          exact h.queues.returnsOf_fresh
        exact ⟨[], rfl, List.nil_sublist _, fun _ => hnone.symm⟩
      · exact (h.received other st hother).same (.refl st) (hsame _)

theorem setLastError_provenance (h : Provenance d) (endpoint : EndpointId) (err : SimError) :
    Provenance (d.setLastError endpoint err) := by
  unfold setLastError
  cases hst : d.endpoints.lookup endpoint with
  | none => exact h
  | some st =>
    have hrings := h.rings endpoint st hst
    let st' := { st with
      lastError := (classifyError err).toU64
      irqStatus := st.irqStatus ||| DeviceInterruptStatus.error }
    have hkeeps : EndpointView.Keeps ⟨d.adapter, st⟩ ⟨d.adapter, st'⟩ := ⟨.refl _, fun hr =>
      ⟨hr.cmdDepth, hr.cqDepth, hr.cmd, hr.cq, hr.length, hr.held, hr.returned⟩⟩
    exact h.deliver hst (EndpointView.delivers_nothing hkeeps (.refl _) ⟨rfl, rfl, rfl⟩)

/-! ### All calls -/

variable {α : Type}

theorem onAdapter_provenance {m : Action QemuBackendAdapter SimError α}
    (hruns : Within QemuBackendAdapter.Runs m)
    (hbooks : ∀ adapter, SameBooks adapter.surface (exec m adapter).2.surface) :
    Within (fun d d' => Provenance d → Provenance d') (Device.onAdapter m) :=
  fun d h => h.onAdapter (hruns d.adapter) (hbooks d.adapter)

theorem provenance_rules : MethodRules (fun _ => False) EndpointView.Delivers
    (fun d d' => Provenance d → Provenance d') where
  refl := fun _ h => h
  trans := fun _ _ _ hde hef h => hef (hde h)
  endpoint := fun endpoint m hm d _ h => by
    cases hst : d.endpoints.lookup endpoint with
    | none =>
      rw [Device.withEndpoint_none hst]
      exact h
    | some st =>
      rw [Device.withEndpoint_eq hst]
      exact h.deliver hst (hm.within ⟨d.adapter, st⟩)
  lastError := fun d endpoint err h => setLastError_provenance h endpoint err
  realize := fun entity d _ h => realizeEndpoint_provenance h entity
  queryTopology := (onAdapter_provenance QemuBackendAdapter.queryTopology_runs
    fun adapter => .refl adapter.surface).barring
  getHealth := fun entity => (onAdapter_provenance (QemuBackendAdapter.getHealth_runs entity)
    fun adapter => by
      rw [QemuBackendAdapter.getHealth_exec, Uapi.getHealth_state]
      exact .refl adapter.surface).barring
  ring := fun session batch => (onAdapter_provenance
    (QemuBackendAdapter.ringDoorbell_runs session batch) fun adapter => by
      rw [QemuBackendAdapter.ringDoorbell_exec]
      exact (Uapi.ringDoorbell_nothingEnters _ _ _ adapter.surface).toSameBooks).barring
  viewRefl := EndpointView.Delivers.refl
  segment := fun bytes => (EndpointView.createSegment_delivers bytes).barring
  flush := EndpointView.flushCqRing_delivers.barring
  submit := fun batch => (EndpointView.submitBatch_delivers batch).barring
  poll := fun maxEntries => (EndpointView.onState_delivers (Device.keeps_rules.poll maxEntries)
    (DeviceEndpointState.pollRing_arrived maxEntries)).barring
  writeCmd := fun slot desc => (EndpointView.onState_delivers (Device.keeps_rules.writeCmd slot desc)
    (DeviceEndpointState.writeCmdDescriptor_arrived slot desc)).barring
  writeTail := fun newTail => (EndpointView.onState_delivers (Device.keeps_rules.writeTail newTail)
    (DeviceEndpointState.writeCmdqTail_arrived newTail)).barring
  writeHead := fun newHead => (EndpointView.onState_delivers (Device.keeps_rules.writeHead newHead)
    (DeviceEndpointState.writeCqHead_arrived newHead)).barring
  writeAck := fun value => (EndpointView.onState_delivers (Device.keeps_rules.writeAck value)
    (fun _ => ⟨rfl, rfl, rfl⟩)).barring

theorem withProfile_provenance (machine : Machine) (profile : MachineProfile) :
    Provenance (withProfile machine profile) where
  queues := .none (LocalGuestUapiSurface.initial_isolated _) rfl fun _ => rfl
  rings := withProfile_ringsHold machine profile
  received := fun _ _ hst => (by cases hst)

variable {machine : Machine} {profile : MachineProfile}

theorem Reachable.provenance (hd : Reachable machine profile d) : Provenance d := by
  induction hd with
  | start => exact withProfile_provenance machine profile
  | call call _ ih => exact (provenance_rules.call call).within _ ih
  | rung write _ ih => exact (provenance_rules.submitAndRing write).within _ ih

end LinquDeviceModel

end LinquUb
