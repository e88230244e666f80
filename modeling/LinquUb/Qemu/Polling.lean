import LinquUb.Qemu.Ring
import LinquUb.Uapi.Flush

/-!
# What polls of the device return

The ring invariant put together with the loop of `poll_cq`: a poll fails only if the flush in front
of it does, and what it returns are the oldest completions of the ring.
-/

namespace LinquUb

open Action

namespace Device

/-- The errors of a flush: no completion queue, or a completion that does not fit into a slot.  None
of them is about a slot that has been filled. -/
def flushErrors : List SimError :=
  [.notFound "endpoint", .notFound "completion queue",
    .invalidInput "completion queue owner mismatch", .invalidInput "unexpected cq poll response",
    .invalidInput "cq slot out of range", .invalidInput "string too long for slot encoding",
    .invalidInput "encoded payload exceeds slot size"]

theorem adapter_pollCq_throws (session : GuestEndpointSession) (maxEntries : Option ℕ) :
    Throws (· ∈ flushErrors) (QemuBackendAdapter.pollCq session maxEntries) := by
  refine throws_bind (throws_zoom (throws_bind ?_ fun _ => throws_pure _)) fun response => ?_
  · intro s e s' h
    rcases Uapi.pollCqWithOwner_throws session.cq session.entity maxEntries s e s' h with rfl | rfl
    · decide
    · decide
  · cases response with
    | completions events remaining => exact throws_pure _
    | _ => exact throws_throw (by decide)

theorem storeAll_throws (events : List CompletionEvent) :
    Throws (· ∈ flushErrors) (DeviceEndpointState.storeAll events) := by
  induction events with
  | nil => exact throws_pure ()
  | cons completion rest ih =>
    refine throws_get_bind fun st => throws_bind ?_ fun memory => ?_
    · refine throws_mapErr (throws_ofExcept fun e h => ?_)
      rcases GuestRingMemory.writeCqSlot_error h with rfl | rfl | rfl <;> decide
    · exact throws_bind (fun _ _ _ h => (by cases h)) fun _ => ih

theorem storeCompletions_throws (events : List CompletionEvent) :
    Throws (· ∈ flushErrors) (DeviceEndpointState.storeCompletions events) := by
  refine throws_bind (storeAll_throws events) fun _ => throws_get_bind fun st => ?_
  split_ifs
  · exact fun _ _ _ h => (by cases h)
  · exact throws_pure _

theorem withEndpoint_throws {α : Type} {P : SimError → Prop} {endpoint : EndpointId}
    {m : Action EndpointView SimError α} (hnone : P (.notFound "endpoint")) (hm : Throws P m) :
    Throws P (withEndpoint endpoint m) := by
  intro d e d' h
  cases hlookup : d.endpoints.lookup endpoint with
  | none =>
    rw [withEndpoint_none hlookup] at h
    cases h
    exact hnone
  | some st =>
    rw [withEndpoint_eq hlookup] at h
    have hresult : (exec m ⟨d.adapter, st⟩).1 = .error e := congrArg Prod.fst h
    exact hm _ e _ (Prod.ext hresult rfl)

theorem flushCqRing_throws (endpoint : EndpointId) :
    Throws (· ∈ flushErrors) (flushCqRing endpoint) := by
  refine withEndpoint_throws (by decide) fun v e v' h => ?_
  rcases EndpointView.flushCqRing_cases v with ⟨_, hflush⟩ | ⟨e', adapter, hflush, hpoll⟩ |
    ⟨events, rest, adapter, _, hflush⟩
  · rw [hflush] at h
    cases h
  · rw [hflush] at h
    cases h
    exact adapter_pollCq_throws _ _ _ _ _ hpoll
  · rw [hflush] at h
    exact throws_zoom (storeCompletions_throws events) _ e v' h

/-- A flush changes only the ring of its endpoint, and does not return anything. -/
theorem flushCqRing_returned {endpoint : EndpointId} {d : LinquDeviceModel}
    {st : DeviceEndpointState} (h : d.RingsHold) (hst : d.endpoints.lookup endpoint = some st) :
    ∃ st', (exec (flushCqRing endpoint) d).2.endpoints.lookup endpoint = some st' ∧ st'.Rings ∧
      st'.returned = st.returned := by
  have hrings := h endpoint st hst
  have hkeeps := (EndpointView.flushCqRing_keeps ⟨d.adapter, st⟩).rings hrings
  refine ⟨(exec EndpointView.flushCqRing ⟨d.adapter, st⟩).2.state, ?_, hkeeps, ?_⟩
  · rw [flushCqRing, withEndpoint_eq hst]
    exact Finmap.lookup_insert _
  · rcases EndpointView.flushCqRing_cases ⟨d.adapter, st⟩ with ⟨_, hflush⟩ |
      ⟨e, adapter, hflush, _⟩ | ⟨events, rest, adapter, hpoll, hflush⟩
    · rw [hflush]
    · rw [hflush]
    · rw [hflush]
      exact (DeviceEndpointState.storeCompletions_stored hrings
        (QemuBackendAdapter.pollCq_length hpoll)).returned

/-- **A poll fails only if its flush does**; otherwise it returns completions that it logs. -/
theorem pollCq_cases {endpoint : EndpointId} {d : LinquDeviceModel} {st : DeviceEndpointState}
    (h : d.RingsHold) (hst : d.endpoints.lookup endpoint = some st) (maxEntries : Option ℕ) :
    (∃ e d', e ∈ flushErrors ∧ exec (flushCqRing endpoint) d = (.error e, d') ∧
        exec (pollCq endpoint maxEntries) d = (.error e, d')) ∨
      ∃ events rest d' st', exec (pollCq endpoint maxEntries) d = (.ok (events, rest), d') ∧
        d'.endpoints.lookup endpoint = some st' ∧ st'.returned = st.returned ++ events := by
  obtain ⟨st₁, hst₁, hrings, hreturned⟩ := flushCqRing_returned h hst
  rcases hflush : exec (flushCqRing endpoint) d with ⟨e | a, d₁⟩
  · refine .inl ⟨e, d₁, flushCqRing_throws endpoint d e d₁ hflush, rfl, ?_⟩
    rw [pollCq, exec_bind_error hflush]
  · rw [hflush] at hst₁
    obtain ⟨events, rest, st', hpoll, _, _, hlog⟩ := DeviceEndpointState.pollRing_eq hrings maxEntries
    have hview : exec (EndpointView.onState (DeviceEndpointState.pollRing maxEntries))
        ⟨d₁.adapter, st₁⟩ = (.ok (events, rest), ⟨d₁.adapter, st'⟩) := by
      rw [EndpointView.onState, exec_zoom, hpoll]
    refine .inr ⟨events, rest, { d₁.update endpoint st' with adapter := d₁.adapter }, st', ?_,
      Finmap.lookup_insert _, hreturned ▸ hlog⟩
    rw [pollCq, exec_bind_ok hflush, withEndpoint_eq hst₁, hview]

end Device

namespace LinquDeviceModel

theorem withProfile_ringsHold (machine : Machine) (profile : MachineProfile) :
    (withProfile machine profile).RingsHold :=
  fun endpoint st h => (by cases h)

/-- **The rings of the device.**  In every reachable state the rings of every endpoint are windows
within their depths, every slot of the window of the completion ring is valid and decodes, and what
polls have returned are completions that were stored, in the order of their arrival.  A poll fails
only if the flush in front of it fails, with an error that is not about a stored completion. -/
theorem rings_well_formed (machine : Machine) (profile : MachineProfile) (calls : List DeviceCall)
    (endpoint : EndpointId) (st : DeviceEndpointState)
    (hst : ((withProfile machine profile).run calls).endpoints.lookup endpoint = some st) :
    (st.cmdqCount ≤ st.session.layout.cmdqDepth.toNat ∧
      (st.cmdqHead + st.cmdqCount) % st.session.layout.cmdqDepth.toNat = st.cmdqTail) ∧
    (st.cqCount ≤ st.session.layout.cqDepth.toNat ∧
      (st.cqHead + st.cqCount) % st.session.layout.cqDepth.toNat = st.cqTail) ∧
    (∀ i < st.cqCount, ∃ completion,
      st.memory.HoldsCompletion ((st.cqHead + i) % st.session.layout.cqDepth.toNat) completion) ∧
    st.returned.Sublist st.arrived ∧
    ∀ maxEntries,
      (∀ e d, exec (Device.pollCq endpoint maxEntries) ((withProfile machine profile).run calls) =
          (.error e, d) → e ∈ Device.flushErrors ∧
        exec (Device.flushCqRing endpoint) ((withProfile machine profile).run calls) =
          (.error e, d)) ∧
      ∀ events rest d,
        exec (Device.pollCq endpoint maxEntries) ((withProfile machine profile).run calls) =
          (.ok (events, rest), d) →
        ∃ st', d.endpoints.lookup endpoint = some st' ∧ st'.returned = st.returned ++ events := by
  have hhold := (run_keeps _ calls).rings (withProfile_ringsHold machine profile)
  have hrings := hhold endpoint st hst
  refine ⟨?_, ?_, fun i hi => ?_, ?_, fun maxEntries => ?_⟩
  · exact hrings.cmdDepth ▸ ⟨hrings.cmd.count_le, hrings.cmd.tail_eq⟩
  · exact hrings.cqDepth ▸ ⟨hrings.cq.count_le, hrings.cq.tail_eq⟩
  · have hlt : i < (st.arrived.drop st.retired).length := hrings.pending_length.symm ▸ hi
    exact ⟨_, hrings.cqDepth ▸ hrings.held i _ (List.getElem?_eq_getElem hlt)⟩
  · exact hrings.returned.trans (List.take_sublist _ _)
  · rcases Device.pollCq_cases hhold hst maxEntries with ⟨e, d, he, hflush, hpoll⟩ |
      ⟨events, rest, d, st', hpoll, hst', hlog⟩
    · rw [hpoll]
      refine ⟨fun e' d' h => ?_, fun events rest d' h => (by cases h)⟩
      cases h
      exact ⟨he, hflush⟩
    · rw [hpoll]
      refine ⟨fun e d' h => (by cases h), fun events' rest' d' h => ?_⟩
      cases h
      exact ⟨st', hst', hlog⟩

/-- The task key of a guest that fills in zeros. -/
def zeroTask : TaskKey :=
  { logicalSystem := ⟨0⟩, coord := ⟨List.Vector.replicate 8 0⟩, scopeDepth := 0, taskId := 0 }

def threeSlotProfile : MachineProfile :=
  { MachineProfile.default with
    endpoint := { GuestEndpointLayout.default with cmdqDepth := 3, cqDepth := 3 } }

/-- The `i`-th put of an endpoint with three slots: written, announced and rung. -/
def threeSlotPut (endpoint : EndpointId) (task : Option TaskKey) (i : ℕ) : List DeviceCall :=
  [.writeCmdDescriptor endpoint (i % 3) (.service (.dbPut ⟨task, "", 1⟩)),
    .mmioWriteCmdqTail endpoint ((i + 1) % 3), .mmioRingDoorbell ⟨endpoint, none⟩]

/-- Two endpoints, four puts each.  The first polls two completions, and announces two more slots
after a tail that is out of range.  The ring of the second is full when its last put is rung, whose
completion does not fit; then it polls one. -/
def wrapCalls : List DeviceCall :=
  [.realizeEndpoint 0, .realizeEndpoint 1] ++ threeSlotPut ⟨1⟩ none 0 ++ threeSlotPut ⟨2⟩ none 0 ++
    threeSlotPut ⟨1⟩ none 1 ++ [.pollCq ⟨1⟩ (some 2)] ++ threeSlotPut ⟨2⟩ none 1 ++
    threeSlotPut ⟨1⟩ none 2 ++ threeSlotPut ⟨2⟩ none 2 ++ threeSlotPut ⟨1⟩ none 3 ++
    threeSlotPut ⟨2⟩ (some zeroTask) 3 ++
    [.pollCq ⟨2⟩ (some 1), .mmioWriteCmdqTail ⟨1⟩ 3, .mmioWriteCmdqTail ⟨1⟩ 0]

def wrapped : LinquDeviceModel := (withProfile .sample threeSlotProfile).run wrapCalls

/-- Both windows of the first endpoint reach over the end of the ring.  The next poll of it returns
the two completions of its window; that of the second endpoint fails in its flush. -/
theorem rings_well_formed_wrapped :
    (∃ st, wrapped.endpoints.lookup ⟨1⟩ = some st ∧
      ((st.cmdqHead, st.cmdqCount, st.cmdqTail) = (1, 2, 0) ∧
        st.cmdqCount ≤ 3 ∧ (st.cmdqHead + st.cmdqCount) % 3 = st.cmdqTail) ∧
      ((st.cqHead, st.cqCount, st.cqTail) = (2, 2, 1) ∧
        st.cqCount ≤ 3 ∧ (st.cqHead + st.cqCount) % 3 = st.cqTail) ∧
      (∀ i < 2, ∃ completion, st.memory.HoldsCompletion ((2 + i) % 3) completion) ∧
      ((st.arrived.length, st.returned.length) = (4, 2) ∧ st.returned.Sublist st.arrived) ∧
      ∃ events rest d st', exec (Device.pollCq ⟨1⟩ none) wrapped = (.ok (events, rest), d) ∧
        events.length = 2 ∧ d.endpoints.lookup ⟨1⟩ = some st' ∧
        st'.returned = st.returned ++ events) ∧
    ∃ e d, exec (Device.pollCq ⟨2⟩ none) wrapped = (.error e, d) ∧
      e = .invalidInput "encoded payload exceeds slot size" ∧ e ∈ Device.flushErrors ∧
      exec (Device.flushCqRing ⟨2⟩) wrapped = (.error e, d) := by
  constructor
  · obtain ⟨st, hst⟩ : ∃ st, wrapped.endpoints.lookup ⟨1⟩ = some st :=
      Option.isSome_iff_exists.1 (by decide +kernel)
    have hview : (wrapped.endpoints.lookup ⟨1⟩).map (fun st => ((st.cmdqHead, st.cmdqCount,
        st.cmdqTail), (st.cqHead, st.cqCount, st.cqTail), st.arrived.length, st.returned.length,
        st.session.layout)) = some ((1, 2, 0), (2, 2, 1), 4, 2, threeSlotProfile.endpoint) := by
      decide +kernel
    rw [hst] at hview
    simp only [Option.map_some, Option.some.injEq, Prod.mk.injEq] at hview
    obtain ⟨⟨hcmdHead, hcmdCount, hcmdTail⟩, ⟨hcqHead, hcqCount, hcqTail⟩, harrived, hreturned,
      hlayout⟩ := hview
    obtain ⟨hcmd, hcq, hheld, hsub, hpolls⟩ := rings_well_formed .sample threeSlotProfile wrapCalls
      ⟨1⟩ st hst
    rw [hlayout] at hcmd hcq hheld
    rw [hcqHead, hcqCount] at hheld
    have hlength : (exec (Device.pollCq ⟨1⟩ none) wrapped).1.toOption.map
        (fun polled => polled.1.length) = some 2 := by
      decide +kernel
    rcases hpoll : exec (Device.pollCq ⟨1⟩ none) wrapped with ⟨_ | ⟨events, rest⟩, d⟩
    · rw [hpoll] at hlength
      cases hlength
    · rw [hpoll] at hlength
      obtain ⟨st', hst', hlog⟩ := (hpolls none).2 events rest d hpoll
      exact ⟨st, hst, ⟨by rw [hcmdHead, hcmdCount, hcmdTail], hcmd⟩,
        ⟨by rw [hcqHead, hcqCount, hcqTail], hcq⟩, hheld, ⟨by rw [harrived, hreturned], hsub⟩,
        events, rest, d, st', rfl, Option.some.inj hlength, hst', hlog⟩
  · obtain ⟨st, hst⟩ : ∃ st, wrapped.endpoints.lookup ⟨2⟩ = some st :=
      Option.isSome_iff_exists.1 (by decide +kernel)
    have herror : (exec (Device.pollCq ⟨2⟩ none) wrapped).1.map (fun _ => ()) =
        .error (.invalidInput "encoded payload exceeds slot size") := by
      decide +kernel
    rcases hpoll : exec (Device.pollCq ⟨2⟩ none) wrapped with ⟨e | polled, d⟩
    · rw [hpoll] at herror
      obtain ⟨hmem, hflush⟩ := ((rings_well_formed .sample threeSlotProfile wrapCalls ⟨2⟩ st
        hst).2.2.2.2 none).1 e d hpoll
      exact ⟨e, d, rfl, Except.error.inj herror, hmem, hflush⟩
    · rw [hpoll] at herror
      cases herror

end LinquDeviceModel

end LinquUb
