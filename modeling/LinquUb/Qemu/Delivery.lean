import LinquUb.Qemu.Polling
import Mathlib.Data.List.TakeWhile

/-!
# Delivery at the device boundary

`adapter.poll_cq` hands completions out for good.  The device and the bridge then encode them into
slots, and a completion that does not fit into its slot is lost together with those behind it.

* `flushCqRing_arrived` : what a flush stores of the completions that it takes;
* `pollCompletion_eq` : what the bridge writes into the slot of its caller.
-/

namespace LinquUb

open Action

namespace LinquDeviceModel

/-- The states between calls of the device, and those in which a doorbell starts its flush. -/
inductive Reachable (machine : Machine) (profile : MachineProfile) : LinquDeviceModel → Prop
  | start : Reachable machine profile (withProfile machine profile)
  | call {d : LinquDeviceModel} (call : DeviceCall) (hd : Reachable machine profile d) :
    Reachable machine profile (exec (Device.call call) d).2
  | rung {d : LinquDeviceModel} (write : DoorbellWrite) (hd : Reachable machine profile d) :
    Reachable machine profile (exec (Device.submitAndRing write) d).2

theorem Reachable.run {machine : Machine} {profile : MachineProfile} {d : LinquDeviceModel}
    (hd : Reachable machine profile d) (calls : List DeviceCall) :
    Reachable machine profile (d.run calls) := by
  induction calls generalizing d with
  | nil => exact hd
  | cons call calls ih => exact ih (.call call hd)

theorem Reachable.ringsHold {machine : Machine} {profile : MachineProfile} {d : LinquDeviceModel}
    (hd : Reachable machine profile d) : d.RingsHold := by
  induction hd with
  | start => exact withProfile_ringsHold machine profile
  | call call _ ih => exact (Device.call_keeps call _).rings ih
  | rung write _ ih => exact (Device.submitAndRing_keeps write _).rings ih

/-- A flush stores the completions in front of the first that does not fit, in the slots behind the
window of the ring. -/
theorem flushCqRing_arrived {d : LinquDeviceModel} {endpoint : EndpointId}
    {st : DeviceEndpointState} (hd : d.RingsHold) (hst : d.endpoints.lookup endpoint = some st)
    (hroom : st.cqCount < st.memory.cqDepth) {events : List CompletionEvent} {rest : ℕ}
    {adapter : QemuBackendAdapter}
    (hpoll : exec (QemuBackendAdapter.pollCq st.session
      (some (st.memory.cqDepth - st.cqCount))) d.adapter = (.ok (events, rest), adapter)) :
    ∃ st', (exec (Device.flushCqRing endpoint) d).2.endpoints.lookup endpoint = some st' ∧
      st'.arrived = st.arrived ++ events.takeWhile (·.Fits st.memory.slotBytes) ∧
      LTS.Holds st'.memory.HoldsCompletion st.memory.cqDepth (st.cqHead + st.cqCount)
        (events.takeWhile (·.Fits st.memory.slotBytes)) := by
  refine ⟨(exec EndpointView.flushCqRing ⟨d.adapter, st⟩).2.state, ?_, ?_⟩
  · rw [Device.flushCqRing, Device.withEndpoint_eq hst]
    exact Finmap.lookup_insert _
  · rcases EndpointView.flushCqRing_cases ⟨d.adapter, st⟩ with ⟨hfull, _⟩ |
      ⟨e, adapter', _, herror⟩ | ⟨events', rest', adapter', hpoll', hflush⟩
    · have hzero : st.memory.cqDepth - st.cqCount = 0 := hfull
      omega
    · rw [hpoll] at herror
      cases herror
    · rw [hpoll] at hpoll'
      cases hpoll'
      rw [hflush]
      have hstored := DeviceEndpointState.storeCompletions_stored (hd endpoint st hst)
        (QemuBackendAdapter.pollCq_length hpoll)
      exact ⟨hstored.arrived, hstored.holds (hd endpoint st hst)⟩

end LinquDeviceModel

namespace LinquUbBridge

/-- The bridge encodes the first completion of a poll. -/
theorem pollCompletion_eq {bridge : LinquUbBridge} {endpointId : UInt16} {slotOut : List UInt8}
    {entry : BridgeEndpointSession} (hentry : bridge.sessions.lookup endpointId = some entry)
    {events : List CompletionEvent} {rest : ℕ} {adapter : QemuBackendAdapter}
    (hpoll : exec (QemuBackendAdapter.pollCq entry.session (some 1)) bridge.adapter =
      (.ok (events, rest), adapter)) :
    exec (pollCompletion endpointId slotOut) bridge = (match events.head? with
      | some event => (encodeCompletion event slotOut.length).map some
      | none => .ok none, { bridge with adapter }) := by
  have hsession : exec (session endpointId) bridge = (.ok entry.session, bridge) := by
    unfold session
    rw [exec_bind_ok (exec_get bridge)]
    simp only [hentry]
    rfl
  have hon : exec (mapErr (fun _ => "poll completion failed")
      (onAdapter (QemuBackendAdapter.pollCq entry.session (some 1)))) bridge =
        (.ok (events, rest), { bridge with adapter }) := by
    rw [exec_mapErr, onAdapter, exec_zoom, hpoll]
    rfl
  rw [pollCompletion, exec_bind_ok hsession, exec_bind_ok hon]
  cases events with
  | nil => rfl
  | cons event tail =>
    simp only [List.head?_cons]
    cases encodeCompletion event slotOut.length <;> rfl

end LinquUbBridge

namespace LinquDeviceModel

/-- **What is delivered.**  In every reachable state, a flush of a ring with room stores all the
completions that it takes out of the adapter, in the order of their arrival and in the slots behind
the window of the ring, exactly when each of them fits into a slot; and the bridge writes the
completion that it takes into the slot of its caller exactly when it fits. -/
theorem completions_delivered (machine : Machine) (profile : MachineProfile) {d : LinquDeviceModel}
    (hd : Reachable machine profile d) :
    (∀ endpoint st, d.endpoints.lookup endpoint = some st → st.cqCount < st.memory.cqDepth →
      ∀ events rest adapter, exec (QemuBackendAdapter.pollCq st.session
          (some (st.memory.cqDepth - st.cqCount))) d.adapter = (.ok (events, rest), adapter) →
        ((∃ st', (exec (Device.flushCqRing endpoint) d).2.endpoints.lookup endpoint = some st' ∧
            st'.arrived = st.arrived ++ events ∧
            LTS.Holds st'.memory.HoldsCompletion st.memory.cqDepth (st.cqHead + st.cqCount)
              events) ↔
          ∀ event ∈ events, event.Fits st.memory.slotBytes)) ∧
    ∀ (bridge : LinquUbBridge) endpointId entry slotOut,
      bridge.sessions.lookup endpointId = some entry →
      ∀ events rest adapter, exec (QemuBackendAdapter.pollCq entry.session (some 1)) bridge.adapter =
          (.ok (events, rest), adapter) →
        ((∀ event ∈ events, ∃ bytes,
            (exec (LinquUbBridge.pollCompletion endpointId slotOut) bridge).1 = .ok (some bytes) ∧
            bytes.length = slotOut.length ∧ decodeCompletion bytes = .ok event) ↔
          ∀ event ∈ events, event.Fits slotOut.length) := by
  refine ⟨fun endpoint st hst hroom events rest adapter hpoll => ?_,
    fun bridge endpointId entry slotOut hentry events rest adapter hpoll => ?_⟩
  · obtain ⟨st', hst', harrived, hheld⟩ := flushCqRing_arrived hd.ringsHold hst hroom hpoll
    have hall : events.takeWhile (·.Fits st.memory.slotBytes) = events ↔
        ∀ event ∈ events, event.Fits st.memory.slotBytes := by
      rw [List.takeWhile_eq_self_iff]
      simp
    rw [← hall]
    constructor
    · rintro ⟨st'', hst'', h, -⟩
      rw [hst'] at hst''
      cases hst''
      exact List.append_cancel_left (harrived.symm.trans h)
    · intro h
      rw [h] at harrived hheld
      exact ⟨st', hst', harrived, hheld⟩
  · -- the bridge asks for one completion at most
    rw [LinquUbBridge.pollCompletion_eq hentry hpoll]
    have hlength := QemuBackendAdapter.pollCq_length hpoll
    cases events with
    | nil => simp
    | cons event tail =>
      have htail : tail = [] := by
        rw [List.length_cons] at hlength
        exact List.length_eq_zero_iff.1 (by omega)
      subst htail
      simp only [List.head?_cons, List.forall_mem_singleton]
      rcases event.encodeCompletion_spec slotOut.length with
        ⟨hnot, e, herror⟩ | ⟨hfits, bytes, hok, hbytes, hdecode⟩
      · rw [herror]
        exact iff_of_false (fun ⟨bytes, h, _⟩ => (by cases h)) hnot
      · rw [hok]
        exact iff_of_true ⟨bytes, rfl, hbytes, hdecode⟩ hfits

/-- The default device with one endpoint, when a doorbell for a small `DbPut` starts its flush. -/
def afterPut (task : Option TaskKey) : LinquDeviceModel :=
  (exec (Device.submitAndRing ⟨⟨1⟩, none⟩) ((withProfile .sample .default).run
    [.realizeEndpoint 0, .writeCmdDescriptor ⟨1⟩ 0 (.service (.dbPut ⟨task, "", 1⟩)),
      .mmioWriteCmdqTail ⟨1⟩ 1])).2

theorem afterPut_reachable (task : Option TaskKey) : Reachable .sample .default (afterPut task) :=
  .rung _ (.call _ (.call _ (.call _ .start)))

/-- A put without a task key is delivered into the first slot. -/
theorem completions_delivered_afterPut :
    ∃ st' event, (exec (Device.flushCqRing ⟨1⟩) (afterPut none)).2.endpoints.lookup ⟨1⟩ = some st' ∧
      st'.arrived = [event] ∧ st'.memory.HoldsCompletion 0 event := by
  obtain ⟨st, hst⟩ : ∃ st, (afterPut none).endpoints.lookup ⟨1⟩ = some st :=
    Option.isSome_iff_exists.1 (by decide +kernel)
  have hview : ((afterPut none).endpoints.lookup ⟨1⟩).map (fun st => ((st.session, st.arrived),
      (st.cqHead, st.cqCount), st.memory.cqDepth, st.memory.slotBytes)) =
      some ((⟨0, ⟨1⟩, ⟨1⟩, .default⟩, []), (0, 0), 64, 64) := by
    decide +kernel
  rw [hst] at hview
  simp only [Option.map_some, Option.some.injEq, Prod.mk.injEq] at hview
  obtain ⟨⟨hsession, harrived⟩, ⟨hhead, hcount⟩, hdepth, hbytes⟩ := hview
  have hfits : (exec (QemuBackendAdapter.pollCq ⟨0, ⟨1⟩, ⟨1⟩, .default⟩ (some (64 - 0)))
      (afterPut none).adapter).1.toOption.map
        (fun polled => (polled.1.length, polled.1.all (·.Fits 64))) = some (1, true) := by
    decide +kernel
  rcases hpoll : exec (QemuBackendAdapter.pollCq ⟨0, ⟨1⟩, ⟨1⟩, .default⟩ (some (64 - 0)))
    (afterPut none).adapter with ⟨_ | ⟨events, rest⟩, adapter⟩
  · rw [hpoll] at hfits
    cases hfits
  · rw [hpoll] at hfits
    obtain ⟨hlength, hall⟩ := Prod.mk.inj (Option.some.inj hfits)
    obtain ⟨event, rfl⟩ := List.length_eq_one_iff.1 hlength
    obtain ⟨st', hst', h, hheld⟩ := ((completions_delivered .sample .default
      (afterPut_reachable none)).1 ⟨1⟩ st hst (by omega) [event] rest adapter (by
        rw [hsession, hcount, hdepth, hpoll])).2 (by simpa [hbytes] using hall)
    refine ⟨st', event, hst', by rw [h, harrived, List.nil_append], ?_⟩
    have hslot := hheld 0 event rfl
    rwa [hhead, hcount, hdepth] at hslot

/-- With a task key the completion of the same put needs 67 bytes: the flush takes it out of the
adapter and fails, and the completion is neither in the ring nor left in the adapter. -/
theorem flush_loses :
    ((exec (QemuBackendAdapter.pollCq ⟨0, ⟨1⟩, ⟨1⟩, .default⟩ (some 64))
        (afterPut (some zeroTask)).adapter).1.toOption.map fun polled =>
          polled.1.map (·.encodedLength)) = some [67] ∧
      (exec (Device.flushCqRing ⟨1⟩) (afterPut (some zeroTask))).1.toOption = none ∧
      ((exec (Device.flushCqRing ⟨1⟩) (afterPut (some zeroTask))).2.endpoints.lookup ⟨1⟩).map
        (fun st => (st.arrived, st.cqCount)) = some ([], 0) ∧
      ((exec (Device.flushCqRing ⟨1⟩) (afterPut (some zeroTask))).2.adapter.surface.cqEvents.lookup
        ⟨1⟩).map (·.events.length) = some 0 := by
  refine ⟨?_, ?_, ?_, ?_⟩ <;> decide +kernel

end LinquDeviceModel

end LinquUb
