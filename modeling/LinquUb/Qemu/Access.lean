import LinquUb.Qemu.Delivery
import LinquUb.Uapi.Grants

/-!
# Access to shared memory through an endpoint

The requester of a put or get is a field of the descriptor.  The service checks that requester; the
entity for which the endpoint was realized plays no part in the check.
-/

namespace LinquUb

open Action

namespace LocalGuestUapiSurface

/-- Every completion that was delivered is granted to the requester which its descriptor names. -/
def RequestersPass (s : LocalGuestUapiSurface) : Prop :=
  ∀ cq entry, (cq, entry) ∈ s.history.pushes → s.Granted entry

end LocalGuestUapiSurface

theorem QemuBackendAdapter.Runs.requestersPass {machine : Machine} {profile : MachineProfile}
    {adapter : QemuBackendAdapter}
    (hadapter : Runs (QemuBackendAdapter.withProfile machine profile) adapter) :
    adapter.surface.RequestersPass := by
  obtain ⟨cmds, hcmds⟩ := hadapter.surface
  rw [hcmds]
  exact (LocalGuestUapiSurface.run_grants (LocalGuestUapiSurface.initial_grants _) cmds).pushes

namespace LinquDeviceModel

theorem Reachable.runs {machine : Machine} {profile : MachineProfile} {d : LinquDeviceModel}
    (hd : Reachable machine profile d) :
    QemuBackendAdapter.Runs (QemuBackendAdapter.withProfile machine profile) d.adapter := by
  induction hd with
  | start => exact .refl _
  | call call _ ih => exact ih.trans _ _ _ (Device.call_keeps call _).runs
  | rung write _ ih => exact ih.trans _ _ _ (Device.submitAndRing_keeps write _).runs

/-- **Shared memory is granted to requesters that pass the access rule**, in every adapter and in
every device that can be reached: a put or get is delivered with `Success` only if the requester
that its descriptor names owns the segment or is among the first `peer_count` entities. -/
theorem requesters_pass (machine : Machine) (profile : MachineProfile) :
    (∀ adapter, QemuBackendAdapter.Runs (QemuBackendAdapter.withProfile machine profile) adapter →
        adapter.surface.RequestersPass) ∧
      ∀ d, Reachable machine profile d → d.adapter.surface.RequestersPass :=
  ⟨fun _ hadapter => hadapter.requestersPass, fun _ hd => hd.runs.requestersPass⟩

/-- The default device with an endpoint for entity 5, which puts into a segment of entity 0 under
the name of `requester`. -/
def afterForeignPut (requester : EntityId) : LinquDeviceModel :=
  (withProfile .sample .default).run
    [.realizeEndpoint 5, .createSegment ⟨1⟩ 4096,
      .writeCmdDescriptor ⟨1⟩ 0 (.service (.shmemPut ⟨none, requester, ⟨1⟩, 8⟩)),
      .mmioWriteCmdqTail ⟨1⟩ 1, .mmioRingDoorbell ⟨⟨1⟩, none⟩]

theorem afterForeignPut_reachable (requester : EntityId) :
    Reachable .sample .default (afterForeignPut requester) :=
  .call _ (.call _ (.call _ (.call _ (.call _ .start))))

/-- Under its own name the endpoint is refused. -/
theorem requesters_pass_afterForeignPut :
    (afterForeignPut 5).adapter.surface.RequestersPass ∧
      (afterForeignPut 5).adapter.surface.history.pushes.map (·.2.event.status) =
        [.fatalFailure "shmem_access_denied"] :=
  ⟨(requesters_pass .sample .default).2 _ (afterForeignPut_reachable 5), by decide +kernel⟩

/-- Under the name of entity 0 it succeeds, although its own entity does not pass the rule. -/
theorem foreign_put_succeeds :
    Reachable .sample .default (afterForeignPut 0) ∧
      ((afterForeignPut 0).endpoints.lookup ⟨1⟩).map (·.session.entity) = some 5 ∧
      (afterForeignPut 0).adapter.surface.history.pushes.map
        (fun push => (push.2.event.status, push.2.owner.desc.access)) =
          [(.success, some (0, ⟨1⟩))] ∧
      (afterForeignPut 0).adapter.surface.shmemService.segments.lookup ⟨1⟩ = some ⟨0, 4096⟩ ∧
      ¬ShmemServiceStub.MayAccess 5 0 (afterForeignPut 0).adapter.surface.shmemService.profile.peerCount
    := by
  refine ⟨afterForeignPut_reachable 0, ?_, ?_, ?_, ?_⟩
  · decide +kernel
  · decide +kernel
  · decide +kernel
  · unfold ShmemServiceStub.MayAccess
    decide +kernel

end LinquDeviceModel

end LinquUb
