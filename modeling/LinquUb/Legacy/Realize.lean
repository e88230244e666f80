import LinquUb.Legacy.Backend
import LinquUb.Legacy.RustBridge

/-!
# The device over the bridge

`linqu_ub_realize` registers the endpoints of the device with the bridge.  From then on the guest
reaches the surface through the rings of the endpoints only.

* `realize` : the endpoints over the bridge, all of them registered;
* `Recorded` : what the bridge took from an endpoint and gave to it is what the endpoint has
  submitted and taken;
* `realize_carries` : **from the command ring to the surface, and back to the completion ring**.
-/

namespace LinquUb

open Action

/-! ### Calls that open no session -/

namespace LinquUbBridge

def SameSessions (bridge bridge' : LinquUbBridge) : Prop := bridge'.sessions = bridge.sessions

theorem sameSessions_refl (bridge : LinquUbBridge) : SameSessions bridge bridge := rfl

theorem sameSessions_trans (x y z : LinquUbBridge) (h : SameSessions x y) (h' : SameSessions y z) :
    SameSessions x z :=
  Eq.trans h' h

theorem onAdapter_sessions {α : Type} (f : SimError → String)
    (m : Action QemuBackendAdapter SimError α) : Within SameSessions (mapErr f (onAdapter m)) :=
  fun _ => rfl

theorem session_sessions (endpointId : UInt16) : Within SameSessions (session endpointId) := by
  intro bridge
  cases hentry : bridge.sessions.lookup endpointId with
  | none => rw [session_unknown hentry]; rfl
  | some entry => rw [session_exec hentry]; rfl

theorem submitSlot_sessions (endpointId : UInt16) (slot : List UInt8) :
    Within SameSessions (submitSlot endpointId slot) := by
  refine within_bind sameSessions_trans (session_sessions endpointId) fun session => ?_
  cases GuestDescriptor.decode slot with
  | error e => exact within_throw sameSessions_refl e
  | ok desc =>
    refine within_bind sameSessions_trans (within_pure sameSessions_refl desc) fun desc => ?_
    exact within_bind sameSessions_trans (onAdapter_sessions _ _)
      fun _ => within_pure sameSessions_refl _

theorem ringDoorbell_sessions (endpointId : UInt16) (maxBatch : UInt32) :
    Within SameSessions (ringDoorbell endpointId maxBatch) := by
  refine within_bind sameSessions_trans (session_sessions endpointId) fun session => ?_
  exact within_bind sameSessions_trans (onAdapter_sessions _ _)
    fun _ => within_pure sameSessions_refl _

theorem pollCompletion_sessions (endpointId : UInt16) (slotOut : List UInt8) :
    Within SameSessions (pollCompletion endpointId slotOut) := by
  refine within_bind sameSessions_trans (session_sessions endpointId) fun session => ?_
  refine within_bind sameSessions_trans (onAdapter_sessions _ _) ?_
  rintro ⟨_ | ⟨event, events⟩, rest⟩
  · exact within_pure sameSessions_refl _
  · show Within SameSessions (do return some (← ofExcept (encodeCompletion event slotOut.length)))
    cases encodeCompletion event slotOut.length with
    | error e => exact within_throw sameSessions_refl e
    | ok slot => exact within_pure sameSessions_refl _

end LinquUbBridge

/-! ### Registrations that succeed -/

namespace Uapi

theorem createCmdQueue_ok {s : LocalGuestUapiSurface} {cq : CqHandle} {st : CompletionQueueState}
    (hcq : s.cqEvents.lookup cq = some st) {depth : ℕ} (hdepth : depth ≠ 0) :
    exec (createCmdQueue cq st.owner depth) s =
      (.ok ⟨s.nextCmdqId + 1⟩, opened s cq st.owner depth) := by
  unfold createCmdQueue
  rw [if_neg hdepth, exec_bind_ok (exec_get s)]
  simp only [hcq, ne_eq, not_true_eq_false, if_false]
  rfl

theorem createSegment_ok {s : LocalGuestUapiSurface} {bytes : UInt64} (hbytes : bytes ≠ 0)
    (hfits : bytes ≤ s.shmemService.profile.maxSegmentBytes)
    (hroom : s.shmemService.segments.keys.card < s.shmemService.profile.maxSegments) :
    ∃ s', exec (createSegment bytes) s = (.ok ⟨s.nextSegmentId + 1⟩, s') ∧
      s'.shmemService = { s.shmemService with
        segments := Finmap.insert ⟨s.nextSegmentId + 1⟩ ⟨0, bytes⟩ s.shmemService.segments } := by
  have hregister : s.shmemService.registerSegment ⟨s.nextSegmentId + 1⟩ 0 bytes =
      .ok { s.shmemService with
        segments := Finmap.insert ⟨s.nextSegmentId + 1⟩ ⟨0, bytes⟩ s.shmemService.segments } := by
    rw [ShmemServiceStub.registerSegment, if_neg hbytes, if_neg (UInt64.not_lt.2 hfits),
      if_neg fun h => absurd hroom (not_lt.2 h.2)]
  rcases createSegment_spec bytes s with ⟨e, s', hexec, -⟩ | ⟨shmemService, hok, hexec⟩
  · unfold createSegment at hexec
    rw [if_neg hbytes, exec_bind_ok (exec_get s), exec_bind_ok (exec_set s _)] at hexec
    simp only [hregister] at hexec
    cases hexec
  · obtain rfl := Except.ok.inj (hregister.symm.trans hok)
    exact ⟨_, hexec, rfl⟩

end Uapi

namespace QemuBackendAdapter

theorem registerEndpoint_ok {adapter : QemuBackendAdapter}
    (hdepth : adapter.profile.endpoint.cmdqDepth.toNat ≠ 0) (entity : EntityId) :
    ∃ surface, exec (registerEndpoint entity) adapter =
        (.ok (adapter.nextSession entity), { adapter with surface }) ∧
      surface.shmemService = adapter.surface.shmemService := by
  let cq : CqHandle := ⟨adapter.surface.nextCqId + 1⟩
  let s₁ := (exec (Uapi.registerCqWithOwner entity) adapter.surface).2
  let adapter₁ := { adapter with surface := s₁ }
  have hcq : exec (registerCq entity) adapter = (.ok cq, adapter₁) := registerCq_exec entity adapter
  have hlookup : s₁.cqEvents.lookup cq = some { owner := entity, events := [] } :=
    Finmap.lookup_insert _
  have hcreate := createCmdQueue_exec cq entity adapter.profile.endpoint.cmdqDepth.toNat adapter₁
  rw [show adapter₁.surface = s₁ from rfl, Uapi.createCmdQueue_ok hlookup hdepth] at hcreate
  refine ⟨Uapi.opened s₁ cq entity adapter.profile.endpoint.cmdqDepth.toNat, ?_, rfl⟩
  rw [registerEndpoint, exec_bind_ok hcq, exec_bind_ok (exec_get adapter₁), exec_bind_ok hcreate]
  rfl

end QemuBackendAdapter


namespace LinquUbBridge

/-- A registration succeeds as long as there is room for segments. -/
theorem registerEndpoint_ok {bridge : LinquUbBridge}
    (hdepth : bridge.adapter.profile.endpoint.cmdqDepth.toNat ≠ 0)
    (hfits : 4096 ≤ bridge.adapter.surface.shmemService.profile.maxSegmentBytes)
    (hroom : bridge.adapter.surface.shmemService.segments.keys.card <
      bridge.adapter.surface.shmemService.profile.maxSegments)
    (endpointId : UInt16) (entityId : EntityId) :
    ∃ surface entry, exec (registerEndpoint endpointId entityId) bridge =
        (.ok (), { adapter := { bridge.adapter with surface }
                   sessions := Finmap.insert endpointId entry bridge.sessions }) ∧
      surface.shmemService.profile = bridge.adapter.surface.shmemService.profile ∧
      ∃ segment entry, surface.shmemService.segments =
        Finmap.insert segment entry bridge.adapter.surface.shmemService.segments := by
  obtain ⟨surface, hregister, hshmem⟩ :=
    QemuBackendAdapter.registerEndpoint_ok hdepth entityId
  rw [← hshmem] at hfits hroom ⊢
  obtain ⟨surface', hsegment, hshmem'⟩ := Uapi.createSegment_ok (by decide) hfits hroom
  have hcreate := QemuBackendAdapter.createSegment_exec 4096 { bridge.adapter with surface }
  rw [hsegment] at hcreate
  have hon : exec (mapErr (fun _ => "register endpoint failed")
      (onAdapter (QemuBackendAdapter.registerEndpoint entityId))) bridge =
        (.ok (bridge.adapter.nextSession entityId),
          { bridge with adapter := { bridge.adapter with surface } }) := by
    rw [exec_mapErr, onAdapter, exec_zoom, hregister]
    rfl
  have hon' : exec (mapErr (fun _ => "create default segment failed")
      (onAdapter (QemuBackendAdapter.createSegment 4096)))
        { bridge with adapter := { bridge.adapter with surface } } =
          (.ok ⟨surface.nextSegmentId + 1⟩,
            { bridge with adapter := { bridge.adapter with surface := surface' } }) := by
    rw [exec_mapErr, onAdapter, exec_zoom, hcreate]
    rfl
  refine ⟨surface', ⟨bridge.adapter.nextSession entityId, surface.nextSegmentId + 1⟩, ?_,
    congrArg (·.profile) hshmem', _, _, congrArg (·.segments) hshmem'⟩
  rw [registerEndpoint, exec_bind_ok hon, exec_bind_ok hon']
  rfl

end LinquUbBridge

namespace Legacy

namespace LinquUbRustBridge

variable {b b' b'' : LinquUbRustBridge} {endpointId : UInt16}

theorem run_append (b : LinquUbRustBridge) (calls calls' : List RustBridgeCall) :
    b.run (calls ++ calls') = (b.run calls).run calls' :=
  List.foldl_append ..

/-- Calls of one endpoint, none of which registers it. -/
structure CalledBy (endpointId : UInt16) (b b' : LinquUbRustBridge) : Prop where
  calls : ∃ calls, b' = b.run calls
  sessions : b'.bridge.sessions = b.bridge.sessions
  accepted : ∀ other ≠ endpointId, slotsOf b'.accepted other = slotsOf b.accepted other
  given : ∀ other ≠ endpointId, slotsOf b'.given other = slotsOf b.given other

theorem CalledBy.refl (endpointId : UInt16) (b : LinquUbRustBridge) : CalledBy endpointId b b :=
  ⟨⟨[], rfl⟩, rfl, fun _ _ => rfl, fun _ _ => rfl⟩

theorem CalledBy.trans (h : CalledBy endpointId b b') (h' : CalledBy endpointId b' b'') :
    CalledBy endpointId b b'' where
  calls := by
    obtain ⟨calls, rfl⟩ := h.calls
    obtain ⟨calls', rfl⟩ := h'.calls
    exact ⟨calls ++ calls', (b.run_append calls calls').symm⟩
  sessions := h'.sessions.trans h.sessions
  accepted := fun other hne => (h'.accepted other hne).trans (h.accepted other hne)
  given := fun other hne => (h'.given other hne).trans (h.given other hne)

/-- A slot is refused, or taken as the next one of the endpoint. -/
theorem submitSlot_calledBy (endpointId : UInt16) (slot : List UInt8) (b : LinquUbRustBridge) :
    CalledBy endpointId b (b.submitSlot endpointId slot).2 ∧
      (b.submitSlot endpointId slot).2.given = b.given ∧
      ((b.submitSlot endpointId slot).1 < 0 ∧
          (b.submitSlot endpointId slot).2.accepted = b.accepted ∨
        ¬(b.submitSlot endpointId slot).1 < 0 ∧
          (b.submitSlot endpointId slot).2.accepted = b.accepted ++ [(endpointId, slot)]) := by
  have hcall : (b.submitSlot endpointId slot).2 = b.run [.submitSlot endpointId slot] := rfl
  have hsessions := LinquUbBridge.submitSlot_sessions endpointId slot b.bridge
  unfold submitSlot at hcall ⊢
  rcases hexec : exec (LinquUbBridge.submitSlot endpointId slot) b.bridge with ⟨_ | _, bridge⟩ <;>
    rw [hexec] at hsessions hcall
  · exact ⟨⟨⟨_, hcall⟩, hsessions, fun _ _ => rfl, fun _ _ => rfl⟩, rfl, .inl ⟨neg_one_lt_zero, rfl⟩⟩
  · refine ⟨⟨⟨_, hcall⟩, hsessions, fun other hne => ?_, fun _ _ => rfl⟩, rfl,
      .inr ⟨lt_irrefl _, rfl⟩⟩
    exact (slotsOf_append b.accepted endpointId other slot).trans
      (by rw [if_neg hne, List.append_nil])

theorem ringDoorbell_calledBy (endpointId : UInt16) (maxBatch : ℕ) (b : LinquUbRustBridge) :
    CalledBy endpointId b (b.ringDoorbell endpointId maxBatch).2 ∧
      (b.ringDoorbell endpointId maxBatch).2.accepted = b.accepted ∧
      (b.ringDoorbell endpointId maxBatch).2.given = b.given := by
  have hcall : (b.ringDoorbell endpointId maxBatch).2 = b.run [.ringDoorbell endpointId maxBatch] :=
    rfl
  have hsessions := LinquUbBridge.ringDoorbell_sessions endpointId (.ofNat maxBatch) b.bridge
  unfold ringDoorbell at hcall ⊢
  rcases hexec : exec (LinquUbBridge.ringDoorbell endpointId (.ofNat maxBatch)) b.bridge with
    ⟨_ | _, bridge⟩ <;> rw [hexec] at hsessions hcall
  all_goals exact ⟨⟨⟨_, hcall⟩, hsessions, fun _ _ => rfl, fun _ _ => rfl⟩, rfl, rfl⟩

/-- A poll fills a slot for the endpoint if it answers `0`. -/
theorem pollCompletion_calledBy (endpointId : UInt16) (b : LinquUbRustBridge) :
    CalledBy endpointId b (b.pollCompletion endpointId).2 ∧
      (b.pollCompletion endpointId).2.accepted = b.accepted ∧
      (((b.pollCompletion endpointId).1.1 = 1 ∨ (b.pollCompletion endpointId).1.1 < 0) ∧
          (b.pollCompletion endpointId).2.given = b.given ∨
        (b.pollCompletion endpointId).1.1 = 0 ∧ (b.pollCompletion endpointId).2.given =
          b.given ++ [(endpointId, (b.pollCompletion endpointId).1.2)]) := by
  have hcall : (b.pollCompletion endpointId).2 = b.run [.pollCompletion endpointId] := rfl
  have hsessions :=
    LinquUbBridge.pollCompletion_sessions endpointId (List.replicate descBytes 0) b.bridge
  unfold pollCompletion at hcall ⊢
  rcases hexec : exec (LinquUbBridge.pollCompletion endpointId (List.replicate descBytes 0))
    b.bridge with ⟨_ | _ | slot, bridge⟩ <;> rw [hexec] at hsessions hcall
  · exact ⟨⟨⟨_, hcall⟩, hsessions, fun _ _ => rfl, fun _ _ => rfl⟩, rfl,
      .inl ⟨.inr neg_one_lt_zero, rfl⟩⟩
  · exact ⟨⟨⟨_, hcall⟩, hsessions, fun _ _ => rfl, fun _ _ => rfl⟩, rfl, .inl ⟨.inl rfl, rfl⟩⟩
  · refine ⟨⟨⟨_, hcall⟩, hsessions, fun _ _ => rfl, fun other hne => ?_⟩, rfl, .inr ⟨rfl, rfl⟩⟩
    exact (slotsOf_append b.given endpointId other slot).trans (by rw [if_neg hne, List.append_nil])

end LinquUbRustBridge

/-! ### One endpoint -/

def rustBackend : Backend LinquUbRustBridge where
  submitSlot := LinquUbRustBridge.submitSlot
  ringDoorbell := LinquUbRustBridge.ringDoorbell
  pollCompletion := LinquUbRustBridge.pollCompletion

theorem rustBackend_submitSlot : rustBackend.submitSlot = LinquUbRustBridge.submitSlot := rfl
theorem rustBackend_ringDoorbell : rustBackend.ringDoorbell = LinquUbRustBridge.ringDoorbell := rfl
theorem rustBackend_pollCompletion :
    rustBackend.pollCompletion = LinquUbRustBridge.pollCompletion := rfl

/-- A call that reads a command slot: its number, where the ring is, and the place in the ring. -/
structure SlotRead where
  call : ℕ
  iova : UInt64
  place : ℕ

/-- Guest memory gives out the slot. -/
def SlotRead.Gives (bus : DmaBus) (r : SlotRead) (slot : List UInt8) : Prop :=
  bus.read r.call (r.iova + r.place.toUInt64 * descBytes.toUInt64) descBytes = some slot

/-- The bridge has recorded for an endpoint what the endpoint has done: it took the slots that the
endpoint has read and submitted, and gave the completions of which some were written. -/
structure Recorded (bus : DmaBus) (reads : List SlotRead) (s : Endpoint) (b : LinquUbRustBridge) :
    Prop where
  places : reads.map (·.place) = s.submitted
  submitted : List.Forall₂ (SlotRead.Gives bus) reads (slotsOf b.accepted s.endpointId)
  calls : reads.Pairwise (·.call < ·.call)
  made : ∀ r ∈ reads, r.call < s.reads
  taken : slotsOf b.given s.endpointId = s.taken
  written : (s.written.map Prod.snd).Sublist s.taken

/-- What a function of the device does to an endpoint, whose command ring is at `iova`, and to the
bridge. -/
structure Serves (bus : DmaBus) (iova : UInt64) (s : Endpoint) (b : LinquUbRustBridge) (s' : Endpoint)
    (b' : LinquUbRustBridge) : Prop where
  endpointId : s'.endpointId = s.endpointId
  called : LinquUbRustBridge.CalledBy s.endpointId b b'
  reads : s.reads ≤ s'.reads
  recorded : ∀ reads, Recorded bus reads s b → ∃ new, Recorded bus (reads ++ new) s' b' ∧
    ∀ r ∈ new, r.iova = iova ∧ s.reads ≤ r.call

namespace Serves

variable {bus : DmaBus} {iova : UInt64} {s s' s'' : Endpoint} {b b' b'' : LinquUbRustBridge}

theorem trans (h : Serves bus iova s b s' b') (h' : Serves bus iova s' b' s'' b'') :
    Serves bus iova s b s'' b'' where
  endpointId := h'.endpointId.trans h.endpointId
  called := h.called.trans (h.endpointId ▸ h'.called)
  reads := h.reads.trans h'.reads
  recorded := fun reads hs => by
    obtain ⟨first, hfirst, hnew⟩ := h.recorded reads hs
    obtain ⟨rest, hrest, hnew'⟩ := h'.recorded _ hfirst
    refine ⟨first ++ rest, by rwa [← List.append_assoc], fun r hr => ?_⟩
    rcases List.mem_append.1 hr with hr | hr
    · exact hnew r hr
    · exact ⟨(hnew' r hr).1, h.reads.trans (hnew' r hr).2⟩

/-- Nothing is submitted, taken or written. -/
theorem quiet (hid : s'.endpointId = s.endpointId) (hreads : s.reads ≤ s'.reads)
    (hsubmitted : s'.submitted = s.submitted) (htaken : s'.taken = s.taken)
    (hwritten : s'.written = s.written) (hcalled : LinquUbRustBridge.CalledBy s.endpointId b b')
    (haccepted : b'.accepted = b.accepted) (hgiven : b'.given = b.given) :
    Serves bus iova s b s' b' where
  endpointId := hid
  called := hcalled
  reads := hreads
  recorded := fun reads hs => by
    refine ⟨[], ?_, nofun⟩
    rw [List.append_nil]
    refine ⟨?_, ?_, hs.calls, fun r hr => (hs.made r hr).trans_le hreads, ?_, ?_⟩
    · rw [hsubmitted]
      exact hs.places
    · rw [haccepted, hid]
      exact hs.submitted
    · rw [hgiven, hid, htaken]
      exact hs.taken
    · rw [hwritten, htaken]
      exact hs.written

/-- The endpoint alone changes. -/
theorem alone (hid : s'.endpointId = s.endpointId) (hreads : s.reads ≤ s'.reads)
    (hsubmitted : s'.submitted = s.submitted) (htaken : s'.taken = s.taken)
    (hwritten : s'.written = s.written) : Serves bus iova s b s' b :=
  quiet hid hreads hsubmitted htaken hwritten (.refl _ b) rfl rfl

/-- The bridge takes the slot that the endpoint has just read at `place`. -/
theorem submit {place : ℕ} {slot : List UInt8}
    (hread : SlotRead.Gives bus ⟨s.reads, iova, place⟩ slot)
    (hid : s'.endpointId = s.endpointId) (hreads : s'.reads = s.reads + 1)
    (hsubmitted : s'.submitted = s.submitted ++ [place])
    (htaken : s'.taken = s.taken) (hwritten : s'.written = s.written)
    (hcalled : LinquUbRustBridge.CalledBy s.endpointId b b')
    (haccepted : b'.accepted = b.accepted ++ [(s.endpointId, slot)])
    (hgiven : b'.given = b.given) : Serves bus iova s b s' b' where
  endpointId := hid
  called := hcalled
  reads := hreads ▸ Nat.le_succ _
  recorded := fun reads hs => by
    refine ⟨[⟨s.reads, iova, place⟩], ⟨?_, ?_, ?_, fun r hr => ?_, ?_, ?_⟩, fun r hr => ?_⟩
    · rw [List.map_append, hs.places, hsubmitted]
      rfl
    · rw [haccepted, hid, LinquUbRustBridge.slotsOf_append, if_pos rfl]
      exact List.rel_append hs.submitted (.cons hread .nil)
    · refine List.pairwise_append.2 ⟨hs.calls, List.pairwise_singleton _ _, fun r hr r' hr' => ?_⟩
      rw [List.mem_singleton.1 hr']
      exact hs.made r hr
    · rw [hreads]
      rcases List.mem_append.1 hr with hr | hr
      · exact Nat.lt_succ_of_lt (hs.made r hr)
      · rw [List.mem_singleton.1 hr]
        exact Nat.lt_succ_self _
    · rw [hgiven, hid, htaken]
      exact hs.taken
    · rw [hwritten, htaken]
      exact hs.written
    · rw [List.mem_singleton.1 hr]
      exact ⟨rfl, le_rfl⟩

/-- The bridge gives a completion, which is written or lost. -/
theorem take {slot : List UInt8} (new : List (ℕ × List UInt8))
    (hnew : (new.map Prod.snd).Sublist [slot]) (hid : s'.endpointId = s.endpointId)
    (hreads : s'.reads = s.reads) (hsubmitted : s'.submitted = s.submitted)
    (htaken : s'.taken = s.taken ++ [slot]) (hwritten : s'.written = s.written ++ new)
    (hcalled : LinquUbRustBridge.CalledBy s.endpointId b b')
    (haccepted : b'.accepted = b.accepted)
    (hgiven : b'.given = b.given ++ [(s.endpointId, slot)]) : Serves bus iova s b s' b' where
  endpointId := hid
  called := hcalled
  reads := hreads.ge
  recorded := fun reads hs => by
    refine ⟨[], ?_, nofun⟩
    rw [List.append_nil]
    refine ⟨?_, ?_, hs.calls, fun r hr => (hs.made r hr).trans_le hreads.ge, ?_, ?_⟩
    · rw [hsubmitted]
      exact hs.places
    · rw [haccepted, hid]
      exact hs.submitted
    · rw [hgiven, hid, htaken, LinquUbRustBridge.slotsOf_append, if_pos rfl, hs.taken]
    · rw [hwritten, htaken, List.map_append]
      exact hs.written.append hnew

theorem submitSlots (bus : DmaBus) (n : ℕ) (s : Endpoint) (b : LinquUbRustBridge) (ring : Ring)
    (submitted : ℕ) :
    Serves bus ring.iova s b (rustBackend.submitSlots bus n s b ring submitted).2.1
      (rustBackend.submitSlots bus n s b ring submitted).2.2 := by
  induction n generalizing s b ring submitted with
  | zero => exact alone rfl le_rfl rfl rfl rfl
  | succ n ih =>
    rw [Backend.submitSlots]
    by_cases hempty : ring.head = ring.tail
    · rw [if_pos hempty]
      exact alone rfl le_rfl rfl rfl rfl
    rw [if_neg hempty]
    cases hread : bus.read s.reads (ring.slotAddress ring.head) descBytes with
    | none => exact alone rfl (Nat.le_succ _) rfl rfl rfl
    | some slot =>
      obtain ⟨hcalled, hgiven, hcases⟩ :=
        LinquUbRustBridge.submitSlot_calledBy s.endpointId slot b
      rcases hcall : b.submitSlot s.endpointId slot with ⟨rc, b'⟩
      rw [hcall] at hcalled hgiven hcases
      simp only [rustBackend_submitSlot, hcall]
      rcases hcases with ⟨hrc, haccepted⟩ | ⟨hrc, haccepted⟩
      · rw [if_pos hrc]
        exact quiet rfl (Nat.le_succ _) rfl rfl rfl hcalled haccepted hgiven
      · rw [if_neg hrc]
        have hfirst : Serves bus ring.iova s b { s with
            reads := s.reads + 1
            submits := s.submits + 1
            submitted := s.submitted ++ [ring.head] } b' :=
          submit hread rfl rfl rfl rfl rfl hcalled haccepted hgiven
        exact hfirst.trans (ih _ b' (ring.moveHead 1) _)

theorem pollSlots (bus : DmaBus) (n : ℕ) (s : Endpoint) (b : LinquUbRustBridge) :
    Serves bus iova s b (rustBackend.pollSlots bus n s b).2.1 (rustBackend.pollSlots bus n s b).2.2 := by
  induction n generalizing s b with
  | zero => exact alone rfl le_rfl rfl rfl rfl
  | succ n ih =>
    rw [Backend.pollSlots]
    by_cases hfull : (s.cq.tail + 1) % s.cq.depth = s.cq.head
    · rw [if_pos hfull]
      exact alone rfl le_rfl rfl rfl rfl
    rw [if_neg hfull]
    obtain ⟨hcalled, haccepted, hcases⟩ := LinquUbRustBridge.pollCompletion_calledBy s.endpointId b
    rcases hcall : b.pollCompletion s.endpointId with ⟨⟨rc, slot⟩, b'⟩
    rw [hcall] at hcalled haccepted hcases
    simp only [rustBackend_pollCompletion, hcall]
    dsimp only at hcases
    rcases hcases with ⟨hrc, hgiven⟩ | ⟨rfl, hgiven⟩
    · by_cases hnone : rc = 1
      · rw [if_pos hnone]
        exact quiet rfl le_rfl rfl rfl rfl hcalled haccepted hgiven
      · rw [if_neg hnone, if_pos (hrc.resolve_left hnone)]
        exact quiet rfl le_rfl rfl rfl rfl hcalled haccepted hgiven
    · rw [if_neg (by decide), if_neg (by decide)]
      split_ifs with hwrite
      · have hfirst : Serves bus iova s b (s.deliver slot) b' :=
          take [(s.cq.tail, slot)] (.refl _) rfl rfl rfl rfl rfl hcalled haccepted hgiven
        exact hfirst.trans (ih _ b')
      · exact take [] (List.nil_sublist _) rfl rfl rfl rfl (List.append_nil _).symm hcalled haccepted
          hgiven

theorem flushCq (bus : DmaBus) (s : Endpoint) (b : LinquUbRustBridge) :
    Serves bus iova s b (rustBackend.flushCq bus s b).2.1 (rustBackend.flushCq bus s b).2.2 := by
  have hpoll : Serves bus iova s b _ _ := pollSlots bus s.cq.depth s b
  unfold Backend.flushCq
  rcases hcall : rustBackend.pollSlots bus s.cq.depth s b with ⟨rc | ⟨⟩, s', b'⟩ <;>
    rw [hcall] at hpoll
  · exact hpoll
  · dsimp only
    split_ifs
    · exact hpoll.trans (alone rfl le_rfl rfl rfl rfl)
    · exact hpoll

theorem kick (bus : DmaBus) (batch : ℕ) (s : Endpoint) (b : LinquUbRustBridge) :
    Serves bus s.cmdq.iova s b (rustBackend.kick bus batch s b).2.1
      (rustBackend.kick bus batch s b).2.2 := by
  have hsubmit := submitSlots bus batch s b s.cmdq 0
  unfold Backend.kick
  rcases hcall : rustBackend.submitSlots bus batch s b s.cmdq 0 with
    ⟨rc | ⟨ring, submitted⟩, s', b'⟩ <;> rw [hcall] at hsubmit
  · exact hsubmit
  refine hsubmit.trans ?_
  obtain ⟨hcalled, haccepted, hgiven⟩ :=
    LinquUbRustBridge.ringDoorbell_calledBy s'.endpointId submitted b'
  rcases hring : b'.ringDoorbell s'.endpointId submitted with ⟨rc, b''⟩
  rw [hring] at hcalled haccepted hgiven
  simp only [rustBackend_ringDoorbell, hring]
  split_ifs
  · exact quiet rfl le_rfl rfl rfl rfl hcalled haccepted hgiven
  · have hfirst : Serves bus s.cmdq.iova s' b' { s' with rings := s'.rings + 1, cmdq := ring } b'' :=
      quiet rfl le_rfl rfl rfl rfl hcalled haccepted hgiven
    exact hfirst.trans (flushCq bus _ b'')

/-- **A register write** uses the bridge for its own endpoint. -/
theorem epRegWrite (bus : DmaBus) (reg : Endpoint.Register) (value : UInt64) (s : Endpoint)
    (b : LinquUbRustBridge) :
    Serves bus s.cmdq.iova s b (rustBackend.epRegWrite bus reg value s b).1
      (rustBackend.epRegWrite bus reg value s b).2 := by
  by_cases hreg : reg = .doorbell
  · subst hreg
    exact kick bus (s.batchOf value) s b
  · have hquiet := Endpoint.epRegWrite_quiet bus ⟨none, none, none⟩ s hreg value
    have hsame : (s.epRegWrite bus ⟨none, none, none⟩ reg value).endpointId = s.endpointId ∧
        (s.epRegWrite bus ⟨none, none, none⟩ reg value).reads = s.reads := by
      cases reg <;> simp only [Endpoint.epRegWrite] <;> try split_ifs
      case doorbell => exact absurd rfl hreg
      all_goals constructor <;> trivial
    have halone : Serves bus s.cmdq.iova s b (s.epRegWrite bus ⟨none, none, none⟩ reg value) b :=
      alone hsame.1 hsame.2.ge hquiet.submitted hquiet.taken hquiet.written
    cases reg <;> first | exact absurd rfl hreg | exact halone

end Serves

/-! ### All endpoints -/

/-- `LINQU_UB_MAX_ENDPOINTS`. -/
def maxEndpoints : ℕ := 16

/-- `linqu_ub_register_backend_endpoint`: entity `i` is behind endpoint `i + 1`. -/
def registerBackendEndpoint (b : LinquUbRustBridge) (i : ℕ) : Option LinquUbRustBridge :=
  match b.registerEndpoint (i + 1).toUInt16 i.toUInt32 with
  | (rc, b) =>
    if rc < 0 then none
    else if (b.getDefaultSegment (i + 1).toUInt16).1 < 0 then none
    else some b

namespace LinquUbState

/-- `linqu_ub_realize` with a bridge for the machine. -/
def realize (machine : Machine) (numEndpoints : ℕ) : Option (LinquUbState LinquUbRustBridge) :=
  if numEndpoints = 0 ∨ maxEndpoints < numEndpoints then none
  else ((List.range numEndpoints).foldlM registerBackendEndpoint (.new machine)).map
    (new numEndpoints)

end LinquUbState

/-- What holds after `i` registrations. -/
structure Registering (machine : Machine) (i : ℕ) (b : LinquUbRustBridge) : Prop where
  calls : ∃ calls, b = (LinquUbRustBridge.new machine).run calls
  accepted : b.accepted = []
  given : b.given = []
  sessions : ∀ j < i, (b.sessionOf (j + 1).toUInt16).isSome
  profile : b.bridge.adapter.profile = .default
  fits : 4096 ≤ b.surface.shmemService.profile.maxSegmentBytes
  room : maxEndpoints ≤ b.surface.shmemService.profile.maxSegments
  segments : b.surface.shmemService.segments.keys.card ≤ i

theorem new_registering (machine : Machine) : Registering machine 0 (.new machine) where
  calls := ⟨[], rfl⟩
  accepted := rfl
  given := rfl
  sessions := nofun
  profile := rfl
  fits := show (4096 : UInt64) ≤ 1048576 by decide
  room := show maxEndpoints ≤ 64 by decide
  segments := le_rfl

theorem keys_insert_card_le {κ β : Type} [DecidableEq κ] (k : κ) (v : β) (m : Finmap fun _ : κ => β) :
    (Finmap.insert k v m).keys.card ≤ m.keys.card + 1 := by
  have hsub : (Finmap.insert k v m).keys ⊆ insert k m.keys := fun x hx => by
    simpa [Finmap.mem_keys, Finmap.mem_insert] using hx
  exact (Finset.card_le_card hsub).trans (Finset.card_insert_le _ _)

/-- **The next endpoint is registered**, and gets a session. -/
theorem Registering.next {machine : Machine} {i : ℕ} {b : LinquUbRustBridge}
    (h : Registering machine i b) (hi : i < maxEndpoints) :
    ∃ b', registerBackendEndpoint b i = some b' ∧ Registering machine (i + 1) b' := by
  have hdepth : b.bridge.adapter.profile.endpoint.cmdqDepth.toNat ≠ 0 := by
    rw [h.profile]
    decide
  have hroom : b.surface.shmemService.segments.keys.card <
      b.surface.shmemService.profile.maxSegments :=
    (h.segments.trans_lt hi).trans_le h.room
  obtain ⟨surface, entry, hexec, hprofile, segment, st, hsegments⟩ :=
    LinquUbBridge.registerEndpoint_ok hdepth h.fits hroom (i + 1).toUInt16 i.toUInt32
  let b' : LinquUbRustBridge :=
    { bridge := { adapter := { b.bridge.adapter with surface }
                  sessions := Finmap.insert (i + 1).toUInt16 entry b.bridge.sessions }
      accepted := b.accepted.filter (·.1 ≠ (i + 1).toUInt16)
      given := b.given.filter (·.1 ≠ (i + 1).toUInt16) }
  have hregister : b.registerEndpoint (i + 1).toUInt16 i.toUInt32 = (0, b') := by
    rw [LinquUbRustBridge.registerEndpoint, hexec]
  have hentry : b'.bridge.sessions.lookup (i + 1).toUInt16 = some entry := Finmap.lookup_insert _
  refine ⟨b', ?_, ?_⟩
  · rw [registerBackendEndpoint, hregister]
    simp [LinquUbRustBridge.getDefaultSegment, hentry]
  · obtain ⟨calls, hcalls⟩ := h.calls
    refine ⟨⟨calls ++ [.registerEndpoint (i + 1).toUInt16 i.toUInt32], ?_⟩, ?_, ?_, fun j hj => ?_,
      h.profile, ?_, ?_, ?_⟩
    · rw [LinquUbRustBridge.run_append, ← hcalls]
      exact (congrArg Prod.snd hregister).symm
    · show b.accepted.filter _ = []
      rw [h.accepted, List.filter_nil]
    · show b.given.filter _ = []
      rw [h.given, List.filter_nil]
    · by_cases hlast : (j + 1).toUInt16 = (i + 1).toUInt16
      · rw [hlast, LinquUbRustBridge.sessionOf, hentry]
        rfl
      · have hother : b'.sessionOf (j + 1).toUInt16 = b.sessionOf (j + 1).toUInt16 :=
          congrArg _ (Finmap.lookup_insert_of_ne _ hlast)
        rw [hother]
        refine h.sessions j (lt_of_le_of_ne (Nat.le_of_lt_succ hj) fun heq => hlast ?_)
        rw [heq]
    · exact hprofile.symm ▸ h.fits
    · exact hprofile.symm ▸ h.room
    · show surface.shmemService.segments.keys.card ≤ i + 1
      rw [hsegments]
      exact (keys_insert_card_le _ _ _).trans (Nat.succ_le_succ h.segments)

theorem Registering.all (machine : Machine) {n : ℕ} (hn : n ≤ maxEndpoints) :
    ∃ b, (List.range n).foldlM registerBackendEndpoint (.new machine) = some b ∧
      Registering machine n b := by
  induction n with
  | zero => exact ⟨_, rfl, new_registering machine⟩
  | succ n ih =>
    obtain ⟨b, hfold, hb⟩ := ih (Nat.le_of_succ_le hn)
    obtain ⟨b', hnext, hb'⟩ := hb.next hn
    refine ⟨b', ?_, hb'⟩
    rw [List.range_succ, List.foldlM_append, hfold]
    simpa using hnext

namespace LinquUbState

variable {machine : Machine} {bus : UInt16 → DmaBus} {made made' : UInt16 → SlotRead → Prop}
  {d : LinquUbState LinquUbRustBridge} {endpointId : UInt16} {s : Endpoint}

/-- **Every number of endpoints in range is realized.** -/
theorem realize_spec (machine : Machine) {numEndpoints : ℕ} (hpos : 0 < numEndpoints)
    (hmax : numEndpoints ≤ maxEndpoints) :
    ∃ b, realize machine numEndpoints = some (new numEndpoints b) ∧
      Registering machine numEndpoints b := by
  obtain ⟨b, hfold, hb⟩ := Registering.all machine hmax
  refine ⟨b, ?_, hb⟩
  rw [realize, if_neg (by omega), hfold]
  rfl

theorem new_getEndpoint_eq {β : Type} {numEndpoints : ℕ} {b : β}
    (h : (new numEndpoints b).getEndpoint endpointId = some s) :
    endpointId ≠ 0 ∧ endpointId.toNat ≤ numEndpoints ∧ s = .start endpointId := by
  obtain ⟨hpos, hindex⟩ := getEndpoint_eq_some.1 h
  obtain ⟨hlt, -⟩ := List.getElem?_eq_some_iff.1 hindex
  simp only [new, List.length_map, List.length_range] at hlt
  have hnat : endpointId.toNat ≠ 0 := fun hzero => hpos (UInt16.toNat_inj.1 hzero)
  have hle : endpointId.toNat ≤ numEndpoints := by omega
  exact ⟨hpos, hle, Option.some.inj (h.symm.trans (new_getEndpoint numEndpoints b hpos hle))⟩

/-- The endpoints and the bridge agree, and the slots were read by calls of the kind `made`. -/
structure Linked (machine : Machine) (bus : UInt16 → DmaBus) (made : UInt16 → SlotRead → Prop)
    (d : LinquUbState LinquUbRustBridge) : Prop where
  calls : ∃ calls, d.backend = (LinquUbRustBridge.new machine).run calls
  identified : ∀ endpointId s, d.getEndpoint endpointId = some s → s.endpointId = endpointId
  sessions : ∀ endpointId s, d.getEndpoint endpointId = some s →
    (d.backend.sessionOf endpointId).isSome
  recorded : ∀ endpointId s, d.getEndpoint endpointId = some s →
    ∃ reads, Recorded (bus endpointId) reads s d.backend ∧ ∀ r ∈ reads, made endpointId r

theorem Linked.mono (h : Linked machine bus made d) (hmade : ∀ endpointId r, made endpointId r →
    made' endpointId r) : Linked machine bus made' d :=
  ⟨h.calls, h.identified, h.sessions, fun endpointId s hs => by
    obtain ⟨reads, hrecorded, hall⟩ := h.recorded endpointId s hs
    exact ⟨reads, hrecorded, fun r hr => hmade _ _ (hall r hr)⟩⟩

theorem linked_of_registering {numEndpoints : ℕ} {b : LinquUbRustBridge}
    (h : Registering machine numEndpoints b) (bus : UInt16 → DmaBus) :
    Linked machine bus made (new numEndpoints b) where
  calls := h.calls
  identified := fun endpointId s hs => by rw [(new_getEndpoint_eq hs).2.2]; rfl
  sessions := fun endpointId s hs => by
    obtain ⟨hpos, hle, -⟩ := new_getEndpoint_eq hs
    have hnat : endpointId.toNat ≠ 0 := fun hzero => hpos (UInt16.toNat_inj.1 hzero)
    have hsome := h.sessions (endpointId.toNat - 1) (by omega)
    rwa [Nat.sub_add_cancel (by omega), show endpointId.toNat.toUInt16 = endpointId by simp]
      at hsome
  recorded := fun endpointId s hs => by
    obtain ⟨-, -, rfl⟩ := new_getEndpoint_eq hs
    refine ⟨[], ⟨rfl, ?_, .nil, nofun, ?_, .refl _⟩, nofun⟩
    · show List.Forall₂ _ [] (slotsOf b.accepted endpointId)
      rw [h.accepted]
      exact .nil
    · show slotsOf b.given endpointId = []
      rw [h.given]
      rfl

theorem Linked.reset (h : Linked machine bus made d) :
    Linked machine bus made (d.act rustBackend bus .reset) := by
  have hget : ∀ endpointId s, (d.act rustBackend bus .reset).getEndpoint endpointId = some s →
      ∃ t, d.getEndpoint endpointId = some t ∧ s = t.reset := by
    intro endpointId s hs
    obtain ⟨hpos, hindex⟩ := getEndpoint_eq_some.1 hs
    simp only [act, List.getElem?_map, Option.map_eq_some_iff] at hindex
    obtain ⟨t, ht, rfl⟩ := hindex
    exact ⟨t, getEndpoint_eq_some.2 ⟨hpos, ht⟩, rfl⟩
  refine ⟨h.calls, fun endpointId s hs => ?_, fun endpointId s hs => ?_, fun endpointId s hs => ?_⟩
  all_goals obtain ⟨t, ht, rfl⟩ := hget endpointId s hs
  · exact h.identified endpointId t ht
  · exact h.sessions endpointId t ht
  · obtain ⟨reads, hrecorded, hall⟩ := h.recorded endpointId t ht
    exact ⟨reads, ⟨hrecorded.places, hrecorded.submitted, hrecorded.calls, hrecorded.made,
      hrecorded.taken, hrecorded.written⟩, hall⟩

/-- **A register write** of one endpoint leaves what the bridge has recorded for the others. -/
theorem Linked.write (h : Linked machine bus made d) {endpointId : UInt16} {reg : Endpoint.Register}
    {value : UInt64} (hmade : ∀ s s', d.getEndpoint endpointId = some s →
      (d.act rustBackend bus (.write endpointId reg value)).getEndpoint endpointId = some s' →
        ∀ r : SlotRead, r.iova = s.cmdq.iova → s.reads ≤ r.call → r.call < s'.reads →
          made endpointId r) :
    Linked machine bus made (d.act rustBackend bus (.write endpointId reg value)) := by
  cases hs : d.getEndpoint endpointId with
  | none =>
    simp only [act, hs]
    exact h
  | some s =>
    obtain rfl := h.identified endpointId s hs
    rcases hwrite : rustBackend.epRegWrite (bus s.endpointId) reg value s d.backend with ⟨s', b'⟩
    have hserves : Serves (bus s.endpointId) s.cmdq.iova s d.backend s' b' := by
      have h := Serves.epRegWrite (bus s.endpointId) reg value s d.backend
      rwa [hwrite] at h
    simp only [act, hs, hwrite] at hmade ⊢
    have hmade := hmade s s' rfl (getEndpoint_set hs s' b')
    -- the written endpoint, or another one with what it was before
    have hget : ∀ other t, ({ endpoints := d.endpoints.set (s.endpointId.toNat - 1) s'
                              backend := b' } : LinquUbState _).getEndpoint other = some t →
        other = s.endpointId ∧ t = s' ∨ other ≠ s.endpointId ∧ d.getEndpoint other = some t := by
      intro other t ht
      by_cases hother : other = s.endpointId
      · subst hother
        exact .inl ⟨rfl, Option.some.inj (ht.symm.trans (getEndpoint_set hs s' b'))⟩
      · rw [getEndpoint_set_other (Ne.symm hother) (getEndpoint_eq_some.1 hs).1] at ht
        exact .inr ⟨hother, ht⟩
    refine ⟨?_, fun other t ht => ?_, fun other t ht => ?_, fun other t ht => ?_⟩
    · obtain ⟨calls, hcalls⟩ := h.calls
      obtain ⟨calls', hcalls'⟩ := hserves.called.calls
      exact ⟨calls ++ calls', by rw [LinquUbRustBridge.run_append, ← hcalls]; exact hcalls'⟩
    · rcases hget other t ht with ⟨rfl, rfl⟩ | ⟨-, ht⟩
      · exact hserves.endpointId
      · exact h.identified other t ht
    · have hsession : ∀ t, d.getEndpoint other = some t → (b'.sessionOf other).isSome := fun t ht => by
        rw [LinquUbRustBridge.sessionOf, hserves.called.sessions]
        exact h.sessions other t ht
      rcases hget other t ht with ⟨rfl, rfl⟩ | ⟨-, ht⟩
      · exact hsession s hs
      · exact hsession t ht
    · rcases hget other t ht with ⟨rfl, rfl⟩ | ⟨hother, ht⟩
      · obtain ⟨reads, hrecorded, hall⟩ := h.recorded _ s hs
        obtain ⟨new, hrecorded', hnew⟩ := hserves.recorded reads hrecorded
        refine ⟨reads ++ new, hrecorded', fun r hr => ?_⟩
        rcases List.mem_append.1 hr with hold | hnewr
        · exact hall r hold
        · exact hmade r (hnew r hnewr).1 (hnew r hnewr).2 (hrecorded'.made r hr)
      · obtain ⟨reads, hrecorded, hall⟩ := h.recorded other t ht
        have hid := h.identified other t ht
        refine ⟨reads, ⟨hrecorded.places, ?_, hrecorded.calls, hrecorded.made, ?_,
          hrecorded.written⟩, hall⟩
        · rw [hserves.called.accepted _ (hid ▸ hother)]
          exact hrecorded.submitted
        · rw [hserves.called.given _ (hid ▸ hother)]
          exact hrecorded.taken

/-- A register write of the run made the call for the endpoint, when its command ring was where the
call has read. -/
def MadeIn (bus : UInt16 → DmaBus) (d : LinquUbState LinquUbRustBridge) (actions : List DeviceAction)
    (endpointId : UInt16) (r : SlotRead) : Prop :=
  ∃ before reg value after s s', actions = before ++ .write endpointId reg value :: after ∧
    (d.run rustBackend bus before).getEndpoint endpointId = some s ∧
    (d.run rustBackend bus (before ++ [.write endpointId reg value])).getEndpoint endpointId = some s' ∧
    r.iova = s.cmdq.iova ∧ s.reads ≤ r.call ∧ r.call < s'.reads

theorem MadeIn.snoc {actions : List DeviceAction} {r : SlotRead} (action : DeviceAction)
    (h : MadeIn bus d actions endpointId r) : MadeIn bus d (actions ++ [action]) endpointId r := by
  obtain ⟨before, reg, value, after, s, s', rfl, hs⟩ := h
  exact ⟨before, reg, value, after ++ [action], s, s', by simp, hs⟩

theorem Linked.run (h : ∀ made, Linked machine bus made d) (actions : List DeviceAction) :
    Linked machine bus (MadeIn bus d actions) (d.run rustBackend bus actions) := by
  induction actions using List.reverseRecOn with
  | nil => exact h _
  | append_singleton actions action ih =>
    have hrun : d.run rustBackend bus (actions ++ [action]) =
        (d.run rustBackend bus actions).act rustBackend bus action := by
      rw [LinquUbState.run, List.foldl_append]
      rfl
    have ih : Linked machine bus (MadeIn bus d (actions ++ [action]))
        (d.run rustBackend bus actions) := ih.mono fun _ _ => .snoc action
    rw [hrun]
    cases action with
    | write endpointId reg value =>
      refine ih.write fun s s' hs hs' r hiova hle hlt => ?_
      exact ⟨actions, reg, value, [], s, s', rfl, hs, hrun ▸ hs', hiova, hle, hlt⟩
    | reset => exact ih.reset

end LinquUbState

/-! ### From ring to ring -/

/-- A submission is a slot that guest memory has given out. -/
def CameFrom (bus : DmaBus) (r : SlotRead) (sub : Submission) : Prop :=
  ∃ slot, r.Gives bus slot ∧ LinquUbRustBridge.Means slot sub

/-- What an endpoint has done, seen from the surface. -/
structure Carries (bus : DmaBus) (made : SlotRead → Prop) (s : Endpoint)
    (surface : LocalGuestUapiSurface) (session : GuestEndpointSession) : Prop where
  /-- The command queue has accepted what was submitted, in this order, and each slot was read by a
  call of its own. -/
  commands : ∃ reads, reads.map SlotRead.place = s.submitted ∧
    reads.Pairwise (·.call < ·.call) ∧ (∀ r ∈ reads, made r) ∧
    List.Forall₂ (CameFrom bus) reads (LinquUbRustBridge.acceptedBy surface session.cmdq)
  /-- What was written says what the completion queue has handed out, in this order, and for
  submissions of this endpoint, each for another one. -/
  completions : ∃ entries, List.Forall₂ LinquUbRustBridge.Says (s.written.map Prod.snd) entries ∧
    entries.Sublist (surface.returnsOf session.cq) ∧
    (entries.map (·.owner)).Nodup ∧
    (∀ entry ∈ entries, entry.owner ∈ LinquUbRustBridge.acceptedBy surface session.cmdq) ∧
    (s.taken = s.written.map Prod.snd →
      (∀ entry ∈ surface.returnsOf session.cq, entry.event.Fits descBytes) →
        entries = surface.returnsOf session.cq)

theorem forall₂_cameFrom {bus : DmaBus} {reads : List SlotRead} {slots : List (List UInt8)}
    {subs : List Submission} (hread : List.Forall₂ (SlotRead.Gives bus) reads slots)
    (hmeans : List.Forall₂ LinquUbRustBridge.Means slots subs) :
    List.Forall₂ (CameFrom bus) reads subs := by
  induction hread generalizing subs with
  | nil =>
    cases hmeans
    exact .nil
  | cons hslot _ ih =>
    cases hmeans with
    | cons hsub hmeans => exact .cons ⟨_, hslot, hsub⟩ (ih hmeans)

theorem forall₂_of_sublist {α β : Type} {R : α → β → Prop} {xs ys : List α} {zs : List β}
    (hsub : xs.Sublist ys) (h : List.Forall₂ R ys zs) :
    ∃ ws, List.Forall₂ R xs ws ∧ ws.Sublist zs := by
  induction hsub generalizing zs with
  | slnil => exact ⟨[], .nil, List.nil_sublist _⟩
  | cons y _ ih =>
    cases h with
    | cons _ h =>
      obtain ⟨ws, hws, hkept⟩ := ih h
      exact ⟨ws, hws, hkept.cons _⟩
  | cons_cons y _ ih =>
    cases h with
    | cons hy h =>
      obtain ⟨ws, hws, hkept⟩ := ih h
      exact ⟨_ :: ws, .cons hy hws, hkept.cons_cons _⟩

namespace LinquUbState

variable {machine : Machine} {bus : UInt16 → DmaBus} {made made' : UInt16 → SlotRead → Prop}
  {d : LinquUbState LinquUbRustBridge} {endpointId : UInt16} {s : Endpoint}

theorem Linked.carries (h : Linked machine bus made d) (hs : d.getEndpoint endpointId = some s) :
    ∃ session, d.backend.sessionOf endpointId = some session ∧
      Carries (bus endpointId) (made endpointId) s d.backend.surface session := by
  obtain ⟨session, hsession⟩ := Option.isSome_iff_exists.1 (h.sessions endpointId s hs)
  obtain ⟨calls, hcalls⟩ := h.calls
  have hjoined : d.backend.Joined :=
    hcalls ▸ LinquUbRustBridge.run_joined (LinquUbRustBridge.new_joined machine) calls
  have hruns : (QemuBackendAdapter.new machine).Runs d.backend.bridge.adapter :=
    hcalls ▸ LinquUbRustBridge.run_runs (.new machine) calls
  obtain ⟨reads, ⟨hplaces, hsubmitted, hreads, -, htaken, hwritten⟩, hmade⟩ :=
    h.recorded endpointId s hs
  obtain rfl := h.identified endpointId s hs
  have hcame := forall₂_cameFrom hsubmitted (hjoined.commands _ _ hsession)
  refine ⟨session, hsession, ⟨reads, hplaces, hreads, hmade, hcame⟩, ?_⟩
  obtain ⟨all, hsaid, hsublist, hfits⟩ := hjoined.completions _ _ hsession
  rw [htaken] at hsaid
  -- the completions that guest memory took
  obtain ⟨entries, hsaid', hkept⟩ := forall₂_of_sublist hwritten hsaid
  obtain ⟨hnodup, howned⟩ := hjoined.owners hruns hsession (hkept.trans hsublist)
  refine ⟨entries, hsaid', hkept.trans hsublist, hnodup, howned, fun hwrites hall => ?_⟩
  rw [← hfits hall]
  refine hkept.eq_of_length ?_
  rw [← hsaid'.length_eq, ← hwrites, hsaid.length_eq]

/-- **From ring to ring.**  A device with up to 16 endpoints is always realized.  Whatever the guest
then writes to the registers, in any order and with resets in between, and whatever its memory does:
the command queue behind an endpoint has accepted exactly the slots that were submitted out of the
command ring of this endpoint, each read by a call of its own that a write of the run made; and the
slots that were written to its completion ring say what the completion queue has handed out, in this
order and for submissions of this endpoint only, each for another one.  Nothing is missing if guest
memory took all writes and all of it fits into slots. -/
theorem realize_carries (machine : Machine) {numEndpoints : ℕ} (hpos : 0 < numEndpoints)
    (hmax : numEndpoints ≤ maxEndpoints) :
    ∃ d₀, realize machine numEndpoints = some d₀ ∧
      ∀ (bus : UInt16 → DmaBus) (actions : List DeviceAction),
        let d := d₀.run rustBackend bus actions
        d.endpoints.length = numEndpoints ∧
        (∀ endpointId s, d.getEndpoint endpointId = some s →
          ∃ session, d.backend.sessionOf endpointId = some session ∧
            Carries (bus endpointId) (MadeIn bus d₀ actions endpointId) s d.backend.surface session) ∧
        ∀ endpointId endpointId' session session', d.backend.sessionOf endpointId = some session →
          d.backend.sessionOf endpointId' = some session' → endpointId ≠ endpointId' →
            session.cmdq ≠ session'.cmdq ∧ session.cq ≠ session'.cq := by
  obtain ⟨b, hrealize, hb⟩ := realize_spec machine hpos hmax
  refine ⟨_, hrealize, fun bus actions => ?_⟩
  intro d
  have hlinked : Linked machine bus (MadeIn bus _ actions) d :=
    .run (fun _ => linked_of_registering hb bus) actions
  refine ⟨?_, fun endpointId s hs => hlinked.carries hs, ?_⟩
  · exact (run_length rustBackend bus actions).trans (by simp [new])
  · intro endpointId endpointId' session session' hsession hsession' hne
    obtain ⟨calls, hcalls⟩ := hlinked.calls
    have hjoined : d.backend.Joined :=
      hcalls ▸ LinquUbRustBridge.run_joined (LinquUbRustBridge.new_joined machine) calls
    exact ⟨hjoined.queues.cmdq_ne hsession hsession' hne,
      fun heq => hne (hjoined.queues.distinct _ _ _ _ hsession hsession' heq)⟩

theorem realize_carries_two :
    ∃ d₀, realize .sample 2 = some d₀ ∧
      let bus : DmaBus := { read := fun _ _ len => some (List.replicate len 0)
                            write := fun _ _ _ => true }
      let actions : List DeviceAction := [.write 1 .cmdqTail 1, .write 1 .doorbell 0, .reset]
      let d := d₀.run rustBackend (fun _ => bus) actions
      ∀ endpointId s, d.getEndpoint endpointId = some s →
        ∃ session, d.backend.sessionOf endpointId = some session ∧
          Carries bus (MadeIn (fun _ => bus) d₀ actions endpointId) s d.backend.surface session := by
  obtain ⟨d₀, hrealize, hall⟩ := realize_carries .sample (show 0 < 2 by decide) (by decide)
  exact ⟨d₀, hrealize, (hall _ _).2.1⟩

end LinquUbState

end Legacy

end LinquUb
