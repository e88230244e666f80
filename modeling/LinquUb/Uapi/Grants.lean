import LinquUb.Uapi.Isolation

/-!
# Access to shared memory

A put or get of shared memory succeeds only if the requester that its descriptor names passes the
rule of the service.  The requester is what the guest wrote into the descriptor; nothing compares it
with the owner of the command queue.

* `Grants` : every success that is queued or was pushed is granted to the requester it names;
* `run_grants` : it holds after every run.
-/

namespace LinquUb

open Action

/-- The requester and the segment that a descriptor of shared memory names. -/
def UapiDescriptor.access : UapiDescriptor → Option (EntityId × SegmentHandle)
  | .shmemPut req => some (req.requesterEntity, req.segment)
  | .shmemGet req => some (req.requesterEntity, req.segment)
  | _ => none

namespace LocalGuestUapiSurface

/-- If the completion is a success of shared memory, its requester passes the access rule. -/
def Granted (s : LocalGuestUapiSurface) (entry : Owned Submission) : Prop :=
  entry.event.status = .success → ∀ requester segment,
    entry.owner.desc.access = some (requester, segment) →
    ∃ seg, s.shmemService.segments.lookup segment = some seg ∧
      ShmemServiceStub.MayAccess requester seg.ownerEntity s.shmemService.profile.peerCount

structure Grants (s : LocalGuestUapiSurface) : Prop where
  /-- The surface registers every segment for entity `0`. -/
  owners : ∀ segment seg, s.shmemService.segments.lookup segment = some seg → seg.ownerEntity = 0
  queued : ∀ source, ∀ item ∈ (s.services source).completions, s.Granted item.owned
  pushes : ∀ cq entry, (cq, entry) ∈ s.history.pushes → s.Granted entry

variable {s s' : LocalGuestUapiSurface} {entry : Owned Submission}

theorem granted_of_access (h : entry.owner.desc.access = none) : s.Granted entry := by
  intro _ requester segment haccess
  rw [h] at haccess
  cases haccess

theorem granted_of_status (h : entry.event.status ≠ .success) : s.Granted entry :=
  fun hsuccess => absurd hsuccess h

/-- The segments and the rule are the same. -/
def SameAccess (s s' : LocalGuestUapiSurface) : Prop :=
  s'.shmemService.segments = s.shmemService.segments ∧
    s'.shmemService.profile = s.shmemService.profile

theorem Granted.same (hsame : SameAccess s s') (hentry : s.Granted entry) : s'.Granted entry := by
  intro hsuccess requester segment haccess
  rw [hsame.1, hsame.2]
  exact hentry hsuccess requester segment haccess

/-- What was granted stays granted, under the same rule. -/
def Keeps (s s' : LocalGuestUapiSurface) : Prop := Grants s → SameAccess s s' ∧ Grants s'

namespace Keeps

theorem refl (s : LocalGuestUapiSurface) : Keeps s s := fun h => ⟨⟨rfl, rfl⟩, h⟩

theorem trans (s t u : LocalGuestUapiSurface) (h : Keeps s t) (h' : Keeps t u) : Keeps s u := by
  intro hs
  obtain ⟨hsame, ht⟩ := h hs
  obtain ⟨hsame', hu⟩ := h' ht
  exact ⟨⟨hsame'.1.trans hsame.1, hsame'.2.trans hsame.2⟩, hu⟩

/-- Completions may be taken from the services, and granted ones may be added or pushed. -/
theorem of_changes (hsame : SameAccess s s')
    (hqueued : ∀ source, ∀ item ∈ (s'.services source).completions,
      item ∈ (s.services source).completions ∨ s.Granted item.owned)
    (hpushes : ∀ cq entry, (cq, entry) ∈ s'.history.pushes →
      (cq, entry) ∈ s.history.pushes ∨ s.Granted entry) : Keeps s s' := by
  refine fun h => ⟨hsame, ?_, fun source item hitem => ?_, fun cq entry hmem => ?_⟩
  · rw [hsame.1]
    exact h.owners
  · rcases hqueued source item hitem with hold | hnew
    · exact (h.queued source item hold).same hsame
    · exact hnew.same hsame
  · rcases hpushes cq entry hmem with hold | hnew
    · exact (h.pushes cq entry hold).same hsame
    · exact hnew.same hsame

/-- A change of other parts of the surface. -/
theorem of_same (hshmem : s'.shmemService = s.shmemService) (hservices : s'.services = s.services)
    (hpushes : s'.history.pushes = s.history.pushes) : Keeps s s' := by
  refine of_changes ⟨by rw [hshmem], by rw [hshmem]⟩ (fun source item hitem => .inl ?_)
    fun cq entry hmem => .inl (hpushes ▸ hmem)
  rwa [hservices] at hitem

end Keeps

end LocalGuestUapiSurface

namespace Uapi

open LocalGuestUapiSurface (Keeps Grants Granted SameAccess granted_of_access granted_of_status)

variable {s : LocalGuestUapiSurface}

/-! ### Routing -/

theorem pushed_keeps {entry : Owned Submission} (hentry : s.Granted entry) (cq : CqHandle)
    (st : CompletionQueueState) : Keeps s (pushed s cq st entry) := by
  refine Keeps.of_changes ⟨rfl, rfl⟩ (fun source item hitem => .inl hitem) fun cq' entry' hmem => ?_
  rcases List.mem_append.1 hmem with hmem | hmem
  · exact .inl hmem
  · obtain ⟨_, rfl⟩ := Prod.mk.inj (List.mem_singleton.1 hmem)
    exact .inr hentry

theorem enqueueToCq_keeps {entry : Owned Submission} (hentry : s.Granted entry) (cq : CqHandle) :
    Keeps s (exec (enqueueToCq cq entry) s).2 := by
  rcases enqueueToCq_spec s cq entry with ⟨st, _, hexec⟩ | ⟨_, hexec⟩ <;> rw [hexec]
  · exact pushed_keeps hentry cq st
  · exact .refl s

theorem routeCompletionToCq_keeps {entry : Owned Submission} (hentry : s.Granted entry) :
    Keeps s (exec (routeCompletionToCq entry) s).2 := by
  have hunrouted : Keeps s (unrouted s entry) := .of_same rfl rfl rfl
  rcases routeCompletionToCq_spec s entry with ⟨cq, st, _, _, hexec⟩ | ⟨_, hexec⟩ <;> rw [hexec]
  · exact hunrouted.trans _ _ _ (pushed_keeps (s := unrouted s entry) (hentry.same ⟨rfl, rfl⟩) cq st)
  · exact hunrouted

theorem routeAll_keeps {events : List (Owned Submission)}
    (hevents : ∀ entry ∈ events, s.Granted entry) : Keeps s (exec (routeAll events) s).2 := by
  induction events generalizing s with
  | nil => exact .refl s
  | cons entry rest ih =>
    have hroute := routeCompletionToCq_keeps (hevents entry List.mem_cons_self)
    rcases hexec : exec (routeCompletionToCq entry) s with ⟨e | a, s₁⟩ <;> rw [hexec] at hroute
    · rw [routeAll, exec_bind_error hexec]
      exact hroute
    · rw [routeAll, exec_bind_ok hexec]
      intro hs
      obtain ⟨hsame, _⟩ := hroute hs
      refine hroute.trans _ _ _ (ih fun entry' hmem => ?_) hs
      exact (hevents entry' (List.mem_cons_of_mem _ hmem)).same hsame

/-! ### The stubs -/

/-- Replacing the stub of a service by one that keeps the access rule and queues nothing that is
not granted. -/
theorem set_keeps {stub : Type} {field : ServiceField stub} {port : stub → ServiceQueue.Port}
    (hfield : Models field port) {st : stub} (hport : port st = port (field.get s))
    (hsame : SameAccess s (field.set s st)) (hhistory : (field.set s st).history = s.history)
    (hqueue : ∀ item ∈ (field.queue st).completions,
      item ∈ (field.queue (field.get s)).completions ∨ s.Granted item.owned) :
    Keeps s (field.set s st) := by
  have hservices : (field.set s st).services =
      Function.update s.services field.source (field.queue st) :=
    congrArg Flow.services (hfield.during_set s st { waiting := [] } hport)
  refine Keeps.of_changes hsame (fun source item hitem => ?_) fun cq entry hmem =>
    .inl (hhistory ▸ hmem)
  rw [hservices] at hitem
  by_cases hsource : source = field.source
  · subst hsource
    rw [Function.update_self] at hitem
    rw [hfield.services_eq]
    exact hqueue item hitem
  · rw [Function.update_of_ne hsource] at hitem
    exact .inl hitem

theorem pollService_keeps {stub : Type} {field : ServiceField stub} {port : stub → ServiceQueue.Port}
    (hfield : Models field port) (now : UInt64) (poll : stub → List (Owned Submission) × stub)
    (hpoll : ∀ st, (poll st).1 = ((field.queue st).pollReady now).1 ∧
      field.queue (poll st).2 = ((field.queue st).pollReady now).2 ∧ port (poll st).2 = port st)
    (hsame : ∀ s, SameAccess s (field.set s (poll (field.get s)).2))
    (hhistory : ∀ s st, (field.set s st).history = s.history) :
    Within Keeps (pollService field poll >>= routeAll) := by
  intro s hs
  obtain ⟨hevents, hqueue, hport⟩ := hpoll (field.get s)
  obtain ⟨taken, hsplit, hready⟩ := drainReady_spec now (field.queue (field.get s)).completions
  have hset : Keeps s (field.set s (poll (field.get s)).2) := by
    refine set_keeps hfield hport (hsame s) (hhistory s _) fun item hitem => .inl ?_
    rw [hqueue] at hitem
    rw [hsplit]
    exact List.mem_append_right _ hitem
  -- what the service hands out was queued
  have hgranted : ∀ entry ∈ (poll (field.get s)).1, s.Granted entry := by
    intro entry hentry
    rw [hevents, show ((field.queue (field.get s)).pollReady now).1 = _ from hready] at hentry
    obtain ⟨item, hitem, rfl⟩ := List.mem_map.1 hentry
    refine hs.queued field.source item ?_
    rw [hfield.services_eq, hsplit]
    exact List.mem_append_left _ hitem
  have hrun : exec (pollService field poll >>= routeAll) s =
      exec (routeAll (poll (field.get s)).1) (field.set s (poll (field.get s)).2) := rfl
  rw [hrun]
  exact hset.trans _ _ _ (routeAll_keeps fun entry hentry => (hgranted entry hentry).same (hsame s)) hs

theorem flushServices_keeps (now : UInt64) : Within Keeps (flushServices now) := by
  have h := within_bind Keeps.trans (pollService_keeps models_block
      now (·.pollReady now) (fun _ => ⟨rfl, rfl, rfl⟩) (fun _ => ⟨rfl, rfl⟩) fun _ _ => rfl) fun _ =>
    within_bind Keeps.trans (pollService_keeps models_shmem
      now (·.pollReady now) (fun _ => ⟨rfl, rfl, rfl⟩) (fun _ => ⟨rfl, rfl⟩) fun _ _ => rfl) fun _ =>
    within_bind Keeps.trans (pollService_keeps models_dfs
      now (·.pollReady now) (fun _ => ⟨rfl, rfl, rfl⟩) (fun _ => ⟨rfl, rfl⟩) fun _ _ => rfl) fun _ =>
    pollService_keeps models_db
      now (·.pollReady now) (fun _ => ⟨rfl, rfl, rfl⟩) (fun _ => ⟨rfl, rfl⟩) fun _ _ => rfl
  simpa only [flushServices, bind_assoc] using h

theorem submitToService_keeps {stub : Type} {field : ServiceField stub}
    {port : stub → ServiceQueue.Port} (hfield : Models field port) (sub : Submission) {cq : CqHandle}
    {submit : UInt64 → stub → Except SimError (ServiceOpHandle × stub)}
    (hsubmit : ∀ (s : LocalGuestUapiSurface) now handle st,
      submit now (field.get s) = .ok (handle, st) →
        port st = port (field.get s) ∧ SameAccess s (field.set s st) ∧ ∃ status item,
          ServiceQueue.Accepts (port (field.get s)) sub status handle (field.queue (field.get s))
            (field.queue st) item ∧ s.Granted item.owned)
    (hhistory : ∀ s st, (field.set s st).history = s.history) :
    Within Keeps (submitToService field cq submit) := by
  intro s
  let s₁ := ticked s
  have hclock : Keeps s s₁ := .of_same rfl rfl rfl
  rw [submitToService_exec]
  cases hcall : submit s₁.serviceClock (field.get s₁) with
  | error e => exact hclock
  | ok result =>
    obtain ⟨handle, st⟩ := result
    obtain ⟨hport, hsame, status, item, haccepts, hgranted⟩ := hsubmit s₁ _ _ _ hcall
    have hset : Keeps s₁ (field.set s₁ st) := by
      refine set_keeps hfield hport hsame (hhistory s₁ st) fun queued hqueued => ?_
      rw [haccepts.queue_eq] at hqueued
      rcases List.mem_append.1 hqueued with hqueued | hqueued
      · exact .inl hqueued
      · exact .inr (List.mem_singleton.1 hqueued ▸ hgranted)
    have hbound : Keeps (field.set s₁ st)
        (bound (field.set s₁ st) (field.queue st) ⟨field.source, handle.id⟩ cq) :=
      .of_same rfl rfl rfl
    exact hclock.trans _ _ _ (hset.trans _ _ _ hbound)

/-- A put or get of shared memory succeeds for requesters that pass the rule. -/
theorem submitAccess_granted {s : LocalGuestUapiSurface} {sub : Submission} {task : Option TaskKey}
    {requester : EntityId} {segment : SegmentHandle} {bytes now : UInt64} {handle : ServiceOpHandle}
    {st : ShmemServiceStub Submission} (hdesc : sub.desc.access = some (requester, segment))
    (h : s.shmemService.submitAccess task requester segment bytes sub now = .ok (handle, st)) :
    st.profile.port = s.shmemService.profile.port ∧ SameAccess s (shmemField.set s st) ∧
      ∃ status item, ServiceQueue.Accepts s.shmemService.profile.port sub status handle
        s.shmemService.toServiceQueue st.toServiceQueue item ∧ s.Granted item.owned := by
  obtain ⟨hprofile, hsegments, item, haccepts⟩ := ShmemServiceStub.submitAccess_ok h
  refine ⟨congrArg _ hprofile, ⟨hsegments, hprofile⟩, _, item, haccepts, ?_⟩
  intro hsuccess requester' segment' haccess
  have howner : item.owned.owner = sub := haccepts.owner_eq
  rw [howner, hdesc] at haccess
  cases haccess
  obtain ⟨seg, hseg, _, hmay⟩ :=
    ShmemServiceStub.checkAccess_success.1 (haccepts.status_eq.symm.trans hsuccess)
  exact ⟨seg, hseg, hmay⟩

/-- A service other than shared memory accepts a submission. -/
theorem accepts_granted {s : LocalGuestUapiSurface} {sub : Submission} {port : ServiceQueue.Port}
    {handle : ServiceOpHandle} {q q' : ServiceQueue Submission} (hdesc : sub.desc.access = none)
    (h : ∃ status item, ServiceQueue.Accepts port sub status handle q q' item) :
    ∃ status item, ServiceQueue.Accepts port sub status handle q q' item ∧ s.Granted item.owned := by
  obtain ⟨status, item, haccepts⟩ := h
  have howner : item.owned.owner = sub := haccepts.owner_eq
  exact ⟨status, item, haccepts, granted_of_access (howner ▸ hdesc)⟩

theorem enqueueOwn_keeps {sub : Submission} {event : CompletionEvent} {cq : CqHandle} {opId : OpId}
    (hdesc : sub.desc.access = none) : Within Keeps (do
      enqueueToCq cq ⟨event, sub⟩
      return opId) := by
  refine within_bind Keeps.trans (fun s => enqueueToCq_keeps (granted_of_access hdesc) cq) fun _ => ?_
  exact within_pure Keeps.refl opId

theorem nextServiceTime_keeps : Within Keeps nextServiceTime := fun _ => .of_same rfl rfl rfl

theorem submitIoToCq_keeps {req : IoSubmitReq} {sub : Submission} (cq : CqHandle)
    (hdesc : sub.desc.access = none) : Within Keeps (submitIoToCq req sub cq) := by
  unfold submitIoToCq
  cases req.opcode with
  | readBlock =>
    cases req.block with
    | none => exact within_throw Keeps.refl _
    | some block =>
      refine submitToService_keeps models_block sub (fun s now handle st h => ?_) fun _ _ => rfl
      obtain ⟨hprofile, haccepts⟩ := BlockServiceStub.submitRead_ok h
      exact ⟨congrArg _ hprofile, ⟨rfl, rfl⟩, accepts_granted hdesc haccepts⟩
  | writeBlock =>
    cases req.block with
    | none => exact within_throw Keeps.refl _
    | some block =>
      refine submitToService_keeps models_block sub (fun s now handle st h => ?_) fun _ _ => rfl
      obtain ⟨hprofile, haccepts⟩ := BlockServiceStub.submitWrite_ok h
      exact ⟨congrArg _ hprofile, ⟨rfl, rfl⟩, accepts_granted hdesc haccepts⟩
  | dispatch => exact enqueueOwn_keeps hdesc
  | remoteFetch =>
    exact within_bind Keeps.trans nextServiceTime_keeps fun _ => enqueueOwn_keeps hdesc
  | remoteStore =>
    exact within_bind Keeps.trans nextServiceTime_keeps fun _ => enqueueOwn_keeps hdesc

theorem submitDescriptorToCq_keeps (sub : Submission) (cq : CqHandle) :
    Within Keeps (submitDescriptorToCq sub cq) := by
  unfold submitDescriptorToCq
  cases hdesc : sub.desc with
  | io req => exact submitIoToCq_keeps cq (congrArg _ hdesc)
  | blockWriteback block task =>
    refine submitToService_keeps models_block sub (fun s now handle st h => ?_) fun _ _ => rfl
    obtain ⟨hprofile, haccepts⟩ := BlockServiceStub.submitWriteback_ok h
    exact ⟨congrArg _ hprofile, ⟨rfl, rfl⟩,
      accepts_granted (congrArg _ hdesc) haccepts⟩
  | shmemPut req =>
    refine submitToService_keeps models_shmem sub (fun s now handle st h => ?_) fun _ _ => rfl
    exact submitAccess_granted (congrArg _ hdesc) h
  | shmemGet req =>
    refine submitToService_keeps models_shmem sub (fun s now handle st h => ?_) fun _ _ => rfl
    exact submitAccess_granted (congrArg _ hdesc) h
  | dfsRead req =>
    refine submitToService_keeps models_dfs sub (fun s now handle st h => ?_) fun _ _ => rfl
    obtain ⟨hprofile, haccepts⟩ := DfsServiceStub.submitRead_ok h
    exact ⟨congrArg _ hprofile, ⟨rfl, rfl⟩,
      accepts_granted (congrArg _ hdesc) haccepts⟩
  | dfsWrite req =>
    refine submitToService_keeps models_dfs sub (fun s now handle st h => ?_) fun _ _ => rfl
    obtain ⟨hprofile, haccepts⟩ := DfsServiceStub.submitWrite_ok h
    exact ⟨congrArg _ hprofile, ⟨rfl, rfl⟩,
      accepts_granted (congrArg _ hdesc) haccepts⟩
  | dbPut req =>
    refine submitToService_keeps models_db sub (fun s now handle st h => ?_) fun _ _ => rfl
    obtain ⟨hprofile, _, status, item, haccepts, _⟩ := DbServiceStub.submitPut_ok h
    exact ⟨congrArg _ hprofile, ⟨rfl, rfl⟩,
      accepts_granted (congrArg _ hdesc) ⟨status, item, haccepts⟩⟩
  | dbGet req =>
    refine submitToService_keeps models_db sub (fun s now handle st h => ?_) fun _ _ => rfl
    obtain ⟨hprofile, _, status, item, haccepts, _⟩ := DbServiceStub.submitGet_ok h
    exact ⟨congrArg _ hprofile, ⟨rfl, rfl⟩,
      accepts_granted (congrArg _ hdesc) ⟨status, item, haccepts⟩⟩

/-! ### The runtime queue -/

theorem flush_keeps : FlushAlong Keeps where
  refl := Keeps.refl
  trans := Keeps.trans
  submit := submitDescriptorToCq_keeps
  services := flushServices_keeps u64Max
  report failure s := by
    have hticked : Keeps s (ticked s) := .of_same rfl rfl rfl
    have hgranted : (ticked s).Granted ⟨exhausted u64Max s failure, failure.sub⟩ :=
      granted_of_status fun h => (by cases h)
    exact hticked.trans _ _ _ (enqueueToCq_keeps hgranted failure.cq)
  refusing _ _ := .of_same rfl rfl rfl
  queue _ _ := .of_same rfl rfl rfl

theorem pollCqWithOwner_keeps (cq : CqHandle) (owner : EntityId) (maxEntries : Option ℕ) :
    Within Keeps (pollCqWithOwner cq owner maxEntries) := by
  refine within_bind Keeps.trans flush_keeps.flushRuntime fun _ =>
    within_bind Keeps.trans (flushServices_keeps u64Max) fun _ s => ?_
  rw [exec_bind, exec_get]
  simp only []
  cases s.cqEvents.lookup cq with
  | none => exact .refl s
  | some queue =>
    by_cases howner : queue.owner = owner
    · simp only [howner, ne_eq, not_true_eq_false, if_false]
      exact .of_same rfl rfl rfl
    · simp only [ne_eq, howner, not_false_eq_true, if_true]
      exact .refl s

/-! ### Commands -/

theorem createCmdQueue_keeps (cq : CqHandle) (owner : EntityId) (depth : ℕ) :
    Within Keeps (createCmdQueue cq owner depth) := by
  intro s
  rcases createCmdQueue_spec cq owner depth s with ⟨e, hexec⟩ | ⟨_, _, _, hexec⟩ <;> rw [hexec]
  · exact .refl s
  · exact .of_same rfl rfl rfl

theorem enqueueCmd_keeps (cmdq : CmdQueueHandle) (owner : EntityId) (desc : UapiDescriptor) :
    Within Keeps (enqueueCmd cmdq owner desc) := by
  intro s
  rcases enqueueCmd_cases cmdq owner desc s with ⟨e, hexec⟩ | ⟨_, _, _, _, hexec⟩ <;> rw [hexec]
  · exact .refl s
  · exact .of_same rfl rfl rfl

theorem ringDoorbell_keeps (cmdq : CmdQueueHandle) (owner : EntityId) (maxBatch : Option ℕ) :
    Within Keeps (ringDoorbell cmdq owner maxBatch) := by
  have hstage (cq : CqHandle) (staged : List Submission) : Within Keeps (stageAll cq staged) := by
    induction staged with
    | nil => exact within_pure Keeps.refl ()
    | cons sub rest ih =>
      refine within_bind Keeps.trans (fun s => ?_) fun _ => ih
      rcases stageRuntimeDescriptor_spec cq sub s with ⟨_, hexec⟩ | ⟨_, hexec⟩ <;>
        rw [hexec] <;> exact .of_same rfl rfl rfl
  intro s
  rcases doorbell_cases s cmdq owner with ⟨queue, hq, rfl⟩ | hforeign
  · have hpopped (n : ℕ) : Keeps s (popped s cmdq queue n) := .of_same rfl rfl rfl
    rw [ringDoorbell_exec maxBatch hq, exec_map_snd]
    exact (hpopped _).trans _ _ _ (hstage queue.cq _ _)
  · obtain ⟨e, hexec⟩ := ringDoorbell_foreign maxBatch hforeign
    rw [hexec]
    exact .refl s

theorem submitDirect_keeps (desc : UapiDescriptor) : Within Keeps (submitDirect desc) := by
  refine within_bind Keeps.trans (fun s => ?_) fun cq =>
    within_bind Keeps.trans (fun s => .of_same rfl rfl rfl) fun sub =>
      submitDescriptorToCq_keeps sub cq
  rcases defaultCq_spec s with ⟨_, _, _, hexec⟩ | ⟨_, hexec⟩ <;> rw [hexec] <;> exact .refl s

theorem getHealth_keeps (entity : EntityId) : Within Keeps (getHealth entity) := by
  intro s
  rw [getHealth_state]
  exact .refl s

/-- The access rule after a registration may let more in, and never less: all segments have the same
owner. -/
theorem registered_grants (hs : Grants s) (segment : SegmentHandle) (bytes : UInt64) :
    Grants { s with
      shmemService := { s.shmemService with
        segments := Finmap.insert segment ⟨0, bytes⟩ s.shmemService.segments } } := by
  let s₁ := { s with
    shmemService := { s.shmemService with
      segments := Finmap.insert segment ⟨0, bytes⟩ s.shmemService.segments } }
  show Grants s₁
  have hgranted : ∀ entry, s.Granted entry → s₁.Granted entry := by
    intro entry hentry hsuccess requester segment' haccess
    obtain ⟨seg, hseg, hmay⟩ := hentry hsuccess requester segment' haccess
    have howner := hs.owners segment' seg hseg
    by_cases hsegment : segment' = segment
    · exact ⟨⟨0, bytes⟩, by rw [hsegment, Finmap.lookup_insert], howner ▸ hmay⟩
    · exact ⟨seg, by rw [Finmap.lookup_insert_of_ne _ hsegment, hseg], hmay⟩
  have hservices : s₁.services = s.services := by
    funext source
    cases source <;> rfl
  refine ⟨fun segment' seg hseg => ?_, fun source item hitem => hgranted _ ?_,
    fun cq entry hmem => hgranted _ (hs.pushes cq entry hmem)⟩
  · rcases Flow.lookup_insert_cases hseg with ⟨_, rfl⟩ | ⟨_, hseg⟩
    · rfl
    · exact hs.owners segment' seg hseg
  · rw [hservices] at hitem
    exact hs.queued source item hitem

theorem createSegment_grants (bytes : UInt64) (hs : Grants s) :
    Grants (exec (createSegment bytes) s).2 := by
  have hcount : Keeps s { s with nextSegmentId := s.nextSegmentId + 1 } := .of_same rfl rfl rfl
  rcases createSegment_spec bytes s with ⟨e, s', hexec, rfl | rfl⟩ | ⟨stub, hcall, hexec⟩ <;>
    rw [hexec]
  · exact hs
  · exact (hcount hs).2
  · obtain rfl := ShmemServiceStub.registerSegment_ok hcall
    exact registered_grants (hcount hs).2 _ bytes

theorem execute_grants (cmd : UapiCommand) (hs : Grants s) :
    Grants (exec (execute cmd) s).2 := by
  have hmap {α β : Type} {m : Uapi α} {f : α → β} (hm : Within Keeps m) :
      Grants (exec (do return f (← m)) s).2 :=
    (within_bind Keeps.trans hm (fun a => within_pure Keeps.refl (f a)) s hs).2
  cases cmd with
  | queryTopology => exact hs
  | createSegment bytes =>
    have hcreate := createSegment_grants bytes hs
    unfold execute
    rcases hexec : exec (createSegment bytes) s with ⟨_ | segment, s'⟩ <;> rw [hexec] at hcreate
    · rw [exec_bind_error hexec]
      exact hcreate
    · rw [exec_bind_ok hexec]
      exact hcreate
  | registerCq owner => exact hmap fun s => .of_same rfl rfl rfl
  | createCmdQueue cq owner depth => exact hmap (createCmdQueue_keeps cq owner depth)
  | enqueueCmd cmdq owner desc => exact hmap (enqueueCmd_keeps cmdq owner desc)
  | ringDoorbell cmdq owner maxBatch => exact hmap (ringDoorbell_keeps cmdq owner maxBatch)
  | submitIo req => exact hmap (submitDirect_keeps _)
  | submitBlockWriteback block task => exact hmap (submitDirect_keeps _)
  | submitShmemPut req => exact hmap (submitDirect_keeps _)
  | submitShmemGet req => exact hmap (submitDirect_keeps _)
  | submitDfsRead req => exact hmap (submitDirect_keeps _)
  | submitDfsWrite req => exact hmap (submitDirect_keeps _)
  | submitDbPut req => exact hmap (submitDirect_keeps _)
  | submitDbGet req => exact hmap (submitDirect_keeps _)
  | pollCq cq owner maxEntries => exact hmap (pollCqWithOwner_keeps cq owner maxEntries)
  | drainCq cq owner => exact hmap (pollCqWithOwner_keeps cq owner none)
  | getHealth entity => exact hmap (getHealth_keeps entity)

end Uapi

namespace LocalGuestUapiSurface

variable {s : LocalGuestUapiSurface}

theorem initial_grants (config : Config) : Grants (withProfilesAndRuntimePolicy config) :=
  ⟨fun _ _ h => (by cases h), fun source _ h => (by cases source <;> cases h),
    fun _ _ h => (by cases h)⟩

/-- **Successes are granted, in every state.** -/
theorem run_grants (hs : Grants s) (cmds : List UapiCommand) : Grants (s.run cmds) := by
  induction cmds generalizing s with
  | nil => exact hs
  | cons cmd cmds ih => exact ih (Uapi.execute_grants cmd hs)

end LocalGuestUapiSurface

end LinquUb
