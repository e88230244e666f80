import LinquUb.Uapi.ForceFlush

/-!
# Room in the services

A submission takes at most one place in the queue of its own service, a service refuses only while
its queue is full, and a refusal during a forced flush drains all services.

* `UapiDescriptor.service` : the service that a descriptor is submitted to;
* `RuntimeExhausted` : the completions that report a full service;
* `submitDescriptorToCq_uses` : what submitting does to the queues;
* `Driven` : a drive, with what its callback decides about every record;
* `Driven.turnedAway_eq` : **how many records for a service a drive turns away**.
-/

namespace LinquUb

open Action

/-- The service that an I/O request is submitted to; a block request without a block is not. -/
def IoSubmitReq.service (req : IoSubmitReq) : Option CompletionSource :=
  match req.opcode, req.block with
  | .readBlock, some _ | .writeBlock, some _ => some .blockService
  | _, _ => none

/-- The service that a descriptor is submitted to. -/
def UapiDescriptor.service : UapiDescriptor → Option CompletionSource
  | .io req => req.service
  | .blockWriteback _ _ => some .blockService
  | .shmemPut _ | .shmemGet _ => some .shmemService
  | .dfsRead _ | .dfsWrite _ => some .dfsService
  | .dbPut _ | .dbGet _ => some .dbService

namespace LocalGuestUapiSurface

/-- The free places in the queue of a service. -/
def room (s : LocalGuestUapiSurface) (source : CompletionSource) : ℕ :=
  (s.depths source).toNat - (s.services source).completions.length

/-- The services stay as they are. -/
structure SameServices (s s' : LocalGuestUapiSurface) : Prop where
  services : s'.services = s.services
  depths : s'.depths = s.depths

theorem SameServices.refl (s : LocalGuestUapiSurface) : SameServices s s := ⟨rfl, rfl⟩

theorem SameServices.trans (s t u : LocalGuestUapiSurface) (h : SameServices s t)
    (h' : SameServices t u) : SameServices s u :=
  ⟨h'.services.trans h.services, h'.depths.trans h.depths⟩

theorem SameServices.room {s s' : LocalGuestUapiSurface} (h : SameServices s s')
    (source : CompletionSource) : s'.room source = s.room source := by
  rw [LocalGuestUapiSurface.room, h.services, h.depths, LocalGuestUapiSurface.room]

end LocalGuestUapiSurface

namespace Uapi

open Flow (Step Steps)
open LocalGuestUapiSurface (SameServices)
open ServiceQueue (Port Accepts)

variable {s s' : LocalGuestUapiSurface}

/-! ### Completions that report exhaustion -/

/-- The completion says that the surface has given a submission up because its service was full. -/
def RuntimeExhausted (event : CompletionEvent) : Prop :=
  event.source = .guestUapi ∧ ∃ code, isQueueFull code = true ∧
    event.status = .retryableFailure ("runtime_exhausted_" ++ code)

/-- The completions that a service holds name it as their source. -/
def Sourced (s : LocalGuestUapiSurface) : Prop :=
  ∀ source, ∀ item ∈ (s.services source).completions, item.event.source = source

/-- The surface reports nothing as exhausted. -/
def Quiet (s s' : LocalGuestUapiSurface) : Prop :=
  Sourced s → Sourced s' ∧ ∃ added, s'.history.pushes = s.history.pushes ++ added ∧
    ∀ push ∈ added, ¬RuntimeExhausted push.2.event

theorem Quiet.of_same (hservices : s'.services = s.services)
    (hpushes : s'.history.pushes = s.history.pushes) : Quiet s s' := by
  intro h
  refine ⟨?_, [], hpushes.trans (List.append_nil _).symm, fun _ hpush => (by cases hpush)⟩
  rw [Sourced, hservices]
  exact h

theorem Quiet.refl (s : LocalGuestUapiSurface) : Quiet s s := .of_same rfl rfl

theorem Quiet.trans (s t u : LocalGuestUapiSurface) (h : Quiet s t) (h' : Quiet t u) :
    Quiet s u := by
  intro hs
  obtain ⟨ht, added, hadded, hquiet⟩ := h hs
  obtain ⟨hu, added', hadded', hquiet'⟩ := h' ht
  refine ⟨hu, added ++ added', ?_, List.forall_mem_append.2 ⟨hquiet, hquiet'⟩⟩
  rw [hadded', hadded, List.append_assoc]

/-- A completion queue is extended by an event that reports no exhaustion. -/
theorem pushed_quiet (s : LocalGuestUapiSurface) (cq : CqHandle) (st : CompletionQueueState)
    {entry : Owned Submission} (hevent : ¬RuntimeExhausted entry.event) :
    Quiet s (pushed s cq st entry) := by
  refine fun hs => ⟨hs, [(cq, entry)], rfl, fun push hpush => ?_⟩
  rw [List.mem_singleton.1 hpush]
  exact hevent

/-! ### Submitting -/

/-- What a method that submits to the target does to the queues: if it succeeds, it takes one place
in the queue of the target, and it fails only if there is none. -/
structure Uses (target : Option CompletionSource) (m : Uapi OpId) (s : LocalGuestUapiSurface) :
    Prop where
  depths : (exec m s).2.depths = s.depths
  others : ∀ source, target ≠ some source → (exec m s).2.services source = s.services source
  ok : ∀ opId source, (exec m s).1 = .ok opId → target = some source →
    (exec m s).2.room source + 1 = s.room source
  error : ∀ e, (exec m s).1 = .error e → (exec m s).2.services = s.services
  full : ∀ e source, (exec m s).1 = .error e → target = some source →
    s.room source = 0 ∧ ∃ code, e = .invalidInput code ∧ isQueueFull code = true
  other : ∀ code, (exec m s).1 = .error (.invalidInput code) → target = none →
    isQueueFull code = false
  quiet : Quiet s (exec m s).2

/-- The method does not come near the services. -/
theorem Uses.of_same {m : Uapi OpId} (hsame : SameServices s (exec m s).2)
    (hother : ∀ code, (exec m s).1 = .error (.invalidInput code) → isQueueFull code = false)
    (hquiet : Quiet s (exec m s).2) : Uses none m s where
  depths := hsame.depths
  others := fun source _ => by rw [hsame.services]
  ok := fun _ _ _ h => (by cases h)
  error := fun _ _ => hsame.services
  full := fun _ _ _ h => (by cases h)
  other := fun code hcode _ => hother code hcode
  quiet := hquiet

/-- The submit function is `submitThen` on the queue of its stub. -/
def Submits {stub : Type} (field : ServiceField stub) (port : stub → Port)
    (submit : UInt64 → stub → Except SimError (ServiceOpHandle × stub)) : Prop :=
  ∀ now st, ∃ task owner outcome update,
    submit now st = (field.queue st).submitThen (port st) task owner outcome update ∧
      ∀ q, field.queue (update q) = q ∧ port (update q) = port st

theorem submitToService_uses {stub : Type} {field : ServiceField stub} {port : stub → Port}
    (hfield : Models field port) (hmessage : ∀ st, isQueueFull (port st).fullMessage = true)
    {cq : CqHandle} {submit : UInt64 → stub → Except SimError (ServiceOpHandle × stub)}
    (hsubmit : Submits field port submit) (s : LocalGuestUapiSurface) :
    Uses (some field.source) (submitToService field cq submit) s := by
  have hexec := submitToService_exec field cq submit s
  obtain ⟨task, owner, outcome, update, hthen, hupdate⟩ :=
    hsubmit (ticked s).serviceClock (field.get (ticked s))
  have hqueue : field.queue (field.get (ticked s)) = s.services field.source :=
    (hfield.services_eq (ticked s)).symm
  have hport : (port (field.get (ticked s))).queueDepth = s.depths field.source :=
    (hfield.depths_eq (ticked s)).symm
  rcases hcall : submit (ticked s).serviceClock (field.get (ticked s)) with e | ⟨handle, st⟩
  · rw [hcall] at hexec
    rw [hthen, hqueue] at hcall
    obtain ⟨hfull, rfl⟩ := ServiceQueue.submitThen_error hcall
    rw [hport] at hfull
    dsimp only at hexec
    refine ⟨?_, fun source _ => ?_, fun opId source h _ => ?_, fun _ _ => ?_,
      fun e source h hsource => ?_, fun _ _ h => (by cases h), ?_⟩ <;> rw [hexec] at *
    · rfl
    · rfl
    · cases h
    · rfl
    · cases h
      cases hsource
      exact ⟨Nat.sub_eq_zero_of_le hfull, _, rfl, hmessage _⟩
    · exact .of_same rfl rfl
  · rw [hcall] at hexec
    rw [hthen, hqueue] at hcall
    obtain ⟨q, item, rfl, haccepts⟩ := ServiceQueue.submitThen_ok hcall
    have hset := hfield.during_set (ticked s) (update q) { waiting := [] } (hupdate q).2
    rw [(hupdate q).1] at hset
    dsimp only at hexec
    have hservices : (exec (submitToService field cq submit) s).2.services =
        Function.update s.services field.source q := by
      rw [hexec]
      exact congrArg Flow.services hset
    have hdepths : (exec (submitToService field cq submit) s).2.depths = s.depths := by
      rw [hexec]
      exact congrArg Flow.depths hset
    have hpushes : (exec (submitToService field cq submit) s).2.history.pushes =
        s.history.pushes := by
      rw [hexec]
      exact congrArg (·.history.pushes) hset
    refine ⟨hdepths, fun source hne => ?_, fun opId source _ hsource => ?_, fun e h => ?_,
      fun e source h _ => ?_, fun _ _ h => (by cases h),
      fun hsourced => ⟨fun source => ?_, [], hpushes.trans (List.append_nil _).symm,
        fun _ h => (by cases h)⟩⟩
    · rw [hservices, Function.update_of_ne fun h => hne (congrArg some h.symm)]
    · cases hsource
      have hroom := haccepts.room
      rw [hport] at hroom
      rw [LocalGuestUapiSurface.room, LocalGuestUapiSurface.room, hservices, hdepths,
        Function.update_self, haccepts.queue_eq, List.length_append, List.length_singleton]
      omega
    · rw [hexec] at h
      cases h
    · rw [hexec] at h
      cases h
    · rw [hservices]
      by_cases hsource : source = field.source
      · subst hsource
        rw [Function.update_self, haccepts.queue_eq]
        refine List.forall_mem_append.2 ⟨hsourced field.source, fun item' hitem => ?_⟩
        rw [List.mem_singleton.1 hitem]
        exact (congrArg (·.source) haccepts.key_eq).trans (hfield.source_eq _)
      · rw [Function.update_of_ne hsource]
        exact hsourced source

theorem enqueueToCq_uses (cq : CqHandle) {entry : Owned Submission}
    (hevent : ¬RuntimeExhausted entry.event) (opId : OpId) (s : LocalGuestUapiSurface) :
    Uses none (do
      enqueueToCq cq entry
      return opId) s := by
  rcases enqueueToCq_spec s cq entry with ⟨st, _, hexec⟩ | ⟨_, hexec⟩
  · refine .of_same ?_ (fun code h => ?_) ?_ <;> rw [exec_bind_ok hexec] at *
    · exact ⟨rfl, rfl⟩
    · cases h
    · exact pushed_quiet s cq st hevent
  · refine .of_same ?_ (fun code h => ?_) ?_ <;> rw [exec_bind_error hexec] at *
    · exact .refl s
    · cases h
    · exact .refl s

theorem nextServiceTime_uses {f : UInt64 → Uapi OpId}
    (hf : Uses none (f (ticked s).serviceClock) (ticked s)) :
    Uses none (nextServiceTime >>= f) s := by
  have hexec : exec (nextServiceTime >>= f) s = exec (f (ticked s).serviceClock) (ticked s) :=
    exec_bind_ok (nextServiceTime_exec s)
  refine .of_same ?_ (fun code h => hf.other code (hexec ▸ h) rfl) ?_ <;> rw [hexec]
  · exact ⟨funext fun source => hf.others source (by simp), hf.depths⟩
  · exact hf.quiet

theorem throw_uses (s : LocalGuestUapiSurface) :
    Uses none (throw (.invalidInput "missing block hash")) s := by
  refine .of_same (.refl s) (fun code h => ?_) (.refl s)
  cases h
  decide

theorem submitIoToCq_uses (req : IoSubmitReq) (sub : Submission) (cq : CqHandle)
    (s : LocalGuestUapiSurface) : Uses req.service (submitIoToCq req sub cq) s := by
  unfold submitIoToCq IoSubmitReq.service
  cases req.opcode with
  | readBlock =>
    cases req.block with
    | none => exact throw_uses s
    | some block =>
      refine submitToService_uses models_block (fun _ => rfl) ?_ s
      exact fun _ _ => ⟨_, _, _, _, rfl, fun _ => ⟨rfl, rfl⟩⟩
  | writeBlock =>
    cases req.block with
    | none => exact throw_uses s
    | some block =>
      refine submitToService_uses models_block (fun _ => rfl) ?_ s
      exact fun _ _ => ⟨_, _, _, _, rfl, fun _ => ⟨rfl, rfl⟩⟩
  | dispatch => exact enqueueToCq_uses cq (by rintro ⟨_, _, _, ⟨⟩⟩) _ s
  | remoteFetch => exact nextServiceTime_uses (enqueueToCq_uses cq (by rintro ⟨⟨⟩, _⟩) _ _)
  | remoteStore => exact nextServiceTime_uses (enqueueToCq_uses cq (by rintro ⟨⟨⟩, _⟩) _ _)

/-- **What submitting a descriptor does to the queues of the services.** -/
theorem submitDescriptorToCq_uses (sub : Submission) (cq : CqHandle) (s : LocalGuestUapiSurface) :
    Uses sub.desc.service (submitDescriptorToCq sub cq) s := by
  unfold submitDescriptorToCq
  cases sub.desc with
  | io req => exact submitIoToCq_uses req sub cq s
  | blockWriteback block task =>
    refine submitToService_uses models_block (fun _ => rfl) ?_ s
    exact fun _ _ => ⟨_, _, _, _, rfl, fun _ => ⟨rfl, rfl⟩⟩
  | shmemPut req =>
    refine submitToService_uses models_shmem (fun _ => rfl) ?_ s
    exact fun _ st =>
      ⟨_, _, _, fun queue => { st with toServiceQueue := queue }, rfl, fun _ => ⟨rfl, rfl⟩⟩
  | shmemGet req =>
    refine submitToService_uses models_shmem (fun _ => rfl) ?_ s
    exact fun _ st =>
      ⟨_, _, _, fun queue => { st with toServiceQueue := queue }, rfl, fun _ => ⟨rfl, rfl⟩⟩
  | dfsRead req =>
    refine submitToService_uses models_dfs (fun _ => rfl) ?_ s
    exact fun _ _ => ⟨_, _, _, _, rfl, fun _ => ⟨rfl, rfl⟩⟩
  | dfsWrite req =>
    refine submitToService_uses models_dfs (fun _ => rfl) ?_ s
    exact fun _ _ => ⟨_, _, _, _, rfl, fun _ => ⟨rfl, rfl⟩⟩
  | dbPut req =>
    refine submitToService_uses models_db (fun _ => rfl) ?_ s
    exact fun _ _ => ⟨_, _, _, _, rfl, fun _ => ⟨rfl, rfl⟩⟩
  | dbGet req =>
    refine submitToService_uses models_db (fun _ => rfl) ?_ s
    exact fun _ _ => ⟨_, _, _, _, rfl, fun _ => ⟨rfl, rfl⟩⟩

/-! ### Flushing the services -/

theorem Steps.depths {drops : Prop} {f f' : Flow} (h : Steps drops f f') : f'.depths = f.depths := by
  induction h with
  | refl => rfl
  | tail _ hlast ih => cases hlast <;> exact ih

theorem flushServices_depths (now : UInt64) (s : LocalGuestUapiSurface) :
    (exec (flushServices now) s).2.depths = s.depths :=
  Steps.depths ((flushServices_flows now).2 False { waiting := [] } s rfl)

/-- A forced flush leaves all of its room in every service. -/
theorem flushServices_room (hexec : exec (flushServices u64Max) s = (.ok (), s'))
    (source : CompletionSource) : s'.room source = (s.depths source).toNat := by
  have hdepths := flushServices_depths u64Max s
  obtain ⟨hblock, hshmem, hdfs, hdb⟩ := flushServices_drains hexec
  rw [hexec] at hdepths
  have hnone : (s'.services source).completions = [] := by
    cases source with
    | blockService => exact hblock
    | shmemService => exact hshmem
    | dfsService => exact hdfs
    | dbService => exact hdb
    | chipBackend => rfl
    | guestUapi => rfl
    | remoteNode => rfl
  rw [LocalGuestUapiSurface.room, hnone, hdepths]
  rfl

theorem routeAll_quiet (events : List (Owned Submission))
    (hevents : ∀ entry ∈ events, ¬RuntimeExhausted entry.event) :
    Within Quiet (routeAll events) := by
  induction events with
  | nil => exact within_pure Quiet.refl ()
  | cons entry rest ih =>
    refine within_bind Quiet.trans (fun s => ?_) fun _ =>
      ih fun entry' hentry' => hevents entry' (List.mem_cons_of_mem _ hentry')
    have hunrouted : Quiet s (unrouted s entry) := .of_same rfl rfl
    rcases routeCompletionToCq_spec s entry with ⟨cq, st, _, _, hexec⟩ | ⟨_, hexec⟩ <;> rw [hexec]
    · exact hunrouted.trans _ _ _ (pushed_quiet _ cq st (hevents entry List.mem_cons_self))
    · exact hunrouted

theorem pollService_quiet {stub : Type} {field : ServiceField stub} {port : stub → Port}
    (hfield : Models field port) (hsource : field.source ≠ .guestUapi) {now : UInt64}
    {poll : stub → List (Owned Submission) × stub}
    (hpoll : ∀ st, (poll st).1 = ((field.queue st).pollReady now).1 ∧
      field.queue (poll st).2 = ((field.queue st).pollReady now).2 ∧ port (poll st).2 = port st) :
    Within Quiet (pollService field poll >>= routeAll) := by
  intro s hs
  obtain ⟨hevents, hqueue, hport⟩ := hpoll (field.get s)
  obtain ⟨taken, hsplit, hready⟩ := drainReady_spec now (field.queue (field.get s)).completions
  have hcompletions : (s.services field.source).completions =
      taken ++ (drainReady now (field.queue (field.get s)).completions).2 :=
    (congrArg ServiceQueue.completions (hfield.services_eq s)).trans hsplit
  have hset := hfield.during_set s (poll (field.get s)).2 { waiting := [] } hport
  have hservices : (field.set s (poll (field.get s)).2).services =
      Function.update s.services field.source (field.queue (poll (field.get s)).2) :=
    congrArg Flow.services hset
  -- what is left in the services, and what is taken out of this one
  have hpolled : Quiet s (field.set s (poll (field.get s)).2) := by
    have hpushes : (field.set s (poll (field.get s)).2).history.pushes = s.history.pushes :=
      congrArg (·.history.pushes) hset
    refine fun _ => ⟨fun source => ?_, [], hpushes.trans (List.append_nil _).symm,
      fun _ h => (by cases h)⟩
    · rw [hservices]
      by_cases hother : source = field.source
      · subst hother
        rw [Function.update_self, hqueue]
        intro item hitem
        exact hs field.source item (hcompletions ▸ List.mem_append_right _ hitem)
      · rw [Function.update_of_ne hother]
        exact hs source
  have htaken : ∀ entry ∈ (poll (field.get s)).1, ¬RuntimeExhausted entry.event := by
    intro entry hentry hexhausted
    rw [hevents] at hentry
    obtain ⟨item, hitem, rfl⟩ := List.mem_map.1 (hready ▸ hentry : entry ∈ taken.map (·.owned))
    have hnamed := hs field.source item (hcompletions ▸ List.mem_append_left _ hitem)
    exact hsource (hnamed.symm.trans hexhausted.1)
  exact hpolled.trans _ _ _ (routeAll_quiet _ htaken _) hs

theorem flushServices_quiet (now : UInt64) : Within Quiet (flushServices now) := by
  have hblock : Within Quiet (pollService blockField (·.pollReady now) >>= routeAll) :=
    pollService_quiet models_block (by decide) fun _ => ⟨rfl, rfl, rfl⟩
  have hshmem : Within Quiet (pollService shmemField (·.pollReady now) >>= routeAll) :=
    pollService_quiet models_shmem (by decide) fun _ => ⟨rfl, rfl, rfl⟩
  have hdfs : Within Quiet (pollService dfsField (·.pollReady now) >>= routeAll) :=
    pollService_quiet models_dfs (by decide) fun _ => ⟨rfl, rfl, rfl⟩
  have hdb : Within Quiet (pollService dbField (·.pollReady now) >>= routeAll) :=
    pollService_quiet models_db (by decide) fun _ => ⟨rfl, rfl, rfl⟩
  have hstages := within_bind Quiet.trans hblock fun _ =>
    within_bind Quiet.trans hshmem fun _ => within_bind Quiet.trans hdfs fun _ => hdb
  simpa only [flushServices, bind_assoc] using hstages

/-- A flush keeps the depths. -/
theorem depths_along : FlushAlong fun s s' => s'.depths = s.depths where
  refl _ := rfl
  trans _ _ _ h h' := h'.trans h
  submit sub cq s := (submitDescriptorToCq_uses sub cq s).depths
  services := flushServices_depths u64Max
  report failure s := by
    rcases enqueueToCq_spec (ticked s) failure.cq ⟨exhausted u64Max s failure, failure.sub⟩ with
      ⟨_, _, hexec⟩ | ⟨_, hexec⟩ <;> rw [hexec] <;> rfl
  refusing _ _ := rfl
  queue _ _ := rfl

/-! ### Driving -/

/-- The service that a record is for. -/
def serviceOf (entry : UapiRecord) : Option CompletionSource :=
  entry.payload.payload.sub.desc.service

/-- The service accepts the record. -/
def Submitted (entry : UapiRecord) (s : LocalGuestUapiSurface) : Prop :=
  ∃ opId, (exec (submitDescriptorToCq entry.payload.payload.sub entry.payload.payload.cq) s).1 =
    .ok opId

/-- What the callback of a forced flush decides about a record, and what that does to the room of
the services. -/
inductive Issued (entry : UapiRecord) (s s' : LocalGuestUapiSurface) :
    RuntimeDriveAction UapiRuntimeFailure → Prop
  | complete (hsubmitted : Submitted entry s)
    (hroom : ∀ source, s.room source =
      s'.room source + if serviceOf entry = some source then 1 else 0) :
    Issued entry s s' .complete
  | fail (code : String) (hservice : serviceOf entry = none) (hcode : isQueueFull code = false)
    (hroom : ∀ source, s'.room source = s.room source) :
    Issued entry s s' (.fail ⟨entry.payload.payload.cq, code, entry.payload.payload.sub⟩)
  | retry (code : String) {full : CompletionSource} (hcode : isQueueFull code = true)
    (hfull : serviceOf entry = some full) (hnone : s.room full = 0)
    (hroom : ∀ source, s'.room source = (s.depths source).toNat) :
    Issued entry s s' (.retry ⟨entry.payload.payload.cq, code, entry.payload.payload.sub⟩)

theorem issueEntry_issued {entry : UapiRecord} {action : RuntimeDriveAction UapiRuntimeFailure}
    (hok : IssueOk entry s) (hrun : (issueEntry u64Max entry).run s = (action, s')) :
    Issued entry s s' action := by
  have huses := submitDescriptorToCq_uses entry.payload.payload.sub entry.payload.payload.cq s
  rcases issueEntry_cases hrun with ⟨opId, rfl, hexec⟩ |
    ⟨e, s₁, hexec, ⟨code, hcode, rfl, rfl, hs'⟩ | ⟨code, hcode, hother, rfl, rfl⟩⟩
  · have hresult := congrArg Prod.fst hexec
    refine .complete ⟨opId, hresult⟩ fun source => ?_
    by_cases hsource : serviceOf entry = some source
    · have hone := huses.ok opId source hresult hsource
      rw [hexec] at hone
      rw [if_pos hsource]
      exact hone.symm
    · have hdepths := huses.depths
      have hothers := huses.others source hsource
      rw [hexec] at hdepths hothers
      rw [if_neg hsource, LocalGuestUapiSurface.room, LocalGuestUapiSurface.room, hdepths, hothers]
      rfl
  · have hresult := congrArg Prod.fst hexec
    obtain ⟨source, hsource⟩ : ∃ source, serviceOf entry = some source := by
      by_contra hnone
      have hservice := Option.eq_none_iff_forall_ne_some.2 fun source h => hnone ⟨source, h⟩
      rw [huses.other code hresult hservice] at hcode
      cases hcode
    have hnone := (huses.full _ source hresult hsource).1
    have hflush := hok.flushed code hcode hresult
    have hdepths := huses.depths
    rw [hexec] at hflush hdepths
    have hdrained : exec (flushServices u64Max) (refusing s₁ entry.payload.payload.sub) =
        (.ok (), s') := Prod.ext hflush hs'.symm
    refine .retry code hcode hsource hnone fun source => ?_
    rw [flushServices_room hdrained source, ← hdepths]
    rfl
  · have hresult := congrArg Prod.fst hexec
    have hservices := huses.error e hresult
    have hdepths := huses.depths
    rw [hexec] at hservices hdepths
    refine .fail code ?_ hcode fun source => SameServices.room ⟨hservices, hdepths⟩ source
    -- a service would have failed it for being full
    refine Option.eq_none_iff_forall_ne_some.2 fun source hsource => ?_
    obtain ⟨-, code', rfl, hfull⟩ := huses.full e source hresult hsource
    rw [hother code' rfl] at hfull
    cases hfull

/-- A drive of the records, with what the callback decides about each of them. -/
inductive Driven : List UapiRecord →
    SharedRuntimeQueue (RuntimeWorkItem UapiRuntimePayload) × List UapiRuntimeFailure →
    LocalGuestUapiSurface →
    SharedRuntimeQueue (RuntimeWorkItem UapiRuntimePayload) × List UapiRuntimeFailure →
    LocalGuestUapiSurface → Prop
  | nil {acc : SharedRuntimeQueue (RuntimeWorkItem UapiRuntimePayload) × List UapiRuntimeFailure}
    {s : LocalGuestUapiSurface} : Driven [] acc s acc s
  | cons {entry : UapiRecord} {ready : List UapiRecord}
    {acc acc' : SharedRuntimeQueue (RuntimeWorkItem UapiRuntimePayload) × List UapiRuntimeFailure}
    {s s₁ s' : LocalGuestUapiSurface} {action : RuntimeDriveAction UapiRuntimeFailure}
    (hrun : (issueEntry u64Max entry).run s = (action, s₁)) (hissued : Issued entry s s₁ action)
    (hrest : Driven ready (SharedRuntimeExecutor.settle u64Max entry acc action) s₁ acc' s') :
    Driven (entry :: ready) acc s acc' s'

theorem driveAll_driven (ready : List UapiRecord)
    (acc acc' : SharedRuntimeQueue (RuntimeWorkItem UapiRuntimePayload) × List UapiRuntimeFailure)
    (hok : ∀ entry t, DriveCalls ready s entry t → IssueOk entry t)
    (hrun : (driveAll ready acc).run s = (acc', s')) : Driven ready acc s acc' s' := by
  induction ready generalizing acc s with
  | nil =>
    cases hrun
    exact .nil
  | cons entry ready ih =>
    rcases hentry : (issueEntry u64Max entry).run s with ⟨action, s₁⟩
    simp only [driveAll, List.foldlM_cons, StateT.run_bind, hentry] at hrun
    exact .cons hentry (issueEntry_issued (hok _ _ .here) hentry)
      (ih _ (fun entry' t hcall => hok entry' t (.later hentry hcall)) hrun)

/-- The callback of a drive reports nothing as exhausted. -/
theorem Driven.quiet {ready : List UapiRecord}
    {acc acc' : SharedRuntimeQueue (RuntimeWorkItem UapiRuntimePayload) × List UapiRuntimeFailure}
    (h : Driven ready acc s acc' s') : Quiet s s' := by
  induction h with
  | nil => exact .refl _
  | @cons entry ready acc acc' s s₁ s' action hrun _ _ ih =>
    have hsubmit :=
      (submitDescriptorToCq_uses entry.payload.payload.sub entry.payload.payload.cq s).quiet
    refine .trans _ _ _ ?_ ih
    rcases issueEntry_cases hrun with ⟨_, _, hexec⟩ |
      ⟨_, s₀, hexec, ⟨_, _, _, _, rfl⟩ | ⟨_, _, _, _, rfl⟩⟩ <;> rw [hexec] at hsubmit
    · exact hsubmit
    · have hrefusing : Quiet s₀ (refusing s₀ entry.payload.payload.sub) := .of_same rfl rfl
      exact hsubmit.trans _ _ _ (hrefusing.trans _ _ _ (flushServices_quiet u64Max _))
    · exact hsubmit

/-- How many of the records are for the service. -/
def waitingFor (source : CompletionSource) (pending : List UapiRecord) : ℕ :=
  pending.countP fun entry => serviceOf entry = some source

/-- How many of the failures say that the service is full. -/
def givenUp (source : CompletionSource) (failures : List UapiRuntimeFailure) : ℕ :=
  failures.countP fun failure =>
    isQueueFull failure.code && failure.sub.desc.service = some source

/-- The records for the service that a drive has turned away so far. -/
def turnedAway (source : CompletionSource)
    (acc : SharedRuntimeQueue (RuntimeWorkItem UapiRuntimePayload) × List UapiRuntimeFailure) : ℕ :=
  waitingFor source acc.1.pending + givenUp source acc.2

/-- The records are for this service or for none. -/
def Alone (source : CompletionSource) (ready : List UapiRecord) : Prop :=
  ∀ entry ∈ ready, serviceOf entry = some source ∨ serviceOf entry = none

/-- Turning away a record leaves room for as many as the service is deep; `slack` is the room that
other services waste when they turn a record away. -/
theorem Issued.turnedAway_eq {entry : UapiRecord} {action : RuntimeDriveAction UapiRuntimeFailure}
    (h : Issued entry s s' action)
    (acc : SharedRuntimeQueue (RuntimeWorkItem UapiRuntimePayload) × List UapiRuntimeFailure)
    (source : CompletionSource) :
    ∃ slack, turnedAway source (SharedRuntimeExecutor.settle u64Max entry acc action) *
        ((s.depths source).toNat + 1) + s.room source + slack =
      turnedAway source acc * ((s.depths source).toNat + 1) + s'.room source +
        (if serviceOf entry = some source then 1 else 0) ∧
      (serviceOf entry = some source ∨ serviceOf entry = none → slack = 0) := by
  cases h with
  | complete _ hroom =>
    refine ⟨0, ?_, fun _ => rfl⟩
    have := hroom source
    show turnedAway source acc * _ + _ + _ = _
    omega
  | fail code hservice hcode hroom =>
    refine ⟨0, ?_, fun _ => rfl⟩
    have hsame : turnedAway source (acc.1, acc.2 ++
        [⟨entry.payload.payload.cq, code, entry.payload.payload.sub⟩]) = turnedAway source acc := by
      simp [turnedAway, givenUp, hcode]
    have hother : serviceOf entry ≠ some source := by simp [hservice]
    show turnedAway source (acc.1, _) * _ + _ + _ = _
    rw [hsame, hroom source, if_neg hother]
  | retry code hcode hfull hnone hroom =>
    have hmore : turnedAway source (SharedRuntimeExecutor.settle u64Max entry acc
        (.retry ⟨entry.payload.payload.cq, code, entry.payload.payload.sub⟩)) =
          turnedAway source acc + if serviceOf entry = some source then 1 else 0 := by
      -- it goes back to the queue, or to the failures
      rcases acc.1.retry_spec entry u64Max with ⟨_, hretry⟩ | ⟨_, hretry⟩ <;>
        by_cases hsource : entry.payload.payload.sub.desc.service = some source <;>
          simp [SharedRuntimeExecutor.settle, hretry, turnedAway, waitingFor, givenUp, serviceOf,
            hcode, hsource] <;> omega
    have hle : s.room source ≤ (s.depths source).toNat := Nat.sub_le _ _
    rw [hmore, hroom source]
    by_cases hsource : serviceOf entry = some source
    · -- the service itself had no room
      cases hsource.symm.trans hfull
      refine ⟨0, ?_, fun _ => rfl⟩
      rw [if_pos hsource, hnone, Nat.add_mul]
      omega
    · refine ⟨(s.depths source).toNat - s.room source, ?_, fun halone => ?_⟩
      · rw [if_neg hsource, Nat.add_zero, Nat.add_zero]
        omega
      · rcases halone with halone | halone
        · exact absurd halone hsource
        · rw [halone] at hfull
          cases hfull

/-- **How many records for a service a drive turns away**, exactly if there are none for others. -/
theorem Driven.turnedAway_eq {ready : List UapiRecord}
    {acc acc' : SharedRuntimeQueue (RuntimeWorkItem UapiRuntimePayload) × List UapiRuntimeFailure}
    (h : Driven ready acc s acc' s') (source : CompletionSource) :
    ∃ slack, turnedAway source acc' * ((s.depths source).toNat + 1) + s.room source + slack =
      turnedAway source acc * ((s.depths source).toNat + 1) + s'.room source +
        waitingFor source ready ∧ (Alone source ready → slack = 0) := by
  induction h with
  | nil => exact ⟨0, rfl, fun _ => rfl⟩
  | @cons entry ready acc acc' s s₁ s' action hrun hissued _ ih =>
    obtain ⟨here, hhere, hzero⟩ := hissued.turnedAway_eq acc source
    obtain ⟨rest, hrest, hzeros⟩ := ih
    rw [depths_along.issueEntry hrun] at hrest
    refine ⟨here + rest, ?_, fun halone => ?_⟩
    · rw [waitingFor, List.countP_cons]
      rw [waitingFor] at hrest
      simp only [decide_eq_true_eq]
      omega
    · rw [hzero (halone entry List.mem_cons_self),
        hzeros fun entry' hentry' => halone entry' (List.mem_cons_of_mem _ hentry')]

end Uapi

end LinquUb
