import LinquUb.Uapi.Isolation

/-!
# Flushes in reachable states

In a reachable state every completion has a route, and every route leads to a completion queue that
exists.  So a flush neither fails nor asks for a default queue.

* `Steady m s` : `m` succeeds from `s`, and the hash order does not matter to it;
* `flushServices_calm`, `flushRuntime_steady`, `flush_steady` : **forced flushes are steady**;
* `IssueOk`, `driveAll_ok` : what the callback of a drive does with its calls.
-/

namespace LinquUb

open Action

/-- The surface under another iteration order of its hash maps. -/
def LocalGuestUapiSurface.reorder (order : HashOrder) (s : LocalGuestUapiSurface) :
    LocalGuestUapiSurface :=
  { s with hashOrder := order }

namespace Flow.Isolated

variable {f f' : Flow} {drops : Prop}

theorem steps (h : Isolated f) (hs : Steps drops f f') : Isolated f' :=
  LTS.steps_invariant (fun _ _ h hs => h.step hs) h hs

/-- The completion that is routed next has a route, to a queue that exists. -/
theorem polled_route (h : Isolated f) {entry : Owned Submission} {rest : List (Owned Submission)}
    (hpolled : f.polled = entry :: rest) :
    ∃ cq st, f.routes.lookup entry.event.key = some cq ∧ f.cqs.lookup cq = some st := by
  obtain ⟨cq, hroute, hproper⟩ := h.placed.polled_route h.routed hpolled
  obtain ⟨st, hst⟩ := Option.ne_none_iff_exists'.1 hproper.live
  exact ⟨cq, st, hroute, hst⟩

theorem subject_live (h : Isolated f) {cq : CqHandle} {sub : Submission}
    (hsubject : f.subject = some (cq, sub)) : ∃ st, f.cqs.lookup cq = some st :=
  Option.ne_none_iff_exists'.1 (h.placed.subject cq sub hsubject).live

theorem failing_live (h : Isolated f) {failure : UapiRuntimeFailure}
    (hfailing : failure ∈ f.failing) : ∃ st, f.cqs.lookup failure.cq = some st :=
  Option.ne_none_iff_exists'.1 (h.placed.failing failure hfailing).live

end Flow.Isolated

namespace Uapi

open Flow (Step Steps Isolated)
open LocalGuestUapiSurface (reorder)

variable {α β : Type} {s s' : LocalGuestUapiSurface} {h : Hands}

/-- The hash order does not matter. -/
abbrev Orderless (f : LocalGuestUapiSurface → β × LocalGuestUapiSurface)
    (s : LocalGuestUapiSurface) : Prop :=
  ∀ order, Ignores (reorder order) f s

theorem Orderless.bind {m : Uapi α} {f : α → Uapi β} (hm : Orderless (exec m) s)
    (hf : ∀ a s', exec m s = (.ok a, s') → Orderless (exec (f a)) s') :
    Orderless (exec (m >>= f)) s :=
  fun order => (hm order).bind fun a s' hexec => hf a s' hexec order

structure Steady (m : Uapi α) (s : LocalGuestUapiSurface) : Prop where
  ok : ∃ a, (exec m s).1 = .ok a
  orderless : Orderless (exec m) s

theorem steady_pure (a : α) : Steady (pure a) s := ⟨⟨a, rfl⟩, fun _ => rfl⟩

theorem Steady.exec {m : Uapi α} (hm : Steady m s) : ∃ a, Action.exec m s = (.ok a, (exec m s).2) :=
  hm.ok.imp fun _ hok => Prod.ext hok rfl

theorem Steady.bind {m : Uapi α} {f : α → Uapi β} (hm : Steady m s)
    (hf : ∀ a s', Action.exec m s = (.ok a, s') → Steady (f a) s') : Steady (m >>= f) s := by
  obtain ⟨a, hexec⟩ := hm.exec
  refine ⟨?_, hm.orderless.bind fun a s' hexec => (hf a s' hexec).orderless⟩
  rw [exec_bind_ok hexec]
  exact (hf a _ hexec).ok

/-! ### Completion queues and routes -/

theorem enqueueToCq_ok {cq : CqHandle} {st : CompletionQueueState} (entry : Owned Submission)
    (hcq : s.cqEvents.lookup cq = some st) :
    exec (enqueueToCq cq entry) s = (.ok (), pushed s cq st entry) := by
  rcases enqueueToCq_spec s cq entry with ⟨st', hst', hexec⟩ | ⟨hnone, _⟩
  · cases hst'.symm.trans hcq
    exact hexec
  · cases hnone.symm.trans hcq

theorem enqueueToCq_steady {cq : CqHandle} {st : CompletionQueueState} (entry : Owned Submission)
    (hcq : s.cqEvents.lookup cq = some st) : Steady (enqueueToCq cq entry) s := by
  have hexec := enqueueToCq_ok entry hcq
  refine ⟨⟨(), congrArg Prod.fst hexec⟩, fun order => ?_⟩
  rw [Ignores, hexec]
  exact enqueueToCq_ok (s := s.reorder order) entry hcq

/-- A completion with a route does not need a default queue. -/
theorem routeCompletionToCq_ok {cq : CqHandle} {st : CompletionQueueState}
    {entry : Owned Submission} (hroute : s.completionRoutes.issued.lookup entry.event.key = some cq)
    (hcq : s.cqEvents.lookup cq = some st) :
    exec (routeCompletionToCq entry) s = (.ok (), pushed (unrouted s entry) cq st entry) := by
  rw [routeCompletionToCq_exec, hroute]
  exact enqueueToCq_ok (s := unrouted s entry) entry hcq

theorem routeCompletionToCq_steady {cq : CqHandle} {st : CompletionQueueState}
    {entry : Owned Submission} (hroute : s.completionRoutes.issued.lookup entry.event.key = some cq)
    (hcq : s.cqEvents.lookup cq = some st) : Steady (routeCompletionToCq entry) s := by
  have hexec := routeCompletionToCq_ok hroute hcq
  refine ⟨⟨(), congrArg Prod.fst hexec⟩, fun order => ?_⟩
  rw [Ignores, hexec]
  exact routeCompletionToCq_ok (s := s.reorder order) hroute hcq

theorem routeAll_steady (h : Hands) (events : List (Owned Submission)) (s : LocalGuestUapiSurface)
    (hs : Isolated (s.during { h with polled := events })) : Steady (routeAll events) s := by
  induction events generalizing s with
  | nil => exact steady_pure ()
  | cons entry rest ih =>
    obtain ⟨cq, st, hroute, hcq⟩ := hs.polled_route rfl
    refine (routeCompletionToCq_steady hroute hcq).bind fun _ s' hexec => ih s' ?_
    have hstep : Step False (s.during { h with polled := entry :: rest })
        ((pushed (unrouted s entry) cq st entry).during { h with polled := rest }) :=
      .route rfl (.inl hroute) hcq
    rw [routeCompletionToCq_ok hroute hcq] at hexec
    cases hexec
    exact hs.step hstep

/-- The method is steady in the middle of any command that has polled nothing. -/
def Calm (m : Uapi Unit) : Prop :=
  ∀ h s, h.polled = [] → Isolated (s.during h) → Steady m s

theorem Calm.bind {m m' : Uapi Unit} (hm : Calm m) (hflows : Flows m) (hm' : Calm m') :
    Calm (m >>= fun _ => m') := by
  intro h s hpolled hs
  refine (hm h s hpolled hs).bind fun _ s' hexec => hm' h s' hpolled ?_
  have hsteps := hflows.2 False h s hpolled
  rw [hexec] at hsteps
  exact hs.steps hsteps

theorem Polls.calm {m : Uapi (List (Owned Submission))} (hm : Polls m)
    (horder : ∀ s, Orderless (exec m) s) : Calm (m >>= routeAll) := by
  intro h s hpolled hs
  obtain ⟨events, s', hexec, -, hstep⟩ := hm s
  have hpoll : Steady m s := ⟨⟨events, congrArg Prod.fst hexec⟩, horder s⟩
  refine hpoll.bind fun events' s'' hexec' => ?_
  rw [hexec] at hexec'
  cases hexec'
  exact routeAll_steady h events s' (hs.step (hstep False h hpolled))

theorem flushServices_calm (now : UInt64) : Calm (flushServices now) := by
  have hblock := (pollBlock_polls now).calm fun _ _ => rfl
  have hshmem := (pollShmem_polls now).calm fun _ _ => rfl
  have hdfs := (pollDfs_polls now).calm fun _ _ => rfl
  have hdb := (pollDb_polls now).calm fun _ _ => rfl
  have hcalm := hblock.bind (pollBlock_polls now).routed
    (hshmem.bind (pollShmem_polls now).routed (hdfs.bind (pollDfs_polls now).routed hdb))
  simpa only [flushServices, bind_assoc] using hcalm

/-! ### Submitting to a service -/

/-- The field does not touch the hash order. -/
structure Unordered {stub : Type} (field : ServiceField stub) : Prop where
  get : ∀ order s, field.get (reorder order s) = field.get s
  set : ∀ order s st, field.set (reorder order s) st = reorder order (field.set s st)

theorem unordered_block : Unordered blockField := ⟨fun _ _ => rfl, fun _ _ _ => rfl⟩

theorem unordered_shmem : Unordered shmemField := ⟨fun _ _ => rfl, fun _ _ _ => rfl⟩

theorem unordered_dfs : Unordered dfsField := ⟨fun _ _ => rfl, fun _ _ _ => rfl⟩

theorem unordered_db : Unordered dbField := ⟨fun _ _ => rfl, fun _ _ _ => rfl⟩

theorem submitToService_orderless {stub : Type} {field : ServiceField stub}
    (hfield : Unordered field) (cq : CqHandle)
    (submit : UInt64 → stub → Except SimError (ServiceOpHandle × stub)) (s : LocalGuestUapiSurface) :
    Orderless (exec (submitToService field cq submit)) s := by
  intro order
  have hget : field.get (ticked (reorder order s)) = field.get (ticked s) :=
    hfield.get order (ticked s)
  have hset : ∀ st, field.set (ticked (reorder order s)) st =
      reorder order (field.set (ticked s) st) := hfield.set order (ticked s)
  have hclock : (ticked (reorder order s)).serviceClock = (ticked s).serviceClock := rfl
  rw [Ignores, submitToService_exec, submitToService_exec, hget, hclock]
  cases submit (ticked s).serviceClock (field.get (ticked s)) with
  | error e => rfl
  | ok result =>
    dsimp only
    rw [hset]
    rfl

/-- An enqueue that may find no queue. -/
theorem enqueueToCq_orderless (cq : CqHandle) (entry : Owned Submission)
    (s : LocalGuestUapiSurface) : Orderless (exec (enqueueToCq cq entry)) s := by
  rcases enqueueToCq_spec s cq entry with ⟨st, hst, -⟩ | ⟨hnone, hexec⟩
  · exact (enqueueToCq_steady entry hst).orderless
  · intro order
    rcases enqueueToCq_spec (s.reorder order) cq entry with ⟨st, hst, -⟩ | ⟨-, hother⟩
    · cases hst.symm.trans hnone
    · rw [Ignores, hexec, hother]

theorem submitIoToCq_orderless (req : IoSubmitReq) (sub : Submission) (cq : CqHandle)
    (s : LocalGuestUapiSurface) : Orderless (exec (submitIoToCq req sub cq)) s := by
  have henqueue : ∀ event s, Orderless (exec (do
      enqueueToCq cq ⟨event, sub⟩
      return req.opId : Uapi OpId)) s := fun event s =>
    (enqueueToCq_orderless cq _ s).bind fun _ _ _ _ => rfl
  have hclock : Orderless (exec nextServiceTime) s := fun _ => rfl
  unfold submitIoToCq
  cases req.opcode with
  | readBlock =>
    cases req.block with
    | none => exact fun _ => rfl
    | some block => exact submitToService_orderless unordered_block cq _ s
  | writeBlock =>
    cases req.block with
    | none => exact fun _ => rfl
    | some block => exact submitToService_orderless unordered_block cq _ s
  | dispatch => exact henqueue _ s
  | remoteFetch => exact hclock.bind fun now s' _ => henqueue _ s'
  | remoteStore => exact hclock.bind fun now s' _ => henqueue _ s'

theorem submitDescriptorToCq_orderless (sub : Submission) (cq : CqHandle)
    (s : LocalGuestUapiSurface) : Orderless (exec (submitDescriptorToCq sub cq)) s := by
  unfold submitDescriptorToCq
  cases sub.desc with
  | io req => exact submitIoToCq_orderless req sub cq s
  | blockWriteback block task => exact submitToService_orderless unordered_block cq _ s
  | shmemPut req => exact submitToService_orderless unordered_shmem cq _ s
  | shmemGet req => exact submitToService_orderless unordered_shmem cq _ s
  | dfsRead req => exact submitToService_orderless unordered_dfs cq _ s
  | dfsWrite req => exact submitToService_orderless unordered_dfs cq _ s
  | dbPut req => exact submitToService_orderless unordered_db cq _ s
  | dbGet req => exact submitToService_orderless unordered_db cq _ s

/-- The error of a service call comes from its stub. -/
theorem submitToService_error {stub : Type} {field : ServiceField stub} {cq : CqHandle}
    {submit : UInt64 → stub → Except SimError (ServiceOpHandle × stub)} {e : SimError}
    (hsubmit : ∀ now st e, submit now st = .error e → ∃ code, e = .invalidInput code)
    (hexec : (exec (submitToService field cq submit) s).1 = .error e) :
    ∃ code, e = .invalidInput code := by
  rw [submitToService_exec] at hexec
  split at hexec
  · rename_i hcall
    cases hexec
    exact hsubmit _ _ _ hcall
  · cases hexec

/-- A submission to a queue that exists fails with an input error, if at all. -/
theorem submitDescriptorToCq_error {sub : Submission} {cq : CqHandle} {st : CompletionQueueState}
    {e : SimError} (hcq : s.cqEvents.lookup cq = some st)
    (hexec : (exec (submitDescriptorToCq sub cq) s).1 = .error e) : ∃ code, e = .invalidInput code := by
  unfold submitDescriptorToCq at hexec
  split at hexec
  case h_1 req _ =>
    unfold submitIoToCq at hexec
    split at hexec
    · split at hexec
      · cases hexec
        exact ⟨_, rfl⟩
      · exact submitToService_error (fun _ _ _ h => ⟨_, (ServiceQueue.submitThen_error h).2⟩) hexec
    · split at hexec
      · cases hexec
        exact ⟨_, rfl⟩
      · exact submitToService_error (fun _ _ _ h => ⟨_, (ServiceQueue.submitThen_error h).2⟩) hexec
    · rw [exec_bind_ok (enqueueToCq_ok _ hcq)] at hexec
      cases hexec
    all_goals
      rw [exec_bind_ok (nextServiceTime_exec s),
        exec_bind_ok (enqueueToCq_ok (s := ticked s) _ hcq)] at hexec
      cases hexec
  all_goals
    refine submitToService_error (fun now st e h => ?_) hexec
    simp only [BlockServiceStub.submitWriteback, ShmemServiceStub.submitPut,
      ShmemServiceStub.submitGet, ShmemServiceStub.submitAccess, DfsServiceStub.submitRead,
      DfsServiceStub.submitWrite, DbServiceStub.submitPut, DbServiceStub.submitGet] at h
    exact ⟨_, (ServiceQueue.submitThen_error h).2⟩

/-! ### Driving the runtime queue -/

theorem issueEntry_run (now : UInt64) (entry : UapiRecord) (s : LocalGuestUapiSurface) :
    (issueEntry now entry).run s =
      (issueOutcome now entry.payload.payload.cq entry.payload.payload.sub
        (exec (submitDescriptorToCq entry.payload.payload.sub entry.payload.payload.cq) s).1).run
          (exec (submitDescriptorToCq entry.payload.payload.sub entry.payload.payload.cq) s).2 := rfl

/-- A forced flush drains the services when one of them is full. -/
theorem issueOutcome_full (cq : CqHandle) (sub : Submission) {code : String}
    (hfull : isQueueFull code = true) (s : LocalGuestUapiSurface) :
    (issueOutcome u64Max cq sub (.error (.invalidInput code))).run s =
      (.retry ⟨cq, code, sub⟩, (exec (flushServices u64Max) (refusing s sub)).2) := by
  simp only [issueOutcome, if_pos hfull]
  rfl

/-- The calls of the callback of a drive: none fails for want of a completion queue. -/
structure IssueOk (entry : UapiRecord) (s : LocalGuestUapiSurface) : Prop where
  submitted : (exec (submitDescriptorToCq entry.payload.payload.sub entry.payload.payload.cq) s).1 ≠
    .error (.notFound "completion queue")
  flushed : ∀ code, isQueueFull code = true →
    (exec (submitDescriptorToCq entry.payload.payload.sub entry.payload.payload.cq) s).1 =
      .error (.invalidInput code) →
    (exec (flushServices u64Max) (refusing
      (exec (submitDescriptorToCq entry.payload.payload.sub entry.payload.payload.cq) s).2
        entry.payload.payload.sub)).1 = .ok ()

/-- A refused submission is still in hand when the callback flushes the services. -/
theorem refused_isolated {entry : UapiRecord} {rest : List UapiRecord} (hsubject : h.subject = none)
    (hpolled : h.polled = []) (hs : Isolated (s.during { h with ready := entry :: rest }))
    {e : SimError}
    (hexec : (exec (submitDescriptorToCq entry.payload.payload.sub entry.payload.payload.cq) s).1 =
      .error e) :
    Isolated ((refusing
      (exec (submitDescriptorToCq entry.payload.payload.sub entry.payload.payload.cq) s).2
        entry.payload.payload.sub).during
          { h with ready := rest, subject := some (subjectOf entry) }) := by
  have hpick : Step False (s.during { h with ready := entry :: rest })
      (s.during { h with ready := rest, subject := some (subjectOf entry) }) := .pick rfl hsubject
  obtain ⟨-, hdispose⟩ :=
    submitDescriptorToCq_disposes entry.payload.payload.sub entry.payload.payload.cq s
  obtain ⟨-, herror⟩ :=
    hdispose False { h with ready := rest, subject := some (subjectOf entry) } rfl hpolled
  -- the error left the flow as it was, with the subject still in hand
  have hhand := hs.step hpick
  rw [← herror e hexec] at hhand
  have hrefuse : Step False
      ((exec (submitDescriptorToCq entry.payload.payload.sub entry.payload.payload.cq) s).2.during
        { h with ready := rest, subject := some (subjectOf entry) })
      ((refusing (exec (submitDescriptorToCq entry.payload.payload.sub
        entry.payload.payload.cq) s).2 entry.payload.payload.sub).during
          { h with ready := rest, subject := some (subjectOf entry) }) := .refuse rfl
  exact hhand.step hrefuse

theorem issueEntry_ok {entry : UapiRecord} {rest : List UapiRecord} (hsubject : h.subject = none)
    (hpolled : h.polled = []) (hs : Isolated (s.during { h with ready := entry :: rest })) :
    IssueOk entry s ∧ Orderless (issueEntry u64Max entry).run s := by
  have hflush : ∀ e, (exec (submitDescriptorToCq entry.payload.payload.sub
      entry.payload.payload.cq) s).1 = .error e → Steady (flushServices u64Max) (refusing
        (exec (submitDescriptorToCq entry.payload.payload.sub entry.payload.payload.cq) s).2
          entry.payload.payload.sub) := fun e hexec =>
    flushServices_calm u64Max { h with ready := rest, subject := some (subjectOf entry) } _ hpolled
      (refused_isolated hsubject hpolled hs hexec)
  have hpick : Step False (s.during { h with ready := entry :: rest })
      (s.during { h with ready := rest, subject := some (subjectOf entry) }) := .pick rfl hsubject
  obtain ⟨st, hcq⟩ := (hs.step hpick).subject_live rfl
  refine ⟨⟨fun herror => ?_, fun code _ hexec => ?_⟩, fun order => ?_⟩
  · obtain ⟨code, hcode⟩ := submitDescriptorToCq_error hcq herror
    cases hcode
  · obtain ⟨⟨⟩, hok⟩ := (hflush _ hexec).ok
    exact hok
  · rw [Ignores, issueEntry_run, issueEntry_run,
      submitDescriptorToCq_orderless entry.payload.payload.sub entry.payload.payload.cq s order]
    rcases hexec : exec (submitDescriptorToCq entry.payload.payload.sub
      entry.payload.payload.cq) s with ⟨result, s₁⟩
    rw [hexec] at hflush
    cases result with
    | ok opId => rfl
    | error e =>
      have hother : exec (flushServices u64Max)
          (reorder order (refusing s₁ entry.payload.payload.sub)) =
            ((exec (flushServices u64Max) (refusing s₁ entry.payload.payload.sub)).1,
              reorder order (exec (flushServices u64Max)
                (refusing s₁ entry.payload.payload.sub)).2) := (hflush e rfl).orderless order
      cases e with
      | invalidInput code =>
        by_cases hfull : isQueueFull code = true
        · dsimp only
          rw [issueOutcome_full _ _ hfull, issueOutcome_full _ _ hfull]
          have hstate := congrArg Prod.snd hother
          exact Prod.ext rfl hstate
        · simp only [issueOutcome, if_neg hfull]
          rfl
      | notFound what => rfl
      | notImplemented => rfl

/-- Where a drive of `ready` calls its callback. -/
inductive DriveCalls : List UapiRecord → LocalGuestUapiSurface → UapiRecord →
    LocalGuestUapiSurface → Prop
  | here {entry : UapiRecord} {rest : List UapiRecord} {s : LocalGuestUapiSurface} :
    DriveCalls (entry :: rest) s entry s
  | later {entry entry' : UapiRecord} {rest : List UapiRecord} {s s' t : LocalGuestUapiSurface}
    {action : RuntimeDriveAction UapiRuntimeFailure}
    (hissue : (issueEntry u64Max entry).run s = (action, s')) (hrest : DriveCalls rest s' entry' t) :
    DriveCalls (entry :: rest) s entry' t

theorem driveAll_ok (hsubject : h.subject = none) (hpolled : h.polled = []) (ready : List UapiRecord)
    (acc : SharedRuntimeQueue (RuntimeWorkItem UapiRuntimePayload) × List UapiRuntimeFailure)
    (hs : Isolated (s.during { h with waiting := acc.1.pending, failing := acc.2, ready })) :
    (∀ entry t, DriveCalls ready s entry t → IssueOk entry t) ∧
      Orderless (driveAll ready acc).run s := by
  induction ready generalizing acc s with
  | nil => exact ⟨fun _ _ hcall => (by cases hcall), fun _ => rfl⟩
  | cons entry ready ih =>
    rcases hissue : (issueEntry u64Max entry).run s with ⟨action, s₁⟩
    -- the invariant holds again for the records that are left
    have hrest : Isolated (s₁.during { h with
        waiting := (SharedRuntimeExecutor.settle u64Max entry acc action).1.pending
        failing := (SharedRuntimeExecutor.settle u64Max entry acc action).2
        ready }) := by
      obtain ⟨hsteps, hconcerns⟩ := issueEntry_steps False
        { h with waiting := acc.1.pending, failing := acc.2 } ready hsubject hpolled hissue
      exact hs.steps (hsteps.trans (settle_steps False { h with ready } acc hconcerns hsubject))
    obtain ⟨hok, horder⟩ := issueEntry_ok
      (h := { h with waiting := acc.1.pending, failing := acc.2 }) hsubject hpolled hs
    obtain ⟨hoks, horders⟩ := ih _ hrest
    refine ⟨fun entry' t hcall => ?_, fun order => ?_⟩
    · cases hcall with
      | here => exact hok
      | later hissue' hcall =>
        cases hissue.symm.trans hissue'
        exact hoks entry' t hcall
    · have hother := horder order
      rw [Ignores, hissue] at hother
      simp only [Ignores, driveAll, List.foldlM_cons, StateT.run_bind, hissue, hother]
      exact horders order

theorem reportFailures_steady (h : Hands) (now : UInt64) (failures : List UapiRuntimeFailure)
    (s : LocalGuestUapiSurface) (hs : Isolated (s.during { h with failing := failures })) :
    Steady (reportFailures now failures) s := by
  induction failures generalizing s with
  | nil => exact steady_pure ()
  | cons failure rest ih =>
    obtain ⟨st, hst⟩ := hs.failing_live List.mem_cons_self
    have hpush := enqueueToCq_ok (s := ticked s) ⟨exhausted now s failure, failure.sub⟩ hst
    have hreport : Step False (s.during { h with failing := failure :: rest })
        ((pushed (ticked s) failure.cq st ⟨exhausted now s failure, failure.sub⟩).during
          { h with failing := rest }) := .report rfl hst (exhausted_unserved now s failure)
    have htail : Steady (do
        enqueueToCq failure.cq ⟨exhausted now s failure, failure.sub⟩
        reportFailures now rest) (ticked s) := by
      refine (enqueueToCq_steady (s := ticked s) _ hst).bind fun _ s' hexec => ih s' ?_
      rw [hpush] at hexec
      cases hexec
      exact hs.step hreport
    exact ⟨htail.ok, htail.orderless⟩

/-- One level of a forced flush. -/
theorem flushRuntimeLevel_steady (hs : Isolated s.flow) :
    Steady (flushRuntimeLevel u64Max) s ∧
      ∀ entry t, DriveCalls s.runtimeQueue.queue.pending (emptied s) entry t → IssueOk entry t := by
  obtain ⟨queue, failures, s₁, hfold, hexec⟩ := flushRuntimeLevel_run s
  have hgather : Step False s.flow
      ((emptied s).during { waiting := [], ready := s.runtimeQueue.queue.pending }) := .gather rfl
  obtain ⟨hcalls, horder⟩ := driveAll_ok (h := { waiting := [] }) rfl rfl
    s.runtimeQueue.queue.pending ({ s.runtimeQueue.queue with pending := [] }, [])
    (hs.step hgather)
  have hdrive := driveAll_steps False { waiting := [] } _ _ _ rfl rfl hfold
  have hreport := reportFailures_steady { waiting := queue.pending } u64Max failures
    { s₁ with runtimeQueue := ⟨queue⟩ } ((hs.step hgather).steps hdrive)
  have htail : Steady (do
      reportFailures u64Max failures
      return !(← get).runtimeQueue.isEmpty) { s₁ with runtimeQueue := ⟨queue⟩ } :=
    hreport.bind fun _ _ _ => ⟨⟨_, rfl⟩, fun _ => rfl⟩
  refine ⟨⟨hexec ▸ htail.ok, fun order => ?_⟩, hcalls⟩
  -- under another order the drive leaves the same queue and the same failures
  obtain ⟨queue', failures', s₁', hfold', hexec'⟩ := flushRuntimeLevel_run (s.reorder order)
  have hother := horder order
  rw [Ignores, hfold] at hother
  cases hother.symm.trans hfold'
  rw [Ignores, hexec, hexec']
  exact htail.orderless order

theorem flushRuntimeFuel_steady (fuel : ℕ) (s : LocalGuestUapiSurface) (hs : Isolated s.flow) :
    Steady (flushRuntimeFuel u64Max fuel) s := by
  induction fuel generalizing s with
  | zero => exact steady_pure ()
  | succ fuel ih =>
    refine (flushRuntimeLevel_steady hs).1.bind fun again s' hexec => ?_
    have hsteps := flushRuntimeLevel_steps False s
    rw [hexec] at hsteps
    cases again with
    | true => exact ih s' (hs.steps hsteps)
    | false => exact steady_pure ()

theorem flushRuntime_steady (hs : Isolated s.flow) : Steady (flushRuntime u64Max) s := by
  have hfuel := flushRuntimeFuel_steady (s.runtimeQueue.queue.maxRetries + 1) s hs
  exact ⟨hfuel.ok, hfuel.orderless⟩

/-- **What a poll does before it looks at its queue is steady.** -/
theorem flush_steady (hs : Isolated s.flow) : Steady (do
    flushRuntime u64Max
    flushServices u64Max) s := by
  refine (flushRuntime_steady hs).bind fun _ s' hexec => ?_
  have hsteps := flushRuntime_steps False s
  -- between the two parts the surface holds nothing in its hands
  rw [hexec] at hsteps
  exact flushServices_calm u64Max _ s' rfl (hs.steps hsteps)

end Uapi

end LinquUb
