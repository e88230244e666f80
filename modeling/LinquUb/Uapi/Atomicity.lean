import LinquUb.Uapi.Returns

/-!
# Commands that fail

Most commands look at their arguments before they change anything.  Two do not: a doorbell pops its
batch before it knows that the runtime queue has room for it, and a poll flushes before it looks for
its completion queue.

* `LocalGuestUapiSurface.Unchanged` : what an error should leave alone;
* `EarlyErrors` : the state in which a command can fail only before it changes anything;
* `LocalGuestUapiSurface.errors_unchanged_iff` : **a command leaves everything unchanged when it
  fails if and only if its errors are early**.
-/

namespace LinquUb

open Action

namespace LocalGuestUapiSurface

/-- The queues, routes and services stay; counters and the clock may have moved. -/
structure Unchanged (s s' : LocalGuestUapiSurface) : Prop where
  cmdQueues : s'.cmdQueues = s.cmdQueues
  cqEvents : s'.cqEvents = s.cqEvents
  runtimeQueue : s'.runtimeQueue = s.runtimeQueue
  completionRoutes : s'.completionRoutes = s.completionRoutes
  blockService : s'.blockService = s.blockService
  shmemService : s'.shmemService = s.shmemService
  dfsService : s'.dfsService = s.dfsService
  dbService : s'.dbService = s.dbService

theorem Unchanged.refl (s : LocalGuestUapiSurface) : Unchanged s s :=
  ⟨rfl, rfl, rfl, rfl, rfl, rfl, rfl, rfl⟩

theorem Unchanged.trans {s t u : LocalGuestUapiSurface} (h : Unchanged s t) (h' : Unchanged t u) :
    Unchanged s u where
  cmdQueues := h'.cmdQueues.trans h.cmdQueues
  cqEvents := h'.cqEvents.trans h.cqEvents
  runtimeQueue := h'.runtimeQueue.trans h.runtimeQueue
  completionRoutes := h'.completionRoutes.trans h.completionRoutes
  blockService := h'.blockService.trans h.blockService
  shmemService := h'.shmemService.trans h.shmemService
  dfsService := h'.dfsService.trans h.dfsService
  dbService := h'.dbService.trans h.dbService

/-- The completion queues stay, with their owners. -/
def SameOwners (s s' : LocalGuestUapiSurface) : Prop := ∀ cq, s'.flow.cqOwner cq = s.flow.cqOwner cq

theorem SameOwners.refl (s : LocalGuestUapiSurface) : SameOwners s s := fun _ => rfl

theorem SameOwners.trans (s t u : LocalGuestUapiSurface) (h : SameOwners s t)
    (h' : SameOwners t u) : SameOwners s u :=
  fun cq => (h' cq).trans (h cq)

end LocalGuestUapiSurface

namespace Uapi

open Flow (Isolated)
open LocalGuestUapiSurface (Drained SameOwners Unchanged)

variable {s s' : LocalGuestUapiSurface}

/-! ### A flush opens and closes no completion queue -/

theorem pushed_sameOwners {cq : CqHandle} {st : CompletionQueueState} (entry : Owned Submission)
    (hst : s.cqEvents.lookup cq = some st) : SameOwners s (pushed s cq st entry) := by
  have hsame : ({ st with events := st.events ++ [entry] } : CompletionQueueState).owner =
    st.owner := rfl
  exact fun cq' => Flow.lookup_insert_map hst (·.owner) hsame cq'

theorem enqueueToCq_sameOwners (cq : CqHandle) (entry : Owned Submission) :
    Within SameOwners (enqueueToCq cq entry) := by
  intro s
  rcases enqueueToCq_spec s cq entry with ⟨st, hst, hexec⟩ | ⟨-, hexec⟩ <;> rw [hexec]
  · exact pushed_sameOwners entry hst
  · exact .refl s

theorem routeAll_sameOwners (events : List (Owned Submission)) :
    Within SameOwners (routeAll events) := by
  induction events with
  | nil => exact within_pure SameOwners.refl ()
  | cons entry rest ih =>
    refine within_bind SameOwners.trans (fun s => ?_) fun _ => ih
    rcases routeCompletionToCq_spec s entry with ⟨cq, st, -, hst, hexec⟩ | ⟨-, hexec⟩ <;> rw [hexec]
    · exact pushed_sameOwners (s := unrouted s entry) entry hst
    · exact .refl s

theorem flushServices_sameOwners (now : UInt64) : Within SameOwners (flushServices now) := by
  have hblock : Within SameOwners (pollService blockField (·.pollReady now)) := fun _ _ => rfl
  have hshmem : Within SameOwners (pollService shmemField (·.pollReady now)) := fun _ _ => rfl
  have hdfs : Within SameOwners (pollService dfsField (·.pollReady now)) := fun _ _ => rfl
  have hdb : Within SameOwners (pollService dbField (·.pollReady now)) := fun _ _ => rfl
  have h := within_bind SameOwners.trans hblock fun events =>
    within_bind SameOwners.trans (routeAll_sameOwners events) fun _ =>
    within_bind SameOwners.trans hshmem fun events =>
    within_bind SameOwners.trans (routeAll_sameOwners events) fun _ =>
    within_bind SameOwners.trans hdfs fun events =>
    within_bind SameOwners.trans (routeAll_sameOwners events) fun _ =>
    within_bind SameOwners.trans hdb routeAll_sameOwners
  exact h

theorem submitToService_sameOwners {stub : Type} {field : ServiceField stub}
    (hfield : ∀ s st, SameOwners s (field.set s st)) (cq : CqHandle)
    (submit : UInt64 → stub → Except SimError (ServiceOpHandle × stub)) :
    Within SameOwners (submitToService field cq submit) := by
  intro s
  rw [submitToService_exec]
  split
  · exact .refl s
  · exact fun cq' => hfield (ticked s) _ cq'

theorem submitDescriptorToCq_sameOwners (sub : Submission) (cq : CqHandle) :
    Within SameOwners (submitDescriptorToCq sub cq) := by
  have henqueue : ∀ event opId, Within SameOwners (do
      enqueueToCq cq ⟨event, sub⟩
      return opId : Uapi OpId) := fun event opId =>
    within_bind SameOwners.trans (enqueueToCq_sameOwners cq _) fun _ =>
      within_pure SameOwners.refl opId
  have hclock : Within SameOwners nextServiceTime := fun _ _ => rfl
  have hblock : ∀ submit, Within SameOwners (submitToService blockField cq submit) :=
    submitToService_sameOwners (fun _ _ _ => rfl) cq
  have hshmem : ∀ submit, Within SameOwners (submitToService shmemField cq submit) :=
    submitToService_sameOwners (fun _ _ _ => rfl) cq
  have hdfs : ∀ submit, Within SameOwners (submitToService dfsField cq submit) :=
    submitToService_sameOwners (fun _ _ _ => rfl) cq
  have hdb : ∀ submit, Within SameOwners (submitToService dbField cq submit) :=
    submitToService_sameOwners (fun _ _ _ => rfl) cq
  unfold submitDescriptorToCq
  cases sub.desc with
  | io req =>
    simp only [submitIoToCq]
    split
    · split
      · exact within_throw SameOwners.refl _
      · exact hblock _
    · split
      · exact within_throw SameOwners.refl _
      · exact hblock _
    · exact henqueue _ _
    all_goals exact within_bind SameOwners.trans hclock fun now => henqueue _ _
  | blockWriteback block task => exact hblock _
  | shmemPut req | shmemGet req => exact hshmem _
  | dfsRead req | dfsWrite req => exact hdfs _
  | dbPut req | dbGet req => exact hdb _

theorem flushRuntime_sameOwners : Within SameOwners (flushRuntime u64Max) := by
  have halong : FlushAlong SameOwners :=
    { refl := SameOwners.refl
      trans := SameOwners.trans
      submit := submitDescriptorToCq_sameOwners
      services := flushServices_sameOwners u64Max
      report := fun failure s => enqueueToCq_sameOwners failure.cq _ (ticked s)
      refusing := fun s _ => .refl s
      queue := fun s _ => .refl s }
  exact halong.flushRuntime

theorem flush_sameOwners : Within SameOwners (do
    flushRuntime u64Max
    flushServices u64Max) :=
  within_bind SameOwners.trans flushRuntime_sameOwners fun _ => flushServices_sameOwners u64Max

/-! ### Submissions and queue commands -/

theorem ticked_unchanged (s : LocalGuestUapiSurface) : Unchanged s (ticked s) :=
  ⟨rfl, rfl, rfl, rfl, rfl, rfl, rfl, rfl⟩

theorem enqueueToCq_atomic (cq : CqHandle) (entry : Owned Submission) (s : LocalGuestUapiSurface) :
    Atomic Unchanged (enqueueToCq cq entry) s := by
  intro e s' h
  rcases enqueueToCq_spec s cq entry with ⟨st, -, hexec⟩ | ⟨-, hexec⟩ <;> rw [hexec] at h <;> cases h
  exact .refl s

/-- A service that refuses has not been touched. -/
theorem submitToService_atomic {stub : Type} (field : ServiceField stub) (cq : CqHandle)
    (submit : UInt64 → stub → Except SimError (ServiceOpHandle × stub)) (s : LocalGuestUapiSurface) :
    Atomic Unchanged (submitToService field cq submit) s := by
  intro e s' h
  rw [submitToService_exec] at h
  split at h <;> cases h
  exact ticked_unchanged s

theorem submitDescriptorToCq_atomic (sub : Submission) (cq : CqHandle) (s : LocalGuestUapiSurface) :
    Atomic Unchanged (submitDescriptorToCq sub cq) s := by
  have henqueue : ∀ event opId s, Atomic Unchanged (do
      enqueueToCq cq ⟨event, sub⟩
      return opId : Uapi OpId) s := fun event opId s =>
    (atomic_map_iff fun _ => opId).2 (enqueueToCq_atomic cq _ s)
  unfold submitDescriptorToCq
  cases sub.desc with
  | io req =>
    simp only [submitIoToCq]
    split
    · split
      · exact atomic_throw (.refl s) _
      · exact submitToService_atomic blockField cq _ s
    · split
      · exact atomic_throw (.refl s) _
      · exact submitToService_atomic blockField cq _ s
    · exact henqueue _ _ s
    all_goals
      -- the clock has ticked before the completion is pushed
      intro e s' h
      rw [exec_bind_ok (nextServiceTime_exec s)] at h
      exact (ticked_unchanged s).trans (henqueue _ _ (ticked s) e s' h)
  | _ => exact submitToService_atomic _ cq _ s

theorem submitDirect_atomic (desc : UapiDescriptor) (s : LocalGuestUapiSurface) :
    Atomic Unchanged (submitDirect desc) s := by
  intro e s' h
  rcases defaultCq_spec s with ⟨cq, st, -, hexec⟩ | ⟨-, hexec⟩
  -- the ticket is taken before the service is asked
  · let s₁ := { s with tickets := s.tickets + 1 }
    have henter : exec (enter desc none) s = (.ok ⟨desc, s.tickets, none⟩, s₁) := rfl
    have hentered : Unchanged s s₁ := ⟨rfl, rfl, rfl, rfl, rfl, rfl, rfl, rfl⟩
    rw [submitDirect, exec_bind_ok hexec, exec_bind_ok henter] at h
    exact hentered.trans (submitDescriptorToCq_atomic _ cq s₁ e s' h)
  · rw [submitDirect, exec_bind_error hexec] at h
    cases h
    exact .refl s

theorem createSegment_atomic (bytes : UInt64) (s : LocalGuestUapiSurface) :
    Atomic Unchanged (createSegment bytes) s := by
  intro e s' h
  rcases createSegment_spec bytes s with ⟨_, _, hexec, rfl | rfl⟩ | ⟨_, _, hexec⟩ <;>
    rw [hexec] at h <;> cases h
  · exact .refl s'
  -- the id was taken before the segment was registered
  · exact ⟨rfl, rfl, rfl, rfl, rfl, rfl, rfl, rfl⟩

theorem createCmdQueue_atomic (cq : CqHandle) (owner : EntityId) (depth : ℕ)
    (s : LocalGuestUapiSurface) : Atomic Unchanged (createCmdQueue cq owner depth) s := by
  intro e s' h
  rcases createCmdQueue_spec cq owner depth s with ⟨_, hexec⟩ | ⟨_, _, _, hexec⟩ <;>
    rw [hexec] at h <;> cases h
  exact .refl s

theorem enqueueCmd_atomic (cmdq : CmdQueueHandle) (owner : EntityId) (desc : UapiDescriptor)
    (s : LocalGuestUapiSurface) : Atomic Unchanged (enqueueCmd cmdq owner desc) s := by
  intro e s' h
  rcases enqueueCmd_cases cmdq owner desc s with ⟨_, hexec⟩ | ⟨_, _, _, _, hexec⟩ <;>
    rw [hexec] at h <;> cases h
  exact .refl s

theorem getHealth_atomic (entity : EntityId) (s : LocalGuestUapiSurface) :
    Atomic Unchanged (getHealth entity) s := by
  intro e s' h
  obtain rfl : s = s' := (getHealth_state entity s).symm.trans (congrArg Prod.snd h)
  exact .refl s

/-! ### Doorbells -/

/-- A doorbell pops its batch first; it is atomic exactly if the batch fits. -/
theorem ringDoorbell_atomic_iff (cmdq : CmdQueueHandle) (owner : EntityId) (maxBatch : Option ℕ)
    (s : LocalGuestUapiSurface) : Atomic Unchanged (ringDoorbell cmdq owner maxBatch) s ↔
      DoorbellFits s (.ringDoorbell cmdq owner maxBatch) := by
  rcases doorbell_cases s cmdq owner with ⟨queue, hq, rfl⟩ | hforeign
  · let n := batchSize maxBatch queue
    let s₁ := popped s cmdq queue n
    have hrun := ringDoorbell_exec maxBatch hq
    have hfits : DoorbellFits s (.ringDoorbell cmdq queue.owner maxBatch) ↔
        n ≤ s.runtimeQueue.queue.queueDepth - s.runtimeQueue.queue.pending.length := by
      simp [DoorbellFits, hq, n]
    have hlen : (queue.pending.take n).length = n := by
      rw [List.length_take]
      exact Nat.min_eq_left (Nat.min_le_right ..)
    obtain ⟨hiff, -, hsame, -⟩ := stageAll_spec queue.cq (queue.pending.take n) s₁
    rw [hlen] at hiff
    rw [hfits]
    rcases hstage : exec (stageAll queue.cq (queue.pending.take n)) s₁ with ⟨e | ⟨⟩, s₂⟩
    -- the batch does not fit
    · rw [hstage] at hiff hsame
      have hover : ¬n ≤ s.runtimeQueue.queue.queueDepth - s.runtimeQueue.queue.pending.length :=
        fun h => (by cases hiff.1 h)
      refine ⟨fun hatomic => ?_, fun h => absurd h hover⟩
      rw [exec_bind_error hstage] at hrun
      -- the queue would still have to hold what was popped
      have hpopped : Finmap.insert cmdq { queue with pending := queue.pending.drop n }
        s.cmdQueues = s.cmdQueues := hsame.symm.trans (hatomic e s₂ hrun).cmdQueues
      have hqueue := Finmap.lookup_insert (b := { queue with pending := queue.pending.drop n })
        (a := cmdq) s.cmdQueues
      rw [hpopped, hq] at hqueue
      have hdrop := congrArg (fun st => st.pending.length) (Option.some.inj hqueue)
      simp only [List.length_drop] at hdrop
      have hle : n ≤ queue.pending.length := Nat.min_le_right ..
      omega
    · rw [hstage] at hiff
      refine ⟨fun _ => hiff.2 rfl, fun _ e s' h => ?_⟩
      rw [hrun, exec_bind_ok hstage] at h
      cases h
  · obtain ⟨e, hexec⟩ := ringDoorbell_foreign maxBatch hforeign
    refine ⟨fun _ queue hqueue howner => absurd howner (hforeign queue hqueue), fun _ e s' h => ?_⟩
    rw [hexec] at h
    cases h
    exact .refl s

/-! ### Polls -/

theorem pollService_idle {stub : Type} {field : ServiceField stub}
    {poll : stub → List (Owned Submission) × stub} (hpoll : poll (field.get s) = ([], field.get s))
    (hset : field.set s (field.get s) = s) :
    exec (pollService field poll >>= routeAll) s = (.ok (), s) := by
  have hexec : exec (pollService field poll) s =
    (.ok (poll (field.get s)).1, field.set s (poll (field.get s)).2) := rfl
  rw [hpoll, hset] at hexec
  rw [exec_bind_ok hexec]
  rfl

/-- A forced flush that finds nothing does nothing. -/
theorem flush_idle (hs : s.Drained) : exec (do
    flushRuntime u64Max
    flushServices u64Max) s = (.ok (), s) := by
  have hpending : s.runtimeQueue.queue.pending = [] := List.isEmpty_iff.1 hs.runtime
  have hlevel : exec (flushRuntimeLevel u64Max) s = (.ok false, s) := by
    obtain ⟨queue, failures, s₁, hfold, hexec⟩ := flushRuntimeLevel_run s
    rw [hpending] at hfold
    cases hfold
    have hsame : { emptied s with
        runtimeQueue := ⟨{ s.runtimeQueue.queue with pending := [] }⟩ } = s := by
      rw [← hpending]
      rfl
    rw [hexec, hsame, reportFailures, exec_bind_ok (exec_pure () s), exec_bind_ok (exec_get s),
      exec_pure, hs.runtime]
    rfl
  have hruntime : exec (flushRuntime u64Max) s = (.ok (), s) := by
    rw [flushRuntime, exec_bind_ok (exec_get s), flushRuntimeFuel, exec_bind_ok hlevel]
    rfl
  have hblock : s.blockService.pollReady u64Max = ([], s.blockService) := by
    rw [BlockServiceStub.pollReady, ServiceQueue.pollReady_idle hs.block]
  have hshmem : s.shmemService.pollReady u64Max = ([], s.shmemService) := by
    rw [ShmemServiceStub.pollReady, ServiceQueue.pollReady_idle hs.shmem]
  have hdfs : s.dfsService.pollReady u64Max = ([], s.dfsService) := by
    rw [DfsServiceStub.pollReady, ServiceQueue.pollReady_idle hs.dfs]
  have hdb : s.dbService.pollReady u64Max = ([], s.dbService) := by
    rw [DbServiceStub.pollReady, ServiceQueue.pollReady_idle hs.db]
  have hservices : exec (do
      pollService blockField (·.pollReady u64Max) >>= routeAll
      pollService shmemField (·.pollReady u64Max) >>= routeAll
      pollService dfsField (·.pollReady u64Max) >>= routeAll
      pollService dbField (·.pollReady u64Max) >>= routeAll) s = (.ok (), s) := by
    rw [exec_bind_ok (pollService_idle hblock rfl),
      exec_bind_ok (pollService_idle hshmem rfl), exec_bind_ok (pollService_idle hdfs rfl)]
    exact pollService_idle hdb rfl
  rw [exec_bind_ok hruntime, ← hservices]
  simp only [flushServices, bind_assoc]

/-- A poll is atomic exactly if it cannot fail, or flushes nothing. -/
theorem pollCqWithOwner_atomic_iff (hs : Isolated s.flow) (cq : CqHandle) (owner : EntityId)
    (maxEntries : Option ℕ) : Atomic Unchanged (pollCqWithOwner cq owner maxEntries) s ↔
      (s.cqEvents.lookup cq).map (·.owner) = some owner ∨ s.Drained := by
  obtain ⟨s₁, hflush, hdrained⟩ := flush_drains hs
  have howners := flush_sameOwners s cq
  rw [hflush] at howners
  have hpoll := pollCqWithOwner_exec cq owner maxEntries hflush
  constructor
  · intro hatomic
    rcases hpoll with ⟨queue, n, hq, howner, -⟩ | ⟨-, e, hfails⟩
    · refine .inl (howners.symm.trans ?_)
      exact Option.map_eq_some_iff.2 ⟨queue, hq, howner⟩
    · -- the failing poll has drained everything, so everything was drained before
      have hsame := hatomic e s₁ hfails
      exact .inr ⟨hsame.runtimeQueue ▸ hdrained.runtime, hsame.blockService ▸ hdrained.block,
        hsame.shmemService ▸ hdrained.shmem, hsame.dfsService ▸ hdrained.dfs,
        hsame.dbService ▸ hdrained.db⟩
  · rintro (howner | hidle) e s' hfails
    · rcases hpoll with ⟨queue, n, -, -, hok⟩ | ⟨hnone, -⟩
      · cases hok.symm.trans hfails
      · obtain ⟨queue, hq, hqueue⟩ := Option.map_eq_some_iff.1 (howners.trans howner)
        exact absurd hqueue (hnone queue hq)
    · cases hflush.symm.trans (flush_idle hidle)
      rcases hpoll with ⟨queue, n, -, -, hok⟩ | ⟨-, e', hfails'⟩
      · cases hok.symm.trans hfails
      · cases hfails'.symm.trans hfails
        exact .refl s

/-- The command can fail only before it changes anything: a doorbell's batch fits into the runtime
queue, and a poll names a completion queue of its owner, or has nothing to flush. -/
def EarlyErrors (s : LocalGuestUapiSurface) : UapiCommand → Prop
  | .ringDoorbell cmdq owner maxBatch => DoorbellFits s (.ringDoorbell cmdq owner maxBatch)
  | .pollCq cq owner _ | .drainCq cq owner =>
    (s.cqEvents.lookup cq).map (·.owner) = some owner ∨ s.Drained
  | _ => True

theorem execute_atomic_iff (hs : Isolated s.flow) (cmd : UapiCommand) :
    Atomic Unchanged (execute cmd) s ↔ EarlyErrors s cmd := by
  have hiff : ∀ {α : Type} {m : Uapi α} (f : α → UapiResponse), Atomic Unchanged m s →
      (Atomic Unchanged (do return f (← m)) s ↔ True) := fun f hm =>
    iff_true_intro ((atomic_map_iff f).2 hm)
  cases cmd with
  | queryTopology => exact iff_true_intro fun _ _ h => (by cases h)
  | createSegment bytes => exact hiff _ (createSegment_atomic bytes s)
  | registerCq owner => exact hiff _ fun _ _ h => (by cases h)
  | createCmdQueue cq owner depth => exact hiff _ (createCmdQueue_atomic cq owner depth s)
  | enqueueCmd cmdq owner desc => exact hiff _ (enqueueCmd_atomic cmdq owner desc s)
  | ringDoorbell cmdq owner maxBatch =>
    exact (atomic_map_iff _).trans (ringDoorbell_atomic_iff cmdq owner maxBatch s)
  | submitIo req => exact hiff _ (submitDirect_atomic _ s)
  | submitBlockWriteback block task => exact hiff _ (submitDirect_atomic _ s)
  | submitShmemPut req | submitShmemGet req => exact hiff _ (submitDirect_atomic _ s)
  | submitDfsRead req | submitDfsWrite req => exact hiff _ (submitDirect_atomic _ s)
  | submitDbPut req | submitDbGet req => exact hiff _ (submitDirect_atomic _ s)
  | pollCq cq owner maxEntries =>
    exact (atomic_map_iff _).trans (pollCqWithOwner_atomic_iff hs cq owner maxEntries)
  | drainCq cq owner => exact (atomic_map_iff _).trans (pollCqWithOwner_atomic_iff hs cq owner none)
  | getHealth entity => exact hiff _ (getHealth_atomic entity s)

end Uapi

namespace LocalGuestUapiSurface

open Uapi

/-- **Atomicity of errors**: a command that fails in a reachable state leaves everything unchanged
if and only if its errors come early. -/
theorem errors_unchanged_iff (config : Config) (cmds : List UapiCommand) (cmd : UapiCommand) :
    let s := (withProfilesAndRuntimePolicy config).run cmds
    (∀ e s', s.execute cmd = (.error e, s') → Unchanged s s') ↔ EarlyErrors s cmd :=
  execute_atomic_iff (run_isolated config cmds) cmd

/-- A poll of the queue of another owner fails, but has driven the runtime queue. -/
theorem foreign_poll_drives :
    ¬∀ config cmds cmd e s', ((withProfilesAndRuntimePolicy config).run cmds).execute cmd =
      (.error e, s') → Unchanged ((withProfilesAndRuntimePolicy config).run cmds) s' := by
  intro hatomic
  have hdriven : (((withProfilesAndRuntimePolicy (.sample 16 2)).run twoGets).execute
      (.pollCq ⟨1⟩ 2 none)).2.runtimeQueue.isEmpty ≠
      ((withProfilesAndRuntimePolicy (.sample 16 2)).run twoGets).runtimeQueue.isEmpty := by
    decide +kernel
  have hfails : (((withProfilesAndRuntimePolicy (.sample 16 2)).run twoGets).execute
      (.pollCq ⟨1⟩ 2 none)).1 = .error (.invalidInput "completion queue owner mismatch") := by
    decide +kernel
  have hsame := hatomic (.sample 16 2) twoGets (.pollCq ⟨1⟩ 2 none)
  generalize (withProfilesAndRuntimePolicy (.sample 16 2)).run twoGets = s at hdriven hfails hsame
  generalize s.execute (.pollCq ⟨1⟩ 2 none) = result at hdriven hfails hsame
  obtain ⟨_, s'⟩ := result
  cases hfails
  exact hdriven (congrArg (·.isEmpty) (hsame _ s' rfl).runtimeQueue)

end LocalGuestUapiSurface

end LinquUb
