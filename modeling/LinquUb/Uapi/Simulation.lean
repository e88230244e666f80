import LinquUb.Uapi.Flow

/-!
# Methods are sequences of moves

The surface refines the flow of submissions: whatever a method returns, it has gone along moves of
`Flow.Step`.  `Uapi/Commands.lean` puts the methods together to commands.

`during hands` is the flow of a surface in the middle of a command that holds `hands`.  Each method
has one lemma that says through which moves it goes.
-/

namespace LinquUb

open Action

/-- What a running command holds, and the runtime queue it works on. -/
structure Hands where
  waiting : List UapiRecord
  batch : List (CqHandle × Submission) := []
  ready : List UapiRecord := []
  subject : Option (CqHandle × Submission) := none
  failing : List UapiRuntimeFailure := []
  polled : List (Owned Submission) := []

namespace LocalGuestUapiSurface

variable (self : LocalGuestUapiSurface)

/-- The completion queue and counter of a service. -/
def services : CompletionSource → ServiceQueue Submission
  | .blockService => self.blockService.toServiceQueue
  | .shmemService => self.shmemService.toServiceQueue
  | .dfsService => self.dfsService.toServiceQueue
  | .dbService => self.dbService.toServiceQueue
  | _ => .empty

/-- The queue depth of a service. -/
def depths : CompletionSource → UInt64
  | .blockService => self.blockService.profile.queueDepth
  | .shmemService => self.shmemService.profile.queueDepth
  | .dfsService => self.dfsService.profile.queueDepth
  | .dbService => self.dbService.profile.queueDepth
  | _ => 0

/-- The flow of the surface while a command holds `hands`. -/
def during (hands : Hands) : Flow :=
  { queues := self.cmdQueues
    cqs := self.cqEvents
    services := self.services
    depths := self.depths
    routes := self.completionRoutes.issued
    rows := self.dbService.rows
    waiting := hands.waiting
    nextCq := self.nextCqId
    nextCmdq := self.nextCmdqId
    tickets := self.tickets
    history := self.history
    batch := hands.batch
    ready := hands.ready
    subject := hands.subject
    failing := hands.failing
    polled := hands.polled }

/-- The flow of the surface between commands. -/
def flow : Flow := self.during { waiting := self.runtimeQueue.queue.pending }

end LocalGuestUapiSurface

namespace Uapi

open Flow (Step Steps Unserved)

variable {s s' : LocalGuestUapiSurface} {h : Hands} {drops : Prop}

/-- The runtime queue stays as it is, and so does the list of refused submissions. -/
def SameQueue (s s' : LocalGuestUapiSurface) : Prop :=
  s'.runtimeQueue = s.runtimeQueue ∧ s'.history.refused = s.history.refused

theorem SameQueue.refl (s : LocalGuestUapiSurface) : SameQueue s s := ⟨rfl, rfl⟩

theorem SameQueue.trans (s t u : LocalGuestUapiSurface) (h : SameQueue s t) (h' : SameQueue t u) :
    SameQueue s u := ⟨h'.1.trans h.1, h'.2.trans h.2⟩

/-- The surface after the service clock has ticked. -/
def ticked (s : LocalGuestUapiSurface) : LocalGuestUapiSurface :=
  { s with serviceClock := s.serviceClock + 1 }

theorem nextServiceTime_exec (s : LocalGuestUapiSurface) :
    exec nextServiceTime s = (.ok (ticked s).serviceClock, ticked s) := rfl

/-! ### Completion queues and routes -/

/-- The surface after a push. -/
def pushed (s : LocalGuestUapiSurface) (cq : CqHandle) (st : CompletionQueueState)
    (entry : Owned Submission) : LocalGuestUapiSurface :=
  { s with
    cqEvents := Finmap.insert cq { st with events := st.events ++ [entry] } s.cqEvents
    history := { s.history with pushes := s.history.pushes ++ [(cq, entry)] } }

theorem enqueueToCq_spec (s : LocalGuestUapiSurface) (cq : CqHandle) (entry : Owned Submission) :
    (∃ st, s.cqEvents.lookup cq = some st ∧
        exec (enqueueToCq cq entry) s = (.ok (), pushed s cq st entry)) ∨
      (s.cqEvents.lookup cq = none ∧
        exec (enqueueToCq cq entry) s = (.error (.notFound "completion queue"), s)) := by
  unfold enqueueToCq
  rw [exec_bind, exec_get]
  cases hcq : s.cqEvents.lookup cq with
  | none => exact .inr ⟨rfl, by simp [hcq]⟩
  | some st => exact .inl ⟨st, rfl, by simp [hcq, pushed]⟩

theorem defaultCq_spec (s : LocalGuestUapiSurface) :
    (∃ cq st, s.cqEvents.lookup cq = some st ∧ exec defaultCq s = (.ok cq, s)) ∨
      ((∀ cq, s.cqEvents.lookup cq = none) ∧
        exec defaultCq s = (.error (.notFound "completion queue"), s)) := by
  unfold defaultCq
  rw [exec_bind, exec_get]
  cases hfirst : s.hashOrder.first s.cqEvents.keys with
  | none =>
    refine .inr ⟨fun cq => ?_, by simp [hfirst]⟩
    by_contra hcq
    obtain ⟨st, hst⟩ := Option.ne_none_iff_exists'.1 hcq
    have hsome := s.hashOrder.first_isSome s.cqEvents.keys
      ⟨cq, Finmap.mem_keys.2 (Finmap.mem_iff.2 ⟨st, hst⟩)⟩
    simp [hfirst] at hsome
  | some cq =>
    have hmem := s.hashOrder.first_mem _ _ hfirst
    obtain ⟨st, hst⟩ := Finmap.mem_iff.1 (Finmap.mem_keys.1 hmem)
    exact .inl ⟨cq, st, hst, by simp [hfirst]⟩

/-- The surface after the route of a completion has been taken out. -/
def unrouted (s : LocalGuestUapiSurface) (entry : Owned Submission) : LocalGuestUapiSurface :=
  { s with
    completionRoutes := ⟨s.completionRoutes.issued.erase entry.event.key⟩
    history := { s.history with
      routings := s.history.routings ++ [⟨entry, s.completionRoutes.issued.lookup entry.event.key⟩] } }

/-- Routing takes the route out of the table first. -/
theorem routeCompletionToCq_exec (s : LocalGuestUapiSurface) (entry : Owned Submission) :
    exec (routeCompletionToCq entry) s =
      exec (do
        let cq ← match s.completionRoutes.issued.lookup entry.event.key with
          | some cq => pure cq
          | none => defaultCq
        enqueueToCq cq entry) (unrouted s entry) := rfl

/-- A completion is routed to the queue its route names, or to a default one; otherwise its route
is lost. -/
theorem routeCompletionToCq_spec (s : LocalGuestUapiSurface) (entry : Owned Submission) :
    (∃ cq st, (s.completionRoutes.issued.lookup entry.event.key = some cq ∨
          s.completionRoutes.issued.lookup entry.event.key = none) ∧
        s.cqEvents.lookup cq = some st ∧
        exec (routeCompletionToCq entry) s = (.ok (), pushed (unrouted s entry) cq st entry)) ∨
      (((∃ cq, s.completionRoutes.issued.lookup entry.event.key = some cq ∧
          s.cqEvents.lookup cq = none) ∨ ∀ cq, s.cqEvents.lookup cq = none) ∧
        exec (routeCompletionToCq entry) s =
          (.error (.notFound "completion queue"), unrouted s entry)) := by
  rw [routeCompletionToCq_exec]
  cases hroute : s.completionRoutes.issued.lookup entry.event.key with
  | none =>
    rcases defaultCq_spec (unrouted s entry) with ⟨cq, st, hcq, hdefault⟩ | ⟨hnone, hdefault⟩
    · rw [exec_bind_ok hdefault]
      rcases enqueueToCq_spec (unrouted s entry) cq entry with ⟨st', hst', hpush⟩ | ⟨hmiss, _⟩
      · exact .inl ⟨cq, st', .inr rfl, hst', hpush⟩
      · rw [hmiss] at hcq
        cases hcq
    · exact .inr ⟨.inr hnone, exec_bind_error hdefault⟩
  | some cq =>
    rcases enqueueToCq_spec (unrouted s entry) cq entry with ⟨st, hst, hpush⟩ | ⟨hmiss, hpush⟩
    · exact .inl ⟨cq, st, .inl rfl, hst, hpush⟩
    · exact .inr ⟨.inl ⟨cq, rfl, hmiss⟩, hpush⟩

/-- Routing the completions that a service handed out: all of them, or up to one that has nowhere
to go. -/
theorem routeAll_steps (drops : Prop) (h : Hands) (events : List (Owned Submission))
    (s : LocalGuestUapiSurface) :
    Steps drops (s.during { h with polled := events })
      ((exec (routeAll events) s).2.during { h with polled := [] }) := by
  induction events generalizing s with
  | nil => exact .refl
  | cons entry rest ih =>
    rcases routeCompletionToCq_spec s entry with ⟨cq, st, hdest, hst, hexec⟩ | ⟨hnone, hexec⟩
    · have hroute : Step drops (s.during { h with polled := entry :: rest })
          ((pushed (unrouted s entry) cq st entry).during { h with polled := rest }) :=
        .route rfl hdest hst
      rw [routeAll, exec_bind_ok hexec]
      exact .head hroute (ih _)
    -- the rest of `events` is dropped with the error
    · rw [routeAll, exec_bind_error hexec]
      exact .single (.strandPolled rfl hnone)

theorem routeAll_sameQueue (events : List (Owned Submission)) :
    Within SameQueue (routeAll events) := by
  induction events with
  | nil => exact within_pure SameQueue.refl ()
  | cons entry rest ih =>
    refine within_bind SameQueue.trans (fun s => ?_) fun _ => ih
    rcases routeCompletionToCq_spec s entry with ⟨_, _, _, _, hexec⟩ | ⟨_, hexec⟩ <;> rw [hexec] <;>
      exact ⟨rfl, rfl⟩

/-! ### The stubs in the flow -/

open ServiceQueue (Accepts Port)

/-- Reading and replacing a stub, seen in the flow: only the service's queue changes, and for the
database the rows. -/
structure Models {stub : Type} (field : ServiceField stub) (port : stub → Port) : Prop where
  source_eq : ∀ st, (port st).source = field.source
  services_eq : ∀ s : LocalGuestUapiSurface, s.services field.source = field.queue (field.get s)
  depths_eq : ∀ s : LocalGuestUapiSurface, s.depths field.source = (port (field.get s)).queueDepth
  sameQueue : ∀ s st, SameQueue s (field.set s st)
  during_set : ∀ (s : LocalGuestUapiSurface) st h, port st = port (field.get s) →
    (field.set s st).during h = { s.during h with
      services := Function.update s.services field.source (field.queue st)
      rows := (field.set s st).dbService.rows }

/-- Proves the last field of `Models`, once the ports are unfolded. -/
theorem during_set_of {s t : LocalGuestUapiSurface} {h : Hands} {source : CompletionSource}
    {q : ServiceQueue Submission} (hservices : t.services = Function.update s.services source q)
    (hdepths : t.depths = s.depths)
    (hrest : t.during h = { s.during h with
      services := t.services, depths := t.depths, rows := t.dbService.rows }) :
    t.during h = { s.during h with
      services := Function.update s.services source q, rows := t.dbService.rows } := by
  rw [hrest, hservices, hdepths]
  rfl

theorem models_block : Models blockField (·.profile.port) := by
  refine ⟨fun _ => rfl, fun _ => rfl, fun _ => rfl, fun _ _ => ⟨rfl, rfl⟩,
    fun s st h hport => during_set_of ?_ ?_ rfl⟩ <;> funext source
  · cases source <;> rfl
  · cases source <;> first | rfl | exact congrArg Port.queueDepth hport

theorem models_shmem : Models shmemField (·.profile.port) := by
  refine ⟨fun _ => rfl, fun _ => rfl, fun _ => rfl, fun _ _ => ⟨rfl, rfl⟩,
    fun s st h hport => during_set_of ?_ ?_ rfl⟩ <;> funext source
  · cases source <;> rfl
  · cases source <;> first | rfl | exact congrArg Port.queueDepth hport

theorem models_dfs : Models dfsField (·.profile.port) := by
  refine ⟨fun _ => rfl, fun _ => rfl, fun _ => rfl, fun _ _ => ⟨rfl, rfl⟩,
    fun s st h hport => during_set_of ?_ ?_ rfl⟩ <;> funext source
  · cases source <;> rfl
  · cases source <;> first | rfl | exact congrArg Port.queueDepth hport

theorem models_db : Models dbField (·.profile.port) := by
  refine ⟨fun _ => rfl, fun _ => rfl, fun _ => rfl, fun _ _ => ⟨rfl, rfl⟩,
    fun s st h hport => during_set_of ?_ ?_ rfl⟩ <;> funext source
  · cases source <;> rfl
  · cases source <;> first | rfl | exact congrArg Port.queueDepth hport

/-! ### Polling the services -/

/-- The method `m` polls a service: it takes some completions from the front of its queue. -/
def Polls (m : Uapi (List (Owned Submission))) : Prop :=
  ∀ s, ∃ events s', exec m s = (.ok events, s') ∧ SameQueue s s' ∧
    ∀ drops h, h.polled = [] → Step drops (s.during h) (s'.during { h with polled := events })

theorem pollService_polls {stub : Type} {field : ServiceField stub} {port : stub → Port}
    (hfield : Models field port) {now : UInt64} {poll : stub → List (Owned Submission) × stub}
    (hpoll : ∀ st, (poll st).1 = ((field.queue st).pollReady now).1 ∧
      field.queue (poll st).2 = ((field.queue st).pollReady now).2 ∧
      port (poll st).2 = port st)
    (hrows : ∀ s, (field.set s (poll (field.get s)).2).dbService.rows = s.dbService.rows) :
    Polls (pollService field poll) := by
  intro s
  refine ⟨_, _, rfl, hfield.sameQueue _ _, fun drops h hpolled => ?_⟩
  obtain ⟨hevents, hqueue, hport⟩ := hpoll (field.get s)
  obtain ⟨taken, hsplit, hready⟩ := drainReady_spec now (field.queue (field.get s)).completions
  have hstep : Step drops (s.during h) { s.during h with
      services := Function.update s.services field.source
        ⟨(drainReady now (field.queue (field.get s)).completions).2,
          (s.services field.source).nextOpId⟩
      polled := taken.map (·.owned) } :=
    .poll hpolled ((congrArg ServiceQueue.completions (hfield.services_eq s)).trans hsplit)
  have hflow : (field.set s (poll (field.get s)).2).during { h with polled := taken.map (·.owned) } =
      { s.during h with
        services := Function.update s.services field.source
          ⟨(drainReady now (field.queue (field.get s)).completions).2,
            (s.services field.source).nextOpId⟩
        polled := taken.map (·.owned) } := by
    rw [hfield.during_set _ _ _ hport, hrows, hqueue, hfield.services_eq]
    rfl
  rw [← hflow] at hstep
  rw [hevents, show ((field.queue (field.get s)).pollReady now).1 = taken.map (·.owned) from hready]
  exact hstep

theorem pollBlock_polls (now : UInt64) : Polls (pollService blockField (·.pollReady now)) :=
  pollService_polls models_block (fun _ => ⟨rfl, rfl, rfl⟩) fun _ => rfl

theorem pollShmem_polls (now : UInt64) : Polls (pollService shmemField (·.pollReady now)) :=
  pollService_polls models_shmem (fun _ => ⟨rfl, rfl, rfl⟩) fun _ => rfl

theorem pollDfs_polls (now : UInt64) : Polls (pollService dfsField (·.pollReady now)) :=
  pollService_polls models_dfs (fun _ => ⟨rfl, rfl, rfl⟩) fun _ => rfl

theorem pollDb_polls (now : UInt64) : Polls (pollService dbField (·.pollReady now)) :=
  pollService_polls models_db (fun _ => ⟨rfl, rfl, rfl⟩) fun _ => rfl

/-- The method goes along moves of the flow, in the middle of any command that has polled
nothing, and leaves the runtime queue alone. -/
def Flows (m : Uapi Unit) : Prop :=
  Within SameQueue m ∧ ∀ drops h s, h.polled = [] →
    Steps drops (s.during h) ((exec m s).2.during h)

theorem Polls.routed {m : Uapi (List (Owned Submission))} (hm : Polls m) :
    Flows (m >>= routeAll) := by
  constructor
  · refine within_bind SameQueue.trans (fun s => ?_) routeAll_sameQueue
    obtain ⟨_, _, hexec, hsame, _⟩ := hm s
    rw [hexec]
    exact hsame
  · intro drops h s hpolled
    obtain ⟨events, s', hexec, _, hstep⟩ := hm s
    rw [exec_bind_ok hexec]
    have hroute := routeAll_steps drops h events s'
    rw [← hpolled] at hroute
    exact .head (hstep drops h hpolled) hroute

theorem Flows.bind {m m' : Uapi Unit} (hm : Flows m) (hm' : Flows m') :
    Flows (m >>= fun _ => m') := by
  refine ⟨within_bind SameQueue.trans hm.1 fun _ => hm'.1, fun drops h s hpolled => ?_⟩
  have hsteps := hm.2 drops h s hpolled
  rcases hexec : exec m s with ⟨result, s'⟩
  rw [hexec] at hsteps
  cases result with
  | ok a =>
    rw [exec_bind_ok hexec]
    exact hsteps.trans (hm'.2 drops h s' hpolled)
  | error e =>
    rw [exec_bind_error hexec]
    exact hsteps

theorem flushServices_flows (now : UInt64) : Flows (flushServices now) := by
  have hflows := (pollBlock_polls now).routed.bind ((pollShmem_polls now).routed.bind
    ((pollDfs_polls now).routed.bind (pollDb_polls now).routed))
  simpa only [flushServices, bind_assoc] using hflows

/-! ### Submitting to a service -/

/-- The method `m` disposes of the subject `sub`: on `Ok` the subject is served or answered, on
`Err` nothing has moved. -/
def Disposes (cq : CqHandle) (sub : Submission) (m : Uapi OpId) : Prop :=
  ∀ s, SameQueue s (exec m s).2 ∧ ∀ drops h, h.subject = some (cq, sub) → h.polled = [] →
    (∀ opId, (exec m s).1 = .ok opId →
      Step drops (s.during h) ((exec m s).2.during { h with subject := none })) ∧
    ∀ e, (exec m s).1 = .error e → (exec m s).2.during h = s.during h

theorem disposes_throw (cq : CqHandle) (sub : Submission) (e : SimError) :
    Disposes cq sub (throw e) :=
  fun _ => ⟨.refl _, fun _ _ _ _ => ⟨fun _ hok => (by cases hok), fun _ _ => rfl⟩⟩

/-- The surface after a service call, given the surface with the new stub in place. -/
def bound (s : LocalGuestUapiSurface) (queue : ServiceQueue Submission)
    (key : RuntimeCompletionKey) (cq : CqHandle) : LocalGuestUapiSurface :=
  { s with
    completionRoutes := s.completionRoutes.issue key.source key.opId cq
    history := { s.history with
      effects := s.history.effects ++ (queue.completions.getLast?.map (·.owned)).toList
      bindings := s.history.bindings ++
        [⟨key, cq, s.completionRoutes.issued.lookup key⟩] } }

/-- The flow after a service call. -/
theorem during_bound {s s₁ : LocalGuestUapiSurface} {h : Hands} {cq : CqHandle}
    {source : CompletionSource} {q : ServiceQueue Submission}
    {item : QueuedCompletion Submission}
    (hqueue : q = ⟨(s.services source).completions ++ [item], (s.services source).nextOpId + 1⟩)
    (hkey : item.event.key = ⟨source, (s.services source).nextOpId + 1⟩)
    (hstub : s₁.during h = { s.during h with
      services := Function.update s.services source q, rows := s₁.dbService.rows }) :
    (bound s₁ q ⟨source, (s.services source).nextOpId + 1⟩ cq).during h =
      (s.during h).serve source cq item s₁.dbService.rows := by
  have hlast : (q.completions.getLast?.map (·.owned)).toList = [item.owned] := by
    simp [hqueue]
  have hbound : (bound s₁ q ⟨source, (s.services source).nextOpId + 1⟩ cq).during h =
      { s₁.during h with
        routes := Finmap.insert ⟨source, (s.services source).nextOpId + 1⟩ cq
          (s₁.during h).routes
        history := { (s₁.during h).history with
          effects := (s₁.during h).history.effects ++ [item.owned]
          bindings := (s₁.during h).history.bindings ++
            [⟨⟨source, (s.services source).nextOpId + 1⟩, cq, (s₁.during h).routes.lookup
              ⟨source, (s.services source).nextOpId + 1⟩⟩] } } := by
    rw [← hlast]
    rfl
  rw [hbound, hstub, ← hkey]
  simp only [Flow.serve, hqueue]
  rfl

/-- A service call that fails leaves only the clock changed. -/
theorem submitToService_exec {stub : Type} (field : ServiceField stub) (cq : CqHandle)
    (submit : UInt64 → stub → Except SimError (ServiceOpHandle × stub)) (s : LocalGuestUapiSurface) :
    exec (submitToService field cq submit) s =
      match submit (ticked s).serviceClock (field.get (ticked s)) with
      | .error e => (.error e, ticked s)
      | .ok (handle, st) => (.ok handle.id,
        bound (field.set (ticked s) st) (field.queue st) ⟨field.source, handle.id⟩ cq) := by
  unfold submitToService
  rw [exec_bind_ok (nextServiceTime_exec s), exec_bind_ok (exec_get (ticked s))]
  cases submit (ticked s).serviceClock (field.get (ticked s)) <;> rfl

/-- A service call that succeeds serves the subject. -/
theorem submitToService_disposes {stub : Type} {field : ServiceField stub} {port : stub → Port}
    (hfield : Models field port) {cq : CqHandle} {sub : Submission}
    {submit : UInt64 → stub → Except SimError (ServiceOpHandle × stub)}
    (hsubmit : ∀ (s : LocalGuestUapiSurface) now handle st,
      submit now (field.get s) = .ok (handle, st) →
        port st = port (field.get s) ∧ ∃ status item,
          Accepts (port (field.get s)) sub status handle (field.queue (field.get s))
            (field.queue st) item ∧
          Flow.Serves s.dbService.rows (field.set s st).dbService.rows item.owned) :
    Disposes cq sub (submitToService field cq submit) := by
  intro s
  let s₁ := ticked s
  rw [submitToService_exec]
  cases hcall : submit s₁.serviceClock (field.get s₁) with
  | error e => exact ⟨⟨rfl, rfl⟩, fun _ _ _ _ => ⟨fun _ hok => (by cases hok), fun _ _ => rfl⟩⟩
  | ok result =>
    obtain ⟨handle, st⟩ := result
    obtain ⟨hport, status, item, haccepts, hrows⟩ := hsubmit s₁ _ _ _ hcall
    refine ⟨hfield.sameQueue s₁ st, fun drops h hsubject hpolled =>
      ⟨fun _ _ => ?_, fun _ he => (by cases he)⟩⟩
    have hservices := hfield.services_eq s₁
    have hkey : item.event.key = ⟨field.source, (s₁.services field.source).nextOpId + 1⟩ := by
      rw [hservices, haccepts.key_eq, hfield.source_eq]
    -- the stub's queue and counter are those that the flow sees for this source
    have hstep : Step drops (s₁.during h) { (s₁.during h).serve field.source cq item
        (field.set s₁ st).dbService.rows with subject := none } := by
      refine .served hsubject hpolled ?_ haccepts.owner_eq hkey hrows
      show (s₁.services field.source).completions.length < (s₁.depths field.source).toNat
      rw [hservices, hfield.depths_eq]
      exact haccepts.room
    rw [← during_bound (haccepts.queue_eq.trans (by rw [hservices])) hkey
      (hfield.during_set s₁ st h hport)] at hstep
    rw [haccepts.handle_eq, ← hservices]
    exact hstep

/-- Submissions other than puts and gets leave the database alone. -/
theorem serves_same {rows : Finmap fun _ : String => UInt64} {entry : Owned Submission}
    {sub : Submission} (howner : entry.owner = sub) (hput : ∀ req, sub.desc ≠ .dbPut req)
    (hget : ∀ req, sub.desc ≠ .dbGet req) : Flow.Serves rows rows entry := by
  subst howner
  exact ⟨fun _ hkey => hkey, fun req h => absurd h (hput req), fun req h => absurd h (hget req)⟩

/-- A completion that is pushed at once answers the subject. -/
theorem enqueueToCq_disposes {cq : CqHandle} {sub : Submission} {event : CompletionEvent}
    {opId : OpId} (hevent : Unserved event) :
    Disposes cq sub (do
      enqueueToCq cq ⟨event, sub⟩
      return opId) := by
  intro s
  rcases enqueueToCq_spec s cq ⟨event, sub⟩ with ⟨st, hst, hexec⟩ | ⟨_, hexec⟩
  · rw [exec_bind_ok hexec]
    exact ⟨⟨rfl, rfl⟩, fun _ _ hsubject _ =>
      ⟨fun _ _ => .answered hsubject hst hevent, fun _ he => (by cases he)⟩⟩
  · rw [exec_bind_error hexec]
    exact ⟨⟨rfl, rfl⟩, fun _ _ _ _ => ⟨fun _ hok => (by cases hok), fun _ _ => rfl⟩⟩

theorem nextServiceTime_disposes {cq : CqHandle} {sub : Submission} {f : UInt64 → Uapi OpId}
    (hf : ∀ now, Disposes cq sub (f now)) : Disposes cq sub (nextServiceTime >>= f) :=
  fun s => hf (s.serviceClock + 1) { s with serviceClock := s.serviceClock + 1 }

theorem submitIoToCq_disposes {req : IoSubmitReq} {sub : Submission} (cq : CqHandle)
    (hdesc : sub.desc = .io req) : Disposes cq sub (submitIoToCq req sub cq) := by
  have hput (r : DbPutReq) : sub.desc ≠ .dbPut r := by simp [hdesc]
  have hget (r : DbGetReq) : sub.desc ≠ .dbGet r := by simp [hdesc]
  have hevent (event : CompletionEvent) (code : String) (hcode : code ≠ "db_missing_key")
      (hstatus : event.status = .success ∨ event.status = .retryableFailure code) :
      Unserved event := by
    rcases hstatus with h | h <;> simp [Unserved, h, hcode]
  unfold submitIoToCq
  cases req.opcode with
  | readBlock =>
    cases req.block with
    | none => exact disposes_throw cq sub _
    | some block =>
      refine submitToService_disposes models_block fun s now handle st h => ?_
      obtain ⟨hprofile, status, item, haccepts⟩ := BlockServiceStub.submitRead_ok h
      exact ⟨congrArg _ hprofile, status, item, haccepts, serves_same haccepts.owner_eq hput hget⟩
  | writeBlock =>
    cases req.block with
    | none => exact disposes_throw cq sub _
    | some block =>
      refine submitToService_disposes models_block fun s now handle st h => ?_
      obtain ⟨hprofile, status, item, haccepts⟩ := BlockServiceStub.submitWrite_ok h
      exact ⟨congrArg _ hprofile, status, item, haccepts, serves_same haccepts.owner_eq hput hget⟩
  | dispatch => exact enqueueToCq_disposes (hevent _ "" (by decide) (.inl rfl))
  | remoteFetch =>
    exact nextServiceTime_disposes fun now =>
      enqueueToCq_disposes (hevent _ "remote_transport_not_available" (by decide) (.inr rfl))
  | remoteStore =>
    exact nextServiceTime_disposes fun now =>
      enqueueToCq_disposes (hevent _ "remote_transport_not_available" (by decide) (.inr rfl))

theorem submitDescriptorToCq_disposes (sub : Submission) (cq : CqHandle) :
    Disposes cq sub (submitDescriptorToCq sub cq) := by
  unfold submitDescriptorToCq
  cases hdesc : sub.desc with
  | io req => exact submitIoToCq_disposes cq hdesc
  | blockWriteback block task =>
    refine submitToService_disposes models_block fun s now handle st h => ?_
    obtain ⟨hprofile, status, item, haccepts⟩ := BlockServiceStub.submitWriteback_ok h
    exact ⟨congrArg _ hprofile, status, item, haccepts,
      serves_same haccepts.owner_eq (by simp [hdesc]) (by simp [hdesc])⟩
  | shmemPut req =>
    refine submitToService_disposes models_shmem fun s now handle st h => ?_
    obtain ⟨hprofile, _, item, haccepts⟩ := ShmemServiceStub.submitAccess_ok h
    exact ⟨congrArg _ hprofile, _, item, haccepts,
      serves_same haccepts.owner_eq (by simp [hdesc]) (by simp [hdesc])⟩
  | shmemGet req =>
    refine submitToService_disposes models_shmem fun s now handle st h => ?_
    obtain ⟨hprofile, _, item, haccepts⟩ := ShmemServiceStub.submitAccess_ok h
    exact ⟨congrArg _ hprofile, _, item, haccepts,
      serves_same haccepts.owner_eq (by simp [hdesc]) (by simp [hdesc])⟩
  | dfsRead req =>
    refine submitToService_disposes models_dfs fun s now handle st h => ?_
    obtain ⟨hprofile, status, item, haccepts⟩ := DfsServiceStub.submitRead_ok h
    exact ⟨congrArg _ hprofile, status, item, haccepts,
      serves_same haccepts.owner_eq (by simp [hdesc]) (by simp [hdesc])⟩
  | dfsWrite req =>
    refine submitToService_disposes models_dfs fun s now handle st h => ?_
    obtain ⟨hprofile, status, item, haccepts⟩ := DfsServiceStub.submitWrite_ok h
    exact ⟨congrArg _ hprofile, status, item, haccepts,
      serves_same haccepts.owner_eq (by simp [hdesc]) (by simp [hdesc])⟩
  | dbPut req =>
    refine submitToService_disposes models_db fun s now handle st h => ?_
    obtain ⟨hprofile, hgrows, status, item, haccepts, hstores⟩ := DbServiceStub.submitPut_ok h
    refine ⟨congrArg _ hprofile, status, item, haccepts, hgrows, fun r hr hsuccess => ?_,
      fun r hr => ?_⟩
    · rw [show item.owned.owner = sub from haccepts.owner_eq, hdesc] at hr
      cases hr
      exact hstores (haccepts.status_eq.symm.trans hsuccess)
    · rw [show item.owned.owner = sub from haccepts.owner_eq, hdesc] at hr
      cases hr
  | dbGet req =>
    refine submitToService_disposes models_db fun s now handle st h => ?_
    obtain ⟨hprofile, hrows, status, item, haccepts, hmisses⟩ := DbServiceStub.submitGet_ok h
    refine ⟨congrArg _ hprofile, status, item, haccepts, fun key hkey => ?_, fun r hr => ?_,
      fun r hr hmissing => ?_⟩
    · show (st.rows.lookup key).isSome
      rw [hrows]
      exact hkey
    · rw [show item.owned.owner = sub from haccepts.owner_eq, hdesc] at hr
      cases hr
    · rw [show item.owned.owner = sub from haccepts.owner_eq, hdesc] at hr
      cases hr
      exact hmisses (haccepts.status_eq.symm.trans hmissing)

/-! ### The runtime queue -/

/-- The submission of a record, with its completion queue. -/
def subjectOf (entry : UapiRecord) : CqHandle × Submission :=
  (entry.payload.payload.cq, entry.payload.payload.sub)

/-- What the flow has as its subject after a drive has decided about `entry`. -/
def remaining (entry : UapiRecord) : RuntimeDriveAction UapiRuntimeFailure →
    Option (CqHandle × Submission)
  | .complete => none
  | .retry _ | .fail _ => some (subjectOf entry)

/-- The decision is about the submission of `entry`, and a retry follows a refusal. -/
def Concerns (entry : UapiRecord) (s : LocalGuestUapiSurface) :
    RuntimeDriveAction UapiRuntimeFailure → Prop
  | .complete => True
  | .retry f => (f.cq, f.sub) = subjectOf entry ∧ f.sub ∈ s.history.refused
  | .fail f => (f.cq, f.sub) = subjectOf entry

/-- The surface after a submission has been refused by its service. -/
def refusing (s : LocalGuestUapiSurface) (sub : Submission) : LocalGuestUapiSurface :=
  { s with history := { s.history with refused := s.history.refused ++ [sub] } }

/-- The four ways in which the callback of a forced flush can go. -/
theorem issueEntry_cases {entry : UapiRecord} {s s' : LocalGuestUapiSurface}
    {action : RuntimeDriveAction UapiRuntimeFailure}
    (hrun : (issueEntry u64Max entry).run s = (action, s')) :
    (∃ opId, action = .complete ∧
        exec (submitDescriptorToCq entry.payload.payload.sub entry.payload.payload.cq) s =
          (.ok opId, s')) ∨
      ∃ e s₁, exec (submitDescriptorToCq entry.payload.payload.sub entry.payload.payload.cq) s =
          (.error e, s₁) ∧
        ((∃ code, isQueueFull code = true ∧ e = .invalidInput code ∧
            action = .retry ⟨entry.payload.payload.cq, code, entry.payload.payload.sub⟩ ∧
            s' = (exec (flushServices u64Max)
              (refusing s₁ entry.payload.payload.sub)).2) ∨
          ∃ code, isQueueFull code = false ∧
            (∀ code', e = .invalidInput code' → isQueueFull code' = false) ∧
            action = .fail ⟨entry.payload.payload.cq, code, entry.payload.payload.sub⟩ ∧
            s' = s₁) := by
  rcases hexec : exec (submitDescriptorToCq entry.payload.payload.sub entry.payload.payload.cq) s
    with ⟨result, s₁⟩
  have hexec' : (submitDescriptorToCq entry.payload.payload.sub entry.payload.payload.cq).run.run s =
    (result, s₁) := hexec
  simp only [issueEntry, StateT.run_bind, hexec'] at hrun
  have hrun : (issueOutcome u64Max entry.payload.payload.cq entry.payload.payload.sub result).run s₁
    = (action, s') := hrun
  cases result with
  | ok opId =>
    cases hrun
    exact .inl ⟨opId, rfl, rfl⟩
  | error e =>
    refine .inr ⟨e, s₁, rfl, ?_⟩
    cases e with
    | invalidInput code =>
      by_cases hfull : isQueueFull code = true
      · simp only [issueOutcome, if_pos hfull] at hrun
        cases hrun
        exact .inl ⟨code, hfull, rfl, rfl, rfl⟩
      · simp only [issueOutcome, if_neg hfull] at hrun
        cases hrun
        have hother : isQueueFull code = false := Bool.not_eq_true _ ▸ hfull
        exact .inr ⟨code, hother, fun _ h => SimError.invalidInput.inj h ▸ hother, rfl, rfl⟩
    | notFound what =>
      cases hrun
      exact .inr ⟨_, by decide, fun _ h => (by cases h), rfl, rfl⟩
    | notImplemented =>
      cases hrun
      exact .inr ⟨_, by decide, fun _ h => (by cases h), rfl, rfl⟩

theorem issueEntry_steps (drops : Prop) (h : Hands) (rest : List UapiRecord) {entry : UapiRecord}
    {s s' : LocalGuestUapiSurface} {action : RuntimeDriveAction UapiRuntimeFailure}
    (hsubject : h.subject = none) (hpolled : h.polled = [])
    (hrun : (issueEntry u64Max entry).run s = (action, s')) :
    Steps drops (s.during { h with ready := entry :: rest })
        (s'.during { h with ready := rest, subject := remaining entry action }) ∧
      Concerns entry s' action := by
  have hpick : Step drops (s.during { h with ready := entry :: rest })
      (s.during { h with ready := rest, subject := some (subjectOf entry) }) :=
    .pick rfl hsubject
  obtain ⟨-, hdispose⟩ :=
    submitDescriptorToCq_disposes entry.payload.payload.sub entry.payload.payload.cq s
  obtain ⟨hok, herror⟩ :=
    hdispose drops { h with ready := rest, subject := some (subjectOf entry) } rfl hpolled
  rcases issueEntry_cases hrun with ⟨opId, rfl, hexec⟩ |
    ⟨e, s₁, hexec, ⟨code, _, _, rfl, rfl⟩ | ⟨code, _, _, rfl, rfl⟩⟩
  · rw [hexec] at hok
    exact ⟨.head hpick (.single (hok opId rfl)), trivial⟩
  · -- refused: note it and flush the services with the subject still in hand
    rw [hexec] at herror
    have hrefuse : Step drops (s₁.during { h with ready := rest, subject := some (subjectOf entry) })
        ((refusing s₁ entry.payload.payload.sub).during
          { h with ready := rest, subject := some (subjectOf entry) }) := .refuse rfl
    rw [herror e rfl] at hrefuse
    obtain ⟨hsame, hflush⟩ := flushServices_flows u64Max
    refine ⟨.head hpick (.head hrefuse (hflush drops _ _ hpolled)), rfl, ?_⟩
    rw [(hsame _).2]
    exact List.mem_append_right _ (List.mem_singleton_self _)
  · rw [hexec] at herror
    refine ⟨?_, rfl⟩
    rw [show remaining entry (.fail ⟨_, code, _⟩) = some (subjectOf entry) from rfl, herror e rfl]
    exact .single hpick

/-- Settling a decision: the subject goes back to the queue, is given up, or was disposed of. -/
theorem settle_steps (drops : Prop) (h : Hands)
    (acc : SharedRuntimeQueue (RuntimeWorkItem UapiRuntimePayload) × List UapiRuntimeFailure)
    {entry : UapiRecord} {s : LocalGuestUapiSurface} {action : RuntimeDriveAction UapiRuntimeFailure}
    (hconcerns : Concerns entry s action) (hsubject : h.subject = none) :
    Steps drops
      (s.during { h with
        waiting := acc.1.pending, failing := acc.2, subject := remaining entry action })
      (s.during { h with
        waiting := (SharedRuntimeExecutor.settle u64Max entry acc action).1.pending
        failing := (SharedRuntimeExecutor.settle u64Max entry acc action).2 }) := by
  obtain ⟨waiting, batch, ready, subject, failing, polled⟩ := h
  cases hsubject
  cases action with
  | complete => exact .refl
  | retry f =>
    obtain ⟨hf, hrefused⟩ := hconcerns
    obtain ⟨hcq, hsub⟩ := Prod.mk.inj hf
    rcases acc.1.retry_spec entry u64Max with ⟨_, hretry⟩ | ⟨_, hretry⟩ <;>
      simp only [SharedRuntimeExecutor.settle, hretry]
    · exact .single (.requeue rfl rfl (hsub ▸ hrefused))
    · exact .single (.giveUp rfl hcq hsub)
  | fail f =>
    obtain ⟨hcq, hsub⟩ := Prod.mk.inj hconcerns
    exact .single (.giveUp rfl hcq hsub)

/-- The loop of a forced flush over the drained records. -/
def driveAll (ready : List UapiRecord)
    (acc : SharedRuntimeQueue (RuntimeWorkItem UapiRuntimePayload) × List UapiRuntimeFailure) :
    StateM LocalGuestUapiSurface
      (SharedRuntimeQueue (RuntimeWorkItem UapiRuntimePayload) × List UapiRuntimeFailure) :=
  ready.foldlM (fun acc entry => do
    return SharedRuntimeExecutor.settle u64Max entry acc (← issueEntry u64Max entry)) acc

theorem driveAll_steps (drops : Prop) (h : Hands) (ready : List UapiRecord)
    (acc acc' : SharedRuntimeQueue (RuntimeWorkItem UapiRuntimePayload) × List UapiRuntimeFailure)
    {s s' : LocalGuestUapiSurface} (hsubject : h.subject = none) (hpolled : h.polled = [])
    (hrun : (driveAll ready acc).run s = (acc', s')) :
    Steps drops (s.during { h with waiting := acc.1.pending, failing := acc.2, ready })
      (s'.during { h with waiting := acc'.1.pending, failing := acc'.2, ready := [] }) := by
  induction ready generalizing acc s with
  | nil =>
    cases hrun
    exact .refl
  | cons entry ready ih =>
    rcases hentry : (issueEntry u64Max entry).run s with ⟨action, s₁⟩
    simp only [driveAll, List.foldlM_cons, StateT.run_bind, hentry] at hrun
    obtain ⟨hissue, hconcerns⟩ := issueEntry_steps drops
      { h with waiting := acc.1.pending, failing := acc.2 } ready hsubject hpolled hentry
    have hsettle := settle_steps drops { h with ready } acc hconcerns hsubject
    -- the record is issued, then settled, and then come the others
    exact (hissue.trans hsettle).trans (ih _ hrun)

/-- The report of a failure that was given up when the clock of the surface was `s`. -/
def exhausted (now : UInt64) (s : LocalGuestUapiSurface) (failure : UapiRuntimeFailure) :
    CompletionEvent :=
  { opId := (ticked s).serviceClock
    task := none
    source := .guestUapi
    status := .retryableFailure ("runtime_exhausted_" ++ failure.code)
    finishedAt := now }

theorem exhausted_unserved (now : UInt64) (s : LocalGuestUapiSurface)
    (failure : UapiRuntimeFailure) : Unserved (exhausted now s failure) := by
  intro hstatus
  have hcode := congrArg (fun t => t.toList.head?) (CompletionStatus.retryableFailure.inj hstatus)
  simp at hcode

theorem reportFailures_cons (now : UInt64) (failure : UapiRuntimeFailure)
    (rest : List UapiRuntimeFailure) (s : LocalGuestUapiSurface) :
    exec (reportFailures now (failure :: rest)) s = exec (do
      enqueueToCq failure.cq ⟨exhausted now s failure, failure.sub⟩
      reportFailures now rest) (ticked s) := rfl

theorem reportFailures_steps (drops : Prop) (h : Hands) (now : UInt64)
    (failures : List UapiRuntimeFailure) (s : LocalGuestUapiSurface) :
    Steps drops (s.during { h with failing := failures })
      ((exec (reportFailures now failures) s).2.during { h with failing := [] }) := by
  induction failures generalizing s with
  | nil => exact .refl
  | cons failure rest ih =>
    rw [reportFailures_cons]
    rcases enqueueToCq_spec (ticked s) failure.cq ⟨exhausted now s failure, failure.sub⟩ with
      ⟨st, hst, hexec⟩ | ⟨hnone, hexec⟩
    · rw [exec_bind_ok hexec]
      have hreport : Step drops (s.during { h with failing := failure :: rest })
          ((pushed (ticked s) failure.cq st ⟨exhausted now s failure, failure.sub⟩).during
            { h with failing := rest }) := .report rfl hst (exhausted_unserved now s failure)
      exact .head hreport (ih _)
    · rw [exec_bind_error hexec]
      exact .single (.strandFailing rfl hnone)

theorem reportFailures_sameQueue (now : UInt64) (failures : List UapiRuntimeFailure) :
    Within SameQueue (reportFailures now failures) := by
  induction failures with
  | nil => exact within_pure SameQueue.refl ()
  | cons failure rest ih =>
    refine within_bind SameQueue.trans (fun s => ⟨rfl, rfl⟩) fun opId =>
      within_bind SameQueue.trans (fun s => ?_) fun _ => ih
    rcases enqueueToCq_spec s failure.cq _ with ⟨_, _, hexec⟩ | ⟨_, hexec⟩ <;> rw [hexec] <;>
      exact ⟨rfl, rfl⟩

/-- The surface while its runtime queue is being driven. -/
def emptied (s : LocalGuestUapiSurface) : LocalGuestUapiSurface :=
  { s with
    runtimeQueue := .withPolicy s.runtimeIssueLatencyUs s.runtimeRetryDelayUs s.runtimeQueueDepth
      s.runtimeMaxRetries }

/-- A forced flush drains the queue, drives what it drained, and reports the failures. -/
theorem flushRuntimeLevel_run (s : LocalGuestUapiSurface) :
    ∃ queue failures s₁,
      (driveAll s.runtimeQueue.queue.pending ({ s.runtimeQueue.queue with pending := [] }, [])).run
        (emptied s) = ((queue, failures), s₁) ∧
      exec (flushRuntimeLevel u64Max) s = exec (do
        reportFailures u64Max failures
        return !(← get).runtimeQueue.isEmpty) { s₁ with runtimeQueue := ⟨queue⟩ } := by
  rcases hfold : (driveAll s.runtimeQueue.queue.pending
    ({ s.runtimeQueue.queue with pending := [] }, [])).run (emptied s) with
    ⟨⟨queue, failures⟩, s₁⟩
  refine ⟨queue, failures, s₁, rfl, ?_⟩
  have hdrive : (s.runtimeQueue.driveReady u64Max (issueEntry u64Max)).run (emptied s) =
      ((failures, true, ⟨queue⟩), s₁) := by
    simp only [driveAll] at hfold
    simp only [SharedRuntimeExecutor.driveReady, SharedRuntimeQueue.drainReady_u64Max,
      StateT.run_bind, hfold]
    rfl
  have hlift : exec (ExceptT.lift (s.runtimeQueue.driveReady u64Max (issueEntry u64Max)))
      (emptied s) = ((.ok (failures, true, ⟨queue⟩) : Except SimError _), s₁) := by
    simp only [exec, ExceptT.run_lift, StateT.run_map, hdrive]
    rfl
  have hrun : exec (flushRuntimeLevel u64Max) s = exec (do
      let driven ← ExceptT.lift (s.runtimeQueue.driveReady u64Max (issueEntry u64Max))
      modify fun s => { s with runtimeQueue := driven.2.2 }
      reportFailures u64Max driven.1
      return driven.2.1 && !(← get).runtimeQueue.isEmpty) (emptied s) := rfl
  rw [hrun, exec_bind_ok hlift]
  rfl

/-- One level of a forced flush. -/
theorem flushRuntimeLevel_steps (drops : Prop) (s : LocalGuestUapiSurface) :
    Steps drops s.flow (exec (flushRuntimeLevel u64Max) s).2.flow := by
  obtain ⟨queue, failures, s₁, hfold, hexec⟩ := flushRuntimeLevel_run s
  have hgather : Step drops s.flow
      (s.during { waiting := [], ready := s.runtimeQueue.queue.pending }) := .gather rfl
  have hdrive := driveAll_steps drops { waiting := [] } _ _ _ rfl rfl hfold
  have hreport := reportFailures_steps drops { waiting := queue.pending } u64Max failures
    { s₁ with runtimeQueue := ⟨queue⟩ }
  have hsame := reportFailures_sameQueue u64Max failures { s₁ with runtimeQueue := ⟨queue⟩ }
  -- gather the queue, drive what was gathered, report what was given up
  refine .head hgather (hdrive.trans ?_)
  rw [hexec]
  rcases hrep : exec (reportFailures u64Max failures) { s₁ with runtimeQueue := ⟨queue⟩ } with
    ⟨result, s₂⟩
  rw [hrep] at hreport hsame
  have hflow : s₂.flow = s₂.during { waiting := queue.pending } := by
    rw [LocalGuestUapiSurface.flow, hsame.1]
  cases result with
  | ok a =>
    rw [exec_bind_ok hrep]
    exact hflow ▸ hreport
  | error e =>
    rw [exec_bind_error hrep]
    exact hflow ▸ hreport

theorem flushRuntime_steps (drops : Prop) (s : LocalGuestUapiSurface) :
    Steps drops s.flow (exec (flushRuntime u64Max) s).2.flow := by
  have hfuel : ∀ fuel s, Steps drops s.flow (exec (flushRuntimeFuel u64Max fuel) s).2.flow := by
    intro fuel
    induction fuel with
    | zero => exact fun _ => .refl
    | succ fuel ih =>
      intro s
      have hlevel := flushRuntimeLevel_steps drops s
      rcases hexec : exec (flushRuntimeLevel u64Max) s with ⟨result, s₁⟩
      rw [hexec] at hlevel
      cases result with
      | ok again =>
        rw [flushRuntimeFuel, exec_bind_ok hexec]
        cases again with
        | true => exact hlevel.trans (ih s₁)
        | false => exact hlevel
      | error e =>
        rw [flushRuntimeFuel, exec_bind_error hexec]
        exact hlevel
  exact hfuel _ s

/-! ### What a flush keeps -/

/-- The calls of a forced flush go along `R`, and so does what it does to the surface itself. -/
structure FlushAlong (R : LocalGuestUapiSurface → LocalGuestUapiSurface → Prop) : Prop where
  refl : ∀ s, R s s
  trans : ∀ s t u, R s t → R t u → R s u
  submit : ∀ sub cq, Within R (submitDescriptorToCq sub cq)
  services : Within R (flushServices u64Max)
  report : ∀ failure s, R s (exec (enqueueToCq failure.cq
    ⟨exhausted u64Max s failure, failure.sub⟩) (ticked s)).2
  refusing : ∀ s sub, R s (refusing s sub)
  queue : ∀ s runtimeQueue, R s { s with runtimeQueue }

namespace FlushAlong

variable {R : LocalGuestUapiSurface → LocalGuestUapiSurface → Prop}

theorem issueEntry (hR : FlushAlong R) {entry : UapiRecord}
    {action : RuntimeDriveAction UapiRuntimeFailure}
    (hrun : (issueEntry u64Max entry).run s = (action, s')) : R s s' := by
  have hsubmit := hR.submit entry.payload.payload.sub entry.payload.payload.cq s
  rcases issueEntry_cases hrun with ⟨_, _, hexec⟩ |
    ⟨_, s₁, hexec, ⟨_, _, _, _, rfl⟩ | ⟨_, _, _, _, rfl⟩⟩ <;> rw [hexec] at hsubmit
  · exact hsubmit
  · exact hR.trans _ _ _ hsubmit (hR.trans _ _ _ (hR.refusing s₁ _) (hR.services _))
  · exact hsubmit

theorem driveAll (hR : FlushAlong R) (ready : List UapiRecord)
    (acc acc' : SharedRuntimeQueue (RuntimeWorkItem UapiRuntimePayload) × List UapiRuntimeFailure)
    (hrun : (driveAll ready acc).run s = (acc', s')) : R s s' := by
  induction ready generalizing acc s with
  | nil =>
    cases hrun
    exact hR.refl _
  | cons entry ready ih =>
    rcases hentry : (Uapi.issueEntry u64Max entry).run s with ⟨action, s₁⟩
    simp only [Uapi.driveAll, List.foldlM_cons, StateT.run_bind, hentry] at hrun
    exact hR.trans _ _ _ (hR.issueEntry hentry) (ih _ hrun)

theorem reportFailures (hR : FlushAlong R) (failures : List UapiRuntimeFailure) :
    Within R (reportFailures u64Max failures) := by
  induction failures with
  | nil => exact within_pure hR.refl ()
  | cons failure rest ih =>
    intro s
    have hreport := hR.report failure s
    rw [reportFailures_cons]
    rcases hexec : exec (enqueueToCq failure.cq ⟨exhausted u64Max s failure, failure.sub⟩)
      (ticked s) with ⟨_ | ⟨⟩, s₁⟩ <;> rw [hexec] at hreport
    · rw [exec_bind_error hexec]
      exact hreport
    · rw [exec_bind_ok hexec]
      exact hR.trans _ _ _ hreport (ih s₁)

theorem flushRuntimeLevel (hR : FlushAlong R) : Within R (flushRuntimeLevel u64Max) := by
  intro s
  obtain ⟨queue, failures, s₁, hfold, hexec⟩ := flushRuntimeLevel_run s
  have hreport : Within R (do
      Uapi.reportFailures u64Max failures
      return !(← get).runtimeQueue.isEmpty) :=
    within_bind hR.trans (hR.reportFailures failures) fun _ s => hR.refl s
  rw [hexec]
  exact hR.trans _ _ _ (hR.queue s _) (hR.trans _ _ _ (hR.driveAll _ _ _ hfold)
    (hR.trans _ _ _ (hR.queue s₁ ⟨queue⟩) (hreport _)))

theorem flushRuntime (hR : FlushAlong R) : Within R (flushRuntime u64Max) := by
  have hfuel (fuel : ℕ) : Within R (flushRuntimeFuel u64Max fuel) := by
    induction fuel with
    | zero => exact within_pure hR.refl ()
    | succ fuel ih =>
      refine within_bind hR.trans hR.flushRuntimeLevel fun again => ?_
      cases again with
      | true => exact ih
      | false => exact within_pure hR.refl ()
  exact fun s => hfuel _ s

end FlushAlong

end Uapi

end LinquUb
