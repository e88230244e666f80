import LinquUb.Uapi.ForceFlush

/-!
# Requests one at a time

A guest that drains its completion queue after every request cannot tell the surface from a
directory that answers at once.

* `Directory` : the names that the data services know, and `Directory.serve`, which answers a
  request;
* `AtRest` : nothing is on its way, and there is one completion queue;
* `LocalGuestUapiSurface.ask` : a request, and a drain;
* `LocalGuestUapiSurface.askAll_answers` : **every request gets one answer, which is the
  directory's**.
-/

namespace LinquUb

open Action

/-! ### The directory -/

/-- The part of a completion that does not depend on time. -/
structure Answer where
  task : Option TaskKey
  source : CompletionSource
  status : CompletionStatus
deriving DecidableEq

def CompletionEvent.answer (event : CompletionEvent) : Answer :=
  ⟨event.task, event.source, event.status⟩

/-- The names that the data services know. -/
structure Directory where
  blocks : Finset BlockHash
  segments : Finmap fun _ : SegmentHandle => SegmentMeta
  files : Finset String
  rows : Finset String

/-- What does not change. -/
structure Limits where
  depths : CompletionSource → UInt64
  peerCount : EntityId
  maxBytes : UInt64

/-- The service has no room for a single request. -/
def Limits.Closed (limits : Limits) (source : CompletionSource) : Prop :=
  source ∈ [.blockService, .shmemService, .dfsService, .dbService] ∧ limits.depths source = 0

instance (limits : Limits) (source : CompletionSource) : Decidable (limits.Closed source) :=
  inferInstanceAs (Decidable (_ ∧ _))

namespace Directory

variable (limits : Limits) (d : Directory)

/-- The answer to a request that needs a name. -/
def found (known : Prop) [Decidable known] (code : String) : CompletionStatus :=
  if known then .success else .retryableFailure code

def access (requester : EntityId) (segment : SegmentHandle) (bytes : UInt64) : CompletionStatus :=
  match d.segments.lookup segment with
  | none => .retryableFailure "missing_segment"
  | some seg =>
    if bytes > seg.bytes then .retryableFailure "short_segment"
    else if requester ≠ seg.ownerEntity ∧ requester ≥ limits.peerCount then
      .fatalFailure "shmem_access_denied"
    else .success

/-- Which service answers a request, what it answers, and what is known afterwards. -/
def serve : UapiDescriptor → Option (CompletionSource × CompletionStatus) × Directory
  | .io req =>
    match req.opcode, req.block with
    | .readBlock, some block => (some (.blockService, found (block ∈ d.blocks) "block_miss"), d)
    | .writeBlock, some block =>
      (some (.blockService, .success), { d with blocks := insert block d.blocks })
    | .readBlock, none | .writeBlock, none => (none, d)
    | .dispatch, _ => (some (.guestUapi, .success), d)
    | .remoteFetch, _ | .remoteStore, _ =>
      (some (.remoteNode, .retryableFailure "remote_transport_not_available"), d)
  | .blockWriteback block _ =>
    (some (.blockService, found (block ∈ d.blocks) "writeback_missing_block"), d)
  | .shmemPut req =>
    (some (.shmemService, d.access limits req.requesterEntity req.segment req.bytes), d)
  | .shmemGet req =>
    (some (.shmemService, d.access limits req.requesterEntity req.segment req.bytes), d)
  | .dfsRead req => (some (.dfsService, found (req.path ∈ d.files) "missing_path"), d)
  | .dfsWrite req => (some (.dfsService, .success), { d with files := insert req.path d.files })
  | .dbPut req =>
    if req.bytes > limits.maxBytes then
      (some (.dbService, .retryableFailure "db_batch_limit_exceeded"), d)
    else (some (.dbService, .success), { d with rows := insert req.key d.rows })
  | .dbGet req => (some (.dbService, found (req.key ∈ d.rows) "db_missing_key"), d)

/-- A service without room for a single request refuses all of them. -/
def answer (desc : UapiDescriptor) : Option Answer × Directory :=
  match (d.serve limits desc).1 with
  | some (source, status) =>
    if limits.Closed source then (none, d)
    else (some ⟨runtimeTaskForDescriptor desc, source, status⟩, (d.serve limits desc).2)
  | none => (none, d)

def answerAll (d : Directory) : List UapiDescriptor → List (Option Answer) × Directory
  | [] => ([], d)
  | desc :: descs =>
    let (first, d) := d.answer limits desc
    let (rest, d) := answerAll d descs
    (first :: rest, d)

theorem answerAll_append (d : Directory) (descs descs' : List UapiDescriptor) :
    d.answerAll limits (descs ++ descs') =
      ((d.answerAll limits descs).1 ++ ((d.answerAll limits descs).2.answerAll limits descs').1,
        ((d.answerAll limits descs).2.answerAll limits descs').2) := by
  induction descs generalizing d with
  | nil => rfl
  | cons desc descs ih => simp only [List.cons_append, answerAll, ih]

variable {limits d} in
theorem answer_eq {desc : UapiDescriptor} {source : CompletionSource} {status : CompletionStatus}
    {d' : Directory} (hserve : d.serve limits desc = (some (source, status), d'))
    (hsource : source ∈ [.blockService, .shmemService, .dfsService, .dbService]) :
    d.answer limits desc = if limits.depths source = 0 then (none, d)
      else (some ⟨runtimeTaskForDescriptor desc, source, status⟩, d') := by
  simp only [answer, hserve, Limits.Closed, hsource, true_and]

end Directory

/-! ### Requests -/

/-- The command of a direct submission. -/
def UapiDescriptor.command : UapiDescriptor → UapiCommand
  | .io req => .submitIo req
  | .blockWriteback block task => .submitBlockWriteback block task
  | .shmemPut req => .submitShmemPut req
  | .shmemGet req => .submitShmemGet req
  | .dfsRead req => .submitDfsRead req
  | .dfsWrite req => .submitDfsWrite req
  | .dbPut req => .submitDbPut req
  | .dbGet req => .submitDbGet req

namespace LocalGuestUapiSurface

variable (s : LocalGuestUapiSurface) (cq : CqHandle) (owner : EntityId)

def directory : Directory where
  blocks := s.blockService.blocks.keys
  segments := s.shmemService.segments
  files := s.dfsService.files.keys
  rows := s.dbService.rows.keys

def limits : Limits where
  depths := s.depths
  peerCount := s.shmemService.profile.peerCount
  maxBytes := s.dbService.maxBytes

/-- Submit a request and drain the completion queue, whatever the submission returns. -/
def ask (desc : UapiDescriptor) : List CompletionEvent × LocalGuestUapiSurface :=
  match (s.execute desc.command).2.execute (.drainCq cq owner) with
  | (.ok (.completions events _), s) => (events, s)
  | (_, s) => ([], s)

def askAll (s : LocalGuestUapiSurface) :
    List UapiDescriptor → List (List CompletionEvent) × LocalGuestUapiSurface
  | [] => ([], s)
  | desc :: descs =>
    let (first, s) := s.ask cq owner desc
    let (rest, s) := askAll s descs
    (first :: rest, s)

/-- The completions that a flush hands out. -/
def waiting : List (Owned Submission) :=
  s.blockService.completions.map (·.owned) ++ s.shmemService.completions.map (·.owned) ++
    s.dfsService.completions.map (·.owned) ++ s.dbService.completions.map (·.owned)

/-- Nothing waits, and the only completion queue is empty. -/
structure AtRest : Prop where
  runtime : s.runtimeQueue.queue.pending = []
  waiting : s.waiting = []
  keys : s.cqEvents.keys = {cq}
  queue : s.cqEvents.lookup cq = some ⟨owner, []⟩

end LocalGuestUapiSurface

namespace Uapi

open LocalGuestUapiSurface (AtRest)

variable {s s' : LocalGuestUapiSurface} {cq : CqHandle} {owner : EntityId}

/-! ### A drain -/

theorem flushRuntime_idle (hruntime : s.runtimeQueue.queue.pending = []) :
    exec (flushRuntime u64Max) s = (.ok (), s) := by
  have hlevel : exec (flushRuntimeLevel u64Max) s = (.ok false, s) := by
    obtain ⟨queue, failures, s₁, hfold, hexec⟩ := flushRuntimeLevel_run s
    rw [hruntime] at hfold
    cases hfold
    rw [hexec]
    have hsame : { emptied s with
        runtimeQueue := ⟨{ s.runtimeQueue.queue with pending := [] }⟩ } = s := by
      rw [← hruntime]
      rfl
    rw [hsame, reportFailures, exec_bind_ok (exec_pure () s), exec_bind_ok (exec_get s), exec_pure,
      SharedRuntimeExecutor.isEmpty, SharedRuntimeQueue.isEmpty, hruntime]
    rfl
  rw [flushRuntime, exec_bind_ok (exec_get s), flushRuntimeFuel, exec_bind_ok hlevel]
  rfl

theorem pollService_exec {stub : Type} (field : ServiceField stub)
    {poll : stub → List (Owned Submission) × stub} {events : List (Owned Submission)} {st : stub}
    (hpoll : poll (field.get s) = (events, st)) :
    exec (pollService field poll) s = (.ok events, field.set s st) := by
  have hexec : exec (pollService field poll) s =
      (.ok (poll (field.get s)).1, field.set s (poll (field.get s)).2) := rfl
  rw [hexec, hpoll]

theorem pollBlock_exec (s : LocalGuestUapiSurface) :
    exec (pollService blockField (·.pollReady u64Max)) s =
      (.ok (s.blockService.completions.map (·.owned)), { s with blockService.completions := [] }) :=
  pollService_exec blockField (by
    simp only [blockField, BlockServiceStub.pollReady, ServiceQueue.pollReady, drainReady_u64Max])

theorem pollShmem_exec (s : LocalGuestUapiSurface) :
    exec (pollService shmemField (·.pollReady u64Max)) s =
      (.ok (s.shmemService.completions.map (·.owned)), { s with shmemService.completions := [] }) :=
  pollService_exec shmemField (by
    simp only [shmemField, ShmemServiceStub.pollReady, ServiceQueue.pollReady, drainReady_u64Max])

theorem pollDfs_exec (s : LocalGuestUapiSurface) :
    exec (pollService dfsField (·.pollReady u64Max)) s =
      (.ok (s.dfsService.completions.map (·.owned)), { s with dfsService.completions := [] }) :=
  pollService_exec dfsField (by
    simp only [dfsField, DfsServiceStub.pollReady, ServiceQueue.pollReady, drainReady_u64Max])

theorem pollDb_exec (s : LocalGuestUapiSurface) :
    exec (pollService dbField (·.pollReady u64Max)) s =
      (.ok (s.dbService.completions.map (·.owned)), { s with dbService.completions := [] }) :=
  pollService_exec dbField (by
    simp only [dbField, DbServiceStub.pollReady, ServiceQueue.pollReady, drainReady_u64Max])

/-- What a flush leaves alone. -/
structure Flushed (s s' : LocalGuestUapiSurface) : Prop where
  runtime : s'.runtimeQueue = s.runtimeQueue
  waiting : s'.waiting = []
  keys : s'.cqEvents.keys = s.cqEvents.keys
  directory : s'.directory = s.directory
  limits : s'.limits = s.limits

/-- A flush routes the completion that waits, if there is one. -/
theorem flushServices_spec {st : CompletionQueueState} {entry : Option (Owned Submission)}
    (hwaiting : s.waiting = entry.toList)
    (hroute : ∀ e ∈ entry, s.completionRoutes.issued.lookup e.event.key = some cq)
    (hcq : s.cqEvents.lookup cq = some st) :
    ∃ s', exec (flushServices u64Max) s = (.ok (), s') ∧ Flushed s s' ∧
      s'.cqEvents.lookup cq = some { st with events := st.events ++ entry.toList } := by
  have hnone : ∀ t : LocalGuestUapiSurface, exec (routeAll []) t = (.ok (), t) := fun _ => rfl
  cases entry with
  | none =>
    simp only [Option.toList_none, LocalGuestUapiSurface.waiting, List.append_eq_nil_iff,
      List.map_eq_nil_iff] at hwaiting
    obtain ⟨⟨⟨hblock, hshmem⟩, hdfs⟩, hdb⟩ := hwaiting
    simp only [flushServices, exec_bind, pollBlock_exec, pollShmem_exec, pollDfs_exec, pollDb_exec,
      hblock, hshmem, hdfs, hdb, List.map_nil, hnone]
    exact ⟨_, rfl, ⟨rfl, rfl, rfl, rfl, rfl⟩, by simpa using hcq⟩
  | some entry =>
    have hsingle : ∀ t : LocalGuestUapiSurface, t.completionRoutes = s.completionRoutes →
        t.cqEvents = s.cqEvents →
        exec (routeAll [entry]) t = (.ok (), pushed (unrouted t entry) cq st entry) := by
      intro t hroutes hcqs
      rw [routeAll, exec_bind_ok (routeCompletionToCq_ok (hroutes ▸ hroute entry rfl) (hcqs ▸ hcq))]
      rfl
    have hmem : cq ∈ s.cqEvents.keys := Finmap.mem_keys.2 (Finmap.mem_iff.2 ⟨st, hcq⟩)
    have hkeys : ∀ st', (Finmap.insert cq st' s.cqEvents).keys = s.cqEvents.keys := by
      intro st'
      ext other
      by_cases heq : other = cq <;> simp_all [Finmap.mem_keys, Finmap.mem_insert]
    simp only [Option.toList_some, LocalGuestUapiSurface.waiting, List.append_eq_singleton_iff,
      List.append_eq_nil_iff, List.map_eq_nil_iff] at hwaiting
    -- the completion is in one of the four services
    rcases hwaiting with ⟨⟨⟨hblock, hshmem⟩, hdfs⟩, hdb⟩ |
      ⟨⟨⟨hblock, hshmem⟩, hdfs⟩ | ⟨⟨hblock, hshmem⟩ | ⟨hblock, hshmem⟩, hdfs⟩, hdb⟩
    all_goals
      simp only [flushServices, exec_bind, pollBlock_exec, pollShmem_exec, pollDfs_exec,
        pollDb_exec, hblock, hshmem, hdfs, hdb, List.map_nil, hnone, hsingle, pushed, unrouted]
      exact ⟨_, rfl, ⟨rfl, rfl, hkeys _, rfl, rfl⟩, Finmap.lookup_insert _⟩

/-- **A drain** hands out what is in the completion queue and what waits, and leaves the surface at
rest. -/
theorem drain_spec {events : List (Owned Submission)} {entry : Option (Owned Submission)}
    (hruntime : s.runtimeQueue.queue.pending = []) (hkeys : s.cqEvents.keys = {cq})
    (hqueue : s.cqEvents.lookup cq = some ⟨owner, events⟩) (hwaiting : s.waiting = entry.toList)
    (hroute : ∀ e ∈ entry, s.completionRoutes.issued.lookup e.event.key = some cq) :
    ∃ s', s.execute (.drainCq cq owner) =
        (.ok (.completions ((events ++ entry.toList).map (·.event)) 0), s') ∧
      s'.AtRest cq owner ∧ s'.directory = s.directory ∧ s'.limits = s.limits := by
  obtain ⟨s₁, hflush, hflushed, hlookup⟩ := flushServices_spec hwaiting hroute hqueue
  let queue : CompletionQueueState := ⟨owner, events ++ entry.toList⟩
  have hpoll : exec (pollCqWithOwner cq owner none) s =
      (.ok (queue.events.map (·.event), 0), handedOut s₁ cq queue queue.events.length) := by
    rw [pollCqWithOwner, exec_bind_ok (flushRuntime_idle hruntime), exec_bind_ok hflush,
      exec_bind_ok (exec_get s₁), hlookup]
    simp only [ne_eq, not_true_eq_false, if_false, Option.getD_none, min_self, List.take_length,
      List.drop_length, handedOut]
    rfl
  have hexec : s.execute (.drainCq cq owner) =
      (.ok (.completions (queue.events.map (·.event)) 0),
        handedOut s₁ cq queue queue.events.length) := by
    show exec (pollCqWithOwner cq owner none >>= fun out =>
      pure (UapiResponse.completions out.1 out.2)) s = _
    rw [exec_bind_ok hpoll]
    rfl
  refine ⟨_, hexec, ⟨?_, hflushed.waiting, ?_, ?_⟩, hflushed.directory, hflushed.limits⟩
  · exact (congrArg (·.queue.pending) hflushed.runtime).trans hruntime
  · ext other
    have hmem : other ∈ s₁.cqEvents ↔ other = cq := by
      rw [← Finmap.mem_keys, hflushed.keys, hkeys, Finset.mem_singleton]
    simp [handedOut, Finmap.mem_keys, Finmap.mem_insert, hmem]
  · simp [handedOut, queue]

/-! ### A submission -/

/-- What a drain will hand out. -/
structure Holds (s : LocalGuestUapiSurface) (cq : CqHandle) (owner : EntityId)
    (events : List (Owned Submission)) (entry : Option (Owned Submission)) : Prop where
  runtime : s.runtimeQueue.queue.pending = []
  keys : s.cqEvents.keys = {cq}
  queue : s.cqEvents.lookup cq = some ⟨owner, events⟩
  waiting : s.waiting = entry.toList
  route : ∀ e ∈ entry, s.completionRoutes.issued.lookup e.event.key = some cq

/-- A submission has the outcome that the directory says. -/
def Answers (s s' : LocalGuestUapiSurface) (cq : CqHandle) (owner : EntityId)
    (outcome : Option Answer × Directory) : Prop :=
  s'.directory = outcome.2 ∧ s'.limits = s.limits ∧ ∃ events entry, Holds s' cq owner events entry ∧
    (events ++ entry.toList).map (·.event.answer) = outcome.1.toList

/-- How a stub is called, and what the call changes. -/
structure Call {stub : Type} (field : ServiceField stub) (s : LocalGuestUapiSurface)
    (submit : UInt64 → stub → Except SimError (ServiceOpHandle × stub)) (sub : Submission)
    (port : ServiceQueue.Port) (task : Option TaskKey) (status : CompletionStatus)
    (readyAt : SimTimestamp) (update : ServiceQueue Submission → stub) (d : Directory) : Prop where
  idle : (field.queue (field.get (ticked s))).completions = []
  source : port.source = field.source
  submit : submit (ticked s).serviceClock (field.get (ticked s)) =
    (field.queue (field.get (ticked s))).submitThen port task sub (status, readyAt) update
  queue : ∀ q, field.queue (update q) = q
  runtime : ∀ q, (field.set (ticked s) (update q)).runtimeQueue = s.runtimeQueue
  cqs : ∀ q, (field.set (ticked s) (update q)).cqEvents = s.cqEvents
  waiting : ∀ q, (field.set (ticked s) (update q)).waiting = q.completions.map (·.owned)
  directory : ∀ q, (field.set (ticked s) (update q)).directory = d
  limits : ∀ q, (field.set (ticked s) (update q)).limits = s.limits

section Call

variable {stub : Type} {field : ServiceField stub}
  {submit : UInt64 → stub → Except SimError (ServiceOpHandle × stub)} {sub : Submission}
  {port : ServiceQueue.Port} {task : Option TaskKey} {status : CompletionStatus}
  {readyAt : SimTimestamp} {update : ServiceQueue Submission → stub} {d : Directory}

theorem Call.refused (hcall : Call field s submit sub port task status readyAt update d)
    (hfull : port.queueDepth = 0) : ∃ e, exec (submitToService field cq submit) s =
      (.error e, ticked s) := by
  rw [submitToService_exec, hcall.submit]
  cases hsubmit : (field.queue (field.get (ticked s))).submitThen port task sub (status, readyAt)
    update with
  | error e => exact ⟨e, rfl⟩
  | ok result =>
    obtain ⟨_, -, hroom, -⟩ := ServiceQueue.submitThen_queued hsubmit
    simp [hfull] at hroom

variable (cq) in
theorem Call.accepted (hcall : Call field s submit sub port task status readyAt update d)
    (hroom : port.queueDepth ≠ 0) : ∃ q item opId, exec (submitToService field cq submit) s =
      (.ok opId, bound (field.set (ticked s) (update q)) q ⟨field.source, opId⟩ cq) ∧
        q.completions = [item] ∧ item.event.key = ⟨field.source, opId⟩ ∧
        item.event.answer = ⟨task, field.source, status⟩ := by
  rw [submitToService_exec, hcall.submit]
  cases hsubmit : (field.queue (field.get (ticked s))).submitThen port task sub (status, readyAt)
    update with
  | error e =>
    obtain ⟨hfull, -⟩ := ServiceQueue.submitThen_error hsubmit
    rw [hcall.idle, List.length_nil, Nat.le_zero] at hfull
    exact absurd (UInt64.toNat_inj.1 hfull) hroom
  | ok result =>
    obtain ⟨handle, st⟩ := result
    obtain ⟨q, rfl, -, rfl, hq⟩ := ServiceQueue.submitThen_queued hsubmit
    let queue := field.queue (field.get (ticked s))
    have hbound : bound (field.set (ticked s) (update q)) (field.queue (update q))
        ⟨field.source, queue.nextOpId + 1⟩ cq =
          bound (field.set (ticked s) (update q)) q ⟨field.source, queue.nextOpId + 1⟩ cq := by
      rw [hcall.queue]
    refine ⟨q, queue.queued port task sub (status, readyAt), queue.nextOpId + 1,
      congrArg _ hbound, ?_, ?_, ?_⟩
    · rw [hq, hcall.idle]
      rfl
    · rw [← hcall.source]
      rfl
    · rw [← hcall.source]
      rfl

theorem Call.answers (hcall : Call field s submit sub port task status readyAt update d)
    (hs : s.AtRest cq owner) :
    Answers s (exec (submitToService field cq submit) s).2 cq owner
      (if port.queueDepth = 0 then (none, s.directory)
        else (some ⟨task, field.source, status⟩, d)) := by
  split_ifs with hfull
  · obtain ⟨e, hexec⟩ := hcall.refused hfull
    rw [hexec]
    have hroute : ∀ e ∈ (none : Option (Owned Submission)),
        (ticked s).completionRoutes.issued.lookup e.event.key = some cq := by simp
    exact ⟨rfl, rfl, [], none, ⟨hs.runtime, hs.keys, hs.queue, hs.waiting, hroute⟩, rfl⟩
  · obtain ⟨q, item, opId, hexec, hq, hkey, hanswer⟩ := hcall.accepted cq hfull
    rw [hexec]
    refine ⟨hcall.directory q, hcall.limits q, [], some item.owned, ⟨?_, ?_, ?_, ?_, ?_⟩, ?_⟩
    · exact (congrArg (·.queue.pending) (hcall.runtime q)).trans hs.runtime
    · exact (congrArg Finmap.keys (hcall.cqs q)).trans hs.keys
    · exact (congrArg (Finmap.lookup cq) (hcall.cqs q)).trans hs.queue
    · refine (hcall.waiting q).trans ?_
      rw [hq]
      rfl
    · rintro _ ⟨⟩
      have hevent : item.owned.event.key = ⟨field.source, opId⟩ := hkey
      rw [hevent]
      exact Finmap.lookup_insert _
    · exact congrArg (fun a => [a]) hanswer

end Call

/-! ### The services -/

section Services

variable {sub : Submission} {task : Option TaskKey} {status : CompletionStatus}
  {readyAt : SimTimestamp}

theorem idle_of_waiting (hwaiting : s.waiting = []) :
    s.blockService.completions = [] ∧ s.shmemService.completions = [] ∧
      s.dfsService.completions = [] ∧ s.dbService.completions = [] := by
  simpa [LocalGuestUapiSurface.waiting, and_assoc] using hwaiting

theorem block_call (hs : s.AtRest cq owner)
    {submit : UInt64 → BlockServiceStub Submission →
      Except SimError (ServiceOpHandle × BlockServiceStub Submission)}
    {blocks : Finmap fun _ : BlockHash => BlockState}
    (hsubmit : submit (ticked s).serviceClock s.blockService =
      s.blockService.submitThen s.blockService.profile.port task sub (status, readyAt) fun queue =>
        { s.blockService with toServiceQueue := queue, blocks }) :
    Call blockField s submit sub s.blockService.profile.port task status
      readyAt (fun queue => { s.blockService with toServiceQueue := queue, blocks })
      { s.directory with blocks := blocks.keys } := by
  obtain ⟨hblock, hshmem, hdfs, hdb⟩ := idle_of_waiting hs.waiting
  refine ⟨hblock, rfl, hsubmit, fun _ => rfl, fun _ => rfl, fun _ => rfl, fun q => ?_, fun _ => rfl,
    fun _ => ?_⟩
  · simp [LocalGuestUapiSurface.waiting, blockField, ticked, hshmem, hdfs, hdb]
  · simp only [LocalGuestUapiSurface.limits, Limits.mk.injEq]
    refine ⟨?_, rfl, rfl⟩
    funext source
    cases source <;> rfl

theorem shmem_call (hs : s.AtRest cq owner)
    {submit : UInt64 → ShmemServiceStub Submission →
      Except SimError (ServiceOpHandle × ShmemServiceStub Submission)}
    (hsubmit : submit (ticked s).serviceClock s.shmemService =
      s.shmemService.submitThen s.shmemService.profile.port task sub (status, readyAt) fun queue =>
        { s.shmemService with toServiceQueue := queue }) :
    Call shmemField s submit sub s.shmemService.profile.port task status
      readyAt (fun queue => { s.shmemService with toServiceQueue := queue }) s.directory := by
  obtain ⟨hblock, hshmem, hdfs, hdb⟩ := idle_of_waiting hs.waiting
  refine ⟨hshmem, rfl, hsubmit, fun _ => rfl, fun _ => rfl, fun _ => rfl, fun q => ?_, fun _ => rfl,
    fun _ => ?_⟩
  · simp [LocalGuestUapiSurface.waiting, shmemField, ticked, hblock, hdfs, hdb]
  · simp only [LocalGuestUapiSurface.limits, Limits.mk.injEq]
    refine ⟨?_, rfl, rfl⟩
    funext source
    cases source <;> rfl

theorem dfs_call (hs : s.AtRest cq owner)
    {submit : UInt64 → DfsServiceStub Submission →
      Except SimError (ServiceOpHandle × DfsServiceStub Submission)}
    {files : Finmap fun _ : String => FileMeta}
    (hsubmit : submit (ticked s).serviceClock s.dfsService =
      s.dfsService.submitThen s.dfsService.profile.port task sub (status, readyAt) fun queue =>
        { s.dfsService with toServiceQueue := queue, files }) :
    Call dfsField s submit sub s.dfsService.profile.port task status
      readyAt (fun queue => { s.dfsService with toServiceQueue := queue, files })
      { s.directory with files := files.keys } := by
  obtain ⟨hblock, hshmem, hdfs, hdb⟩ := idle_of_waiting hs.waiting
  refine ⟨hdfs, rfl, hsubmit, fun _ => rfl, fun _ => rfl, fun _ => rfl, fun q => ?_, fun _ => rfl,
    fun _ => ?_⟩
  · simp [LocalGuestUapiSurface.waiting, dfsField, ticked, hblock, hshmem, hdb]
  · simp only [LocalGuestUapiSurface.limits, Limits.mk.injEq]
    refine ⟨?_, rfl, rfl⟩
    funext source
    cases source <;> rfl

theorem db_call (hs : s.AtRest cq owner)
    {submit : UInt64 → DbServiceStub Submission →
      Except SimError (ServiceOpHandle × DbServiceStub Submission)}
    {rows : Finmap fun _ : String => UInt64}
    (hsubmit : submit (ticked s).serviceClock s.dbService =
      s.dbService.submitThen s.dbService.profile.port task sub (status, readyAt) fun queue =>
        { s.dbService with toServiceQueue := queue, rows }) :
    Call dbField s submit sub s.dbService.profile.port task status
      readyAt (fun queue => { s.dbService with toServiceQueue := queue, rows })
      { s.directory with rows := rows.keys } := by
  obtain ⟨hblock, hshmem, hdfs, hdb⟩ := idle_of_waiting hs.waiting
  refine ⟨hdb, rfl, hsubmit, fun _ => rfl, fun _ => rfl, fun _ => rfl, fun q => ?_, fun _ => rfl,
    fun _ => ?_⟩
  · simp [LocalGuestUapiSurface.waiting, dbField, ticked, hblock, hshmem, hdfs]
  · simp only [LocalGuestUapiSurface.limits, Limits.mk.injEq]
    refine ⟨?_, rfl, rfl⟩
    funext source
    cases source <;> rfl

/-- A completion that is put into the queue at once. -/
theorem enqueueToCq_answers (hs : s.AtRest cq owner) (event : CompletionEvent) (sub : Submission) :
    Answers s (exec (enqueueToCq cq ⟨event, sub⟩) s).2 cq owner
      (some event.answer, s.directory) := by
  rw [enqueueToCq_ok _ hs.queue]
  have hroute : ∀ e ∈ (none : Option (Owned Submission)),
      s.completionRoutes.issued.lookup e.event.key = some cq := by simp
  refine ⟨rfl, rfl, [⟨event, sub⟩], none, ⟨hs.runtime, ?_, Finmap.lookup_insert _, hs.waiting,
    hroute⟩, rfl⟩
  ext other
  simp [pushed, ← hs.keys, Finmap.mem_keys, Finmap.mem_insert]
  rintro rfl
  exact Finmap.mem_iff.2 ⟨_, hs.queue⟩

theorem keys_insert {α β : Type} [DecidableEq α] (m : Finmap fun _ : α => β) (a : α) (b : β) :
    (Finmap.insert a b m).keys = insert a m.keys := by
  ext other
  simp [Finmap.mem_keys, Finmap.mem_insert]

theorem lookup_isSome_iff {α β : Type} [DecidableEq α] {m : Finmap fun _ : α => β} {a : α} :
    (m.lookup a).isSome = true ↔ a ∈ m.keys := by
  rw [Finmap.mem_keys, Finmap.lookup_isSome]

theorem readOutcome_status (stub : BlockServiceStub Submission) (block : BlockHash)
    (now : SimTimestamp) : (stub.readOutcome block now).1 =
      Directory.found (block ∈ stub.blocks.keys) "block_miss" := by
  simp only [BlockServiceStub.readOutcome, Directory.found, lookup_isSome_iff]
  split_ifs <;> rfl

theorem writebackEffect_eq (stub : BlockServiceStub Submission) (block : BlockHash) :
    (stub.writebackEffect block).1 =
        Directory.found (block ∈ stub.blocks.keys) "writeback_missing_block" ∧
      (stub.writebackEffect block).2.keys = stub.blocks.keys := by
  simp only [BlockServiceStub.writebackEffect, Directory.found, ← lookup_isSome_iff]
  rcases hblock : stub.blocks.lookup block with _ | _ | _
  · exact ⟨rfl, rfl⟩
  · exact ⟨rfl, rfl⟩
  · refine ⟨rfl, ?_⟩
    rw [keys_insert, Finset.insert_eq_of_mem (lookup_isSome_iff.1 (by rw [hblock]; rfl))]

theorem readEffect_eq (stub : DfsServiceStub Submission) (path : String) (now : SimTimestamp) :
    (stub.readEffect path now).1.1 =
        Directory.found (path ∈ stub.files.keys) "missing_path" ∧
      (stub.readEffect path now).2.keys = stub.files.keys := by
  simp only [DfsServiceStub.readEffect, Directory.found, ← lookup_isSome_iff]
  rcases hfile : stub.files.lookup path with _ | file
  · exact ⟨rfl, rfl⟩
  · refine ⟨rfl, ?_⟩
    rw [keys_insert, Finset.insert_eq_of_mem (lookup_isSome_iff.1 (by rw [hfile]; rfl))]

theorem getOutcome_status (stub : DbServiceStub Submission) (key : String) (now : SimTimestamp) :
    (stub.getOutcome key now).1 = Directory.found (key ∈ stub.rows.keys) "db_missing_key" := by
  simp only [DbServiceStub.getOutcome, Directory.found, ← lookup_isSome_iff]
  cases stub.rows.lookup key <;> rfl

theorem read_answers (hs : s.AtRest cq owner) (req : IoSubmitReq) (sub : Submission)
    {block : BlockHash} (hopcode : req.opcode = .readBlock) (hblock : req.block = some block) :
    Answers s (exec (submitToService blockField cq fun now stub =>
      stub.submitRead ⟨req.task, block⟩ sub now) s).2 cq owner
        (s.directory.answer s.limits (.io req)) := by
  have hserve : s.directory.serve s.limits (.io req) = (some (.blockService,
      (s.blockService.readOutcome block (ticked s).serviceClock).1), s.directory) := by
    simp only [Directory.serve, hopcode, hblock, readOutcome_status]
    rfl
  rw [Directory.answer_eq hserve (by simp)]
  exact Call.answers (block_call hs (by rfl)) hs

theorem write_answers (hs : s.AtRest cq owner) (req : IoSubmitReq) (sub : Submission)
    {block : BlockHash} (hopcode : req.opcode = .writeBlock) (hblock : req.block = some block) :
    Answers s (exec (submitToService blockField cq fun now stub =>
      stub.submitWrite ⟨req.task, block⟩ sub now) s).2 cq owner
        (s.directory.answer s.limits (.io req)) := by
  have hserve : s.directory.serve s.limits (.io req) = (some (.blockService, .success),
      { s.directory with
        blocks := (Finmap.insert block .dirty s.blockService.blocks).keys }) := by
    simp only [Directory.serve, hopcode, hblock, keys_insert]
    rfl
  rw [Directory.answer_eq hserve (by simp)]
  exact Call.answers (block_call hs (by rfl)) hs

theorem writeback_answers (hs : s.AtRest cq owner) (block : BlockHash) (task : Option TaskKey)
    (sub : Submission) :
    Answers s (exec (submitToService blockField cq fun now stub =>
      stub.submitWriteback block task sub now) s).2 cq owner
        (s.directory.answer s.limits (.blockWriteback block task)) := by
  obtain ⟨hstatus, hkeys⟩ := writebackEffect_eq s.blockService block
  have hserve : s.directory.serve s.limits (.blockWriteback block task) =
      (some (.blockService, (s.blockService.writebackEffect block).1),
        { s.directory with blocks := (s.blockService.writebackEffect block).2.keys }) := by
    rw [hstatus, hkeys]
    rfl
  rw [Directory.answer_eq hserve (by simp)]
  exact Call.answers (block_call hs (by rfl)) hs

theorem access_answers (hs : s.AtRest cq owner) (desc : UapiDescriptor) (requester : EntityId)
    (segment : SegmentHandle) (bytes : UInt64) (sub : Submission)
    (hserve : s.directory.serve s.limits desc = (some (.shmemService,
      s.directory.access s.limits requester segment bytes), s.directory)) :
    Answers s (exec (submitToService shmemField cq fun now stub =>
      stub.submitAccess (runtimeTaskForDescriptor desc) requester segment bytes sub now) s).2 cq
        owner (s.directory.answer s.limits desc) := by
  have haccess : s.directory.access s.limits requester segment bytes =
      s.shmemService.checkAccess segment requester bytes := rfl
  rw [haccess] at hserve
  rw [Directory.answer_eq hserve (by simp)]
  exact Call.answers (shmem_call hs (by rfl)) hs

theorem dfsRead_answers (hs : s.AtRest cq owner) (req : DfsReadReq) (sub : Submission) :
    Answers s (exec (submitToService dfsField cq fun now stub => stub.submitRead req sub now) s).2
      cq owner (s.directory.answer s.limits (.dfsRead req)) := by
  obtain ⟨hstatus, hkeys⟩ := readEffect_eq s.dfsService req.path (ticked s).serviceClock
  have hserve : s.directory.serve s.limits (.dfsRead req) = (some (.dfsService,
      (s.dfsService.readEffect req.path (ticked s).serviceClock).1.1), { s.directory with
        files := (s.dfsService.readEffect req.path (ticked s).serviceClock).2.keys }) := by
    rw [hstatus, hkeys]
    rfl
  rw [Directory.answer_eq hserve (by simp)]
  exact Call.answers (dfs_call hs (by rfl)) hs

theorem dfsWrite_answers (hs : s.AtRest cq owner) (req : DfsWriteReq) (sub : Submission) :
    Answers s (exec (submitToService dfsField cq fun now stub => stub.submitWrite req sub now) s).2
      cq owner (s.directory.answer s.limits (.dfsWrite req)) := by
  have hserve : s.directory.serve s.limits (.dfsWrite req) = (some (.dfsService, .success),
      { s.directory with
        files := (Finmap.insert req.path ⟨req.bytes, false⟩ s.dfsService.files).keys }) := by
    rw [keys_insert]
    rfl
  rw [Directory.answer_eq hserve (by simp)]
  exact Call.answers (dfs_call hs (by rfl)) hs

theorem dbPut_answers (hs : s.AtRest cq owner) (req : DbPutReq) (sub : Submission) :
    Answers s (exec (submitToService dbField cq fun now stub => stub.submitPut req sub now) s).2
      cq owner (s.directory.answer s.limits (.dbPut req)) := by
  have hserve : s.directory.serve s.limits (.dbPut req) = (some (.dbService,
      (s.dbService.putEffect req.key req.bytes (ticked s).serviceClock).1.1), { s.directory with
        rows := (s.dbService.putEffect req.key req.bytes (ticked s).serviceClock).2.keys }) := by
    have hmax : s.limits.maxBytes = s.dbService.maxBytes := rfl
    simp only [Directory.serve, DbServiceStub.putEffect, hmax]
    split_ifs
    · rfl
    · rw [keys_insert]
      rfl
  rw [Directory.answer_eq hserve (by simp)]
  exact Call.answers (db_call hs (by rfl)) hs

theorem dbGet_answers (hs : s.AtRest cq owner) (req : DbGetReq) (sub : Submission) :
    Answers s (exec (submitToService dbField cq fun now stub => stub.submitGet req sub now) s).2
      cq owner (s.directory.answer s.limits (.dbGet req)) := by
  have hserve : s.directory.serve s.limits (.dbGet req) = (some (.dbService,
      (s.dbService.getOutcome req.key (ticked s).serviceClock).1), s.directory) := by
    rw [getOutcome_status]
    rfl
  rw [Directory.answer_eq hserve (by simp)]
  exact Call.answers (db_call hs (by rfl)) hs

/-- A submission that does nothing. -/
theorem nothing_answers (hs : s.AtRest cq owner) : Answers s s cq owner (none, s.directory) := by
  have hroute : ∀ e ∈ (none : Option (Owned Submission)),
      s.completionRoutes.issued.lookup e.event.key = some cq := by simp
  exact ⟨rfl, rfl, [], none, ⟨hs.runtime, hs.keys, hs.queue, hs.waiting, hroute⟩, rfl⟩

theorem io_answers (hs : s.AtRest cq owner) (req : IoSubmitReq) (sub : Submission) :
    Answers s (exec (submitIoToCq req sub cq) s).2 cq owner
      (s.directory.answer s.limits (.io req)) := by
  have hticked : (ticked s).AtRest cq owner := ⟨hs.runtime, hs.waiting, hs.keys, hs.queue⟩
  have hclosed : ¬s.limits.Closed .guestUapi ∧ ¬s.limits.Closed .remoteNode := by
    simp [Limits.Closed]
  unfold submitIoToCq
  rcases hopcode : req.opcode with _ | _ | _ | _ | _
  case readBlock =>
    rcases hblock : req.block with _ | block
    · simp only [Directory.answer, Directory.serve, hopcode, hblock]
      exact nothing_answers hs
    · exact read_answers hs req sub hopcode hblock
  case writeBlock =>
    rcases hblock : req.block with _ | block
    · simp only [Directory.answer, Directory.serve, hopcode, hblock]
      exact nothing_answers hs
    · exact write_answers hs req sub hopcode hblock
  case dispatch =>
    simp only [Directory.answer, Directory.serve, hopcode, hclosed.1, if_false]
    rw [exec_map_snd]
    exact enqueueToCq_answers hs _ sub
  -- the clock ticks before the answer
  case remoteFetch | remoteStore =>
    simp only [Directory.answer, Directory.serve, hopcode, hclosed.2, if_false]
    rw [exec_bind_ok (nextServiceTime_exec s), exec_map_snd]
    exact enqueueToCq_answers hticked _ sub

/-- **A submission is answered as the directory says.** -/
theorem submitDescriptorToCq_answers (hs : s.AtRest cq owner) (sub : Submission) :
    Answers s (exec (submitDescriptorToCq sub cq) s).2 cq owner
      (s.directory.answer s.limits sub.desc) := by
  rcases sub with ⟨desc, ticket, queue⟩
  cases desc with
  | io req => exact io_answers hs req _
  | blockWriteback block task => exact writeback_answers hs block task _
  | shmemPut req =>
    exact access_answers hs (.shmemPut req) req.requesterEntity req.segment req.bytes _ rfl
  | shmemGet req =>
    exact access_answers hs (.shmemGet req) req.requesterEntity req.segment req.bytes _ rfl
  | dfsRead req => exact dfsRead_answers hs req _
  | dfsWrite req => exact dfsWrite_answers hs req _
  | dbPut req => exact dbPut_answers hs req _
  | dbGet req => exact dbGet_answers hs req _

end Services

theorem defaultCq_atRest (hs : s.AtRest cq owner) : exec defaultCq s = (.ok cq, s) := by
  rcases defaultCq_spec s with ⟨cq', st, hcq, hexec⟩ | ⟨hnone, -⟩
  · have hmem : cq' ∈ s.cqEvents.keys := Finmap.mem_keys.2 (Finmap.mem_iff.2 ⟨st, hcq⟩)
    rw [hs.keys, Finset.mem_singleton] at hmem
    rw [hexec, hmem]
  · cases (hnone cq).symm.trans hs.queue

theorem submitDirect_answers (hs : s.AtRest cq owner) (desc : UapiDescriptor) :
    Answers s (exec (submitDirect desc) s).2 cq owner (s.directory.answer s.limits desc) := by
  let sub : Submission := { desc, ticket := s.tickets, queue := none }
  let entered : LocalGuestUapiSurface := { s with tickets := s.tickets + 1 }
  have hentered : entered.AtRest cq owner := ⟨hs.runtime, hs.waiting, hs.keys, hs.queue⟩
  rw [submitDirect, exec_bind_ok (defaultCq_atRest hs),
    exec_bind_ok (show exec (enter desc none) s = (.ok sub, entered) from rfl)]
  exact submitDescriptorToCq_answers hentered sub

end Uapi

namespace LocalGuestUapiSurface

open Uapi

variable {s : LocalGuestUapiSurface} {cq : CqHandle} {owner : EntityId}

theorem command_answers (hs : s.AtRest cq owner) (desc : UapiDescriptor) :
    Answers s (s.execute desc.command).2 cq owner (s.directory.answer s.limits desc) := by
  have hexec : (s.execute desc.command).2 = (exec (submitDirect desc) s).2 := by
    cases desc <;> exact exec_map_snd ..
  rw [hexec]
  exact submitDirect_answers hs desc

/-- **A request and a drain** give the answer of the directory, and then nothing is on its way. -/
theorem ask_answers (hs : s.AtRest cq owner) (desc : UapiDescriptor) :
    (s.ask cq owner desc).1.map (·.answer) = (s.directory.answer s.limits desc).1.toList ∧
      (s.ask cq owner desc).2.AtRest cq owner ∧
      (s.ask cq owner desc).2.directory = (s.directory.answer s.limits desc).2 ∧
      (s.ask cq owner desc).2.limits = s.limits := by
  obtain ⟨hdirectory, hlimits, events, entry, hholds, hanswer⟩ := command_answers hs desc
  obtain ⟨s', hdrain, hs', hdirectory', hlimits'⟩ := drain_spec hholds.runtime hholds.keys
    hholds.queue hholds.waiting hholds.route
  have hask : s.ask cq owner desc = ((events ++ entry.toList).map (·.event), s') := by
    rw [ask, hdrain]
  rw [hask, List.map_map]
  exact ⟨hanswer, hs', hdirectory'.trans hdirectory, hlimits'.trans hlimits⟩

theorem askAll_atRest (hs : s.AtRest cq owner) (descs : List UapiDescriptor) :
    (s.askAll cq owner descs).1.map (·.map (·.answer)) =
        (s.directory.answerAll s.limits descs).1.map (·.toList) ∧
      (s.askAll cq owner descs).2.AtRest cq owner ∧
      (s.askAll cq owner descs).2.directory = (s.directory.answerAll s.limits descs).2 := by
  induction descs generalizing s with
  | nil => exact ⟨rfl, hs, rfl⟩
  | cons desc descs ih =>
    obtain ⟨hanswer, hs', hdirectory, hlimits⟩ := ask_answers hs desc
    obtain ⟨hrest, hend, hlast⟩ := ih hs'
    rw [hdirectory, hlimits] at hrest hlast
    exact ⟨congrArg₂ _ hanswer hrest, hend, hlast⟩

theorem createSegment_atRest (hs : s.AtRest cq owner) (bytes : UInt64) :
    (s.execute (.createSegment bytes)).2.AtRest cq owner ∧
      (s.execute (.createSegment bytes)).2.directory = { s.directory with
        segments := (s.execute (.createSegment bytes)).2.shmemService.segments } ∧
      (s.execute (.createSegment bytes)).2.limits = s.limits := by
  have hexec : (s.execute (.createSegment bytes)).2 = (exec (createSegment bytes) s).2 :=
    exec_map_snd ..
  rw [hexec]
  rcases createSegment_spec bytes s with ⟨e, s', hcreate, rfl | rfl⟩ | ⟨stub, hregister, hcreate⟩
  · rw [hcreate]
    exact ⟨hs, rfl, rfl⟩
  · rw [hcreate]
    exact ⟨⟨hs.runtime, hs.waiting, hs.keys, hs.queue⟩, rfl, rfl⟩
  · rw [hcreate, ShmemServiceStub.registerSegment_ok hregister]
    refine ⟨⟨hs.runtime, hs.waiting, hs.keys, hs.queue⟩, rfl, ?_⟩
    simp only [limits, Limits.mk.injEq, and_true]
    funext source
    cases source <;> rfl

theorem createSegments_atRest (hs : s.AtRest cq owner) (sizes : List UInt64) :
    (s.run (sizes.map .createSegment)).AtRest cq owner ∧
      (s.run (sizes.map .createSegment)).directory = { s.directory with
        segments := (s.run (sizes.map .createSegment)).shmemService.segments } ∧
      (s.run (sizes.map .createSegment)).limits = s.limits := by
  induction sizes generalizing s with
  | nil => exact ⟨hs, rfl, rfl⟩
  | cons bytes sizes ih =>
    obtain ⟨hs', hdirectory, hlimits⟩ := createSegment_atRest hs bytes
    obtain ⟨hend, hlast, hkeep⟩ := ih hs'
    refine ⟨hend, hlast.trans ?_, hkeep.trans hlimits⟩
    rw [hdirectory]
    rfl

theorem registerCq_atRest (config : Config) (owner : EntityId) :
    ((withProfilesAndRuntimePolicy config).execute (.registerCq owner)).2.AtRest ⟨1⟩ owner := by
  refine ⟨rfl, rfl, ?_, Finmap.lookup_insert _⟩
  ext other
  show other ∈ (Finmap.insert (⟨1⟩ : CqHandle) _ ∅).keys ↔ _
  rw [keys_insert]
  simp

/-- **A surface that is drained after every request is a directory**: in the beginning it knows
nothing but the segments that were created, and every drain hands out the answer to the request
before it and nothing else. -/
theorem askAll_answers (config : Config) (owner : EntityId) (sizes : List UInt64)
    (descs : List UapiDescriptor) :
    let s := (withProfilesAndRuntimePolicy config).run
      (.registerCq owner :: sizes.map .createSegment)
    let d : Directory := ⟨∅, s.shmemService.segments, ∅, ∅⟩
    (s.askAll ⟨1⟩ owner descs).1.map (·.map (·.answer)) =
        (d.answerAll s.limits descs).1.map (·.toList) ∧
      (s.askAll ⟨1⟩ owner descs).2.directory = (d.answerAll s.limits descs).2 := by
  intro s d
  obtain ⟨hs, hdirectory, -⟩ := createSegments_atRest (registerCq_atRest config owner) sizes
  obtain ⟨hanswers, -, hlast⟩ := askAll_atRest hs descs
  have hd : s.directory = d := hdirectory
  exact ⟨hd ▸ hanswers, hd ▸ hlast⟩

end LocalGuestUapiSurface

end LinquUb
