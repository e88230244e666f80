import LinquUb.Runtime.Queue

/-!
# The service stubs

The four data services of `sim-services` (block, shared memory, file system and key-value store).
Each stub answers a request at once, by a queued completion that becomes visible at its ready time,
and refuses requests while its queue is full.

* `ServiceQueue` is the part the stubs share: the queued completions and the op-id counter;
* `ServiceQueue.submitThen_ok` and `submitThen_error` say what a submission does to it;
* `drainReady_spec` : a poll takes a prefix of the queue.

Every request carries an owner `ω`, which is only copied into its queued completion: no function
inspects it.  Sums of times wrap around at `2^64`.
-/

namespace LinquUb

/-- A completion that a service hands out once its ready time has come. -/
structure QueuedCompletion (ω : Type) where
  readyAt : SimTimestamp
  event : CompletionEvent
  owner : ω

/-- A completion with the owner of its request. -/
structure Owned (ω : Type) where
  event : CompletionEvent
  owner : ω

def QueuedCompletion.owned {ω : Type} (item : QueuedCompletion ω) : Owned ω :=
  ⟨item.event, item.owner⟩

/-- Pop completions from the front while they are ready. -/
def drainReady {ω : Type} (now : SimTimestamp) :
    List (QueuedCompletion ω) → List (Owned ω) × List (QueuedCompletion ω)
  | [] => ([], [])
  | item :: queue =>
    if item.readyAt ≤ now then
      let (ready, rest) := drainReady now queue
      (item.owned :: ready, rest)
    else ([], item :: queue)

theorem drainReady_spec {ω : Type} (now : SimTimestamp) (queue : List (QueuedCompletion ω)) :
    ∃ taken, queue = taken ++ (drainReady now queue).2 ∧
      (drainReady now queue).1 = taken.map (·.owned) := by
  induction queue with
  | nil => exact ⟨[], rfl, rfl⟩
  | cons item queue ih =>
    unfold drainReady
    split_ifs with h
    · obtain ⟨taken, hq, hr⟩ := ih
      exact ⟨item :: taken, by simp [← hq], by simp [hr]⟩
    · exact ⟨[], rfl, rfl⟩

/-- A poll at the largest time empties the queue. -/
theorem drainReady_u64Max {ω : Type} (queue : List (QueuedCompletion ω)) :
    drainReady u64Max queue = (queue.map (·.owned), []) := by
  induction queue with
  | nil => rfl
  | cons item queue ih => simp [drainReady, le_u64Max, ih]

/-! ### The shared part of the stubs -/

structure ServiceQueue (ω : Type) where
  completions : List (QueuedCompletion ω)
  nextOpId : OpId

namespace ServiceQueue

variable {ω : Type} (self : ServiceQueue ω)

def empty : ServiceQueue ω := ⟨[], 0⟩

/-- The next operation id; the counter wraps around. -/
def nextHandle : ServiceOpHandle × ServiceQueue ω :=
  (⟨self.nextOpId + 1⟩, { self with nextOpId := self.nextOpId + 1 })

/-- `ensure_queue_capacity`, with the depth and the message of the stub at hand. -/
def ensureQueueCapacity (queueDepth : UInt64) (fullMessage : String) : Except SimError Unit :=
  if self.completions.length ≥ queueDepth.toNat then .error (.invalidInput fullMessage)
  else .ok ()

/-- What a stub fixes for all its requests. -/
structure Port where
  source : CompletionSource
  queueDepth : UInt64
  fullMessage : String
deriving DecidableEq

/-- The completion with which a request is answered. -/
def completionFor (source : CompletionSource) (handle : ServiceOpHandle) (task : Option TaskKey)
    (status : CompletionStatus) (readyAt : SimTimestamp) : CompletionEvent :=
  { opId := handle.id, task, source, status, finishedAt := readyAt }

/-- The common course of every submit function: check the capacity, take a handle and queue the
completion. -/
def submit (port : Port) (task : Option TaskKey) (owner : ω)
    (outcome : CompletionStatus × SimTimestamp) :
    Except SimError (ServiceOpHandle × ServiceQueue ω) := do
  self.ensureQueueCapacity port.queueDepth port.fullMessage
  let (handle, self) := self.nextHandle
  let event := completionFor port.source handle task outcome.1 outcome.2
  return (handle, { self with
    completions := self.completions ++ [{ readyAt := outcome.2, event, owner }] })

/-- Submit, and put the queue back into the stub. -/
def submitThen {stub : Type} (port : Port) (task : Option TaskKey) (owner : ω)
    (outcome : CompletionStatus × SimTimestamp) (update : ServiceQueue ω → stub) :
    Except SimError (ServiceOpHandle × stub) := do
  let (handle, queue) ← self.submit port task owner outcome
  return (handle, update queue)

def pollReady (now : SimTimestamp) : List (Owned ω) × ServiceQueue ω :=
  ((drainReady now self.completions).1,
    { self with completions := (drainReady now self.completions).2 })

variable {self}

theorem pollReady_idle (h : self.completions = []) (now : SimTimestamp) :
    self.pollReady now = ([], self) := by
  obtain ⟨completions, nextOpId⟩ := self
  cases h
  rfl

/-- The completion that a successful submission queues. -/
def queued (self : ServiceQueue ω) (port : Port) (task : Option TaskKey) (owner : ω)
    (outcome : CompletionStatus × SimTimestamp) : QueuedCompletion ω :=
  { readyAt := outcome.2
    event := completionFor port.source ⟨self.nextOpId + 1⟩ task outcome.1 outcome.2
    owner }

theorem submit_ok {port : Port} {task : Option TaskKey} {owner : ω}
    {outcome : CompletionStatus × SimTimestamp} {handle : ServiceOpHandle} {q : ServiceQueue ω}
    (h : self.submit port task owner outcome = .ok (handle, q)) :
    self.completions.length < port.queueDepth.toNat ∧ handle = ⟨self.nextOpId + 1⟩ ∧
      q = ⟨self.completions ++ [self.queued port task owner outcome], self.nextOpId + 1⟩ := by
  unfold submit ensureQueueCapacity at h
  split_ifs at h with hfull
  · cases h
  · cases Except.ok.inj h
    exact ⟨by omega, rfl, rfl⟩

theorem submit_error {port : Port} {task : Option TaskKey} {owner : ω}
    {outcome : CompletionStatus × SimTimestamp} {e : SimError}
    (h : self.submit port task owner outcome = .error e) :
    port.queueDepth.toNat ≤ self.completions.length ∧ e = .invalidInput port.fullMessage := by
  unfold submit ensureQueueCapacity at h
  split_ifs at h with hfull
  · exact ⟨hfull, (Except.error.inj h).symm⟩
  · cases h

/-- What a stub does to its queue when it accepts a request of `owner`: there was room, and `item`
is queued under a fresh operation id with the given status. -/
structure Accepts (port : Port) (owner : ω) (status : CompletionStatus) (handle : ServiceOpHandle)
    (q q' : ServiceQueue ω) (item : QueuedCompletion ω) : Prop where
  room : q.completions.length < port.queueDepth.toNat
  handle_eq : handle = ⟨q.nextOpId + 1⟩
  queue_eq : q' = ⟨q.completions ++ [item], q.nextOpId + 1⟩
  owner_eq : item.owner = owner
  key_eq : item.event.key = ⟨port.source, q.nextOpId + 1⟩
  status_eq : item.event.status = status

theorem submitThen_queued {stub : Type} {port : Port} {task : Option TaskKey} {owner : ω}
    {outcome : CompletionStatus × SimTimestamp} {update : ServiceQueue ω → stub}
    {handle : ServiceOpHandle} {st : stub}
    (h : self.submitThen port task owner outcome update = .ok (handle, st)) :
    ∃ q, st = update q ∧ self.completions.length < port.queueDepth.toNat ∧
      handle = ⟨self.nextOpId + 1⟩ ∧
      q = ⟨self.completions ++ [self.queued port task owner outcome], self.nextOpId + 1⟩ := by
  unfold submitThen at h
  cases hsubmit : self.submit port task owner outcome with
  | error e =>
    rw [hsubmit] at h
    cases h
  | ok result =>
    rw [hsubmit] at h
    cases Except.ok.inj h
    exact ⟨_, rfl, submit_ok hsubmit⟩

theorem submitThen_ok {stub : Type} {port : Port} {task : Option TaskKey} {owner : ω}
    {outcome : CompletionStatus × SimTimestamp} {update : ServiceQueue ω → stub}
    {handle : ServiceOpHandle} {st : stub}
    (h : self.submitThen port task owner outcome update = .ok (handle, st)) :
    ∃ q item, st = update q ∧ Accepts port owner outcome.1 handle self q item := by
  obtain ⟨q, hst, hroom, hhandle, hqueue⟩ := submitThen_queued h
  exact ⟨q, _, hst, hroom, hhandle, hqueue, rfl, rfl, rfl⟩

/-- A submission fails only for want of room. -/
theorem submitThen_error {stub : Type} {port : Port} {task : Option TaskKey} {owner : ω}
    {outcome : CompletionStatus × SimTimestamp} {update : ServiceQueue ω → stub} {e : SimError}
    (h : self.submitThen port task owner outcome update = .error e) :
    port.queueDepth.toNat ≤ self.completions.length ∧ e = .invalidInput port.fullMessage := by
  unfold submitThen at h
  cases hsubmit : self.submit port task owner outcome with
  | error e' =>
    rw [hsubmit] at h
    exact Except.error.inj h ▸ submit_error hsubmit
  | ok result =>
    rw [hsubmit] at h
    cases h

end ServiceQueue

end LinquUb
