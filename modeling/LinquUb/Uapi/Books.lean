import LinquUb.Uapi.ForceFlush
import LinquUb.Uapi.Losses

/-!
# What polls hand out

Only a poll hands out completions, and only `register_cq` and `create_cmd_queue` open queues.

* `SameBooks` : no queue was opened and nothing was handed out;
* `NothingEnters` : and nothing was accepted;
* `pollCqWithOwner_handsOut` : **a poll hands out completions of its own queue**, and those that it
  returns.
-/

namespace LinquUb

open Action

namespace LocalGuestUapiSurface

/-- The completions that polls of a completion queue have handed out, the oldest first. -/
def returnsOf (s : LocalGuestUapiSurface) (cq : CqHandle) : List (Owned Submission) :=
  (s.history.returns.filter (·.cq = cq)).map (·.entry)

/-- The same queues, bound in the same way; nothing was handed out, and every new ticket was given to
an accepted submission. -/
structure SameBooks (s s' : LocalGuestUapiSurface) : Prop where
  boundCq : ∀ q, s'.flow.boundCq q = s.flow.boundCq q
  nextCqId : s'.nextCqId = s.nextCqId
  nextCmdqId : s'.nextCmdqId = s.nextCmdqId
  returns : s'.history.returns = s.history.returns
  entered : s'.tickets + s.history.accepted.length = s.tickets + s'.history.accepted.length

variable {s s' : LocalGuestUapiSurface}

theorem SameBooks.refl (s : LocalGuestUapiSurface) : SameBooks s s :=
  ⟨fun _ => rfl, rfl, rfl, rfl, rfl⟩

theorem SameBooks.trans (s t u : LocalGuestUapiSurface) (h : SameBooks s t) (h' : SameBooks t u) :
    SameBooks s u :=
  ⟨fun q => (h'.boundCq q).trans (h.boundCq q), h'.nextCqId.trans h.nextCqId,
    h'.nextCmdqId.trans h.nextCmdqId, h'.returns.trans h.returns, by
      have hfirst := h.entered
      have hsecond := h'.entered
      omega⟩

/-- The same books, and no submission was accepted. -/
structure NothingEnters (s s' : LocalGuestUapiSurface) : Prop extends SameBooks s s' where
  accepted : s'.history.accepted = s.history.accepted

theorem NothingEnters.refl (s : LocalGuestUapiSurface) : NothingEnters s s := ⟨.refl s, rfl⟩

theorem NothingEnters.trans (s t u : LocalGuestUapiSurface) (h : NothingEnters s t)
    (h' : NothingEnters t u) : NothingEnters s u :=
  ⟨h.toSameBooks.trans _ _ _ h'.toSameBooks, h'.accepted.trans h.accepted⟩

/-- The submissions in a command queue do not count. -/
theorem sameBooks_pending {cmdq : CmdQueueHandle} {queue : CommandQueueState}
    (hq : s.cmdQueues.lookup cmdq = some queue) (pending : List Submission)
    (hqueues : s'.cmdQueues = Finmap.insert cmdq { queue with pending } s.cmdQueues)
    (hcq : s'.nextCqId = s.nextCqId) (hcmdq : s'.nextCmdqId = s.nextCmdqId)
    (hreturns : s'.history.returns = s.history.returns)
    (hentered : s'.tickets + s.history.accepted.length = s.tickets + s'.history.accepted.length) :
    SameBooks s s' := by
  refine ⟨fun q => ?_, hcq, hcmdq, hreturns, hentered⟩
  have hsame : ({ queue with pending } : CommandQueueState).cq = queue.cq := rfl
  have hlookup := Flow.lookup_insert_map hq (·.cq) hsame q
  rwa [← hqueues] at hlookup

end LocalGuestUapiSurface

namespace Uapi

open LocalGuestUapiSurface (SameBooks NothingEnters)

variable {s s' : LocalGuestUapiSurface}

/-! ### Commands that keep the books -/

theorem enqueueCmd_sameBooks (cmdq : CmdQueueHandle) (owner : EntityId) (desc : UapiDescriptor) :
    Within SameBooks (enqueueCmd cmdq owner desc) := by
  intro s
  rcases enqueueCmd_cases cmdq owner desc s with ⟨e, hexec⟩ | ⟨queue, _, hq, -, hexec⟩ <;> rw [hexec]
  · exact .refl s
  · exact LocalGuestUapiSurface.sameBooks_pending hq _ rfl rfl rfl rfl (by
      simp only [accepted, List.length_append, List.length_singleton]
      omega)

theorem stageAll_nothingEnters (cq : CqHandle) (staged : List Submission) :
    Within NothingEnters (stageAll cq staged) := by
  induction staged with
  | nil => exact within_pure NothingEnters.refl ()
  | cons sub rest ih =>
    refine within_bind NothingEnters.trans (fun s => ?_) fun _ => ih
    rcases stageRuntimeDescriptor_spec cq sub s with ⟨-, hexec⟩ | ⟨-, hexec⟩ <;> rw [hexec] <;>
      exact ⟨⟨fun _ => rfl, rfl, rfl, rfl, rfl⟩, rfl⟩

theorem ringDoorbell_nothingEnters (cmdq : CmdQueueHandle) (owner : EntityId) (maxBatch : Option ℕ) :
    Within NothingEnters (ringDoorbell cmdq owner maxBatch) := by
  intro s
  rcases doorbell_cases s cmdq owner with ⟨queue, hq, rfl⟩ | hforeign
  · rw [ringDoorbell_exec maxBatch hq, exec_map_snd]
    have hpopped : NothingEnters s (popped s cmdq queue (batchSize maxBatch queue)) :=
      ⟨LocalGuestUapiSurface.sameBooks_pending hq _ rfl rfl rfl rfl rfl, rfl⟩
    exact hpopped.trans _ _ _ (stageAll_nothingEnters _ _ _)
  · obtain ⟨e, hexec⟩ := ringDoorbell_foreign maxBatch hforeign
    rw [hexec]
    exact .refl s

theorem createSegment_nothingEnters (bytes : UInt64) : Within NothingEnters (createSegment bytes) := by
  intro s
  rcases createSegment_spec bytes s with ⟨e, s', hexec, rfl | rfl⟩ | ⟨stub, -, hexec⟩ <;>
    rw [hexec] <;> exact ⟨⟨fun _ => rfl, rfl, rfl, rfl, rfl⟩, rfl⟩

/-! ### A flush keeps the books -/

theorem enqueueToCq_nothingEnters (cq : CqHandle) (entry : Owned Submission) :
    Within NothingEnters (enqueueToCq cq entry) := by
  intro s
  rcases enqueueToCq_spec s cq entry with ⟨st, -, hexec⟩ | ⟨-, hexec⟩ <;> rw [hexec] <;>
    exact ⟨⟨fun _ => rfl, rfl, rfl, rfl, rfl⟩, rfl⟩

theorem routeAll_nothingEnters (events : List (Owned Submission)) :
    Within NothingEnters (routeAll events) := by
  induction events with
  | nil => exact within_pure NothingEnters.refl ()
  | cons entry rest ih =>
    refine within_bind NothingEnters.trans (fun s => ?_) fun _ => ih
    rcases routeCompletionToCq_spec s entry with ⟨cq, st, -, -, hexec⟩ | ⟨-, hexec⟩ <;> rw [hexec] <;>
      exact ⟨⟨fun _ => rfl, rfl, rfl, rfl, rfl⟩, rfl⟩

/-- Replacing the stub keeps the books. -/
def StubField {stub : Type} (field : ServiceField stub) : Prop :=
  ∀ s st, NothingEnters s (field.set s st)

theorem stubFields : StubField blockField ∧ StubField shmemField ∧ StubField dfsField ∧
    StubField dbField := by
  refine ⟨?_, ?_, ?_, ?_⟩ <;> exact fun _ _ => ⟨⟨fun _ => rfl, rfl, rfl, rfl, rfl⟩, rfl⟩

theorem pollService_nothingEnters {stub : Type} {field : ServiceField stub} (hfield : StubField field)
    (poll : stub → List (Owned Submission) × stub) :
    Within NothingEnters (pollService field poll >>= routeAll) :=
  within_bind NothingEnters.trans (fun s => hfield s _) routeAll_nothingEnters

theorem flushServices_nothingEnters (now : UInt64) : Within NothingEnters (flushServices now) := by
  obtain ⟨hblock, hshmem, hdfs, hdb⟩ := stubFields
  have hstages := within_bind NothingEnters.trans (pollService_nothingEnters hblock (·.pollReady now))
    fun _ => within_bind NothingEnters.trans (pollService_nothingEnters hshmem (·.pollReady now))
    fun _ => within_bind NothingEnters.trans (pollService_nothingEnters hdfs (·.pollReady now))
    fun _ => pollService_nothingEnters hdb (·.pollReady now)
  simpa only [flushServices, bind_assoc] using hstages

theorem submitToService_nothingEnters {stub : Type} {field : ServiceField stub}
    (hfield : StubField field) (cq : CqHandle)
    (submit : UInt64 → stub → Except SimError (ServiceOpHandle × stub)) :
    Within NothingEnters (submitToService field cq submit) := by
  intro s
  rw [submitToService_exec]
  split
  · exact ⟨⟨fun _ => rfl, rfl, rfl, rfl, rfl⟩, rfl⟩
  · have hset := hfield (ticked s)
    exact ⟨⟨fun q => (hset _).boundCq q, (hset _).nextCqId, (hset _).nextCmdqId, (hset _).returns,
      (hset _).entered⟩, (hset _).accepted⟩

theorem submitDescriptorToCq_nothingEnters (sub : Submission) (cq : CqHandle) :
    Within NothingEnters (submitDescriptorToCq sub cq) := by
  obtain ⟨hblock, hshmem, hdfs, hdb⟩ := stubFields
  have henqueue : ∀ event opId, Within NothingEnters (do
      enqueueToCq cq ⟨event, sub⟩
      return opId : Uapi OpId) := fun event opId =>
    within_bind NothingEnters.trans (enqueueToCq_nothingEnters cq _) fun _ =>
      within_pure NothingEnters.refl opId
  have hclock : Within NothingEnters nextServiceTime := fun _ => ⟨⟨fun _ => rfl, rfl, rfl, rfl, rfl⟩, rfl⟩
  unfold submitDescriptorToCq
  cases sub.desc with
  | io req =>
    simp only [submitIoToCq]
    split
    · split
      · exact within_throw NothingEnters.refl _
      · exact submitToService_nothingEnters hblock cq _
    · split
      · exact within_throw NothingEnters.refl _
      · exact submitToService_nothingEnters hblock cq _
    · exact henqueue _ _
    all_goals exact within_bind NothingEnters.trans hclock fun now => henqueue _ _
  | blockWriteback block task => exact submitToService_nothingEnters hblock cq _
  | shmemPut req | shmemGet req => exact submitToService_nothingEnters hshmem cq _
  | dfsRead req | dfsWrite req => exact submitToService_nothingEnters hdfs cq _
  | dbPut req | dbGet req => exact submitToService_nothingEnters hdb cq _

theorem flush_nothingEnters : Within NothingEnters (do
    flushRuntime u64Max
    flushServices u64Max) := by
  have halong : FlushAlong NothingEnters :=
    { refl := NothingEnters.refl
      trans := NothingEnters.trans
      submit := submitDescriptorToCq_nothingEnters
      services := flushServices_nothingEnters u64Max
      report := fun failure s =>
        (show NothingEnters s (ticked s) from ⟨⟨fun _ => rfl, rfl, rfl, rfl, rfl⟩, rfl⟩).trans _ _ _
          (enqueueToCq_nothingEnters failure.cq _ (ticked s))
      refusing := fun _ _ => ⟨⟨fun _ => rfl, rfl, rfl, rfl, rfl⟩, rfl⟩
      queue := fun _ _ => ⟨⟨fun _ => rfl, rfl, rfl, rfl, rfl⟩, rfl⟩ }
  exact within_bind NothingEnters.trans halong.flushRuntime fun _ => flushServices_nothingEnters u64Max

/-! ### Polls -/

/-- The completions `taken` of a completion queue were handed out, and no queue was opened. -/
structure HandsOut (cq : CqHandle) (taken : List (Owned Submission)) (s s' : LocalGuestUapiSurface) :
    Prop where
  boundCq : ∀ q, s'.flow.boundCq q = s.flow.boundCq q
  nextCqId : s'.nextCqId = s.nextCqId
  nextCmdqId : s'.nextCmdqId = s.nextCmdqId
  entered : s'.tickets + s.history.accepted.length = s.tickets + s'.history.accepted.length
  returns : ∃ owner, s'.history.returns =
    s.history.returns ++ taken.map fun entry => Return.mk cq owner entry

theorem HandsOut.returnsOf {cq : CqHandle} {taken : List (Owned Submission)}
    (h : HandsOut cq taken s s') (other : CqHandle) :
    s'.returnsOf other = s.returnsOf other ++ if other = cq then taken else [] := by
  obtain ⟨owner, hreturns⟩ := h.returns
  rw [LocalGuestUapiSurface.returnsOf, hreturns, List.filter_append, List.map_append]
  congr 1
  by_cases hcq : other = cq
  · subst hcq
    rw [if_pos rfl, List.filter_eq_self.2 (by simp), List.map_map]
    exact List.map_id _
  · rw [if_neg hcq, List.filter_eq_nil_iff.2 (by simpa using fun _ _ => Ne.symm hcq), List.map_nil]

/-- Commands that keep the books hand out nothing. -/
theorem handsOut_nil (cq : CqHandle) (h : SameBooks s s') : HandsOut cq [] s s' :=
  ⟨h.boundCq, h.nextCqId, h.nextCmdqId, h.entered, 0, by rw [h.returns, List.map_nil, List.append_nil]⟩

/-- The hand-out comes behind commands that keep the books. -/
theorem HandsOut.behind {cq : CqHandle} {taken : List (Owned Submission)}
    {s'' : LocalGuestUapiSurface} (h' : HandsOut cq taken s' s'') (h : SameBooks s s') :
    HandsOut cq taken s s'' := by
  obtain ⟨owner, hreturns⟩ := h'.returns
  exact ⟨fun q => (h'.boundCq q).trans (h.boundCq q), h'.nextCqId.trans h.nextCqId,
    h'.nextCmdqId.trans h.nextCmdqId, by
      have hfirst := h.entered
      have hsecond := h'.entered
      omega, owner, h.returns ▸ hreturns⟩

theorem pollCqWithOwner_accepted (hs : s.flow.Isolated) (cq : CqHandle) (owner : EntityId)
    (maxEntries : Option ℕ) :
    (exec (pollCqWithOwner cq owner maxEntries) s).2.history.accepted = s.history.accepted := by
  obtain ⟨s₁, hflush, -⟩ := flush_drains hs
  have henters := flush_nothingEnters s
  rw [hflush] at henters
  rcases pollCqWithOwner_exec cq owner maxEntries hflush with
    ⟨queue, n, -, -, hpoll⟩ | ⟨-, e, hpoll⟩ <;> rw [hpoll] <;> exact henters.accepted

/-- **A poll hands out the completions that it returns**, and one that fails hands out nothing. -/
theorem pollCqWithOwner_handsOut (hs : s.flow.Isolated) (cq : CqHandle) (owner : EntityId)
    (maxEntries : Option ℕ) :
    (∃ e s', exec (pollCqWithOwner cq owner maxEntries) s = (.error e, s') ∧ SameBooks s s') ∨
      ∃ taken rest s', exec (pollCqWithOwner cq owner maxEntries) s =
        (.ok (taken.map (·.event), rest), s') ∧ HandsOut cq taken s s' := by
  obtain ⟨s₁, hflush, -⟩ := flush_drains hs
  have hbooks := (flush_nothingEnters s).toSameBooks
  rw [hflush] at hbooks
  rcases pollCqWithOwner_exec cq owner maxEntries hflush with
    ⟨queue, n, -, -, hpoll⟩ | ⟨-, e, hpoll⟩
  · have hout : HandsOut cq (queue.events.take n) s₁ (handedOut s₁ cq queue n) :=
      ⟨fun _ => rfl, rfl, rfl, rfl, queue.owner, rfl⟩
    exact .inr ⟨_, _, _, hpoll, hout.behind hbooks⟩
  · exact .inl ⟨e, s₁, hpoll, hbooks⟩

end Uapi

namespace LocalGuestUapiSurface

/-- If all submissions came through command queues, what polls have handed out belongs to accepted
submissions of the queue that is bound to the completion queue, each to another one. -/
theorem run_handed_out (config : Config) (cmds : List UapiCommand) :
    let s := (withProfilesAndRuntimePolicy config).run cmds
    s.tickets = s.history.accepted.length →
      (s.history.returns.map (·.entry.owner)).Nodup ∧
        ∀ r ∈ s.history.returns, r.entry.owner ∈ s.history.accepted ∧
          ∃ q, r.entry.owner.queue = some q ∧ s.flow.boundCq q = some r.cq := by
  intro s hqueued
  obtain ⟨lost, -, haccounts⟩ := run_accounts config cmds
  have hregistered := run_registered config cmds
  have hisolated : s.flow.Isolated :=
    run_invariant (fun _ _ hf hs => hf.step hs) (initial_isolated config) cmds
  have hknown : ∀ r ∈ s.history.returns, r.entry.owner ∈ s.history.accepted ∧
      ∃ q, r.entry.owner.queue = some q ∧ s.flow.boundCq q = some r.cq := by
    intro r hr
    obtain ⟨hpush, -⟩ := hisolated.logged.returns r hr
    obtain ⟨hproper, hknown⟩ := hregistered.placed.pushes r.cq r.entry hpush
    have haccepted := hknown hqueued
    obtain ⟨q, hq⟩ := Option.isSome_iff_exists.1 (haccounts.conserved.queued _ haccepted)
    exact ⟨haccepted, q, hq, hproper.2 q hq⟩
  refine ⟨List.nodup_iff_count_le_one.2 fun sub => ?_, hknown⟩
  by_cases hmem : sub ∈ s.history.returns.map (·.entry.owner)
  · obtain ⟨r, hr, rfl⟩ := List.mem_map.1 hmem
    rcases haccounts.cases (hknown r hr).1 with ⟨-, habsent⟩ | ⟨-, hsole⟩
    · exact (habsent .returned).le.trans (Nat.zero_le _)
    · exact hsole.count_le_one .returned
  · exact (List.count_eq_zero.2 hmem).le.trans (Nat.zero_le _)

end LocalGuestUapiSurface

end LinquUb
