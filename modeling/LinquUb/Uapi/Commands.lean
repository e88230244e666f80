import LinquUb.Uapi.Simulation
import Mathlib.Order.Lattice.Nat

/-!
# Every command is a sequence of moves

The methods of `Uapi/Simulation.lean` put together: `LocalGuestUapiSurface.execute_steps` and, over
runs, `LocalGuestUapiSurface.run_invariant`.  Only a doorbell can lose a batch, and only when the
runtime queue has no room for it (`Uapi.DoorbellFits`).
-/

namespace LinquUb

open Action

namespace Uapi

open Flow (Step Steps)

/-- The commands go along moves from idle flow to idle flow. -/
def Commands {α : Type} (drops : Prop) (m : Uapi α) (s : LocalGuestUapiSurface) : Prop :=
  Steps drops s.flow (exec m s).2.flow

theorem Commands.map {α β : Type} {drops : Prop} {m : Uapi α} {s : LocalGuestUapiSurface}
    (hm : Commands drops m s) (f : α → β) : Commands drops (do return f (← m)) s := by
  unfold Commands at hm ⊢
  rw [exec_map_snd]
  exact hm

theorem pollCqWithOwner_commands (drops : Prop) (cq : CqHandle) (owner : EntityId)
    (maxEntries : Option ℕ) (s : LocalGuestUapiSurface) :
    Commands drops (pollCqWithOwner cq owner maxEntries) s := by
  unfold Commands pollCqWithOwner
  have hruntime := flushRuntime_steps drops s
  rcases hexec : exec (flushRuntime u64Max) s with ⟨result, s₁⟩
  rw [hexec] at hruntime
  cases result with
  | error e =>
    rw [exec_bind_error hexec]
    exact hruntime
  | ok a =>
    rw [exec_bind_ok hexec]
    refine hruntime.trans ?_
    obtain ⟨hsame, hflows⟩ := flushServices_flows u64Max
    have hservices := hflows drops { waiting := s₁.runtimeQueue.queue.pending } s₁ rfl
    have hqueue := (hsame s₁).1
    rcases hexec' : exec (flushServices u64Max) s₁ with ⟨result', s₂⟩
    rw [hexec'] at hservices hqueue
    have hflow : s₂.flow = s₂.during { waiting := s₁.runtimeQueue.queue.pending } := by
      rw [LocalGuestUapiSurface.flow, hqueue]
    cases result' with
    | error e =>
      rw [exec_bind_error hexec']
      exact hflow ▸ hservices
    | ok a =>
      rw [exec_bind_ok hexec']
      refine (hflow ▸ hservices : Steps drops s₁.flow s₂.flow).trans ?_
      rw [exec_bind, exec_get]
      simp only []
      cases hcq : s₂.cqEvents.lookup cq with
      | none => exact .refl
      | some queue =>
        by_cases howner : queue.owner = owner
        · subst howner
          simp only [ne_eq, not_true_eq_false, if_false]
          exact .single (.handBack hcq (List.take_append_drop _ _).symm)
        · simp only [ne_eq, howner, not_false_eq_true, if_true]
          exact .refl

/-- A poll returns at most as many completions as it is asked for. -/
theorem pollCqWithOwner_length {cq : CqHandle} {owner : EntityId} {n rest : ℕ}
    {events : List CompletionEvent} {s s' : LocalGuestUapiSurface}
    (h : exec (pollCqWithOwner cq owner (some n)) s = (.ok (events, rest), s')) :
    events.length ≤ n := by
  obtain ⟨_, s₁, _, h⟩ := exec_bind_eq_ok.1 h
  obtain ⟨_, s₂, _, h⟩ := exec_bind_eq_ok.1 h
  obtain ⟨_, s₃, hget, h⟩ := exec_bind_eq_ok.1 h
  cases hget
  cases hcq : s₂.cqEvents.lookup cq with
  | none =>
    rw [hcq] at h
    cases h
  | some queue =>
    rw [hcq] at h
    simp only [] at h
    by_cases howner : queue.owner = owner
    · simp only [howner, ne_eq, not_true_eq_false, if_false] at h
      cases h
      rw [List.length_map, List.length_take]
      exact (Nat.min_le_left ..).trans (Nat.min_le_left ..)
    · simp only [ne_eq, howner, not_false_eq_true, if_true] at h
      cases h

theorem registerCq_commands (drops : Prop) (owner : EntityId) (s : LocalGuestUapiSurface) :
    Commands drops (registerCqWithOwner owner) s :=
  .single (.openCq owner)

/-- The surface after a command queue has been opened. -/
def opened (s : LocalGuestUapiSurface) (cq : CqHandle) (owner : EntityId) (depth : ℕ) :
    LocalGuestUapiSurface :=
  { s with
    nextCmdqId := s.nextCmdqId + 1
    cmdQueues := Finmap.insert ⟨s.nextCmdqId + 1⟩ { cq, owner, depth, pending := [] } s.cmdQueues }

/-- A command queue is opened on a completion queue of its owner; otherwise nothing happens. -/
theorem createCmdQueue_spec (cq : CqHandle) (owner : EntityId) (depth : ℕ)
    (s : LocalGuestUapiSurface) :
    (∃ e, exec (createCmdQueue cq owner depth) s = (.error e, s)) ∨
      ∃ st, s.cqEvents.lookup cq = some st ∧ st.owner = owner ∧
        exec (createCmdQueue cq owner depth) s =
          (.ok ⟨s.nextCmdqId + 1⟩, opened s cq owner depth) := by
  unfold createCmdQueue
  by_cases hdepth : depth = 0
  · rw [if_pos hdepth]
    exact .inl ⟨_, rfl⟩
  · rw [if_neg hdepth, exec_bind_ok (exec_get s)]
    cases hcq : s.cqEvents.lookup cq with
    | none => exact .inl ⟨_, rfl⟩
    | some st =>
      by_cases howner : st.owner = owner
      · refine .inr ⟨st, rfl, howner, ?_⟩
        simp only [howner, ne_eq, not_true_eq_false, if_false]
        rfl
      · refine .inl ⟨.invalidInput "command queue owner mismatch", ?_⟩
        simp only [ne_eq, howner, not_false_eq_true, if_true]
        rfl

theorem createCmdQueue_commands (drops : Prop) (cq : CqHandle) (owner : EntityId) (depth : ℕ)
    (s : LocalGuestUapiSurface) : Commands drops (createCmdQueue cq owner depth) s := by
  unfold Commands
  rcases createCmdQueue_spec cq owner depth s with ⟨e, hexec⟩ | ⟨st, hcq, rfl, hexec⟩ <;> rw [hexec]
  exact .single (.openQueue depth hcq)

/-- The surface after a descriptor has been accepted into a command queue. -/
def accepted (s : LocalGuestUapiSurface) (cmdq : CmdQueueHandle) (queue : CommandQueueState)
    (desc : UapiDescriptor) : LocalGuestUapiSurface :=
  { s with
    tickets := s.tickets + 1
    cmdQueues := Finmap.insert cmdq
      { queue with pending := queue.pending ++ [⟨desc, s.tickets, some cmdq⟩] } s.cmdQueues
    history := { s.history with
      accepted := s.history.accepted ++ [⟨desc, s.tickets, some cmdq⟩] } }

/-- A descriptor is accepted into a queue of its owner that has room; otherwise nothing happens. -/
theorem enqueueCmd_cases (cmdq : CmdQueueHandle) (owner : EntityId) (desc : UapiDescriptor)
    (s : LocalGuestUapiSurface) :
    (∃ e, exec (enqueueCmd cmdq owner desc) s = (.error e, s)) ∨
      ∃ queue counts, s.cmdQueues.lookup cmdq = some queue ∧ queue.owner = owner ∧
        exec (enqueueCmd cmdq owner desc) s = (.ok counts, accepted s cmdq queue desc) := by
  unfold enqueueCmd
  rw [exec_bind_ok (exec_get s)]
  cases hq : s.cmdQueues.lookup cmdq with
  | none => exact .inl ⟨_, rfl⟩
  | some queue =>
    by_cases howner : queue.owner = owner
    · subst howner
      by_cases hfull : queue.pending.length ≥ queue.depth
      · refine .inl ⟨.invalidInput "command queue full", ?_⟩
        simp only [hfull, ne_eq, not_true_eq_false, if_false, if_true]
        rfl
      · let pending := queue.pending ++ [⟨desc, s.tickets, some cmdq⟩]
        refine .inr ⟨queue, (pending.length, queue.depth - pending.length), rfl, rfl, ?_⟩
        simp only [hfull, ne_eq, not_true_eq_false, if_false]
        rfl
    · refine .inl ⟨.invalidInput "command queue owner mismatch", ?_⟩
      simp only [ne_eq, howner, not_false_eq_true, if_true]
      rfl

theorem enqueueCmd_commands (drops : Prop) (cmdq : CmdQueueHandle) (owner : EntityId)
    (desc : UapiDescriptor) (s : LocalGuestUapiSurface) :
    Commands drops (enqueueCmd cmdq owner desc) s := by
  unfold Commands
  rcases enqueueCmd_cases cmdq owner desc s with ⟨e, hexec⟩ | ⟨queue, _, hq, -, hexec⟩ <;> rw [hexec]
  exact .single (.accept desc hq)

/-- The record that stages a descriptor. -/
def stagedRecord (s : LocalGuestUapiSurface) (cq : CqHandle) (sub : Submission) : UapiRecord :=
  { payload :=
      { opId := (ticked s).serviceClock
        kind := runtimeKindForDescriptor sub.desc
        task := runtimeTaskForDescriptor sub.desc
        payload := { cq, sub } }
    readyAt := saturatingAdd (ticked s).serviceClock s.runtimeQueue.queue.issueLatencyUs
    attempts := 0 }

/-- The surface after a descriptor has been staged. -/
def staged (s : LocalGuestUapiSurface) (cq : CqHandle) (sub : Submission) : LocalGuestUapiSurface :=
  { ticked s with
    runtimeQueue := ⟨{ s.runtimeQueue.queue with
      pending := s.runtimeQueue.queue.pending ++ [stagedRecord s cq sub] }⟩ }

/-- Staging appends a record, or fails because the runtime queue is full. -/
theorem stageRuntimeDescriptor_spec (cq : CqHandle) (sub : Submission) (s : LocalGuestUapiSurface) :
    (s.runtimeQueue.queue.pending.length < s.runtimeQueue.queue.queueDepth ∧
        exec (stageRuntimeDescriptor cq sub) s = (.ok (), staged s cq sub)) ∨
      (s.runtimeQueue.queue.queueDepth ≤ s.runtimeQueue.queue.pending.length ∧
        exec (stageRuntimeDescriptor cq sub) s =
          (.error (.invalidInput "uapi runtime queue full"), ticked s)) := by
  have hqueue : (ticked s).runtimeQueue = s.runtimeQueue := rfl
  unfold stageRuntimeDescriptor
  rw [exec_bind_ok (nextServiceTime_exec s)]
  dsimp only
  rw [exec_bind_ok (exec_get (ticked s)), hqueue]
  by_cases hfull : s.runtimeQueue.queue.pending.length ≥ s.runtimeQueue.queue.queueDepth
  · refine .inr ⟨hfull, ?_⟩
    simp only [SharedRuntimeExecutor.enqueue, SharedRuntimeQueue.enqueue, if_pos hfull, Except.map]
    rfl
  · refine .inl ⟨by omega, ?_⟩
    simp only [SharedRuntimeExecutor.enqueue, SharedRuntimeQueue.enqueue, if_neg hfull, Except.map]
    rfl

/-- Staging a batch; the rest of it is dropped when the runtime queue is full. -/
theorem stageAll_steps (drops : Prop) (cq : CqHandle) (staged : List Submission)
    (s : LocalGuestUapiSurface)
    (hfits : ¬drops → staged.length ≤
      s.runtimeQueue.queue.queueDepth - s.runtimeQueue.queue.pending.length) :
    Steps drops
      (s.during { waiting := s.runtimeQueue.queue.pending
                  batch := staged.map fun sub => (cq, sub) })
      (exec (stageAll cq staged) s).2.flow := by
  induction staged generalizing s with
  | nil => exact .refl
  | cons sub rest ih =>
    rcases stageRuntimeDescriptor_spec cq sub s with ⟨hroom, hexec⟩ | ⟨hfull, hexec⟩
    · rw [stageAll, exec_bind_ok hexec]
      have hstage : Step drops
          (s.during { waiting := s.runtimeQueue.queue.pending
                      batch := (sub :: rest).map fun sub => (cq, sub) })
          (s.during { waiting := s.runtimeQueue.queue.pending ++ [stagedRecord s cq sub]
                      batch := rest.map fun sub => (cq, sub) }) := .stage rfl rfl
      refine .head hstage (ih (staged s cq sub) fun hdrops => ?_)
      have := hfits hdrops
      simp only [staged, List.length_cons, List.length_append, List.length_nil] at this ⊢
      omega
    · rw [stageAll, exec_bind_error hexec]
      refine .single (.drop ?_)
      by_contra hdrops
      have := hfits hdrops
      simp only [List.length_cons] at this
      omega

/-- The surface after a doorbell has popped the first `n` submissions of a queue. -/
def popped (s : LocalGuestUapiSurface) (cmdq : CmdQueueHandle) (queue : CommandQueueState) (n : ℕ) :
    LocalGuestUapiSurface :=
  { s with
    cmdQueues := Finmap.insert cmdq { queue with pending := queue.pending.drop n } s.cmdQueues }

/-- What a doorbell of the owner does: it pops the batch and then stages it. -/
theorem ringDoorbell_exec {cmdq : CmdQueueHandle} {queue : CommandQueueState} (maxBatch : Option ℕ)
    {s : LocalGuestUapiSurface} (hq : s.cmdQueues.lookup cmdq = some queue) :
    exec (ringDoorbell cmdq queue.owner maxBatch) s = exec (do
      stageAll queue.cq (queue.pending.take (batchSize maxBatch queue))
      return ((queue.pending.take (batchSize maxBatch queue)).length,
        (queue.pending.drop (batchSize maxBatch queue)).length))
      (popped s cmdq queue (batchSize maxBatch queue)) := by
  rw [ringDoorbell, exec_bind_ok (exec_get s), hq]
  simp only [ne_eq, not_true_eq_false, if_false]
  rfl

/-- A doorbell of someone else does nothing. -/
theorem ringDoorbell_foreign {cmdq : CmdQueueHandle} {owner : EntityId} (maxBatch : Option ℕ)
    {s : LocalGuestUapiSurface}
    (hforeign : ∀ queue, s.cmdQueues.lookup cmdq = some queue → queue.owner ≠ owner) :
    ∃ e, exec (ringDoorbell cmdq owner maxBatch) s = (.error e, s) := by
  rw [ringDoorbell, exec_bind_ok (exec_get s)]
  cases hq : s.cmdQueues.lookup cmdq with
  | none => exact ⟨_, rfl⟩
  | some queue =>
    refine ⟨.invalidInput "command queue owner mismatch", ?_⟩
    simp only [ne_eq, hforeign queue hq, not_false_eq_true, if_true]
    rfl

/-- The doorbell's queue is there and belongs to the owner, or it is not. -/
theorem doorbell_cases (s : LocalGuestUapiSurface) (cmdq : CmdQueueHandle) (owner : EntityId) :
    (∃ queue, s.cmdQueues.lookup cmdq = some queue ∧ queue.owner = owner) ∨
      ∀ queue, s.cmdQueues.lookup cmdq = some queue → queue.owner ≠ owner := by
  by_contra hneither
  push Not at hneither
  obtain ⟨hno, queue, hq, howner⟩ := hneither
  exact hno queue hq howner

theorem ringDoorbell_commands (drops : Prop) (cmdq : CmdQueueHandle) (owner : EntityId)
    (maxBatch : Option ℕ) (s : LocalGuestUapiSurface)
    (hfits : ¬drops → ∀ queue, s.cmdQueues.lookup cmdq = some queue → queue.owner = owner →
      batchSize maxBatch queue ≤
        s.runtimeQueue.queue.queueDepth - s.runtimeQueue.queue.pending.length) :
    Commands drops (ringDoorbell cmdq owner maxBatch) s := by
  unfold Commands
  rcases doorbell_cases s cmdq owner with ⟨queue, hq, rfl⟩ | hforeign
  · let n := batchSize maxBatch queue
    let s₁ := popped s cmdq queue n
    have htake : Steps drops s.flow (s₁.during
        { waiting := s.runtimeQueue.queue.pending
          batch := (queue.pending.take n).map fun sub => (queue.cq, sub) }) :=
      Flow.take_steps _ _ s.flow hq (List.take_append_drop _ _).symm
    have hstage := stageAll_steps drops queue.cq (queue.pending.take n) s₁ fun hdrops => by
      rw [List.length_take]
      exact (Nat.min_le_left ..).trans (hfits hdrops queue hq rfl)
    rw [ringDoorbell_exec maxBatch hq]
    exact (exec_map_snd _ _ s₁).symm ▸ htake.trans hstage
  · obtain ⟨e, hexec⟩ := ringDoorbell_foreign maxBatch hforeign
    rw [hexec]

/-- A segment is registered under the next id, which is used up even if that fails. -/
theorem createSegment_spec (bytes : UInt64) (s : LocalGuestUapiSurface) :
    (∃ e s', exec (createSegment bytes) s = (.error e, s') ∧
        (s' = s ∨ s' = { s with nextSegmentId := s.nextSegmentId + 1 })) ∨
      ∃ shmemService, s.shmemService.registerSegment ⟨s.nextSegmentId + 1⟩ 0 bytes =
          .ok shmemService ∧
        exec (createSegment bytes) s = (.ok ⟨s.nextSegmentId + 1⟩,
          { s with nextSegmentId := s.nextSegmentId + 1, shmemService }) := by
  unfold createSegment
  by_cases hbytes : bytes = 0
  · rw [if_pos hbytes]
    exact .inl ⟨_, _, rfl, .inl rfl⟩
  · rw [if_neg hbytes, exec_bind_ok (exec_get s), exec_bind_ok (exec_set s _)]
    cases hcall : s.shmemService.registerSegment ⟨s.nextSegmentId + 1⟩ 0 bytes with
    | error e =>
      refine .inl ⟨e, { s with nextSegmentId := s.nextSegmentId + 1 }, ?_, .inr rfl⟩
      simp only [hcall]
      rfl
    | ok shmemService =>
      refine .inr ⟨shmemService, rfl, ?_⟩
      simp only [hcall]
      rfl

/-- Segments are not part of the flow. -/
theorem createSegment_commands (drops : Prop) (bytes : UInt64) (s : LocalGuestUapiSurface) :
    Commands drops (createSegment bytes) s := by
  unfold Commands
  rcases createSegment_spec bytes s with ⟨e, s', hexec, rfl | rfl⟩ | ⟨stub, hcall, hexec⟩ <;>
    rw [hexec]
  · exact .refl
  · let s₁ := { s with nextSegmentId := s.nextSegmentId + 1, shmemService := stub }
    have hstub := ShmemServiceStub.registerSegment_ok hcall
    have hservices : s₁.services = s.services := by
      funext source
      cases source <;> simp only [s₁, hstub, LocalGuestUapiSurface.services]
    have hdepths : s₁.depths = s.depths := by
      funext source
      cases source <;> simp only [s₁, hstub, LocalGuestUapiSurface.depths]
    have hflow : s₁.flow = { s.flow with services := s₁.services, depths := s₁.depths } := rfl
    rw [hservices, hdepths] at hflow
    exact hflow ▸ .refl

theorem getHealth_state (entity : EntityId) (s : LocalGuestUapiSurface) :
    (exec (getHealth entity) s).2 = s := by
  unfold getHealth
  rw [exec_bind_ok (exec_get s)]
  cases s.topology.entities.find? fun e => e.id == entity <;> rfl

theorem getHealth_commands (drops : Prop) (entity : EntityId) (s : LocalGuestUapiSurface) :
    Commands drops (getHealth entity) s := by
  rw [Commands, getHealth_state]

/-- A direct submission enters with the default queue; it is forgotten when its service refuses
it. -/
theorem submitDirect_commands (drops : Prop) (desc : UapiDescriptor) (s : LocalGuestUapiSurface) :
    Commands drops (submitDirect desc) s := by
  unfold Commands submitDirect
  rcases defaultCq_spec s with ⟨cq, st, hcq, hexec⟩ | ⟨_, hexec⟩
  · rw [exec_bind_ok hexec]
    let sub : Submission := { desc, ticket := s.tickets, queue := none }
    let s₁ := { s with tickets := s.tickets + 1 }
    let h : Hands := { waiting := s.runtimeQueue.queue.pending, subject := some (cq, sub) }
    have henter : Step drops s.flow (s₁.during h) := .enter desc rfl hcq
    rw [exec_bind_ok (show exec (enter desc none) s = (.ok sub, s₁) from rfl)]
    obtain ⟨hsame, hdispose⟩ := submitDescriptorToCq_disposes sub cq s₁
    obtain ⟨hok, herror⟩ := hdispose drops h rfl rfl
    have hflow : (exec (submitDescriptorToCq sub cq) s₁).2.flow =
        (exec (submitDescriptorToCq sub cq) s₁).2.during { h with subject := none } := by
      rw [LocalGuestUapiSurface.flow, hsame.1]
    rw [hflow]
    cases hresult : (exec (submitDescriptorToCq sub cq) s₁).1 with
    | ok opId => exact .head henter (.single (hok opId hresult))
    | error e =>
      let s₂ := (exec (submitDescriptorToCq sub cq) s₁).2
      have hforget : Step drops (s₂.during h) (s₂.during { h with subject := none }) :=
        .forget rfl rfl
      rw [herror e hresult] at hforget
      exact .head henter (.single hforget)
  · rw [exec_bind_error hexec]

/-- The doorbell's batch fits into the runtime queue; other commands always fit. -/
def DoorbellFits (s : LocalGuestUapiSurface) : UapiCommand → Prop
  | .ringDoorbell cmdq owner maxBatch =>
    ∀ queue ∈ s.cmdQueues.lookup cmdq, queue.owner = owner →
      batchSize maxBatch queue ≤
        s.runtimeQueue.queue.queueDepth - s.runtimeQueue.queue.pending.length
  | _ => True

instance (s : LocalGuestUapiSurface) : (cmd : UapiCommand) → Decidable (DoorbellFits s cmd)
  | .ringDoorbell cmdq owner maxBatch =>
    inferInstanceAs (Decidable (∀ queue ∈ s.cmdQueues.lookup cmdq, queue.owner = owner →
      batchSize maxBatch queue ≤
        s.runtimeQueue.queue.queueDepth - s.runtimeQueue.queue.pending.length))
  | .queryTopology | .createSegment _ | .registerCq _ | .createCmdQueue .. | .enqueueCmd ..
  | .submitIo _ | .submitBlockWriteback .. | .submitShmemPut _ | .submitShmemGet _
  | .submitDfsRead _ | .submitDfsWrite _ | .submitDbPut _ | .submitDbGet _ | .pollCq ..
  | .drainCq .. | .getHealth _ => isTrue trivial

theorem execute_commands (cmd : UapiCommand) (s : LocalGuestUapiSurface) :
    Commands (¬DoorbellFits s cmd) (execute cmd) s := by
  cases cmd with
  | queryTopology => exact .refl
  | createSegment bytes => exact (createSegment_commands _ bytes s).map _
  | registerCq owner => exact (registerCq_commands _ owner s).map _
  | createCmdQueue cq owner depth => exact (createCmdQueue_commands _ cq owner depth s).map _
  | enqueueCmd cmdq owner desc => exact (enqueueCmd_commands _ cmdq owner desc s).map _
  | ringDoorbell cmdq owner maxBatch =>
    refine (ringDoorbell_commands _ cmdq owner maxBatch s fun hfits => ?_).map _
    exact not_not.1 hfits
  | submitIo req => exact (submitDirect_commands _ _ s).map _
  | submitBlockWriteback block task => exact (submitDirect_commands _ _ s).map _
  | submitShmemPut req => exact (submitDirect_commands _ _ s).map _
  | submitShmemGet req => exact (submitDirect_commands _ _ s).map _
  | submitDfsRead req => exact (submitDirect_commands _ _ s).map _
  | submitDfsWrite req => exact (submitDirect_commands _ _ s).map _
  | submitDbPut req => exact (submitDirect_commands _ _ s).map _
  | submitDbGet req => exact (submitDirect_commands _ _ s).map _
  | pollCq cq owner maxEntries => exact (pollCqWithOwner_commands _ cq owner maxEntries s).map _
  | drainCq cq owner => exact (pollCqWithOwner_commands _ cq owner none s).map _
  | getHealth entity => exact (getHealth_commands _ entity s).map _

end Uapi

namespace LocalGuestUapiSurface

open Flow (Step Steps)

/-- Every command, whatever it returns, is a sequence of moves. -/
theorem execute_steps (s : LocalGuestUapiSurface) (cmd : UapiCommand) :
    Steps (¬Uapi.DoorbellFits s cmd) s.flow (s.execute cmd).2.flow :=
  Uapi.execute_commands cmd s

variable {P : Flow → Prop} {s : LocalGuestUapiSurface}

/-- **What every move keeps holds after every run.** -/
theorem run_invariant (hstep : ∀ f f', P f → Step True f f' → P f') (hs : P s.flow)
    (cmds : List UapiCommand) : P (s.run cmds).flow := by
  induction cmds generalizing s with
  | nil => exact hs
  | cons cmd cmds ih =>
    refine ih (LTS.steps_invariant hstep hs ?_)
    exact Flow.Steps.mono (fun _ => trivial) (s.execute_steps cmd)

/-- Every doorbell of the run finds room for its batch. -/
def DoorbellsFit (s : LocalGuestUapiSurface) : List UapiCommand → Prop
  | [] => True
  | cmd :: cmds => Uapi.DoorbellFits s cmd ∧ DoorbellsFit (s.execute cmd).2 cmds

instance decidableDoorbellsFit :
    (s : LocalGuestUapiSurface) → (cmds : List UapiCommand) → Decidable (s.DoorbellsFit cmds)
  | _, [] => isTrue trivial
  | s, cmd :: cmds =>
    have := decidableDoorbellsFit (s.execute cmd).2 cmds
    inferInstanceAs (Decidable (Uapi.DoorbellFits s cmd ∧ DoorbellsFit (s.execute cmd).2 cmds))

/-- What every move that drops nothing keeps holds after every run whose doorbells fit. -/
theorem run_invariant_of_fits (hstep : ∀ f f', P f → Step False f f' → P f') (hs : P s.flow)
    {cmds : List UapiCommand} (hfits : s.DoorbellsFit cmds) : P (s.run cmds).flow := by
  induction cmds generalizing s with
  | nil => exact hs
  | cons cmd cmds ih =>
    obtain ⟨hcmd, hrest⟩ := hfits
    refine ih (LTS.steps_invariant hstep hs ?_) hrest
    exact Flow.Steps.mono (fun hover => hover hcmd) (s.execute_steps cmd)

/-! ### A configuration to evaluate runs on -/

/-- The hash order that takes the largest handle. -/
def HashOrder.descending : HashOrder where
  first keys := if keys.Nonempty then some ⟨keys.sup (·.id)⟩ else none
  first_mem keys cq h := by
    split_ifs at h with hkeys
    obtain ⟨cq', hmem, hsup⟩ := Finset.exists_mem_eq_sup keys hkeys (·.id)
    rw [← Option.some.inj h, hsup]
    exact hmem
  first_isSome keys h := by
    rw [if_pos h]
    rfl

/-- The default configuration on an empty topology, with the given depths of the database queue
and of the runtime queue. -/
def Config.sample (dbDepth : UInt64) (runtimeQueueDepth : ℕ) : Config :=
  { Config.default ⟨[], [], [], [], [], [], [], []⟩ HashOrder.descending with
    dbProfile := { DbServiceProfile.default with queueDepth := dbDepth }
    runtimeQueueDepth }

end LocalGuestUapiSurface

end LinquUb
