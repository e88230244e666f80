import LinquUb.Uapi.Steady

/-!
# Does the hash order show?

Hash maps are only looked up, except that `default_cq` takes the first key of `cq_events`, whichever
that is.  In a reachable state a flush never asks for a default queue, so only the direct
submissions do.

* `LocalGuestUapiSurface.responses` : the responses of a run;
* `SamePick` : a direct submission finds at most one completion queue, or both orders pick the same;
* `LocalGuestUapiSurface.responses_reproducible` : **then the responses do not depend on the hash
  order**.
-/

namespace LinquUb

open Action

namespace HashOrder

/-- There is nothing to choose from. -/
theorem first_eq_of_card_le_one (order order' : HashOrder) {keys : Finset CqHandle}
    (hcard : keys.card ≤ 1) : order.first keys = order'.first keys := by
  have hsome : ∀ o : HashOrder, ∀ cq ∈ keys, o.first keys = some cq := by
    intro o cq hcq
    obtain ⟨cq', hfirst⟩ := Option.isSome_iff_exists.1 (o.first_isSome keys ⟨cq, hcq⟩)
    rw [hfirst, Finset.card_le_one.1 hcard cq' (o.first_mem keys cq' hfirst) cq hcq]
  have hnone : keys = ∅ → ∀ o : HashOrder, o.first keys = none := by
    rintro rfl o
    refine Option.eq_none_iff_forall_ne_some.2 fun cq hfirst => ?_
    exact absurd (o.first_mem ∅ cq hfirst) (Finset.notMem_empty cq)
  rcases keys.eq_empty_or_nonempty with hempty | ⟨cq, hcq⟩
  · rw [hnone hempty, hnone hempty]
  · rw [hsome order cq hcq, hsome order' cq hcq]

/-- The hash order that takes the smallest handle. -/
def ascending : HashOrder where
  first keys := if h : keys.Nonempty then some ⟨keys.inf' h (·.id)⟩ else none
  first_mem keys cq h := by
    split_ifs at h with hkeys
    obtain ⟨cq', hmem, hinf⟩ := Finset.exists_mem_eq_inf' hkeys (·.id)
    rw [← Option.some.inj h, hinf]
    exact hmem
  first_isSome keys h := by
    rw [dif_pos h]
    rfl

end HashOrder

/-- The submissions that take the default completion queue. -/
def UapiCommand.isDirect : UapiCommand → Bool
  | .submitIo _ | .submitBlockWriteback .. | .submitShmemPut _ | .submitShmemGet _
  | .submitDfsRead _ | .submitDfsWrite _ | .submitDbPut _ | .submitDbGet _ => true
  | _ => false

namespace Uapi

open Flow (Isolated)
open LocalGuestUapiSurface (reorder)

variable {s : LocalGuestUapiSurface}

/-! ### Commands that choose no completion queue -/

theorem createSegment_orderless (bytes : UInt64) (s : LocalGuestUapiSurface) :
    Orderless (exec (createSegment bytes)) s := by
  intro order
  have hshmem : (reorder order s).shmemService = s.shmemService := rfl
  have hsegment : (reorder order s).nextSegmentId = s.nextSegmentId := rfl
  by_cases hbytes : bytes = 0
  · simp only [Ignores, createSegment, hbytes, if_true]
    rfl
  · simp only [Ignores, createSegment, hbytes, if_false]
    rw [exec_bind_ok (exec_get s), exec_bind_ok (exec_get (reorder order s))]
    rw [hshmem, hsegment]
    cases s.shmemService.registerSegment ⟨s.nextSegmentId + 1⟩ 0 bytes <;> rfl

theorem createCmdQueue_orderless (cq : CqHandle) (owner : EntityId) (depth : ℕ)
    (s : LocalGuestUapiSurface) : Orderless (exec (createCmdQueue cq owner depth)) s := by
  intro order
  have hcqs : (reorder order s).cqEvents = s.cqEvents := rfl
  by_cases hdepth : depth = 0
  · simp only [Ignores, createCmdQueue, hdepth, if_true]
    rfl
  · simp only [Ignores, createCmdQueue, hdepth, if_false]
    rw [exec_bind_ok (exec_get s), exec_bind_ok (exec_get (reorder order s)), hcqs]
    cases s.cqEvents.lookup cq with
    | none => rfl
    | some st =>
      by_cases howner : st.owner = owner
      · simp only [howner, ne_eq, not_true_eq_false, if_false]
        rfl
      · simp only [ne_eq, howner, not_false_eq_true, if_true]
        rfl

theorem enqueueCmd_orderless (cmdq : CmdQueueHandle) (owner : EntityId) (desc : UapiDescriptor)
    (s : LocalGuestUapiSurface) : Orderless (exec (enqueueCmd cmdq owner desc)) s := by
  intro order
  have hqueues : (reorder order s).cmdQueues = s.cmdQueues := rfl
  simp only [Ignores, enqueueCmd]
  rw [exec_bind_ok (exec_get s), exec_bind_ok (exec_get (reorder order s)), hqueues]
  cases s.cmdQueues.lookup cmdq with
  | none => rfl
  | some queue =>
    by_cases howner : queue.owner = owner
    · by_cases hfull : queue.pending.length ≥ queue.depth
      · simp only [howner, hfull, ne_eq, not_true_eq_false, if_false, if_true]
        rfl
      · simp only [howner, hfull, ne_eq, not_true_eq_false, if_false]
        rfl
    · simp only [ne_eq, howner, not_false_eq_true, if_true]
      rfl

theorem getHealth_orderless (entity : EntityId) (s : LocalGuestUapiSurface) :
    Orderless (exec (getHealth entity)) s := by
  intro order
  have htopology : (reorder order s).topology = s.topology := rfl
  simp only [Ignores, getHealth]
  rw [exec_bind_ok (exec_get s), exec_bind_ok (exec_get (reorder order s)), htopology]
  cases s.topology.entities.find? fun e => e.id == entity <;> rfl

theorem stageAll_orderless (cq : CqHandle) (staged : List Submission) (s : LocalGuestUapiSurface) :
    Orderless (exec (stageAll cq staged)) s := by
  induction staged generalizing s with
  | nil => exact fun _ => rfl
  | cons sub rest ih =>
    have hstage : Orderless (exec (stageRuntimeDescriptor cq sub)) s := by
      intro order
      have hqueue : (reorder order s).runtimeQueue = s.runtimeQueue := rfl
      rcases stageRuntimeDescriptor_spec cq sub s with ⟨hroom, hexec⟩ | ⟨hfull, hexec⟩ <;>
        rcases stageRuntimeDescriptor_spec cq sub (reorder order s) with
          ⟨hroom', hexec'⟩ | ⟨hfull', hexec'⟩
      · rw [Ignores, hexec, hexec']
        rfl
      · rw [hqueue] at hfull'
        omega
      · rw [hqueue] at hroom'
        omega
      · rw [Ignores, hexec, hexec']
        rfl
    exact hstage.bind fun _ s' _ => ih s'

theorem ringDoorbell_orderless (cmdq : CmdQueueHandle) (owner : EntityId) (maxBatch : Option ℕ)
    (s : LocalGuestUapiSurface) : Orderless (exec (ringDoorbell cmdq owner maxBatch)) s := by
  intro order
  cases hq : s.cmdQueues.lookup cmdq with
  | none =>
    have hq' : (reorder order s).cmdQueues.lookup cmdq = none := hq
    rw [Ignores, ringDoorbell, exec_bind_ok (exec_get s), exec_bind_ok (exec_get (reorder order s)),
      hq, hq']
    rfl
  | some queue =>
    have hq' : (reorder order s).cmdQueues.lookup cmdq = some queue := hq
    by_cases howner : queue.owner = owner
    · subst howner
      rw [Ignores, ringDoorbell_exec maxBatch hq, ringDoorbell_exec maxBatch hq']
      have hrest : ∀ (n : ℕ) s₁, Orderless (exec (do
          stageAll queue.cq (queue.pending.take n)
          return ((queue.pending.take n).length, (queue.pending.drop n).length))) s₁ := fun n s₁ =>
        (stageAll_orderless _ _ s₁).bind fun _ _ _ _ => rfl
      exact hrest (batchSize maxBatch queue) (popped s cmdq queue (batchSize maxBatch queue)) order
    · rw [Ignores, ringDoorbell, exec_bind_ok (exec_get s),
        exec_bind_ok (exec_get (reorder order s)), hq, hq']
      simp only [ne_eq, howner, not_false_eq_true, if_true]
      rfl

/-- A poll asks for no default queue, since every completion has a route. -/
theorem pollCqWithOwner_orderless (hs : Isolated s.flow) (cq : CqHandle) (owner : EntityId)
    (maxEntries : Option ℕ) : Orderless (exec (pollCqWithOwner cq owner maxEntries)) s := by
  unfold pollCqWithOwner
  refine (flushRuntime_steady hs).orderless.bind fun _ s₁ hexec => ?_
  have hsteps := flushRuntime_steps False s
  rw [hexec] at hsteps
  refine (flushServices_calm u64Max _ s₁ rfl (hs.steps hsteps)).orderless.bind fun _ s₂ _ order => ?_
  have hcqs : (reorder order s₂).cqEvents = s₂.cqEvents := rfl
  rw [Ignores, exec_bind_ok (exec_get s₂), exec_bind_ok (exec_get (reorder order s₂)), hcqs]
  cases s₂.cqEvents.lookup cq with
  | none => rfl
  | some queue =>
    by_cases howner : queue.owner = owner
    · simp only [howner, ne_eq, not_true_eq_false, if_false]
      rfl
    · simp only [ne_eq, howner, not_false_eq_true, if_true]
      rfl

/-! ### Commands -/

/-- When the command is a direct submission, there is at most one completion queue, or `order` picks
the same one as the surface does. -/
def SamePick (order : HashOrder) (s : LocalGuestUapiSurface) (cmd : UapiCommand) : Prop :=
  cmd.isDirect = true →
    s.cqEvents.keys.card ≤ 1 ∨ order.first s.cqEvents.keys = s.hashOrder.first s.cqEvents.keys

instance (order : HashOrder) (s : LocalGuestUapiSurface) (cmd : UapiCommand) :
    Decidable (SamePick order s cmd) :=
  inferInstanceAs (Decidable (cmd.isDirect = true → _))

theorem submitDirect_ignores {order : HashOrder} (desc : UapiDescriptor)
    (hpick : order.first s.cqEvents.keys = s.hashOrder.first s.cqEvents.keys) :
    Ignores (reorder order) (exec (submitDirect desc)) s := by
  have hdefault : Ignores (reorder order) (exec defaultCq) s := by
    have hfirst : (reorder order s).hashOrder.first (reorder order s).cqEvents.keys =
      s.hashOrder.first s.cqEvents.keys := hpick
    rw [Ignores, defaultCq, exec_bind_ok (exec_get s), exec_bind_ok (exec_get (reorder order s)),
      hfirst]
    cases s.hashOrder.first s.cqEvents.keys <;> rfl
  -- from here on the queue is known, and the order is not asked again
  refine hdefault.bind fun cq s₁ _ => ?_
  have henter : Ignores (reorder order) (exec (enter desc none)) s₁ := rfl
  exact henter.bind fun sub s₂ _ => submitDescriptorToCq_orderless sub cq s₂ order

theorem execute_ignores (hs : Isolated s.flow) {order : HashOrder} {cmd : UapiCommand}
    (hpick : SamePick order s cmd) : Ignores (reorder order) (exec (execute cmd)) s := by
  have hmap : ∀ {α : Type} {m : Uapi α} (f : α → UapiResponse), Ignores (reorder order) (exec m) s →
      Ignores (reorder order) (exec (do return f (← m))) s := fun f hm =>
    hm.bind fun _ _ _ => rfl
  have hdirect : cmd.isDirect = true → ∀ desc,
      Ignores (reorder order) (exec (submitDirect desc)) s := by
    intro hcmd desc
    refine submitDirect_ignores desc ?_
    -- one queue leaves no choice
    rcases hpick hcmd with hcard | hfirst
    · exact HashOrder.first_eq_of_card_le_one order s.hashOrder hcard
    · exact hfirst
  cases cmd with
  | queryTopology => rfl
  | createSegment bytes => exact hmap _ (createSegment_orderless bytes s order)
  | registerCq owner => rfl
  | createCmdQueue cq owner depth => exact hmap _ (createCmdQueue_orderless cq owner depth s order)
  | enqueueCmd cmdq owner desc => exact hmap _ (enqueueCmd_orderless cmdq owner desc s order)
  | ringDoorbell cmdq owner maxBatch =>
    exact hmap _ (ringDoorbell_orderless cmdq owner maxBatch s order)
  | submitIo req => exact hmap _ (hdirect rfl _)
  | submitBlockWriteback block task => exact hmap _ (hdirect rfl _)
  | submitShmemPut req | submitShmemGet req => exact hmap _ (hdirect rfl _)
  | submitDfsRead req | submitDfsWrite req => exact hmap _ (hdirect rfl _)
  | submitDbPut req | submitDbGet req => exact hmap _ (hdirect rfl _)
  | pollCq cq owner maxEntries => exact hmap _ (pollCqWithOwner_orderless hs cq owner maxEntries order)
  | drainCq cq owner => exact hmap _ (pollCqWithOwner_orderless hs cq owner none order)
  | getHealth entity => exact hmap _ (getHealth_orderless entity s order)

end Uapi

namespace LocalGuestUapiSurface

open Flow (Isolated)
open Uapi (SamePick)

/-- What the commands of a run return. -/
def responses (self : LocalGuestUapiSurface) :
    List UapiCommand → List (Except SimError UapiResponse)
  | [] => []
  | cmd :: cmds => (self.execute cmd).1 :: responses (self.execute cmd).2 cmds

/-- No direct submission of the run tells the two orders apart. -/
def SamePicks (order : HashOrder) (s : LocalGuestUapiSurface) : List UapiCommand → Prop
  | [] => True
  | cmd :: cmds => SamePick order s cmd ∧ SamePicks order (s.execute cmd).2 cmds

instance decidableSamePicks (order : HashOrder) :
    (s : LocalGuestUapiSurface) → (cmds : List UapiCommand) → Decidable (SamePicks order s cmds)
  | _, [] => isTrue trivial
  | s, cmd :: cmds =>
    have := decidableSamePicks order (s.execute cmd).2 cmds
    inferInstanceAs (Decidable (SamePick order s cmd ∧ SamePicks order (s.execute cmd).2 cmds))

theorem responses_reorder {order : HashOrder} (cmds : List UapiCommand) (s : LocalGuestUapiSurface)
    (hs : Isolated s.flow) (hpicks : SamePicks order s cmds) :
    (reorder order s).responses cmds = s.responses cmds := by
  induction cmds generalizing s with
  | nil => rfl
  | cons cmd cmds ih =>
    obtain ⟨hpick, hrest⟩ := hpicks
    have hstep : (reorder order s).execute cmd =
      ((s.execute cmd).1, reorder order (s.execute cmd).2) := Uapi.execute_ignores hs hpick
    -- the same response, and states that differ in the hash order only
    rw [responses, responses, hstep, ih _ (hs.steps (s.execute_steps cmd)) hrest]

/-- **Reproducibility**: a run answers the same under any other iteration order of the hash maps, as
long as its direct submissions do not choose among several completion queues, or both orders make
the same choice. -/
theorem responses_reproducible (config : Config) (order : HashOrder) (cmds : List UapiCommand)
    (hpicks : SamePicks order (withProfilesAndRuntimePolicy config) cmds) :
    (withProfilesAndRuntimePolicy { config with hashOrder := order }).responses cmds =
      (withProfilesAndRuntimePolicy config).responses cmds :=
  responses_reorder cmds _ (run_isolated config []) hpicks

/-- A direct put with one completion queue, and a get through a command queue with two. -/
theorem responses_reproducible_twoQueues :
    let cmds : List UapiCommand := [.registerCq 1, .submitDbPut ⟨none, "a", 8⟩, .registerCq 2,
      .createCmdQueue ⟨2⟩ 2 4, .enqueueCmd ⟨1⟩ 2 (.dbGet ⟨none, "a"⟩), .ringDoorbell ⟨1⟩ 2 none,
      .drainCq ⟨1⟩ 1, .drainCq ⟨2⟩ 2]
    (withProfilesAndRuntimePolicy { Config.sample 16 2 with hashOrder := .ascending }).responses
      cmds = (withProfilesAndRuntimePolicy (.sample 16 2)).responses cmds :=
  responses_reproducible (.sample 16 2) .ascending _ (by decide +kernel)

/-- With two completion queues a direct submission shows the hash order. -/
theorem direct_submission_shows_order :
    ¬∀ config order cmds,
      (withProfilesAndRuntimePolicy { config with hashOrder := order }).responses cmds =
        (withProfilesAndRuntimePolicy config).responses cmds := by
  intro hsame
  have hdiffer : (withProfilesAndRuntimePolicy { Config.sample 16 2 with
      hashOrder := .ascending }).responses
        [.registerCq 1, .registerCq 2, .submitDbGet ⟨none, "a"⟩, .drainCq ⟨1⟩ 1] ≠
      (withProfilesAndRuntimePolicy (.sample 16 2)).responses
        [.registerCq 1, .registerCq 2, .submitDbGet ⟨none, "a"⟩, .drainCq ⟨1⟩ 1] := by
    decide +kernel
  exact hdiffer (hsame _ _ _)

end LocalGuestUapiSurface

end LinquUb
