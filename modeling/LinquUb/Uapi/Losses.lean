import LinquUb.Uapi.Conservation
import LinquUb.Uapi.Doorbell

/-!
# Losses

The only move that loses submissions is the one that drops the rest of a batch.  A dropped batch
might as well have been handed back to a guest: no later move looks at what was returned.  So the
accounts of the moves that drop nothing serve for all moves.

* `Flow.asReturned` : a flow that has handed back some submissions in front of everything else;
* `Flow.Accounts` : with the dropped submissions handed back, all submissions are accounted for;
* `Flow.Registered` : a submission that came through a command queue was accepted, wherever it is;
* `LocalGuestUapiSurface.accepted_accounted` : **what a run loses**, and that it says so.
-/

namespace LinquUb

open Action

namespace Flow

variable {f f' : Flow} {drops : Prop} {lost lost' : List Return}

/-! ### Dropped submissions -/

/-- As if `lost` had been handed back in front of everything else. -/
def asReturned (f : Flow) (lost : List Return) : Flow :=
  { f with history := { f.history with
      pushes := lost.map (fun r => (r.cq, r.entry)) ++ f.history.pushes
      returns := lost ++ f.history.returns } }

/-- A move that drops nothing does not look at what was returned. -/
theorem Step.asReturned (lost : List Return) (hs : Step False f f') :
    Step False (f.asReturned lost) (f'.asReturned lost) := by
  cases hs with
  | openCq owner => exact .openCq owner
  | openQueue depth hcq => exact .openQueue depth hcq
  | accept desc hq => exact .accept desc hq
  | take hq hpending => exact .take hq hpending
  | stage hbatch hrecord => exact .stage hbatch hrecord
  | drop hdrops => exact hdrops.elim
  | gather hready => exact .gather hready
  | pick hready hsubject => exact .pick hready hsubject
  | enter desc hsubject hcq => exact .enter desc hsubject hcq
  | served hsubject hpolled hroom howner hkey hrows =>
    exact .served hsubject hpolled hroom howner hkey hrows
  | @answered cq sub st event hsubject hcq hevent =>
    have h : Step False (f.asReturned lost) _ := .answered hsubject hcq hevent
    simpa only [Flow.asReturned, push, List.append_assoc] using h
  | refuse hsubject => exact .refuse hsubject
  | requeue hsubject hrecord hrefused => exact .requeue hsubject hrecord hrefused
  | giveUp hsubject hcq hsub => exact .giveUp hsubject hcq hsub
  | forget hsubject hdirect => exact .forget hsubject hdirect
  | report hfailing hcq hevent =>
    have h : Step False (f.asReturned lost) _ := .report hfailing hcq hevent
    simpa only [Flow.asReturned, push, List.append_assoc] using h
  | strandFailing hfailing hcq => exact .strandFailing hfailing hcq
  | poll hpolled htaken => exact .poll hpolled htaken
  | @route entry rest cq st hpolled hdest hcq =>
    have h : Step False (f.asReturned lost) _ := .route hpolled hdest hcq
    simpa only [Flow.asReturned, push, unroute, List.append_assoc] using h
  | strandPolled hpolled hnone => exact .strandPolled hpolled hnone
  | handBack hcq htaken =>
    have h : Step False (f.asReturned lost) _ := .handBack hcq htaken
    simpa only [Flow.asReturned, List.append_assoc] using h

/-- A dropped submission with some completion. -/
def handedBack (f : Flow) (x : CqHandle × Submission) : Return :=
  { cq := x.1
    owner := (f.cqOwner x.1).getD 0
    entry := { event := { opId := 0, task := none, source := .guestUapi, status := .success,
                          finishedAt := 0 }
               owner := x.2 } }

/-- With the dropped submissions handed back, all submissions are accounted for. -/
structure Accounts (lost : List Return) (f : Flow) : Prop where
  isolated : Isolated (f.asReturned lost)
  conserved : Conserved (f.asReturned lost)

theorem Isolated.handBack_batch (h : Isolated (f.asReturned lost)) :
    Isolated ({ f with batch := [] }.asReturned (f.batch.map f.handedBack ++ lost)) := by
  have howner : ∀ x ∈ f.batch, f.cqOwner x.1 = some ((f.cqOwner x.1).getD 0) := by
    intro x hx
    obtain ⟨owner, ho⟩ := Option.isSome_iff_exists.1 (h.placed.batch x.1 x.2 hx).1
    have ho : f.cqOwner x.1 = some owner := ho
    rw [ho, Option.getD_some]
  let f' := { f with batch := [] }.asReturned (f.batch.map f.handedBack ++ lost)
  have hwired : Extends (f.asReturned lost) f' ∧ Wired f' := h.wired.same rfl rfl rfl rfl
  have hrouted : Routed f' := h.routed.same rfl rfl rfl rfl
  refine ⟨hwired.2, hrouted, ?_, ?_⟩
  · refine { h.placed with batch := fun cq sub hmem => (by cases hmem), pushes := ?_ }
    intro cq entry hmem
    simp only [Flow.asReturned, List.map_append, List.append_assoc] at hmem
    rcases List.mem_append.1 hmem with hmem | hmem
    · rw [List.map_map] at hmem
      obtain ⟨x, hx, heq⟩ := List.mem_map.1 hmem
      obtain ⟨rfl, rfl⟩ := Prod.mk.inj heq
      exact h.placed.batch x.1 x.2 hx
    · exact h.placed.pushes cq entry hmem
  · refine ⟨h.logged.bindings, fun cq st hcq entry hentry => ?_, fun r hr => ?_⟩
    · have hold := h.logged.events cq st hcq entry hentry
      simp only [Flow.asReturned, List.map_append, List.append_assoc]
      exact List.mem_append_right _ hold
    · simp only [Flow.asReturned, List.map_append, List.append_assoc] at hr ⊢
      rcases List.mem_append.1 hr with hr | hr
      · obtain ⟨x, hx, rfl⟩ := List.mem_map.1 hr
        refine ⟨List.mem_append_left _ ?_, howner x hx⟩
        rw [List.map_map]
        exact List.mem_map.2 ⟨x, hx, rfl⟩
      · obtain ⟨hmem, ho⟩ := h.logged.returns r hr
        exact ⟨List.mem_append_right _ hmem, ho⟩

theorem Conserved.handBack_batch (h : Conserved (f.asReturned lost)) :
    Conserved ({ f with batch := [] }.asReturned (f.batch.map f.handedBack ++ lost)) := by
  refine h.moves .batch .returned (f.batch.map (·.2)) ⟨by simp, ?_, ?_, fun p hpa hpb => ?_⟩ rfl rfl
  · exact .refl _
  · simp only [held, Flow.asReturned, List.map_append, List.map_map]
    rw [List.append_assoc]
    exact List.perm_append_comm
  · cases p <;> first | rfl | contradiction

/-- A move that drops nothing keeps the accounts. -/
theorem Accounts.step (h : Accounts lost f) (hs : Step False f f') : Accounts lost f' :=
  ⟨h.isolated.step (hs.asReturned lost), h.conserved.step h.isolated (hs.asReturned lost)⟩

/-- A drop adds its batch to the losses. -/
theorem Accounts.drop (h : Accounts lost f) :
    Accounts (f.batch.map f.handedBack ++ lost) { f with batch := [] } :=
  ⟨h.isolated.handBack_batch, h.conserved.handBack_batch⟩

/-- An accepted submission is lost and nowhere, or it is at one place. -/
theorem Accounts.cases (h : Accounts lost f) {sub : Submission} (hsub : sub ∈ f.history.accepted) :
    (sub ∈ lost.map (·.entry.owner) ∧ Places.Absent f.held sub) ∨
      (sub ∉ lost.map (·.entry.owner) ∧ Places.Sole f.held sub) := by
  have hsame : ∀ p, p ≠ .returned → (f.asReturned lost).held p = f.held p := by
    intro p hp
    cases p <;> first | rfl | contradiction
  have hreturned : ((f.asReturned lost).held .returned).count sub =
      (lost.map (·.entry.owner)).count sub + (f.held .returned).count sub := by
    simp only [held, Flow.asReturned, List.map_append, List.count_append]
  obtain ⟨p, hp, hother⟩ := h.conserved.accounts.sole sub hsub
  have hplace : ∀ p', p' ≠ p → p' ≠ .returned → (f.held p').count sub = 0 :=
    fun p' hne hret => hsame p' hret ▸ hother p' hne
  by_cases hret : p = .returned
  · subst hret
    rw [hreturned] at hp
    by_cases hzero : (f.held .returned).count sub = 0
    · refine .inl ⟨List.count_pos_iff.1 (by omega), fun p' => ?_⟩
      by_cases hp' : p' = .returned
      · rw [hp', hzero]
      · exact hplace p' hp' hp'
    · refine .inr ⟨List.count_eq_zero.1 (by omega), .returned, by omega, fun p' hne => ?_⟩
      exact hplace p' hne hne
  · have hzero := hreturned ▸ hother .returned (Ne.symm hret)
    refine .inr ⟨List.count_eq_zero.1 (by omega), p, hsame p hret ▸ hp, fun p' hne => ?_⟩
    by_cases hp' : p' = .returned
    · rw [hp']
      omega
    · exact hplace p' hne hp'

/-! ### Accepted submissions -/

/-- Unless something else was given a ticket, the submission was accepted. -/
def Known (f : Flow) (sub : Submission) : Prop :=
  f.tickets = f.history.accepted.length → sub ∈ f.history.accepted

structure Registered (f : Flow) : Prop where
  numbered : f.history.accepted.length ≤ f.tickets
  pending : ∀ q st, f.queues.lookup q = some st → ∀ sub ∈ st.pending, sub ∈ f.history.accepted
  placed : Placed (fun cq sub => f.Proper cq sub ∧ f.Known sub) f

/-- What was accepted stays accepted, and is given a ticket. -/
theorem Step.accepted_prefix (hs : Step drops f f') :
    f.history.accepted <+: f'.history.accepted ∧
      f.tickets + f'.history.accepted.length ≤ f'.tickets + f.history.accepted.length := by
  cases hs with
  | accept desc hq =>
    refine ⟨List.prefix_append _ _, ?_⟩
    simp only [List.length_append, List.length_singleton]
    omega
  | enter desc hsubject hcq => exact ⟨List.prefix_rfl, Nat.add_le_add_right (Nat.le_succ _) _⟩
  | _ => exact ⟨List.prefix_rfl, le_rfl⟩

theorem Known.step (hs : Step drops f f') (hle : f.history.accepted.length ≤ f.tickets)
    {sub : Submission} (h : f.Known sub) : f'.Known sub := by
  obtain ⟨hgrows, hcount⟩ := hs.accepted_prefix
  exact fun heq => hgrows.subset (h (by omega))

theorem Registered.step (h : Registered f) (hi : Isolated f) (hs : Step drops f f') :
    Registered f' := by
  have hext := (hi.wired.step hs).1
  obtain ⟨hgrows, hcount⟩ := hs.accepted_prefix
  have hnumbered : f'.history.accepted.length ≤ f'.tickets := by
    have hle := h.numbered
    omega
  have hold : Placed (fun cq sub => f.Proper cq sub ∧ f'.Known sub) f :=
    h.placed.imp fun cq sub hp => ⟨hp.1, hp.2.step hs h.numbered⟩
  have hplaced : Placed (fun cq sub => f.Proper cq sub ∧ f'.Known sub) f' := by
    refine hold.move hi.routed hs (fun q st hq sub hsub => ⟨⟨?_, fun q' hq' => ?_⟩, fun _ => ?_⟩)
      (fun cq st sub hcq hsub htickets hhistory => ⟨⟨?_, fun q hq => ?_⟩, fun heq => ?_⟩)
      fun _ _ hp => hp.1.live
    · exact Option.isSome_iff_exists.2 ⟨_, hi.wired.owners q st hq⟩
    · rw [hi.wired.pending q st hq sub hsub] at hq'
      cases hq'
      exact boundCq_eq hq
    · exact hgrows.subset (h.pending q st hq sub hsub)
    · exact Option.isSome_iff_exists.2 ⟨_, cqOwner_eq hcq⟩
    · rw [hsub] at hq
      cases hq
    · -- the direct submission was given a ticket
      have hle := h.numbered
      rw [htickets, hhistory] at heq
      omega
  refine ⟨hnumbered, ?_, hplaced.imp fun cq sub hp => ⟨hp.1.mono hext, hp.2⟩⟩
  cases hs with
  | openQueue depth hcq =>
    intro q st hq sub hsub
    rcases lookup_insert_cases hq with ⟨-, rfl⟩ | ⟨-, hq⟩
    · cases hsub
    · exact h.pending q st hq sub hsub
  | accept desc hq =>
    intro q' st' hq' sub hsub
    rcases lookup_insert_cases hq' with ⟨-, rfl⟩ | ⟨-, hq'⟩
    · exact (List.mem_append.1 hsub).elim
        (fun hmem => List.mem_append_left _ (h.pending _ _ hq sub hmem))
        (fun hmem => List.mem_append_right _ hmem)
    · exact List.mem_append_left _ (h.pending q' st' hq' sub hsub)
  | take hq hpending =>
    intro q' st' hq' sub hsub
    rcases lookup_insert_cases hq' with ⟨-, rfl⟩ | ⟨-, hq'⟩
    · exact h.pending _ _ hq sub (hpending ▸ List.mem_cons_of_mem _ hsub)
    · exact h.pending q' st' hq' sub hsub
  | _ => exact h.pending

end Flow

namespace Uapi

open Flow (Step Steps)

/-- The submissions of a batch that find no room are left in the batch, and then it is dropped. -/
theorem stageAll_overflow (cq : CqHandle) (staged : List Submission) (s : LocalGuestUapiSurface) :
    ∃ g, Steps False
        (s.during { waiting := s.runtimeQueue.queue.pending
                    batch := staged.map fun sub => (cq, sub) }) g ∧
      g.batch = (staged.drop s.runtimeRoom).map (fun sub => (cq, sub)) ∧
      (exec (stageAll cq staged) s).2.flow = { g with batch := [] } := by
  induction staged generalizing s with
  | nil => exact ⟨_, .refl, by simp [LocalGuestUapiSurface.during], rfl⟩
  | cons sub rest ih =>
    rcases stageRuntimeDescriptor_spec cq sub s with ⟨hroom, hexec⟩ | ⟨hfull, hexec⟩
    · obtain ⟨g, hsteps, hbatch, hflow⟩ := ih (Uapi.staged s cq sub)
      have hnext : s.runtimeRoom = (Uapi.staged s cq sub).runtimeRoom + 1 := by
        simp only [LocalGuestUapiSurface.runtimeRoom, Uapi.staged, List.length_append,
          List.length_singleton]
        omega
      have hstage : Step False
          (s.during { waiting := s.runtimeQueue.queue.pending
                      batch := (sub :: rest).map fun sub => (cq, sub) })
          (s.during { waiting := s.runtimeQueue.queue.pending ++ [stagedRecord s cq sub]
                      batch := rest.map fun sub => (cq, sub) }) := .stage rfl rfl
      refine ⟨g, .head hstage hsteps, ?_, ?_⟩
      · rw [hbatch, hnext, List.drop_succ_cons]
      · rw [stageAll, exec_bind_ok hexec, hflow]
    · have hzero : s.runtimeRoom = 0 := Nat.sub_eq_zero_of_le hfull
      refine ⟨_, .refl, ?_, ?_⟩
      · rw [hzero, List.drop_zero]
        rfl
      · rw [stageAll, exec_bind_error hexec]
        rfl

/-- A batch that finds no room fails, and says so. -/
theorem stageAll_error {cq : CqHandle} {staged : List Submission} {s : LocalGuestUapiSurface}
    (hover : s.runtimeRoom < staged.length) :
    (exec (stageAll cq staged) s).1 = .error (.invalidInput "uapi runtime queue full") := by
  induction staged generalizing s with
  | nil => exact absurd hover (Nat.not_lt_zero _)
  | cons sub rest ih =>
    rcases stageRuntimeDescriptor_spec cq sub s with ⟨hroom, hexec⟩ | ⟨hfull, hexec⟩
    · rw [stageAll, exec_bind_ok hexec]
      refine ih ?_
      simp only [LocalGuestUapiSurface.runtimeRoom, staged, List.length_append,
        List.length_cons] at hover ⊢
      omega
    · rw [stageAll, exec_bind_error hexec]

end Uapi

namespace LocalGuestUapiSurface

open Flow (Isolated Accounts Registered)

/-- The submissions of its batch for which a doorbell finds no room. -/
def dropped (s : LocalGuestUapiSurface) : UapiCommand → List Submission
  | .ringDoorbell cmdq owner maxBatch =>
    match s.cmdQueues.lookup cmdq with
    | none => []
    | some queue =>
      if queue.owner = owner then
        (queue.pending.take (Uapi.batchSize maxBatch queue)).drop s.runtimeRoom
      else []
  | _ => []

/-- All submissions that the doorbells of a run drop. -/
def droppedBy (s : LocalGuestUapiSurface) : List UapiCommand → List Submission
  | [] => []
  | cmd :: cmds => s.dropped cmd ++ (s.execute cmd).2.droppedBy cmds

variable {s : LocalGuestUapiSurface} {lost : List Return}

/-- A doorbell that finds room drops nothing. -/
theorem dropped_of_fits {cmd : UapiCommand} (h : Uapi.DoorbellFits s cmd) : s.dropped cmd = [] := by
  cases cmd with
  | ringDoorbell cmdq owner maxBatch =>
    cases hq : s.cmdQueues.lookup cmdq with
    | none => simp only [dropped, hq]
    | some queue =>
      by_cases howner : queue.owner = owner
      · simp only [dropped, hq, howner, if_true]
        refine List.drop_eq_nil_of_le ?_
        rw [List.length_take]
        exact (Nat.min_le_left ..).trans (h queue hq howner)
      · simp only [dropped, hq, howner, if_false]
  | _ => rfl

/-- A doorbell that finds too little room: it drops the rest of its batch, and fails. -/
theorem ringDoorbell_overflow {cmdq : CmdQueueHandle} {queue : CommandQueueState}
    {maxBatch : Option ℕ} (hq : s.cmdQueues.lookup cmdq = some queue)
    (hover : s.runtimeRoom < Uapi.batchSize maxBatch queue) :
    (s.execute (.ringDoorbell cmdq queue.owner maxBatch)).1 =
        .error (.invalidInput "uapi runtime queue full") ∧
      ∃ g, Flow.Steps False s.flow g ∧
        g.batch = (s.dropped (.ringDoorbell cmdq queue.owner maxBatch)).map
          (fun sub => (queue.cq, sub)) ∧
        (s.execute (.ringDoorbell cmdq queue.owner maxBatch)).2.flow = { g with batch := [] } := by
  let n := Uapi.batchSize maxBatch queue
  let s₁ := Uapi.popped s cmdq queue n
  have hn : n ≤ queue.pending.length := Nat.min_le_right ..
  have htake : Flow.Steps False s.flow (s₁.during
      { waiting := s.runtimeQueue.queue.pending
        batch := (queue.pending.take n).map fun sub => (queue.cq, sub) }) :=
    Flow.take_steps _ _ s.flow hq (List.take_append_drop _ _).symm
  obtain ⟨g, hsteps, hbatch, hflow⟩ := Uapi.stageAll_overflow queue.cq (queue.pending.take n) s₁
  have herror : (exec (Uapi.stageAll queue.cq (queue.pending.take n)) s₁).1 =
      .error (.invalidInput "uapi runtime queue full") := by
    refine Uapi.stageAll_error ?_
    rw [List.length_take_of_le hn]
    exact hover
  have hring : exec (Uapi.ringDoorbell cmdq queue.owner maxBatch) s =
      (.error (.invalidInput "uapi runtime queue full"),
        (exec (Uapi.stageAll queue.cq (queue.pending.take n)) s₁).2) := by
    rw [Uapi.ringDoorbell_exec maxBatch hq]
    exact exec_bind_error (Prod.ext herror rfl)
  have hexec : s.execute (.ringDoorbell cmdq queue.owner maxBatch) =
      (.error (.invalidInput "uapi runtime queue full"),
        (exec (Uapi.stageAll queue.cq (queue.pending.take n)) s₁).2) :=
    exec_bind_error hring
  refine ⟨by rw [hexec], g, htake.trans hsteps, ?_, by rw [hexec]; exact hflow⟩
  rw [hbatch]
  simp only [dropped, hq, if_true]
  rfl

/-- **A command keeps the accounts**, if what it drops is added to the losses. -/
theorem execute_accounts (h : Accounts lost s.flow) (cmd : UapiCommand) :
    ∃ new, new.map (·.entry.owner) = s.dropped cmd ∧
      Accounts (new ++ lost) (s.execute cmd).2.flow := by
  by_cases hfits : Uapi.DoorbellFits s cmd
  · refine ⟨[], (dropped_of_fits hfits).symm, ?_⟩
    refine LTS.steps_invariant (fun _ _ h hs => h.step hs) h ?_
    exact Flow.Steps.mono (fun hover => hover hfits) (s.execute_steps cmd)
  · cases cmd with
    | ringDoorbell cmdq owner maxBatch =>
      simp only [Uapi.DoorbellFits, Option.mem_def, not_forall, Nat.not_le] at hfits
      obtain ⟨queue, hq, rfl, hover⟩ := hfits
      obtain ⟨-, g, hsteps, hbatch, hflow⟩ := ringDoorbell_overflow hq hover
      have hg : Accounts lost g := LTS.steps_invariant (fun _ _ h hs => h.step hs) h hsteps
      refine ⟨g.batch.map g.handedBack, ?_, hflow ▸ hg.drop⟩
      rw [hbatch, List.map_map, List.map_map]
      exact List.map_id _
    | _ => exact absurd trivial hfits

theorem accounts_of_run (h : Accounts lost s.flow) (cmds : List UapiCommand) :
    ∃ new, (∀ sub, sub ∈ new.map (·.entry.owner) ↔ sub ∈ s.droppedBy cmds) ∧
      Accounts (new ++ lost) (s.run cmds).flow := by
  induction cmds generalizing s lost with
  | nil => exact ⟨[], fun sub => Iff.rfl, h⟩
  | cons cmd cmds ih =>
    obtain ⟨new, hnew, hcmd⟩ := execute_accounts h cmd
    obtain ⟨later, hlater, hrest⟩ := ih hcmd
    refine ⟨later ++ new, fun sub => ?_, ?_⟩
    · rw [List.map_append, List.mem_append, hlater, hnew, droppedBy, List.mem_append]
      exact or_comm
    · rw [List.append_assoc]
      exact hrest

theorem run_accounts (config : Config) (cmds : List UapiCommand) :
    ∃ lost, (∀ sub, sub ∈ lost.map (·.entry.owner) ↔
        sub ∈ (withProfilesAndRuntimePolicy config).droppedBy cmds) ∧
      Accounts lost ((withProfilesAndRuntimePolicy config).run cmds).flow := by
  have hinitial : Accounts [] (withProfilesAndRuntimePolicy config).flow :=
    ⟨initial_isolated config, initial_conserved config⟩
  obtain ⟨new, hnew, h⟩ := accounts_of_run hinitial cmds
  rw [List.append_nil] at h
  exact ⟨new, hnew, h⟩

theorem initial_registered (config : Config) :
    Registered (withProfilesAndRuntimePolicy config).flow := by
  refine ⟨le_rfl, fun q st hq => (by cases hq), ?_⟩
  exact (initial_isolated config).placed.imp fun cq sub hp => (by cases hp.1)

theorem run_registered (config : Config) (cmds : List UapiCommand) :
    Registered ((withProfilesAndRuntimePolicy config).run cmds).flow :=
  (run_invariant (P := fun f => Isolated f ∧ Registered f)
    (fun _ _ h hs => ⟨h.1.step hs, h.2.step h.1 hs⟩)
    ⟨initial_isolated config, initial_registered config⟩ cmds).2

/-- Between commands a submission that is nowhere is at no home. -/
theorem absent_homed {sub : Submission} (h : Places.Absent s.flow.held sub) :
    Places.Absent s.homed sub :=
  fun home => s.held_place home ▸ h home.place

/-- A command that drops submissions fails, and says that the runtime queue is full. -/
theorem execute_dropped {cmd : UapiCommand} (h : s.dropped cmd ≠ []) :
    (s.execute cmd).1 = .error (.invalidInput "uapi runtime queue full") := by
  have hnot : ¬Uapi.DoorbellFits s cmd := fun hfits => h (dropped_of_fits hfits)
  cases cmd with
  | ringDoorbell cmdq owner maxBatch =>
    simp only [Uapi.DoorbellFits, Option.mem_def, not_forall, Nat.not_le] at hnot
    obtain ⟨queue, hq, rfl, hover⟩ := hnot
    exact (ringDoorbell_overflow hq hover).1
  | _ => exact absurd rfl h

/-- **What a run loses.**  After every run, an accepted submission is nowhere if a doorbell of the run
had no room for it, and otherwise at exactly one place; and every doorbell that loses something
fails, and says that the runtime queue is full. -/
theorem accepted_accounted (config : Config) (cmds : List UapiCommand) :
    let s₀ := withProfilesAndRuntimePolicy config
    let s := s₀.run cmds
    s.history.accepted.Nodup ∧
    (∀ sub ∈ s.history.accepted,
      (sub ∈ s₀.droppedBy cmds ∧ Places.Absent s.homed sub) ∨
        (sub ∉ s₀.droppedBy cmds ∧ Places.Sole s.homed sub)) ∧
    ∀ pre cmd post, cmds = pre ++ cmd :: post → (s₀.run pre).dropped cmd ≠ [] →
      ((s₀.run pre).execute cmd).1 = .error (.invalidInput "uapi runtime queue full") := by
  intro s₀ s
  obtain ⟨lost, hlost, h⟩ := run_accounts config cmds
  refine ⟨h.conserved.accounts.nodup, fun sub hsub => ?_, fun pre cmd post _ => execute_dropped⟩
  rcases h.cases hsub with ⟨hmem, habsent⟩ | ⟨hmem, hsole⟩
  · exact .inl ⟨(hlost sub).1 hmem, absent_homed habsent⟩
  · exact .inr ⟨fun hdropped => hmem ((hlost sub).2 hdropped), sole_homed hsole⟩

end LocalGuestUapiSurface

end LinquUb
