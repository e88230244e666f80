import LinquUb.Uapi.Books

/-!
# What the commands of a run return

The history of a surface against the responses that its guests see.

* `Uapi.execute_returns` : what a command adds to the completions that have been handed out is what
  its response returns;
* `LocalGuestUapiSurface.completion_isolation` : **completions reach only the queue they belong to**;
* `LocalGuestUapiSurface.accepted_conserved` : **an accepted submission is at exactly one place**, as
  long as every doorbell finds room for its batch; one that does not loses a submission
  (`doorbell_loses`).
-/

namespace LinquUb

open Action

/-- What a guest sees of a completion that it polls: the queue, the owner it named, and the event. -/
def Return.shown (r : Return) : CqHandle × EntityId × CompletionEvent := (r.cq, r.owner, r.entry.event)

namespace LocalGuestUapiSurface

/-- What the response to a command returns. -/
def polled (s : LocalGuestUapiSurface) (cmd : UapiCommand) :
    List (CqHandle × EntityId × CompletionEvent) :=
  match cmd, (s.execute cmd).1 with
  | .pollCq cq owner _, .ok (.completions events _) => events.map fun event => (cq, owner, event)
  | .drainCq cq owner, .ok (.completions events _) => events.map fun event => (cq, owner, event)
  | _, _ => []

/-- All that the polls of a run return. -/
def polledBy (s : LocalGuestUapiSurface) :
    List UapiCommand → List (CqHandle × EntityId × CompletionEvent)
  | [] => []
  | cmd :: cmds => s.polled cmd ++ (s.execute cmd).2.polledBy cmds

end LocalGuestUapiSurface

namespace Uapi

variable {s : LocalGuestUapiSurface}

/-! ### Commands that return no completions -/

/-- Nothing is handed out. -/
def SameReturns (s s' : LocalGuestUapiSurface) : Prop := s'.history.returns = s.history.returns

theorem SameReturns.trans (s t u : LocalGuestUapiSurface) (h : SameReturns s t)
    (h' : SameReturns t u) : SameReturns s u :=
  Eq.trans h' h

theorem createCmdQueue_returns (cq : CqHandle) (owner : EntityId) (depth : ℕ) :
    Within SameReturns (createCmdQueue cq owner depth) := by
  intro s
  rcases createCmdQueue_spec cq owner depth s with ⟨_, hexec⟩ | ⟨_, _, _, hexec⟩ <;> rw [hexec] <;>
    rfl

theorem submitDirect_returns (desc : UapiDescriptor) : Within SameReturns (submitDirect desc) := by
  refine within_bind SameReturns.trans (fun s => ?_) fun cq => ?_
  · unfold defaultCq
    rw [exec_bind_ok (exec_get s)]
    cases s.hashOrder.first s.cqEvents.keys <;> rfl
  · refine within_bind SameReturns.trans (fun s => rfl) fun sub => ?_
    exact fun s => (submitDescriptorToCq_nothingEnters sub cq s).returns

/-! ### All commands -/

/-- A poll hands out what it returns. -/
theorem pollCqWithOwner_returns (hs : s.flow.Isolated) (cq : CqHandle) (owner : EntityId)
    (maxEntries : Option ℕ) :
    (∃ e s', exec (pollCqWithOwner cq owner maxEntries) s = (.error e, s') ∧ SameReturns s s') ∨
      ∃ events rest s', exec (pollCqWithOwner cq owner maxEntries) s = (.ok (events, rest), s') ∧
        s'.history.returns.map Return.shown = s.history.returns.map Return.shown ++
          events.map fun event => (cq, owner, event) := by
  obtain ⟨s₁, hflush, -⟩ := flush_drains hs
  have hreturns := (flush_nothingEnters s).returns
  rw [hflush] at hreturns
  dsimp only at hreturns
  rcases pollCqWithOwner_exec cq owner maxEntries hflush with
    ⟨queue, n, -, rfl, hpoll⟩ | ⟨-, e, hpoll⟩
  · refine .inr ⟨_, _, _, hpoll, ?_⟩
    simp only [handedOut, List.map_append, List.map_map, hreturns]
    rfl
  · exact .inl ⟨e, s₁, hpoll, hreturns⟩

/-- The command hands out what its response returns. -/
def ReturnsShown (s : LocalGuestUapiSurface) (cmd : UapiCommand) : Prop :=
  (s.execute cmd).2.history.returns.map Return.shown =
    s.history.returns.map Return.shown ++ s.polled cmd

variable {cmd : UapiCommand}

theorem returnsShown_of_same (hnone : s.polled cmd = []) (hsame : SameReturns s (s.execute cmd).2) :
    ReturnsShown s cmd := by
  rw [ReturnsShown, hnone, List.append_nil, hsame]

theorem returnsShown_of_direct {desc : UapiDescriptor} (hnone : s.polled cmd = [])
    (hexec : s.execute cmd = exec (do
      return UapiResponse.ioSubmitted (← submitDirect desc)) s) : ReturnsShown s cmd := by
  refine returnsShown_of_same hnone ?_
  rw [hexec, exec_map_snd]
  exact submitDirect_returns desc s

theorem returnsShown_of_poll (hs : s.flow.Isolated) {cq : CqHandle} {owner : EntityId}
    {maxEntries : Option ℕ} (hexec : s.execute cmd = exec (do
      let (events, remaining) ← pollCqWithOwner cq owner maxEntries
      return UapiResponse.completions events remaining) s)
    (hok : ∀ events rest, (s.execute cmd).1 = .ok (.completions events rest) →
      s.polled cmd = events.map fun event => (cq, owner, event))
    (herror : ∀ e, (s.execute cmd).1 = .error e → s.polled cmd = []) : ReturnsShown s cmd := by
  rcases pollCqWithOwner_returns hs cq owner maxEntries with
    ⟨e, s', hpoll, hreturns⟩ | ⟨events, rest, s', hpoll, hreturns⟩
  · rw [exec_bind_error hpoll] at hexec
    refine returnsShown_of_same (herror e (congrArg Prod.fst hexec)) ?_
    rw [hexec]
    exact hreturns
  · rw [exec_bind_ok hpoll] at hexec
    rw [ReturnsShown, hok events rest (congrArg Prod.fst hexec), congrArg Prod.snd hexec]
    exact hreturns

/-- **What a command hands out is what its response returns.** -/
theorem execute_returns (hs : s.flow.Isolated) (cmd : UapiCommand) : ReturnsShown s cmd := by
  cases cmd with
  | queryTopology => exact returnsShown_of_same rfl rfl
  | createSegment bytes =>
    refine returnsShown_of_same rfl ?_
    rw [LocalGuestUapiSurface.execute, execute, exec_map_snd]
    exact (createSegment_nothingEnters bytes s).returns
  | registerCq owner => exact returnsShown_of_same rfl rfl
  | createCmdQueue cq owner depth =>
    refine returnsShown_of_same rfl ?_
    rw [LocalGuestUapiSurface.execute, execute, exec_map_snd]
    exact createCmdQueue_returns cq owner depth s
  | enqueueCmd cmdq owner desc =>
    refine returnsShown_of_same rfl ?_
    have hexec := exec_map_snd (enqueueCmd cmdq owner desc)
      (fun levels => UapiResponse.commandEnqueued levels.1 levels.2) s
    exact (congrArg (·.history.returns) hexec).trans (enqueueCmd_sameBooks cmdq owner desc s).returns
  | ringDoorbell cmdq owner maxBatch =>
    refine returnsShown_of_same rfl ?_
    have hexec := exec_map_snd (ringDoorbell cmdq owner maxBatch)
      (fun counts => UapiResponse.doorbellRung counts.1 counts.2) s
    exact (congrArg (·.history.returns) hexec).trans
      (ringDoorbell_nothingEnters cmdq owner maxBatch s).returns
  | submitIo req => exact returnsShown_of_direct rfl rfl
  | submitBlockWriteback block task => exact returnsShown_of_direct rfl rfl
  | submitShmemPut req => exact returnsShown_of_direct rfl rfl
  | submitShmemGet req => exact returnsShown_of_direct rfl rfl
  | submitDfsRead req => exact returnsShown_of_direct rfl rfl
  | submitDfsWrite req => exact returnsShown_of_direct rfl rfl
  | submitDbPut req => exact returnsShown_of_direct rfl rfl
  | submitDbGet req => exact returnsShown_of_direct rfl rfl
  | pollCq cq owner maxEntries =>
    refine returnsShown_of_poll hs rfl (fun events rest h => ?_) fun e h => ?_ <;>
      simp only [LocalGuestUapiSurface.polled, h]
  | drainCq cq owner =>
    refine returnsShown_of_poll hs rfl (fun events rest h => ?_) fun e h => ?_ <;>
      simp only [LocalGuestUapiSurface.polled, h]
  | getHealth entity =>
    refine returnsShown_of_same rfl ?_
    rw [LocalGuestUapiSurface.execute, execute, exec_map_snd, getHealth_state]
    rfl

end Uapi

namespace LocalGuestUapiSurface

/-- **What a run has handed out is what its polls returned.** -/
theorem run_returns (config : Config) (cmds : List UapiCommand) :
    ((withProfilesAndRuntimePolicy config).run cmds).history.returns.map Return.shown =
      (withProfilesAndRuntimePolicy config).polledBy cmds := by
  have hrun : ∀ cmds (s : LocalGuestUapiSurface), s.flow.Isolated →
      (s.run cmds).history.returns.map Return.shown =
        s.history.returns.map Return.shown ++ s.polledBy cmds := by
    intro cmds
    induction cmds with
    | nil => exact fun s _ => (List.append_nil _).symm
    | cons cmd cmds ih =>
      intro s hs
      have hnext : (s.execute cmd).2.flow.Isolated :=
        run_invariant (fun _ _ h hstep => h.step hstep) hs [cmd]
      refine (ih _ hnext).trans ?_
      rw [Uapi.execute_returns hs cmd, List.append_assoc]
      rfl
  exact hrun cmds _ (initial_isolated config)

/-- **Completions are isolated.**  After every run: a completion of a submission that came through
the command queue `q` has been pushed only onto the completion queue that `q` is bound to and
handed out only to that queue's owner, what has been handed out is what the polls of the run
returned, the operations in flight have distinct keys, no route has ever been overwritten, and no
completion of such a submission was routed by default. -/
theorem completion_isolation (config : Config) (cmds : List UapiCommand) :
    let s := (withProfilesAndRuntimePolicy config).run cmds
    (∀ cq entry, (cq, entry) ∈ s.history.pushes → ∀ q, entry.owner.queue = some q →
      ∃ st, s.cmdQueues.lookup q = some st ∧ st.cq = cq) ∧
    (∀ r ∈ s.history.returns, ∀ q, r.entry.owner.queue = some q →
      ∃ st cqSt, s.cmdQueues.lookup q = some st ∧ st.cq = r.cq ∧
        s.cqEvents.lookup r.cq = some cqSt ∧ cqSt.owner = r.owner) ∧
    s.history.returns.map Return.shown = (withProfilesAndRuntimePolicy config).polledBy cmds ∧
    s.inFlightKeys.Nodup ∧
    (∀ binding ∈ s.history.bindings, binding.overwritten = none) ∧
    ∀ routing ∈ s.history.routings, ∀ q, routing.entry.owner.queue = some q →
      ∃ st, s.cmdQueues.lookup q = some st ∧ routing.bound = some st.cq := by
  intro s
  have h : Flow.Isolated s.flow := run_isolated config cmds
  have hbound : ∀ cq sub, s.flow.Proper cq sub → ∀ q, sub.queue = some q →
      ∃ st, s.cmdQueues.lookup q = some st ∧ st.cq = cq := by
    intro cq sub hproper q hq
    exact Option.map_eq_some_iff.1 (hproper.2 q hq)
  refine ⟨fun cq entry hpush => ?_, fun r hr q hq => ?_, run_returns config cmds,
    inFlightKeys_nodup h, h.logged.bindings, fun routing hrouting q hq => ?_⟩
  · exact hbound cq entry.owner (h.placed.pushes cq entry hpush)
  · obtain ⟨hpush, howner⟩ := h.logged.returns r hr
    obtain ⟨st, hst, hcq⟩ := hbound r.cq r.entry.owner (h.placed.pushes _ _ hpush) q hq
    obtain ⟨cqSt, hcqSt, hcqOwner⟩ := Option.map_eq_some_iff.1 howner
    exact ⟨st, cqSt, hst, hcq, hcqSt, hcqOwner⟩
  · obtain ⟨cq, hroute, hproper⟩ := h.placed.routings routing hrouting
    obtain ⟨st, hst, rfl⟩ := hbound cq routing.entry.owner hproper q hq
    exact ⟨st, hst, hroute⟩

/-- **No accepted submission is lost or duplicated**, in runs whose doorbells all find room in the
runtime queue for what they take; and what counts as handed out is what the polls returned. -/
theorem accepted_conserved (config : Config) (cmds : List UapiCommand)
    (hfits : (withProfilesAndRuntimePolicy config).DoorbellsFit cmds) :
    let s := (withProfilesAndRuntimePolicy config).run cmds
    s.history.accepted.Nodup ∧
    s.history.returns.map Return.shown = (withProfilesAndRuntimePolicy config).polledBy cmds ∧
    ∀ sub ∈ s.history.accepted,
      Places.Sole s.homed sub ∧
      (∀ q, sub ∈ s.homed (.commandQueue q) → sub.queue = some q) ∧
      (∀ source, ∀ item ∈ (s.services source).completions, item.owner = sub →
        (s.completionRoutes.issued.lookup item.event.key).isSome) ∧
      ∀ cq, sub ∈ s.homed (.completionQueue cq) →
        ∃ q st, sub.queue = some q ∧ s.cmdQueues.lookup q = some st ∧ st.cq = cq := by
  intro s
  have hi : Flow.Isolated s.flow := run_isolated config cmds
  have hc : Flow.Conserved s.flow := run_conserved config hfits
  refine ⟨hc.accounts.nodup, run_returns config cmds, fun sub hsub => ⟨sole_homed (hc.accounts.sole sub hsub),
    fun q hmem => ?_, fun source item hitem _ => ?_, fun cq hmem => ?_⟩⟩
  · cases hq : s.cmdQueues.lookup q with
    | none =>
      rw [homed, hq] at hmem
      cases hmem
    | some st =>
      rw [homed, hq] at hmem
      exact hi.wired.pending q st hq sub hmem
  · have hflight : item.owned ∈ s.flow.inFlight source :=
      flow_inFlight s source ▸ List.mem_map_of_mem hitem
    exact hi.routed.routed source item.owned hflight
  · cases hcq : s.cqEvents.lookup cq with
    | none =>
      rw [homed, hcq] at hmem
      cases hmem
    | some st =>
      rw [homed, hcq] at hmem
      obtain ⟨entry, hentry, rfl⟩ := List.mem_map.1 hmem
      have hproper := hi.placed.pushes cq entry (hi.logged.events cq st hcq entry hentry)
      obtain ⟨q, hq⟩ := Option.isSome_iff_exists.1 (hc.queued _ hsub)
      obtain ⟨qst, hqst, hbound⟩ := Option.map_eq_some_iff.1 (hproper.2 q hq)
      exact ⟨q, qst, hq, hqst, hbound⟩

/-- Two gets, rung with one doorbell. -/
def twoGets : List UapiCommand :=
  [.registerCq 1, .createCmdQueue ⟨1⟩ 1 4, .enqueueCmd ⟨1⟩ 1 (.dbGet ⟨none, "a"⟩),
    .enqueueCmd ⟨1⟩ 1 (.dbGet ⟨none, "b"⟩), .ringDoorbell ⟨1⟩ 1 none]

/-- The two gets, one of which has been polled, and a third one that waits in its command queue. -/
def threeGets : List UapiCommand :=
  twoGets ++ [.pollCq ⟨1⟩ 1 (some 1), .enqueueCmd ⟨1⟩ 1 (.dbGet ⟨none, "c"⟩)]

theorem accepted_conserved_threeGets :
    let s := (withProfilesAndRuntimePolicy (.sample 16 2)).run threeGets
    s.history.accepted.length = 3 ∧ s.history.returns.length = 1 ∧
    (∀ sub ∈ s.history.accepted, Places.Sole s.homed sub) ∧
    s.history.returns.map Return.shown =
      (withProfilesAndRuntimePolicy (.sample 16 2)).polledBy threeGets := by
  have h := accepted_conserved (.sample 16 2) threeGets (by decide +kernel)
  exact ⟨by decide +kernel, by decide +kernel, fun sub hsub => (h.2.2 sub hsub).1, h.2.1⟩

/-- To be nowhere it is enough to be at none of the existing homes. -/
theorem not_mem_homed {s : LocalGuestUapiSurface} {sub : Submission}
    (hqueues : ∀ q ∈ s.cmdQueues.keys, sub ∉ s.homed (.commandQueue q))
    (hruntime : sub ∉ s.homed .runtimeQueue)
    (hservices : ∀ source, sub ∉ s.homed (.service source))
    (hcqs : ∀ cq ∈ s.cqEvents.keys, sub ∉ s.homed (.completionQueue cq))
    (hreturned : sub ∉ s.homed .returned) (home : Home) : sub ∉ s.homed home := by
  cases home with
  | commandQueue q =>
    by_cases hq : q ∈ s.cmdQueues
    · exact hqueues q (Finmap.mem_keys.2 hq)
    · simp [homed, Finmap.lookup_eq_none.2 hq]
  | runtimeQueue => exact hruntime
  | service source => exact hservices source
  | completionQueue cq =>
    by_cases hcq : cq ∈ s.cqEvents
    · exact hcqs cq (Finmap.mem_keys.2 hcq)
    · simp [homed, Finmap.lookup_eq_none.2 hcq]
  | returned => exact hreturned

/-- A runtime queue of depth 1 has no room for the second of two submissions: the doorbell fails,
and the submission is gone. -/
theorem doorbell_loses :
    let s := (withProfilesAndRuntimePolicy (.sample 16 1)).run twoGets
    ∃ sub ∈ s.history.accepted, ∀ home, sub ∉ s.homed home := by
  refine ⟨⟨.dbGet ⟨none, "b"⟩, 1, some ⟨1⟩⟩, by decide +kernel, not_mem_homed ?_ ?_ ?_ ?_ ?_⟩
  · decide +kernel
  · decide +kernel
  · intro source
    cases source <;> decide +kernel
  · decide +kernel
  · decide +kernel

end LocalGuestUapiSurface

end LinquUb
