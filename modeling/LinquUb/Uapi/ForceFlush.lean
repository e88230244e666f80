import LinquUb.Uapi.Flush
import LinquUb.Uapi.Steady

/-!
# Forced flushes

A poll forces a flush before it looks at its completion queue: it drives the runtime queue until
that is empty, and then drains the services.

* `FlushLevels s k` : the recursion of `flush_runtime` from `s` has `k` levels;
* `FlushCalls` : where a flush calls its callback;
* `pollCqWithOwner_exec` : what a poll does behind its flush;
* `LocalGuestUapiSurface.force_flush` : **a poll leaves nothing in the runtime queue and in the
  services, its recursion is as deep as the retries allow, and none of its calls fails**.
-/

namespace LinquUb

open Action

namespace LocalGuestUapiSurface

/-- Nothing is in the runtime queue and in the services. -/
structure Drained (s : LocalGuestUapiSurface) : Prop where
  runtime : s.runtimeQueue.isEmpty = true
  block : s.blockService.completions = []
  shmem : s.shmemService.completions = []
  dfs : s.dfsService.completions = []
  db : s.dbService.completions = []

/-- The stubs stay as they are. -/
def SameStubs (s s' : LocalGuestUapiSurface) : Prop :=
  s'.blockService = s.blockService ∧ s'.shmemService = s.shmemService ∧
    s'.dfsService = s.dfsService ∧ s'.dbService = s.dbService

theorem SameStubs.refl (s : LocalGuestUapiSurface) : SameStubs s s := ⟨rfl, rfl, rfl, rfl⟩

theorem SameStubs.trans (s t u : LocalGuestUapiSurface) (h : SameStubs s t) (h' : SameStubs t u) :
    SameStubs s u := by
  obtain ⟨hblock, hshmem, hdfs, hdb⟩ := h'
  exact ⟨hblock.trans h.1, hshmem.trans h.2.1, hdfs.trans h.2.2.1, hdb.trans h.2.2.2⟩

end LocalGuestUapiSurface

namespace Uapi

open Flow (Isolated)
open LocalGuestUapiSurface (Drained SameStubs)

variable {s s' : LocalGuestUapiSurface}

/-! ### The services -/

theorem routeAll_sameStubs (events : List (Owned Submission)) :
    Within SameStubs (routeAll events) := by
  induction events with
  | nil => exact within_pure SameStubs.refl ()
  | cons entry rest ih =>
    refine within_bind SameStubs.trans (fun s => ?_) fun _ => ih
    rcases routeCompletionToCq_spec s entry with ⟨_, _, _, _, hexec⟩ | ⟨_, hexec⟩ <;> rw [hexec] <;>
      exact ⟨rfl, rfl, rfl, rfl⟩

/-- What is left in a service that has been polled. -/
theorem pollService_sameStubs {stub : Type} {field : ServiceField stub}
    {poll : stub → List (Owned Submission) × stub}
    (hexec : exec (pollService field poll >>= routeAll) s = (.ok (), s')) :
    SameStubs (field.set s (poll (field.get s)).2) s' := by
  obtain ⟨events, t, hpoll, hroute⟩ := exec_bind_eq_ok.1 hexec
  cases hpoll
  have hsame := routeAll_sameStubs (poll (field.get s)).1 (field.set s (poll (field.get s)).2)
  rw [hroute] at hsame
  exact hsame

/-- A forced flush that succeeds drains the services. -/
theorem flushServices_drains (hexec : exec (flushServices u64Max) s = (.ok (), s')) :
    s'.blockService.completions = [] ∧ s'.shmemService.completions = [] ∧
      s'.dfsService.completions = [] ∧ s'.dbService.completions = [] := by
  have hstages : exec (do
      pollService blockField (·.pollReady u64Max) >>= routeAll
      pollService shmemField (·.pollReady u64Max) >>= routeAll
      pollService dfsField (·.pollReady u64Max) >>= routeAll
      pollService dbField (·.pollReady u64Max) >>= routeAll) s = (.ok (), s') := by
    rw [← hexec]
    simp only [flushServices, bind_assoc]
  obtain ⟨_, s₁, hblock, hstages⟩ := exec_bind_eq_ok.1 hstages
  obtain ⟨_, s₂, hshmem, hstages⟩ := exec_bind_eq_ok.1 hstages
  obtain ⟨_, s₃, hdfs, hdb⟩ := exec_bind_eq_ok.1 hstages
  obtain ⟨hblock₁, hshmem₁, hdfs₁, hdb₁⟩ := pollService_sameStubs hblock
  obtain ⟨hblock₂, hshmem₂, hdfs₂, hdb₂⟩ := pollService_sameStubs hshmem
  obtain ⟨hblock₃, hshmem₃, hdfs₃, hdb₃⟩ := pollService_sameStubs hdfs
  obtain ⟨hblock₄, hshmem₄, hdfs₄, hdb₄⟩ := pollService_sameStubs hdb
  -- a service keeps what its own poll has left
  have hb : s'.blockService = (s.blockService.pollReady u64Max).2 :=
    hblock₄.trans (hblock₃.trans (hblock₂.trans hblock₁))
  have hs : s'.shmemService = (s₁.shmemService.pollReady u64Max).2 :=
    hshmem₄.trans (hshmem₃.trans hshmem₂)
  have hd : s'.dfsService = (s₂.dfsService.pollReady u64Max).2 := hdfs₄.trans hdfs₃
  have hempty : ∀ q : List (QueuedCompletion Submission), (drainReady u64Max q).2 = [] :=
    fun q => congrArg Prod.snd (drainReady_u64Max q)
  rw [hb, hs, hd, hdb₄]
  exact ⟨hempty _, hempty _, hempty _, hempty _⟩

/-! ### The recursion -/

/-- The recursion of `flush_runtime` from `s` has so many levels. -/
inductive FlushLevels : LocalGuestUapiSurface → ℕ → Prop
  | last {s : LocalGuestUapiSurface} (hlast : (exec (flushRuntimeLevel u64Max) s).1 ≠ .ok true) :
    FlushLevels s 1
  | again {s s' : LocalGuestUapiSurface} {levels : ℕ}
    (hagain : exec (flushRuntimeLevel u64Max) s = (.ok true, s'))
    (hrest : FlushLevels s' levels) : FlushLevels s (levels + 1)

/-- Records that have been retried `k` times leave at most `m + 1 - k` levels. -/
theorem exists_flushLevels {m : ℕ} (n k : ℕ) (hn : n + k = m) (s : LocalGuestUapiSurface)
    (hmax : s.runtimeQueue.queue.maxRetries = m)
    (hs : ∀ record ∈ s.runtimeQueue.queue.pending, k ≤ record.attempts) :
    ∃ levels, levels + k ≤ m + 1 ∧ FlushLevels s levels := by
  induction n generalizing k s with
  | zero =>
    refine ⟨1, by omega, .last fun hagain => ?_⟩
    -- a record of another level would have been retried more often than allowed
    obtain ⟨-, hretried, hiff⟩ := flushRuntimeLevel_attempts hs rfl
    obtain ⟨record, hrecord⟩ := List.exists_mem_of_ne_nil _ ((hiff true hagain).1 rfl)
    have := hretried record hrecord
    omega
  | succ n ih =>
    rcases hexec : exec (flushRuntimeLevel u64Max) s with ⟨result, s'⟩
    obtain ⟨hmax', hretried, -⟩ := flushRuntimeLevel_attempts hs hexec
    by_cases hagain : result = .ok true
    · subst hagain
      obtain ⟨levels, hle, hlevels⟩ := ih (k + 1) (by omega) s' (hmax'.trans hmax)
        fun record hrecord => (hretried record hrecord).1
      exact ⟨levels + 1, by omega, .again hexec hlevels⟩
    · exact ⟨1, by omega, .last (by rw [hexec]; exact hagain)⟩

/-- Where a forced flush calls its callback. -/
inductive FlushCalls : LocalGuestUapiSurface → UapiRecord → LocalGuestUapiSurface → Prop
  | here {s t : LocalGuestUapiSurface} {entry : UapiRecord}
    (hcall : DriveCalls s.runtimeQueue.queue.pending (emptied s) entry t) : FlushCalls s entry t
  | deeper {s s' t : LocalGuestUapiSurface} {entry : UapiRecord}
    (hagain : exec (flushRuntimeLevel u64Max) s = (.ok true, s')) (hcall : FlushCalls s' entry t) :
    FlushCalls s entry t

theorem FlushCalls.ok {t : LocalGuestUapiSurface} {entry : UapiRecord} (hcall : FlushCalls s entry t)
    (hs : Isolated s.flow) : IssueOk entry t := by
  induction hcall with
  | here hcall => exact (flushRuntimeLevel_steady hs).2 _ _ hcall
  | @deeper s s' t entry hagain _ ih =>
    have hsteps := flushRuntimeLevel_steps False s
    rw [hagain] at hsteps
    exact ih (hs.steps hsteps)

/-- A forced flush that succeeds empties the runtime queue: its last level has no records left that
could be retried. -/
theorem flushRuntimeFuel_empties {k : ℕ} (fuel : ℕ) (s s' : LocalGuestUapiSurface)
    (hs : ∀ record ∈ s.runtimeQueue.queue.pending, k ≤ record.attempts)
    (hfuel : s.runtimeQueue.queue.maxRetries ≤ k + fuel)
    (hexec : exec (flushRuntimeFuel u64Max (fuel + 1)) s = (.ok (), s')) :
    s'.runtimeQueue.queue.pending = [] := by
  induction fuel generalizing s k with
  | zero =>
    obtain ⟨again, s₁, hlevel, hrest⟩ := exec_bind_eq_ok.1 hexec
    obtain ⟨-, hretried, -⟩ := flushRuntimeLevel_attempts hs hlevel
    -- the fuel ends here, with or without another level
    have hstop : s₁ = s' := by
      cases again <;> cases hrest <;> rfl
    by_contra hne
    obtain ⟨record, hrecord⟩ := List.exists_mem_of_ne_nil _ hne
    have := hretried record (hstop ▸ hrecord)
    omega
  | succ fuel ih =>
    obtain ⟨again, s₁, hlevel, hrest⟩ := exec_bind_eq_ok.1 hexec
    obtain ⟨hmax, hretried, hiff⟩ := flushRuntimeLevel_attempts hs hlevel
    cases again with
    | true => exact ih s₁ (fun record hrecord => (hretried record hrecord).1) (by omega) hrest
    | false =>
      cases hrest
      by_contra hne
      exact Bool.false_ne_true ((hiff false rfl).2 hne)

/-- What a poll finds behind its flush. -/
theorem flush_drains (hs : Isolated s.flow) :
    ∃ s₁, exec (do
      flushRuntime u64Max
      flushServices u64Max) s = (.ok (), s₁) ∧ s₁.Drained := by
  obtain ⟨⟨⟩, hexec⟩ := (flush_steady hs).exec
  refine ⟨_, hexec, ?_⟩
  obtain ⟨_, s₁, hruntime, hservices⟩ := exec_bind_eq_ok.1 hexec
  -- the services are flushed last, and that leaves the runtime queue alone
  have hempty := flushRuntimeFuel_empties s.runtimeQueue.queue.maxRetries s s₁
    (fun _ _ => Nat.zero_le _) (Nat.le_add_left _ _) hruntime
  have hsame := ((flushServices_flows u64Max).1 s₁).1
  obtain ⟨hblock, hshmem, hdfs, hdb⟩ := flushServices_drains hservices
  rw [hservices] at hsame
  refine ⟨?_, hblock, hshmem, hdfs, hdb⟩
  rw [hsame, SharedRuntimeExecutor.isEmpty, SharedRuntimeQueue.isEmpty, hempty]
  rfl

/-! ### Polls -/

/-- The surface after a poll has handed out the first `n` completions of a queue. -/
def handedOut (s : LocalGuestUapiSurface) (cq : CqHandle) (queue : CompletionQueueState) (n : ℕ) :
    LocalGuestUapiSurface :=
  { s with
    cqEvents := Finmap.insert cq { queue with events := queue.events.drop n } s.cqEvents
    history := { s.history with
      returns := s.history.returns ++
        (queue.events.take n).map fun entry => Return.mk cq queue.owner entry } }

/-- What a poll does once its flush has succeeded. -/
theorem pollCqWithOwner_exec {s₁ : LocalGuestUapiSurface} (cq : CqHandle) (owner : EntityId)
    (maxEntries : Option ℕ) (hflush : exec (do
      flushRuntime u64Max
      flushServices u64Max) s = (.ok (), s₁)) :
    (∃ queue n, s₁.cqEvents.lookup cq = some queue ∧ queue.owner = owner ∧
        exec (pollCqWithOwner cq owner maxEntries) s =
          (.ok ((queue.events.take n).map (·.event), (queue.events.drop n).length),
            handedOut s₁ cq queue n)) ∨
      ((∀ queue, s₁.cqEvents.lookup cq = some queue → queue.owner ≠ owner) ∧
        ∃ e, exec (pollCqWithOwner cq owner maxEntries) s = (.error e, s₁)) := by
  obtain ⟨_, s₀, hruntime, hservices⟩ := exec_bind_eq_ok.1 hflush
  rw [pollCqWithOwner, exec_bind_ok hruntime, exec_bind_ok hservices, exec_bind_ok (exec_get s₁)]
  cases hcq : s₁.cqEvents.lookup cq with
  | none => exact .inr ⟨fun _ h => (by cases h), _, rfl⟩
  | some queue =>
    by_cases howner : queue.owner = owner
    · subst howner
      refine .inl ⟨queue, min (maxEntries.getD queue.events.length) queue.events.length, rfl, rfl, ?_⟩
      simp only [ne_eq, not_true_eq_false, if_false]
      rfl
    · refine .inr ⟨fun _ h => Option.some.inj h ▸ howner,
        .invalidInput "completion queue owner mismatch", ?_⟩
      simp only [ne_eq, howner, not_false_eq_true, if_true]
      rfl

theorem pollCqWithOwner_drained (hs : Isolated s.flow) (cq : CqHandle) (owner : EntityId)
    (maxEntries : Option ℕ) : (exec (pollCqWithOwner cq owner maxEntries) s).2.Drained := by
  obtain ⟨s₁, hflush, hdrained⟩ := flush_drains hs
  rcases pollCqWithOwner_exec cq owner maxEntries hflush with
    ⟨queue, n, -, -, hpoll⟩ | ⟨-, e, hpoll⟩ <;> rw [hpoll]
  · obtain ⟨hruntime, hblock, hshmem, hdfs, hdb⟩ := hdrained
    exact ⟨hruntime, hblock, hshmem, hdfs, hdb⟩
  · exact hdrained

end Uapi

namespace LocalGuestUapiSurface

open Uapi

/-- **A forced flush drains everything and terminates**: a poll of a reachable surface, whatever it
returns, leaves nothing in the runtime queue and in the services; the recursion has one level for
every retry and one more; and neither the flush nor a call that its callback makes fails for want
of a completion queue. -/
theorem force_flush (config : Config) (cmds : List UapiCommand) :
    let s := (withProfilesAndRuntimePolicy config).run cmds
    (∀ cq owner maxEntries, (s.execute (.pollCq cq owner maxEntries)).2.Drained) ∧
      (∀ cq owner, (s.execute (.drainCq cq owner)).2.Drained) ∧
      (∃ levels ≤ s.runtimeQueue.queue.maxRetries + 1, FlushLevels s levels) ∧
      (exec (do
        flushRuntime u64Max
        flushServices u64Max) s).1 = .ok () ∧
      ∀ entry t, FlushCalls s entry t → IssueOk entry t := by
  intro s
  have hs := run_isolated config cmds
  have hpoll : ∀ cq owner maxEntries, (s.execute (.pollCq cq owner maxEntries)).2 =
      (exec (pollCqWithOwner cq owner maxEntries) s).2 := by
    intro cq owner maxEntries
    simp only [execute, Uapi.execute]
    rcases hexec : exec (pollCqWithOwner cq owner maxEntries) s with ⟨_ | ⟨events, rest⟩, s'⟩
    · rw [exec_bind_error hexec]
    · rw [exec_bind_ok hexec, exec_pure]
  refine ⟨fun cq owner maxEntries => ?_, fun cq owner => ?_, ?_, ?_, fun entry t hcall => hcall.ok hs⟩
  · rw [hpoll]
    exact pollCqWithOwner_drained hs cq owner maxEntries
  · rw [show s.execute (.drainCq cq owner) = s.execute (.pollCq cq owner none) from rfl, hpoll]
    exact pollCqWithOwner_drained hs cq owner none
  · obtain ⟨levels, hle, hlevels⟩ := exists_flushLevels s.runtimeQueue.queue.maxRetries 0 rfl s rfl
      fun _ _ => Nat.zero_le _
    exact ⟨levels, by omega, hlevels⟩
  · obtain ⟨s₁, hflush, -⟩ := flush_drains hs
    rw [hflush]

end LocalGuestUapiSurface

end LinquUb
