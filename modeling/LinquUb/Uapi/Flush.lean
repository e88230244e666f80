import LinquUb.Uapi.Simulation

/-!
# The recursion of a flush

`flush_runtime` calls itself until the runtime queue is empty.  Every level drains the whole queue
and puts back only records that have a retry left, with one more attempt, so a record can come back
at most `max_retries` times.

* `flushRuntimeLevel_attempts` : what a level leaves behind;
* `pollCqWithOwner_throws` : the errors of a flush and of a poll;
* `flushRuntime_eq` : **the fuel of `flushRuntime` is enough, which gives the equation of the
  source**.
-/

namespace LinquUb

open Action

namespace Uapi

/-- The records have been retried at least `k` and at most `m` times. -/
def Retried (k m : ℕ) (pending : List UapiRecord) : Prop :=
  ∀ record ∈ pending, k ≤ record.attempts ∧ record.attempts ≤ m

/-- Settling a record that has been retried at least `k` times. -/
theorem settle_retried {k m : ℕ} {entry : UapiRecord}
    {acc : SharedRuntimeQueue (RuntimeWorkItem UapiRuntimePayload) × List UapiRuntimeFailure}
    (action : RuntimeDriveAction UapiRuntimeFailure) (hentry : k ≤ entry.attempts)
    (hmax : acc.1.maxRetries = m) (hacc : Retried (k + 1) m acc.1.pending) :
    (SharedRuntimeExecutor.settle u64Max entry acc action).1.maxRetries = m ∧
      Retried (k + 1) m (SharedRuntimeExecutor.settle u64Max entry acc action).1.pending := by
  refine ⟨(SharedRuntimeExecutor.settle_maxRetries u64Max entry acc action).trans hmax, ?_⟩
  cases action with
  | complete => exact hacc
  | fail err => exact hacc
  | retry err =>
    rcases acc.1.retry_spec entry u64Max with ⟨hlt, hretry⟩ | ⟨_, hretry⟩ <;>
      simp only [SharedRuntimeExecutor.settle, hretry]
    · intro record hrecord
      rcases List.mem_append.1 hrecord with hrecord | hrecord
      · exact hacc record hrecord
      · rw [List.mem_singleton.1 hrecord, SharedRuntimeQueue.retried_attempts]
        omega
    · exact hacc

theorem driveAll_retried {k m : ℕ} (ready : List UapiRecord)
    (acc acc' : SharedRuntimeQueue (RuntimeWorkItem UapiRuntimePayload) × List UapiRuntimeFailure)
    {s s' : LocalGuestUapiSurface} (hready : ∀ record ∈ ready, k ≤ record.attempts)
    (hmax : acc.1.maxRetries = m) (hacc : Retried (k + 1) m acc.1.pending)
    (hrun : (driveAll ready acc).run s = (acc', s')) :
    acc'.1.maxRetries = m ∧ Retried (k + 1) m acc'.1.pending := by
  induction ready generalizing acc s with
  | nil =>
    cases hrun
    exact ⟨hmax, hacc⟩
  | cons entry ready ih =>
    rcases hentry : (issueEntry u64Max entry).run s with ⟨action, s₁⟩
    simp only [driveAll, List.foldlM_cons, StateT.run_bind, hentry] at hrun
    obtain ⟨hmax', hacc'⟩ := settle_retried action (hready entry List.mem_cons_self) hmax hacc
    exact ih _ (fun record hrecord => hready record (List.mem_cons_of_mem _ hrecord)) hmax' hacc'
      hrun

/-- A level leaves records with one more attempt, within the retry budget, and wants another level
exactly if there are any. -/
theorem flushRuntimeLevel_attempts {k : ℕ} {s s' : LocalGuestUapiSurface}
    {result : Except SimError Bool}
    (hs : ∀ record ∈ s.runtimeQueue.queue.pending, k ≤ record.attempts)
    (hexec : exec (flushRuntimeLevel u64Max) s = (result, s')) :
    s'.runtimeQueue.queue.maxRetries = s.runtimeQueue.queue.maxRetries ∧
      Retried (k + 1) s.runtimeQueue.queue.maxRetries s'.runtimeQueue.queue.pending ∧
      (∀ again, result = .ok again → (again = true ↔ s'.runtimeQueue.queue.pending ≠ [])) := by
  obtain ⟨queue, failures, s₁, hfold, hlevel⟩ := flushRuntimeLevel_run s
  obtain ⟨hmax, hretried⟩ := driveAll_retried _ _ _ hs rfl (fun _ h => (by cases h)) hfold
  have hsame := reportFailures_sameQueue u64Max failures { s₁ with runtimeQueue := ⟨queue⟩ }
  rw [hlevel] at hexec
  rcases hreport : exec (reportFailures u64Max failures) { s₁ with runtimeQueue := ⟨queue⟩ } with
    ⟨reported, s₂⟩
  rw [hreport] at hsame
  have hqueue : s₂.runtimeQueue.queue = queue := congrArg (·.queue) hsame.1
  cases reported with
  | error e =>
    rw [exec_bind_error hreport] at hexec
    cases hexec
    exact ⟨hqueue ▸ hmax, hqueue ▸ hretried, fun _ h => (by cases h)⟩
  | ok a =>
    rw [exec_bind_ok hreport] at hexec
    cases hexec
    refine ⟨hqueue ▸ hmax, hqueue ▸ hretried, fun again h => ?_⟩
    have hagain : (!s'.runtimeQueue.isEmpty) = again := Except.ok.inj h
    rw [← hagain, SharedRuntimeExecutor.isEmpty, SharedRuntimeQueue.isEmpty]
    simp

/-- One more level than the retries that the records have left changes nothing. -/
theorem flushRuntimeFuel_succ {k : ℕ} (fuel : ℕ) (s : LocalGuestUapiSurface)
    (hs : Retried k s.runtimeQueue.queue.maxRetries s.runtimeQueue.queue.pending)
    (hne : s.runtimeQueue.queue.pending ≠ [])
    (hfuel : s.runtimeQueue.queue.maxRetries + 1 ≤ k + fuel) :
    exec (flushRuntimeFuel u64Max fuel) s = exec (flushRuntimeFuel u64Max (fuel + 1)) s := by
  induction fuel generalizing s k with
  | zero =>
    -- a record that has used more retries than there are
    obtain ⟨record, hrecord⟩ := List.exists_mem_of_ne_nil _ hne
    have := hs record hrecord
    omega
  | succ fuel ih =>
    rcases hexec : exec (flushRuntimeLevel u64Max) s with ⟨result, s'⟩
    obtain ⟨hmax, hretried, hagain⟩ :=
      flushRuntimeLevel_attempts (fun record hrecord => (hs record hrecord).1) hexec
    rw [flushRuntimeFuel, flushRuntimeFuel]
    cases result with
    | error e => rw [exec_bind_error hexec, exec_bind_error hexec]
    | ok again =>
      rw [exec_bind_ok hexec, exec_bind_ok hexec]
      cases again with
      | false => rfl
      | true => exact ih s' (hmax ▸ hretried) ((hagain true rfl).1 rfl) (by omega)

/-- **The equation of the source**: a forced flush does one level and calls itself again while
records are left. -/
theorem flushRuntime_eq (s : LocalGuestUapiSurface) :
    exec (flushRuntime u64Max) s =
      exec (do if ← flushRuntimeLevel u64Max then flushRuntime u64Max) s := by
  have hflush : ∀ s : LocalGuestUapiSurface, exec (flushRuntime u64Max) s =
      exec (flushRuntimeFuel u64Max (s.runtimeQueue.queue.maxRetries + 1)) s := fun _ => rfl
  rw [hflush, flushRuntimeFuel]
  rcases hexec : exec (flushRuntimeLevel u64Max) s with ⟨result, s'⟩
  obtain ⟨hmax, hretried, hagain⟩ := flushRuntimeLevel_attempts (fun _ _ => Nat.zero_le _) hexec
  cases result with
  | error e => rw [exec_bind_error hexec, exec_bind_error hexec]
  | ok again =>
    rw [exec_bind_ok hexec, exec_bind_ok hexec]
    cases again with
    | false => rfl
    | true =>
      have hstep := flushRuntimeFuel_succ s.runtimeQueue.queue.maxRetries s' (hmax ▸ hretried)
        ((hagain true rfl).1 rfl) (by omega)
      refine hstep.trans ?_
      rw [← hmax]
      exact (hflush s').symm

/-! ### Errors -/

/-- The only error that a flush can meet. -/
abbrev NoQueue (e : SimError) : Prop := e = .notFound "completion queue"

theorem enqueueToCq_throws (cq : CqHandle) (entry : Owned Submission) :
    Throws NoQueue (enqueueToCq cq entry) := by
  intro s e s' h
  rcases enqueueToCq_spec s cq entry with ⟨_, _, hexec⟩ | ⟨_, hexec⟩ <;> rw [hexec] at h <;> cases h
  rfl

theorem routeCompletionToCq_throws (entry : Owned Submission) :
    Throws NoQueue (routeCompletionToCq entry) := by
  intro s e s' h
  rcases routeCompletionToCq_spec s entry with ⟨_, _, _, _, hexec⟩ | ⟨_, hexec⟩ <;>
    rw [hexec] at h <;> cases h
  rfl

theorem routeAll_throws (events : List (Owned Submission)) : Throws NoQueue (routeAll events) := by
  induction events with
  | nil => exact throws_pure ()
  | cons entry rest ih => exact throws_bind (routeCompletionToCq_throws entry) fun _ => ih

theorem pollService_throws {stub : Type} (field : ServiceField stub)
    (poll : stub → List (Owned Submission) × stub) :
    Throws NoQueue (pollService field poll) := by
  intro s e s' h
  cases h

theorem flushServices_throws (now : UInt64) : Throws NoQueue (flushServices now) := by
  have hstage : ∀ {stub : Type} (field : ServiceField stub)
      (poll : stub → List (Owned Submission) × stub),
      Throws NoQueue (pollService field poll >>= routeAll) := fun field poll =>
    throws_bind (pollService_throws field poll) routeAll_throws
  have h := throws_bind (hstage blockField (·.pollReady now)) fun _ =>
    throws_bind (hstage shmemField (·.pollReady now)) fun _ =>
      throws_bind (hstage dfsField (·.pollReady now)) fun _ => hstage dbField (·.pollReady now)
  simpa only [flushServices, bind_assoc] using h

theorem reportFailures_throws (now : UInt64) (failures : List UapiRuntimeFailure) :
    Throws NoQueue (reportFailures now failures) := by
  induction failures with
  | nil => exact throws_pure ()
  | cons failure rest ih =>
    refine throws_bind (fun _ _ _ h => (by cases h)) fun opId => ?_
    exact throws_bind (enqueueToCq_throws failure.cq _) fun _ => ih

theorem flushRuntimeLevel_throws : Throws NoQueue (flushRuntimeLevel u64Max) := by
  intro s e s' h
  obtain ⟨queue, failures, s₁, _, hexec⟩ := flushRuntimeLevel_run s
  rw [hexec] at h
  exact throws_bind (reportFailures_throws u64Max failures)
    (fun _ => throws_get_bind fun _ => throws_pure _) _ e s' h

theorem flushRuntimeFuel_throws (fuel : ℕ) : Throws NoQueue (flushRuntimeFuel u64Max fuel) := by
  induction fuel with
  | zero => exact throws_pure ()
  | succ fuel ih =>
    refine throws_bind flushRuntimeLevel_throws fun again => ?_
    cases again with
    | false => exact throws_pure ()
    | true => exact ih

/-- The errors of a poll. -/
theorem pollCqWithOwner_throws (cq : CqHandle) (owner : EntityId) (maxEntries : Option ℕ) :
    Throws (fun e => e = .notFound "completion queue" ∨
      e = .invalidInput "completion queue owner mismatch") (pollCqWithOwner cq owner maxEntries) := by
  refine throws_bind (fun s e s' h => .inl (flushRuntimeFuel_throws _ s e s' h)) fun _ => ?_
  refine throws_bind (fun s e s' h => .inl (flushServices_throws _ s e s' h)) fun _ => ?_
  refine throws_get_bind fun s => ?_
  cases s.cqEvents.lookup cq with
  | none => exact throws_throw (.inl rfl)
  | some queue =>
    by_cases howner : queue.owner = owner
    · simp only [howner, ne_eq, not_true_eq_false, if_false]
      exact throws_bind (fun _ _ _ h => (by cases h)) fun _ => throws_pure _
    · simp only [ne_eq, howner, not_false_eq_true, if_true]
      exact throws_throw (.inr rfl)

end Uapi

end LinquUb
