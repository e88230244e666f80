import LinquUb.LTS.Run
import LinquUb.Runtime.Queue
import Mathlib.Algebra.BigOperators.Group.List.Basic
import Mathlib.Algebra.GroupWithZero.Nat
import Mathlib.Data.List.Perm.Basic

/-!
# The bounds of the shared runtime queue

Calls on a `SharedRuntimeQueue` in any order, by a caller that retries a drained record at most
once.  The payloads carry the number of their enqueue, so that equal payloads are told apart.

* `QueueUse.Balanced` : what every payload has used of its drains and what it has left;
* `QueueUse.Balanced.step` : every call keeps the balance;
* `QueueUse.drained_at_most` : **a payload is drained at most `max_retries + 1` times**;
* `QueueUse.bounded_iff` : **the queue stays within its depth exactly if no record is retried while
  the queue is full**.
-/

namespace LinquUb

/-- A call on the queue.  A retry names a record that the caller holds. -/
inductive QueueCall (α : Type)
  | enqueue (payload : α) (now : SimTimestamp)
  | drainReady (now : SimTimestamp)
  | retry (i : ℕ) (now : SimTimestamp)

/-- A queue with its caller. -/
structure QueueUse (α : Type) where
  queue : SharedRuntimeQueue (ℕ × α)
  /-- How many payloads the queue has taken. -/
  enqueued : ℕ
  /-- The records that are drained and not retried. -/
  held : List (RuntimeQueueRecord (ℕ × α))
  /-- The numbers of the payloads drained so far, once for each drain. -/
  drained : List ℕ

/-- The number of the enqueue. -/
def RuntimeQueueRecord.number {α : Type} (entry : RuntimeQueueRecord (ℕ × α)) : ℕ := entry.payload.1

namespace QueueUse

variable {α : Type}

def start (issueLatencyUs retryDelayUs : SimTimestamp) (queueDepth maxRetries : ℕ) :
    QueueUse α where
  queue := .withPolicy issueLatencyUs retryDelayUs queueDepth maxRetries
  enqueued := 0
  held := []
  drained := []

/-- A call; there is none for a record that the caller does not hold. -/
def step (s : QueueUse α) : QueueCall α → Option (QueueUse α)
  | .enqueue payload now =>
    match s.queue.enqueue (s.enqueued, payload) now with
    | .ok queue => some { s with queue, enqueued := s.enqueued + 1 }
    | .error _ => some s
  | .drainReady now =>
    let (ready, _, queue) := s.queue.drainReady now
    some { s with
      queue
      held := s.held ++ ready
      drained := s.drained ++ ready.map (·.number) }
  | .retry i now =>
    match s.held[i]? with
    | none => none
    | some entry =>
      some { s with queue := (s.queue.retry entry now).2, held := s.held.eraseIdx i }

/-- What a call does. -/
theorem step_cases {s s' : QueueUse α} {call : QueueCall α} (h : step s call = some s') :
    (∃ payload now, call = .enqueue payload now ∧ s.queue.queueDepth ≤ s.queue.len ∧ s' = s) ∨
    (∃ payload now, call = .enqueue payload now ∧ s.queue.len < s.queue.queueDepth ∧
      s' = { s with
        queue := { s.queue with
          pending := s.queue.pending ++
            [⟨(s.enqueued, payload), saturatingAdd now s.queue.issueLatencyUs, 0⟩] }
        enqueued := s.enqueued + 1 }) ∨
    (∃ now, call = .drainReady now ∧ ∃ ready kept, (ready ++ kept).Perm s.queue.pending ∧
      s' = { s with
        queue := { s.queue with pending := kept }
        held := s.held ++ ready
        drained := s.drained ++ ready.map (·.number) }) ∨
    ∃ i now entry, call = .retry i now ∧ s.held[i]? = some entry ∧
      (entry :: s.held.eraseIdx i).Perm s.held ∧
      ((entry.attempts < s.queue.maxRetries ∧
        s' = { s with
          queue := { s.queue with
            pending := s.queue.pending ++ [s.queue.retried entry now] }
          held := s.held.eraseIdx i }) ∨
        (s.queue.maxRetries ≤ entry.attempts ∧ s' = { s with held := s.held.eraseIdx i })) := by
  cases call with
  | enqueue payload now =>
    simp only [step, SharedRuntimeQueue.enqueue] at h
    by_cases hfull : s.queue.pending.length ≥ s.queue.queueDepth
    · rw [if_pos hfull] at h
      exact .inl ⟨payload, now, rfl, hfull, (Option.some.inj h).symm⟩
    · rw [if_neg hfull] at h
      exact .inr (.inl ⟨payload, now, rfl, Nat.lt_of_not_le hfull, (Option.some.inj h).symm⟩)
  | drainReady now =>
    simp only [step, SharedRuntimeQueue.drainReady, Option.some.injEq] at h
    exact .inr (.inr (.inl ⟨now, rfl, _, _, List.filter_append_perm _ _, h.symm⟩))
  | retry i now =>
    simp only [step] at h
    cases hentry : s.held[i]? with
    | none => simp [hentry] at h
    | some entry =>
      simp only [hentry, Option.some.injEq] at h
      obtain ⟨hi, rfl⟩ := List.getElem?_eq_some_iff.1 hentry
      refine .inr (.inr (.inr ⟨i, now, _, rfl, hentry, List.getElem_cons_eraseIdx_perm hi, ?_⟩))
      rcases s.queue.retry_spec s.held[i] now with ⟨hlt, hretry⟩ | ⟨hle, hretry⟩
      · exact .inl ⟨hlt, by rw [← h, hretry]⟩
      · exact .inr ⟨hle, by rw [← h, hretry]⟩

/-! ### The drains of a payload -/

/-- The retries that the records of payload `n` have left. -/
def retriesLeft (maxRetries n : ℕ) (entries : List (RuntimeQueueRecord (ℕ × α))) : ℕ :=
  (entries.map fun entry => if entry.number = n then maxRetries - entry.attempts else 0).sum

/-- How often payload `n` waits in the queue. -/
def waiting (n : ℕ) (entries : List (RuntimeQueueRecord (ℕ × α))) : ℕ :=
  (entries.map (·.number)).count n

/-- A payload has `maxRetries + 1` drains from its enqueue on: those made, those for which it waits
and those for which a retry is left. -/
def Balanced (s : QueueUse α) : Prop :=
  ∀ n, s.drained.count n + waiting n s.queue.pending +
    retriesLeft s.queue.maxRetries n s.queue.pending + retriesLeft s.queue.maxRetries n s.held =
      if n < s.enqueued then s.queue.maxRetries + 1 else 0

section

variable {maxRetries n : ℕ} {entries entries' : List (RuntimeQueueRecord (ℕ × α))}
  {entry : RuntimeQueueRecord (ℕ × α)}

@[simp] theorem retriesLeft_append :
    retriesLeft maxRetries n (entries ++ entries') =
      retriesLeft maxRetries n entries + retriesLeft maxRetries n entries' := by
  simp [retriesLeft]

@[simp] theorem retriesLeft_cons :
    retriesLeft maxRetries n (entry :: entries) =
      (if entry.number = n then maxRetries - entry.attempts else 0) +
        retriesLeft maxRetries n entries := by
  simp [retriesLeft]

@[simp] theorem retriesLeft_nil :
    retriesLeft maxRetries n ([] : List (RuntimeQueueRecord (ℕ × α))) = 0 := rfl

theorem retriesLeft_perm (maxRetries n : ℕ) (h : entries.Perm entries') :
    retriesLeft maxRetries n entries = retriesLeft maxRetries n entries' :=
  (h.map _).sum_eq

@[simp] theorem waiting_append :
    waiting n (entries ++ entries') = waiting n entries + waiting n entries' := by
  simp [waiting]

@[simp] theorem waiting_singleton : waiting n [entry] = if entry.number = n then 1 else 0 := by
  simp [waiting, List.count_singleton]

theorem waiting_perm (n : ℕ) (h : entries.Perm entries') : waiting n entries = waiting n entries' :=
  (h.map _).count_eq n

end

theorem start_balanced (issueLatencyUs retryDelayUs : SimTimestamp) (queueDepth maxRetries : ℕ) :
    (start issueLatencyUs retryDelayUs queueDepth maxRetries : QueueUse α).Balanced := by
  intro n
  rfl

variable {s s' : QueueUse α} {call : QueueCall α}

theorem Balanced.drained_le (h : s.Balanced) (n : ℕ) :
    s.drained.count n ≤ s.queue.maxRetries + 1 := by
  have hn := h n
  split_ifs at hn <;> omega

/-- **Every call keeps the balance.** -/
theorem Balanced.step (h : s.Balanced) (hstep : step s call = some s') : s'.Balanced := by
  intro n
  have hn := h n
  rcases step_cases hstep with ⟨payload, now, -, -, rfl⟩ | ⟨payload, now, -, -, rfl⟩ |
    ⟨now, -, ready, kept, hperm, rfl⟩ | ⟨i, now, entry, -, -, hperm, ⟨hlt, rfl⟩ | ⟨hle, rfl⟩⟩
  · exact hn
  · -- the new payload waits for its first drain and has all its retries left
    have hnumber : RuntimeQueueRecord.number
        (⟨(s.enqueued, payload), saturatingAdd now s.queue.issueLatencyUs, 0⟩ :
          RuntimeQueueRecord (ℕ × α)) = s.enqueued := rfl
    simp only [waiting_append, waiting_singleton, retriesLeft_append, retriesLeft_cons,
      retriesLeft_nil, hnumber, Nat.sub_zero]
    by_cases hnew : s.enqueued = n
    · subst hnew
      simp only [Nat.lt_irrefl, Nat.lt_succ_self, if_true, if_false] at hn ⊢
      omega
    · have hiff : n < s.enqueued + 1 ↔ n < s.enqueued := by omega
      simp only [hiff, if_neg hnew]
      omega
  · -- the drained records have waited and are held now
    have hwaiting := waiting_perm n hperm
    have hleft := retriesLeft_perm s.queue.maxRetries n hperm
    rw [waiting_append] at hwaiting
    rw [retriesLeft_append] at hleft
    rw [← hwaiting, ← hleft] at hn
    simp only [List.count_append, retriesLeft_append]
    rw [waiting] at hn
    omega
  · -- the record pays for its next drain with a retry
    have hleft := retriesLeft_perm s.queue.maxRetries n hperm
    have hnumber : (s.queue.retried entry now).number = entry.number := rfl
    rw [retriesLeft_cons] at hleft
    rw [← hleft] at hn
    simp only [waiting_append, waiting_singleton, retriesLeft_append, retriesLeft_cons,
      retriesLeft_nil, hnumber, SharedRuntimeQueue.retried_attempts]
    split_ifs at hn ⊢ <;> omega
  · -- the record that is given up has no retry left
    have hleft := retriesLeft_perm s.queue.maxRetries n hperm
    rw [retriesLeft_cons, Nat.sub_eq_zero_of_le hle, ite_self, Nat.zero_add] at hleft
    rw [← hleft] at hn
    exact hn

/-- **A payload is drained once and once more for each retry, at most `max_retries` of them.** -/
theorem drained_at_most (issueLatencyUs retryDelayUs : SimTimestamp) (queueDepth maxRetries : ℕ)
    (calls : List (QueueCall α)) (s : QueueUse α)
    (h : LTS.run step (start issueLatencyUs retryDelayUs queueDepth maxRetries) calls = some s)
    (n : ℕ) : s.drained.count n ≤ s.queue.maxRetries + 1 :=
  (LTS.run_invariant (P := Balanced) (fun _ _ _ hs hstep => hs.step hstep)
    (start_balanced _ _ _ _) h).drained_le n

/-! ### The depth of the queue -/

/-- What the queue promises: its depth bounds the records that wait, and its retries the drains of
a payload. -/
def Bounded (s : QueueUse α) : Prop :=
  s.queue.len ≤ s.queue.queueDepth ∧
    ∀ n < s.enqueued, s.drained.count n ≤ s.queue.maxRetries + 1

/-- A record with retries left is not retried while the queue is full. -/
def HasRoom (s : QueueUse α) : QueueCall α → Prop
  | .retry i _ => ∀ entry ∈ s.held[i]?, entry.attempts < s.queue.maxRetries →
      s.queue.len < s.queue.queueDepth
  | _ => True

/-- One call keeps the bounds exactly if it has room. -/
theorem bounded_step_iff (hbalanced : s.Balanced) (hs : s.queue.len ≤ s.queue.queueDepth)
    (hstep : step s call = some s') : s'.Bounded ↔ s.HasRoom call := by
  have hdrained : s'.Bounded ↔ s'.queue.len ≤ s'.queue.queueDepth :=
    and_iff_left fun n _ => (hbalanced.step hstep).drained_le n
  rw [hdrained]
  rcases step_cases hstep with ⟨payload, now, rfl, -, rfl⟩ | ⟨payload, now, rfl, hlt, rfl⟩ |
    ⟨now, rfl, ready, kept, hperm, rfl⟩ | ⟨i, now, entry, rfl, hentry, -, hcase⟩
  · exact iff_of_true hs trivial
  · refine iff_of_true ?_ trivial
    simp only [SharedRuntimeQueue.len, List.length_append, List.length_singleton] at hlt ⊢
    omega
  · refine iff_of_true ?_ trivial
    have hlength := hperm.length_eq
    simp only [SharedRuntimeQueue.len, List.length_append] at hs hlength ⊢
    omega
  · simp only [HasRoom, hentry, Option.mem_some_iff, forall_eq']
    rcases hcase with ⟨hlt, rfl⟩ | ⟨hle, rfl⟩
    · simp only [SharedRuntimeQueue.len, List.length_append, List.length_singleton]
      exact ⟨fun h _ => h, fun h => h hlt⟩
    · exact iff_of_true hs fun hlt => absurd hlt (Nat.not_lt.2 hle)

/-- **The bounds of the queue.**  Under every policy and for every sequence of calls, every call
leaves the queue within its bounds if and only if every retry finds room. -/
theorem bounded_iff (issueLatencyUs retryDelayUs : SimTimestamp) (queueDepth maxRetries : ℕ)
    (calls : List (QueueCall α)) :
    LTS.EveryStep step (fun _ _ s' => s'.Bounded)
        (start issueLatencyUs retryDelayUs queueDepth maxRetries) calls ↔
      LTS.EveryStep step (fun s call _ => s.HasRoom call)
        (start issueLatencyUs retryDelayUs queueDepth maxRetries) calls :=
  LTS.everyStep_congr
    (P := fun s : QueueUse α => s.Balanced ∧ s.queue.len ≤ s.queue.queueDepth)
    (fun _ _ _ hs hstep => ⟨bounded_step_iff hs.1 hs.2 hstep,
      fun hbounded => ⟨hs.1.step hstep, hbounded.1⟩⟩)
    ⟨start_balanced _ _ _ _, Nat.zero_le _⟩ calls

/-- A fresh payload takes the place of a drained one, which comes back. -/
theorem retry_exceeds_depth :
    ∃ s, LTS.run step (start 0 0 1 1)
        [.enqueue "a" 0, .drainReady 0, .enqueue "b" 0, .retry 0 0] = some s ∧
      s.queue.queueDepth < s.queue.len :=
  ⟨_, rfl, by decide⟩

end QueueUse

end LinquUb
