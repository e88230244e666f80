import LinquUb.Uapi.Commands

/-!
# Enqueueing and ringing

What a batch of submissions leaves behind on the surface when it is enqueued and then rung for.

* `Enqueued` : the submissions are at the end of their command queue;
* `Staged` : they have gone on to the runtime queue;
* `ringDoorbell_staged` : **a doorbell for exactly the submissions that were enqueued stages them if
  and only if the queue was empty and the runtime queue has room for them**.
-/

namespace LinquUb

open Action

namespace LocalGuestUapiSurface

/-- The submissions in the runtime queue, the next one first. -/
def waitingSubs (s : LocalGuestUapiSurface) : List Submission :=
  s.runtimeQueue.queue.pending.map (·.payload.payload.sub)

/-- The room in the runtime queue. -/
def runtimeRoom (s : LocalGuestUapiSurface) : ℕ :=
  s.runtimeQueue.queue.queueDepth - s.runtimeQueue.queue.pending.length

/-- The submissions have entered and are at the end of the command queue. -/
structure Enqueued (s s' : LocalGuestUapiSurface) (cmdq : CmdQueueHandle) (subs : List Submission) :
    Prop where
  queue : ∀ queue, s.cmdQueues.lookup cmdq = some queue →
    s'.cmdQueues.lookup cmdq = some { queue with pending := queue.pending ++ subs }
  accepted : s'.history.accepted = s.history.accepted ++ subs
  runtime : s'.runtimeQueue = s.runtimeQueue
  tickets : s.tickets ≤ s'.tickets
  new : ∀ sub ∈ subs, sub.queue = some cmdq ∧ s.tickets ≤ sub.ticket

variable {s s' s'' : LocalGuestUapiSurface} {cmdq : CmdQueueHandle} {queue : CommandQueueState}
variable {subs subs' : List Submission}

theorem Enqueued.nil (s : LocalGuestUapiSurface) (cmdq : CmdQueueHandle) : Enqueued s s cmdq [] where
  queue := fun queue hq => by rw [hq, List.append_nil]
  accepted := (List.append_nil _).symm
  runtime := rfl
  tickets := le_rfl
  new := fun sub h => (by cases h)

theorem Enqueued.append (h : Enqueued s s' cmdq subs) (h' : Enqueued s' s'' cmdq subs') :
    Enqueued s s'' cmdq (subs ++ subs') where
  queue := fun queue hq => by rw [h'.queue _ (h.queue queue hq), List.append_assoc]
  accepted := by rw [h'.accepted, h.accepted, List.append_assoc]
  runtime := h'.runtime.trans h.runtime
  tickets := h.tickets.trans h'.tickets
  new := fun sub hsub => by
    rcases List.mem_append.1 hsub with hsub | hsub
    · exact h.new sub hsub
    · exact ⟨(h'.new sub hsub).1, h.tickets.trans (h'.new sub hsub).2⟩

/-- The descriptors have entered in order and all of them have gone on to the runtime queue; nothing
is left of them in the command queue. -/
structure Staged (s s' : LocalGuestUapiSurface) (cmdq : CmdQueueHandle) (subs : List Submission) :
    Prop where
  queue : s'.cmdQueues.lookup cmdq = s.cmdQueues.lookup cmdq
  accepted : s'.history.accepted = s.history.accepted ++ subs
  waiting : s'.waitingSubs = s.waitingSubs ++ subs
  new : ∀ sub ∈ subs, sub.queue = some cmdq

theorem Staged.nil (s : LocalGuestUapiSurface) (cmdq : CmdQueueHandle) : Staged s s cmdq [] :=
  ⟨rfl, (List.append_nil _).symm, (List.append_nil _).symm, fun sub h => (by cases h)⟩

/-- What has only been enqueued has not been staged. -/
theorem Enqueued.staged (h : Enqueued s s' cmdq subs) (hstaged : Staged s s' cmdq subs') :
    subs = [] := by
  have hwaiting : s.waitingSubs = s.waitingSubs ++ subs' := by
    rw [← hstaged.waiting, waitingSubs, waitingSubs, h.runtime]
  have hsubs' : subs' = [] := List.self_eq_append_right.1 hwaiting
  have haccepted := h.accepted.symm.trans hstaged.accepted
  exact (List.append_cancel_left haccepted).trans hsubs'

/-- Nothing has been enqueued. -/
theorem Enqueued.staged_nil (h : Enqueued s s' cmdq [])
    (hq : s.cmdQueues.lookup cmdq = some queue) : Staged s s' cmdq [] where
  queue := by rw [h.queue queue hq, hq, List.append_nil]
  accepted := h.accepted
  waiting := by rw [waitingSubs, waitingSubs, h.runtime, List.append_nil]
  new := fun sub h => (by cases h)

end LocalGuestUapiSurface

namespace Uapi

open LocalGuestUapiSurface (Enqueued Staged)

variable {s : LocalGuestUapiSurface} {cmdq : CmdQueueHandle} {queue : CommandQueueState}

/-- The owner of a queue enqueues a descriptor exactly when the queue is not full. -/
theorem enqueueCmd_spec (hq : s.cmdQueues.lookup cmdq = some queue) (desc : UapiDescriptor) :
    (queue.depth ≤ queue.pending.length ∧
      exec (enqueueCmd cmdq queue.owner desc) s = (.error (.invalidInput "command queue full"), s)) ∨
    (queue.pending.length < queue.depth ∧ ∃ counts s' sub,
      exec (enqueueCmd cmdq queue.owner desc) s = (.ok counts, s') ∧ sub.desc = desc ∧
        Enqueued s s' cmdq [sub]) := by
  unfold enqueueCmd
  rw [exec_bind_ok (exec_get s)]
  simp only [hq, ne_eq, not_true_eq_false, if_false]
  by_cases hfull : queue.pending.length ≥ queue.depth
  · refine .inl ⟨hfull, ?_⟩
    simp only [hfull, if_true]
    rfl
  · refine .inr ⟨by omega, ?_⟩
    simp only [hfull, if_false]
    let sub : Submission := { desc, ticket := s.tickets, queue := some cmdq }
    refine ⟨_, _, sub, rfl, rfl, ?_, rfl, rfl, Nat.le_succ _, ?_⟩
    · intro queue' hq'
      rw [hq] at hq'
      cases hq'
      exact Finmap.lookup_insert _
    · intro sub' hsub
      rw [List.mem_singleton.1 hsub]
      exact ⟨rfl, le_rfl⟩

/-- Staging goes on until the runtime queue is full. -/
theorem stageAll_spec (cq : CqHandle) (subs : List Submission) (s : LocalGuestUapiSurface) :
    (subs.length ≤ s.runtimeRoom ↔ (exec (stageAll cq subs) s).1 = .ok ()) ∧
      (exec (stageAll cq subs) s).2.waitingSubs = s.waitingSubs ++ subs.take s.runtimeRoom ∧
      (exec (stageAll cq subs) s).2.cmdQueues = s.cmdQueues ∧
      (exec (stageAll cq subs) s).2.history = s.history := by
  induction subs generalizing s with
  | nil => exact ⟨iff_of_true (Nat.zero_le _) rfl, by simp [stageAll], rfl, rfl⟩
  | cons sub rest ih =>
    rcases stageRuntimeDescriptor_spec cq sub s with ⟨hroom, hexec⟩ | ⟨hfull, hexec⟩
    · have hnext : s.runtimeRoom = (staged s cq sub).runtimeRoom + 1 := by
        simp only [LocalGuestUapiSurface.runtimeRoom, staged, List.length_append,
          List.length_singleton]
        omega
      obtain ⟨hok, hwaiting, hqueues, hhistory⟩ := ih (staged s cq sub)
      rw [stageAll, exec_bind_ok hexec]
      refine ⟨?_, ?_, hqueues, hhistory⟩
      · rw [← hok, List.length_cons, hnext]
        exact Nat.add_le_add_iff_right
      · rw [hwaiting, hnext, List.take_succ_cons]
        simp [LocalGuestUapiSurface.waitingSubs, staged, stagedRecord]
    · have hzero : s.runtimeRoom = 0 := Nat.sub_eq_zero_of_le hfull
      rw [stageAll, exec_bind_error hexec, hzero]
      refine ⟨iff_of_false ?_ (fun h => by cases h), ?_, rfl, rfl⟩
      · rw [List.length_cons]
        omega
      · rw [List.take_zero, List.append_nil]
        rfl

/-- What a doorbell for `n` of the submissions in a queue leaves behind. -/
theorem ringDoorbell_spec (hq : s.cmdQueues.lookup cmdq = some queue) {n : ℕ}
    (hn : n ≤ queue.pending.length) :
    ∃ result s', exec (ringDoorbell cmdq queue.owner (some n)) s = (result, s') ∧
      s'.waitingSubs = s.waitingSubs ++ (queue.pending.take n).take s.runtimeRoom ∧
      s'.cmdQueues.lookup cmdq = some { queue with pending := queue.pending.drop n } ∧
      s'.history = s.history ∧
      (n ≤ s.runtimeRoom → result = .ok (n, queue.pending.length - n)) ∧
      ∀ submitted pending, result = .ok (submitted, pending) → submitted = n := by
  have hbatch : batchSize (some n) queue = n := Nat.min_eq_left hn
  have hlength : (queue.pending.take n).length = n := List.length_take_of_le hn
  let s₁ := popped s cmdq queue n
  obtain ⟨hok, hwaiting, hqueues, hhistory⟩ := stageAll_spec queue.cq (queue.pending.take n) s₁
  rw [hlength] at hok
  rw [ringDoorbell_exec (some n) hq, hbatch, hlength, List.length_drop]
  have hlookup : s₁.cmdQueues.lookup cmdq = some { queue with pending := queue.pending.drop n } :=
    Finmap.lookup_insert _
  rw [← hqueues] at hlookup
  rcases hexec : exec (stageAll queue.cq (queue.pending.take n)) s₁ with ⟨e | a, s'⟩
  all_goals
    rw [hexec] at hok hwaiting hlookup hhistory
  · refine ⟨.error e, s', exec_bind_error hexec, hwaiting, hlookup, hhistory, fun h => ?_,
      fun _ _ h => (by cases h)⟩
    cases hok.1 h
  · exact ⟨_, s', exec_bind_ok hexec, hwaiting, hlookup, hhistory, fun _ => rfl,
      fun submitted pending h => (Prod.mk.inj (Except.ok.inj h)).1.symm⟩

/-- **A doorbell for the submissions that have been enqueued** stages them exactly when the queue
was empty and the runtime queue has room for them. -/
theorem ringDoorbell_staged {s' s'' : LocalGuestUapiSurface} {subs subs' : List Submission}
    {result : Except SimError (ℕ × ℕ)} (hq : s.cmdQueues.lookup cmdq = some queue)
    (h : Enqueued s s' cmdq subs) (hold : ∀ sub ∈ queue.pending, sub.ticket < s.tickets)
    (hsome : subs ≠ [])
    (hring : exec (ringDoorbell cmdq queue.owner (some subs.length)) s' = (result, s'')) :
    Staged s s'' cmdq subs' ↔
      subs' = subs ∧ queue.pending = [] ∧ subs.length ≤ s.runtimeRoom := by
  have hlength : subs.length ≤ (queue.pending ++ subs).length := by simp
  obtain ⟨_, _, hexec, hwaiting, hlookup, hhistory, _⟩ :=
    ringDoorbell_spec (h.queue queue hq) hlength
  rw [hring] at hexec
  cases hexec
  have hsame : s'.waitingSubs = s.waitingSubs ∧ s'.runtimeRoom = s.runtimeRoom := by
    simp only [LocalGuestUapiSurface.waitingSubs, LocalGuestUapiSurface.runtimeRoom, h.runtime,
      and_self]
  rw [hsame.1, hsame.2] at hwaiting
  constructor
  · intro hstaged
    obtain rfl : subs' = subs := by
      refine (List.append_cancel_left (?_ : s.history.accepted ++ subs = _)).symm
      rw [← hstaged.accepted, hhistory, h.accepted]
    have htake : subs' = ((queue.pending ++ subs').take subs'.length).take s.runtimeRoom :=
      List.append_cancel_left (hstaged.waiting.symm.trans hwaiting)
    have hroom : subs'.length ≤ s.runtimeRoom := by
      have := congrArg List.length htake
      rw [List.length_take] at this
      omega
    refine ⟨rfl, ?_, hroom⟩
    cases hpending : queue.pending with
    | nil => rfl
    | cons old rest =>
      -- the oldest submission would be staged first, and it is not one of the new ones
      obtain ⟨sub, tail, rfl⟩ := List.exists_cons_of_ne_nil hsome
      rw [List.take_of_length_le (by simpa using hroom), hpending] at htake
      have hsub : sub = old := by simpa using congrArg List.head? htake
      have holder := hold old (hpending ▸ List.mem_cons_self)
      have hnewer := (h.new sub List.mem_cons_self).2
      rw [hsub] at hnewer
      omega
  · rintro ⟨rfl, hempty, hroom⟩
    rw [hempty, List.nil_append] at hwaiting hlookup
    refine ⟨?_, ?_, ?_, fun sub hsub => (h.new sub hsub).1⟩
    · rw [hlookup, hq, List.drop_length, ← hempty]
    · rw [hhistory, h.accepted]
    · rw [hwaiting, List.take_length, List.take_of_length_le hroom]

end Uapi

end LinquUb
