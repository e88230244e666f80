import LinquUb.LTS.Run
import LinquUb.Services.Stubs
import Mathlib.Data.List.TakeWhile

/-!
# Polling the service stubs

A poll pops completions from the front of the queue while they are ready.  A slow completion keeps
back the faster ones that were submitted after it.

* `drainReady_exact_iff` : **a poll is exact if and only if no completion that is ready stands
  behind one that is not**;
* `polls_exact_iff` : the same for the polls of any run of any of the four stubs;
* `shmemPolls_exact` : **the shared-memory service, whose latency is the same for all requests, is
  always polled exactly**.
-/

namespace LinquUb

variable {ω : Type}

/-! ### One poll -/

/-- A poll hands out what is ready and keeps the others. -/
structure PollExact (now : SimTimestamp) (queue : List (QueuedCompletion ω))
    (ready : List (Owned ω)) (rest : List (QueuedCompletion ω)) : Prop where
  ready_perm : ready.Perm ((queue.filter fun item => item.readyAt ≤ now).map (·.owned))
  rest_perm : rest.Perm (queue.filter fun item => ¬item.readyAt ≤ now)

/-- No completion that is ready stands behind one that is not. -/
def NoneBehind (now : SimTimestamp) (queue : List (QueuedCompletion ω)) : Prop :=
  queue.Pairwise fun a b => b.readyAt ≤ now → a.readyAt ≤ now

variable {now : SimTimestamp} {queue : List (QueuedCompletion ω)}

theorem drainReady_eq (now : SimTimestamp) (queue : List (QueuedCompletion ω)) :
    drainReady now queue =
      ((queue.takeWhile fun item => item.readyAt ≤ now).map (·.owned),
        queue.dropWhile fun item => item.readyAt ≤ now) := by
  induction queue with
  | nil => rfl
  | cons item queue ih =>
    unfold drainReady
    split_ifs with hready
    · simp [ih, hready]
    · simp [hready]

/-- Then a poll splits the queue by readiness. -/
theorem NoneBehind.drainReady (h : NoneBehind now queue) :
    drainReady now queue =
      ((queue.filter fun item => item.readyAt ≤ now).map (·.owned),
        queue.filter fun item => ¬item.readyAt ≤ now) := by
  induction queue with
  | nil => rfl
  | cons item queue ih =>
    obtain ⟨hitem, htail⟩ := List.pairwise_cons.1 h
    unfold LinquUb.drainReady
    split_ifs with hready
    · rw [ih htail]
      simp [hready]
    · have hnone : ∀ b ∈ queue, ¬b.readyAt ≤ now := fun b hb hb' => hready (hitem b hb hb')
      have hfilter : queue.filter (fun item => decide (item.readyAt ≤ now)) = [] :=
        List.filter_eq_nil_iff.2 fun b hb => by simpa using hnone b hb
      have hrest : queue.filter (fun item => decide ¬item.readyAt ≤ now) = queue :=
        List.filter_eq_self.2 fun b hb => decide_eq_true (hnone b hb)
      rw [List.filter_cons_of_neg (by simpa using hready),
        List.filter_cons_of_pos (by simpa using hready), hfilter, hrest]
      rfl

/-- **When a poll is exact.** -/
theorem drainReady_exact_iff :
    PollExact now queue (drainReady now queue).1 (drainReady now queue).2 ↔
      NoneBehind now queue := by
  constructor
  · rintro ⟨-, hrest⟩
    rw [drainReady_eq] at hrest
    have hkept : ∀ b ∈ queue.dropWhile fun item => item.readyAt ≤ now, ¬b.readyAt ≤ now := by
      intro b hb
      exact of_decide_eq_true (List.mem_filter.1 (hrest.subset hb)).2
    have htaken : ∀ a ∈ queue.takeWhile fun item => item.readyAt ≤ now, a.readyAt ≤ now :=
      fun a ha => by simpa using List.mem_takeWhile_imp ha
    rw [NoneBehind, ← List.takeWhile_append_dropWhile (p := fun item => item.readyAt ≤ now)
      (l := queue), List.pairwise_append]
    refine ⟨List.Pairwise.imp_of_mem (R := fun _ _ => True) (fun ha _ _ _ => htaken _ ha)
      (List.pairwise_of_forall fun _ _ => trivial), ?_, fun a ha b _ _ => htaken a ha⟩
    exact List.Pairwise.imp_of_mem (R := fun _ _ => True)
      (fun _ hb _ hb' => absurd hb' (hkept _ hb)) (List.pairwise_of_forall fun _ _ => trivial)
  · intro hbehind
    rw [hbehind.drainReady]
    exact ⟨.rfl, .rfl⟩

/-- A queue in the order of the ready times is polled exactly at any time. -/
theorem noneBehind_of_sorted (h : queue.Pairwise fun a b => a.readyAt ≤ b.readyAt) :
    NoneBehind now queue :=
  h.imp fun hab hb => UInt64.le_trans hab hb

/-! ### Runs -/

/-- A call on a stub with the requests `ρ`. -/
inductive StubCall (ρ ω : Type)
  | submit (req : ρ) (owner : ω) (now : SimTimestamp)
  | pollReady (now : SimTimestamp)

/-- A stub with the requests `ρ` and the state `σ`, which leaves the polling to its queue. -/
structure StubOps (ρ ω σ : Type) where
  queue : σ → ServiceQueue ω
  submit : σ → ρ → ω → SimTimestamp → Except SimError σ
  pollReady : σ → SimTimestamp → List (Owned ω) × σ
  pollReady_ready : ∀ s now, (pollReady s now).1 = ((queue s).pollReady now).1
  pollReady_queue : ∀ s now, queue (pollReady s now).2 = ((queue s).pollReady now).2

namespace StubOps

variable {ρ σ : Type}

/-- A refused submission changes nothing. -/
def step (ops : StubOps ρ ω σ) (s : σ) : StubCall ρ ω → Option σ
  | .submit req owner now => some ((ops.submit s req owner now).toOption.getD s)
  | .pollReady now => some (ops.pollReady s now).2

/-- If the call is a poll, it is exact. -/
def PollsExactly (ops : StubOps ρ ω σ) (s : σ) (call : StubCall ρ ω) (s' : σ) : Prop :=
  match call with
  | .submit .. => True
  | .pollReady now => PollExact now (ops.queue s).completions (ops.pollReady s now).1
      (ops.queue s').completions

/-- If the call is a poll, no completion that is ready stands behind one that is not. -/
def PollsInOrder (ops : StubOps ρ ω σ) (s : σ) (call : StubCall ρ ω) (_ : σ) : Prop :=
  match call with
  | .submit .. => True
  | .pollReady now => NoneBehind now (ops.queue s).completions

theorem pollsExactly_iff (ops : StubOps ρ ω σ) {s s' : σ} {call : StubCall ρ ω}
    (h : ops.step s call = some s') : ops.PollsExactly s call s' ↔ ops.PollsInOrder s call s' := by
  cases call with
  | submit => rfl
  | pollReady now =>
    cases h
    rw [PollsExactly, PollsInOrder, ops.pollReady_ready, ops.pollReady_queue]
    exact drainReady_exact_iff

theorem everyPoll_exact_iff (ops : StubOps ρ ω σ) (s : σ) (calls : List (StubCall ρ ω)) :
    LTS.EveryStep ops.step ops.PollsExactly s calls ↔
      LTS.EveryStep ops.step ops.PollsInOrder s calls := by
  have hkeeps : LTS.Keeps ops.step fun _ => True := fun _ _ _ _ _ => trivial
  exact LTS.everyStep_iff hkeeps (fun _ _ _ _ h => ops.pollsExactly_iff h) trivial calls

end StubOps

/-! ### The four stubs -/

inductive BlockRequest
  | read (req : BlockReadReq)
  | write (req : BlockWriteReq)
  | writeback (block : BlockHash) (task : Option TaskKey)

inductive ShmemRequest
  | put (req : ShmemPutReq)
  | get (req : ShmemGetReq)
  | registerSegment (segment : SegmentHandle) (ownerEntity : EntityId) (bytes : UInt64)

inductive DfsRequest
  | write (req : DfsWriteReq)
  | read (req : DfsReadReq)

inductive DbRequest
  | put (req : DbPutReq)
  | get (req : DbGetReq)

def blockOps : StubOps BlockRequest ω (BlockServiceStub ω) where
  queue := (·.toServiceQueue)
  submit s
    | .read req, owner, now => (s.submitRead req owner now).map (·.2)
    | .write req, owner, now => (s.submitWrite req owner now).map (·.2)
    | .writeback block task, owner, now => (s.submitWriteback block task owner now).map (·.2)
  pollReady := BlockServiceStub.pollReady
  pollReady_ready _ _ := rfl
  pollReady_queue _ _ := rfl

def shmemOps : StubOps ShmemRequest ω (ShmemServiceStub ω) where
  queue := (·.toServiceQueue)
  submit s
    | .put req, owner, now => (s.submitPut req owner now).map (·.2)
    | .get req, owner, now => (s.submitGet req owner now).map (·.2)
    | .registerSegment segment ownerEntity bytes, _, _ => s.registerSegment segment ownerEntity bytes
  pollReady := ShmemServiceStub.pollReady
  pollReady_ready _ _ := rfl
  pollReady_queue _ _ := rfl

def dfsOps : StubOps DfsRequest ω (DfsServiceStub ω) where
  queue := (·.toServiceQueue)
  submit s
    | .write req, owner, now => (s.submitWrite req owner now).map (·.2)
    | .read req, owner, now => (s.submitRead req owner now).map (·.2)
  pollReady := DfsServiceStub.pollReady
  pollReady_ready _ _ := rfl
  pollReady_queue _ _ := rfl

def dbOps : StubOps DbRequest ω (DbServiceStub ω) where
  queue := (·.toServiceQueue)
  submit s
    | .put req, owner, now => (s.submitPut req owner now).map (·.2)
    | .get req, owner, now => (s.submitGet req owner now).map (·.2)
  pollReady := DbServiceStub.pollReady
  pollReady_ready _ _ := rfl
  pollReady_queue _ _ := rfl

/-- **When the polls of a stub are exact**, for runs of each of the four stubs. -/
theorem polls_exact_iff :
    (∀ (profile : BlockServiceProfile) (calls : List (StubCall BlockRequest ω)),
      LTS.EveryStep blockOps.step blockOps.PollsExactly (.withProfile profile) calls ↔
        LTS.EveryStep blockOps.step blockOps.PollsInOrder (.withProfile profile) calls) ∧
    (∀ (profile : ShmemServiceProfile) (calls : List (StubCall ShmemRequest ω)),
      LTS.EveryStep shmemOps.step shmemOps.PollsExactly (.new profile) calls ↔
        LTS.EveryStep shmemOps.step shmemOps.PollsInOrder (.new profile) calls) ∧
    (∀ (profile : DfsServiceProfile) (calls : List (StubCall DfsRequest ω)),
      LTS.EveryStep dfsOps.step dfsOps.PollsExactly (.new profile) calls ↔
        LTS.EveryStep dfsOps.step dfsOps.PollsInOrder (.new profile) calls) ∧
    ∀ (profile : DbServiceProfile) (calls : List (StubCall DbRequest ω)),
      LTS.EveryStep dbOps.step dbOps.PollsExactly (.new profile) calls ↔
        LTS.EveryStep dbOps.step dbOps.PollsInOrder (.new profile) calls :=
  ⟨fun _ => blockOps.everyPoll_exact_iff _, fun _ => shmemOps.everyPoll_exact_iff _,
    fun _ => dfsOps.everyPoll_exact_iff _, fun _ => dbOps.everyPoll_exact_iff _⟩

/-! ### Constant latency -/

/-- When a completion is queued. -/
def submitTime : StubCall ShmemRequest ω → Option SimTimestamp
  | .submit (.put _) _ now => some now
  | .submit (.get _) _ now => some now
  | _ => none

/-- The queue is in the order of the ready times, now and after the next submission. -/
structure ShmemInOrder (profile : ShmemServiceProfile) (times : List SimTimestamp)
    (stub : ShmemServiceStub ω) : Prop where
  profile_eq : stub.profile = profile
  sorted : stub.completions.Pairwise fun a b => a.readyAt ≤ b.readyAt
  before : ∀ item ∈ stub.completions, ∀ t ∈ times, item.readyAt ≤ t + profile.defaultLatencyUs

theorem add_latency_le {s t latency : SimTimestamp} (hle : s ≤ t)
    (hfits : t.toNat + latency.toNat < 2 ^ 64) : s + latency ≤ t + latency := by
  have hle' := UInt64.le_iff_toNat_le.1 hle
  rw [UInt64.le_iff_toNat_le, UInt64.toNat_add, UInt64.toNat_add, Nat.mod_eq_of_lt hfits,
    Nat.mod_eq_of_lt (by omega)]
  omega

namespace ShmemInOrder

variable {profile : ShmemServiceProfile} {times : List SimTimestamp} {s s' : ShmemServiceStub ω}

theorem later (h : ShmemInOrder profile (now :: times) s) : ShmemInOrder profile times s :=
  ⟨h.profile_eq, h.sorted, fun item hitem t ht => h.before item hitem t (List.mem_cons_of_mem _ ht)⟩

theorem submitAccess {task : Option TaskKey} {requester : EntityId} {segment : SegmentHandle}
    {bytes : UInt64} {owner : ω} (h : ShmemInOrder profile (now :: times) s)
    (hmono : ∀ t ∈ times, now ≤ t)
    (hfits : ∀ t ∈ times, t.toNat + profile.defaultLatencyUs.toNat < 2 ^ 64) :
    ShmemInOrder profile times
      (((s.submitAccess task requester segment bytes owner now).map (·.2)).toOption.getD s) := by
  cases hsubmit : s.submitAccess task requester segment bytes owner now with
  | error e => exact h.later
  | ok result =>
    obtain ⟨handle, s'⟩ := result
    change ShmemInOrder profile times s'
    obtain ⟨q, rfl, -, -, rfl⟩ := ServiceQueue.submitThen_queued hsubmit
    obtain rfl := h.profile_eq
    refine ⟨rfl, List.pairwise_append.2 ⟨h.sorted, List.pairwise_singleton _ _, ?_⟩, ?_⟩
    · intro a ha b hb
      rw [List.mem_singleton.1 hb]
      exact h.before a ha now List.mem_cons_self
    · intro item hitem t ht
      rcases List.mem_append.1 hitem with hold | hnew
      · exact h.before item hold t (List.mem_cons_of_mem _ ht)
      · rw [List.mem_singleton.1 hnew]
        exact add_latency_le (hmono t ht) (hfits t ht)

theorem registerSegment {segment : SegmentHandle} {ownerEntity : EntityId} {bytes : UInt64}
    (h : ShmemInOrder profile times s) :
    ShmemInOrder profile times
      ((s.registerSegment segment ownerEntity bytes).toOption.getD s) := by
  cases hregister : s.registerSegment segment ownerEntity bytes with
  | error e => exact h
  | ok s' =>
    obtain rfl := ShmemServiceStub.registerSegment_ok hregister
    exact ⟨h.profile_eq, h.sorted, h.before⟩

theorem pollReady (h : ShmemInOrder profile times s) :
    ShmemInOrder profile times (s.pollReady now).2 := by
  have hsub : ((s.pollReady now).2).completions.Sublist s.completions := by
    change (drainReady now s.completions).2.Sublist s.completions
    rw [drainReady_eq]
    exact List.dropWhile_sublist _
  exact ⟨h.profile_eq, h.sorted.sublist hsub, fun item hitem => h.before item (hsub.subset hitem)⟩

theorem step {call : StubCall ShmemRequest ω} {calls : List (StubCall ShmemRequest ω)}
    (h : ShmemInOrder profile ((call :: calls).filterMap submitTime) s)
    (hmono : ((call :: calls).filterMap submitTime).Pairwise (· ≤ ·))
    (hfits : ∀ t ∈ (call :: calls).filterMap submitTime,
      t.toNat + profile.defaultLatencyUs.toNat < 2 ^ 64)
    (hstep : shmemOps.step s call = some s') :
    ShmemInOrder profile (calls.filterMap submitTime) s' := by
  rcases call with ⟨req | req | ⟨segment, ownerEntity, bytes⟩, owner, now⟩ | now <;> cases hstep
  · have hnow : submitTime (.submit (.put req) owner now) = some now := rfl
    rw [List.filterMap_cons_some hnow] at h hmono hfits
    exact h.submitAccess (List.pairwise_cons.1 hmono).1 fun t ht =>
      hfits t (List.mem_cons_of_mem _ ht)
  · have hnow : submitTime (.submit (.get req) owner now) = some now := rfl
    rw [List.filterMap_cons_some hnow] at h hmono hfits
    exact h.submitAccess (List.pairwise_cons.1 hmono).1 fun t ht =>
      hfits t (List.mem_cons_of_mem _ ht)
  · exact h.registerSegment
  · exact h.pollReady

end ShmemInOrder

/-- **The shared-memory service is always polled exactly**, if the submissions are in the order of
their times. -/
theorem shmemPolls_exact (profile : ShmemServiceProfile) (calls : List (StubCall ShmemRequest ω))
    (hmono : (calls.filterMap submitTime).Pairwise (· ≤ ·))
    (hfits : ∀ t ∈ calls.filterMap submitTime,
      t.toNat + profile.defaultLatencyUs.toNat < 2 ^ 64) :
    LTS.EveryStep shmemOps.step shmemOps.PollsExactly (.new profile) calls := by
  have hstart : ShmemInOrder profile (calls.filterMap submitTime)
      (.new profile : ShmemServiceStub ω) := ⟨rfl, .nil, fun _ hitem => nomatch hitem⟩
  generalize ShmemServiceStub.new profile = s at hstart ⊢
  induction calls generalizing s with
  | nil => trivial
  | cons call calls ih =>
    have htail : (calls.filterMap submitTime).Sublist ((call :: calls).filterMap submitTime) :=
      (List.sublist_cons_self call calls).filterMap _
    intro s' hstep
    refine ⟨(shmemOps.pollsExactly_iff hstep).2 ?_, ih (hmono.sublist htail)
      (fun t ht => hfits t (htail.subset ht)) s' (hstart.step hmono hfits hstep)⟩
    cases call with
    | submit => trivial
    | pollReady now => exact noneBehind_of_sorted hstart.sorted

/-- A read that misses takes 30 microseconds and keeps back a write that takes 8. -/
theorem write_kept_back : ¬LTS.EveryStep blockOps.step blockOps.PollsExactly
    (.withProfile .default : BlockServiceStub Unit)
    [.submit (.read ⟨none, ⟨"a"⟩⟩) () 0, .submit (.write ⟨none, ⟨"b"⟩⟩) () 0, .pollReady 10] := by
  intro hexact
  obtain ⟨-, hexact⟩ := hexact.get (by decide +kernel)
  obtain ⟨-, hexact⟩ := hexact.get (by decide +kernel)
  obtain ⟨⟨hready, -⟩, -⟩ := hexact.get (by decide +kernel)
  exact absurd hready.length_eq (by decide +kernel)

end LinquUb
