import LinquUb.LTS.History
import LinquUb.Services.Polling

/-!
# What the services answer

A service keeps tables and a queue.  What it answers can be read off the requests that it has accepted
before: `HistoryService` says how, without tables, and `StubOps.Serves` is the simulation.

* `blockHistory`, `shmemHistory`, `dfsHistory`, `dbHistory` : the four services in these terms;
* `StubOps.Serves.answers` : what a simulation gives for whole runs;
* `services_answer_history` : **the completions of every run are the answers to the accepted requests,
  in their order, numbered from one**.

A request that is refused leaves no trace.
-/

namespace LinquUb

variable {ρ ω σ : Type}

/-- A request that was accepted. -/
structure Accepted (ρ ω : Type) where
  req : ρ
  owner : ω
  now : SimTimestamp

namespace StubOps

/-! ### What a run leaves behind -/

/-- The state of the stub at the end. -/
def after (ops : StubOps ρ ω σ) (s : σ) : List (StubCall ρ ω) → σ
  | [] => s
  | .submit req owner now :: calls => after ops ((ops.submit s req owner now).toOption.getD s) calls
  | .pollReady now :: calls => after ops (ops.pollReady s now).2 calls

def accepted (ops : StubOps ρ ω σ) (s : σ) : List (StubCall ρ ω) → List (Accepted ρ ω)
  | [] => []
  | .submit req owner now :: calls =>
    match ops.submit s req owner now with
    | .ok s' => ⟨req, owner, now⟩ :: accepted ops s' calls
    | .error _ => accepted ops s calls
  | .pollReady now :: calls => accepted ops (ops.pollReady s now).2 calls

/-- The completions that the polls have returned. -/
def handedOut (ops : StubOps ρ ω σ) (s : σ) : List (StubCall ρ ω) → List (Owned ω)
  | [] => []
  | .submit req owner now :: calls =>
    handedOut ops ((ops.submit s req owner now).toOption.getD s) calls
  | .pollReady now :: calls => (ops.pollReady s now).1 ++ handedOut ops (ops.pollReady s now).2 calls

/-- The completions that are still queued. -/
def waiting (ops : StubOps ρ ω σ) (s : σ) : List (Owned ω) := (ops.queue s).completions.map (·.owned)

end StubOps

/-! ### Services without tables -/

/-- A service that looks at the requests before.  A request without an outcome is not answered by a
completion. -/
structure HistoryService (ρ ω : Type) where
  port : ServiceQueue.Port
  task : ρ → Option TaskKey
  outcome : List (Accepted ρ ω) → ρ → SimTimestamp → Option (CompletionStatus × SimTimestamp)

namespace HistoryService

/-- The answers to requests that come after the requests `past`, of which `n` were answered. -/
def answers (spec : HistoryService ρ ω) (past : List (Accepted ρ ω)) (n : ℕ) :
    List (Accepted ρ ω) → List (Owned ω)
  | [] => []
  | a :: rest =>
    match spec.outcome past a.req a.now with
    | none => answers spec (past ++ [a]) n rest
    | some (status, readyAt) =>
      ⟨ServiceQueue.completionFor spec.port.source ⟨.ofNat (n + 1)⟩ (spec.task a.req) status readyAt,
        a.owner⟩ :: answers spec (past ++ [a]) (n + 1) rest

end HistoryService

namespace StubOps

/-- The queue after a request with the given outcome. -/
def Answered (spec : HistoryService ρ ω) (req : ρ) (owner : ω) (q q' : ServiceQueue ω) :
    Option (CompletionStatus × SimTimestamp) → Prop
  | none => q' = q
  | some outcome =>
    q' = ⟨q.completions ++ [q.queued spec.port (spec.task req) owner outcome], q.nextOpId + 1⟩

/-- `R past s` links the state of the stub with the history. -/
structure Serves (ops : StubOps ρ ω σ) (spec : HistoryService ρ ω)
    (R : List (Accepted ρ ω) → σ → Prop) : Prop where
  submit : ∀ {past s s' req owner now}, R past s → ops.submit s req owner now = .ok s' →
    R (past ++ [⟨req, owner, now⟩]) s' ∧
      Answered spec req owner (ops.queue s) (ops.queue s') (spec.outcome past req now)
  poll : ∀ {past s} now, R past s → R past (ops.pollReady s now).2

variable {ops : StubOps ρ ω σ} {spec : HistoryService ρ ω} {R : List (Accepted ρ ω) → σ → Prop}

/-- A poll moves completions from the queue to the caller. -/
theorem handedOut_waiting (ops : StubOps ρ ω σ) (s : σ) (now : SimTimestamp) :
    (ops.pollReady s now).1 ++ ops.waiting (ops.pollReady s now).2 = ops.waiting s ∧
      (ops.queue (ops.pollReady s now).2).nextOpId = (ops.queue s).nextOpId := by
  obtain ⟨taken, hqueue, hready⟩ := drainReady_spec now (ops.queue s).completions
  rw [waiting, waiting, ops.pollReady_ready, ops.pollReady_queue]
  refine ⟨?_, rfl⟩
  show (drainReady now (ops.queue s).completions).1 ++
    (drainReady now (ops.queue s).completions).2.map (·.owned) = _
  rw [hready, ← List.map_append, ← hqueue]

/-- **A run from any state**: what it hands out and what it leaves in the queue are the completions of
the queue and the answers to the requests that it accepts. -/
theorem Serves.answers (h : ops.Serves spec R) {past : List (Accepted ρ ω)} {s : σ} {n : ℕ}
    (hs : R past s) (hid : (ops.queue s).nextOpId = .ofNat n) (calls : List (StubCall ρ ω)) :
    ops.handedOut s calls ++ ops.waiting (ops.after s calls) =
      ops.waiting s ++ spec.answers past n (ops.accepted s calls) := by
  induction calls generalizing past s n with
  | nil => simp [handedOut, after, accepted, HistoryService.answers]
  | cons call calls ih =>
    cases call with
    | pollReady now =>
      obtain ⟨hmoved, hsame⟩ := handedOut_waiting ops s now
      rw [handedOut, after, accepted, List.append_assoc, ih (h.poll now hs) (hsame.trans hid),
        ← List.append_assoc, hmoved]
    | submit req owner now =>
      rw [handedOut, after, accepted]
      cases hsubmit : ops.submit s req owner now with
      | error e => exact ih hs hid
      | ok s' =>
        obtain ⟨hs', hqueue⟩ := h.submit hs hsubmit
        show ops.handedOut s' calls ++ ops.waiting (ops.after s' calls) = _
        rw [HistoryService.answers]
        cases houtcome : spec.outcome past req now with
        | none =>
          rw [houtcome] at hqueue
          have hsame : ops.queue s' = ops.queue s := hqueue
          rw [ih hs' (by rw [hsame, hid]), waiting, hsame, waiting]
        | some outcome =>
          rw [houtcome] at hqueue
          have hqueue' : ops.queue s' = ⟨(ops.queue s).completions ++
            [(ops.queue s).queued spec.port (spec.task req) owner outcome],
            (ops.queue s).nextOpId + 1⟩ := hqueue
          have hid' : (ops.queue s').nextOpId = .ofNat (n + 1) := by
            rw [hqueue', hid]
            simp
          rw [ih hs' hid', waiting, hqueue', waiting, List.map_append, List.append_assoc]
          simp [ServiceQueue.queued, QueuedCompletion.owned, hid]

end StubOps

open ServiceQueue

/-- A submission of a stub, as far as its new state goes. -/
theorem submitThen_state {q : ServiceQueue ω} {port : Port} {task : Option TaskKey} {owner : ω}
    {outcome : CompletionStatus × SimTimestamp} {update : ServiceQueue ω → σ} {s' : σ}
    (h : (q.submitThen port task owner outcome update).map (·.2) = .ok s') :
    s' = update ⟨q.completions ++ [q.queued port task owner outcome], q.nextOpId + 1⟩ := by
  cases hsubmit : q.submitThen port task owner outcome update with
  | error e =>
    rw [hsubmit] at h
    cases h
  | ok result =>
    rw [hsubmit] at h
    obtain ⟨handle, st⟩ := result
    cases h
    obtain ⟨q', rfl, -, -, rfl⟩ := submitThen_queued hsubmit
    rfl

/-! ### Blocks -/

/-- The block that a request writes. -/
def BlockRequest.writes : BlockRequest → Option BlockHash
  | .write req => some req.block
  | .read _ | .writeback .. => none

/-- Some request has written the block. -/
def BlockWritten (block : BlockHash) (past : List (Accepted BlockRequest ω)) : Prop :=
  block ∈ past.filterMap (·.req.writes)

instance (block : BlockHash) (past : List (Accepted BlockRequest ω)) :
    Decidable (BlockWritten block past) :=
  inferInstanceAs (Decidable (_ ∈ _))

/-- A block is found once it was written. -/
def blockHistory (profile : BlockServiceProfile) : HistoryService BlockRequest ω where
  port := profile.port
  task
    | .read req => req.task
    | .write req => req.task
    | .writeback _ task => task
  outcome past
    | .read req, now => some <|
      if BlockWritten req.block past then (.success, now + profile.readHitLatencyUs)
      else (.retryableFailure "block_miss", now + profile.readMissLatencyUs)
    | .write _, now => some (.success, now + profile.writeLatencyUs)
    | .writeback block _, now => some
      (if BlockWritten block past then .success else .retryableFailure "writeback_missing_block",
        now + profile.writebackLatencyUs)

/-- The table has the blocks that were written. -/
structure BlockServiceStub.Has (profile : BlockServiceProfile)
    (past : List (Accepted BlockRequest ω)) (s : BlockServiceStub ω) : Prop where
  profile_eq : s.profile = profile
  blocks : ∀ block, (s.blocks.lookup block).isSome = true ↔ BlockWritten block past

theorem blockWritten_snoc {block : BlockHash} {past : List (Accepted BlockRequest ω)}
    {a : Accepted BlockRequest ω} :
    BlockWritten block (past ++ [a]) ↔ BlockWritten block past ∨ a.req.writes = some block := by
  simp [BlockWritten]

/-- A block that is entered again or for the first time is there, and the others stay. -/
theorem isSome_lookup_insert {κ α : Type} [DecidableEq κ] {m : Finmap fun _ : κ => α} {k l : κ}
    {v : α} : ((m.insert k v).lookup l).isSome = true ↔ (m.lookup l).isSome = true ∨ k = l := by
  by_cases h : l = k
  · subst h
    simp
  · rw [Finmap.lookup_insert_of_ne _ h]
    exact (or_iff_left fun heq => h heq.symm).symm

theorem BlockServiceStub.writeback_blocks (s : BlockServiceStub ω) (block other : BlockHash) :
    ((s.writebackEffect block).2.lookup other).isSome = true ↔
      (s.blocks.lookup other).isSome = true := by
  unfold writebackEffect
  split
  · rename_i hdirty
    rw [isSome_lookup_insert]
    refine or_iff_left_of_imp ?_
    rintro rfl
    rw [hdirty, Option.isSome_some]
  · exact Iff.rfl
  · exact Iff.rfl

theorem blockOps_serves (profile : BlockServiceProfile) :
    (blockOps (ω := ω)).Serves (blockHistory profile) (BlockServiceStub.Has profile) where
  poll now hs := ⟨hs.profile_eq, hs.blocks⟩
  submit := by
    intro past s s' req owner now hs h
    obtain rfl := hs.profile_eq
    cases req with
    | read req =>
      obtain rfl := submitThen_state h
      refine ⟨⟨rfl, fun block => ?_⟩, ?_⟩
      · rw [blockWritten_snoc]
        simpa [BlockRequest.writes] using hs.blocks block
      · show _ = _
        simp only [BlockServiceStub.readOutcome, hs.blocks]
        rfl
    | write req =>
      obtain rfl := submitThen_state h
      refine ⟨⟨rfl, fun block => ?_⟩, rfl⟩
      rw [blockWritten_snoc, isSome_lookup_insert, hs.blocks]
      simp [BlockRequest.writes]
    | writeback block task =>
      obtain rfl := submitThen_state h
      refine ⟨⟨rfl, fun other => ?_⟩, ?_⟩
      · rw [blockWritten_snoc, BlockServiceStub.writeback_blocks, hs.blocks]
        simp [BlockRequest.writes]
      · have hstatus : (s.writebackEffect block).1 =
            if BlockWritten block past then .success
            else .retryableFailure "writeback_missing_block" := by
          rw [← if_congr (hs.blocks block) rfl rfl]
          unfold BlockServiceStub.writebackEffect
          cases hstate : s.blocks.lookup block with
          | none => rfl
          | some state => cases state <;> rfl
        show _ = _
        rw [hstatus]
        rfl

/-! ### Shared memory -/

/-- What the request registers for the segment. -/
def ShmemRequest.registers (segment : SegmentHandle) : ShmemRequest → Option SegmentMeta
  | .registerSegment other ownerEntity bytes =>
    if other = segment then some ⟨ownerEntity, bytes⟩ else none
  | .put _ | .get _ => none

/-- The last registration of a segment counts. -/
def registeredSegment (segment : SegmentHandle) (past : List (Accepted ShmemRequest ω)) :
    Option SegmentMeta :=
  latest (·.req.registers segment) past

theorem registeredSegment_snoc {segment : SegmentHandle} {past : List (Accepted ShmemRequest ω)}
    {a : Accepted ShmemRequest ω} : registeredSegment segment (past ++ [a]) =
      (a.req.registers segment).or (registeredSegment segment past) :=
  latest_snoc

/-- Whether an access to a segment is granted. -/
def accessStatus (peerCount : EntityId) (requester : EntityId) (bytes : UInt64) :
    Option SegmentMeta → CompletionStatus
  | none => .retryableFailure "missing_segment"
  | some seg =>
    if seg.bytes < bytes then .retryableFailure "short_segment"
    else if requester = seg.ownerEntity ∨ requester < peerCount then .success
    else .fatalFailure "shmem_access_denied"

/-- A registration is not answered by a completion. -/
def shmemHistory (profile : ShmemServiceProfile) : HistoryService ShmemRequest ω where
  port := profile.port
  task
    | .put req => req.task
    | .get req => req.task
    | .registerSegment .. => none
  outcome past
    | .put req, now => some (accessStatus profile.peerCount req.requesterEntity req.bytes
        (registeredSegment req.segment past), now + profile.defaultLatencyUs)
    | .get req, now => some (accessStatus profile.peerCount req.requesterEntity req.bytes
        (registeredSegment req.segment past), now + profile.defaultLatencyUs)
    | .registerSegment .., _ => none

/-- The table has the last registration of every segment. -/
structure ShmemServiceStub.Has (profile : ShmemServiceProfile)
    (past : List (Accepted ShmemRequest ω)) (s : ShmemServiceStub ω) : Prop where
  profile_eq : s.profile = profile
  segments : ∀ segment, s.segments.lookup segment = registeredSegment segment past

theorem ShmemServiceStub.Has.checkAccess {profile : ShmemServiceProfile}
    {past : List (Accepted ShmemRequest ω)} {s : ShmemServiceStub ω} (hs : s.Has profile past)
    (segment : SegmentHandle) (requester : EntityId) (bytes : UInt64) :
    s.checkAccess segment requester bytes =
      accessStatus profile.peerCount requester bytes (registeredSegment segment past) := by
  unfold ShmemServiceStub.checkAccess accessStatus
  rw [hs.segments, hs.profile_eq]
  cases registeredSegment segment past with
  | none => rfl
  | some seg =>
    dsimp only
    by_cases hshort : seg.bytes < bytes
    · rw [if_pos hshort, if_pos hshort]
    · rw [if_neg hshort, if_neg hshort]
      by_cases hallowed : requester = seg.ownerEntity ∨ requester < profile.peerCount
      · rw [if_pos hallowed, if_neg]
        rintro ⟨hne, hge⟩
        exact hallowed.elim hne (UInt32.not_lt.2 hge)
      · rw [if_neg hallowed, if_pos]
        exact ⟨fun heq => hallowed (.inl heq), UInt32.not_lt.1 fun hlt => hallowed (.inr hlt)⟩

/-- The common course of `submit_put` and `submit_get`. -/
theorem ShmemServiceStub.Has.submitAccess {profile : ShmemServiceProfile}
    {past : List (Accepted ShmemRequest ω)} {s s' : ShmemServiceStub ω} {a : Accepted ShmemRequest ω}
    {task : Option TaskKey} {segment : SegmentHandle} {requester : EntityId} {bytes : UInt64}
    {owner : ω} {now : SimTimestamp} (hs : s.Has profile past)
    (ha : ∀ other, a.req.registers other = none)
    (h : (s.submitAccess task requester segment bytes owner now).map (·.2) = .ok s') :
    s'.Has profile (past ++ [a]) ∧
      s'.toServiceQueue = ⟨s.completions ++ [s.queued profile.port task owner
        (accessStatus profile.peerCount requester bytes (registeredSegment segment past),
          now + profile.defaultLatencyUs)], s.nextOpId + 1⟩ := by
  have haccess := hs.checkAccess segment requester bytes
  obtain rfl := hs.profile_eq
  obtain rfl := submitThen_state h
  refine ⟨⟨rfl, fun other => ?_⟩, ?_⟩
  · rw [registeredSegment_snoc, ha other]
    exact hs.segments other
  · rw [haccess]

theorem shmemOps_serves (profile : ShmemServiceProfile) :
    (shmemOps (ω := ω)).Serves (shmemHistory profile) (ShmemServiceStub.Has profile) where
  poll now hs := ⟨hs.profile_eq, hs.segments⟩
  submit := by
    intro past s s' req owner now hs h
    cases req with
    | put req => exact hs.submitAccess (fun _ => rfl) h
    | get req => exact hs.submitAccess (fun _ => rfl) h
    | registerSegment segment ownerEntity bytes =>
      obtain rfl := ShmemServiceStub.registerSegment_ok h
      refine ⟨⟨hs.profile_eq, fun other => ?_⟩, rfl⟩
      rw [registeredSegment_snoc]
      by_cases heq : segment = other
      · subst heq
        simp [ShmemRequest.registers]
      · rw [ShmemRequest.registers, if_neg heq, Option.none_or, ← hs.segments other]
        exact Finmap.lookup_insert_of_ne _ (Ne.symm heq)

/-! ### Files -/

/-- The file that a request writes. -/
def DfsRequest.writes : DfsRequest → Option String
  | .write req => some req.path
  | .read _ => none

/-- Whether a file is warm after a request that names it. -/
def DfsRequest.warms (path : String) : DfsRequest → Option Bool
  | .write req => if req.path = path then some false else none
  | .read req => if req.path = path then some true else none

/-- Some request has written the file. -/
def FileWritten (path : String) (past : List (Accepted DfsRequest ω)) : Prop :=
  path ∈ past.filterMap (·.req.writes)

instance (path : String) (past : List (Accepted DfsRequest ω)) : Decidable (FileWritten path past) :=
  inferInstanceAs (Decidable (_ ∈ _))

/-- The last request that names the file is a read. -/
def FileWarm (path : String) (past : List (Accepted DfsRequest ω)) : Prop :=
  latest (·.req.warms path) past = some true

instance (path : String) (past : List (Accepted DfsRequest ω)) : Decidable (FileWarm path past) :=
  inferInstanceAs (Decidable (_ = _))

/-- A file is found once it was written, and a read behind a write is slow. -/
def dfsHistory (profile : DfsServiceProfile) : HistoryService DfsRequest ω where
  port := profile.port
  task
    | .write req => req.task
    | .read req => req.task
  outcome past
    | .write _, now => some (.success, now + profile.metadataLatencyUs + profile.dataLatencyUs)
    | .read req, now => some <|
      if FileWritten req.path past then
        (.success, now + profile.metadataLatencyUs + profile.dataLatencyUs +
          if FileWarm req.path past then 0
          else profile.coldMetadataPenaltyUs + profile.coldDataPenaltyUs)
      else (.retryableFailure "missing_path", now + profile.metadataLatencyUs)

/-- The table has the files that were written, and knows which of them are warm. -/
structure DfsServiceStub.Has (profile : DfsServiceProfile) (past : List (Accepted DfsRequest ω))
    (s : DfsServiceStub ω) : Prop where
  profile_eq : s.profile = profile
  files : ∀ path, (s.files.lookup path).isSome = true ↔ FileWritten path past
  warm : ∀ path file, s.files.lookup path = some file → (file.warm = true ↔ FileWarm path past)

theorem fileWritten_snoc {path : String} {past : List (Accepted DfsRequest ω)}
    {a : Accepted DfsRequest ω} :
    FileWritten path (past ++ [a]) ↔ FileWritten path past ∨ a.req.writes = some path := by
  simp [FileWritten]

theorem fileWarm_snoc {path : String} {past : List (Accepted DfsRequest ω)}
    {a : Accepted DfsRequest ω} : FileWarm path (past ++ [a]) ↔
      (a.req.warms path).or (latest (·.req.warms path) past) = some true := by
  rw [FileWarm, latest_snoc]

theorem dfsOps_serves (profile : DfsServiceProfile) :
    (dfsOps (ω := ω)).Serves (dfsHistory profile) (DfsServiceStub.Has profile) where
  poll now hs := ⟨hs.profile_eq, hs.files, hs.warm⟩
  submit := by
    intro past s s' req owner now hs h
    obtain rfl := hs.profile_eq
    cases req with
    | write req =>
      obtain rfl := submitThen_state h
      refine ⟨⟨rfl, fun path => ?_, fun path file hfile => ?_⟩, rfl⟩
      · rw [fileWritten_snoc, isSome_lookup_insert, hs.files]
        simp [DfsRequest.writes]
      · by_cases heq : path = req.path
        · subst heq
          rw [fileWarm_snoc, DfsRequest.warms, if_pos rfl]
          obtain rfl : (⟨req.bytes, false⟩ : FileMeta) = file := by simpa using hfile
          simp
        · rw [fileWarm_snoc, DfsRequest.warms, if_neg (Ne.symm heq)]
          exact hs.warm path file (by simpa [Finmap.lookup_insert_of_ne _ heq] using hfile)
    | read req =>
      obtain rfl := submitThen_state h
      have hwritten := hs.files req.path
      cases hfound : s.files.lookup req.path with
      | none =>
        rw [hfound] at hwritten
        have heffect : s.readEffect req.path now =
            ((.retryableFailure "missing_path", now + s.profile.metadataLatencyUs), s.files) := by
          rw [DfsServiceStub.readEffect, hfound]
        refine ⟨⟨rfl, fun path => ?_, fun path file hfile => ?_⟩, ?_⟩
        · rw [fileWritten_snoc, heffect]
          simpa [DfsRequest.writes] using hs.files path
        · rw [heffect] at hfile
          have hne : path ≠ req.path := fun heq => by
            rw [heq, hfound] at hfile
            cases hfile
          rw [fileWarm_snoc, DfsRequest.warms, if_neg (Ne.symm hne)]
          exact hs.warm path file hfile
        · have hno : ¬FileWritten req.path past := fun hyes => by cases hwritten.2 hyes
          show _ = _
          rw [heffect, if_neg hno]
          rfl
      | some file =>
        rw [hfound] at hwritten
        have hwarm := hs.warm req.path file hfound
        have heffect : s.readEffect req.path now =
            ((.success, now + s.profile.metadataLatencyUs + s.profile.dataLatencyUs +
              if file.warm then 0 else
                s.profile.coldMetadataPenaltyUs + s.profile.coldDataPenaltyUs),
              Finmap.insert req.path { file with warm := true } s.files) := by
          rw [DfsServiceStub.readEffect, hfound]
        refine ⟨⟨rfl, fun path => ?_, fun path file' hfile => ?_⟩, ?_⟩
        · rw [fileWritten_snoc, heffect, isSome_lookup_insert, hs.files]
          simp only [DfsRequest.writes, reduceCtorEq, or_false]
          refine or_iff_left_of_imp ?_
          rintro rfl
          exact hwritten.1 rfl
        · rw [heffect] at hfile
          by_cases heq : path = req.path
          · subst heq
            rw [fileWarm_snoc, DfsRequest.warms, if_pos rfl]
            obtain rfl : ({ file with warm := true } : FileMeta) = file' := by simpa using hfile
            simp
          · rw [fileWarm_snoc, DfsRequest.warms, if_neg (Ne.symm heq)]
            exact hs.warm path file' (by simpa [Finmap.lookup_insert_of_ne _ heq] using hfile)
        · show _ = _
          rw [heffect, if_pos (hwritten.1 rfl), if_congr hwarm rfl rfl]
          rfl

/-! ### Rows -/

/-- What the request stores under the key; a value over the limit is not stored. -/
def DbRequest.stores (maxBytes : UInt64) (key : String) : DbRequest → Option UInt64
  | .put req => if req.key = key ∧ req.bytes ≤ maxBytes then some req.bytes else none
  | .get _ => none

/-- The last put counts. -/
def storedRow (maxBytes : UInt64) (key : String) (past : List (Accepted DbRequest ω)) :
    Option UInt64 :=
  latest (·.req.stores maxBytes key) past

theorem storedRow_snoc {maxBytes : UInt64} {key : String} {past : List (Accepted DbRequest ω)}
    {a : Accepted DbRequest ω} : storedRow maxBytes key (past ++ [a]) =
      (a.req.stores maxBytes key).or (storedRow maxBytes key past) :=
  latest_snoc

/-- The limit on the size of a value. -/
def DbServiceProfile.maxBytes (profile : DbServiceProfile) : UInt64 :=
  profile.inlineValueLimit * profile.pipelineBatchLimit

/-- A value that is not stored inline takes longer. -/
def DbServiceProfile.latency (profile : DbServiceProfile) (bytes : UInt64) : SimTimestamp :=
  if profile.inlineValueLimit < bytes then profile.valueLatencyUs else 0

/-- A key is found once a value for it was stored. -/
def dbHistory (profile : DbServiceProfile) : HistoryService DbRequest ω where
  port := profile.port
  task
    | .put req => req.task
    | .get req => req.task
  outcome past
    | .put req, now => some <|
      if req.bytes ≤ profile.maxBytes then
        (.success, now + profile.metadataLatencyUs + profile.latency req.bytes)
      else (.retryableFailure "db_batch_limit_exceeded", now + profile.metadataLatencyUs)
    | .get req, now => some <|
      match storedRow profile.maxBytes req.key past with
      | some bytes => (.success, now + profile.metadataLatencyUs + profile.latency bytes)
      | none => (.retryableFailure "db_missing_key", now + profile.metadataLatencyUs)

/-- The table has the last value of every key. -/
structure DbServiceStub.Has (profile : DbServiceProfile) (past : List (Accepted DbRequest ω))
    (s : DbServiceStub ω) : Prop where
  profile_eq : s.profile = profile
  rows : ∀ key, s.rows.lookup key = storedRow profile.maxBytes key past

theorem dbOps_serves (profile : DbServiceProfile) :
    (dbOps (ω := ω)).Serves (dbHistory profile) (DbServiceStub.Has profile) where
  poll now hs := ⟨hs.profile_eq, hs.rows⟩
  submit := by
    intro past s s' req owner now hs h
    obtain rfl := hs.profile_eq
    cases req with
    | put req =>
      obtain rfl := submitThen_state h
      by_cases hfits : req.bytes ≤ s.profile.maxBytes
      · have heffect : s.putEffect req.key req.bytes now =
            ((.success, now + s.profile.metadataLatencyUs + s.profile.latency req.bytes),
              Finmap.insert req.key req.bytes s.rows) := if_neg (UInt64.not_lt.2 hfits)
        refine ⟨⟨rfl, fun key => ?_⟩, ?_⟩
        · rw [heffect, storedRow_snoc]
          by_cases heq : req.key = key
          · subst heq
            simp [DbRequest.stores, hfits]
          · rw [DbRequest.stores, if_neg fun h => heq h.1, Option.none_or, ← hs.rows key]
            exact Finmap.lookup_insert_of_ne _ (Ne.symm heq)
        · show _ = _
          rw [heffect, if_pos hfits]
          rfl
      · have heffect : s.putEffect req.key req.bytes now =
            ((.retryableFailure "db_batch_limit_exceeded", now + s.profile.metadataLatencyUs),
              s.rows) := if_pos (UInt64.not_le.1 hfits)
        refine ⟨⟨rfl, fun key => ?_⟩, ?_⟩
        · rw [heffect, storedRow_snoc, DbRequest.stores, if_neg fun h => hfits h.2]
          exact hs.rows key
        · show _ = _
          rw [heffect, if_neg hfits]
          rfl
    | get req =>
      obtain rfl := submitThen_state h
      refine ⟨⟨rfl, fun key => ?_⟩, ?_⟩
      · rw [storedRow_snoc]
        exact hs.rows key
      · show _ = _
        rw [DbServiceStub.getOutcome, hs.rows]
        rfl

/-! ### Whole runs -/

/-- What a run has handed out and what it has queued are the answers to what it has accepted. -/
def StubOps.AnswersHistory (ops : StubOps ρ ω σ) (spec : HistoryService ρ ω) (start : σ)
    (calls : List (StubCall ρ ω)) : Prop :=
  ops.handedOut start calls ++ ops.waiting (ops.after start calls) =
    spec.answers [] 0 (ops.accepted start calls)

/-- **The services answer from the history.**  In every run of each service, the completions that were
handed out and those that still wait are, in this order, the answers of the history to the accepted
requests. -/
theorem services_answer_history :
    (∀ (profile : BlockServiceProfile) (calls : List (StubCall BlockRequest ω)),
      blockOps.AnswersHistory (blockHistory profile) (.withProfile profile) calls) ∧
    (∀ (profile : ShmemServiceProfile) (calls : List (StubCall ShmemRequest ω)),
      shmemOps.AnswersHistory (shmemHistory profile) (.new profile) calls) ∧
    (∀ (profile : DfsServiceProfile) (calls : List (StubCall DfsRequest ω)),
      dfsOps.AnswersHistory (dfsHistory profile) (.new profile) calls) ∧
    ∀ (profile : DbServiceProfile) (calls : List (StubCall DbRequest ω)),
      dbOps.AnswersHistory (dbHistory profile) (.new profile) calls := by
  refine ⟨fun profile calls => ?_, fun profile calls => ?_, fun profile calls => ?_,
    fun profile calls => ?_⟩
  · have hstart : (BlockServiceStub.withProfile profile : BlockServiceStub ω).Has profile [] :=
      ⟨rfl, fun block => by simp [BlockServiceStub.withProfile, BlockWritten]⟩
    exact (blockOps_serves profile).answers hstart rfl calls
  · have hstart : (ShmemServiceStub.new profile : ShmemServiceStub ω).Has profile [] :=
      ⟨rfl, fun segment => by simp [ShmemServiceStub.new, registeredSegment]⟩
    exact (shmemOps_serves profile).answers hstart rfl calls
  · have hstart : (DfsServiceStub.new profile : DfsServiceStub ω).Has profile [] :=
      ⟨rfl, fun path => by simp [DfsServiceStub.new, FileWritten],
        fun path file hfile => by simp [DfsServiceStub.new] at hfile⟩
    exact (dfsOps_serves profile).answers hstart rfl calls
  · have hstart : (DbServiceStub.new profile : DbServiceStub ω).Has profile [] :=
      ⟨rfl, fun key => by simp [DbServiceStub.new, storedRow]⟩
    exact (dbOps_serves profile).answers hstart rfl calls

end LinquUb
