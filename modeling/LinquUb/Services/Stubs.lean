import LinquUb.Services.Stub

/-!
# Block, shared-memory, file and database services

Each submit function of a stub is `ServiceQueue.submitThen` at the outcome that the stub's own state
gives, with the update of that state.  An outcome is a status together with a ready time.

* `BlockServiceStub`, `ShmemServiceStub`, `DfsServiceStub`, `DbServiceStub` : the stubs;
* `ShmemServiceStub.checkAccess_success` : who is let into a segment;
* `DbServiceStub.submitPut_ok`, `submitGet_ok` : a stored key stays, and a stored key is found.
-/

namespace LinquUb

open ServiceQueue (Port Accepts)

variable {ω : Type}

/-! ### Block service -/

structure BlockReadReq where
  task : Option TaskKey
  block : BlockHash
deriving DecidableEq

structure BlockWriteReq where
  task : Option TaskKey
  block : BlockHash
deriving DecidableEq

structure BlockServiceProfile where
  queueDepth : UInt64
  readHitLatencyUs : SimTimestamp
  readMissLatencyUs : SimTimestamp
  writeLatencyUs : SimTimestamp
  writebackLatencyUs : SimTimestamp
deriving DecidableEq

def BlockServiceProfile.default : BlockServiceProfile :=
  { queueDepth := 16, readHitLatencyUs := 5, readMissLatencyUs := 30, writeLatencyUs := 8,
    writebackLatencyUs := 20 }

def BlockServiceProfile.port (profile : BlockServiceProfile) : Port :=
  ⟨.blockService, profile.queueDepth, "block queue full"⟩

inductive BlockState
  | clean | dirty
deriving DecidableEq, Repr

structure BlockServiceStub (ω : Type) extends ServiceQueue ω where
  profile : BlockServiceProfile
  blocks : Finmap fun _ : BlockHash => BlockState

namespace BlockServiceStub

def withProfile (profile : BlockServiceProfile) : BlockServiceStub ω :=
  { ServiceQueue.empty with profile, blocks := ∅ }

variable (self : BlockServiceStub ω)

def readOutcome (block : BlockHash) (now : SimTimestamp) : CompletionStatus × SimTimestamp :=
  if (self.blocks.lookup block).isSome then (.success, now + self.profile.readHitLatencyUs)
  else (.retryableFailure "block_miss", now + self.profile.readMissLatencyUs)

def submitRead (req : BlockReadReq) (owner : ω) (now : SimTimestamp) :
    Except SimError (ServiceOpHandle × BlockServiceStub ω) :=
  self.submitThen self.profile.port req.task owner (self.readOutcome req.block now) fun queue =>
    { self with toServiceQueue := queue }

def submitWrite (req : BlockWriteReq) (owner : ω) (now : SimTimestamp) :
    Except SimError (ServiceOpHandle × BlockServiceStub ω) :=
  self.submitThen self.profile.port req.task owner
    (.success, now + self.profile.writeLatencyUs) fun queue =>
      { self with toServiceQueue := queue, blocks := Finmap.insert req.block .dirty self.blocks }

/-- The status of a writeback and the blocks after it: a dirty block becomes clean. -/
def writebackEffect (block : BlockHash) : CompletionStatus × Finmap fun _ : BlockHash => BlockState :=
  match self.blocks.lookup block with
  | some .dirty => (.success, Finmap.insert block .clean self.blocks)
  | some .clean => (.success, self.blocks)
  | none => (.retryableFailure "writeback_missing_block", self.blocks)

def submitWriteback (block : BlockHash) (task : Option TaskKey) (owner : ω) (now : SimTimestamp) :
    Except SimError (ServiceOpHandle × BlockServiceStub ω) :=
  self.submitThen self.profile.port task owner
    ((self.writebackEffect block).1, now + self.profile.writebackLatencyUs) fun queue =>
      { self with toServiceQueue := queue, blocks := (self.writebackEffect block).2 }

def pollReady (now : SimTimestamp) : List (Owned ω) × BlockServiceStub ω :=
  ((self.toServiceQueue.pollReady now).1,
    { self with toServiceQueue := (self.toServiceQueue.pollReady now).2 })

variable {self} {stub : BlockServiceStub ω} {owner : ω} {now : SimTimestamp}
  {handle : ServiceOpHandle}

theorem submitRead_ok {req : BlockReadReq} (h : self.submitRead req owner now = .ok (handle, stub)) :
    stub.profile = self.profile ∧ ∃ status item, Accepts self.profile.port owner status handle
      self.toServiceQueue stub.toServiceQueue item := by
  obtain ⟨q, item, rfl, haccepts⟩ := ServiceQueue.submitThen_ok h
  exact ⟨rfl, _, item, haccepts⟩

theorem submitWrite_ok {req : BlockWriteReq}
    (h : self.submitWrite req owner now = .ok (handle, stub)) :
    stub.profile = self.profile ∧ ∃ status item, Accepts self.profile.port owner status handle
      self.toServiceQueue stub.toServiceQueue item := by
  obtain ⟨q, item, rfl, haccepts⟩ := ServiceQueue.submitThen_ok h
  exact ⟨rfl, _, item, haccepts⟩

theorem submitWriteback_ok {block : BlockHash} {task : Option TaskKey}
    (h : self.submitWriteback block task owner now = .ok (handle, stub)) :
    stub.profile = self.profile ∧ ∃ status item, Accepts self.profile.port owner status handle
      self.toServiceQueue stub.toServiceQueue item := by
  obtain ⟨q, item, rfl, haccepts⟩ := ServiceQueue.submitThen_ok h
  exact ⟨rfl, _, item, haccepts⟩

end BlockServiceStub

/-! ### Shared-memory service -/

structure ShmemPutReq where
  task : Option TaskKey
  requesterEntity : EntityId
  segment : SegmentHandle
  bytes : UInt64
deriving DecidableEq

structure ShmemGetReq where
  task : Option TaskKey
  requesterEntity : EntityId
  segment : SegmentHandle
  bytes : UInt64
deriving DecidableEq

structure ShmemServiceProfile where
  defaultLatencyUs : SimTimestamp
  maxSegmentBytes : UInt64
  maxSegments : ℕ
  peerCount : UInt32
  queueDepth : UInt64
deriving DecidableEq

def ShmemServiceProfile.default : ShmemServiceProfile :=
  { defaultLatencyUs := 3, maxSegmentBytes := 1048576, maxSegments := 64, peerCount := 2,
    queueDepth := 16 }

def ShmemServiceProfile.port (profile : ShmemServiceProfile) : Port :=
  ⟨.shmemService, profile.queueDepth, "shmem queue full"⟩

structure SegmentMeta where
  ownerEntity : EntityId
  bytes : UInt64
deriving DecidableEq

structure ShmemServiceStub (ω : Type) extends ServiceQueue ω where
  profile : ShmemServiceProfile
  segments : Finmap fun _ : SegmentHandle => SegmentMeta

namespace ShmemServiceStub

def new (profile : ShmemServiceProfile) : ShmemServiceStub ω :=
  { ServiceQueue.empty with profile, segments := ∅ }

variable (self : ShmemServiceStub ω)

def registerSegment (segment : SegmentHandle) (ownerEntity : EntityId) (bytes : UInt64) :
    Except SimError (ShmemServiceStub ω) :=
  if bytes = 0 then
    .error (.invalidInput "shmem segment bytes must be positive")
  else if bytes > self.profile.maxSegmentBytes then
    .error (.invalidInput "shmem segment exceeds size limit")
  else if (self.segments.lookup segment).isNone ∧
      self.segments.keys.card ≥ self.profile.maxSegments then
    .error (.invalidInput "shmem segment table full")
  else
    .ok { self with segments := Finmap.insert segment ⟨ownerEntity, bytes⟩ self.segments }

variable {self} in
theorem registerSegment_ok {segment : SegmentHandle} {ownerEntity : EntityId} {bytes : UInt64}
    {st : ShmemServiceStub ω} (h : self.registerSegment segment ownerEntity bytes = .ok st) :
    st = { self with segments := Finmap.insert segment ⟨ownerEntity, bytes⟩ self.segments } := by
  unfold registerSegment at h
  split_ifs at h
  exact (Except.ok.inj h).symm

/-- The access rule: a known segment, large enough, whose owner is the requester, or a requester
among the first `peer_count` entities. -/
def checkAccess (segment : SegmentHandle) (requesterEntity : EntityId) (bytes : UInt64) :
    CompletionStatus :=
  match self.segments.lookup segment with
  | none => .retryableFailure "missing_segment"
  | some seg =>
    if bytes > seg.bytes then .retryableFailure "short_segment"
    else if requesterEntity ≠ seg.ownerEntity ∧ requesterEntity ≥ self.profile.peerCount then
      .fatalFailure "shmem_access_denied"
    else .success

/-- The body of `submit_put` and `submit_get`, which do the same. -/
def submitAccess (task : Option TaskKey) (requesterEntity : EntityId) (segment : SegmentHandle)
    (bytes : UInt64) (owner : ω) (now : SimTimestamp) :
    Except SimError (ServiceOpHandle × ShmemServiceStub ω) :=
  self.submitThen self.profile.port task owner
    (self.checkAccess segment requesterEntity bytes, now + self.profile.defaultLatencyUs)
    fun queue => { self with toServiceQueue := queue }

def submitPut (req : ShmemPutReq) (owner : ω) (now : SimTimestamp) :
    Except SimError (ServiceOpHandle × ShmemServiceStub ω) :=
  self.submitAccess req.task req.requesterEntity req.segment req.bytes owner now

def submitGet (req : ShmemGetReq) (owner : ω) (now : SimTimestamp) :
    Except SimError (ServiceOpHandle × ShmemServiceStub ω) :=
  self.submitAccess req.task req.requesterEntity req.segment req.bytes owner now

def pollReady (now : SimTimestamp) : List (Owned ω) × ShmemServiceStub ω :=
  ((self.toServiceQueue.pollReady now).1,
    { self with toServiceQueue := (self.toServiceQueue.pollReady now).2 })

/-- The requester passes the access rule for a segment of this owner. -/
def MayAccess (requester owner peerCount : EntityId) : Prop :=
  requester = owner ∨ requester < peerCount

variable {self}

/-- **The access check succeeds exactly** for requests that fit into a known segment and whose
requester passes the rule. -/
theorem checkAccess_success {segment : SegmentHandle} {requester : EntityId} {bytes : UInt64} :
    self.checkAccess segment requester bytes = .success ↔
      ∃ seg, self.segments.lookup segment = some seg ∧ bytes ≤ seg.bytes ∧
        MayAccess requester seg.ownerEntity self.profile.peerCount := by
  unfold checkAccess MayAccess
  cases self.segments.lookup segment with
  | none => simp
  | some seg =>
    simp only [Option.some.injEq, exists_eq_left']
    split_ifs with hshort hdenied
    · simp [UInt64.not_le.2 hshort]
    · simp [hdenied.1, UInt32.not_lt.2 hdenied.2]
    · simp only [true_iff]
      refine ⟨UInt64.not_lt.1 hshort, ?_⟩
      by_contra hno
      rw [not_or, UInt32.not_lt] at hno
      exact hdenied hno

theorem submitAccess_ok {task : Option TaskKey} {requester : EntityId} {segment : SegmentHandle}
    {bytes : UInt64} {owner : ω} {now : SimTimestamp} {handle : ServiceOpHandle}
    {stub : ShmemServiceStub ω}
    (h : self.submitAccess task requester segment bytes owner now = .ok (handle, stub)) :
    stub.profile = self.profile ∧ stub.segments = self.segments ∧
      ∃ item, Accepts self.profile.port owner (self.checkAccess segment requester bytes) handle
        self.toServiceQueue stub.toServiceQueue item := by
  obtain ⟨q, item, rfl, haccepts⟩ := ServiceQueue.submitThen_ok h
  exact ⟨rfl, rfl, item, haccepts⟩

end ShmemServiceStub

/-! ### File service -/

structure DfsServiceProfile where
  metadataLatencyUs : SimTimestamp
  dataLatencyUs : SimTimestamp
  coldMetadataPenaltyUs : SimTimestamp
  coldDataPenaltyUs : SimTimestamp
  queueDepth : UInt64
deriving DecidableEq

def DfsServiceProfile.default : DfsServiceProfile :=
  { metadataLatencyUs := 20, dataLatencyUs := 80, coldMetadataPenaltyUs := 15,
    coldDataPenaltyUs := 60, queueDepth := 16 }

def DfsServiceProfile.port (profile : DfsServiceProfile) : Port :=
  ⟨.dfsService, profile.queueDepth, "dfs queue full"⟩

structure DfsReadReq where
  task : Option TaskKey
  path : String
deriving DecidableEq

structure DfsWriteReq where
  task : Option TaskKey
  path : String
  bytes : UInt64
deriving DecidableEq

structure FileMeta where
  bytes : UInt64
  warm : Bool
deriving DecidableEq

structure DfsServiceStub (ω : Type) extends ServiceQueue ω where
  profile : DfsServiceProfile
  files : Finmap fun _ : String => FileMeta

namespace DfsServiceStub

def new (profile : DfsServiceProfile) : DfsServiceStub ω :=
  { ServiceQueue.empty with profile, files := ∅ }

variable (self : DfsServiceStub ω)

def submitWrite (req : DfsWriteReq) (owner : ω) (now : SimTimestamp) :
    Except SimError (ServiceOpHandle × DfsServiceStub ω) :=
  self.submitThen self.profile.port req.task owner
    (.success, now + self.profile.metadataLatencyUs + self.profile.dataLatencyUs) fun queue =>
      { self with
        toServiceQueue := queue
        files := Finmap.insert req.path ⟨req.bytes, false⟩ self.files }

/-- The outcome of a read and the files after it: the read warms the file it finds, and the first
read of a file pays the cold penalties. -/
def readEffect (path : String) (now : SimTimestamp) :
    (CompletionStatus × SimTimestamp) × Finmap fun _ : String => FileMeta :=
  match self.files.lookup path with
  | some file =>
    let penalty := if file.warm then 0 else
      self.profile.coldMetadataPenaltyUs + self.profile.coldDataPenaltyUs
    ((.success, now + self.profile.metadataLatencyUs + self.profile.dataLatencyUs + penalty),
      Finmap.insert path { file with warm := true } self.files)
  | none => ((.retryableFailure "missing_path", now + self.profile.metadataLatencyUs), self.files)

def submitRead (req : DfsReadReq) (owner : ω) (now : SimTimestamp) :
    Except SimError (ServiceOpHandle × DfsServiceStub ω) :=
  self.submitThen self.profile.port req.task owner (self.readEffect req.path now).1 fun queue =>
    { self with toServiceQueue := queue, files := (self.readEffect req.path now).2 }

def pollReady (now : SimTimestamp) : List (Owned ω) × DfsServiceStub ω :=
  ((self.toServiceQueue.pollReady now).1,
    { self with toServiceQueue := (self.toServiceQueue.pollReady now).2 })

variable {self} {stub : DfsServiceStub ω} {owner : ω} {now : SimTimestamp} {handle : ServiceOpHandle}

theorem submitWrite_ok {req : DfsWriteReq} (h : self.submitWrite req owner now = .ok (handle, stub)) :
    stub.profile = self.profile ∧ ∃ status item, Accepts self.profile.port owner status handle
      self.toServiceQueue stub.toServiceQueue item := by
  obtain ⟨q, item, rfl, haccepts⟩ := ServiceQueue.submitThen_ok h
  exact ⟨rfl, _, item, haccepts⟩

theorem submitRead_ok {req : DfsReadReq} (h : self.submitRead req owner now = .ok (handle, stub)) :
    stub.profile = self.profile ∧ ∃ status item, Accepts self.profile.port owner status handle
      self.toServiceQueue stub.toServiceQueue item := by
  obtain ⟨q, item, rfl, haccepts⟩ := ServiceQueue.submitThen_ok h
  exact ⟨rfl, _, item, haccepts⟩

end DfsServiceStub

/-! ### Database service -/

structure DbPutReq where
  task : Option TaskKey
  key : String
  bytes : UInt64
deriving DecidableEq

structure DbGetReq where
  task : Option TaskKey
  key : String
deriving DecidableEq

structure DbServiceProfile where
  metadataLatencyUs : SimTimestamp
  valueLatencyUs : SimTimestamp
  inlineValueLimit : UInt64
  pipelineBatchLimit : UInt64
  queueDepth : UInt64
deriving DecidableEq

def DbServiceProfile.default : DbServiceProfile :=
  { metadataLatencyUs := 8, valueLatencyUs := 16, inlineValueLimit := 64, pipelineBatchLimit := 16,
    queueDepth := 16 }

def DbServiceProfile.port (profile : DbServiceProfile) : Port :=
  ⟨.dbService, profile.queueDepth, "db queue full"⟩

structure DbServiceStub (ω : Type) extends ServiceQueue ω where
  profile : DbServiceProfile
  rows : Finmap fun _ : String => UInt64

namespace DbServiceStub

def new (profile : DbServiceProfile) : DbServiceStub ω :=
  { ServiceQueue.empty with profile, rows := ∅ }

variable (self : DbServiceStub ω)

/-- The extra latency of a value that is not stored inline. -/
def valuePenalty (bytes : UInt64) : SimTimestamp :=
  if bytes > self.profile.inlineValueLimit then self.profile.valueLatencyUs else 0

def maxBytes : UInt64 := self.profile.inlineValueLimit * self.profile.pipelineBatchLimit

/-- The outcome of a put and the rows after it: a value over the batch limit is not stored. -/
def putEffect (key : String) (bytes : UInt64) (now : SimTimestamp) :
    (CompletionStatus × SimTimestamp) × Finmap fun _ : String => UInt64 :=
  if bytes > self.maxBytes then
    ((.retryableFailure "db_batch_limit_exceeded", now + self.profile.metadataLatencyUs), self.rows)
  else
    ((.success, now + self.profile.metadataLatencyUs + self.valuePenalty bytes),
      Finmap.insert key bytes self.rows)

def submitPut (req : DbPutReq) (owner : ω) (now : SimTimestamp) :
    Except SimError (ServiceOpHandle × DbServiceStub ω) :=
  self.submitThen self.profile.port req.task owner (self.putEffect req.key req.bytes now).1
    fun queue =>
      { self with toServiceQueue := queue, rows := (self.putEffect req.key req.bytes now).2 }

def getOutcome (key : String) (now : SimTimestamp) : CompletionStatus × SimTimestamp :=
  match self.rows.lookup key with
  | some bytes => (.success, now + self.profile.metadataLatencyUs + self.valuePenalty bytes)
  | none => (.retryableFailure "db_missing_key", now + self.profile.metadataLatencyUs)

def submitGet (req : DbGetReq) (owner : ω) (now : SimTimestamp) :
    Except SimError (ServiceOpHandle × DbServiceStub ω) :=
  self.submitThen self.profile.port req.task owner (self.getOutcome req.key now) fun queue =>
    { self with toServiceQueue := queue }

def pollReady (now : SimTimestamp) : List (Owned ω) × DbServiceStub ω :=
  ((self.toServiceQueue.pollReady now).1,
    { self with toServiceQueue := (self.toServiceQueue.pollReady now).2 })

variable {self} {stub : DbServiceStub ω} {owner : ω} {now : SimTimestamp} {handle : ServiceOpHandle}

/-- A put that is not too large stores its key; rows are never removed. -/
theorem submitPut_ok {req : DbPutReq} (h : self.submitPut req owner now = .ok (handle, stub)) :
    stub.profile = self.profile ∧
      (∀ key, (self.rows.lookup key).isSome → (stub.rows.lookup key).isSome) ∧
      ∃ status item, Accepts self.profile.port owner status handle
        self.toServiceQueue stub.toServiceQueue item ∧
          (status = .success → (stub.rows.lookup req.key).isSome) := by
  obtain ⟨q, item, rfl, haccepts⟩ := ServiceQueue.submitThen_ok h
  refine ⟨rfl, fun key hkey => ?_, _, item, haccepts, fun hsuccess => ?_⟩
  · unfold putEffect
    split_ifs
    · exact hkey
    · by_cases heq : key = req.key
      · subst heq
        simp
      · simpa [Finmap.lookup_insert_of_ne _ heq] using hkey
  · unfold putEffect at hsuccess ⊢
    split_ifs at hsuccess ⊢
    simp

/-- A get misses exactly the keys without a row. -/
theorem submitGet_ok {req : DbGetReq} (h : self.submitGet req owner now = .ok (handle, stub)) :
    stub.profile = self.profile ∧ stub.rows = self.rows ∧
      ∃ status item, Accepts self.profile.port owner status handle
        self.toServiceQueue stub.toServiceQueue item ∧
          (status = .retryableFailure "db_missing_key" → self.rows.lookup req.key = none) := by
  obtain ⟨q, item, rfl, haccepts⟩ := ServiceQueue.submitThen_ok h
  refine ⟨rfl, rfl, _, item, haccepts, fun hmissing => ?_⟩
  cases hrow : self.rows.lookup req.key with
  | none => rfl
  | some bytes => simp [getOutcome, hrow] at hmissing

end DbServiceStub

end LinquUb
