import LinquUb.Legacy.MessageQueue

/-!
# One request of the message queue

The device answers a request if it can be read, the device knows it, both queues exist and guest
memory takes the packet and its completion entry.  Otherwise it fails, and at most the packet has
been written.

* `MessageQueue.Served` : the requests that are answered;
* `MessageQueue.withAnswer` : the state behind an answer;
* `MessageQueue.processSqe_end` : **what a request does, from any state**.
-/

namespace LinquUb

open LTS

namespace Legacy

namespace MessageQueue

/-- The requests that the device knows, with the lengths of the answers. -/
def responseLength (sqe : LinquUbMsgSqe) (req : List UInt8) : Option ℕ :=
  let taskType := sqe.dw0 &&& 0x3
  let opcode := (sqe.dw0 >>> 8) &&& 0xff
  if taskType = 0 then
    if dword req 7 >>> 24 ∈ cfgWriteCodes ∨ dword req 7 >>> 24 ∈ cfgReadCodes then some 48 else none
  else if taskType = 1 ∧ opcode = 0 then some 92
  else if taskType = 1 ∧ opcode = 1 then some 44
  else if taskType = 1 ∧ opcode = 2 then some 48
  else if taskType = 2 ∧ opcode = 2 then some 4
  else none

section

variable (bus : DmaBus) (s : MessageQueue)

/-- Both queues exist, and guest memory takes a packet of `len` bytes and its completion entry. -/
def TakesAnswer (len : ℕ) : Prop :=
  s.rq.depth ≠ 0 ∧ s.cq.depth ≠ 0 ∧
    bus.write s.writes (s.rqAddress s.rq.pi) len = true ∧
    bus.write (s.writes + 1) (s.cqAddress s.cq.pi) 16 = true

/-- The request at `sqIdx` can be read, the device knows it, and guest memory takes the answer. -/
def Served (sqIdx : ℕ) : Prop :=
  s.sqIova ≠ 0 ∧
    ∃ buf ∈ bus.read s.reads (s.sqAddress sqIdx) 16,
    ∃ pkt ∈ bus.read (s.reads + 1) (s.sqIova + (LinquUbMsgSqe.ofBytes buf).pAddr.toUInt64) 48,
    ∃ len ∈ responseLength (LinquUbMsgSqe.ofBytes buf) pkt, TakesAnswer bus s len

/-- The packet and its completion entry are written and published. -/
def withAnswer (config : ConfigSpace) (rsp cqe : List UInt8) : MessageQueue :=
  { s with
    config
    writes := s.writes + 2
    rq := (s.rq.store rsp).publish
    cq := (s.cq.store cqe).publish
    cqIntStatus := 1
    cqIntRo := 0 }

/-- At most a packet has been written. -/
def MayStore (rq : MsgRing) : Prop := rq = s.rq ∨ ∃ rsp, rq = s.rq.store rsp

/-- The two ends of a request: it is answered if `ok` holds, and otherwise it fails. -/
def RequestEnd (ok : Prop) (out : ℤ × MessageQueue) : Prop :=
  (ok ∧ ∃ config rsp cqe, out = (0, s.withAnswer config rsp cqe)) ∨
    ¬ ok ∧ ∃ config reads writes rq, MayStore s rq ∧
      out = (-1, { s with config, reads, writes, rq })

end

variable {bus : DmaBus} {s : MessageQueue}

theorem neg_rc : (-1 : ℤ) < 0 := by decide

theorem RequestEnd.fail {ok : Prop} (hok : ¬ ok) (s : MessageQueue) : RequestEnd s ok (-1, s) :=
  .inr ⟨hok, _, _, _, _, .inl rfl, rfl⟩

theorem RequestEnd.congr {ok ok' : Prop} {out : ℤ × MessageQueue} (h : RequestEnd s ok out)
    (hok : ok ↔ ok') : RequestEnd s ok' out := by
  rwa [propext hok] at h

/-- A write to the configuration space does not touch the queues. -/
theorem RequestEnd.config {ok : Prop} {config : ConfigSpace} {out : ℤ × MessageQueue}
    (h : RequestEnd { s with config := config } ok out) : RequestEnd s ok out := h

theorem answer_end (bus : DmaBus) (hrq : s.rq.depth ≠ 0) (hcq : s.cq.depth ≠ 0) (rsp : List UInt8)
    (dw0 dw1 : UInt32) :
    RequestEnd s (TakesAnswer bus s rsp.length) (answer bus s rsp dw0 dw1) := by
  unfold answer TakesAnswer
  dsimp only
  simp only [LinquUbMsgCqe.toBytes_length]
  split_ifs with hpacket hentry
  · exact .inl ⟨⟨hrq, hcq, hpacket, hentry⟩, _, _, _, rfl⟩
  · exact .inr ⟨fun h => hentry h.2.2.2, _, _, _, _, .inr ⟨rsp, rfl⟩, rfl⟩
  · exact .inr ⟨fun h => hpacket h.2.2.1, _, _, _, _, .inl rfl, rfl⟩

theorem respond_end (sqe : LinquUbMsgSqe) (rsp : List UInt8) :
    RequestEnd s (TakesAnswer bus s rsp.length) (respond bus s sqe rsp) := by
  unfold respond
  split_ifs with hnone
  · exact .fail (fun h => hnone.elim h.1 h.2.1) s
  · rw [not_or] at hnone
    exact answer_end bus hnone.1 hnone.2 rsp _ _

theorem cfgResponse_length (req : List UInt8) (readData : UInt32) :
    (cfgResponse req readData).length = 48 := by
  simp [cfgResponse]

theorem respondCfg_end (sqe : LinquUbMsgSqe) (req : List UInt8) :
    RequestEnd s ((dword req 7 >>> 24 ∈ cfgWriteCodes ∨ dword req 7 >>> 24 ∈ cfgReadCodes) ∧
      TakesAnswer bus s 48) (respondCfg bus s sqe req) := by
  unfold respondCfg
  dsimp only
  split_ifs with hnone hwrite hread
  · exact .fail (fun h => hnone.elim h.2.1 h.2.2.1) s
  · rw [not_or] at hnone
    have h := answer_end bus
      (s := { s with config := s.config.cfgWriteDword (dword req 9) (dword req 11) })
      hnone.1 hnone.2 (cfgResponse req 0) (cqeCode sqe.dw0 (dword req 7 >>> 24 ||| 0x1)) sqe.dw1
    rw [cfgResponse_length] at h
    exact h.config.congr (and_iff_right (.inl hwrite)).symm
  · rw [not_or] at hnone
    have h := answer_end bus hnone.1 hnone.2
      (cfgResponse req (s.config.cfgReadDword (dword req 9)))
      (cqeCode sqe.dw0 (dword req 7 >>> 24 ||| 0x1)) sqe.dw1
    rw [cfgResponse_length] at h
    exact h.congr (and_iff_right (.inr hread)).symm
  · exact .fail (fun h => h.1.elim hwrite hread) s

theorem enumHeader_length (req : List UInt8) : (enumHeader req).length = 20 := by
  simp [enumHeader]

theorem dispatchSqe_end (bus : DmaBus) (sqe : LinquUbMsgSqe) (pkt : List UInt8) :
    RequestEnd s (∃ len ∈ responseLength sqe pkt, TakesAnswer bus s len)
      (dispatchSqe bus s sqe pkt) := by
  have hsome : ∀ {len : ℕ} {rsp : List UInt8}, rsp.length = len →
      RequestEnd s (∃ len' ∈ some len, TakesAnswer bus s len') (respond bus s sqe rsp) := by
    rintro len rsp rfl
    exact (respond_end sqe rsp).congr (by simp)
  unfold dispatchSqe responseLength
  dsimp only
  split_ifs with hcfg hcode
  · exact (respondCfg_end sqe pkt).congr (by simp [hcode])
  · exact (respondCfg_end sqe pkt).congr (by simp [hcode])
  · exact hsome (by simp [topoQueryResponse, enumHeader_length])
  · exact hsome (by simp [naCfgResponse, enumHeader_length])
  · exact hsome (by simp [naQueryResponse, enumHeader_length])
  · exact hsome (by simp [hiEuCfgResponse])
  · exact .fail (by simp) s

/-- **What a request does.** -/
theorem processSqe_end (bus : DmaBus) (s : MessageQueue) (sqIdx : ℕ) :
    (Served bus s sqIdx ∧ ∃ config rsp cqe,
      processSqe bus s sqIdx = (0, { s with reads := s.reads + 2 }.withAnswer config rsp cqe)) ∨
    (¬ Served bus s sqIdx ∧ ∃ config reads writes rq, MayStore s rq ∧
      processSqe bus s sqIdx = (-1, { s with config, reads, writes, rq })) := by
  unfold processSqe Served
  by_cases hiova : s.sqIova = 0
  · rw [if_pos hiova]
    exact .inr ⟨fun h => h.1 hiova, _, _, _, _, .inl rfl, rfl⟩
  rw [if_neg hiova, and_iff_right hiova]
  cases hentry : bus.read s.reads (s.sqAddress sqIdx) 16 with
  | none => exact .inr ⟨by simp, _, _, _, _, .inl rfl, rfl⟩
  | some buf =>
  cases hpacket : bus.read (s.reads + 1)
    (s.sqIova + (LinquUbMsgSqe.ofBytes buf).pAddr.toUInt64) 48 with
  | none =>
    simp only [hpacket]
    exact .inr ⟨by simp [hpacket], _, _, _, _, .inl rfl, rfl⟩
  | some pkt =>
    simp only [hpacket, Option.mem_def, Option.some.injEq, exists_eq_left']
    exact dispatchSqe_end bus (s := { s with reads := s.reads + 2 }) (LinquUbMsgSqe.ofBytes buf) pkt

end MessageQueue

end Legacy

end LinquUb
