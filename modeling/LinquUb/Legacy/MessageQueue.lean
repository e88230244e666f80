import LinquUb.Wire.Reader
import LinquUb.Legacy.Endpoint

/-!
# The message queue of the archived QEMU device

The guest puts requests into a submission queue and moves its producer index.  The device answers
every request with a packet in the receive queue and an entry in the completion queue; the guest
says with the consumer indices which answers it has read.

* `MsgRing` : a queue that the device fills, with the slots that are not read yet;
* `MessageQueue.respond` and the functions named after the requests : the answers;
* `MessageQueue.processSqe`, `MessageQueue.ringSq` : one request, and all up to the producer index;
* `MessageQueue.msgqRegWrite` : the registers.

Log messages are left out.  The interrupt line is in `LinquUb.Legacy.Interrupts`.
-/

namespace LinquUb

open LTS

namespace Legacy

/-! ### Bytes -/

/-- `n` bytes of a buffer. -/
def slice (buf : List UInt8) (off n : ℕ) : List UInt8 :=
  (List.range n).map fun i => buf.getD (off + i) 0

def dword (buf : List UInt8) (i : ℕ) : UInt32 := .ofNat (Wire.ofLeBytes (slice buf (4 * i) 4))

def dwordBytes (value : UInt32) : List UInt8 := Wire.leBytes 4 value.toNat

@[simp] theorem slice_length (buf : List UInt8) (off n : ℕ) : (slice buf off n).length = n := by
  simp [slice]

@[simp] theorem dwordBytes_length (value : UInt32) : (dwordBytes value).length = 4 :=
  Wire.leBytes_length ..

structure LinquUbMsgSqe where
  dw0 : UInt32
  dw1 : UInt32
  pAddr : UInt32
  dw3 : UInt32
deriving DecidableEq, Repr

def LinquUbMsgSqe.ofBytes (buf : List UInt8) : LinquUbMsgSqe :=
  ⟨dword buf 0, dword buf 1, dword buf 2, dword buf 3⟩

structure LinquUbMsgCqe where
  dw0 : UInt32
  dw1 : UInt32
  dw2 : UInt32
  dw3 : UInt32
deriving DecidableEq, Repr

def LinquUbMsgCqe.toBytes (cqe : LinquUbMsgCqe) : List UInt8 :=
  dwordBytes cqe.dw0 ++ dwordBytes cqe.dw1 ++ dwordBytes cqe.dw2 ++ dwordBytes cqe.dw3

@[simp] theorem LinquUbMsgCqe.toBytes_length (cqe : LinquUbMsgCqe) : cqe.toBytes.length = 16 := by
  simp [toBytes]

/-! ### Queues that the device fills -/

/-- The registers of the receive or the completion queue, what was written to which slot, the slots
that are published and that the consumer index has not passed, and those that were written in
between. -/
structure MsgRing where
  iova : UInt64
  depth : ℕ
  pi : ℕ
  ci : ℕ
  written : List (ℕ × List UInt8)
  unread : List ℕ
  overwritten : List ℕ
deriving DecidableEq, Repr

namespace MsgRing

/-- The slot at the producer index is written. -/
def store (r : MsgRing) (entry : List UInt8) : MsgRing :=
  { r with
    written := r.written ++ [(r.pi, entry)]
    overwritten := if r.pi ∈ r.unread then r.overwritten ++ [r.pi] else r.overwritten }

/-- The producer index moves behind the slot. -/
def publish (r : MsgRing) : MsgRing :=
  { r with pi := (r.pi + 1) % r.depth, unread := r.unread ++ [r.pi] }

/-- The slots that the consumer index passes on its way to `value`. -/
def passed (r : MsgRing) (value : ℕ) : List ℕ :=
  slots r.depth (r.ci % r.depth) (advance r.depth (r.ci % r.depth) (value % r.depth))

def consume (r : MsgRing) (value : ℕ) : MsgRing :=
  { r with ci := value, unread := r.unread.filter (· ∉ r.passed value) }

end MsgRing

/-- The configuration space, the registers of the queues, and how many DMA transactions there were
and which slots of the submission queue the device has looked at. -/
structure MessageQueue where
  config : ConfigSpace
  sqIova : UInt64
  sqPi : ℕ
  sqCi : ℕ
  sqDepth : ℕ
  rq : MsgRing
  rqEntrySize : ℕ
  cq : MsgRing
  cqIntMask : ℕ
  cqIntStatus : ℕ
  cqIntRo : ℕ
  msgqIntSel : ℕ
  reads : ℕ
  writes : ℕ
  processed : List ℕ
deriving DecidableEq, Repr

namespace MessageQueue

variable (bus : DmaBus)

/-- `LINQU_UB_MSGQ_RQE_SIZE`. -/
def rqAddress (s : MessageQueue) (slot : ℕ) : UInt64 :=
  s.rq.iova + slot.toUInt64 * (0x800 : UInt64)

/-- `LINQU_UB_MSGQ_CQE_SIZE`. -/
def cqAddress (s : MessageQueue) (slot : ℕ) : UInt64 := s.cq.iova + slot.toUInt64 * (16 : UInt64)

/-- `LINQU_UB_MSGQ_SQE_SIZE`. -/
def sqAddress (s : MessageQueue) (slot : ℕ) : UInt64 := s.sqIova + slot.toUInt64 * (16 : UInt64)

/-! ### Answers -/

/-- How every answer ends: the packet and its completion entry are written, and both producer
indices move. -/
def answer (s : MessageQueue) (rsp : List UInt8) (dw0 dw1 : UInt32) : ℤ × MessageQueue :=
  let rqIdx := s.rq.pi
  if bus.write s.writes (s.rqAddress rqIdx) rsp.length then
    let s := { s with writes := s.writes + 1, rq := s.rq.store rsp }
    let cqe : LinquUbMsgCqe := ⟨dw0, dw1, rqIdx.toUInt32 &&& (0x3ff : UInt32), 0⟩
    if bus.write s.writes (s.cqAddress s.cq.pi) cqe.toBytes.length then
      (0, { s with
        writes := s.writes + 1
        rq := s.rq.publish
        cq := (s.cq.store cqe.toBytes).publish
        cqIntStatus := 1
        cqIntRo := 0 })
    else (-1, { s with writes := s.writes + 1 })
  else (-1, { s with writes := s.writes + 1 })

/-- The completion entry of a configuration request has the code of the answer. -/
def cqeCode (dw0 code : UInt32) : UInt32 := (dw0 &&& (0xffff00ff : UInt32)) ||| ((code &&& 0xff) <<< 8)

/-- The other completion entries have the length of the packet. -/
def cqeLength (dw0 : UInt32) (len : ℕ) : UInt32 :=
  (dw0 &&& (0xf000ffff : UInt32)) ||| ((len.toUInt32 &&& 0xfff) <<< 16)

def cfgReadCodes : List UInt32 := [0x4, 0x24]

def cfgWriteCodes : List UInt32 := [0x14, 0x34]

/-- The packet goes back the way it came, with the answer bit in its code and the data that was
read. -/
def cfgResponse (req : List UInt8) (readData : UInt32) : List UInt8 :=
  let seid := ((dword req 3 &&& 0xff) <<< 12) ||| ((dword req 4 >>> 20) &&& 0xfff)
  let deid := dword req 4 &&& 0xfffff
  let code := (dword req 7 >>> 24) ||| 0x1
  dwordBytes (dword req 0) ++
    dwordBytes ((dword req 1 <<< 16) ||| (dword req 1 >>> 16)) ++
    dwordBytes (dword req 2) ++
    dwordBytes ((dword req 3 &&& (0xffffff00 : UInt32)) ||| ((deid >>> 12) &&& 0xff)) ++
    dwordBytes ((seid &&& (0xfffff : UInt32)) ||| ((deid &&& (0xfff : UInt32)) <<< 20)) ++
    dwordBytes (dword req 5) ++
    dwordBytes (dword req 6) ++
    dwordBytes ((dword req 7 &&& (0x00ffffff : UInt32)) ||| (code <<< 24)) ++
    dwordBytes readData ++ dwordBytes 0 ++ dwordBytes 0 ++ dwordBytes 0

def respondCfg (s : MessageQueue) (sqe : LinquUbMsgSqe) (req : List UInt8) : ℤ × MessageQueue :=
  if s.rq.depth = 0 ∨ s.cq.depth = 0 then (-1, s)
  else
    let code := dword req 7 >>> 24
    let reqAddr := dword req 9
    let writeData := dword req 11
    let dw0 := cqeCode sqe.dw0 (code ||| 0x1)
    if code ∈ cfgWriteCodes then
      answer bus { s with config := s.config.cfgWriteDword reqAddr writeData } (cfgResponse req 0)
        dw0 sqe.dw1
    else if code ∈ cfgReadCodes then
      answer bus s (cfgResponse req (s.config.cfgReadDword reqAddr)) dw0 sqe.dw1
    else (-1, s)

/-- The other requests: an answer needs both queues. -/
def respond (s : MessageQueue) (sqe : LinquUbMsgSqe) (rsp : List UInt8) : ℤ × MessageQueue :=
  if s.rq.depth = 0 ∨ s.cq.depth = 0 then (-1, s)
  else answer bus s rsp (cqeLength sqe.dw0 rsp.length) sqe.dw1

/-- The link and network header of the request, and the empty scan header. -/
def enumHeader (req : List UInt8) : List UInt8 :=
  slice req 0 12 ++ [0, 0] ++ slice req 14 2 ++ [0, 0, 0, 0]

/-- Behind the headers: the common part with the identifier of the device, the slice, the number of
ports, the capabilities, and one port without a neighbor. -/
def topoQueryResponse (req : List UInt8) : List UInt8 :=
  enumHeader req ++ [0, 0, 0, 1, 0, 0, 18, 0] ++ slice req 28 16 ++ [0, 1, 4, 0] ++
    [1, 0, 8, 1, 0, 0, 1, 0] ++ [0, 0, 8, 4, 0, 0, 0, 0] ++ [0, 0, 28, 2, 0, 0, 0, 0] ++
    List.replicate 20 0

def respondEnumTopoQuery (s : MessageQueue) (sqe : LinquUbMsgSqe) (req : List UInt8) :
    ℤ × MessageQueue :=
  respond bus s sqe (topoQueryResponse req)

def naCfgResponse (req : List UInt8) : List UInt8 :=
  enumHeader req ++ [0, 0, 1, 1, req.getD 21 0, req.getD 20 0, 6, req.getD 23 0] ++ slice req 24 16

def respondEnumNaCfg (s : MessageQueue) (sqe : LinquUbMsgSqe) (req : List UInt8) :
    ℤ × MessageQueue :=
  respond bus s sqe (naCfgResponse req)

/-- The network address is `1`. -/
def naQueryResponse (req : List UInt8) : List UInt8 :=
  enumHeader req ++ [0, 0, 2, 1, req.getD 21 0, req.getD 20 0, 7, req.getD 23 0] ++
    slice req 24 16 ++ [1, 0, 0, 0]

def respondEnumNaQuery (s : MessageQueue) (sqe : LinquUbMsgSqe) (req : List UInt8) :
    ℤ × MessageQueue :=
  respond bus s sqe (naQueryResponse req)

def hiEuCfgResponse (req : List UInt8) : List UInt8 := dwordBytes (dword req 0 ||| (0x8000 : UInt32))

def respondHiEuCfg (s : MessageQueue) (sqe : LinquUbMsgSqe) (req : List UInt8) :
    ℤ × MessageQueue :=
  respond bus s sqe (hiEuCfgResponse req)

/-! ### Requests -/

/-- The end of `linqu_ub_msgq_process_sqe`, when the request has been read. -/
def dispatchSqe (s : MessageQueue) (sqe : LinquUbMsgSqe) (pkt : List UInt8) : ℤ × MessageQueue :=
  let taskType := sqe.dw0 &&& 0x3
  let opcode := (sqe.dw0 >>> 8) &&& 0xff
  if taskType = 0 then respondCfg bus s sqe pkt
  else if taskType = 1 ∧ opcode = 0 then respondEnumTopoQuery bus s sqe pkt
  else if taskType = 1 ∧ opcode = 1 then respondEnumNaCfg bus s sqe pkt
  else if taskType = 1 ∧ opcode = 2 then respondEnumNaQuery bus s sqe pkt
  else if taskType = 2 ∧ opcode = 2 then respondHiEuCfg bus s sqe pkt
  else (-1, s)

def processSqe (s : MessageQueue) (sqIdx : ℕ) : ℤ × MessageQueue :=
  if s.sqIova = 0 then (-1, s)
  else
    match bus.read s.reads (s.sqAddress sqIdx) 16 with
    | none => (-1, { s with reads := s.reads + 1 })
    | some buf =>
      let sqe := LinquUbMsgSqe.ofBytes buf
      match bus.read (s.reads + 1) (s.sqIova + sqe.pAddr.toUInt64) 48 with
      | none => (-1, { s with reads := s.reads + 2 })
      | some pkt => dispatchSqe bus { s with reads := s.reads + 2 } sqe pkt

/-- The loop of `linqu_ub_msgq_ring_sq`, which ends within `depth` rounds behind the first one
(`ringLoop_of_le`). -/
def ringLoop (newSqPi : ℕ) : ℕ → MessageQueue → ℕ → ℤ × MessageQueue
  | 0, s, _ => (0, s)
  | n + 1, s, sqIdx =>
    if sqIdx = newSqPi then (0, s)
    else
      match processSqe bus { s with processed := s.processed ++ [sqIdx] } sqIdx with
      | (rc, s) => if rc < 0 then (-1, s) else ringLoop newSqPi n s ((sqIdx + 1) % s.sqDepth)

def ringSq (s : MessageQueue) (newSqPi : ℕ) : ℤ × MessageQueue :=
  match ringLoop bus newSqPi (s.sqDepth + 1) s s.sqCi with
  | (rc, s) => if rc < 0 then (-1, s) else (0, { s with sqCi := newSqPi })

/-! ### Registers -/

inductive Register
  | sqAddrL | sqAddrH | sqPi | sqCi | sqDepth
  | rqAddrL | rqAddrH | rqPi | rqCi | rqDepth | rqEntrySize
  | cqAddrL | cqAddrH | cqPi | cqCi | cqDepth | cqIntMask | cqIntStatus
  | rst | intSel
  | other
deriving DecidableEq, Repr

/-- The indices and the interrupt state go back to zero. -/
def msgqReset (s : MessageQueue) : MessageQueue :=
  { s with
    sqPi := 0
    sqCi := 0
    rq.pi := 0
    rq.ci := 0
    cq.pi := 0
    cq.ci := 0
    cqIntStatus := 0
    cqIntRo := 0 }

/-- Most registers have 32 bits. -/
def msgqRegWrite (s : MessageQueue) (reg : Register) (value : UInt64) : MessageQueue :=
  let word := value.toNat % 2 ^ 32
  match reg with
  | .sqAddrL => { s with sqIova := withLow s.sqIova value }
  | .sqAddrH => { s with sqIova := withHigh s.sqIova value }
  | .sqDepth => { s with sqDepth := word }
  | .sqPi =>
    if s.sqDepth = 0 ∨ value.toNat ≥ s.sqDepth then s
    else
      match ringSq bus { s with sqPi := value.toNat } value.toNat with
      | (rc, s) => if rc < 0 then { s with cqIntStatus := 1, cqIntRo := 1 } else s
  | .rqAddrL => { s with rq.iova := withLow s.rq.iova value }
  | .rqAddrH => { s with rq.iova := withHigh s.rq.iova value }
  | .rqCi => { s with rq := s.rq.consume word }
  | .rqDepth => { s with rq.depth := word }
  | .rqEntrySize => { s with rqEntrySize := word }
  | .cqAddrL => { s with cq.iova := withLow s.cq.iova value }
  | .cqAddrH => { s with cq.iova := withHigh s.cq.iova value }
  | .cqCi =>
    let s := { s with cq := s.cq.consume word }
    if s.cq.ci = s.cq.pi then { s with cqIntRo := 0, cqIntStatus := 0 } else s
  | .cqDepth => { s with cq.depth := word }
  | .cqIntMask => { s with cqIntMask := word % 2 }
  | .cqIntStatus => if word % 2 = 1 then { s with cqIntStatus := 0, cqIntRo := 0 } else s
  | .rst => if word % 2 = 1 then s.msgqReset else s
  | .intSel => { s with msgqIntSel := word }
  | .sqCi | .rqPi | .cqPi | .other => s

/-- A queue that the guest has set up after a reset. -/
def start (config : ConfigSpace) (sqIova rqIova cqIova : UInt64) (sqDepth rqDepth cqDepth : ℕ) :
    MessageQueue where
  config
  sqIova
  sqPi := 0
  sqCi := 0
  sqDepth
  rq := ⟨rqIova, rqDepth, 0, 0, [], [], []⟩
  rqEntrySize := 0
  cq := ⟨cqIova, cqDepth, 0, 0, [], [], []⟩
  cqIntMask := 0
  cqIntStatus := 0
  cqIntRo := 0
  msgqIntSel := 0
  reads := 0
  writes := 0
  processed := []

end MessageQueue

end Legacy

end LinquUb
