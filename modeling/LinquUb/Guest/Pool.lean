import LinquUb.LTS.Datagrams
import Mathlib.Algebra.GroupWithZero.Nat

/-!
# The nodes of the OBMM pool demo

`ub_obmm_pool_demo.c`: up to eight nodes exchange metadata (HELLO), wait for each other (READY) and
then take turns in `do_rounds`: the owner of a round writes its slot and sends TURN, the others verify
the slot and send ACK, and the owner answers all of them with COMMIT.

* `PoolMsg`, `PoolSlotRecord` : messages and the records in the shared slots;
* `PoolPc`, `PoolNode` : where a node is in its loops, and the local variables of these;
* `Pool.advance` : the next step of a node;
* `Pool.act` : a step of a node, a timeout, or a step of the network.
-/

namespace LinquUb

/-! ### Messages -/

def maxNodes : ℕ := 8

/-- The smallest pool has a node 0 and a node 1. -/
instance neZero_two : NeZero 2 := ⟨by decide⟩

def poolMagic : UInt32 := 0x4f424d50

def poolVersion : UInt16 := 1

def msgHello : UInt16 := 1

def msgReady : UInt16 := 2

def msgRoundTurn : UInt16 := 3

def msgRoundAck : UInt16 := 4

def msgRoundCommit : UInt16 := 5

structure ObmmDemoMeta where
  exportMemId : UInt64
  remoteUba : UInt64
  size : UInt64
  tokenId : UInt32
  exportCna : UInt32
deriving DecidableEq, Repr

def ObmmDemoMeta.zero : ObmmDemoMeta :=
  { exportMemId := 0, remoteUba := 0, size := 0, tokenId := 0, exportCna := 0 }

structure PoolMsg where
  magic : UInt32
  version : UInt16
  type : UInt16
  srcIdx : UInt16
  dstIdx : UInt16
  roundIdx : UInt16
  slotCount : UInt16
  demoMeta : ObmmDemoMeta
deriving DecidableEq, Repr

def initPoolMsg (type : UInt16) (srcIdx dstIdx : ℕ) : PoolMsg :=
  { magic := poolMagic
    version := poolVersion
    type := type
    srcIdx := .ofNat srcIdx
    dstIdx := .ofNat dstIdx
    roundIdx := 0
    slotCount := 0
    demoMeta := .zero }

/-- The message of `send_round_turn`, `send_round_ack` and `broadcast_round_commit`. -/
def roundMsg (type : UInt16) (srcIdx dstIdx roundIdx : ℕ) : PoolMsg :=
  { initPoolMsg type srcIdx dstIdx with roundIdx := .ofNat roundIdx }

def PoolMsg.isOurs (rx : PoolMsg) : Bool := rx.magic = poolMagic ∧ rx.version = poolVersion

/-- The filter of `wait_for_round_msg`. -/
def PoolMsg.isRoundMsg (rx : PoolMsg) (type : UInt16) (srcIdx dstIdx roundIdx : ℕ) : Bool :=
  rx.isOurs ∧ rx.type = type ∧ rx.srcIdx = .ofNat srcIdx ∧ rx.dstIdx = .ofNat dstIdx ∧
    rx.roundIdx = .ofNat roundIdx

variable {n : ℕ}

/-- The sender, if `src_idx` is the index of a node. -/
def PoolMsg.sender (rx : PoolMsg) (n : ℕ) : Option (Fin n) :=
  if h : rx.srcIdx.toNat < n then some ⟨rx.srcIdx.toNat, h⟩ else none

/-- The filter of `wait_for_all_round_acks`: the node that acknowledges the round. -/
def PoolMsg.roundAck (rx : PoolMsg) (localIdx : Fin n) (roundIdx : ℕ) : Option (Fin n) :=
  if rx.isOurs ∧ rx.type = msgRoundAck ∧ rx.dstIdx = .ofNat localIdx ∧
      rx.roundIdx = .ofNat roundIdx ∧ rx.srcIdx ≠ .ofNat localIdx
  then rx.sender n else none

/-- The two loops that send to every peer until all have been heard. -/
inductive Exchange
  /-- `broadcast_hello_until_all`. -/
  | hello
  /-- `wait_until_everyone_ready`. -/
  | ready
deriving DecidableEq, Repr

namespace Exchange

def msgType : Exchange → UInt16
  | hello => msgHello
  | ready => msgReady

/-- What node `i` sends to node `k`. -/
def msg (localMeta : Fin n → ObmmDemoMeta) (ph : Exchange) (i k : Fin n) : PoolMsg :=
  match ph with
  | hello => { initPoolMsg msgHello i k with demoMeta := localMeta i }
  | ready => initPoolMsg msgReady i k

/-- The filter of the loop: the node that was heard. -/
def heardFrom (ph : Exchange) (rx : PoolMsg) (n : ℕ) : Option (Fin n) :=
  if rx.isOurs ∧ rx.type = ph.msgType then rx.sender n else none

end Exchange

/-! ### Slots -/

structure PoolSlotRecord where
  magic : UInt32
  version : UInt16
  dataOwnerIdx : UInt16
  dataRoundIdx : UInt16
  dataCookie : UInt64
deriving DecidableEq, Repr

def roundCookie (ownerIdx slotIdx : ℕ) : UInt64 :=
  (UInt64.ofNat (ownerIdx + 1) <<< 32) ||| .ofNat (slotIdx + 1)

def writeSlotPayload (ownerIdx slotIdx : ℕ) : PoolSlotRecord :=
  { magic := poolMagic
    version := poolVersion
    dataOwnerIdx := .ofNat ownerIdx
    dataRoundIdx := .ofNat slotIdx
    dataCookie := roundCookie ownerIdx slotIdx }

def slotMatchesPayload (r : PoolSlotRecord) (ownerIdx slotIdx : ℕ) : Bool :=
  r.magic = poolMagic ∧ r.version = poolVersion ∧ r.dataOwnerIdx = .ofNat ownerIdx ∧
    r.dataRoundIdx = .ofNat slotIdx ∧ r.dataCookie = roundCookie ownerIdx slotIdx

/-! ### Nodes -/

/-- Where a node is. -/
inductive PoolPc (n : ℕ)
  /-- At the head of the loop. -/
  | exchange (ph : Exchange)
  /-- Sending, with `i = k` next. -/
  | exchangeSend (ph : Exchange) (k : ℕ)
  /-- Draining the socket. -/
  | exchangeRecv (ph : Exchange)
  /-- At the start of a round. -/
  | round (r : Fin n)
  /-- The owner verifies its own slot. -/
  | verifyOwn (r : Fin n)
  | turnSend (r : Fin n) (k : ℕ)
  /-- In `wait_for_all_round_acks`. -/
  | acks (r : Fin n)
  /-- In `broadcast_round_commit`. -/
  | commitSend (r : Fin n) (attempt k : ℕ)
  | turnWait (r : Fin n)
  | verify (r : Fin n)
  | ackSend (r : Fin n)
  | commitWait (r : Fin n)
  | done
deriving DecidableEq, Repr

/-- The head of the loop of `do_rounds` with `round_idx = k`. -/
def PoolPc.atRound (n k : ℕ) : PoolPc n := if h : k < n then .round ⟨k, h⟩ else .done

structure PoolNode (n : ℕ) where
  pc : PoolPc n
  /-- `false` once the node has given up. -/
  running : Bool
  metas : Fin n → ObmmDemoMeta
  /-- `got_meta` and `ready`. -/
  heard : Exchange → Fin n → Bool
  gotAck : Fin n → Bool
  pending : ℕ

/-- A node at the start of a loop, in which it has heard itself only. -/
def PoolNode.enter (p : PoolNode n) (i : Fin n) (ph : Exchange) : PoolNode n :=
  { p with
    pc := .exchange ph
    heard := Function.update p.heard ph fun k => decide (k = i) }

def PoolNode.hear (p : PoolNode n) (ph : Exchange) (k : Fin n) (rx : PoolMsg) : PoolNode n :=
  { p with
    heard := Function.update p.heard ph (Function.update (p.heard ph) k true)
    metas := if ph = .hello then Function.update p.metas k rx.demoMeta else p.metas }

/-- The start of `wait_for_all_round_acks`. -/
def PoolNode.awaitAcks (p : PoolNode n) (r : Fin n) : PoolNode n :=
  { p with
    pc := .acks r
    gotAck := fun _ => false
    pending := n - 1 }

def PoolNode.countAck (p : PoolNode n) (k : Fin n) : PoolNode n :=
  if p.gotAck k then p
  else { p with
    gotAck := Function.update p.gotAck k true
    pending := p.pending - 1 }

abbrev PoolDatagram (n : ℕ) := Datagram (Fin n) PoolMsg

/-- All nodes, the network and the slots, with a record of what happened to the messages that were
read and of what the nodes did in their rounds. -/
structure Pool (n : ℕ) where
  node : Fin n → PoolNode n
  net : Net (Fin n) PoolMsg
  /-- The slot that each node exports. -/
  slot : Fin n → PoolSlotRecord
  accepted : List (PoolDatagram n)
  discarded : List (PoolDatagram n)
  /-- Which nodes have verified the slot of which round. -/
  verified : List (Fin n × Fin n)
  /-- Which nodes have passed which round. -/
  passed : List (Fin n × Fin n)

namespace Pool

def setNode (s : Pool n) (i : Fin n) (p : PoolNode n) : Pool n :=
  { s with node := Function.update s.node i p }

def goto (s : Pool n) (i : Fin n) (pc : PoolPc n) : Pool n :=
  s.setNode i { s.node i with pc := pc }

def post (s : Pool n) (i k : Fin n) (m : PoolMsg) : Pool n := { s with net := s.net.post ⟨i, k, m⟩ }

/-- Node `i` reads a message that its loop is waiting for. -/
def accept (s : Pool n) (i src : Fin n) (m : PoolMsg) (rest : List (Fin n × PoolMsg)) : Pool n :=
  { s with
    net := s.net.take i rest
    accepted := s.accepted ++ [⟨src, i, m⟩] }

/-- Node `i` reads a message that its loop is not waiting for. -/
def discard (s : Pool n) (i src : Fin n) (m : PoolMsg) (rest : List (Fin n × PoolMsg)) : Pool n :=
  { s with
    net := s.net.take i rest
    discarded := s.discarded ++ [⟨src, i, m⟩] }

def logVerified (s : Pool n) (i r : Fin n) : Pool n := { s with verified := (i, r) :: s.verified }

def logPassed (s : Pool n) (i r : Fin n) : Pool n := { s with passed := (i, r) :: s.passed }

def writeSlot (s : Pool n) (r : Fin n) : Pool n :=
  { s with slot := Function.update s.slot r (writeSlotPayload r r) }

/-- One iteration of a loop over the peers, which sends to peer `k` unless `skip` says not to.  Behind
the last peer it goes on to `last`. -/
def sendTo (s : Pool n) (i : Fin n) (k : ℕ) (skip : Fin n → Bool) (m : Fin n → PoolMsg)
    (next : PoolPc n) (last : Pool n) : Pool n :=
  if h : k < n then
    if skip ⟨k, h⟩ then s.goto i next else (s.goto i next).post i ⟨k, h⟩ (m ⟨k, h⟩)
  else last

/-- One step of a loop that waits for a message with `ok`. -/
def waitFor (s : Pool n) (i : Fin n) (ok : PoolMsg → Bool) (next : Pool n → Pool n) : Pool n :=
  match s.net.socket i with
  | [] => s
  | (src, m) :: rest => if ok m then next (s.accept i src m rest) else s.discard i src m rest

/-- The next step of node `i`.  A loop that finds nothing to do starts over. -/
def advance (localMeta : Fin n → ObmmDemoMeta) (s : Pool n) (i : Fin n) : Option (Pool n) :=
  match (s.node i).pc with
  | .exchange ph =>
    -- the loop returns once all have been heard, and main enters the next one
    if ∀ k, (s.node i).heard ph k = true then
      match ph with
      | .hello => some (s.setNode i ((s.node i).enter i .ready))
      | .ready => some (s.goto i (.atRound n 0))
    else some (s.goto i (.exchangeSend ph 0))
  | .exchangeSend ph k => some <|
    s.sendTo i k (fun k => k = i ∨ (s.node i).heard ph k = true) (ph.msg localMeta i)
      (.exchangeSend ph (k + 1)) (s.goto i (.exchangeRecv ph))
  | .exchangeRecv ph =>
    match s.net.socket i with
    -- the socket is drained: back to the head of the loop
    | [] => some (s.goto i (.exchange ph))
    | (src, m) :: rest =>
      match ph.heardFrom m n with
      | some k => some ((s.accept i src m rest).setNode i ((s.node i).hear ph k m))
      | none => some (s.discard i src m rest)
  | .round r =>
    if i = r then some ((s.goto i (.verifyOwn r)).writeSlot r) else some (s.goto i (.turnWait r))
  -- a slot that does not match yet is looked at again, until the deadline
  | .verifyOwn r => if slotMatchesPayload (s.slot r) r r then some (s.goto i (.turnSend r 0)) else some s
  | .turnSend r k => some <|
    s.sendTo i k (fun k => k = i) (fun k => roundMsg msgRoundTurn i k r) (.turnSend r (k + 1))
      (s.setNode i ((s.node i).awaitAcks r))
  | .acks r =>
    match s.net.socket i with
    | [] =>
      -- `pending` is looked at once the socket is drained
      if (s.node i).pending = 0 then some ((s.goto i (.commitSend r 0 0)).logPassed i r) else some s
    | (src, m) :: rest =>
      match m.roundAck i r with
      | some k => some ((s.accept i src m rest).setNode i ((s.node i).countAck k))
      | none => some (s.discard i src m rest)
  | .commitSend r attempt k => some <|
    -- COMMIT is sent ten times, and not repeated later
    if attempt < 10 then
      s.sendTo i k (fun k => k = i) (fun k => roundMsg msgRoundCommit i k r)
        (.commitSend r attempt (k + 1)) (s.goto i (.commitSend r (attempt + 1) 0))
    else s.goto i (.atRound n (r + 1))
  | .turnWait r => some <|
    s.waitFor i (·.isRoundMsg msgRoundTurn r i r) fun s => s.goto i (.verify r)
  | .verify r =>
    if slotMatchesPayload (s.slot r) r r then some ((s.goto i (.ackSend r)).logVerified i r)
    else some s
  -- TURN and ACK are sent once
  | .ackSend r => some <| (s.goto i (.commitWait r)).post i r (roundMsg msgRoundAck i r r)
  | .commitWait r => some <|
    s.waitFor i (·.isRoundMsg msgRoundCommit r i r) fun s =>
      (s.goto i (.atRound n (r + 1))).logPassed i r
  | .done => none

end Pool

inductive PoolAction (n : ℕ)
  | node (i : Fin n)
  /-- A loop of the node times out. -/
  | timeout (i : Fin n)
  | net (a : NetAction)
deriving DecidableEq, Repr

namespace Pool

def act (localMeta : Fin n → ObmmDemoMeta) (s : Pool n) : PoolAction n → Option (Pool n)
  | .node i => if (s.node i).running then s.advance localMeta i else none
  | .timeout i => some (s.setNode i { s.node i with running := false })
  | .net a => (s.net.act a).map fun net => { s with net := net }

/-- All nodes at the start of the loop `ph`, and nothing on the network. -/
def start (localMeta : Fin n → ObmmDemoMeta) (slot : Fin n → PoolSlotRecord) (ph : Exchange) :
    Pool n :=
  { node := fun i =>
      { pc := .exchange ph
        running := true
        metas := Function.update (fun _ => .zero) i (localMeta i)
        heard := fun _ k => decide (k = i)
        gotAck := fun _ => false
        pending := 0 }
    net := .empty
    slot := slot
    accepted := []
    discarded := []
    verified := []
    passed := [] }

end Pool

end LinquUb
