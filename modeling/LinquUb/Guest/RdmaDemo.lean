import LinquUb.Guest.RpcMessage
import LinquUb.LTS.Datagrams
import LinquUb.Wire.Reader
import Mathlib.Data.Vector.Basic

/-!
# The two nodes of the RDMA demo

`ub_rdma_demo.c` from step 8 on.  The nodes synchronise on one UDP port, exchange on another one how
their jetties are addressed, import and bind the jetty of the peer, post a receive, and tell each
other that they are ready.  Then the initiator sends its request, and the responder its reply.

* `RdmaPeerInfo.bytes`, `RdmaPeerInfo.ofBytes` : `struct peer_info` as a datagram;
* `RdmaDemoPc`, `RdmaNode` : where a node is, and what it keeps;
* `rdmaPostSendOne` : the send that is posted;
* `RdmaDemo.runNode` : the next step of a node;
* `RdmaDemo.act` : a step of a node, a completion, a call that fails, a datagram of a third host, or
  a step of the network.

Steps 1 to 7 talk to the driver of the node only.  A socket that is opened does not get what has
arrived at its port before.
-/

namespace LinquUb

/-! ### Messages -/

/-- `UBCORE_EID_SIZE`. -/
def ubcoreEidSize : ℕ := 16

/-- `struct peer_info`. -/
structure RdmaPeerInfo where
  eid : List.Vector UInt8 ubcoreEidSize
  jettyId : UInt32
  token : UInt32
deriving DecidableEq

namespace RdmaPeerInfo

/-- The structure in memory. -/
def bytes (info : RdmaPeerInfo) : List UInt8 :=
  info.eid.toList ++ Wire.leBytes 4 info.jettyId.toNat ++ Wire.leBytes 4 info.token.toNat

def ofBytes (buf : List UInt8) : RdmaPeerInfo :=
  { eid := .ofFn fun k => buf.getD k 0
    jettyId := .ofNat (Wire.ofLeBytes ((buf.drop 16).take 4))
    token := .ofNat (Wire.ofLeBytes ((buf.drop 20).take 4)) }

/-- `sizeof(struct peer_info)`. -/
def sizeBytes : ℕ := 24

/-- After `memset`. -/
def zero : RdmaPeerInfo := { eid := .replicate _ 0, jettyId := 0, token := 0 }

end RdmaPeerInfo

/-- A datagram of the startup synchronisation, which is read into a buffer of 64 bytes. -/
def isRdmaSync (text : String) (m : List UInt8) : Bool :=
  let buf := m.take 63
  (ascii text).isPrefixOf buf ∨ (15 ≤ buf.length ∧ (ascii text).isPrefixOf (buf.drop 2))

/-- `ready_msg` and `ack_msg` of `sync_datapath_ready`, with the zero behind them. -/
def rdmaReadyMsg : List UInt8 := ascii "RDMA_DEMO_READY" ++ [0]

def rdmaAckMsg : List UInt8 := ascii "RDMA_DEMO_READY_ACK" ++ [0]

/-- A datagram that is read into `buf[64]` is the message. -/
def isMsg (msg m : List UInt8) : Bool := m.take 64 = msg

/-- The payloads, with the zero behind them. -/
def rdmaReqMsg : List UInt8 := ascii "rdma request payload from initiator" ++ [0]

def rdmaReplyMsg : List UInt8 := ascii "rdma reply payload from responder" ++ [0]

/-! ### Nodes -/

/-- `enum rdma_role`; a node without a role does not get so far. -/
inductive RdmaRole
  | initiator
  | responder
deriving DecidableEq, Repr

def RdmaRole.peer : RdmaRole → RdmaRole
  | .initiator => .responder
  | .responder => .initiator

inductive RdmaHost
  | node (i : RdmaRole)
  /-- Any other host. -/
  | other
deriving DecidableEq, Repr

/-- `SYNC_PORT` and `RDMA_PORT`. -/
inductive RdmaPort
  | sync
  | data
deriving DecidableEq, Repr

abbrev RdmaAddr := RdmaHost × RdmaPort

/-- Where `main` is. -/
inductive RdmaDemoPc
  | openSync
  /-- In `do_startup_sync`. -/
  | syncReq
  | syncRecv
  | syncAck (src : RdmaAddr)
  | openData
  /-- In `exchange_peer_info`. -/
  | infoSend
  | infoRecv (got : List UInt8)
  | importJetty
  | bindJetty
  | postRecv
  /-- In `sync_datapath_ready`. -/
  | readySend
  | readyRecv
  | postSend
  /-- In `rdma_wait_for_cqe`. -/
  | waitSend
  | waitRecv
  | unbindJetty
  | unimportJetty
  | returned (rc : ℕ)
deriving DecidableEq

/-- The fields of `struct rdma_resources` that steps 8 to 10 use, and `remote_info`. -/
structure RdmaNode where
  pc : RdmaDemoPc
  remote : RdmaPeerInfo
  peerEid : List UInt8
  peerJettyId : UInt32
  boundTpn : UInt32
  sqPi : UInt32
  rqPi : UInt32

/-- Before step 8. -/
def RdmaNode.start : RdmaNode :=
  { pc := .openSync, remote := .zero, peerEid := List.replicate 16 0, peerJettyId := 0,
    boundTpn := 0, sqPi := 0, rqPi := 0 }

/-- The fields of `struct udma_sqe_ctl_local` that are not zero or constant, and the payload of its
`struct udma_normal_sge_local`. -/
structure RdmaSqe where
  sqeBbIdx : ℕ
  owner : Bool
  tpn : ℕ
  rmtObjId : ℕ
  rmtEid : List UInt8
  payload : List UInt8
deriving DecidableEq

def rdmaMaxPayload : ℕ := 256

/-- The slot of the send queue, and what is written into it. -/
def rdmaPostSendOne (n : RdmaNode) (payload : List UInt8) : Option (UInt32 × RdmaSqe × RdmaNode) :=
  if payload.length = 0 ∨ payload.length > rdmaMaxPayload then none
  else some (n.sqPi &&& 63,
    { sqeBbIdx := n.sqPi.toNat % 2 ^ 16
      owner := n.sqPi &&& 64 = 0
      tpn := n.boundTpn.toNat % 2 ^ 24
      rmtObjId := n.peerJettyId.toNat % 2 ^ 20
      rmtEid := n.peerEid
      payload },
    { n with sqPi := n.sqPi + 1 })

/-- What the nodes have done. -/
inductive RdmaEvent
  | sentInfo (i : RdmaRole)
  | imported (i : RdmaRole) (info : RdmaPeerInfo)
  | bound (i : RdmaRole)
  | postedRecv (i : RdmaRole)
  | postedSend (i : RdmaRole) (sqe : RdmaSqe)
deriving DecidableEq

structure RdmaDemo where
  node : RdmaRole → RdmaNode
  net : Net RdmaAddr (List UInt8)
  log : List RdmaEvent

namespace RdmaDemo

def set (s : RdmaDemo) (i : RdmaRole) (n : RdmaNode) : RdmaDemo :=
  { s with node := Function.update s.node i n }

def goto (s : RdmaDemo) (i : RdmaRole) (pc : RdmaDemoPc) : RdmaDemo :=
  s.set i { s.node i with pc := pc }

def push (s : RdmaDemo) (e : RdmaEvent) : RdmaDemo := { s with log := s.log ++ [e] }

def send (s : RdmaDemo) (src dst : RdmaAddr) (m : List UInt8) : RdmaDemo :=
  { s with net := s.net.post ⟨src, dst, m⟩ }

/-- One call of `recvfrom` that gets a datagram, if there is one. -/
def recv (s : RdmaDemo) (i : RdmaAddr) (next : RdmaAddr → List UInt8 → RdmaDemo → RdmaDemo) :
    RdmaDemo :=
  match s.net.socket i with
  | [] => s
  | (src, m) :: rest => next src m { s with net := s.net.take i rest }

/-- A new socket is bound to a port. -/
def openSocket (s : RdmaDemo) (i : RdmaAddr) : RdmaDemo := { s with net := s.net.reopen i }

/-- An iteration of `udp_recv_all`; what `expected` did not send is skipped. -/
def recvInfo (s : RdmaDemo) (i : RdmaRole) (got : List UInt8) (expected src : RdmaAddr)
    (m : List UInt8) : RdmaDemo :=
  if src ≠ expected then s
  else
    let got := got ++ m.take (RdmaPeerInfo.sizeBytes - got.length)
    if got.length < RdmaPeerInfo.sizeBytes then s.goto i (.infoRecv got)
    else s.set i { s.node i with
      pc := match i with
        | .initiator => .importJetty
        | .responder => .infoSend
      remote := .ofBytes got }

/-- The next step of a node.  `info` says how the jetties are addressed, and `tpn` what the driver
returns when a jetty is bound. -/
def runNode (info : RdmaRole → RdmaPeerInfo) (tpn : RdmaRole → UInt32) (s : RdmaDemo)
    (i : RdmaRole) : Option RdmaDemo :=
  let n := s.node i
  let sync : RdmaAddr := (.node i, .sync)
  let data : RdmaAddr := (.node i, .data)
  let peerData : RdmaAddr := (.node i.peer, .data)
  match n.pc with
  | .openSync => some <| (s.openSocket sync).goto i (match i with
    | .initiator => .syncReq
    | .responder => .syncRecv)
  | .syncReq => some <|
    (s.goto i .syncRecv).send sync (.node i.peer, .sync) (ascii "RDMA_SYNC_REQ")
  | .syncRecv => some <| match i with
    | .initiator => s.recv sync fun _ m s =>
      if isRdmaSync "RDMA_SYNC_ACK" m then s.goto i .openData else s
    | .responder => s.recv sync fun src m s =>
      if isRdmaSync "RDMA_SYNC_REQ" m then s.goto i (.syncAck src) else s
  | .syncAck src => some <| (s.goto i .openData).send sync src (ascii "RDMA_SYNC_ACK")
  | .openData => some <| (s.openSocket data).goto i (match i with
    | .initiator => .infoSend
    | .responder => .infoRecv [])
  | .infoSend => some <| ((s.goto i (match i with
    | .initiator => .infoRecv []
    | .responder => .importJetty)).push (.sentInfo i)).send data peerData (info i).bytes
  | .infoRecv got => some <| s.recv data fun src m s => s.recvInfo i got peerData src m
  | .importJetty => some <| (s.set i { n with
      pc := .bindJetty
      peerEid := n.remote.eid.toList.reverse
      peerJettyId := n.remote.jettyId }).push (.imported i n.remote)
  | .bindJetty => some <| (s.set i { n with pc := .postRecv, boundTpn := tpn i }).push (.bound i)
  | .postRecv => some <| (s.set i { n with
      rqPi := n.rqPi + 1
      pc := match i with
        | .initiator => .readySend
        | .responder => .readyRecv }).push (.postedRecv i)
  | .readySend => some <| match i with
    | .initiator => (s.goto i .readyRecv).send data peerData rdmaReadyMsg
    | .responder => (s.goto i .waitRecv).send data peerData rdmaAckMsg
  -- the source is not looked at here
  | .readyRecv => some <| match i with
    | .initiator => s.recv data fun _ m s =>
      s.goto i (if isMsg rdmaAckMsg m then .postSend else .returned 1)
    | .responder => s.recv data fun _ m s =>
      s.goto i (if isMsg rdmaReadyMsg m then .readySend else .returned 1)
  | .postSend =>
    match rdmaPostSendOne n (match i with
      | .initiator => rdmaReqMsg
      | .responder => rdmaReplyMsg) with
    | none => some (s.goto i (.returned 1))
    | some (_, sqe, n) => some <| (s.set i { n with pc := .waitSend }).push (.postedSend i sqe)
  | .waitSend | .waitRecv => none
  | .unbindJetty => some (s.goto i .unimportJetty)
  | .unimportJetty => some (s.goto i (.returned 0))
  | .returned _ => none

/-- A wait for a completion returns; `rx` is what the receive buffer holds then. -/
def complete (s : RdmaDemo) (i : RdmaRole) (rx : List UInt8) : Option RdmaDemo :=
  match (s.node i).pc, i with
  | .waitSend, .initiator => some (s.goto i .waitRecv)
  | .waitSend, .responder => some (s.goto i .unbindJetty)
  | .waitRecv, .initiator => some <|
    s.goto i (if cString rx = cString rdmaReplyMsg then .unbindJetty else .returned 1)
  | .waitRecv, .responder => some <|
    s.goto i (if cString rx = cString rdmaReqMsg then .postSend else .returned 1)
  | _, _ => none

end RdmaDemo

/-- The node gives up when the call that it is at fails or times out. -/
def RdmaDemoPc.fails : RdmaDemoPc → Bool
  | .postRecv | .postSend | .returned _ => false
  | _ => true

inductive RdmaDemoAction
  | node (i : RdmaRole)
  | complete (i : RdmaRole) (rx : List UInt8)
  | fail (i : RdmaRole)
  /-- A third host sends a datagram. -/
  | stray (port : RdmaPort) (dst : RdmaAddr) (m : List UInt8)
  | net (a : NetAction)
deriving DecidableEq

namespace RdmaDemo

def act (info : RdmaRole → RdmaPeerInfo) (tpn : RdmaRole → UInt32) (s : RdmaDemo) :
    RdmaDemoAction → Option RdmaDemo
  | .node i => s.runNode info tpn i
  | .complete i rx => s.complete i rx
  | .fail i => if (s.node i).pc.fails then some (s.goto i (.returned 1)) else none
  | .stray port dst m => some (s.send (.other, port) dst m)
  | .net a => (s.net.act a).map fun net => { s with net := net }

/-- Both nodes before step 8, and nothing on the network. -/
def start : RdmaDemo := { node := fun _ => .start, net := .empty, log := [] }

end RdmaDemo

end LinquUb
