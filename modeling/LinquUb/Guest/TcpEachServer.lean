import LinquUb.Guest.RpcMessage
import LinquUb.LTS.ByteStream
import LinquUb.LTS.Run
import Mathlib.Logic.Function.Basic

/-!
# The TCP demo in which every node is a server

`ub_tcp_each_server_demo.c` from `role_messages` on.  A node forks a child that serves one connection:
it reads a line, compares it with the greeting of the other role and answers with an acknowledgment.
The parent connects to its peer, greets it, waits for the acknowledgment and then for its child.

* `roleMessages`, `sendLine`, `recvLineNext` : what is said, and the calls that send and read a line;
* `TcpClientPc`, `TcpServerPc` : where the parent and the child of a node are;
* `TcpEachServer.act` : one call of a node that returns, one that fails, or a step of another host.

`TcpEvent` is what a node prints.  A call that fails, and every deadline, is `fail`.
-/

namespace LinquUb

/-! ### Lines -/

/-- What `role_messages` sets. -/
structure TcpMessages where
  clientMsg : CString
  expectedServerMsg : CString
  serverAck : CString
  expectedClientAck : CString
deriving DecidableEq

def roleMessages (role : String) : Option TcpMessages :=
  if role = "nodeA" then some
    { clientMsg := ascii "tcp hello from nodeA client"
      expectedServerMsg := ascii "tcp hello from nodeB client"
      serverAck := ascii "tcp ack from nodeA server"
      expectedClientAck := ascii "tcp ack from nodeB server" }
  else if role = "nodeB" then some
    { clientMsg := ascii "tcp hello from nodeB client"
      expectedServerMsg := ascii "tcp hello from nodeA client"
      serverAck := ascii "tcp ack from nodeB server"
      expectedClientAck := ascii "tcp ack from nodeA server" }
  else none

/-- `sizeof(buf)` and `sizeof(recv_buf)`. -/
def tcpLineCap : ℕ := 256

/-- What `send_line` hands to `send_all`, if it fits the buffer. -/
def sendLine (line : CString) : Option (List UInt8) :=
  if tcpLineCap ≤ (line ++ [10]).length then none else some (line ++ [10])

/-- The loop of `recv_line` after a call of `recv`. -/
inductive RecvLine
  | more (buf : List UInt8)
  | line (buf : List UInt8)
  | failed
deriving DecidableEq

def recvLineNext (bufLen : ℕ) (buf : List UInt8) : ReadResult UInt8 → RecvLine
  | .item ch =>
    if ch = 10 then .line buf
    else if (buf ++ [ch]).length + 1 < bufLen then .more (buf ++ [ch])
    -- the buffer is full
    else .line (buf ++ [ch])
  | .eof => if buf = [] then .failed else .line buf

/-! ### State -/

structure TcpConn (ι : Type) where
  /-- `none` if another host has connected. -/
  client : Option ι
  server : ι
  accepted : Bool
  /-- What the client writes and the server reads. -/
  up : ByteStream UInt8
  down : ByteStream UInt8
deriving DecidableEq

/-- Where `main` is; `c` is the number of its connection. -/
inductive TcpClientPc
  | setup
  | connecting
  | sending (c : ℕ) (buf : List UInt8) (off : ℕ)
  | receiving (c : ℕ) (buf : List UInt8)
  | waiting
  | returned (rc : ℕ)
deriving DecidableEq

/-- Where `run_server_child` is. -/
inductive TcpServerPc
  | absent
  | accepting
  | receiving (c : ℕ) (buf : List UInt8)
  | sending (c : ℕ) (buf : List UInt8) (off : ℕ)
  | exited (status : ℕ)
  | killed
deriving DecidableEq

/-- The child has the listener. -/
def TcpServerPc.listens : TcpServerPc → Bool
  | .accepting | .receiving .. | .sending .. => true
  | .absent | .exited _ | .killed => false

structure TcpNode where
  client : TcpClientPc
  server : TcpServerPc
deriving DecidableEq

inductive TcpEvent (ι : Type)
  | clientSent (i : ι) (c : ℕ)
  | serverReceived (i : ι) (c : ℕ)
  | serverAck (i : ι) (c : ℕ)
  | clientReceivedAck (i : ι) (c : ℕ)
  | pass (i : ι)
deriving DecidableEq

structure TcpEachServer (ι : Type) where
  node : ι → TcpNode
  /-- Every connection that there ever was. -/
  conns : List (TcpConn ι)
  log : List (TcpEvent ι)

inductive TcpAction (ι : Type)
  /-- Up to the `fork`. -/
  | start (i : ι)
  | connect (i : ι)
  /-- The connection is made after the client has closed its socket. -/
  | abandon (i : ι)
  /-- A call of `send` takes `n` bytes. -/
  | clientSend (i : ι) (n : ℕ)
  | clientRecv (i : ι)
  | wait (i : ι)
  | accept (i : ι) (c : ℕ)
  | serverRecv (i : ι)
  | serverSend (i : ι) (n : ℕ)
  | clientFail (i : ι)
  | clientKilled (i : ι)
  | serverFail (i : ι)
  | strayConnect (i : ι)
  | strayWrite (c : ℕ) (chunk : List UInt8)
  | strayClose (c : ℕ)
deriving DecidableEq

namespace TcpEachServer

variable {ι : Type}

def print (s : TcpEachServer ι) (e : TcpEvent ι) : TcpEachServer ι := { s with log := s.log ++ [e] }

def modifyConn (s : TcpEachServer ι) (c : ℕ) (f : TcpConn ι → TcpConn ι) : TcpEachServer ι :=
  { s with conns := s.conns.modify c f }

def addConn (s : TcpEachServer ι) (client : Option ι) (server : ι) : TcpEachServer ι :=
  { s with conns := s.conns ++ [{ client, server, accepted := false, up := .empty, down := .empty }] }

def closeUp (s : TcpEachServer ι) (c : ℕ) : TcpEachServer ι :=
  s.modifyConn c fun conn => { conn with up := conn.up.close }

def closeDown (s : TcpEachServer ι) (c : ℕ) : TcpEachServer ι :=
  s.modifyConn c fun conn => { conn with down := conn.down.close }

variable [DecidableEq ι]

def setClient (s : TcpEachServer ι) (i : ι) (pc : TcpClientPc) : TcpEachServer ι :=
  { s with node := Function.update s.node i { s.node i with client := pc } }

def setServer (s : TcpEachServer ι) (i : ι) (pc : TcpServerPc) : TcpEachServer ι :=
  { s with node := Function.update s.node i { s.node i with server := pc } }

/-! ### The child -/

def serverExit (s : TcpEachServer ι) (i : ι) (c status : ℕ) : TcpEachServer ι :=
  (s.closeDown c).setServer i (.exited status)

def serverFail (s : TcpEachServer ι) (i : ι) : Option (TcpEachServer ι) :=
  match (s.node i).server with
  | .accepting => some (s.setServer i (.exited 1))
  | .receiving c _ | .sending c _ _ => some (s.serverExit i c 1)
  | .absent | .exited _ | .killed => none

/-- `wait_for_accept` returns a connection. -/
def accept (s : TcpEachServer ι) (i : ι) (c : ℕ) : Option (TcpEachServer ι) :=
  match (s.node i).server with
  | .accepting => s.conns[c]?.bind fun conn =>
    if conn.server = i ∧ conn.accepted = false then
      some ((s.modifyConn c fun conn => { conn with accepted := true }).setServer i (.receiving c []))
    else none
  | _ => none

/-- A line was read. -/
def serverLine (m : TcpMessages) (s : TcpEachServer ι) (i : ι) (c : ℕ) (line : List UInt8) :
    TcpEachServer ι :=
  if cString line = m.expectedServerMsg then
    match sendLine m.serverAck with
    | none => (s.print (.serverReceived i c)).serverExit i c 1
    | some buf => (s.print (.serverReceived i c)).setServer i (.sending c buf 0)
  else s.serverExit i c 1

def serverRecv (m : TcpMessages) (s : TcpEachServer ι) (i : ι) : Option (TcpEachServer ι) :=
  match (s.node i).server with
  | .receiving c buf => s.conns[c]?.bind fun conn => conn.up.read.map fun (r, up) =>
    let s := s.modifyConn c fun conn => { conn with up := up }
    match recvLineNext tcpLineCap buf r with
    | .more buf => s.setServer i (.receiving c buf)
    | .line line => s.serverLine m i c line
    | .failed => s.serverExit i c 1
  | _ => none

def serverSend (s : TcpEachServer ι) (i : ι) (n : ℕ) : Option (TcpEachServer ι) :=
  match (s.node i).server with
  | .sending c buf off =>
    if 0 < n ∧ off + n ≤ buf.length then
      let s := s.modifyConn c fun conn =>
        { conn with down := conn.down.write ((buf.drop off).take n) }
      some (if off + n < buf.length then s.setServer i (.sending c buf (off + n))
        else (s.print (.serverAck i c)).serverExit i c 0)
    else none
  | _ => none

/-! ### The parent -/

def cleanupChild (s : TcpEachServer ι) (i : ι) : TcpEachServer ι :=
  match (s.node i).server with
  | .accepting => s.setServer i .killed
  | .receiving c _ | .sending c _ _ => (s.closeDown c).setServer i .killed
  | .absent | .exited _ | .killed => s

/-- `main` gives up after it has connected. -/
def giveUp (s : TcpEachServer ι) (i : ι) (c : ℕ) : TcpEachServer ι :=
  ((s.closeUp c).cleanupChild i).setClient i (.returned 1)

def clientFail (s : TcpEachServer ι) (i : ι) : Option (TcpEachServer ι) :=
  match (s.node i).client with
  | .setup | .waiting => some (s.setClient i (.returned 1))
  | .connecting => some ((s.cleanupChild i).setClient i (.returned 1))
  | .sending c _ _ | .receiving c _ => some (s.giveUp i c)
  | .returned _ => none

/-- `SIGPIPE` ends `main` in a call of `send`, and its child goes on. -/
def clientKilled (s : TcpEachServer ι) (i : ι) : Option (TcpEachServer ι) :=
  match (s.node i).client with
  | .sending c _ _ => some ((s.closeUp c).setClient i (.returned 141))
  | _ => none

def startNode (role : String) (s : TcpEachServer ι) (i : ι) : Option (TcpEachServer ι) :=
  match (s.node i).client with
  | .setup =>
    if (roleMessages role).isSome then some ((s.setServer i .accepting).setClient i .connecting)
    else some (s.setClient i (.returned 1))
  | _ => none

def connect (m : TcpMessages) (peer : ι) (s : TcpEachServer ι) (i : ι) : Option (TcpEachServer ι) :=
  match (s.node i).client with
  | .connecting =>
    if (s.node peer).server.listens then
      let c := s.conns.length
      let s := s.addConn (some i) peer
      match sendLine m.clientMsg with
      | none => some (s.giveUp i c)
      | some buf => some (s.setClient i (.sending c buf 0))
    else none
  | _ => none

def abandon (peer : ι) (s : TcpEachServer ι) (i : ι) : Option (TcpEachServer ι) :=
  match (s.node i).client with
  | .connecting =>
    if (s.node peer).server.listens then some ((s.addConn (some i) peer).closeUp s.conns.length)
    else none
  | _ => none

def clientSend (s : TcpEachServer ι) (i : ι) (n : ℕ) : Option (TcpEachServer ι) :=
  match (s.node i).client with
  | .sending c buf off =>
    if 0 < n ∧ off + n ≤ buf.length then
      let s := s.modifyConn c fun conn => { conn with up := conn.up.write ((buf.drop off).take n) }
      some (if off + n < buf.length then s.setClient i (.sending c buf (off + n))
        else (s.print (.clientSent i c)).setClient i (.receiving c []))
    else none
  | _ => none

/-- A line was read. -/
def clientLine (m : TcpMessages) (s : TcpEachServer ι) (i : ι) (c : ℕ) (line : List UInt8) :
    TcpEachServer ι :=
  if cString line = m.expectedClientAck then
    ((s.print (.clientReceivedAck i c)).closeUp c).setClient i .waiting
  else s.giveUp i c

def clientRecv (m : TcpMessages) (s : TcpEachServer ι) (i : ι) : Option (TcpEachServer ι) :=
  match (s.node i).client with
  | .receiving c buf => s.conns[c]?.bind fun conn => conn.down.read.map fun (r, down) =>
    let s := s.modifyConn c fun conn => { conn with down := down }
    match recvLineNext tcpLineCap buf r with
    | .more buf => s.setClient i (.receiving c buf)
    | .line line => s.clientLine m i c line
    | .failed => s.giveUp i c
  | _ => none

/-- `waitpid` and the rest of `main`. -/
def wait (s : TcpEachServer ι) (i : ι) : Option (TcpEachServer ι) :=
  match (s.node i).client, (s.node i).server with
  | .waiting, .exited status =>
    if status = 0 then some ((s.print (.pass i)).setClient i (.returned 0))
    else some (s.setClient i (.returned 1))
  | .waiting, .killed => some (s.setClient i (.returned 1))
  | _, _ => none

/-! ### The system -/

/-- The other host of the connection does something. -/
def stray (s : TcpEachServer ι) (c : ℕ) (f : TcpConn ι → TcpConn ι) : Option (TcpEachServer ι) :=
  s.conns[c]?.bind fun conn => if conn.client = none then some (s.modifyConn c f) else none

/-- `peer i` is the node at the address that node `i` connects to. -/
def act (role : ι → String) (peer : ι → ι) (s : TcpEachServer ι) :
    TcpAction ι → Option (TcpEachServer ι)
  | .start i => s.startNode (role i) i
  | .connect i => (roleMessages (role i)).bind fun m => s.connect m (peer i) i
  | .abandon i => s.abandon (peer i) i
  | .clientSend i n => s.clientSend i n
  | .clientRecv i => (roleMessages (role i)).bind fun m => s.clientRecv m i
  | .wait i => s.wait i
  | .accept i c => s.accept i c
  | .serverRecv i => (roleMessages (role i)).bind fun m => s.serverRecv m i
  | .serverSend i n => s.serverSend i n
  | .clientFail i => s.clientFail i
  | .clientKilled i => s.clientKilled i
  | .serverFail i => s.serverFail i
  | .strayConnect i => if (s.node i).server.listens then some (s.addConn none i) else none
  | .strayWrite c chunk => s.stray c fun conn => { conn with up := conn.up.write chunk }
  | .strayClose c => s.stray c fun conn => { conn with up := conn.up.close }

def initial : TcpEachServer ι :=
  { node := fun _ => { client := .setup, server := .absent }, conns := [], log := [] }

end TcpEachServer

end LinquUb
