import LinquUb.Guest.RpcMessage
import LinquUb.LTS.Datagrams

/-!
# The two nodes of the chat demo

`ub_chat.c`: after a startup handshake the initiator sends a request and waits for its reply, in
`CHAT_ROUNDS` rounds.  The responder answers the requests, and both give up at the first message that
is not the expected one.

* `parseChat` : the parser of `CHAT:<role>:<text>:<seq>:<timestamp>`, which looks for the tag anywhere
  in a datagram;
* `ChatInitiator`, `ChatResponder` : where the nodes are, and the local variables of their loops;
* `Chat.runInitiator`, `Chat.runResponder` : the next step of a node;
* `Chat.act` : a step of a node, the alarm, a timeout, a call that fails, or a step of the network.
-/

namespace LinquUb

/-! ### Messages -/

def chatRounds : ℕ := 5

def chatReqText : CString := ascii "greeting from initiator"

def chatRspText : CString := ascii "copy, greeting back from responder"

/-- A role as the messages can carry it. -/
structure ChatRole where
  name : CString
  noNul : 0 ∉ name
  noColon : 58 ∉ name
  fits : name.length ≤ 31

/-- The roles that `normalize_role` knows. -/
def ChatRole.initiator : ChatRole :=
  { name := ascii "initiator", noNul := by decide, noColon := by decide, fits := by decide }

def ChatRole.responder : ChatRole :=
  { name := ascii "responder", noNul := by decide, noColon := by decide, fits := by decide }

/-- What a node sends from `tx[256]`. -/
def chatTx (role : ChatRole) (text : CString) (seq : Int32) (now : Int64) : CString :=
  snprintfStr 256 (ascii "CHAT:" ++ role.name ++ ascii ":" ++ text ++ ascii ":" ++
    decimal seq.toInt ++ ascii ":" ++ decimal now.toInt)

/-- `atol`: a number that no `long` holds becomes the nearest one. -/
def atol (p : CString) : ℤ :=
  let (negative, p) := takeSign (p.dropWhile isSpace)
  let magnitude : ℤ := (p.takeWhile isDigit).foldl (fun n d => 10 * n + (d.toNat - 48)) 0
  let value := if negative then -magnitude else magnitude
  max (-2 ^ 63) (min (2 ^ 63 - 1) value)

def atoi (p : CString) : Int32 := .ofInt (atol p)

/-- `strsep(&p, ":")`: the field, and what is behind its colon. -/
def strsep : Option CString → Option (CString × Option CString)
  | none => none
  | some p => some (p.takeWhile (· ≠ 58), match p.dropWhile (· ≠ 58) with
    | [] => none
    | _ :: p => some p)

def findChatPayloadStart : List UInt8 → Option (List UInt8)
  | [] => none
  | b :: buf =>
    if (ascii "CHAT:").isPrefixOf (b :: buf) then some (b :: buf) else findChatPayloadStart buf

/-- `peer_text`, `peer_seq` and `peer_ts_ms`. -/
structure ChatMsg where
  text : CString
  seq : Int32
  ts : ℤ
deriving DecidableEq, Repr

/-- The body of the loop of `wait_for_peer_chat`: what a datagram that is read into `buf[512]` says,
unless it is skipped. -/
def parseChat (localRole : CString) (m : List UInt8) : Option ChatMsg := do
  let saved := m.take 511
  guard ¬((ascii "SYNC_REQ").isPrefixOf saved ∨ (ascii "SYNC_ACK").isPrefixOf saved)
  let payload ← findChatPayloadStart saved
  let (tag, p) ← strsep (some (cString payload))
  guard (tag = ascii "CHAT")
  let (role, p) ← strsep p
  guard (snprintfStr 32 role ≠ localRole)
  let (text, p) ← strsep p
  let (seq, p) ← strsep p
  let (ts, _) ← strsep p
  return { text := snprintfStr 128 text, seq := atoi seq, ts := atol ts }

/-- A datagram of the handshake, which is read into `buf[64]`. -/
def isSync (text : String) (m : List UInt8) : Bool :=
  let buf := m.take 63
  (ascii text).isPrefixOf buf ∨ (10 ≤ buf.length ∧ (ascii text).isPrefixOf (buf.drop 2))

/-! ### Nodes -/

inductive ChatNode
  | initiator
  | responder
deriving DecidableEq, Repr

inductive ChatPort
  | sync
  | chat
deriving DecidableEq, Repr

abbrev ChatAddr := ChatNode × ChatPort

/-- The socket for the chat; a node may use the one of the handshake for both. -/
def chatFd (shared : Bool) (i : ChatNode) : ChatAddr := (i, if shared then .sync else .chat)

/-- Where `run_initiator` is. -/
inductive InitiatorPc
  | syncSend
  | syncRecv
  /-- At the head of the loop. -/
  | round (i : ℕ)
  /-- In `wait_for_peer_chat`. -/
  | chatRecv (i : ℕ)
  | summary
  | returned (rc : ℕ)
deriving DecidableEq, Repr

structure ChatInitiator where
  pc : InitiatorPc
  /-- `g_alarm_fired`. -/
  alarmFired : Bool
  txCount : ℕ
  rxCount : ℕ

/-- Where `run_responder` is. -/
inductive ResponderPc
  | syncRecv
  /-- At the head of the loop. -/
  | round
  /-- In `wait_for_peer_chat`. -/
  | chatRecv
  | chatSend (seq : Int32)
  | summary
  | returned (rc : ℕ)
deriving DecidableEq, Repr

structure ChatResponder where
  pc : ResponderPc
  alarmFired : Bool
  rounds : ℕ

/-- What the nodes have done in their rounds. -/
inductive ChatEvent
  /-- The initiator has sent a request. -/
  | request (seq : Int32)
  /-- The responder has accepted a request. -/
  | accept (seq : Int32)
  /-- The responder has sent its reply. -/
  | reply (seq : Int32)
deriving DecidableEq, Repr

structure Chat where
  initiator : ChatInitiator
  responder : ChatResponder
  net : Net ChatAddr (List UInt8)
  log : List ChatEvent

namespace Chat

def gotoInitiator (s : Chat) (pc : InitiatorPc) : Chat :=
  { s with initiator := { s.initiator with pc := pc } }

def gotoResponder (s : Chat) (pc : ResponderPc) : Chat :=
  { s with responder := { s.responder with pc := pc } }

def push (s : Chat) (e : ChatEvent) : Chat := { s with log := s.log ++ [e] }

def send (s : Chat) (src dst : ChatAddr) (m : List UInt8) : Chat :=
  { s with net := s.net.post ⟨src, dst, m⟩ }

/-- One attempt to read a datagram from a socket. -/
def recv (s : Chat) (i : ChatAddr) (next : ChatAddr → List UInt8 → Chat → Chat) (again : Chat) :
    Chat :=
  match s.net.socket i with
  | [] => again
  | (src, m) :: rest => next src m { s with net := s.net.take i rest }

/-- The initiator has received a message in round `i`. -/
def handleReply (s : Chat) (i : ℕ) (m : ChatMsg) : Chat :=
  if m.seq ≠ .ofNat i ∨ m.text ≠ chatRspText then s.gotoInitiator (.returned 1)
  else { s with initiator := { s.initiator with
    pc := .round (i + 1)
    rxCount := s.initiator.rxCount + 1 } }

/-- The responder has received a message. -/
def handleRequest (s : Chat) (m : ChatMsg) : Chat :=
  if m.seq ≠ .ofNat s.responder.rounds ∨ m.text ≠ chatReqText then s.gotoResponder (.returned 1)
  else (s.gotoResponder (.chatSend m.seq)).push (.accept m.seq)

/-- The next step of `run_initiator`. -/
def runInitiator (shared : Bool) (role : ChatRole) (now : Int64) (s : Chat) : Option Chat :=
  match s.initiator.pc with
  | .syncSend =>
    if s.initiator.alarmFired then some (s.gotoInitiator (.returned 1))
    else some ((s.gotoInitiator .syncRecv).send (.initiator, .sync) (.responder, .sync)
      (ascii "SYNC_REQ"))
  | .syncRecv => some <|
    s.recv (.initiator, .sync)
      (fun _ m s => s.gotoInitiator (if isSync "SYNC_ACK" m then .round 0 else .syncSend))
      (s.gotoInitiator .syncSend)
  | .round i =>
    if i < chatRounds ∧ s.initiator.alarmFired = false then
      some ({ s with initiator := { s.initiator with
          pc := .chatRecv i
          txCount := s.initiator.txCount + 1 } }
        |>.send (chatFd shared .initiator) (chatFd shared .responder)
          (chatTx role chatReqText (.ofNat i) now)
        |>.push (.request (.ofNat i)))
    else some (s.gotoInitiator .summary)
  | .chatRecv i =>
    if s.initiator.alarmFired then some (s.gotoInitiator (.returned 1))
    else some <| s.recv (chatFd shared .initiator)
      (fun _ m s => match parseChat role.name m with
        | none => s
        | some m => s.handleReply i m)
      s
  | .summary =>
    let failed := s.initiator.alarmFired = true ∨ s.initiator.txCount < chatRounds ∨
      s.initiator.rxCount < chatRounds
    some (s.gotoInitiator (.returned (if failed then 1 else 0)))
  | .returned _ => none

/-- The next step of `run_responder`. -/
def runResponder (shared : Bool) (role : ChatRole) (now : Int64) (s : Chat) : Option Chat :=
  match s.responder.pc with
  | .syncRecv =>
    if s.responder.alarmFired then some (s.gotoResponder (.returned 1))
    else some <| s.recv (.responder, .sync)
      (fun src m s =>
        if isSync "SYNC_REQ" m then
          (s.gotoResponder .round).send (.responder, .sync) src (ascii "SYNC_ACK")
        else s)
      s
  | .round =>
    if s.responder.rounds < chatRounds ∧ s.responder.alarmFired = false then
      some (s.gotoResponder .chatRecv)
    else some (s.gotoResponder .summary)
  | .chatRecv =>
    if s.responder.alarmFired then some (s.gotoResponder (.returned 1))
    else some <| s.recv (chatFd shared .responder)
      (fun _ m s => match parseChat role.name m with
        | none => s
        | some m => s.handleRequest m)
      s
  | .chatSend seq =>
    some ({ s with responder := { s.responder with
        pc := .round
        rounds := s.responder.rounds + 1 } }
      |>.send (chatFd shared .responder) (chatFd shared .initiator) (chatTx role chatRspText seq now)
      |>.push (.reply seq))
  | .summary =>
    let failed := s.responder.alarmFired = true ∨ s.responder.rounds < chatRounds
    some (s.gotoResponder (.returned (if failed then 1 else 0)))
  | .returned _ => none

end Chat

/-! ### Failures -/

/-- The loops that a deadline stops. -/
def InitiatorPc.waits : InitiatorPc → Bool
  | .syncSend | .chatRecv _ => true
  | _ => false

def ResponderPc.waits : ResponderPc → Bool
  | .syncRecv | .chatRecv => true
  | _ => false

/-- The node gives up when the call that it is at fails.  A failing call of the handshake has the
effect of a lost datagram. -/
def InitiatorPc.fails : InitiatorPc → Bool
  | .round i => i < chatRounds
  | .chatRecv _ => true
  | _ => false

def ResponderPc.fails : ResponderPc → Bool
  | .chatRecv | .chatSend _ => true
  | _ => false

inductive ChatAction
  /-- A step at the time `now`. -/
  | node (i : ChatNode) (now : Int64)
  | alarm (i : ChatNode)
  | timeout (i : ChatNode)
  | error (i : ChatNode)
  | net (a : NetAction)
deriving DecidableEq

namespace Chat

/-- The roles of the nodes are parameters. -/
def act (shared : Bool) (initiatorRole responderRole : ChatRole) (s : Chat) :
    ChatAction → Option Chat
  | .node .initiator now => s.runInitiator shared initiatorRole now
  | .node .responder now => s.runResponder shared responderRole now
  | .alarm .initiator => some { s with initiator := { s.initiator with alarmFired := true } }
  | .alarm .responder => some { s with responder := { s.responder with alarmFired := true } }
  | .timeout .initiator =>
    if s.initiator.pc.waits then some (s.gotoInitiator (.returned 1)) else none
  | .timeout .responder =>
    if s.responder.pc.waits then some (s.gotoResponder (.returned 1)) else none
  | .error .initiator =>
    if s.initiator.pc.fails then some (s.gotoInitiator (.returned 1)) else none
  | .error .responder =>
    if s.responder.pc.fails then some (s.gotoResponder (.returned 1)) else none
  | .net a => (s.net.act a).map fun net => { s with net := net }

/-- Both nodes at their start, and nothing on the network. -/
def start : Chat :=
  { initiator := { pc := .syncSend, alarmFired := false, txCount := 0, rxCount := 0 }
    responder := { pc := .syncRecv, alarmFired := false, rounds := 0 }
    net := .empty
    log := [] }

end Chat

end LinquUb
