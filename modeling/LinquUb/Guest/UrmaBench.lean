import LinquUb.Guest.UrmaProbe
import LinquUb.LTS.Run
import Mathlib.Data.Finset.Card

/-!
# The bench of the URMA data plane

`run_bench_phase` of `urma_dp.c`: a node sends numbered packets and counts those that it receives,
until the other node says how many it has sent.

* `tryRecvPeer` : the next payload, from the UDP socket or else from the raw socket;
* `benchConsumeRx` : what is made of it;
* `Bench.step` : an iteration of a loop, or the arrival of a packet on a socket;
* `Bench.report` : the figures at the end;
* `Bench.run_counts_distinct` : **no more packets are counted than have arrived, in a run that
  consumes each packet of the other node's run once and nothing else**.

The packets of an iteration are read in one step.  What arrives meanwhile arrives before or after
it, as each socket has a step of its own for every arrival.  The copy of a payload that lies in its
buffer already is taken as it is meant.
-/

namespace LinquUb

/-! ### Messages -/

/-- `%31[^:]` -/
def scanField (p : CString) : Option (CString × CString) :=
  let field := (p.takeWhile (· ≠ 58)).take 31
  if field = [] then none else some (field, p.drop field.length)

/-- `%u`: a number that is too large is the largest `unsigned long`. -/
def scanUnsigned (p : CString) : Option UInt32 :=
  let (negative, p) := takeSign (p.dropWhile isSpace)
  let digits := p.takeWhile isDigit
  let magnitude := digits.foldl (fun n d => 10 * n + (d.toNat - 48)) 0
  if digits = [] then none
  else if magnitude ≥ 2 ^ 64 then some (.ofNat (2 ^ 64 - 1))
  else some (if negative then .ofNat (2 ^ 64 - magnitude) else .ofNat magnitude)

structure BenchMsg where
  role : CString
  nonce : CString
  kind : CString
  value : UInt32
deriving DecidableEq, Repr

/-- `sscanf(payload, "urma-dp:%31[^:]:%31[^:]:%31[^:]:%u", ..)` -/
def parseBench (payload : CString) : Option BenchMsg := do
  let p := cString payload
  if p.take probePrefix.length ≠ probePrefix then none
  else
    let (role, p) ← scanField (p.drop probePrefix.length)
    let (nonce, p) ← scanField (← skipColon p)
    let (kind, p) ← scanField (← skipColon p)
    let value ← scanUnsigned (← skipColon p)
    return { role, nonce, kind, value }

/-! ### Receiving -/

/-- What the functions read of the command line and of the options. -/
structure BenchSetup where
  ifindex : UInt32
  role : CString
  benchPkts : UInt32
  benchMinRxPps : UInt32
  benchMaxLossPpm : UInt32

/-- A packet on the UDP socket, with the interface that `IP_PKTINFO` names. -/
structure UdpPacket where
  rxIfindex : UInt32
  bytes : List UInt8
deriving DecidableEq, Repr

def dpPort : ℕ := 18555

/-- The size of the buffer `rx`. -/
def rxSize : ℕ := 256

/-- The UDP payload in a frame on the raw socket. -/
def rawProbe (frame : List UInt8) : Option (List UInt8) :=
  let buf := frame.take 2048
  let byte (i : ℕ) : ℕ := (buf.getD i 0).toNat
  let ihl := byte 0 % 16
  let udpOff := ihl * 4
  if buf.length < 20 then none
  else if byte 0 / 16 ≠ 4 ∨ ihl < 5 ∨ byte 9 ≠ 17 then none
  else if buf.length < udpOff + 8 then none
  else if byte (udpOff + 2) * 256 + byte (udpOff + 3) ≠ dpPort then none
  else some (buf.drop (udpOff + 8))

/-- The payload that `consume_probe_payload` leaves in the buffer. -/
def consumedPayload (setup : BenchSetup) (pkt : List UInt8) (rxIfindex : UInt32) :
    Option CString :=
  (acceptProbe pkt rxIfindex setup.ifindex setup.role).map fun off =>
    (pkt.drop off).take (rxSize - 1)

def udpPayload (setup : BenchSetup) (packet : UdpPacket) : Option CString :=
  consumedPayload setup (packet.bytes.take (rxSize - 1)) packet.rxIfindex

def rawPayload (setup : BenchSetup) (frame : List UInt8) : Option CString := do
  let pkt ← rawProbe frame
  consumedPayload setup pkt setup.ifindex

/-- The loop over the packets of a socket. -/
def drainSocket {α : Type} (payloadOf : α → Option CString) :
    ℕ → List α → Option CString × List α
  | 0, queue => (none, queue)
  | _, [] => (none, [])
  | n + 1, packet :: queue =>
    match payloadOf packet with
    | some payload => (some payload, queue)
    | none => drainSocket payloadOf n queue

inductive BenchPhase
  | sending (i : UInt32)
  | waiting
  /-- The summary has been printed. -/
  | over
  /-- A socket has failed. -/
  | failed
deriving DecidableEq, Repr

/-- The local variables of `run_bench_phase`, and the packets that wait on the sockets. -/
structure Bench where
  phase : BenchPhase
  txOk : UInt32
  rxOk : UInt32
  peerTx : UInt32
  peerDone : Bool
  udp : List UdpPacket
  raw : List (List UInt8)
  /-- The messages that have arrived so far. -/
  arrived : List BenchMsg
  /-- The messages that have been counted. -/
  counted : List BenchMsg

namespace Bench

variable (setup : BenchSetup)

/-- Nothing is done if there is nothing to send. -/
def start : Bench :=
  { phase := if setup.benchPkts = 0 then .over else .sending 0
    txOk := 0, rxOk := 0, peerTx := 0, peerDone := false
    udp := [], raw := [], arrived := [], counted := [] }

/-- Both sockets, as far as their loops go. -/
def tryRecvPeer (s : Bench) : Option CString × Bench :=
  match drainSocket (udpPayload setup) 64 s.udp with
  | (some payload, udp) => (some payload, { s with udp })
  | (none, udp) =>
    let (payload, raw) := drainSocket (rawPayload setup) 64 s.raw
    (payload, { s with udp, raw })

/-- What the code makes of a message. -/
def benchConsumeMsg (msg : BenchMsg) (s : Bench) : Bench :=
  if msg.kind = ascii "bench" then
    { s with rxOk := s.rxOk + 1, counted := s.counted ++ [msg] }
  else if msg.kind = ascii "done" then { s with peerDone := true, peerTx := msg.value }
  else s

def benchConsumeRx (payload : CString) (s : Bench) : Bench :=
  match parseBench payload with
  | none => s
  | some msg => benchConsumeMsg msg s

/-- Receive and consume, with whether there was a payload. -/
def receive (s : Bench) : Bool × Bench :=
  match tryRecvPeer setup s with
  | (some payload, s) => (true, benchConsumeRx payload s)
  | (none, s) => (false, s)

end Bench

/-! ### Steps -/

inductive BenchAction
  /-- A packet arrives on the UDP socket. -/
  | arriveUdp (packet : UdpPacket)
  /-- A frame arrives on the raw socket. -/
  | arriveRaw (frame : List UInt8)
  /-- The body of the first loop, and whether `sendto` accepts the packet. -/
  | send (sent : Bool)
  /-- The first loop ends, early if the alarm has fired. -/
  | endSending (alarm : Bool)
  /-- The body of the second loop. -/
  | wait
  /-- The deadline passes or the alarm fires. -/
  | endWaiting
  /-- A socket fails in one of the loops. -/
  | fail
deriving DecidableEq, Repr

namespace Bench

variable (setup : BenchSetup)

/-- The message of a payload. -/
def messageOf (payload : Option CString) : List BenchMsg :=
  (payload.bind parseBench).toList

def step (s : Bench) : BenchAction → Option Bench
  | .arriveUdp packet =>
    some { s with
      udp := s.udp ++ [packet], arrived := s.arrived ++ messageOf (udpPayload setup packet) }
  | .arriveRaw frame =>
    some { s with
      raw := s.raw ++ [frame], arrived := s.arrived ++ messageOf (rawPayload setup frame) }
  | .send sent =>
    match s.phase with
    | .sending i =>
      if i < setup.benchPkts then
        let s := { s with txOk := if sent then s.txOk + 1 else s.txOk }
        some { (receive setup s).2 with phase := .sending (i + 1) }
      else none
    | _ => none
  | .endSending alarm =>
    match s.phase with
    | .sending i =>
      if alarm = true ∨ ¬ i < setup.benchPkts then some { s with phase := .waiting } else none
    | _ => none
  | .wait =>
    match s.phase with
    | .waiting =>
      let (got, s) := receive setup s
      some { s with phase := if got && s.peerDone then .over else .waiting }
    | _ => none
  | .endWaiting =>
    match s.phase with
    | .waiting => some { s with phase := .over }
    | _ => none
  | .fail =>
    match s.phase with
    | .sending _ | .waiting => some { s with phase := .failed }
    | _ => none

end Bench

/-! ### The summary -/

structure BenchReport where
  lossPkts : UInt32
  lossPpm : UInt32
  txPps : UInt32
  rxPps : UInt32
deriving DecidableEq, Repr

def lossPkts (peerTx rxOk : UInt32) : UInt32 := if peerTx > rxOk then peerTx - rxOk else 0

def lossPpm (peerTx rxOk : UInt32) : UInt32 :=
  if peerTx = 0 then 0
  else .ofNat ((lossPkts peerTx rxOk).toNat * 1000000 / peerTx.toNat)

/-- A window that is not positive is one millisecond. -/
def packetsPerSecond (pkts : UInt32) (windowMs : ℤ) : UInt32 :=
  .ofNat (pkts.toNat * 1000 / (if windowMs ≤ 0 then 1 else windowMs).toNat)

/-- If the other node has not said how many packets it has sent, it is taken to have sent as many as
this one should have. -/
def Bench.report (setup : BenchSetup) (s : Bench) (txWindowMs rxWindowMs : ℤ) : BenchReport :=
  let peerTx := if s.peerDone then s.peerTx else setup.benchPkts
  { lossPkts := lossPkts peerTx s.rxOk
    lossPpm := lossPpm peerTx s.rxOk
    txPps := packetsPerSecond s.txOk txWindowMs
    rxPps := packetsPerSecond s.rxOk rxWindowMs }

/-- Whether `run_bench_phase` returns 0. -/
def BenchReport.passes (setup : BenchSetup) (report : BenchReport) : Bool :=
  ¬ report.rxPps < setup.benchMinRxPps ∧ ¬ report.lossPpm > setup.benchMaxLossPpm

/-! ### The run of the other node -/

/-- The run of the other node, and how many packets it has sent in it. -/
structure PeerRun where
  role : CString
  nonce : CString
  sent : UInt32

namespace PeerRun

variable (peer : PeerRun)

/-- The message is a packet of the run. -/
def IsBench (msg : BenchMsg) : Prop :=
  msg.role = peer.role ∧ msg.nonce = peer.nonce ∧ msg.kind = ascii "bench"

instance (msg : BenchMsg) : Decidable (peer.IsBench msg) := inferInstanceAs (Decidable (_ ∧ _ ∧ _))

/-- The message says how many packets have been sent in the run. -/
def IsDone (msg : BenchMsg) : Prop :=
  msg.role = peer.role ∧ msg.nonce = peer.nonce ∧ msg.kind = ascii "done" ∧ msg.value = peer.sent

instance (msg : BenchMsg) : Decidable (peer.IsDone msg) :=
  inferInstanceAs (Decidable (_ ∧ _ ∧ _ ∧ _))

/-- How many different packets of the run have arrived. -/
def distinct (arrived : List BenchMsg) : ℕ :=
  (arrived.filter fun msg => peer.IsBench msg).toFinset.card

/-- The packets that were lost, in parts per million of those that were sent. -/
def trueLossPpm (arrived : List BenchMsg) : ℕ :=
  if peer.sent = 0 then 0 else (peer.sent.toNat - peer.distinct arrived) * 1000000 / peer.sent.toNat

end PeerRun

/-! ### Runs -/

namespace Bench

variable {setup : BenchSetup} {peer : PeerRun} {s s' : Bench} {action : BenchAction}

/-- The message that is consumed when the sockets are read. -/
def nextMessage (setup : BenchSetup) (s : Bench) : Option BenchMsg :=
  ((drainSocket (udpPayload setup) 64 s.udp).1.or (drainSocket (rawPayload setup) 64 s.raw).1).bind
    parseBench

/-- A bench message is a packet of the other node's run that has not been counted yet, and a done
message belongs to that run. -/
structure Expected (peer : PeerRun) (s : Bench) (msg : BenchMsg) : Prop where
  bench : msg.kind = ascii "bench" → peer.IsBench msg ∧ msg ∉ s.counted
  done : msg.kind = ascii "done" → peer.IsDone msg

/-- If the step reads the sockets, the message that it consumes is expected. -/
def ConsumesExpected (setup : BenchSetup) (peer : PeerRun) (s : Bench) : BenchAction → Prop
  | .send _ | .wait => ∀ msg ∈ nextMessage setup s, Expected peer s msg
  | _ => True

instance (msg : BenchMsg) : Decidable (Expected peer s msg) :=
  decidable_of_iff
    ((msg.kind = ascii "bench" → peer.IsBench msg ∧ msg ∉ s.counted) ∧
      (msg.kind = ascii "done" → peer.IsDone msg))
    ⟨fun h => ⟨h.1, h.2⟩, fun h => ⟨h.bench, h.done⟩⟩

instance : ∀ action, Decidable (ConsumesExpected setup peer s action)
  | .send _ | .wait => inferInstanceAs (Decidable (∀ msg ∈ nextMessage setup s, _))
  | .arriveUdp _ | .arriveRaw _ | .endSending _ | .endWaiting | .fail => .isTrue trivial

/-- What has been counted has arrived, each packet of the run once. -/
structure Inv (setup : BenchSetup) (peer : PeerRun) (s : Bench) : Prop where
  udp : ∀ packet ∈ s.udp, ∀ msg ∈ messageOf (udpPayload setup packet), msg ∈ s.arrived
  raw : ∀ frame ∈ s.raw, ∀ msg ∈ messageOf (rawPayload setup frame), msg ∈ s.arrived
  arrived : ∀ msg ∈ s.counted, msg ∈ s.arrived
  bench : ∀ msg ∈ s.counted, peer.IsBench msg
  nodup : s.counted.Nodup
  rxOk : s.rxOk.toNat ≤ s.counted.length
  done : s.peerDone = true → s.peerTx = peer.sent

theorem start_inv (setup : BenchSetup) (peer : PeerRun) : Inv setup peer (start setup) :=
  { udp := fun _ h => absurd h List.not_mem_nil
    raw := fun _ h => absurd h List.not_mem_nil
    arrived := fun _ h => absurd h List.not_mem_nil
    bench := fun _ h => absurd h List.not_mem_nil
    nodup := List.nodup_nil
    rxOk := Nat.le_refl 0
    done := fun h => absurd h Bool.false_ne_true }

/-- What a socket yields was on it, and what stays on it was. -/
theorem drainSocket_spec {α : Type} (payloadOf : α → Option CString) (n : ℕ) (queue : List α) :
    (∀ payload ∈ (drainSocket payloadOf n queue).1, ∃ packet ∈ queue,
      payloadOf packet = some payload) ∧
    (drainSocket payloadOf n queue).2 ⊆ queue := by
  induction n generalizing queue with
  | zero => exact ⟨fun _ h => (Option.some_ne_none _ h.symm).elim, List.Subset.refl _⟩
  | succ n ih =>
    cases queue with
    | nil => exact ⟨fun _ h => (Option.some_ne_none _ h.symm).elim, List.Subset.refl _⟩
    | cons packet queue =>
      unfold drainSocket
      cases hpayload : payloadOf packet with
      | some payload =>
        refine ⟨fun p hp => ⟨packet, List.mem_cons_self, ?_⟩, List.subset_cons_self _ _⟩
        rw [← Option.some.inj hp, hpayload]
      | none =>
        obtain ⟨hyields, hstays⟩ := ih queue
        refine ⟨fun p hp => ?_, List.Subset.trans hstays (List.subset_cons_self _ _)⟩
        obtain ⟨packet', hin, hp⟩ := hyields p hp
        exact ⟨packet', List.mem_cons_of_mem _ hin, hp⟩

theorem mem_messageOf {payload : CString} {msg : BenchMsg} (h : parseBench payload = some msg) :
    msg ∈ messageOf (some payload) := by
  rw [messageOf, Option.bind_some, h]
  exact List.mem_singleton_self msg

theorem tryRecvPeer_fst (setup : BenchSetup) (s : Bench) :
    (tryRecvPeer setup s).1.bind parseBench = nextMessage setup s := by
  unfold nextMessage tryRecvPeer
  rcases drainSocket (udpPayload setup) 64 s.udp with ⟨_ | payload, udp⟩ <;> rfl

/-- Reading the sockets changes only them, and what it yields has arrived. -/
theorem tryRecvPeer_spec (hi : Inv setup peer s) :
    Inv setup peer (tryRecvPeer setup s).2 ∧
      (∀ msg, nextMessage setup s = some msg → msg ∈ s.arrived) ∧
      (tryRecvPeer setup s).2.counted = s.counted ∧
      (tryRecvPeer setup s).2.arrived = s.arrived := by
  have hudp := drainSocket_spec (udpPayload setup) 64 s.udp
  have hraw := drainSocket_spec (rawPayload setup) 64 s.raw
  unfold nextMessage tryRecvPeer
  rcases hdrain : drainSocket (udpPayload setup) 64 s.udp with ⟨_ | payload, udp⟩
  · rw [hdrain] at hudp
    refine ⟨?_, fun msg hmsg => ?_, rfl, rfl⟩
    · exact { hi with
        udp := fun packet hin => hi.udp packet (hudp.2 hin)
        raw := fun frame hin => hi.raw frame (hraw.2 hin) }
    · obtain ⟨payload, hpayload, hparse⟩ := Option.bind_eq_some_iff.1 hmsg
      obtain ⟨frame, hin, hframe⟩ := hraw.1 payload hpayload
      exact hi.raw frame hin msg (hframe ▸ mem_messageOf hparse)
  · rw [hdrain] at hudp
    refine ⟨?_, fun msg hmsg => ?_, rfl, rfl⟩
    · exact { hi with udp := fun packet hin => hi.udp packet (hudp.2 hin) }
    · obtain ⟨packet, hin, hpacket⟩ := hudp.1 payload rfl
      exact hi.udp packet hin msg (hpacket ▸ mem_messageOf hmsg)

/-- A packet that is expected is counted like no other. -/
theorem benchConsumeMsg_inv {msg : BenchMsg} (hi : Inv setup peer s) (harrived : msg ∈ s.arrived)
    (hexpected : Expected peer s msg) : Inv setup peer (benchConsumeMsg msg s) := by
  unfold benchConsumeMsg
  split_ifs with hbench hdone
  · obtain ⟨hpeer, hfresh⟩ := hexpected.bench hbench
    refine { hi with arrived := ?_, bench := ?_, nodup := ?_, rxOk := ?_ }
    · intro m hm
      rcases List.mem_append.1 hm with hm | hm
      · exact hi.arrived m hm
      · rwa [List.mem_singleton.1 hm]
    · intro m hm
      rcases List.mem_append.1 hm with hm | hm
      · exact hi.bench m hm
      · rwa [List.mem_singleton.1 hm]
    · exact List.nodup_append.2 ⟨hi.nodup, List.nodup_singleton msg, fun a ha b hb =>
        List.mem_singleton.1 hb ▸ fun heq => hfresh (heq ▸ ha)⟩
    · have hrx := hi.rxOk
      rw [List.length_append, List.length_singleton, UInt32.toNat_add]
      exact (Nat.mod_le _ _).trans (Nat.add_le_add_right hrx 1)
  · exact { hi with done := fun _ => (hexpected.done hdone).2.2.2 }
  · exact hi

theorem receive_inv (hi : Inv setup peer s)
    (hnext : ∀ msg, nextMessage setup s = some msg → Expected peer s msg) :
    Inv setup peer (receive setup s).2 := by
  obtain ⟨hrecv, hfrom, hcounted, harrived⟩ := tryRecvPeer_spec hi
  rw [← tryRecvPeer_fst] at hnext hfrom
  unfold receive
  rcases htry : tryRecvPeer setup s with ⟨_ | payload, r⟩
  · rw [htry] at hrecv
    exact hrecv
  · rw [htry] at hrecv hnext hfrom hcounted harrived
    dsimp only at hcounted harrived ⊢
    unfold benchConsumeRx
    cases hparse : parseBench payload with
    | none => exact hrecv
    | some msg =>
      have hexpected := hnext msg hparse
      refine benchConsumeMsg_inv hrecv (harrived ▸ hfrom msg hparse) ⟨?_, hexpected.done⟩
      rw [hcounted]
      exact hexpected.bench

/-- What arrives joins the messages that have arrived. -/
theorem arrive_inv {msgs : List BenchMsg} (hi : Inv setup peer s) {udp : List UdpPacket}
    {raw : List (List UInt8)}
    (hudp : ∀ packet ∈ udp, packet ∈ s.udp ∨ ∀ msg ∈ messageOf (udpPayload setup packet),
      msg ∈ msgs)
    (hraw : ∀ frame ∈ raw, frame ∈ s.raw ∨ ∀ msg ∈ messageOf (rawPayload setup frame),
      msg ∈ msgs) :
    Inv setup peer { s with udp, raw, arrived := s.arrived ++ msgs } := by
  refine { hi with
    udp := fun packet hin msg hmsg => ?_
    raw := fun frame hin msg hmsg => ?_
    arrived := fun msg hmsg => List.mem_append_left msgs (hi.arrived msg hmsg) }
  · rcases hudp packet hin with hold | hnew
    · exact List.mem_append_left msgs (hi.udp packet hold msg hmsg)
    · exact List.mem_append_right s.arrived (hnew msg hmsg)
  · rcases hraw frame hin with hold | hnew
    · exact List.mem_append_left msgs (hi.raw frame hold msg hmsg)
    · exact List.mem_append_right s.arrived (hnew msg hmsg)

theorem step_inv (hi : Inv setup peer s) (h : step setup s action = some s')
    (hexpected : ConsumesExpected setup peer s action) : Inv setup peer s' := by
  cases action with
  | arriveUdp packet =>
    cases h
    refine arrive_inv hi (fun p hp => ?_) fun _ hin => .inl hin
    rcases List.mem_append.1 hp with hp | hp
    · exact .inl hp
    · exact .inr fun msg hmsg => List.mem_singleton.1 hp ▸ hmsg
  | arriveRaw frame =>
    cases h
    refine arrive_inv hi (fun _ hin => .inl hin) fun f hf => ?_
    rcases List.mem_append.1 hf with hf | hf
    · exact .inl hf
    · exact .inr fun msg hmsg => List.mem_singleton.1 hf ▸ hmsg
  | send sent =>
    simp only [step] at h
    split at h
    · obtain ⟨-, h⟩ := Option.ite_none_right_eq_some.1 h
      cases h
      have hstart : Inv setup peer { s with txOk := if sent then s.txOk + 1 else s.txOk } :=
        { hi with }
      have hreceived := receive_inv hstart fun msg hmsg =>
        ⟨(hexpected msg hmsg).bench, (hexpected msg hmsg).done⟩
      exact { hreceived with }
    · cases h
  | endSending alarm =>
    simp only [step] at h
    split at h
    · split_ifs at h
      cases h
      exact { hi with }
    · cases h
  | wait =>
    simp only [step] at h
    split at h
    · cases h
      have hreceived := receive_inv hi hexpected
      exact { hreceived with }
    · cases h
  | endWaiting =>
    simp only [step] at h
    split at h
    · cases h
      exact { hi with }
    · cases h
  | fail =>
    cases hphase : s.phase <;> simp only [step, hphase] at h <;> cases h
    all_goals exact { hi with }

/-- No more is counted than has arrived. -/
theorem Inv.rxOk_le (hi : Inv setup peer s) : s.rxOk.toNat ≤ peer.distinct s.arrived := by
  refine hi.rxOk.trans ?_
  rw [← List.toFinset_card_of_nodup hi.nodup]
  refine Finset.card_le_card fun msg hmsg => ?_
  rw [List.mem_toFinset] at hmsg ⊢
  exact List.mem_filter.2 ⟨hi.arrived msg hmsg, decide_eq_true (hi.bench msg hmsg)⟩

theorem toNat_lossPkts (peerTx rxOk : UInt32) :
    (lossPkts peerTx rxOk).toNat = peerTx.toNat - rxOk.toNat := by
  unfold lossPkts
  split_ifs with hgt
  · exact UInt32.toNat_sub_of_le _ _ (UInt32.le_of_lt hgt)
  · rw [Nat.sub_eq_zero_of_le]
    · rfl
    · exact UInt32.le_iff_toNat_le.1 (UInt32.not_lt.1 hgt)

/-- Whoever counts too few reports too large a loss. -/
theorem le_lossPpm {sent rxOk : UInt32} {distinct : ℕ} (hrx : rxOk.toNat ≤ distinct) :
    (if sent = 0 then 0 else (sent.toNat - distinct) * 1000000 / sent.toNat) ≤
      (lossPpm sent rxOk).toNat := by
  unfold lossPpm
  split_ifs with hzero
  · exact Nat.zero_le _
  · have hpos : 0 < sent.toNat := by
      rw [Nat.pos_iff_ne_zero]
      exact fun h => hzero (UInt32.toNat_inj.1 h)
    have hsmall : (lossPkts sent rxOk).toNat * 1000000 / sent.toNat ≤ 1000000 := by
      refine Nat.div_le_of_le_mul (Nat.mul_le_mul_right _ ?_)
      rw [toNat_lossPkts]
      exact Nat.sub_le _ _
    rw [UInt32.toNat_ofNat_of_lt' (by rw [UInt32.size]; omega), toNat_lossPkts]
    exact Nat.div_le_div_right (Nat.mul_le_mul_right _ (Nat.sub_le_sub_left hrx _))

/-- **Counting.**  In a run that consumes only packets of the other node's run, and each of them
once, no more packets are counted than have arrived, and no loss is missing in the report. -/
theorem run_counts_distinct (setup : BenchSetup) (peer : PeerRun) (actions : List BenchAction)
    (s : Bench) (hrun : LTS.run (step setup) (start setup) actions = some s)
    (hexpected : LTS.EveryStep (step setup)
      (fun s action _ => ConsumesExpected setup peer s action) (start setup) actions) :
    s.rxOk.toNat ≤ peer.distinct s.arrived ∧
    (s.peerDone = true → ∀ txWindowMs rxWindowMs,
      peer.trueLossPpm s.arrived ≤ (s.report setup txWindowMs rxWindowMs).lossPpm.toNat) := by
  have hi : Inv setup peer s := hexpected.invariant
    (fun s action s' hi hstep hexpected => step_inv hi hstep hexpected) (start_inv setup peer) hrun
  refine ⟨hi.rxOk_le, fun hdone txWindowMs rxWindowMs => ?_⟩
  simp only [report, hdone, if_true, hi.done hdone]
  exact le_lossPpm hi.rxOk_le

/-! ### Examples of runs -/

/-- `nodeA` with two packets to send. -/
def nodeA : BenchSetup :=
  { ifindex := 2, role := ascii "nodeA", benchPkts := 2, benchMinRxPps := 0,
    benchMaxLossPpm := 1000000 }

/-- `nodeB` has sent two packets. -/
def nodeB : PeerRun := { role := ascii "nodeB", nonce := ascii "00001f2e", sent := 2 }

def udpOf (text : String) : BenchAction := .arriveUdp { rxIfindex := 2, bytes := ascii text }

/-- The text as a frame of 58 bytes. -/
def rawOf (text : String) : BenchAction :=
  .arriveRaw ([0x45, 0, 0, 58, 0, 0, 0, 0, 64, 17, 0, 0, 10, 0, 0, 2, 10, 0, 0, 1,
    0x48, 0x7b, 0x48, 0x7b, 0, 38, 0, 0] ++ ascii text)

/-- The second packet of `nodeB` is lost. -/
def oneLost : List BenchAction :=
  [udpOf "urma-dp:nodeB:00001f2e:bench:0", .send true, .send true, .endSending false,
    udpOf "urma-dp:nodeB:00001f2e:done:2", .wait]

/-- So is it here, but the first one is seen on both sockets. -/
def oneLostOneTwice : List BenchAction :=
  [udpOf "urma-dp:nodeB:00001f2e:bench:0", .send true, rawOf "urma-dp:nodeB:00001f2e:bench:0",
    .send true, .endSending false, udpOf "urma-dp:nodeB:00001f2e:done:2", .wait]

theorem run_counts_distinct_oneLost : ∃ s, LTS.run (step nodeA) (start nodeA) oneLost = some s ∧
    s.rxOk.toNat ≤ nodeB.distinct s.arrived ∧
    (s.peerDone = true → ∀ txWindowMs rxWindowMs,
      nodeB.trueLossPpm s.arrived ≤ (s.report nodeA txWindowMs rxWindowMs).lossPpm.toNat) := by
  have hsome : (LTS.run (step nodeA) (start nodeA) oneLost).isSome = true := by decide +kernel
  obtain ⟨s, hrun⟩ := Option.isSome_iff_exists.1 hsome
  exact ⟨s, hrun, run_counts_distinct nodeA nodeB oneLost s hrun (by decide +kernel)⟩

/-- The packet that is seen twice makes up for the one that is lost. -/
theorem oneLostOneTwice_noLoss :
    ∃ s, LTS.run (step nodeA) (start nodeA) oneLostOneTwice = some s ∧ s.peerDone = true ∧
      s.rxOk = 2 ∧ nodeB.distinct s.arrived = 1 ∧ (s.report nodeA 1 1).lossPpm = 0 ∧
      nodeB.trueLossPpm s.arrived = 500000 := by
  have hrun : (LTS.run (step nodeA) (start nodeA) oneLostOneTwice).any (fun s =>
      s.peerDone && s.rxOk == 2 && nodeB.distinct s.arrived == 1 &&
        (s.report nodeA 1 1).lossPpm == 0 && nodeB.trueLossPpm s.arrived == 500000) = true := by
    decide +kernel
  obtain ⟨s, hs, hfacts⟩ := (Option.any_eq_true _ _).1 hrun
  simp only [Bool.and_eq_true, beq_iff_eq] at hfacts
  obtain ⟨⟨⟨⟨hdone, hrx⟩, hdistinct⟩, hloss⟩, htrue⟩ := hfacts
  exact ⟨s, hs, hdone, hrx, hdistinct, hloss, htrue⟩

end Bench

end LinquUb
