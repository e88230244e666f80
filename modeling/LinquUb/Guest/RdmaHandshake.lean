import LinquUb.Guest.RdmaDemo
import LinquUb.LTS.History

/-!
# The handshake of the RDMA demo

* `RdmaPeerInfo.ofBytes_bytes` : a node reads the information that its peer sends;
* `RdmaDemo.Inv` : what the nodes know where they are, and what the datagrams say;
* `RdmaDemo.handshake_safe` : **a node imports the jetty of its peer, and addresses its send to it
  after the peer has posted its receive**, as long as no other host forges one of the two messages
  whose source is not looked at.

The network may lose, duplicate, delay and reorder the datagrams, any call may fail, and other hosts
may send whatever else they like.
-/

namespace LinquUb

/-! ### What a message says -/

namespace RdmaPeerInfo

theorem bytes_length (info : RdmaPeerInfo) : info.bytes.length = sizeBytes := by
  have hlength : info.eid.toList.length = 16 := info.eid.toList_length
  simp [bytes, sizeBytes, hlength]

theorem ofBytes_bytes (info : RdmaPeerInfo) : ofBytes info.bytes = info := by
  obtain ⟨eid, jettyId, token⟩ := info
  have hword : ∀ v : UInt32, UInt32.ofNat (Wire.ofLeBytes (Wire.leBytes 4 v.toNat)) = v := by
    intro v
    have hlt := v.toNat_lt
    rw [Wire.ofLeBytes_leBytes, Nat.mod_eq_of_lt (by omega), UInt32.ofNat_toNat]
  have hlength : eid.toList.length = 16 := eid.toList_length
  have hjetty : ((eid.toList ++ Wire.leBytes 4 jettyId.toNat ++ Wire.leBytes 4 token.toNat).drop
      16).take 4 = Wire.leBytes 4 jettyId.toNat := by
    rw [List.append_assoc, List.drop_left' hlength, List.take_left' (by simp)]
  have htoken : ((eid.toList ++ Wire.leBytes 4 jettyId.toNat ++ Wire.leBytes 4 token.toNat).drop
      20).take 4 = Wire.leBytes 4 token.toNat := by
    rw [List.drop_left' (by simp [hlength]), List.take_of_length_le (by simp)]
  have heid : (List.Vector.ofFn fun k : Fin ubcoreEidSize =>
      (eid.toList ++ Wire.leBytes 4 jettyId.toNat ++ Wire.leBytes 4 token.toNat).getD k 0) = eid := by
    refine List.Vector.ext fun k => ?_
    have hk : (k : ℕ) < eid.toList.length := hlength ▸ k.isLt
    rw [List.Vector.get_ofFn, List.append_assoc, List.getD_eq_getElem?_getD,
      List.getElem?_append_left hk, List.getElem?_eq_getElem hk, Option.getD_some,
      List.Vector.get_eq_get_toList]
    rfl
  simp only [ofBytes, bytes, heid, hjetty, htoken, hword]

/-- The information is no message of another length. -/
theorem isMsg_bytes (info : RdmaPeerInfo) {msg : List UInt8} (hmsg : msg.length ≠ sizeBytes) :
    isMsg msg info.bytes = false := by
  refine decide_eq_false fun heq => hmsg ?_
  rw [← heq, List.take_of_length_le (by rw [bytes_length]; decide), bytes_length]

end RdmaPeerInfo

/-- The event is something that the node has done. -/
def RdmaEvent.role : RdmaEvent → RdmaRole
  | .sentInfo i | .imported i _ | .bound i | .postedRecv i | .postedSend i _ => i

/-- Another host sends one of the messages whose source is not looked at. -/
def RdmaDemoAction.Forges : RdmaDemoAction → Prop
  | .stray _ _ m => isMsg rdmaReadyMsg m = true ∨ isMsg rdmaAckMsg m = true
  | _ => False

instance : (a : RdmaDemoAction) → Decidable a.Forges
  | .stray _ _ m => inferInstanceAs (Decidable (isMsg rdmaReadyMsg m = true ∨ isMsg rdmaAckMsg m = true))
  | .node _ | .complete .. | .fail _ | .net _ => isFalse id

namespace RdmaDemo

variable {info : RdmaRole → RdmaPeerInfo} {tpn : RdmaRole → UInt32} {log log' : List RdmaEvent}
  {i : RdmaRole} {n : RdmaNode} {s s' : RdmaDemo} {src : RdmaAddr} {m : List UInt8} {e : RdmaEvent}

/-- The node has bound its jetty and posted its receive. -/
def Prepared (log : List RdmaEvent) (i : RdmaRole) : Prop := .bound i ∈ log ∧ .postedRecv i ∈ log

/-- What may be on the network. -/
inductive Says (info : RdmaRole → RdmaPeerInfo) (log : List RdmaEvent) :
    Datagram RdmaAddr (List UInt8) → Prop
  | sync {src dst : RdmaAddr} (m : List UInt8) (hsrc : src.2 = .sync)
    (hdst : dst.1 = .other ∨ dst.2 = .sync) : Says info log ⟨src, dst, m⟩
  | stray {src : RdmaAddr} (dst : RdmaAddr) {m : List UInt8} (hsrc : src.1 = .other)
    (hready : isMsg rdmaReadyMsg m = false) (hack : isMsg rdmaAckMsg m = false) :
    Says info log ⟨src, dst, m⟩
  | info (i : RdmaRole) (hsent : .sentInfo i ∈ log) :
    Says info log ⟨(.node i, .data), (.node i.peer, .data), (info i).bytes⟩
  | ready (hsent : .sentInfo .responder ∈ log) (hprepared : Prepared log .initiator) :
    Says info log ⟨(.node .initiator, .data), (.node .responder, .data), rdmaReadyMsg⟩
  | ack (hposted : .postedRecv .initiator ∈ log) (hprepared : Prepared log .responder) :
    Says info log ⟨(.node .responder, .data), (.node .initiator, .data), rdmaAckMsg⟩

theorem Prepared.snoc (h : Prepared log i) : Prepared (log ++ [e]) i :=
  h.imp (List.mem_append_left _) (List.mem_append_left _)

theorem Says.snoc {d : Datagram RdmaAddr (List UInt8)} (h : Says info log d) :
    Says info (log ++ [e]) d := by
  cases h with
  | sync m hsrc hdst => exact .sync m hsrc hdst
  | stray dst hsrc hready hack => exact .stray dst hsrc hready hack
  | info i hsent => exact .info i (List.mem_append_left _ hsent)
  | ready hsent hprepared => exact .ready (List.mem_append_left _ hsent) hprepared.snoc
  | ack hposted hprepared => exact .ack (List.mem_append_left _ hposted) hprepared.snoc

/-- What is read from the peer before anything else: its information. -/
theorem Says.info_inv (h : Says info log ⟨(.node i.peer, .data), (.node i, .data), m⟩)
    (hsent : i = .responder → .sentInfo i ∉ log) (hposted : .postedRecv i ∉ log) :
    m = (info i.peer).bytes ∧ .sentInfo i.peer ∈ log := by
  generalize hsrc : ((RdmaHost.node i.peer, RdmaPort.data) : RdmaAddr) = src at h
  generalize hdst : ((RdmaHost.node i, RdmaPort.data) : RdmaAddr) = dst at h
  cases h with
  | sync m hport hother =>
    subst hsrc
    cases hport
  | stray dst hhost hready hack =>
    subst hsrc
    cases hhost
  | info j hj =>
    obtain rfl : i.peer = j := by injection hsrc with hnode; injection hnode
    exact ⟨rfl, hj⟩
  | ready hsentInfo hprepared =>
    obtain rfl : i = .responder := by injection hdst with hnode; injection hnode
    exact absurd hsentInfo (hsent rfl)
  | ack hpostedRecv hprepared =>
    obtain rfl : i = .initiator := by injection hdst with hnode; injection hnode
    exact absurd hpostedRecv hposted

theorem Says.ready_inv (h : Says info log ⟨src, (.node .responder, .data), m⟩)
    (hm : isMsg rdmaReadyMsg m = true) : Prepared log .initiator := by
  generalize hdst : ((RdmaHost.node .responder, RdmaPort.data) : RdmaAddr) = dst at h
  cases h with
  | sync m hport hother =>
    subst hdst
    rcases hother with hother | hother <;> cases hother
  | stray dst hhost hready hack =>
    rw [hm] at hready
    cases hready
  | info j hj =>
    rw [RdmaPeerInfo.isMsg_bytes _ (by decide)] at hm
    cases hm
  | ready hsentInfo hprepared => exact hprepared
  | ack hpostedRecv hprepared => exact absurd hm (by decide)

theorem Says.ack_inv (h : Says info log ⟨src, (.node .initiator, .data), m⟩)
    (hm : isMsg rdmaAckMsg m = true) : Prepared log .responder := by
  generalize hdst : ((RdmaHost.node .initiator, RdmaPort.data) : RdmaAddr) = dst at h
  cases h with
  | sync m hport hother =>
    subst hdst
    rcases hother with hother | hother <;> cases hother
  | stray dst hhost hready hack =>
    rw [hm] at hack
    cases hack
  | info j hj =>
    rw [RdmaPeerInfo.isMsg_bytes _ (by decide)] at hm
    cases hm
  | ready hsentInfo hprepared => exact absurd hm (by decide)
  | ack hpostedRecv hprepared => exact hprepared

/-- A node is asked to synchronise by another host, or from a port of the synchronisation. -/
theorem Says.sync_inv (h : Says info log ⟨src, (.node i, .sync), m⟩) :
    src.1 = .other ∨ src.2 = .sync := by
  generalize hdst : ((RdmaHost.node i, RdmaPort.sync) : RdmaAddr) = dst at h
  cases h with
  | sync m hport hother => exact .inr hport
  | stray dst hhost hready hack => exact .inl hhost
  | _ => cases hdst

/-- Where the send goes. -/
theorem rdmaPostSendOne_eq {payload : List UInt8} {slot : UInt32} {sqe : RdmaSqe} {n' : RdmaNode}
    (h : rdmaPostSendOne n payload = some (slot, sqe, n')) :
    n' = { n with sqPi := n.sqPi + 1 } ∧ sqe.rmtEid = n.peerEid ∧
      sqe.rmtObjId = n.peerJettyId.toNat % 2 ^ 20 := by
  unfold rdmaPostSendOne at h
  split_ifs at h
  cases h
  exact ⟨rfl, rfl, rfl⟩

/-! ### What a node knows -/

/-- How far a node is. -/
def rank (i : RdmaRole) : RdmaDemoPc → ℕ
  | .openSync => 0
  | .syncReq => 1
  | .syncRecv => 2
  | .syncAck _ => 3
  | .openData => 4
  | .infoSend => if i = .initiator then 5 else 7
  | .infoRecv _ => 6
  | .importJetty => 8
  | .bindJetty => 9
  | .postRecv => 10
  | .readySend => if i = .initiator then 11 else 13
  | .readyRecv => 12
  | .postSend | .waitSend | .waitRecv => 14
  | .unbindJetty | .unimportJetty => 15
  | .returned _ => 16

/-- The node has come as far as `k` and goes on. -/
def At (i : RdmaRole) (pc : RdmaDemoPc) (k : ℕ) : Prop := k ≤ rank i pc ∧ rank i pc < 16

structure Knows (info : RdmaRole → RdmaPeerInfo) (log : List RdmaEvent) (i : RdmaRole)
    (n : RdmaNode) : Prop where
  /-- Only whole datagrams come from the peer. -/
  got : ∀ got, n.pc = .infoRecv got → got = []
  syncAck : ∀ src, n.pc = .syncAck src → src.1 = .other ∨ src.2 = .sync
  remote : At i n.pc 7 → n.remote = info i.peer ∧ .sentInfo i.peer ∈ log
  imported : At i n.pc 9 →
    n.peerEid = (info i.peer).eid.toList.reverse ∧ n.peerJettyId = (info i.peer).jettyId
  bound : At i n.pc 10 → .bound i ∈ log
  posted : At i n.pc 11 → .postedRecv i ∈ log
  peer : At i n.pc 13 → Prepared log i.peer
  sentInfo : .sentInfo i ∈ log → rank i .infoSend < rank i n.pc
  postedRecv : .postedRecv i ∈ log → 10 < rank i n.pc

/-- The other node has done something. -/
theorem Knows.snoc (h : Knows info log i n) (he : e.role ≠ i) : Knows info (log ++ [e]) i n where
  got := h.got
  syncAck := h.syncAck
  remote hat := (h.remote hat).imp id (List.mem_append_left _)
  imported := h.imported
  bound hat := List.mem_append_left _ (h.bound hat)
  posted hat := List.mem_append_left _ (h.posted hat)
  peer hat := (h.peer hat).snoc
  sentInfo hmem := by
    rcases List.mem_append.1 hmem with hmem | hmem
    · exact h.sentInfo hmem
    · exact absurd (List.mem_singleton.1 hmem ▸ rfl) he
  postedRecv hmem := by
    rcases List.mem_append.1 hmem with hmem | hmem
    · exact h.postedRecv hmem
    · exact absurd (List.mem_singleton.1 hmem ▸ rfl) he

/-- Between the two places a node learns nothing that counts. -/
structure Next (i : RdmaRole) (pc pc' : RdmaDemoPc) : Prop where
  rank : rank i pc ≤ rank i pc' ∧ RdmaDemo.rank i pc < 16
  same : ∀ k ∈ [7, 9, 10, 11, 13], k ≤ RdmaDemo.rank i pc' → k ≤ RdmaDemo.rank i pc
  got : ∀ got, pc' = .infoRecv got → got = []
  syncAck : ∀ src, pc' = .syncAck src → src.1 = .other ∨ src.2 = .sync

theorem Knows.next (h : Knows info log i n) {pc : RdmaDemoPc} (hnext : Next i n.pc pc) :
    Knows info log i { n with pc := pc } where
  got := hnext.got
  syncAck := hnext.syncAck
  remote hat := h.remote ⟨hnext.same 7 (by simp) hat.1, hnext.rank.2⟩
  imported hat := h.imported ⟨hnext.same 9 (by simp) hat.1, hnext.rank.2⟩
  bound hat := h.bound ⟨hnext.same 10 (by simp) hat.1, hnext.rank.2⟩
  posted hat := h.posted ⟨hnext.same 11 (by simp) hat.1, hnext.rank.2⟩
  peer hat := h.peer ⟨hnext.same 13 (by simp) hat.1, hnext.rank.2⟩
  sentInfo hmem := (h.sentInfo hmem).trans_le hnext.rank.1
  postedRecv hmem := (h.postedRecv hmem).trans_le hnext.rank.1

/-- The node has done `e`, and may have passed some places where it must know more. -/
theorem Knows.does (h : Knows info log i n) {n' : RdmaNode} (hrun : rank i n.pc < 16)
    (hrank : rank i n.pc ≤ rank i n'.pc)
    (hgot : ∀ got, n'.pc = .infoRecv got → got = []) (hack : ∀ src, n'.pc ≠ .syncAck src)
    (hremote : n'.remote = n.remote ∧ (7 ≤ rank i n'.pc → 7 ≤ rank i n.pc))
    (himported : 9 ≤ rank i n'.pc →
      n'.peerEid = (info i.peer).eid.toList.reverse ∧ n'.peerJettyId = (info i.peer).jettyId)
    (hbound : 10 ≤ rank i n'.pc → 10 ≤ rank i n.pc ∨ e = .bound i)
    (hposted : 11 ≤ rank i n'.pc → 11 ≤ rank i n.pc ∨ e = .postedRecv i)
    (hpeer : 13 ≤ rank i n'.pc → 13 ≤ rank i n.pc)
    (hsent : e = .sentInfo i → rank i .infoSend < rank i n'.pc)
    (hrecv : e = .postedRecv i → 10 < rank i n'.pc) : Knows info (log ++ [e]) i n' where
  got := hgot
  syncAck src heq := absurd heq (hack src)
  remote hat := by
    obtain ⟨heq, hmem⟩ := h.remote ⟨hremote.2 hat.1, hrun⟩
    exact ⟨hremote.1.trans heq, List.mem_append_left _ hmem⟩
  imported hat := himported hat.1
  bound hat := by
    rcases hbound hat.1 with hle | rfl
    · exact List.mem_append_left _ (h.bound ⟨hle, hrun⟩)
    · exact List.mem_append_right _ (List.mem_singleton_self _)
  posted hat := by
    rcases hposted hat.1 with hle | rfl
    · exact List.mem_append_left _ (h.posted ⟨hle, hrun⟩)
    · exact List.mem_append_right _ (List.mem_singleton_self _)
  peer hat := (h.peer ⟨hpeer hat.1, hrun⟩).snoc
  sentInfo hmem := by
    rcases List.mem_append.1 hmem with hmem | hmem
    · exact (h.sentInfo hmem).trans_le hrank
    · exact hsent (List.mem_singleton.1 hmem).symm
  postedRecv hmem := by
    rcases List.mem_append.1 hmem with hmem | hmem
    · exact (h.postedRecv hmem).trans_le hrank
    · exact hrecv (List.mem_singleton.1 hmem).symm

/-- A node that has returned does not know anything. -/
theorem knows_returned (rc : ℕ) : Knows info log i { n with pc := .returned rc } where
  got _ heq := nomatch heq
  syncAck _ heq := nomatch heq
  remote hat := absurd hat.2 (Nat.lt_irrefl _)
  imported hat := absurd hat.2 (Nat.lt_irrefl _)
  bound hat := absurd hat.2 (Nat.lt_irrefl _)
  posted hat := absurd hat.2 (Nat.lt_irrefl _)
  peer hat := absurd hat.2 (Nat.lt_irrefl _)
  sentInfo _ := show rank i .infoSend < 16 by cases i <;> decide
  postedRecv _ := show 10 < 16 by decide

/-- What the history says about imports and sends. -/
structure Logged (info : RdmaRole → RdmaPeerInfo) (log : List RdmaEvent) : Prop where
  imported : ∀ i r, .imported i r ∈ log → r = info i.peer
  sent : ∀ i sqe, .postedSend i sqe ∈ log →
    sqe.rmtEid = (info i.peer).eid.toList.reverse ∧
      sqe.rmtObjId = (info i.peer).jettyId.toNat % 2 ^ 20
  order : ∀ i sqe, Before (.bound i.peer) (.postedSend i sqe) log ∧
    Before (.postedRecv i.peer) (.postedSend i sqe) log ∧
      Before (.bound i) (.postedSend i sqe) log

theorem Logged.snoc (h : Logged info log) (himported : ∀ i r, e = .imported i r → r = info i.peer)
    (hsent : ∀ i sqe, e = .postedSend i sqe → sqe.rmtEid = (info i.peer).eid.toList.reverse ∧
      sqe.rmtObjId = (info i.peer).jettyId.toNat % 2 ^ 20 ∧ Prepared log i.peer ∧ .bound i ∈ log) :
    Logged info (log ++ [e]) where
  imported i r hmem := by
    rcases List.mem_append.1 hmem with hmem | hmem
    · exact h.imported i r hmem
    · exact himported i r (List.mem_singleton.1 hmem).symm
  sent i sqe hmem := by
    rcases List.mem_append.1 hmem with hmem | hmem
    · exact h.sent i sqe hmem
    · obtain ⟨heid, hobj, -⟩ := hsent i sqe (List.mem_singleton.1 hmem).symm
      exact ⟨heid, hobj⟩
  order i sqe := by
    obtain ⟨hpeer, hrecv, hbound⟩ := h.order i sqe
    exact ⟨hpeer.snoc fun heq => (hsent i sqe heq).2.2.1.1,
      hrecv.snoc fun heq => (hsent i sqe heq).2.2.1.2,
      hbound.snoc fun heq => (hsent i sqe heq).2.2.2⟩

structure Inv (info : RdmaRole → RdmaPeerInfo) (s : RdmaDemo) : Prop where
  net : ∀ d, s.net.Carries d → Says info s.log d
  node : ∀ i, Knows info s.log i (s.node i)
  log : Logged info s.log

/-! ### Parts of a step -/

theorem Inv.set (h : s.Inv info) (hn : Knows info s.log i n) : (s.set i n).Inv info := by
  refine ⟨h.net, fun j => ?_, h.log⟩
  by_cases hj : j = i
  · subst hj
    simpa only [RdmaDemo.set, Function.update_self] using hn
  · simpa only [RdmaDemo.set, Function.update_of_ne hj] using h.node j

/-- The node has done `e`. -/
theorem Inv.does (h : s.Inv info) (he : e.role = i) (hn : Knows info (s.log ++ [e]) i n)
    (hlog : Logged info (s.log ++ [e])) : ((s.set i n).push e).Inv info := by
  refine ⟨fun d hd => (h.net d hd).snoc, fun j => ?_, hlog⟩
  by_cases hj : j = i
  · subst hj
    simpa only [RdmaDemo.set, RdmaDemo.push, Function.update_self] using hn
  · have hother : e.role ≠ j := fun heq => hj (heq.symm.trans he)
    simpa only [RdmaDemo.set, RdmaDemo.push, Function.update_of_ne hj] using (h.node j).snoc hother

theorem Inv.send (h : s.Inv info) {dst : RdmaAddr} (hm : Says info s.log ⟨src, dst, m⟩) :
    (s.send src dst m).Inv info := by
  refine ⟨fun d hd => ?_, h.node, h.log⟩
  rcases Net.carries_post.1 hd with hold | rfl
  · exact h.net d hold
  · exact hm

theorem Inv.openSocket (h : s.Inv info) (a : RdmaAddr) : (s.openSocket a).Inv info :=
  ⟨fun d hd => h.net d (Net.reopen_carries hd), h.node, h.log⟩

theorem Inv.recv (h : s.Inv info) {a : RdmaAddr} {next : RdmaAddr → List UInt8 → RdmaDemo → RdmaDemo}
    (hnext : ∀ src m net, Says info s.log ⟨src, a, m⟩ → ({ s with net := net } : RdmaDemo).Inv info →
      (next src m { s with net := net }).Inv info) : (s.recv a next).Inv info := by
  unfold RdmaDemo.recv
  split
  · exact h
  · rename_i src m rest hsocket
    exact hnext src m _ (h.net _ (Net.carries_head hsocket))
      ⟨fun d hd => h.net d (Net.take_carries hsocket hd), h.node, h.log⟩

theorem Inv.goto (h : s.Inv info) {pc : RdmaDemoPc} (hnext : Next i (s.node i).pc pc) :
    (s.goto i pc).Inv info :=
  h.set ((h.node i).next hnext)

/-- The node hears that its peer is prepared. -/
theorem Inv.hears (h : s.Inv info) {pc : RdmaDemoPc} (hpc : (s.node i).pc = .readyRecv)
    (hrank : 12 ≤ rank i pc) (hpeer : Prepared s.log i.peer)
    (hgot : ∀ got, pc ≠ .infoRecv got) (hack : ∀ src, pc ≠ .syncAck src) : (s.goto i pc).Inv info := by
  have hknows := h.node i
  have hat : ∀ k ≤ 12, At i (s.node i).pc k := by
    rw [hpc]
    exact fun k hk => ⟨hk, by simp [rank]⟩
  have hle : rank i (s.node i).pc ≤ rank i pc := by
    rw [hpc]
    exact hrank
  exact h.set {
    got := fun got heq => absurd heq (hgot got)
    syncAck := fun src heq => absurd heq (hack src)
    remote := fun _ => hknows.remote (hat 7 (by decide))
    imported := fun _ => hknows.imported (hat 9 (by decide))
    bound := fun _ => hknows.bound (hat 10 (by decide))
    posted := fun _ => hknows.posted (hat 11 (by decide))
    peer := fun _ => hpeer
    sentInfo := fun hmem => (hknows.sentInfo hmem).trans_le hle
    postedRecv := fun hmem => (hknows.postedRecv hmem).trans_le hle }

/-! ### The steps -/

/-- A datagram arrives while the node waits for the information of its peer. -/
theorem Inv.recvInfo (h : s.Inv info) {got : List UInt8} (hpc : (s.node i).pc = .infoRecv got)
    (hsaid : Says info s.log ⟨src, (.node i, .data), m⟩) :
    (s.recvInfo i got (.node i.peer, .data) src m).Inv info := by
  have hknows := h.node i
  have hrank : rank i (s.node i).pc = 6 := by rw [hpc]; rfl
  unfold RdmaDemo.recvInfo
  split_ifs with hsrc
  · exact h
  rw [not_not] at hsrc
  subst hsrc
  obtain rfl := hknows.got got hpc
  obtain ⟨rfl, hsent⟩ := hsaid.info_inv
    (fun hi hmem => by
      subst hi
      have hlt := hknows.sentInfo hmem
      rw [hrank] at hlt
      exact absurd hlt (by decide))
    (fun hmem => by
      have hlt := hknows.postedRecv hmem
      omega)
  have hbytes : [] ++ (info i.peer).bytes.take (RdmaPeerInfo.sizeBytes - ([] : List UInt8).length) =
      (info i.peer).bytes := by
    rw [List.nil_append, List.length_nil, Nat.sub_zero, List.take_of_length_le
      (RdmaPeerInfo.bytes_length _).le]
  dsimp only
  rw [hbytes, RdmaPeerInfo.bytes_length, if_neg (Nat.lt_irrefl _), RdmaPeerInfo.ofBytes_bytes]
  refine h.set ?_
  refine { got := ?_, syncAck := ?_, remote := fun _ => ⟨rfl, hsent⟩, imported := ?_, bound := ?_,
           posted := ?_, peer := ?_, sentInfo := ?_, postedRecv := ?_ }
  · cases i <;> simp
  · cases i <;> simp
  · cases i <;> simp [At, rank]
  · cases i <;> simp [At, rank]
  · cases i <;> simp [At, rank]
  · cases i <;> simp [At, rank]
  · intro hmem
    have hlt := hknows.sentInfo hmem
    rw [hrank] at hlt
    cases i
    · show rank .initiator .infoSend < rank .initiator .importJetty
      decide
    · exact absurd hlt (by decide)
  · intro hmem
    have hlt := hknows.postedRecv hmem
    omega

/-- Where a node is tells how far it has come. -/
theorem at_of_pc {pc : RdmaDemoPc} {k : ℕ} (hpc : (s.node i).pc = pc) (hk : k ≤ rank i pc)
    (hrun : rank i pc < 16) : At i (s.node i).pc k := by
  rw [hpc]
  exact ⟨hk, hrun⟩

theorem Inv.goesOn (h : s.Inv info) {pc pc' : RdmaDemoPc} (hpc : (s.node i).pc = pc)
    (hnext : Next i pc pc') : (s.goto i pc').Inv info := by
  subst hpc
  exact h.goto hnext

/-- A node that has opened its socket goes on. -/
theorem Inv.opens (h : s.Inv info) (a : RdmaAddr) {pc pc' : RdmaDemoPc}
    (hpc : (s.node i).pc = pc) (hnext : Next i pc pc') :
    ((s.openSocket a).goto i pc').Inv info :=
  (h.openSocket a).goesOn hpc hnext

theorem Inv.syncRecv (h : s.Inv info) (hpc : (s.node i).pc = .syncRecv) {pc : RdmaAddr → RdmaDemoPc}
    {text : String} (hnext : ∀ src, src.1 = .other ∨ src.2 = .sync → Next i .syncRecv (pc src)) :
    (s.recv (.node i, .sync) fun src m s =>
      if isRdmaSync text m then s.goto i (pc src) else s).Inv info := by
  refine h.recv fun src m net hsaid hread => ?_
  split_ifs
  · exact hread.goesOn hpc (hnext src hsaid.sync_inv)
  · exact hread

theorem Inv.infoSend (h : s.Inv info) (hpc : (s.node i).pc = .infoSend) {pc : RdmaDemoPc}
    (hnext : Next i .infoSend pc) (hack : ∀ src, pc ≠ .syncAck src)
    (hrank : rank i .infoSend < rank i pc) :
    (((s.goto i pc).push (.sentInfo i)).send (.node i, .data) (.node i.peer, .data)
      (info i).bytes).Inv info := by
  have hknows := h.node i
  rw [← hpc] at hnext
  have hat : ∀ k ∈ [7, 9, 10, 11, 13], k ≤ rank i pc → At i (s.node i).pc k := fun k hk hle =>
    ⟨hnext.same k hk hle, hnext.rank.2⟩
  refine Inv.send ?_ (.info i (List.mem_append_right _ (List.mem_singleton_self _)))
  refine h.does rfl ?_ (h.log.snoc (by simp) (by simp))
  exact hknows.does hnext.rank.2 hnext.rank.1 hnext.got hack ⟨rfl, hnext.same 7 (by simp)⟩
    (fun hle => hknows.imported (hat 9 (by simp) hle))
    (fun hle => .inl (hat 10 (by simp) hle).1) (fun hle => .inl (hat 11 (by simp) hle).1)
    (hnext.same 13 (by simp)) (fun _ => hrank) (by simp)

theorem Inv.importJetty (h : s.Inv info) (hpc : (s.node i).pc = .importJetty) :
    ((s.set i { s.node i with
      pc := .bindJetty
      peerEid := (s.node i).remote.eid.toList.reverse
      peerJettyId := (s.node i).remote.jettyId }).push (.imported i (s.node i).remote)).Inv info := by
  have hknows := h.node i
  have hremote := (hknows.remote (at_of_pc hpc (by simp [rank]) (by simp [rank]))).1
  refine h.does rfl ?_ (h.log.snoc (by simp [hremote]) (by simp))
  apply hknows.does <;> simp [hpc, rank, hremote]

theorem Inv.bindJetty (h : s.Inv info) (hpc : (s.node i).pc = .bindJetty) :
    ((s.set i { s.node i with pc := .postRecv, boundTpn := tpn i }).push (.bound i)).Inv info := by
  have hknows := h.node i
  have himported := hknows.imported (at_of_pc hpc (by simp [rank]) (by simp [rank]))
  refine h.does rfl ?_ (h.log.snoc (by simp) (by simp))
  apply hknows.does <;> simp [hpc, rank, himported]

theorem Inv.postRecv (h : s.Inv info) (hpc : (s.node i).pc = .postRecv) {pc : RdmaDemoPc}
    (hrank : rank i pc = 11 ∨ rank i pc = 12) (hgot : ∀ got, pc ≠ .infoRecv got)
    (hack : ∀ src, pc ≠ .syncAck src) :
    ((s.set i { s.node i with rqPi := (s.node i).rqPi + 1, pc := pc }).push (.postedRecv i)).Inv
      info := by
  have hknows := h.node i
  have himported := hknows.imported (at_of_pc hpc (by simp [rank]) (by simp [rank]))
  have hten : rank i (s.node i).pc = 10 := by rw [hpc]; rfl
  refine h.does rfl ?_ (h.log.snoc (by simp) (by simp))
  exact hknows.does (by omega) (by dsimp only; omega) (fun got heq => absurd heq (hgot got)) hack
    ⟨rfl, fun _ => by omega⟩ (fun _ => himported) (fun _ => .inl hten.ge) (fun _ => .inr rfl)
    (fun hle => by dsimp only at hle; omega) (by simp) (fun _ => by dsimp only; omega)

/-- The initiator sends READY once it is prepared. -/
theorem Inv.readySend_initiator (h : s.Inv info) (hpc : (s.node .initiator).pc = .readySend) :
    ((s.goto .initiator .readyRecv).send (.node .initiator, .data) (.node .responder, .data)
      rdmaReadyMsg).Inv info := by
  have hknows := h.node .initiator
  have hat : ∀ k ≤ 11, At .initiator (s.node .initiator).pc k := fun k hk =>
    at_of_pc hpc hk (by simp [rank])
  have hprepared : Prepared s.log .initiator :=
    ⟨hknows.bound (hat 10 (by decide)), hknows.posted (hat 11 (by decide))⟩
  refine (h.goesOn hpc ?_).send (.ready (hknows.remote (hat 7 (by decide))).2 hprepared)
  constructor <;> simp [rank]

/-- The responder acknowledges after it has heard READY. -/
theorem Inv.readySend_responder (h : s.Inv info) (hpc : (s.node .responder).pc = .readySend) :
    ((s.goto .responder .waitRecv).send (.node .responder, .data) (.node .initiator, .data)
      rdmaAckMsg).Inv info := by
  have hknows := h.node .responder
  have hat : ∀ k ≤ 13, At .responder (s.node .responder).pc k := fun k hk =>
    at_of_pc hpc hk (by simp [rank])
  have hprepared : Prepared s.log .responder :=
    ⟨hknows.bound (hat 10 (by decide)), hknows.posted (hat 11 (by decide))⟩
  refine (h.goesOn hpc ?_).send (.ack (hknows.peer (hat 13 (by decide))).2 hprepared)
  constructor <;> simp [rank]

theorem Inv.readyRecv (h : s.Inv info) (hpc : (s.node i).pc = .readyRecv) {msg : List UInt8}
    {pc : RdmaDemoPc} (hrank : 12 ≤ rank i pc) (hgot : ∀ got, pc ≠ .infoRecv got)
    (hack : ∀ src, pc ≠ .syncAck src)
    (hheard : ∀ src m, Says info s.log ⟨src, (.node i, .data), m⟩ → isMsg msg m = true →
      Prepared s.log i.peer) :
    (s.recv (.node i, .data) fun _ m s =>
      s.goto i (if isMsg msg m then pc else .returned 1)).Inv info := by
  refine h.recv fun src m net hsaid hread => ?_
  split_ifs with hm
  · exact hread.hears hpc hrank (hheard src m hsaid hm) hgot hack
  · exact hread.set (knows_returned 1)

/-- A node posts its send after its peer is prepared. -/
theorem Inv.postSend (h : s.Inv info) (hpc : (s.node i).pc = .postSend) {payload : List UInt8}
    {slot : UInt32} {sqe : RdmaSqe} {n : RdmaNode}
    (hpost : rdmaPostSendOne (s.node i) payload = some (slot, sqe, n)) :
    ((s.set i { n with pc := .waitSend }).push (.postedSend i sqe)).Inv info := by
  have hknows := h.node i
  have hat : ∀ k ≤ 14, At i (s.node i).pc k := fun k hk => at_of_pc hpc hk (by simp [rank])
  obtain ⟨heid, hobj⟩ := hknows.imported (hat 9 (by decide))
  obtain ⟨hn, hsqe⟩ := rdmaPostSendOne_eq hpost
  have hsent : sqe.rmtEid = (info i.peer).eid.toList.reverse ∧
      sqe.rmtObjId = (info i.peer).jettyId.toNat % 2 ^ 20 ∧ Prepared s.log i.peer ∧
      .bound i ∈ s.log := by
    rw [hsqe.1, hsqe.2, heid, hobj]
    exact ⟨rfl, rfl, hknows.peer (hat 13 (by decide)), hknows.bound (hat 10 (by decide))⟩
  refine h.does rfl ?_ (h.log.snoc (by simp) fun j sqe' heq => ?_)
  · apply hknows.does <;> simp [hpc, rank, hn, heid, hobj]
  · cases heq
    exact hsent

theorem Inv.runNode (h : s.Inv info) (hs : s.runNode info tpn i = some s') : s'.Inv info := by
  cases hpc : (s.node i).pc <;> simp only [RdmaDemo.runNode, hpc] at hs
  case openSync =>
    cases hs
    refine h.opens _ hpc ?_
    cases i <;> constructor <;> simp [rank]
  case syncReq =>
    cases hs
    refine (h.goesOn hpc ?_).send (.sync _ rfl (.inr rfl))
    constructor <;> simp [rank]
  case syncRecv =>
    cases hs
    cases i with
    | initiator =>
      refine h.syncRecv hpc fun src hsrc => ?_
      constructor <;> simp [rank]
    | responder =>
      refine h.syncRecv hpc fun src hsrc => ?_
      constructor <;> simp [rank, hsrc]
  case syncAck src =>
    cases hs
    refine (h.goesOn hpc ?_).send (.sync _ rfl ((h.node i).syncAck src hpc))
    constructor <;> simp [rank]
  case openData =>
    cases hs
    refine h.opens _ hpc ?_
    cases i <;> constructor <;> simp [rank]
  case infoSend =>
    cases hs
    cases i with
    | initiator => exact h.infoSend hpc (by constructor <;> simp [rank]) (by simp) (by simp [rank])
    | responder => exact h.infoSend hpc (by constructor <;> simp [rank]) (by simp) (by simp [rank])
  case infoRecv got =>
    cases hs
    exact h.recv fun src m net hsaid hread => hread.recvInfo hpc hsaid
  case importJetty =>
    cases hs
    exact h.importJetty hpc
  case bindJetty =>
    cases hs
    exact h.bindJetty hpc
  case postRecv =>
    cases hs
    cases i with
    | initiator => exact h.postRecv hpc (.inl rfl) (by simp) (by simp)
    | responder => exact h.postRecv hpc (.inr rfl) (by simp) (by simp)
  case readySend =>
    cases hs
    cases i with
    | initiator => exact h.readySend_initiator hpc
    | responder => exact h.readySend_responder hpc
  case readyRecv =>
    cases hs
    cases i with
    | initiator =>
      exact h.readyRecv hpc (by simp [rank]) (by simp) (by simp) fun src m hsaid hm => hsaid.ack_inv hm
    | responder =>
      exact h.readyRecv hpc (by simp [rank]) (by simp) (by simp) fun src m hsaid hm =>
        hsaid.ready_inv hm
  case postSend =>
    split at hs <;> cases hs
    · exact h.set (knows_returned 1)
    · rename_i slot sqe n hpost
      exact h.postSend hpc hpost
  case waitSend | waitRecv => cases hs
  case unbindJetty | unimportJetty =>
    cases hs
    refine h.goesOn hpc ?_
    constructor <;> simp [rank]
  case returned => cases hs

theorem Inv.complete (h : s.Inv info) {rx : List UInt8} (hs : s.complete i rx = some s') :
    s'.Inv info := by
  cases hpc : (s.node i).pc <;> simp only [RdmaDemo.complete, hpc] at hs
  case waitSend =>
    cases i <;> cases hs <;> refine h.goesOn hpc ?_ <;> constructor <;> simp [rank]
  case waitRecv =>
    cases i <;> cases hs <;> split_ifs
    · refine h.goesOn hpc ?_
      constructor <;> simp [rank]
    · exact h.set (knows_returned 1)
    · refine h.goesOn hpc ?_
      constructor <;> simp [rank]
    · exact h.set (knows_returned 1)
  all_goals cases hs

theorem Inv.act (h : s.Inv info) {a : RdmaDemoAction} (ha : ¬a.Forges)
    (hs : s.act info tpn a = some s') : s'.Inv info := by
  cases a with
  | node i => exact h.runNode hs
  | complete i rx => exact h.complete hs
  | fail i =>
    simp only [RdmaDemo.act] at hs
    split_ifs at hs
    cases hs
    exact h.set (knows_returned 1)
  | stray port dst m =>
    cases hs
    have hnot : isMsg rdmaReadyMsg m = false ∧ isMsg rdmaAckMsg m = false := by
      simpa [RdmaDemoAction.Forges] using ha
    exact h.send (.stray dst rfl hnot.1 hnot.2)
  | net a =>
    obtain ⟨net, hnet, rfl⟩ := Option.map_eq_some_iff.1 hs
    exact ⟨fun d hd => h.net d (Net.act_carries hnet hd), h.node, h.log⟩

theorem start_inv (info : RdmaRole → RdmaPeerInfo) : start.Inv info where
  net d hd := absurd hd (Net.not_carries_empty d)
  node i := by
    have hno : ∀ k, 0 < k → ¬At i (start.node i).pc k := fun k hk hat => Nat.not_le.2 hk hat.1
    exact {
      got := fun _ heq => nomatch heq
      syncAck := fun _ heq => nomatch heq
      remote := fun hat => absurd hat (hno 7 (by decide))
      imported := fun hat => absurd hat (hno 9 (by decide))
      bound := fun hat => absurd hat (hno 10 (by decide))
      posted := fun hat => absurd hat (hno 11 (by decide))
      peer := fun hat => absurd hat (hno 13 (by decide))
      sentInfo := fun hmem => absurd hmem List.not_mem_nil
      postedRecv := fun hmem => absurd hmem List.not_mem_nil }
  log :=
    { imported := fun _ _ hmem => absurd hmem List.not_mem_nil
      sent := fun _ _ hmem => absurd hmem List.not_mem_nil
      order := fun _ _ => ⟨before_of_not_mem List.not_mem_nil, before_of_not_mem List.not_mem_nil,
        before_of_not_mem List.not_mem_nil⟩ }

theorem run_inv {actions : List RdmaDemoAction} (hforge : ∀ a ∈ actions, ¬a.Forges)
    (hs : s.Inv info) (hrun : LTS.run (act info tpn) s actions = some s') : s'.Inv info := by
  induction actions generalizing s with
  | nil => exact Option.some.inj hrun ▸ hs
  | cons a actions ih =>
    obtain ⟨t, ha, hrest⟩ := LTS.run_cons_eq_some.1 hrun
    refine ih (fun b hb => hforge b (List.mem_cons_of_mem _ hb)) ?_ hrest
    exact hs.act (hforge a List.mem_cons_self) ha

/-- **The handshake is safe.**  Whatever the network loses, duplicates or reorders, and whatever other
hosts send, except the two messages whose source is not looked at: a node imports exactly the jetty
that its peer has told it of, and addresses its send to this jetty after both have bound their jetties
and the peer has posted its receive. -/
theorem handshake_safe (info : RdmaRole → RdmaPeerInfo) (tpn : RdmaRole → UInt32)
    {actions : List RdmaDemoAction} (hforge : ∀ a ∈ actions, ¬a.Forges)
    (hrun : LTS.run (act info tpn) start actions = some s) :
    (∀ i r, .imported i r ∈ s.log → r = info i.peer) ∧
    ∀ i sqe, .postedSend i sqe ∈ s.log →
      sqe.rmtEid = (info i.peer).eid.toList.reverse ∧
      sqe.rmtObjId = (info i.peer).jettyId.toNat % 2 ^ 20 ∧
      Before (.postedRecv i.peer) (.postedSend i sqe) s.log ∧
      Before (.bound i.peer) (.postedSend i sqe) s.log ∧
      Before (.bound i) (.postedSend i sqe) s.log := by
  obtain ⟨himported, hsent, horder⟩ := (run_inv hforge (start_inv info) hrun).log
  refine ⟨himported, fun i sqe hmem => ?_⟩
  obtain ⟨heid, hobj⟩ := hsent i sqe hmem
  obtain ⟨hpeer, hrecv, hbound⟩ := horder i sqe
  exact ⟨heid, hobj, hrecv, hpeer, hbound⟩

/-- Both nodes up to the exchange, in which another host takes part. -/
def exchangeRun : List RdmaDemoAction :=
  let initiator := RdmaDemoAction.node .initiator
  let responder := RdmaDemoAction.node .responder
  let deliver := RdmaDemoAction.net (.deliver 0)
  [initiator, responder, initiator, deliver, responder, responder, deliver, initiator, responder,
    initiator, .stray .data (.node .responder, .data) (List.replicate 24 0), deliver, initiator,
    deliver, responder, responder, responder, deliver, initiator]

/-- The whole run. -/
def fullRun : List RdmaDemoAction :=
  let initiator := RdmaDemoAction.node .initiator
  let responder := RdmaDemoAction.node .responder
  let deliver := RdmaDemoAction.net (.deliver 0)
  exchangeRun ++ List.replicate 3 initiator ++ List.replicate 3 responder ++
    [initiator, deliver, responder, responder, deliver, initiator, initiator,
      .complete .initiator [], .complete .responder rdmaReqMsg, responder, .complete .responder [],
      .complete .initiator rdmaReplyMsg] ++
    List.replicate 2 initiator ++ List.replicate 2 responder

/-- Two different jetties. -/
def sampleInfo : RdmaRole → RdmaPeerInfo
  | .initiator => { eid := .replicate _ 1, jettyId := 5, token := 0 }
  | .responder => { eid := .replicate _ 2, jettyId := 7, token := 0 }

theorem handshake_safe_fullRun :
    ∃ s, LTS.run (act sampleInfo fun _ => 3) start fullRun = some s ∧
      (s.node .initiator).pc = .returned 0 ∧ (s.node .responder).pc = .returned 0 ∧
      .imported .initiator (sampleInfo .responder) ∈ s.log ∧
      ∃ sqe, .postedSend .initiator sqe ∈ s.log ∧ sqe.rmtObjId = 7 ∧
        Before (.postedRecv .responder) (.postedSend .initiator sqe) s.log := by
  have hany : (LTS.run (act sampleInfo fun _ => 3) start fullRun).any (fun s =>
      (s.node .initiator).pc = .returned 0 ∧ (s.node .responder).pc = .returned 0 ∧
      .imported .initiator (sampleInfo .responder) ∈ s.log ∧
      .postedSend .initiator ⟨0, true, 3, 7, List.replicate 16 2, rdmaReqMsg⟩ ∈ s.log) = true := by
    decide +kernel
  obtain ⟨s, hrun, hpcs⟩ := (Option.any_eq_true _ _).1 hany
  obtain ⟨hinitiator, hresponder, himported, hsent⟩ := of_decide_eq_true hpcs
  have hsafe := (handshake_safe sampleInfo (fun _ => 3) (by decide +kernel) hrun).2 _ _ hsent
  exact ⟨s, hrun, hinitiator, hresponder, himported, _, hsent, hsafe.2.1, hsafe.2.2.1⟩

/-- With a forged answer the initiator sends although its peer has not posted a receive. -/
example : (LTS.run (act sampleInfo fun _ => 3) start (exchangeRun ++
    List.replicate 4 (.node .initiator) ++
      [.stray .sync (.node .initiator, .data) rdmaAckMsg, .net (.deliver 1), .node .initiator,
        .node .initiator])).any (fun s => (s.node .initiator).pc = .waitSend ∧
          .postedRecv .responder ∉ s.log) = true := by
  decide +kernel

end RdmaDemo

end LinquUb
