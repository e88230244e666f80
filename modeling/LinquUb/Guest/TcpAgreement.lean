import LinquUb.Guest.TcpEachServer
import LinquUb.LTS.History

/-!
# What a pass of the TCP demo means

* `recvLineNext_starts` : a line that was read is what has come on the connection;
* `TcpEachServer.InvBut` : what every process knows where it is, except one that is between two
  places;
* `TcpEachServer.InvBut.act` : **every step keeps the invariant**;
* `TcpEachServer.pass_agreement` : **a node that passes has greeted its peer, which has the other role,
  and has been greeted itself**.

There may be any number of nodes with any roles and peers.  Calls may send and receive their bytes in
pieces or fail, clients may give up a connection that is made later, and other hosts may connect and
send what they like.
-/

namespace LinquUb

/-- One of the roles is `nodeA` and the other one is `nodeB`. -/
def OppositeRoles (r r' : String) : Prop := r = "nodeA" ∧ r' = "nodeB" ∨ r = "nodeB" ∧ r' = "nodeA"

theorem OppositeRoles.symm {r r' : String} (h : OppositeRoles r r') : OppositeRoles r' r :=
  (Or.imp And.symm And.symm h).symm

/-! ### What is said -/

section Messages

variable {role role' : String} {m m' : TcpMessages} {line buf : List UInt8}

theorem roleMessages_inv (h : roleMessages role = some m) : role = "nodeA" ∨ role = "nodeB" := by
  unfold roleMessages at h
  split_ifs at h with hA hB
  · exact .inl hA
  · exact .inr hB

/-- What the client of a role says. -/
def tcpGreeting (role : String) : CString := (roleMessages role).elim [] TcpMessages.clientMsg

/-- What the server of a role says. -/
def tcpAck (role : String) : CString := (roleMessages role).elim [] TcpMessages.serverAck

theorem tcpGreeting_eq (h : roleMessages role = some m) : tcpGreeting role = m.clientMsg := by
  simp [tcpGreeting, h]

theorem tcpAck_eq (h : roleMessages role = some m) : tcpAck role = m.serverAck := by
  simp [tcpAck, h]

/-- Only the other role sends the greeting that a server waits for. -/
theorem opposite_of_greeting (h : roleMessages role = some m)
    (hstarts : m.expectedServerMsg <+: tcpGreeting role' ++ [10]) : OppositeRoles role role' := by
  unfold tcpGreeting at hstarts
  cases h' : roleMessages role' with
  | none =>
    rw [h'] at hstarts
    rcases roleMessages_inv h with rfl | rfl <;> cases h <;> exact absurd hstarts (by decide)
  | some m' =>
    rw [h'] at hstarts
    rcases roleMessages_inv h with rfl | rfl <;> rcases roleMessages_inv h' with rfl | rfl <;>
      cases h <;> cases h'
    · exact absurd hstarts (by decide)
    · exact .inl ⟨rfl, rfl⟩
    · exact .inr ⟨rfl, rfl⟩
    · exact absurd hstarts (by decide)

/-- Only the other role sends the acknowledgment that a client waits for. -/
theorem opposite_of_ack (h : roleMessages role = some m)
    (hstarts : m.expectedClientAck <+: tcpAck role' ++ [10]) : OppositeRoles role role' := by
  unfold tcpAck at hstarts
  cases h' : roleMessages role' with
  | none =>
    rw [h'] at hstarts
    rcases roleMessages_inv h with rfl | rfl <;> cases h <;> exact absurd hstarts (by decide)
  | some m' =>
    rw [h'] at hstarts
    rcases roleMessages_inv h with rfl | rfl <;> rcases roleMessages_inv h' with rfl | rfl <;>
      cases h <;> cases h'
    · exact absurd hstarts (by decide)
    · exact .inl ⟨rfl, rfl⟩
    · exact .inr ⟨rfl, rfl⟩
    · exact absurd hstarts (by decide)

theorem expectedClientAck_ne (h : roleMessages role = some m) : m.expectedClientAck ≠ [] := by
  rcases roleMessages_inv h with rfl | rfl <;> cases h <;> decide

theorem sendLine_inv (h : sendLine line = some buf) : buf = line ++ [10] := by
  unfold sendLine at h
  split_ifs at h
  exact (Option.some.inj h).symm

theorem expectedServerMsg_eq (h : roleMessages role = some m) (hrole : OppositeRoles role role') :
    m.expectedServerMsg = tcpGreeting role' := by
  rcases hrole with ⟨rfl, rfl⟩ | ⟨rfl, rfl⟩ <;> cases h <;> rfl

theorem expectedClientAck_eq (h : roleMessages role = some m) (hrole : OppositeRoles role role') :
    m.expectedClientAck = tcpAck role' := by
  rcases hrole with ⟨rfl, rfl⟩ | ⟨rfl, rfl⟩ <;> cases h <;> rfl

/-- What was compared is what has come. -/
theorem recvLineNext_starts {bufLen : ℕ} {r : ReadResult UInt8} {b b' : ByteStream UInt8}
    (hread : b.read = some (r, b')) (h : recvLineNext bufLen b.received r = .line line) :
    cString line <+: b'.received := by
  have hline : line <+: b'.received := by
    cases r with
    | item ch =>
      rw [(ByteStream.read_item hread).2]
      simp only [recvLineNext] at h
      split_ifs at h <;> cases h
      · exact List.prefix_append _ _
      · exact List.prefix_rfl
    | eof =>
      rw [ByteStream.read_eof hread]
      simp only [recvLineNext] at h
      split_ifs at h
      cases h
      exact List.prefix_rfl
  exact (List.takeWhile_prefix _).trans hline

theorem recvLineNext_more {bufLen : ℕ} {r : ReadResult UInt8} {b b' : ByteStream UInt8}
    (hread : b.read = some (r, b')) (h : recvLineNext bufLen b.received r = .more buf) :
    b'.received = buf := by
  cases r with
  | item ch =>
    rw [(ByteStream.read_item hread).2]
    simp only [recvLineNext] at h
    split_ifs at h
    cases h
    rfl
  | eof =>
    simp only [recvLineNext] at h
    split_ifs at h

end Messages

/-! ### Connections -/

/-- More has happened on the connection. -/
structure TcpConn.Grows {ι : Type} (conn conn' : TcpConn ι) : Prop where
  client : conn'.client = conn.client
  server : conn'.server = conn.server
  accepted : conn.accepted = true → conn'.accepted = true
  up : conn.up.Grows conn'.up
  down : conn.down.Grows conn'.down

theorem TcpConn.Grows.refl {ι : Type} (conn : TcpConn ι) : conn.Grows conn :=
  ⟨rfl, rfl, id, .refl _, .refl _⟩

namespace TcpEachServer

variable {ι : Type} {role : ι → String} {peer : ι → ι} {conns conns' : List (TcpConn ι)}
  {log log' : List (TcpEvent ι)} {conn conn' : TcpConn ι} {c : ℕ} {i j : ι} {e : TcpEvent ι}

/-- Every connection is still there. -/
def Later (conns conns' : List (TcpConn ι)) : Prop :=
  ∀ (c : ℕ) (conn : TcpConn ι), conns[c]? = some conn → ∃ conn', conns'[c]? = some conn' ∧ conn.Grows conn'

theorem Later.refl (conns : List (TcpConn ι)) : Later conns conns :=
  fun _ conn hc => ⟨conn, hc, .refl _⟩

theorem getElem?_modify_some {f : TcpConn ι → TcpConn ι} {k : ℕ}
    (h : (conns.modify c f)[k]? = some conn') :
    ∃ conn, conns[k]? = some conn ∧ (c = k ∧ conn' = f conn ∨ c ≠ k ∧ conn' = conn) := by
  rw [List.getElem?_modify] at h
  obtain ⟨conn, hk, rfl⟩ := Option.map_eq_some_iff.1 h
  refine ⟨conn, hk, ?_⟩
  by_cases hck : c = k
  · exact .inl ⟨hck, if_pos hck⟩
  · exact .inr ⟨hck, if_neg hck⟩

theorem later_modify {f : TcpConn ι → TcpConn ι} (hc : conns[c]? = some conn)
    (hgrows : conn.Grows (f conn)) : Later conns (conns.modify c f) := by
  intro k conn₀ hk
  rw [List.getElem?_modify, hk]
  refine ⟨_, rfl, ?_⟩
  split_ifs with hck
  · subst hck
    obtain rfl : conn = conn₀ := Option.some.inj (hc.symm.trans hk)
    exact hgrows
  · exact .refl _

theorem later_append (conns new : List (TcpConn ι)) : Later conns (conns ++ new) :=
  fun c conn hc => ⟨conn, by rw [List.getElem?_append_left (List.getElem?_eq_some_iff.1 hc).1, hc],
    .refl _⟩

/-! ### The invariant -/

/-- What holds of the connection with the number `c`. -/
structure ConnOk (role : ι → String) (peer : ι → ι) (log : List (TcpEvent ι)) (c : ℕ)
    (conn : TcpConn ι) : Prop where
  client : ∀ i, conn.client = some i →
    conn.server = peer i ∧ conn.up.sent <+: tcpGreeting (role i) ++ [10]
  down : conn.down.sent <+: tcpAck (role conn.server) ++ [10]
  served : conn.down.sent ≠ [] → .serverReceived conn.server c ∈ log
  fresh : conn.accepted = false → conn.up.received = [] ∧ conn.down.sent = []

/-- What an event says. -/
def EventOk (role : ι → String) (peer : ι → ι) (conns : List (TcpConn ι)) (log : List (TcpEvent ι)) :
    TcpEvent ι → Prop
  | .clientSent i c => ∃ conn, conns[c]? = some conn ∧ conn.client = some i ∧
      tcpGreeting (role i) ++ [10] <+: conn.up.sent
  | .serverReceived j c => ∃ conn, conns[c]? = some conn ∧ conn.server = j ∧
      ∃ m, roleMessages (role j) = some m ∧ m.expectedServerMsg <+: conn.up.received
  | .serverAck j c => .serverReceived j c ∈ log ∧ ∃ conn, conns[c]? = some conn ∧ conn.server = j ∧
      tcpAck (role j) ++ [10] <+: conn.down.sent
  | .clientReceivedAck i c => .clientSent i c ∈ log ∧ .serverReceived (peer i) c ∈ log ∧
      ∃ conn, conns[c]? = some conn ∧ conn.client = some i ∧
        ∃ m, roleMessages (role i) = some m ∧ m.expectedClientAck <+: conn.down.received
  | .pass i => (∃ c, .clientReceivedAck i c ∈ log) ∧ ∃ c, .serverAck i c ∈ log

/-- What holds where `main` is. -/
def ClientKnows (role : ι → String) (conns : List (TcpConn ι)) (log : List (TcpEvent ι)) (i : ι) :
    TcpClientPc → Prop
  | .setup | .connecting => True
  | .sending c buf off => buf = tcpGreeting (role i) ++ [10] ∧ ∃ conn, conns[c]? = some conn ∧
      conn.client = some i ∧ conn.up.sent = buf.take off ∧ conn.down.received = []
  | .receiving c buf => .clientSent i c ∈ log ∧ ∃ conn, conns[c]? = some conn ∧
      conn.client = some i ∧ conn.down.received = buf
  | .waiting => ∃ c, .clientReceivedAck i c ∈ log
  | .returned rc => rc = 0 → .pass i ∈ log

/-- What holds where the child is. -/
def ServerKnows (role : ι → String) (conns : List (TcpConn ι)) (log : List (TcpEvent ι)) (j : ι) :
    TcpServerPc → Prop
  | .absent | .accepting | .killed => True
  | .receiving c buf => ∃ conn, conns[c]? = some conn ∧ conn.server = j ∧ conn.accepted = true ∧
      conn.up.received = buf ∧ conn.down.sent = []
  | .sending c buf off => buf = tcpAck (role j) ++ [10] ∧ .serverReceived j c ∈ log ∧
      ∃ conn, conns[c]? = some conn ∧ conn.server = j ∧ conn.accepted = true ∧
        conn.down.sent = buf.take off
  | .exited status => status = 0 → ∃ c, .serverAck j c ∈ log

theorem ConnOk.mono (h : ConnOk role peer log c conn) (hlog : log ⊆ log') :
    ConnOk role peer log' c conn :=
  ⟨h.client, h.down, fun hne => hlog (h.served hne), h.fresh⟩

theorem EventOk.mono (h : EventOk role peer conns log e) (hconns : Later conns conns')
    (hlog : log ⊆ log') : EventOk role peer conns' log' e := by
  cases e with
  | clientSent i c =>
    obtain ⟨conn, hc, hclient, hsent⟩ := h
    obtain ⟨conn', hc', hgrows⟩ := hconns c conn hc
    exact ⟨conn', hc', hgrows.client.trans hclient, hsent.trans hgrows.up.sent⟩
  | serverReceived j c =>
    obtain ⟨conn, hc, hserver, m, hm, hreceived⟩ := h
    obtain ⟨conn', hc', hgrows⟩ := hconns c conn hc
    exact ⟨conn', hc', hgrows.server.trans hserver, m, hm, hreceived.trans hgrows.up.received⟩
  | serverAck j c =>
    obtain ⟨hmem, conn, hc, hserver, hsent⟩ := h
    obtain ⟨conn', hc', hgrows⟩ := hconns c conn hc
    exact ⟨hlog hmem, conn', hc', hgrows.server.trans hserver, hsent.trans hgrows.down.sent⟩
  | clientReceivedAck i c =>
    obtain ⟨hsent, hserved, conn, hc, hclient, m, hm, hreceived⟩ := h
    obtain ⟨conn', hc', hgrows⟩ := hconns c conn hc
    exact ⟨hlog hsent, hlog hserved, conn', hc', hgrows.client.trans hclient, m, hm,
      hreceived.trans hgrows.down.received⟩
  | pass i => exact h.imp (fun ⟨c, hc⟩ => ⟨c, hlog hc⟩) fun ⟨c, hc⟩ => ⟨c, hlog hc⟩

/-- The connections of the client look the same to it. -/
def ClientFrame (i : ι) (conns conns' : List (TcpConn ι)) : Prop :=
  ∀ (c : ℕ) (conn : TcpConn ι), conns[c]? = some conn → conn.client = some i →
    ∃ conn', conns'[c]? = some conn' ∧ conn.Grows conn' ∧ conn'.up.sent = conn.up.sent ∧
      conn'.down.received = conn.down.received

/-- The connections of the server look the same to it. -/
def ServerFrame (j : ι) (conns conns' : List (TcpConn ι)) : Prop :=
  ∀ (c : ℕ) (conn : TcpConn ι), conns[c]? = some conn → conn.server = j →
    ∃ conn', conns'[c]? = some conn' ∧ conn.Grows conn' ∧ conn'.up.received = conn.up.received ∧
      conn'.down.sent = conn.down.sent

theorem ClientKnows.mono {pc : TcpClientPc} (h : ClientKnows role conns log i pc)
    (hconns : ClientFrame i conns conns') (hlog : log ⊆ log') :
    ClientKnows role conns' log' i pc := by
  cases pc with
  | setup | connecting => trivial
  | sending c buf off =>
    obtain ⟨hbuf, conn, hc, hclient, hsent, hreceived⟩ := h
    obtain ⟨conn', hc', hgrows, hsent', hreceived'⟩ := hconns c conn hc hclient
    exact ⟨hbuf, conn', hc', hgrows.client.trans hclient, hsent'.trans hsent,
      hreceived'.trans hreceived⟩
  | receiving c buf =>
    obtain ⟨hmem, conn, hc, hclient, hreceived⟩ := h
    obtain ⟨conn', hc', hgrows, hsent', hreceived'⟩ := hconns c conn hc hclient
    exact ⟨hlog hmem, conn', hc', hgrows.client.trans hclient, hreceived'.trans hreceived⟩
  | waiting => exact h.imp fun c hc => hlog hc
  | returned rc => exact fun hrc => hlog (h hrc)

theorem ServerKnows.mono {pc : TcpServerPc} (h : ServerKnows role conns log j pc)
    (hconns : ServerFrame j conns conns') (hlog : log ⊆ log') :
    ServerKnows role conns' log' j pc := by
  cases pc with
  | absent | accepting | killed => trivial
  | receiving c buf =>
    obtain ⟨conn, hc, hserver, haccepted, hreceived, hsent⟩ := h
    obtain ⟨conn', hc', hgrows, hreceived', hsent'⟩ := hconns c conn hc hserver
    exact ⟨conn', hc', hgrows.server.trans hserver, hgrows.accepted haccepted,
      hreceived'.trans hreceived, hsent'.trans hsent⟩
  | sending c buf off =>
    obtain ⟨hbuf, hmem, conn, hc, hserver, haccepted, hsent⟩ := h
    obtain ⟨conn', hc', hgrows, hreceived', hsent'⟩ := hconns c conn hc hserver
    exact ⟨hbuf, hlog hmem, conn', hc', hgrows.server.trans hserver, hgrows.accepted haccepted,
      hsent'.trans hsent⟩
  | exited status => exact fun hstatus => (h hstatus).imp fun c hc => hlog hc

/-- A process that is between two places. -/
inductive Party (ι : Type)
  | client (i : ι)
  | server (i : ι)

/-- The invariant, but for what the process `free` knows. -/
structure InvBut (role : ι → String) (peer : ι → ι) (free : Option (Party ι))
    (s : TcpEachServer ι) : Prop where
  conn : ∀ (c : ℕ) (conn : TcpConn ι), s.conns[c]? = some conn → ConnOk role peer s.log c conn
  event : ∀ e ∈ s.log, EventOk role peer s.conns s.log e
  order : ∀ i c, Before (.serverReceived (peer i) c) (.clientReceivedAck i c) s.log
  client : ∀ i, free ≠ some (.client i) → ClientKnows role s.conns s.log i (s.node i).client
  server : ∀ j, free ≠ some (.server j) → ServerKnows role s.conns s.log j (s.node j).server

/-- The invariant. -/
abbrev Inv (role : ι → String) (peer : ι → ι) (s : TcpEachServer ι) : Prop := InvBut role peer none s

section Rules

variable {free : Option (Party ι)} {s : TcpEachServer ι}

theorem InvBut.forget (h : Inv role peer s) : InvBut role peer free s :=
  ⟨h.conn, h.event, h.order, fun i _ => h.client i nofun, fun j _ => h.server j nofun⟩

theorem modifyConn_conns (hc : s.conns[c]? = some conn) (f : TcpConn ι → TcpConn ι) :
    (s.modifyConn c f).conns[c]? = some (f conn) := by
  rw [modifyConn, List.getElem?_modify_eq, hc]
  rfl

/-- A connection changes, and only the process that is between two places can tell. -/
theorem InvBut.modify (h : InvBut role peer free s) {f : TcpConn ι → TcpConn ι}
    (hc : s.conns[c]? = some conn) (hgrows : conn.Grows (f conn))
    (hok : ConnOk role peer s.log c (f conn))
    (hclient : ∀ i, conn.client = some i → free ≠ some (.client i) →
      (f conn).up.sent = conn.up.sent ∧ (f conn).down.received = conn.down.received)
    (hserver : free ≠ some (.server conn.server) →
      (f conn).up.received = conn.up.received ∧ (f conn).down.sent = conn.down.sent) :
    InvBut role peer free (s.modifyConn c f) := by
  have hat : ∀ (k : ℕ) (conn₀ : TcpConn ι), s.conns[k]? = some conn₀ →
      (c = k ∧ conn₀ = conn ∧ (s.conns.modify c f)[k]? = some (f conn)) ∨
        (s.conns.modify c f)[k]? = some conn₀ := by
    intro k conn₀ hk
    rw [List.getElem?_modify, hk]
    by_cases hck : c = k
    · subst hck
      obtain rfl : conn = conn₀ := Option.some.inj (hc.symm.trans hk)
      exact .inl ⟨rfl, rfl, by simp⟩
    · exact .inr (by simp [hck])
  refine ⟨fun k conn' hk => ?_, fun e he => (h.event e he).mono (later_modify hc hgrows) (fun _ => id),
    h.order, fun i hi => (h.client i hi).mono (fun k conn₀ hk hi₀ => ?_) (fun _ => id),
    fun j hj => (h.server j hj).mono (fun k conn₀ hk hj₀ => ?_) (fun _ => id)⟩
  · obtain ⟨conn₀, hk₀, ⟨rfl, rfl⟩ | ⟨-, rfl⟩⟩ := getElem?_modify_some hk
    · obtain rfl : conn = conn₀ := Option.some.inj (hc.symm.trans hk₀)
      exact hok
    · exact h.conn k _ hk₀
  · obtain ⟨rfl, rfl, hk'⟩ | hk' := hat k conn₀ hk
    · exact ⟨_, hk', hgrows, hclient i hi₀ hi⟩
    · exact ⟨_, hk', .refl _, rfl, rfl⟩
  · obtain ⟨rfl, rfl, hk'⟩ | hk' := hat k conn₀ hk
    · exact ⟨_, hk', hgrows, hserver (hj₀ ▸ hj)⟩
    · exact ⟨_, hk', .refl _, rfl, rfl⟩

theorem InvBut.print (h : InvBut role peer free s) (he : EventOk role peer s.conns s.log e) :
    InvBut role peer free (s.print e) := by
  have hlog : s.log ⊆ s.log ++ [e] := List.subset_append_left _ _
  refine ⟨fun c conn hc => (h.conn c conn hc).mono hlog, fun e' he' => ?_, fun i c => ?_,
    fun i hi => (h.client i hi).mono (fun c conn hc _ => ⟨conn, hc, .refl _, rfl, rfl⟩) hlog,
    fun j hj => (h.server j hj).mono (fun c conn hc _ => ⟨conn, hc, .refl _, rfl, rfl⟩) hlog⟩
  · rcases List.mem_append.1 he' with hold | hnew
    · exact (h.event e' hold).mono (.refl _) hlog
    · exact List.mem_singleton.1 hnew ▸ he.mono (.refl _) hlog
  · refine (h.order i c).snoc ?_
    rintro rfl
    exact he.2.1

theorem InvBut.closeUp (h : InvBut role peer free s) (c : ℕ) :
    InvBut role peer free (s.closeUp c) := by
  cases hc : s.conns[c]? with
  | none =>
    have hsame : s.closeUp c = s := by
      rw [TcpEachServer.closeUp, modifyConn, List.modify_eq_self (List.getElem?_eq_none_iff.1 hc)]
    rwa [hsame]
  | some conn =>
    have hok := h.conn c conn hc
    exact h.modify hc ⟨rfl, rfl, id, ByteStream.grows_close _, .refl _⟩
      ⟨hok.client, hok.down, hok.served, hok.fresh⟩ (fun _ _ _ => ⟨rfl, rfl⟩) fun _ => ⟨rfl, rfl⟩

theorem InvBut.closeDown (h : InvBut role peer free s) (c : ℕ) :
    InvBut role peer free (s.closeDown c) := by
  cases hc : s.conns[c]? with
  | none =>
    have hsame : s.closeDown c = s := by
      rw [TcpEachServer.closeDown, modifyConn, List.modify_eq_self (List.getElem?_eq_none_iff.1 hc)]
    rwa [hsame]
  | some conn =>
    have hok := h.conn c conn hc
    exact h.modify hc ⟨rfl, rfl, id, .refl _, ByteStream.grows_close _⟩
      ⟨hok.client, hok.down, hok.served, hok.fresh⟩ (fun _ _ _ => ⟨rfl, rfl⟩) fun _ => ⟨rfl, rfl⟩

theorem InvBut.addConn (h : InvBut role peer free s) {client : Option ι} {server : ι}
    (hpeer : ∀ i, client = some i → server = peer i) :
    InvBut role peer free (s.addConn client server) := by
  have hat : ∀ (c : ℕ) (conn : TcpConn ι), s.conns[c]? = some conn →
      (s.addConn client server).conns[c]? = some conn := fun c conn hc => by
    rw [TcpEachServer.addConn, List.getElem?_append_left (List.getElem?_eq_some_iff.1 hc).1, hc]
  refine ⟨fun c conn hc => ?_, fun e he => (h.event e he).mono (later_append _ _) (fun _ => id),
    h.order,
    fun i hi => (h.client i hi).mono
      (fun c conn hc _ => ⟨conn, hat c conn hc, .refl _, rfl, rfl⟩) (fun _ => id),
    fun j hj => (h.server j hj).mono
      (fun c conn hc _ => ⟨conn, hat c conn hc, .refl _, rfl, rfl⟩) (fun _ => id)⟩
  rw [TcpEachServer.addConn, List.getElem?_append] at hc
  split_ifs at hc with hlt
  · exact h.conn c conn hc
  · obtain rfl := List.mem_singleton.1 (List.mem_of_getElem? hc)
    exact ⟨fun i hi => ⟨hpeer i hi, List.nil_prefix⟩, List.nil_prefix, fun hne => absurd rfl hne,
      fun _ => ⟨rfl, rfl⟩⟩

variable [DecidableEq ι]

theorem InvBut.setServer {pc : TcpServerPc} (h : InvBut role peer free s)
    (hknows : ServerKnows role s.conns s.log j pc) : InvBut role peer free (s.setServer j pc) := by
  refine ⟨h.conn, h.event, h.order, fun i hi => ?_, fun k hk => ?_⟩
  · have hclient := h.client i hi
    by_cases hij : i = j
    · subst hij
      simpa [TcpEachServer.setServer] using hclient
    · simpa [TcpEachServer.setServer, hij] using hclient
  · by_cases hkj : k = j
    · subst hkj
      simpa [TcpEachServer.setServer] using hknows
    · simpa [TcpEachServer.setServer, hkj] using h.server k hk

/-- The server is at a place again. -/
theorem InvBut.serverAt {pc : TcpServerPc} (h : InvBut role peer (some (.server j)) s)
    (hknows : ServerKnows role s.conns s.log j pc) : Inv role peer (s.setServer j pc) := by
  obtain ⟨hconn, hevent, horder, hclient, hserver⟩ := h.setServer hknows
  refine ⟨hconn, hevent, horder, fun i _ => hclient i nofun, fun k _ => ?_⟩
  by_cases hkj : k = j
  · subst hkj
    simpa [TcpEachServer.setServer] using hknows
  · exact hserver k fun heq => hkj (by cases heq; rfl)

/-- The client is at a place again. -/
theorem InvBut.clientAt {pc : TcpClientPc} (h : InvBut role peer (some (.client i)) s)
    (hknows : ClientKnows role s.conns s.log i pc) : Inv role peer (s.setClient i pc) := by
  refine ⟨h.conn, h.event, h.order, fun k _ => ?_, fun j _ => ?_⟩
  · by_cases hki : k = i
    · subst hki
      simpa [setClient] using hknows
    · simpa [setClient, hki] using h.client k fun heq => hki (by cases heq; rfl)
  · have hserver := h.server j nofun
    by_cases hji : j = i
    · subst hji
      simpa [setClient] using hserver
    · simpa [setClient, hji] using hserver

/-! ### Steps of the child -/

theorem InvBut.serverExit {status : ℕ} (h : InvBut role peer (some (.server j)) s) (c : ℕ)
    (hstatus : status = 0 → ∃ c, .serverAck j c ∈ s.log) : Inv role peer (s.serverExit j c status) :=
  (h.closeDown c).serverAt hstatus

variable {s' : TcpEachServer ι} {m : TcpMessages}

theorem InvBut.serverFail (h : Inv role peer s) (hs : s.serverFail j = some s') :
    Inv role peer s' := by
  unfold TcpEachServer.serverFail at hs
  split at hs <;> cases hs
  · exact h.forget.serverAt nofun
  · exact h.forget.serverExit _ nofun
  · exact h.forget.serverExit _ nofun

theorem InvBut.accept (h : Inv role peer s) (hs : s.accept j c = some s') : Inv role peer s' := by
  unfold TcpEachServer.accept at hs
  split at hs
  · obtain ⟨conn, hc, hs⟩ := Option.bind_eq_some_iff.1 hs
    split_ifs at hs with hcond
    cases hs
    obtain ⟨hserver, haccepted⟩ := hcond
    have hok := h.conn c conn hc
    obtain ⟨hreceived, hsent⟩ := hok.fresh haccepted
    have htaken : InvBut role peer (some (.server j))
        (s.modifyConn c fun conn => { conn with accepted := true }) :=
      h.forget.modify hc ⟨rfl, rfl, fun _ => rfl, .refl _, .refl _⟩
        ⟨hok.client, hok.down, hok.served, fun hfresh => nomatch hfresh⟩
        (fun _ _ _ => ⟨rfl, rfl⟩) fun _ => ⟨rfl, rfl⟩
    exact htaken.serverAt ⟨_, modifyConn_conns hc _, hserver, rfl, hreceived, hsent⟩
  · cases hs

theorem InvBut.serverLine (h : InvBut role peer (some (.server j)) s)
    (hm : roleMessages (role j) = some m) {line : List UInt8} (hc : s.conns[c]? = some conn)
    (hserver : conn.server = j) (haccepted : conn.accepted = true) (hsent : conn.down.sent = [])
    (hline : cString line <+: conn.up.received) : Inv role peer (s.serverLine m j c line) := by
  unfold TcpEachServer.serverLine
  split_ifs with hexpected
  · have hprint := h.print (e := .serverReceived j c)
      ⟨conn, hc, hserver, m, hm, hexpected ▸ hline⟩
    split <;> rename_i hack
    · exact hprint.serverExit c nofun
    · refine hprint.serverAt ⟨?_, List.mem_append_right _ (List.mem_singleton_self _), conn, hc,
        hserver, haccepted, hsent⟩
      rw [tcpAck_eq hm, sendLine_inv hack]
  · exact h.serverExit c nofun

theorem InvBut.serverRecv (h : Inv role peer s) (hm : roleMessages (role j) = some m)
    (hs : s.serverRecv m j = some s') : Inv role peer s' := by
  unfold TcpEachServer.serverRecv at hs
  split at hs
  case h_2 => cases hs
  rename_i c buf hpc
  obtain ⟨conn, hc, hs⟩ := Option.bind_eq_some_iff.1 hs
  obtain ⟨⟨r, up⟩, hread, rfl⟩ := Option.map_eq_some_iff.1 hs
  have hknows := h.server j nofun
  rw [hpc] at hknows
  obtain ⟨conn₀, hc₀, hserver, haccepted, rfl, hsent⟩ := hknows
  obtain rfl : conn = conn₀ := Option.some.inj (hc.symm.trans hc₀)
  have hok := h.conn c conn hc
  have hread' : InvBut role peer (some (.server j))
      (s.modifyConn c fun conn => { conn with up := up }) := by
    refine h.forget.modify hc ⟨rfl, rfl, id, ByteStream.grows_read hread, .refl _⟩
      ⟨fun i hi => ?_, hok.down, hok.served, fun hfresh => ?_⟩
      (fun _ _ _ => ⟨ByteStream.read_sent hread, rfl⟩) fun hne => absurd (by rw [hserver]) hne
    · exact (hok.client i hi).imp id fun hsent => (ByteStream.read_sent hread).symm ▸ hsent
    · rw [haccepted] at hfresh
      cases hfresh
  have hc' := modifyConn_conns hc fun conn => { conn with up := up }
  dsimp only
  split <;> rename_i hnext
  · exact hread'.serverAt ⟨_, hc', hserver, haccepted, recvLineNext_more hread hnext, hsent⟩
  · exact hread'.serverLine hm hc' hserver haccepted hsent (recvLineNext_starts hread hnext)
  · exact hread'.serverExit c nofun

theorem InvBut.serverSend {n : ℕ} (h : Inv role peer s) (hs : s.serverSend j n = some s') :
    Inv role peer s' := by
  unfold TcpEachServer.serverSend at hs
  split at hs
  case h_2 => cases hs
  rename_i c buf off hpc
  split at hs
  case isFalse => cases hs
  obtain rfl := Option.some.inj hs
  have hknows := h.server j nofun
  rw [hpc] at hknows
  obtain ⟨hbuf, hmem, conn, hc, hserver, haccepted, hsent⟩ := hknows
  have hok := h.conn c conn hc
  have hwritten : conn.down.sent ++ (buf.drop off).take n = buf.take (off + n) := by
    rw [hsent, List.take_add]
  have hwrite : InvBut role peer (some (.server j)) (s.modifyConn c fun conn =>
      { conn with down := conn.down.write ((buf.drop off).take n) }) := by
    refine h.forget.modify hc ⟨rfl, rfl, id, .refl _, ByteStream.grows_write _ _⟩
      ⟨hok.client, ?_, fun _ => hserver ▸ hmem, fun hfresh => ?_⟩
      (fun _ _ _ => ⟨rfl, ByteStream.write_received⟩) fun hne => absurd (by rw [hserver]) hne
    · show conn.down.sent ++ (buf.drop off).take n <+: tcpAck (role conn.server) ++ [10]
      rw [hwritten, hserver, hbuf]
      exact List.take_prefix _ _
    · exact absurd (haccepted.symm.trans hfresh) (by decide)
  have hc' := modifyConn_conns hc fun conn =>
    { conn with down := conn.down.write ((buf.drop off).take n) }
  split_ifs with hmore
  · exact hwrite.serverAt ⟨hbuf, hmem, _, hc', hserver, haccepted, hwritten⟩
  · have hwhole : buf.take (off + n) = buf := List.take_of_length_le (by omega)
    have hsaid : tcpAck (role j) ++ [10] <+: conn.down.sent ++ (buf.drop off).take n := by
      rw [hwritten, hwhole, hbuf]
    exact (hwrite.print (e := .serverAck j c) ⟨hmem, _, hc', hserver, hsaid⟩).serverExit c fun _ =>
      ⟨c, List.mem_append_right _ (List.mem_singleton_self _)⟩

/-! ### Steps of the parent -/

theorem InvBut.cleanupChild (h : InvBut role peer free s) (i : ι) :
    InvBut role peer free (s.cleanupChild i) := by
  unfold TcpEachServer.cleanupChild
  split
  · exact h.setServer trivial
  · exact (h.closeDown _).setServer trivial
  · exact (h.closeDown _).setServer trivial
  all_goals exact h

theorem InvBut.giveUp (h : InvBut role peer (some (.client i)) s) (c : ℕ) :
    Inv role peer (s.giveUp i c) :=
  ((h.closeUp c).cleanupChild i).clientAt nofun

theorem InvBut.clientFail (h : Inv role peer s) (hs : s.clientFail i = some s') :
    Inv role peer s' := by
  unfold TcpEachServer.clientFail at hs
  split at hs <;> cases hs
  · exact h.forget.clientAt nofun
  · exact h.forget.clientAt nofun
  · exact (h.forget.cleanupChild i).clientAt nofun
  · exact h.forget.giveUp _
  · exact h.forget.giveUp _

theorem InvBut.clientKilled (h : Inv role peer s) (hs : s.clientKilled i = some s') :
    Inv role peer s' := by
  unfold TcpEachServer.clientKilled at hs
  split at hs <;> cases hs
  exact (h.forget.closeUp _).clientAt nofun

theorem InvBut.startNode {r : String} (h : Inv role peer s) (hs : s.startNode r i = some s') :
    Inv role peer s' := by
  unfold TcpEachServer.startNode at hs
  split at hs
  · split_ifs at hs <;> cases hs
    · have hlisten : InvBut role peer (some (.client i)) (s.setServer i .accepting) :=
        h.forget.setServer trivial
      exact hlisten.clientAt trivial
    · exact h.forget.clientAt nofun
  · cases hs

theorem InvBut.connect (h : Inv role peer s) (hm : roleMessages (role i) = some m)
    (hs : s.connect m (peer i) i = some s') : Inv role peer s' := by
  unfold TcpEachServer.connect at hs
  split at hs
  · split_ifs at hs
    have hadd : InvBut role peer (some (.client i)) (s.addConn (some i) (peer i)) :=
      h.forget.addConn fun _ heq => by cases heq; rfl
    dsimp only at hs
    split at hs <;> rename_i hgreeting <;> cases hs
    · exact hadd.giveUp _
    · refine hadd.clientAt ⟨?_, _, List.getElem?_concat_length, rfl, rfl, rfl⟩
      rw [tcpGreeting_eq hm, sendLine_inv hgreeting]
  · cases hs

omit [DecidableEq ι] in
theorem InvBut.abandon (h : Inv role peer s) (hs : s.abandon (peer i) i = some s') :
    Inv role peer s' := by
  unfold TcpEachServer.abandon at hs
  split at hs
  · split_ifs at hs
    cases hs
    exact (h.addConn fun _ heq => by cases heq; rfl).closeUp _
  · cases hs

theorem InvBut.clientSend {n : ℕ} (h : Inv role peer s) (hs : s.clientSend i n = some s') :
    Inv role peer s' := by
  unfold TcpEachServer.clientSend at hs
  split at hs
  case h_2 => cases hs
  rename_i c buf off hpc
  split at hs
  case isFalse => cases hs
  obtain rfl := Option.some.inj hs
  have hknows := h.client i nofun
  rw [hpc] at hknows
  obtain ⟨hbuf, conn, hc, hclient, hsent, hreceived⟩ := hknows
  have hok := h.conn c conn hc
  have hwritten : conn.up.sent ++ (buf.drop off).take n = buf.take (off + n) := by
    rw [hsent, List.take_add]
  have hwrite : InvBut role peer (some (.client i)) (s.modifyConn c fun conn =>
      { conn with up := conn.up.write ((buf.drop off).take n) }) := by
    refine h.forget.modify hc ⟨rfl, rfl, id, ByteStream.grows_write _ _, .refl _⟩
      ⟨fun k hk => ⟨(hok.client k hk).1, ?_⟩, hok.down, hok.served, fun hfresh => ?_⟩
      (fun k hk hne => ?_) fun _ => ⟨ByteStream.write_received, rfl⟩
    · obtain rfl : i = k := Option.some.inj (hclient.symm.trans hk)
      show conn.up.sent ++ (buf.drop off).take n <+: tcpGreeting (role i) ++ [10]
      rw [hwritten, hbuf]
      exact List.take_prefix _ _
    · exact (hok.fresh hfresh).imp ByteStream.write_received.trans id
    · obtain rfl : i = k := Option.some.inj (hclient.symm.trans hk)
      exact absurd rfl hne
  have hc' := modifyConn_conns hc fun conn =>
    { conn with up := conn.up.write ((buf.drop off).take n) }
  split_ifs with hmore
  · exact hwrite.clientAt ⟨hbuf, _, hc', hclient, hwritten, hreceived⟩
  · have hwhole : buf.take (off + n) = buf := List.take_of_length_le (by omega)
    have hsaid : tcpGreeting (role i) ++ [10] <+: conn.up.sent ++ (buf.drop off).take n := by
      rw [hwritten, hwhole, hbuf]
    exact (hwrite.print (e := .clientSent i c) ⟨_, hc', hclient, hsaid⟩).clientAt
      ⟨List.mem_append_right _ (List.mem_singleton_self _), _, hc', hclient, hreceived⟩

theorem InvBut.clientLine (h : InvBut role peer (some (.client i)) s)
    (hm : roleMessages (role i) = some m) {line : List UInt8} (hc : s.conns[c]? = some conn)
    (hclient : conn.client = some i) (hsent : .clientSent i c ∈ s.log)
    (hline : cString line <+: conn.down.received) : Inv role peer (s.clientLine m i c line) := by
  unfold TcpEachServer.clientLine
  split_ifs with hexpected
  · rw [hexpected] at hline
    have hok := h.conn c conn hc
    -- something has come, so the server has read the greeting
    have hserved : .serverReceived (peer i) c ∈ s.log := by
      rw [← (hok.client i hclient).1]
      refine hok.served fun hempty => expectedClientAck_ne hm ?_
      exact List.prefix_nil.1 (hempty ▸ hline.trans conn.down.received_prefix)
    have hprinted := h.print (e := .clientReceivedAck i c)
      ⟨hsent, hserved, conn, hc, hclient, m, hm, hline⟩
    exact (hprinted.closeUp c).clientAt ⟨c, List.mem_append_right _ (List.mem_singleton_self _)⟩
  · exact h.giveUp c

theorem InvBut.clientRecv (h : Inv role peer s) (hm : roleMessages (role i) = some m)
    (hs : s.clientRecv m i = some s') : Inv role peer s' := by
  unfold TcpEachServer.clientRecv at hs
  split at hs
  case h_2 => cases hs
  rename_i c buf hpc
  obtain ⟨conn, hc, hs⟩ := Option.bind_eq_some_iff.1 hs
  obtain ⟨⟨r, down⟩, hread, rfl⟩ := Option.map_eq_some_iff.1 hs
  have hknows := h.client i nofun
  rw [hpc] at hknows
  obtain ⟨hmem, conn₀, hc₀, hclient, rfl⟩ := hknows
  obtain rfl : conn = conn₀ := Option.some.inj (hc.symm.trans hc₀)
  have hok := h.conn c conn hc
  have hsent := ByteStream.read_sent hread
  have hread' : InvBut role peer (some (.client i))
      (s.modifyConn c fun conn => { conn with down := down }) := by
    refine h.forget.modify hc ⟨rfl, rfl, id, .refl _, ByteStream.grows_read hread⟩
      ⟨hok.client, hsent ▸ hok.down, fun hne => hok.served (hsent ▸ hne),
        fun hfresh => (hok.fresh hfresh).imp id fun hempty => hsent.trans hempty⟩
      (fun k hk hne => ?_) fun _ => ⟨rfl, hsent⟩
    obtain rfl : i = k := Option.some.inj (hclient.symm.trans hk)
    exact absurd rfl hne
  have hc' := modifyConn_conns hc fun conn => { conn with down := down }
  dsimp only
  split <;> rename_i hnext
  · exact hread'.clientAt ⟨hmem, _, hc', hclient, recvLineNext_more hread hnext⟩
  · exact hread'.clientLine hm hc' hclient hmem (recvLineNext_starts hread hnext)
  · exact hread'.giveUp c

theorem InvBut.wait (h : Inv role peer s) (hs : s.wait i = some s') : Inv role peer s' := by
  unfold TcpEachServer.wait at hs
  split at hs
  · rename_i status hclient hserver
    have hwaits := h.client i nofun
    have hexits := h.server i nofun
    rw [hclient] at hwaits
    rw [hserver] at hexits
    split_ifs at hs with hstatus <;> cases hs
    · exact (h.forget.print (e := .pass i) ⟨hwaits, hexits hstatus⟩).clientAt fun _ =>
        List.mem_append_right _ (List.mem_singleton_self _)
    · exact h.forget.clientAt nofun
  · cases hs
    exact h.forget.clientAt nofun
  · cases hs

/-! ### Runs -/

omit [DecidableEq ι] in
theorem InvBut.stray (h : Inv role peer s) {f : TcpConn ι → TcpConn ι}
    (hf : ∀ conn, (f conn).client = conn.client ∧ (f conn).server = conn.server ∧
      (f conn).accepted = conn.accepted ∧ conn.up.Grows (f conn).up ∧
      (f conn).up.received = conn.up.received ∧ (f conn).down = conn.down)
    (hs : s.stray c f = some s') : Inv role peer s' := by
  obtain ⟨conn, hc, hs⟩ := Option.bind_eq_some_iff.1 hs
  split_ifs at hs with hclient
  cases hs
  obtain ⟨hsame, hserver, haccepted, hup, hreceived, hdown⟩ := hf conn
  have hok := h.conn c conn hc
  rw [hclient] at hsame
  refine h.modify hc ⟨hsame.trans hclient.symm, hserver, haccepted.trans, hup, hdown ▸ .refl _⟩
    ⟨fun i hi => (nomatch hsame.symm.trans hi), ?_, ?_, ?_⟩
    (fun i hi => (nomatch hclient.symm.trans hi)) fun _ => ⟨hreceived, by rw [hdown]⟩
  · rw [hdown, hserver]
    exact hok.down
  · rw [hdown, hserver]
    exact hok.served
  · rw [hdown, haccepted, hreceived]
    exact hok.fresh

theorem InvBut.act {a : TcpAction ι} (h : Inv role peer s) (hs : s.act role peer a = some s') :
    Inv role peer s' := by
  cases a with
  | start i => exact InvBut.startNode h hs
  | connect i =>
    obtain ⟨m, hm, hs⟩ := Option.bind_eq_some_iff.1 hs
    exact InvBut.connect h hm hs
  | abandon i => exact InvBut.abandon h hs
  | clientSend i n => exact InvBut.clientSend h hs
  | clientRecv i =>
    obtain ⟨m, hm, hs⟩ := Option.bind_eq_some_iff.1 hs
    exact InvBut.clientRecv h hm hs
  | wait i => exact InvBut.wait h hs
  | accept i c => exact InvBut.accept h hs
  | serverRecv i =>
    obtain ⟨m, hm, hs⟩ := Option.bind_eq_some_iff.1 hs
    exact InvBut.serverRecv h hm hs
  | serverSend i n => exact InvBut.serverSend h hs
  | clientFail i => exact InvBut.clientFail h hs
  | clientKilled i => exact InvBut.clientKilled h hs
  | serverFail i => exact InvBut.serverFail h hs
  | strayConnect i =>
    simp only [TcpEachServer.act] at hs
    split_ifs at hs
    cases hs
    exact h.addConn nofun
  | strayWrite c chunk =>
    refine InvBut.stray h (fun conn => ?_) hs
    exact ⟨rfl, rfl, rfl, ByteStream.grows_write _ _, ByteStream.write_received, rfl⟩
  | strayClose c =>
    refine InvBut.stray h (fun conn => ?_) hs
    exact ⟨rfl, rfl, rfl, ByteStream.grows_close _, rfl, rfl⟩

omit [DecidableEq ι] in
theorem initial_inv (role : ι → String) (peer : ι → ι) : Inv role peer initial where
  conn _ _ hc := nomatch hc
  event _ he := absurd he List.not_mem_nil
  order _ _ := before_of_not_mem List.not_mem_nil
  client _ _ := trivial
  server _ _ := trivial

theorem run_inv {actions : List (TcpAction ι)}
    (hrun : LTS.run (act role peer) initial actions = some s) : Inv role peer s :=
  LTS.run_invariant (fun _ _ _ h hs => InvBut.act h hs) (initial_inv role peer) hrun

end Rules

/-! ### A pass -/

variable {s : TcpEachServer ι}

/-- Node `i` has greeted the server of its peer, which has read the greeting and has answered. -/
structure Greeted (role : ι → String) (peer : ι → ι) (s : TcpEachServer ι) (i : ι) (c : ℕ)
    (conn : TcpConn ι) : Prop where
  found : s.conns[c]? = some conn
  client : conn.client = some i
  server : conn.server = peer i
  roles : OppositeRoles (role i) (role (peer i))
  greeting : conn.up.sent = tcpGreeting (role i) ++ [10]
  heard : tcpGreeting (role i) <+: conn.up.received
  ack : tcpAck (role (peer i)) <+: conn.down.received
  order : Before (.serverReceived (peer i) c) (.clientReceivedAck i c) s.log
  event : .clientReceivedAck i c ∈ s.log

/-- The server of node `i` has read the greeting of the other role, and has answered.  The greeting
comes from a node with this role, unless another host has connected. -/
structure Answered (role : ι → String) (peer : ι → ι) (s : TcpEachServer ι) (i : ι) (c : ℕ)
    (conn : TcpConn ι) : Prop where
  found : s.conns[c]? = some conn
  server : conn.server = i
  client : conn.client = none ∨ ∃ j, conn.client = some j ∧ peer j = i ∧
    OppositeRoles (role i) (role j)
  heard : ∃ r, OppositeRoles (role i) r ∧ tcpGreeting r <+: conn.up.received
  ack : conn.down.sent = tcpAck (role i) ++ [10]

theorem InvBut.greeted (h : Inv role peer s) (hack : .clientReceivedAck i c ∈ s.log) :
    ∃ conn, Greeted role peer s i c conn := by
  obtain ⟨hsent, hserved, conn, hc, hclient, m, hm, hreceived⟩ := h.event _ hack
  have hok := h.conn c conn hc
  obtain ⟨hserver, hgreeting⟩ := hok.client i hclient
  have hroles : OppositeRoles (role i) (role (peer i)) := by
    refine opposite_of_ack hm ?_
    rw [← hserver]
    exact (hreceived.trans conn.down.received_prefix).trans hok.down
  obtain ⟨conn₁, hc₁, -, m₁, hm₁, hheard⟩ := h.event _ hserved
  obtain rfl : conn = conn₁ := Option.some.inj (hc.symm.trans hc₁)
  obtain ⟨conn₂, hc₂, -, hwhole⟩ := h.event _ hsent
  obtain rfl : conn = conn₂ := Option.some.inj (hc.symm.trans hc₂)
  rw [expectedServerMsg_eq hm₁ hroles.symm] at hheard
  rw [expectedClientAck_eq hm hroles] at hreceived
  exact ⟨conn, hc, hclient, hserver, hroles, hgreeting.eq_of_length_le hwhole.length_le, hheard, hreceived,
    h.order i c, hack⟩

theorem InvBut.answered (h : Inv role peer s) (hack : .serverAck i c ∈ s.log) :
    ∃ conn, Answered role peer s i c conn := by
  obtain ⟨hserved, conn, hc, hserver, hwhole⟩ := h.event _ hack
  have hok := h.conn c conn hc
  obtain ⟨conn₁, hc₁, -, m, hm, hheard⟩ := h.event _ hserved
  obtain rfl : conn = conn₁ := Option.some.inj (hc.symm.trans hc₁)
  have hother : ∃ r, OppositeRoles (role i) r := by
    rcases roleMessages_inv hm with hrole | hrole <;> rw [hrole]
    · exact ⟨"nodeB", .inl ⟨rfl, rfl⟩⟩
    · exact ⟨"nodeA", .inr ⟨rfl, rfl⟩⟩
  refine ⟨conn, hc, hserver, ?_, ?_, ?_⟩
  · cases hclient : conn.client with
    | none => exact .inl rfl
    | some j =>
      obtain ⟨hpeer, hsent⟩ := hok.client j hclient
      exact .inr ⟨j, rfl, hpeer.symm.trans hserver,
        opposite_of_greeting hm ((hheard.trans conn.up.received_prefix).trans hsent)⟩
  · obtain ⟨r, hr⟩ := hother
    exact ⟨r, hr, expectedServerMsg_eq hm hr ▸ hheard⟩
  · have hdown := hok.down
    rw [hserver] at hdown
    exact hdown.eq_of_length_le hwhole.length_le

/-- **What a pass means.**  If a node passes, then its greeting has reached the server of its peer
before the acknowledgment came, the peer has the other role, and its own server has answered a
greeting of the other role. -/
theorem pass_agreement [DecidableEq ι] {actions : List (TcpAction ι)}
    (hrun : LTS.run (act role peer) initial actions = some s)
    (hpass : (s.node i).client = .returned 0) :
    (∃ c conn, Greeted role peer s i c conn) ∧ ∃ c conn, Answered role peer s i c conn := by
  have hinv := run_inv hrun
  have hknows := hinv.client i nofun
  rw [hpass] at hknows
  obtain ⟨⟨c, hack⟩, c', hserved⟩ := hinv.event _ (hknows rfl)
  exact ⟨⟨c, hinv.greeted hack⟩, c', hinv.answered hserved⟩

/-- Two nodes that greet each other at the same time.  The greeting of the second one comes in two
pieces. -/
def twoNodesRun : List (TcpAction Bool) :=
  [.start false, .start true, .connect true, .connect false, .clientSend true 5, .accept false 0,
    .clientSend false 28, .accept true 1, .serverRecv false, .clientSend true 23] ++
    List.replicate 27 (.serverRecv false) ++ List.replicate 28 (.serverRecv true) ++
    [.serverSend true 26, .serverSend false 26] ++ List.replicate 26 (.clientRecv false) ++
    [.wait false] ++ List.replicate 26 (.clientRecv true) ++ [.wait true]

def sampleRole : Bool → String
  | false => "nodeA"
  | true => "nodeB"

theorem pass_agreement_twoNodesRun :
    ∃ s, LTS.run (act sampleRole not) initial twoNodesRun = some s ∧
      ∀ i, (s.node i).client = .returned 0 ∧ (∃ c conn, Greeted sampleRole not s i c conn) ∧
        ∃ c conn, Answered sampleRole not s i c conn := by
  have hany : (LTS.run (act sampleRole not) initial twoNodesRun).any (fun s =>
      ∀ i, (s.node i).client = .returned 0) = true := by
    decide +kernel
  obtain ⟨s, hrun, hpcs⟩ := (Option.any_eq_true _ _).1 hany
  exact ⟨s, hrun, fun i => ⟨of_decide_eq_true hpcs i, pass_agreement hrun (of_decide_eq_true hpcs i)⟩⟩

/-- A connection that its client has given up uses up the only `accept` of the server. -/
example : (LTS.run (act sampleRole not) initial
    [.start false, .start true, .abandon true, .connect true, .accept false 0,
      .serverRecv false]).any (fun s => (s.node false).server = .exited 1) = true := by
  decide +kernel

end TcpEachServer

end LinquUb
