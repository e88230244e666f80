import LinquUb.LTS.SeenTable
import LinquUb.Guest.RpcMessage
import Mathlib.Data.List.Infix

/-!
# The RPC server of the RPC demo

`run_rpc_server` of `ub_rpc_demo.c`: the operations, the table of the requests seen so far, and the
receive loop.

* `runRpcServer` : the loop, on the results of `recvfrom` in order;
* `RpcServer.Seen` : the table of the server is a table of bounded size;
* `runRpcServer_first` : the first request of its key is executed;
* `requests_executed_once` : **a request is executed once and its duplicates get the answer from the
  table, if it is among the first 256 distinct requests; any other is executed whenever it arrives**.
-/

namespace LinquUb

/-! ### Operations -/

/-- What an iteration reads from its surroundings. -/
structure RpcEnv where
  /-- `(now_ms() - start_ms) / 1000`. -/
  elapsedS : ℤ
  /-- What `read_meminfo` writes, if it succeeds. -/
  meminfo : Option CString

def crcBit (crc : UInt32) : UInt32 :=
  if crc &&& 1 ≠ 0 then (crc >>> 1) ^^^ 0xedb88320 else crc >>> 1

def crc32Ieee (data : CString) : UInt32 :=
  data.foldl (fun crc byte => crcBit^[8] (crc ^^^ byte.toUInt32)) 0xffffffff ^^^ 0xffffffff

/-- `0x%08x`. -/
def hex32 (n : UInt32) : CString :=
  let digits := (Nat.toDigits 16 n.toNat).map (·.toUInt8)
  ascii "0x" ++ List.replicate (8 - digits.length) 48 ++ digits

/-- Overflow wraps around, as on the target; a division by zero fails. -/
def computeOp (op : UInt8) (a b : Int64) : Option Int64 :=
  if op = 43 then some (a + b)
  else if op = 45 then some (a - b)
  else if op = 42 then some (a * b)
  else if op = 47 then if b = 0 then none else some (a / b)
  else none

def computeEval (expr : CString) : Option Int64 := do
  let (a, p) ← strtol (expr.dropWhile fun c => c = 32 ∨ c = 9)
  match p.dropWhile (· = 32) with
  | [] => none
  | op :: p =>
    let (b, _) ← strtol (p.dropWhile (· = 32))
    computeOp op (.ofInt a) (.ofInt b)

/-- What a request is answered when it is executed. -/
def rpcExecute (req : RpcRequest) (rpcCount : UInt32) (env : RpcEnv) : CString :=
  snprintfStr 512 <|
    if req.op = ascii "ECHO" then req.payload
    else if req.op = ascii "CRC32" then hex32 (crc32Ieee req.payload)
    else if req.op = ascii "COMPUTE" then
      match computeEval req.payload with
      | some result => decimal result.toInt
      | none => ascii "ERR"
    else if req.op = ascii "STATUS" then
      ascii "rpcs:" ++ decimal rpcCount.toNat ++ ascii " uptime:" ++ decimal env.elapsedS ++ ascii "s"
    else if req.op = ascii "MEMINFO" then env.meminfo.getD (ascii "ERR")
    else ascii "UNKNOWN_OP"

/-! ### The server -/

def rpcServerMaxSeen : ℕ := 256

structure RpcSeenEntry where
  valid : Bool
  peerIp : CString
  msgId : Int32
  op : CString
  rspPayload : CString
deriving DecidableEq, Repr

def RpcSeenEntry.blank : RpcSeenEntry :=
  { valid := false, peerIp := [], msgId := 0, op := [], rspPayload := [] }

structure RpcServer where
  seen : List RpcSeenEntry
  rpcCount : UInt32

def RpcServer.start : RpcServer :=
  { seen := List.replicate rpcServerMaxSeen .blank, rpcCount := 0 }

/-- What tells requests apart: the peer, the message id and the operation. -/
abbrev RpcKey := CString × Int32 × CString

/-- The scan of the table from entry `i` on.  Returns the entry of the request and `true`, or else
the first free entry and `false`. -/
def findSlot (key : RpcKey) : List RpcSeenEntry → ℕ → Option ℕ → Option ℕ × Bool
  | [], _, slot => (slot, false)
  | e :: es, i, slot =>
    if e.valid = false then findSlot key es (i + 1) (slot <|> some i)
    else if e.msgId = key.2.1 ∧ e.peerIp = key.1 ∧ e.op = key.2.2 then (some i, true)
    else findSlot key es (i + 1) slot

/-- What the server did with a request. -/
structure RpcCall where
  key : RpcKey
  duplicate : Bool
  rspPayload : CString
  /-- The packet that was sent to the peer. -/
  sent : Option CString

def RpcServer.recordAt (s : RpcServer) (slot : Option ℕ) (entry : RpcSeenEntry) :
    List RpcSeenEntry :=
  match slot with
  | some i => s.seen.set i entry
  | none => s.seen

def RpcServer.handle (s : RpcServer) (peerIp : CString) (req : RpcRequest) (env : RpcEnv) :
    RpcCall × RpcServer :=
  let key := (peerIp, req.msgId, req.op)
  let (slot, duplicate) := findSlot key s.seen 0 none
  if duplicate then
    let rspPayload := snprintfStr 512 ((slot.bind (s.seen[·]?)).getD .blank).rspPayload
    (⟨key, true, rspPayload, rpcBuildResponse 1024 req.msgId (ascii "OK") rspPayload⟩, s)
  else
    let rspPayload := rpcExecute req s.rpcCount env
    let entry := {
      valid := true
      peerIp := snprintfStr 16 peerIp
      msgId := req.msgId
      op := snprintfStr 64 req.op
      rspPayload := snprintfStr 512 rspPayload }
    (⟨key, false, rspPayload, rpcBuildResponse 1024 req.msgId (ascii "OK") rspPayload⟩,
      { seen := s.recordAt slot entry, rpcCount := s.rpcCount + 1 })

/-- An IPv4 address. -/
structure InAddr where
  (a b c d : UInt8)

/-- `inet_ntop`. -/
def InAddr.ntop (addr : InAddr) : CString :=
  decimal addr.a.toNat ++ ascii "." ++ decimal addr.b.toNat ++ ascii "." ++ decimal addr.c.toNat ++
    ascii "." ++ decimal addr.d.toNat

/-- A result of `recvfrom`. -/
inductive RpcRecv
  /-- Nothing has arrived. -/
  | again
  | failed
  | packet (src : InAddr) (data : List UInt8) (env : RpcEnv)

/-- The request in a packet: the buffer holds 1023 bytes and a zero. -/
def RpcRecv.request : RpcRecv → Option (InAddr × RpcRequest × RpcEnv)
  | .packet src data env => do
    let req ← rpcParseRequest (cString (data.take 1023)) 64 512
    return (src, req, env)
  | _ => none

def RpcRecv.key (r : RpcRecv) : Option RpcKey :=
  r.request.map fun (src, req, _) => (src.ntop, req.msgId, req.op)

/-- The loop, until the alarm fires after the given results. -/
def runRpcServer (expectedCalls : UInt32) (s : RpcServer) : List RpcRecv → List RpcCall × RpcServer
  | [] => ([], s)
  | .failed :: _ => ([], s)
  | r :: rs =>
    match r.request with
    | none => runRpcServer expectedCalls s rs
    | some (src, req, env) =>
      let (call, s) := s.handle src.ntop req env
      if call.duplicate = false ∧ expectedCalls > 0 ∧ s.rpcCount ≥ expectedCalls then ([call], s)
      else
        let (calls, s) := runRpcServer expectedCalls s rs
        (call :: calls, s)

/-! ### The table -/

/-- The entry of an answered request. -/
def RpcSeenEntry.ofAnswer (e : RpcKey × CString) : RpcSeenEntry :=
  { valid := true, peerIp := e.1.1, msgId := e.1.2.1, op := e.1.2.2, rspPayload := e.2 }

variable {key : RpcKey} {table : List (RpcKey × CString)}

theorem findSlot_blank (key : RpcKey) (n i : ℕ) (slot : Option ℕ) :
    findSlot key (List.replicate n .blank) i slot =
      (slot <|> if n = 0 then none else some i, false) := by
  induction n generalizing i slot with
  | zero => simp [findSlot]
  | succ n ih =>
    have hblank : RpcSeenEntry.blank.valid = false := rfl
    rw [List.replicate_succ, findSlot, if_pos hblank, ih]
    cases slot <;> simp

/-- Another request's entry is passed over. -/
theorem findSlot_other {e : RpcKey × CString} (hkey : e.1 ≠ key) (es : List RpcSeenEntry) (i : ℕ) :
    findSlot key (.ofAnswer e :: es) i none = findSlot key es (i + 1) none := by
  have hvalid : ¬(RpcSeenEntry.ofAnswer e).valid = false := by simp [RpcSeenEntry.ofAnswer]
  rw [findSlot, if_neg hvalid, if_neg]
  rintro ⟨hid, hpeer, hop⟩
  exact hkey (Prod.ext hpeer (Prod.ext hid hop))

/-- The scan of a table that has the request. -/
theorem findSlot_hit {e : RpcKey × CString} (hfind : table.find? (·.1 = key) = some e)
    (blanks : List RpcSeenEntry) (i : ℕ) :
    ∃ j, (table.map RpcSeenEntry.ofAnswer)[j]? = some (.ofAnswer e) ∧
      findSlot key (table.map .ofAnswer ++ blanks) i none = (some (i + j), true) := by
  induction table generalizing i with
  | nil => cases hfind
  | cons e' table ih =>
    rw [List.map_cons, List.cons_append]
    by_cases hkey : e'.1 = key
    · rw [List.find?_cons_of_pos (by simpa using hkey)] at hfind
      cases hfind
      subst hkey
      exact ⟨0, rfl, by simp [findSlot, RpcSeenEntry.ofAnswer]⟩
    · rw [List.find?_cons_of_neg (by simpa using hkey)] at hfind
      obtain ⟨j, hj, hscan⟩ := ih hfind (i + 1)
      refine ⟨j + 1, hj, ?_⟩
      rw [findSlot_other hkey, hscan, Nat.add_assoc, Nat.add_comm 1]

/-- The scan of a table that does not have the request finds the first free entry. -/
theorem findSlot_miss (hfind : table.find? (·.1 = key) = none) (n i : ℕ) :
    findSlot key (table.map .ofAnswer ++ List.replicate n .blank) i none =
      (if n = 0 then none else some (i + table.length), false) := by
  induction table generalizing i with
  | nil => simp [findSlot_blank]
  | cons e' table ih =>
    rw [List.find?_cons] at hfind
    split at hfind
    · cases hfind
    · rename_i hkey
      rw [List.map_cons, List.cons_append, findSlot_other (by simpa using hkey), ih hfind,
        List.length_cons, Nat.add_assoc, Nat.add_comm 1]

/-- The server keeps this table. -/
structure RpcServer.Seen (s : RpcServer) (table : List (RpcKey × CString)) : Prop where
  entries : s.seen = table.map .ofAnswer ++
    List.replicate (rpcServerMaxSeen - table.length) .blank
  fits : ∀ e ∈ table, e.2.length < 512

/-- The call, as a call of a server with a bounded table. -/
def RpcCall.seenCall (c : RpcCall) : SeenCall RpcKey CString := ⟨c.key, !c.duplicate, c.rspPayload⟩

theorem RpcCall.map_seenCall (calls : List RpcCall) :
    (calls.map (·.seenCall)).map (·.key) = calls.map (·.key) := by
  rw [List.map_map]
  rfl

theorem rpcExecute_length (req : RpcRequest) (rpcCount : UInt32) (env : RpcEnv) :
    (rpcExecute req rpcCount env).length < 512 :=
  snprintfStr_length _ (by decide)

/-- One request. -/
theorem RpcServer.Seen.handle {s : RpcServer} (h : s.Seen table)
    (hlen : table.length ≤ rpcServerMaxSeen) {peerIp : CString} {req : RpcRequest}
    (hpeer : peerIp.length < 16) (hop : req.op.length < 64) (env : RpcEnv) :
    (s.handle peerIp req env).1.seenCall =
        (SeenTable.handle rpcServerMaxSeen table (peerIp, req.msgId, req.op)
          (rpcExecute req s.rpcCount env)).1 ∧
      (s.handle peerIp req env).2.Seen
        (SeenTable.handle rpcServerMaxSeen table (peerIp, req.msgId, req.op)
          (rpcExecute req s.rpcCount env)).2 := by
  unfold SeenTable.handle
  cases hfind : table.find? (·.1 = (peerIp, req.msgId, req.op)) with
  | some e =>
    obtain ⟨j, hj, hscan⟩ := findSlot_hit hfind
      (List.replicate (rpcServerMaxSeen - table.length) .blank) 0
    rw [← h.entries, Nat.zero_add] at hscan
    have hentry : s.seen[j]? = some (.ofAnswer e) := by
      have hlt := (List.getElem?_eq_some_iff.1 hj).1
      rw [h.entries, List.getElem?_append_left hlt, hj]
    have hcopy : snprintfStr 512 (RpcSeenEntry.ofAnswer e).rspPayload = e.2 :=
      snprintfStr_eq (h.fits e (List.mem_of_find?_eq_some hfind))
    simp only [RpcServer.handle, hscan, if_true, Option.bind_some, hentry, Option.getD_some, hcopy]
    exact ⟨rfl, h⟩
  | none =>
    have hscan := findSlot_miss hfind (rpcServerMaxSeen - table.length) 0
    rw [← h.entries, Nat.zero_add] at hscan
    simp only [RpcServer.handle, hscan, Bool.false_eq_true, if_false]
    refine ⟨rfl, ?_⟩
    rw [snprintfStr_eq hpeer, snprintfStr_eq hop, snprintfStr_eq (rpcExecute_length ..)]
    split_ifs with hfull hroom hroom
    · omega
    · exact ⟨h.entries, h.fits⟩
    · constructor
      · -- the first free entry is the one behind the table
        obtain ⟨n, hn⟩ := Nat.exists_eq_succ_of_ne_zero hfull
        have hn' : rpcServerMaxSeen - (table.length + 1) = n := by omega
        simp only [RpcServer.recordAt, h.entries, hn, List.replicate_succ, List.map_append,
          List.length_append, List.length_singleton, hn', List.map_singleton, List.append_assoc]
        rw [List.set_append_right _ _ (by simp)]
        simp [RpcSeenEntry.ofAnswer]
      · intro e he
        rcases List.mem_append.1 he with hold | hlast
        · exact h.fits e hold
        · obtain rfl := List.mem_singleton.1 hlast
          exact rpcExecute_length ..
    · omega

/-! ### The loop -/

/-- The server after the calls so far. -/
structure RpcServer.Inv (s : RpcServer) (calls : List RpcCall) : Prop where
  seen : ∃ table, s.Seen table ∧ SeenTable.Inv rpcServerMaxSeen table (calls.map (·.seenCall))
  count : s.rpcCount = .ofNat (calls.countP (·.duplicate = false))
  answered : ∀ c ∈ calls, c.sent.isSome ∧
    c.sent = rpcBuildResponse 1024 c.key.2.1 (ascii "OK") c.rspPayload

theorem RpcServer.start_inv : RpcServer.start.Inv [] :=
  ⟨⟨[], ⟨rfl, by simp⟩, .nil⟩, rfl, by simp⟩

theorem InAddr.ntop_length (addr : InAddr) : addr.ntop.length < 16 := by
  have hbyte : ∀ n : UInt8, (decimal n.toNat).length ≤ 3 := by
    intro n
    have hlt := n.toNat_lt
    exact decimal_length_of_nonneg (by decide) (by simpa using lt_trans hlt (by decide)) (by omega)
  have hdot : (ascii ".").length = 1 := by decide
  have ha := hbyte addr.a
  have hb := hbyte addr.b
  have hc := hbyte addr.c
  have hd := hbyte addr.d
  simp only [InAddr.ntop, List.length_append, hdot]
  omega

theorem RpcServer.handle_count (s : RpcServer) (peerIp : CString) (req : RpcRequest) (env : RpcEnv) :
    (s.handle peerIp req env).2.rpcCount =
      if (s.handle peerIp req env).1.duplicate then s.rpcCount else s.rpcCount + 1 := by
  rcases hscan : findSlot (peerIp, req.msgId, req.op) s.seen 0 none with ⟨slot, duplicate⟩
  cases duplicate <;> simp [RpcServer.handle, hscan]

theorem RpcServer.handle_sent (s : RpcServer) (peerIp : CString) (req : RpcRequest) (env : RpcEnv) :
    (s.handle peerIp req env).1.sent = rpcBuildResponse 1024 (s.handle peerIp req env).1.key.2.1
        (ascii "OK") (s.handle peerIp req env).1.rspPayload ∧
      (s.handle peerIp req env).1.rspPayload.length < 512 := by
  rcases hscan : findSlot (peerIp, req.msgId, req.op) s.seen 0 none with ⟨slot, duplicate⟩
  cases duplicate <;>
    simp only [RpcServer.handle, hscan, Bool.false_eq_true, if_false, if_true, true_and]
  · exact rpcExecute_length req s.rpcCount env
  · exact snprintfStr_length _ (by decide)

theorem RpcServer.handle_key (s : RpcServer) (peerIp : CString) (req : RpcRequest) (env : RpcEnv) :
    (s.handle peerIp req env).1.key = (peerIp, req.msgId, req.op) := by
  rcases hscan : findSlot (peerIp, req.msgId, req.op) s.seen 0 none with ⟨slot, duplicate⟩
  cases duplicate <;> simp [RpcServer.handle, hscan]

/-- One iteration that receives a request. -/
theorem RpcServer.Inv.handle {s : RpcServer} {calls : List RpcCall} (h : s.Inv calls)
    (src : InAddr) {req : RpcRequest} (hop : req.op.length < 64) (env : RpcEnv) :
    (s.handle src.ntop req env).2.Inv (calls ++ [(s.handle src.ntop req env).1]) := by
  obtain ⟨table, hseen, htable⟩ := h.seen
  have hlen : table.length ≤ rpcServerMaxSeen := htable.size.trans_le (min_le_left _ _)
  obtain ⟨hcall, hnext⟩ := hseen.handle hlen src.ntop_length hop env
  refine ⟨⟨_, hnext, ?_⟩, ?_, ?_⟩
  · rw [List.map_append, List.map_singleton, hcall]
    exact htable.handle _ _
  · rw [RpcServer.handle_count, List.countP_append, List.countP_singleton, h.count]
    cases (s.handle src.ntop req env).1.duplicate <;> simp
  · intro c hc
    rcases List.mem_append.1 hc with hold | hlast
    · exact h.answered c hold
    · obtain rfl := List.mem_singleton.1 hlast
      obtain ⟨hsent, hlength⟩ := s.handle_sent src.ntop req env
      exact ⟨hsent ▸ rpcBuildResponse_isSome _ hlength, hsent⟩

/-- A request that has not been handled is executed. -/
theorem RpcServer.Inv.handle_new {s : RpcServer} {calls : List RpcCall} (h : s.Inv calls)
    (src : InAddr) {req : RpcRequest} (hop : req.op.length < 64) (env : RpcEnv)
    (hnew : (src.ntop, req.msgId, req.op) ∉ calls.map (·.key)) :
    (s.handle src.ntop req env).1.duplicate = false := by
  obtain ⟨table, hseen, htable⟩ := h.seen
  have hlen : table.length ≤ rpcServerMaxSeen := htable.size.trans_le (min_le_left _ _)
  obtain ⟨hcall, -⟩ := hseen.handle hlen src.ntop_length hop env
  have hfind : table.find? (·.1 = (src.ntop, req.msgId, req.op)) = none := by
    refine List.find?_eq_none.2 fun e he heq => hnew ?_
    rw [← RpcCall.map_seenCall, ← of_decide_eq_true heq]
    exact htable.entered e he
  have hexecuted := congrArg SeenCall.executed hcall
  rw [SeenTable.handle, hfind] at hexecuted
  simpa [RpcCall.seenCall] using hexecuted

theorem RpcRecv.request_op {r : RpcRecv} {src : InAddr} {req : RpcRequest} {env : RpcEnv}
    (h : r.request = some (src, req, env)) : req.op.length < 64 := by
  cases r with
  | packet src' data env' =>
    simp only [RpcRecv.request, Option.bind_eq_bind, Option.bind_eq_some_iff, Option.pure_def,
      Option.some.injEq, Prod.mk.injEq] at h
    obtain ⟨_, hparse, -, rfl, -⟩ := h
    exact (rpcParseRequest_length (by decide) (by decide) hparse).1
  | again => cases h
  | failed => cases h

theorem runRpcServer_inv (expectedCalls : UInt32) {s : RpcServer} {calls : List RpcCall}
    (h : s.Inv calls) (received : List RpcRecv) :
    (runRpcServer expectedCalls s received).2.Inv
      (calls ++ (runRpcServer expectedCalls s received).1) := by
  fun_induction runRpcServer expectedCalls s received generalizing calls with
  | case1 => simpa using h
  | case2 => simpa using h
  | case3 s r rs _ _ ih => exact ih h
  | case4 s r rs _ src req env hreq call s' hcall =>
    have hnext := h.handle src (RpcRecv.request_op hreq) env
    rwa [hcall] at hnext
  | case5 s r rs _ src req env hreq call s' hcall _ calls' s'' hrest ih =>
    have hnext := h.handle src (RpcRecv.request_op hreq) env
    rw [hcall] at hnext
    have hrun := ih hnext
    rwa [hrest, List.append_assoc] at hrun

/-- The requests are handled in the order of their arrival. -/
theorem runRpcServer_keys (expectedCalls : UInt32) (s : RpcServer) (received : List RpcRecv) :
    (runRpcServer expectedCalls s received).1.map (·.key) <+: received.filterMap RpcRecv.key := by
  fun_induction runRpcServer expectedCalls s received with
  | case1 => exact List.nil_prefix
  | case2 => exact List.nil_prefix
  | case3 s r rs _ hreq ih =>
    rw [List.filterMap_cons_none (by rw [RpcRecv.key, hreq]; rfl)]
    exact ih
  | case4 s r rs _ src req env hreq call s' hcall =>
    have hkey := s.handle_key src.ntop req env
    rw [hcall] at hkey
    rw [List.filterMap_cons_some (b := call.key) (by rw [RpcRecv.key, hreq, hkey]; rfl)]
    exact ⟨rs.filterMap RpcRecv.key, rfl⟩
  | case5 s r rs _ src req env hreq call s' hcall _ calls' s'' hrest ih =>
    have hkey := s.handle_key src.ntop req env
    rw [hcall] at hkey
    rw [hrest] at ih
    rw [List.filterMap_cons_some (b := call.key) (by rw [RpcRecv.key, hreq, hkey]; rfl)]
    exact List.cons_prefix_cons.2 ⟨rfl, ih⟩

/-- The first request of its key is executed. -/
theorem runRpcServer_first (expectedCalls : UInt32) {s : RpcServer} {calls : List RpcCall}
    (h : s.Inv calls) (received : List RpcRecv) {before after : List RpcCall} {c : RpcCall}
    (hrun : (runRpcServer expectedCalls s received).1 = before ++ c :: after)
    (hnew : c.key ∉ (calls ++ before).map (·.key)) : c.duplicate = false := by
  fun_induction runRpcServer expectedCalls s received generalizing calls before with
  | case1 => simp at hrun
  | case2 => simp at hrun
  | case3 s r rs _ _ ih => exact ih h hrun hnew
  | case4 s r rs _ src req env hreq call s' hcall =>
    have hhandle := h.handle_new src (RpcRecv.request_op hreq) env
    have hkey := s.handle_key src.ntop req env
    rw [hcall] at hhandle hkey
    cases before with
    | nil =>
      obtain ⟨rfl, -⟩ := List.cons.inj hrun
      refine hhandle ?_
      rwa [← hkey, ← List.append_nil calls]
    | cons _ before => simp at hrun
  | case5 s r rs _ src req env hreq call s' hcall _ calls' s'' hrest ih =>
    have hhandle := h.handle_new src (RpcRecv.request_op hreq) env
    have hkey := s.handle_key src.ntop req env
    have hnext := h.handle src (RpcRecv.request_op hreq) env
    rw [hcall] at hhandle hkey hnext
    cases before with
    | nil =>
      obtain ⟨rfl, -⟩ := List.cons.inj hrun
      refine hhandle ?_
      rwa [← hkey, ← List.append_nil calls]
    | cons b before =>
      obtain ⟨rfl, htail⟩ := List.cons.inj hrun
      refine ih hnext (by rw [hrest]; exact htail) ?_
      rwa [List.append_assoc]

/-- A server without a number of calls to expect handles every request. -/
theorem runRpcServer_zero_keys (s : RpcServer) {received : List RpcRecv}
    (hfailed : RpcRecv.failed ∉ received) :
    (runRpcServer 0 s received).1.map (·.key) = received.filterMap RpcRecv.key := by
  fun_induction runRpcServer 0 s received with
  | case1 => rfl
  | case2 => simp at hfailed
  | case3 s r rs _ hreq ih =>
    rw [List.filterMap_cons_none (by rw [RpcRecv.key, hreq]; rfl)]
    exact ih fun hmem => hfailed (List.mem_cons_of_mem _ hmem)
  | case4 s r rs _ src req env hreq call s' hcall hstop =>
    exact absurd hstop.2.1 (by decide)
  | case5 s r rs _ src req env hreq call s' hcall _ calls' s'' hrest ih =>
    have hkey := s.handle_key src.ntop req env
    rw [hcall] at hkey
    rw [hrest] at ih
    rw [List.filterMap_cons_some (b := call.key) (by rw [RpcRecv.key, hreq, hkey]; rfl),
      List.map_cons, ih fun hmem => hfailed (List.mem_cons_of_mem _ hmem)]

/-- What a repeated request gets. -/
theorem runRpcServer_repeated (expectedCalls : UInt32) (received : List RpcRecv) :
    (runRpcServer expectedCalls .start received).1.Pairwise fun c d => c.key = d.key →
      if distinctBefore ((runRpcServer expectedCalls .start received).1.map (·.key)) c.key <
        rpcServerMaxSeen
      then d.duplicate = true ∧ d.rspPayload = c.rspPayload
      else d.duplicate = false := by
  obtain ⟨table, -, htable⟩ := (runRpcServer_inv expectedCalls RpcServer.start_inv received).seen
  have hrepeated := htable.repeated
  rw [List.nil_append, RpcCall.map_seenCall, List.pairwise_map] at hrepeated
  refine hrepeated.imp fun {c d} hcd heq => ?_
  simpa [RpcCall.seenCall] using hcd heq

/-- **The server executes a request once, while its table has room for it.**  A request that first
arrives behind 256 others has no entry, so it is executed every time. -/
theorem requests_executed_once (expectedCalls : UInt32) (received : List RpcRecv) :
    let calls := (runRpcServer expectedCalls .start received).1
    calls.map (·.key) <+: received.filterMap RpcRecv.key ∧
      (calls.Pairwise fun c d => c.key = d.key →
        if distinctBefore (calls.map (·.key)) c.key < rpcServerMaxSeen
        then d.duplicate = true ∧ d.rspPayload = c.rspPayload
        else d.duplicate = false) ∧
      (∀ c ∈ calls, c.sent.isSome ∧
        c.sent = rpcBuildResponse 1024 c.key.2.1 (ascii "OK") c.rspPayload) ∧
      (runRpcServer expectedCalls .start received).2.rpcCount =
        .ofNat (calls.countP (·.duplicate = false)) := by
  intro calls
  have hinv := runRpcServer_inv expectedCalls RpcServer.start_inv received
  rw [List.nil_append] at hinv
  exact ⟨runRpcServer_keys .., runRpcServer_repeated .., hinv.answered, hinv.count⟩

/-- 257 requests of one peer, and the last of them again. -/
def tableOverflow : List RpcRecv :=
  (List.range 257 ++ [256]).map fun i =>
    .packet ⟨10, 0, 0, 1⟩ (ascii "RPC:" ++ decimal i ++ ascii ":ECHO:2:hi") ⟨0, none⟩

/-- The key of request `i`. -/
def overflowKey (i : ℕ) : RpcKey := (ascii "10.0.0.1", .ofNat i, ascii "ECHO")

theorem overflowKey_inj {i j : ℕ} (hi : i < 2 ^ 31) (hj : j < 2 ^ 31)
    (heq : overflowKey i = overflowKey j) : i = j := by
  have hid : Int32.ofNat i = Int32.ofNat j := congrArg (·.2.1) heq
  have hint := congrArg Int32.toInt hid
  rw [Int32.toInt_ofNat_of_lt hi, Int32.toInt_ofNat_of_lt hj] at hint
  exact_mod_cast hint

/-- The keys of 256 requests and of two more of another. -/
theorem tableOverflow_keys :
    tableOverflow.filterMap RpcRecv.key =
      (List.range 256).map overflowKey ++ [overflowKey 256, overflowKey 256] := by
  decide +kernel

theorem overflowKey_new {i : ℕ} (hi : i < 2 ^ 31) :
    overflowKey i ∉ (List.range i).map overflowKey := by
  intro hmem
  obtain ⟨j, hj, heq⟩ := List.mem_map.1 hmem
  have hlt := List.mem_range.1 hj
  have hsame := overflowKey_inj (by omega) hi heq
  omega

theorem overflowKey_distinctBefore {i : ℕ} (hi : i < 2 ^ 31) (ks : List RpcKey) :
    distinctBefore ((List.range i).map overflowKey ++ overflowKey i :: ks) (overflowKey i) = i := by
  have hnodup : ((List.range i).map overflowKey).Nodup := by
    refine List.nodup_range.map_on fun a ha b hb heq => ?_
    rw [List.mem_range] at ha hb
    exact overflowKey_inj (by omega) (by omega) heq
  rw [List.append_cons, distinctBefore_append (by simp), distinctBefore_snoc (overflowKey_new hi),
    List.toFinset_card_of_nodup hnodup, List.length_map, List.length_range]

/-- The last request is executed twice. -/
theorem late_request_executed_twice :
    ((runRpcServer 0 .start tableOverflow).1.drop 256).map (fun c => (c.key, c.duplicate)) =
        List.replicate 2 ((ascii "10.0.0.1", 256, ascii "ECHO"), false) ∧
      ¬(runRpcServer 0 .start tableOverflow).1.Pairwise fun c d => c.key = d.key →
        d.duplicate = true ∧ d.rspPayload = c.rspPayload := by
  have hfailed : RpcRecv.failed ∉ tableOverflow := by simp [tableOverflow]
  have hkeys := (runRpcServer_zero_keys .start hfailed).trans tableOverflow_keys
  have hrepeated := runRpcServer_repeated 0 tableOverflow
  generalize hcalls : (runRpcServer 0 .start tableOverflow).1 = calls at *
  -- the two calls of the last request
  obtain ⟨before, rest, rfl, hbefore, hrest⟩ := List.map_eq_append_iff.1 hkeys
  obtain ⟨c, ds, rfl, hc, hds⟩ := List.map_eq_cons_iff.1 hrest
  obtain ⟨d, es, rfl, hd, hes⟩ := List.map_eq_cons_iff.1 hds
  obtain rfl := List.map_eq_nil_iff.1 hes
  have hfresh : c.duplicate = false := by
    refine runRpcServer_first 0 RpcServer.start_inv tableOverflow hcalls ?_
    rw [List.nil_append, hbefore, hc]
    exact overflowKey_new (by decide)
  have hagain : d.duplicate = false := by
    have hpair := List.rel_of_pairwise_cons (List.pairwise_append.1 hrepeated).2.1
      (List.mem_cons_self ..) (hc.trans hd.symm)
    have hlate : ¬distinctBefore ((before ++ [c, d]).map (·.key)) c.key < rpcServerMaxSeen := by
      rw [hkeys, hc, overflowKey_distinctBefore (by decide)]
      decide
    rwa [if_neg hlate] at hpair
  have hlength : before.length = 256 := by
    rw [← List.length_map (·.key), hbefore, List.length_map, List.length_range]
  refine ⟨?_, fun hpairs => ?_⟩
  · rw [← hlength, List.drop_left, List.map_cons, List.map_singleton, hc, hd, hfresh, hagain]
    rfl
  · have hpair := List.rel_of_pairwise_cons (List.pairwise_append.1 hpairs).2.1
      (List.mem_cons_self ..) (hc.trans hd.symm)
    rw [hagain] at hpair
    cases hpair.1

end LinquUb
