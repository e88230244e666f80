import Mathlib.Data.Nat.Digits.Defs
import Mathlib.Data.List.Basic

/-!
# Messages of the RPC demo

The text messages of `ub_rpc_demo.c`, on C strings.

* `rpcBuildRequest`, `rpcParseRequest` : `RPC:<msg_id>:<op>:<payload_len>:<payload>`;
* `rpcBuildResponse`, `rpcParseResponse` : `RPC_RSP:<msg_id>:<status>:<payload_len>:<payload>`;
* `rpcParseRequest_length` : what was parsed fits the buffers that the server keeps it in;
* `rpcBuildResponse_isSome` : a response fits its buffer.
-/

namespace LinquUb

/-- The bytes of a C string, without the zero behind them. -/
abbrev CString := List UInt8

/-- The C string that starts at `buf`. -/
def cString (buf : List UInt8) : CString := buf.takeWhile (· ≠ 0)

def ascii (s : String) : CString := s.toList.map (·.toUInt8)

/-- `snprintf(buf, cap, "%s", s)`. -/
def snprintfStr (cap : ℕ) (s : CString) : CString := s.take (cap - 1)

def isSpace (c : UInt8) : Bool := c = 32 ∨ (9 ≤ c ∧ c ≤ 13)

def isDigit (c : UInt8) : Bool := 48 ≤ c ∧ c ≤ 57

/-- The optional sign of a number. -/
def takeSign : CString → Bool × CString
  | 45 :: p => (true, p)
  | 43 :: p => (false, p)
  | p => (false, p)

/-- `strtol(p, &end, 10)` for a 64-bit `long`: the value and what is at `end`.  `none` if there are
no digits or `errno` is set. -/
def strtol (p : CString) : Option (ℤ × CString) :=
  let (negative, p) := takeSign (p.dropWhile isSpace)
  let digits := p.takeWhile isDigit
  let magnitude : ℤ := digits.foldl (fun n d => 10 * n + (d.toNat - 48)) 0
  let value := if negative then -magnitude else magnitude
  if digits = [] ∨ value < -2 ^ 63 ∨ 2 ^ 63 ≤ value then none
  else some (value, p.dropWhile isDigit)

/-- Steps over a colon. -/
def skipColon : CString → Option CString
  | 58 :: p => some p
  | _ => none

/-- `(size_t)n`; a negative number becomes a huge one. -/
def sizeOfInt (n : Int32) : ℕ := (n.toInt % 2 ^ 64).toNat

/-! ### Parsing -/

/-- What is read from a message: `word` is the operation of a request or the status of a response. -/
structure RpcFields where
  msgId : Int32
  word : CString
  payloadLen : ℕ
  payload : CString
deriving DecidableEq, Repr

/-- The packet behind the two bytes that may stand before the text. -/
def rpcText (magic : CString) (minLen : ℕ) (pkt : CString) : Option CString :=
  if magic.isPrefixOf pkt then some pkt
  else if pkt.length < minLen ∨ magic.isPrefixOf (pkt.drop 2) = false then none
  else some (pkt.drop 2)

/-- Copies the operation into `tmp_op[64]`, or the status into `tmp_status[64]`. -/
def rpcTakeOp (p : CString) : CString := (p.takeWhile (· ≠ 58)).take 63

/-- How many bytes of the payload are copied. -/
def rpcPayloadCopy (plen : Int32) (remaining payloadCap : ℕ) : ℕ :=
  let copy := sizeOfInt plen
  let copy := if copy > remaining then remaining else copy
  if copy ≥ payloadCap then payloadCap - 1 else copy

/-- The body that the two parsers share. -/
def rpcParse (magic : CString) (minLen : ℕ) (pkt : CString) (wordLen payloadCap : ℕ) :
    Option RpcFields := do
  let pkt ← rpcText magic minLen pkt
  let (msgId, p) ← strtol (pkt.drop magic.length)
  let p ← skipColon p
  let word := rpcTakeOp p
  let p ← skipColon (p.drop word.length)
  let (plen, p) ← strtol p
  let p ← skipColon p
  return {
    msgId := .ofInt msgId
    word := snprintfStr wordLen word
    payloadLen := sizeOfInt (.ofInt plen)
    payload := p.take (rpcPayloadCopy (.ofInt plen) p.length payloadCap) }

structure RpcRequest where
  msgId : Int32
  op : CString
  payloadLen : ℕ
  payload : CString
deriving DecidableEq, Repr

structure RpcResponse where
  msgId : Int32
  status : CString
  payloadLen : ℕ
  payload : CString
deriving DecidableEq, Repr

def rpcParseRequest (pkt : CString) (opLen payloadCap : ℕ) : Option RpcRequest :=
  (rpcParse (ascii "RPC:") 6 pkt opLen payloadCap).map fun f =>
    { msgId := f.msgId, op := f.word, payloadLen := f.payloadLen, payload := f.payload }

def rpcParseResponse (pkt : CString) (statusLen payloadCap : ℕ) : Option RpcResponse :=
  (rpcParse (ascii "RPC_RSP:") 10 pkt statusLen payloadCap).map fun f =>
    { msgId := f.msgId, status := f.word, payloadLen := f.payloadLen, payload := f.payload }

theorem rpcPayloadCopy_lt (plen : Int32) (remaining : ℕ) {payloadCap : ℕ} (h : 0 < payloadCap) :
    rpcPayloadCopy plen remaining payloadCap < payloadCap := by
  unfold rpcPayloadCopy
  dsimp only
  split_ifs <;> omega

theorem snprintfStr_length (s : CString) {cap : ℕ} (h : 0 < cap) : (snprintfStr cap s).length < cap := by
  rw [snprintfStr, List.length_take]
  omega

/-- A string that fits is copied whole. -/
theorem snprintfStr_eq {s : CString} {cap : ℕ} (h : s.length < cap) : snprintfStr cap s = s :=
  List.take_of_length_le (by omega)

theorem rpcParseRequest_length {pkt : CString} {opLen payloadCap : ℕ} {req : RpcRequest}
    (hop : 0 < opLen) (hcap : 0 < payloadCap) (h : rpcParseRequest pkt opLen payloadCap = some req) :
    req.op.length < opLen ∧ req.payload.length < payloadCap := by
  simp only [rpcParseRequest, rpcParse, Option.bind_eq_bind, Option.map_eq_some_iff,
    Option.bind_eq_some_iff, Option.pure_def, Option.some.injEq] at h
  obtain ⟨_, ⟨_, _, _, _, _, _, _, _, number, _, p, _, rfl⟩, rfl⟩ := h
  have hcopy := rpcPayloadCopy_lt (.ofInt number.1) p.length hcap
  refine ⟨snprintfStr_length _ hop, ?_⟩
  rw [List.length_take]
  omega

/-! ### Building -/

def decimal (n : ℤ) : CString :=
  (if n < 0 then [45] else []) ++ (Nat.toDigits 10 n.natAbs).map (·.toUInt8)

/-- The body that the two builders share.  `snprintf` returns a negative number if the length of the
text is no `int`. -/
def rpcBuild (magic : CString) (bufLen : ℕ) (msgId : Int32) (word payload : CString) :
    Option CString :=
  let s := magic ++ decimal msgId.toInt ++ ascii ":" ++ word ++ ascii ":" ++
    decimal payload.length ++ ascii ":" ++ payload
  if 2 ^ 31 ≤ s.length ∨ s.length ≥ bufLen then none else some s

def rpcBuildRequest (bufLen : ℕ) (msgId : Int32) (op payload : CString) : Option CString :=
  rpcBuild (ascii "RPC:") bufLen msgId op payload

def rpcBuildResponse (bufLen : ℕ) (msgId : Int32) (status payload : CString) : Option CString :=
  rpcBuild (ascii "RPC_RSP:") bufLen msgId status payload

theorem decimal_length_of_nonneg {n : ℤ} {e : ℕ} (he : 0 < e) (hn : n.natAbs < 10 ^ e)
    (hnonneg : 0 ≤ n) : (decimal n).length ≤ e := by
  rw [decimal, if_neg (by omega), List.nil_append, List.length_map]
  exact Nat.toDigits_length 10 n.natAbs e he hn

theorem decimal_length {n : ℤ} {e : ℕ} (he : 0 < e) (hn : n.natAbs < 10 ^ e) :
    (decimal n).length ≤ e + 1 := by
  have hdigits := Nat.toDigits_length 10 n.natAbs e he hn
  rw [decimal, List.length_append, List.length_map]
  split_ifs
  · rw [List.length_singleton]
    omega
  · rw [List.length_nil]
    omega

/-- A response to a payload of the buffer's size fits the send buffer. -/
theorem rpcBuildResponse_isSome (msgId : Int32) {payload : CString} (h : payload.length < 512) :
    (rpcBuildResponse 1024 msgId (ascii "OK") payload).isSome := by
  have hid : (decimal msgId.toInt).length ≤ 10 + 1 := by
    refine decimal_length (by decide) ?_
    have hlt := msgId.toInt_lt
    have hge := msgId.le_toInt
    omega
  have hlen : (decimal payload.length).length ≤ 3 :=
    decimal_length_of_nonneg (by decide) (by simpa using lt_trans h (by decide)) (by omega)
  have hparts : (ascii "RPC_RSP:").length = 8 ∧ (ascii ":").length = 1 ∧ (ascii "OK").length = 2 := by
    decide
  unfold rpcBuildResponse rpcBuild
  dsimp only
  rw [if_neg]
  · rfl
  · simp only [List.length_append, hparts]
    omega

end LinquUb
