import LinquUb.Guest.Strtol

/-!
# Round trips of the RPC messages

The builders print numbers in decimal and put colons between the fields; the parsers scan the same
text with `strtol`.

* `strtol_decimal` : **scanning a printed number**;
* `rpcParse_rpcBuild` : a built message is parsed back;
* `rpc_round_trip` : **requests and responses make the round trip, and no message of one kind is
  accepted as the other**.
-/

namespace LinquUb

/-! ### Numbers -/

theorem isDigit_of_mem_toDigits {n : ℕ} {c : Char} (hc : c ∈ Nat.toDigits 10 n) :
    48 ≤ c.toNat ∧ c.toNat ≤ 57 := by
  have h := Nat.isDigit_of_mem_toDigits (by decide) (by decide) hc
  simpa [Char.isDigit, UInt32.le_iff_toNat_le] using h

theorem toUInt8_toNat {c : Char} (h : c.toNat ≤ 57) : c.toUInt8.toNat = c.toNat := by
  have hbyte : c.toUInt8.toNat = c.toNat % 2 ^ 8 := rfl
  rw [hbyte]
  exact Nat.mod_eq_of_lt (by omega)

/-- The bytes of the digits of a number. -/
def digits (n : ℕ) : CString := (Nat.toDigits 10 n).map (·.toUInt8)

theorem isDigit_of_mem_digits {n : ℕ} {d : UInt8} (hd : d ∈ digits n) : isDigit d = true := by
  obtain ⟨c, hc, rfl⟩ := List.mem_map.1 hd
  obtain ⟨hge, hle⟩ := isDigit_of_mem_toDigits hc
  simp only [isDigit, decide_eq_true_eq, UInt8.le_iff_toNat_le,
    toUInt8_toNat hle]
  exact ⟨hge, hle⟩

theorem digits_ne_nil (n : ℕ) : digits n ≠ [] := by
  simp [digits]

/-- The loop of `strtol` computes the value of the digits. -/
theorem foldl_digits_aux {cs : List Char} (hcs : ∀ c ∈ cs, 48 ≤ c.toNat ∧ c.toNat ≤ 57) (m : ℕ) :
    (cs.map (·.toUInt8)).foldl (fun (n : ℤ) d => 10 * n + (d.toNat - 48)) m =
      Nat.ofDigitChars 10 cs m := by
  induction cs generalizing m with
  | nil => simp
  | cons c cs ih =>
    obtain ⟨hge, hle⟩ := hcs c List.mem_cons_self
    have hnext : (10 * m + (c.toUInt8.toNat - 48) : ℤ) = ((10 * m + (c.toNat - 48) : ℕ) : ℤ) := by
      rw [toUInt8_toNat hle]
      omega
    rw [List.map_cons, List.foldl_cons, hnext, ih fun c hc => hcs c (List.mem_cons_of_mem _ hc),
      Nat.ofDigitChars_cons]
    rfl

theorem digitsValue_digits (n : ℕ) : digitsValue (digits n) = n := by
  have h := foldl_digits_aux (fun c hc => isDigit_of_mem_toDigits (n := n) hc) 0
  rw [Nat.ofDigitChars_ten_toDigits] at h
  exact h

/-- A printed number is a number. -/
theorem numeral_decimal {n : ℤ} (hlong : IsLong n) : Numeral (decimal n) n where
  written := by
    refine ⟨[], decide (n < 0), if n < 0 then [45] else [], digits n.natAbs, rfl, by simp, ?_,
      fun c hc => isDigit_of_mem_digits hc, digits_ne_nil _, ?_⟩
    · by_cases hneg : n < 0
      · rw [if_pos hneg, decide_eq_true hneg]
        rfl
      · rw [if_neg hneg, decide_eq_false hneg]
        exact .inl rfl
    · simp only [digitsValue_digits, decide_eq_true_eq]
      split_ifs <;> omega
  isLong := hlong

/-- **Scanning a printed number** that a `long` holds, up to something that is no digit. -/
theorem strtol_decimal {n : ℤ} (hge : -2 ^ 63 ≤ n) (hlt : n < 2 ^ 63) {rest : CString}
    (hrest : ∀ c ∈ rest.head?, isDigit c = false) : strtol (decimal n ++ rest) = some (n, rest) :=
  strtol_eq_some_iff.2 ⟨decimal n, numeral_decimal ⟨hge, hlt⟩, rfl, hrest⟩

/-! ### Messages -/

/-- An operation or a status as the messages can carry it. -/
structure RpcWord where
  bytes : CString
  noNul : 0 ∉ bytes
  noColon : 58 ∉ bytes
  fits : bytes.length ≤ 63

/-- The text of a message, with its colons in front of the fields. -/
theorem rpcBuild_eq_some {magic word payload s : CString} {bufLen : ℕ} {msgId : Int32}
    (h : rpcBuild magic bufLen msgId word payload = some s) :
    s = magic ++ (decimal msgId.toInt ++ 58 :: (word ++ 58 :: (decimal payload.length ++
      58 :: payload))) ∧ s.length < 2 ^ 31 := by
  simp only [rpcBuild] at h
  split_ifs at h with hlong
  cases h
  have hcolon : ascii ":" = [58] := rfl
  refine ⟨?_, by omega⟩
  simp [hcolon]

theorem sizeOfInt_ofInt {n : ℕ} (h : n < 2 ^ 31) : sizeOfInt (.ofInt n) = n := by
  rw [sizeOfInt, Int32.toInt_ofInt_of_le (by omega) (by omega)]
  omega

theorem rpcTakeOp_append {word : CString} (hcolon : 58 ∉ word) (hfits : word.length ≤ 63)
    (p : CString) : rpcTakeOp (word ++ 58 :: p) = word := by
  rw [rpcTakeOp, List.takeWhile_append_of_pos, List.takeWhile_cons_of_neg (by decide),
    List.append_nil]
  · exact List.take_of_length_le hfits
  · intro c hc
    exact decide_eq_true fun he => hcolon (he ▸ hc)

/-- A colon is no digit. -/
theorem head_colon (p : CString) : ∀ c ∈ (58 :: p).head?, isDigit c = false := by
  intro c hc
  cases hc
  decide

/-- **A built message is parsed back**, with as much of the payload as its buffer holds. -/
theorem rpcParse_rpcBuild {magic payload s : CString} {bufLen minLen wordLen payloadCap : ℕ}
    {msgId : Int32} {word : RpcWord} (h : rpcBuild magic bufLen msgId word.bytes payload = some s)
    (hword : word.bytes.length < wordLen) :
    rpcParse magic minLen s wordLen payloadCap =
      some { msgId, word := word.bytes, payloadLen := payload.length,
             payload := snprintfStr payloadCap payload } := by
  obtain ⟨rfl, hlength⟩ := rpcBuild_eq_some h
  have hlen : payload.length < 2 ^ 31 := by
    simp only [List.length_append, List.length_cons] at hlength
    omega
  have hmagic : ∀ rest, rpcText magic minLen (magic ++ rest) = some (magic ++ rest) := by
    intro rest
    rw [rpcText, if_pos (List.isPrefixOf_iff_prefix.2 (List.prefix_append _ _))]
  have hid := msgId.le_toInt
  have hid' := msgId.toInt_lt
  have hcopy : payload.take (rpcPayloadCopy (.ofInt payload.length) payload.length payloadCap) =
      snprintfStr payloadCap payload := by
    rw [rpcPayloadCopy, sizeOfInt_ofInt hlen, snprintfStr, List.take_eq_take_iff]
    split_ifs <;> omega
  simp only [rpcParse, hmagic, Option.bind_eq_bind, Option.bind_some, List.drop_left,
    strtol_decimal (n := msgId.toInt) (by omega) (by omega) (head_colon _), skipColon,
    rpcTakeOp_append word.noColon word.fits,
    strtol_decimal (n := payload.length) (by omega) (by omega) (head_colon _), Int32.ofInt_toInt,
    snprintfStr_eq hword, sizeOfInt_ofInt hlen, hcopy, Option.pure_def]

/-! ### Buffers -/

theorem zero_not_mem_decimal (n : ℤ) : 0 ∉ decimal n := by
  rw [decimal, List.mem_append, not_or]
  refine ⟨by split_ifs <;> decide, fun hzero => ?_⟩
  exact absurd (isDigit_of_mem_digits hzero) (by decide)

/-- A C string runs through a text without a zero. -/
theorem cString_append {s : CString} (h : 0 ∉ s) (p : CString) :
    cString (s ++ p) = s ++ cString p := by
  refine List.takeWhile_append_of_pos fun c hc => decide_eq_true ?_
  rintro rfl
  exact h hc

/-- A built message has no zero. -/
theorem zero_not_mem_rpcBuild {magic payload s : CString} {bufLen : ℕ} {msgId : Int32}
    {word : RpcWord} (hmagic : 0 ∉ magic) (hpayload : 0 ∉ payload)
    (h : rpcBuild magic bufLen msgId word.bytes payload = some s) : 0 ∉ s := by
  rw [(rpcBuild_eq_some h).1]
  simp [hmagic, hpayload, word.noNul, zero_not_mem_decimal]

/-- A built message, read back from its buffer. -/
theorem cString_rpcBuild {magic payload s : CString} {bufLen : ℕ} {msgId : Int32} {word : RpcWord}
    (hmagic : 0 ∉ magic) (hpayload : 0 ∉ payload)
    (h : rpcBuild magic bufLen msgId word.bytes payload = some s) (rest : CString) :
    cString (s ++ 0 :: rest) = s := by
  rw [cString_append (zero_not_mem_rpcBuild hmagic hpayload h)]
  exact List.append_nil s

/-- A message that begins with one magic word is not taken for one with the other. -/
theorem rpcParse_rpcBuild_none {magic other word payload s : CString} {bufLen minLen : ℕ}
    {msgId : Int32} (hmagic : 0 ∉ magic)
    (hother : ∀ p, other.isPrefixOf (magic ++ p) = false ∧
      other.isPrefixOf ((magic ++ p).drop 2) = false)
    (h : rpcBuild magic bufLen msgId word payload = some s) (rest : CString)
    (wordLen payloadCap : ℕ) :
    rpcParse other minLen (cString (s ++ rest)) wordLen payloadCap = none := by
  have htext : ∀ p, rpcText other minLen (magic ++ p) = none := by
    intro p
    rw [rpcText, (hother p).1, (hother p).2]
    simp
  rw [(rpcBuild_eq_some h).1, List.append_assoc, cString_append hmagic, rpcParse, htext]
  rfl

/-- **Round trips of the RPC messages.**  A built request is parsed back from its buffer, and so is a
built response; no request is accepted as a response, and no response as a request. -/
theorem rpc_round_trip :
    (∀ (bufLen : ℕ) (msgId : Int32) (op : RpcWord) (payload s rest : CString)
      (opLen payloadCap : ℕ), 0 ∉ payload → op.bytes.length < opLen →
      payload.length < payloadCap → rpcBuildRequest bufLen msgId op.bytes payload = some s →
        rpcParseRequest (cString (s ++ 0 :: rest)) opLen payloadCap =
          some { msgId, op := op.bytes, payloadLen := payload.length, payload }) ∧
    (∀ (bufLen : ℕ) (msgId : Int32) (status : RpcWord) (payload s rest : CString)
      (statusLen payloadCap : ℕ), 0 ∉ payload → status.bytes.length < statusLen →
      payload.length < payloadCap → rpcBuildResponse bufLen msgId status.bytes payload = some s →
        rpcParseResponse (cString (s ++ 0 :: rest)) statusLen payloadCap =
          some { msgId, status := status.bytes, payloadLen := payload.length, payload }) ∧
    (∀ (bufLen : ℕ) (msgId : Int32) (op payload s rest : CString) (statusLen payloadCap : ℕ),
      rpcBuildRequest bufLen msgId op payload = some s →
        rpcParseResponse (cString (s ++ 0 :: rest)) statusLen payloadCap = none) ∧
    (∀ (bufLen : ℕ) (msgId : Int32) (status payload s rest : CString) (opLen payloadCap : ℕ),
      rpcBuildResponse bufLen msgId status payload = some s →
        rpcParseRequest (cString (s ++ 0 :: rest)) opLen payloadCap = none) := by
  have hrequest : (0 : UInt8) ∉ ascii "RPC:" := by decide
  have hresponse : (0 : UInt8) ∉ ascii "RPC_RSP:" := by decide
  refine ⟨?_, ?_, ?_, ?_⟩
  · intro bufLen msgId op payload s rest opLen payloadCap hpayload hop hcap h
    rw [rpcParseRequest, cString_rpcBuild hrequest hpayload h, rpcParse_rpcBuild h hop,
      snprintfStr_eq hcap]
    rfl
  · intro bufLen msgId status payload s rest statusLen payloadCap hpayload hstatus hcap h
    rw [rpcParseResponse, cString_rpcBuild hresponse hpayload h, rpcParse_rpcBuild h hstatus,
      snprintfStr_eq hcap]
    rfl
  · intro bufLen msgId op payload s rest statusLen payloadCap h
    rw [rpcParseResponse, rpcParse_rpcBuild_none hrequest (fun _ => ⟨rfl, rfl⟩) h]
    rfl
  · intro bufLen msgId status payload s rest opLen payloadCap h
    rw [rpcParseRequest, rpcParse_rpcBuild_none hresponse (fun _ => ⟨rfl, rfl⟩) h]
    rfl

/-- A negative id, and a payload that looks like further fields. -/
theorem rpc_round_trip_echo : ∃ s,
    rpcBuildRequest 1024 (-7) (ascii "ECHO") (ascii "1:RPC:2:x") = some s ∧
      rpcParseRequest (cString (s ++ [0])) 64 512 =
        some { msgId := -7, op := ascii "ECHO", payloadLen := 9, payload := ascii "1:RPC:2:x" } :=
  ⟨ascii "RPC:-7:ECHO:9:1:RPC:2:x", by decide +kernel,
    rpc_round_trip.1 1024 (-7) ⟨ascii "ECHO", by decide, by decide, by decide⟩ (ascii "1:RPC:2:x")
      _ [] 64 512 (by decide) (by decide) (by decide) (by decide +kernel)⟩

end LinquUb
