import LinquUb.Guest.RpcCodec

/-!
# What the RPC parsers accept

The grammar of the messages, with the numbers as `strtol` reads them.

* `RpcForm` : a packet with its fields, `rpcParse_eq_some_iff` : **the parsers accept exactly the
  packets of this form**;
* `rpc_accepts` : what is handed out of an accepted packet;
* `header_transparent_iff` : **two bytes in front of a packet change nothing unless one is zero**.
-/

namespace LinquUb

/-- The magic word is not found two bytes behind the place where it stands. -/
def Unshifted (magic : CString) : Prop := ∀ h0 h1 p, magic.isPrefixOf (h0 :: h1 :: (magic ++ p)) = false

theorem unshifted_request : Unshifted (ascii "RPC:") := by
  intro h0 h1 p
  have hmagic : ascii "RPC:" = [82, 80, 67, 58] := by decide
  simp [hmagic, List.isPrefixOf]

theorem unshifted_response : Unshifted (ascii "RPC_RSP:") := by
  intro h0 h1 p
  have hmagic : ascii "RPC_RSP:" = [82, 80, 67, 95, 82, 83, 80, 58] := by decide
  simp [hmagic, List.isPrefixOf]

/-- Where the text of a packet begins. -/
theorem rpcText_eq_some_iff {magic pkt text : CString} :
    rpcText magic (magic.length + 2) pkt = some text ↔
      ∃ pre rest, text = magic ++ rest ∧ pkt = pre ++ text ∧
        (pre = [] ∨ pre.length = 2 ∧ magic.isPrefixOf pkt = false) := by
  unfold rpcText
  constructor
  · intro h
    split_ifs at h with hfirst hshort
    · cases h
      obtain ⟨rest, hrest⟩ := List.isPrefixOf_iff_prefix.1 hfirst
      exact ⟨[], rest, hrest.symm, rfl, .inl rfl⟩
    · cases h
      rw [not_or, not_lt, Bool.not_eq_false] at hshort
      obtain ⟨rest, hrest⟩ := List.isPrefixOf_iff_prefix.1 hshort.2
      refine ⟨pkt.take 2, rest, hrest.symm, (List.take_append_drop 2 pkt).symm, .inr ⟨?_, ?_⟩⟩
      · rw [List.length_take]
        omega
      · exact Bool.eq_false_iff.2 hfirst
  · rintro ⟨pre, rest, rfl, rfl, rfl | ⟨hlength, hfirst⟩⟩
    · rw [List.nil_append, if_pos (List.isPrefixOf_iff_prefix.2 (List.prefix_append _ _))]
    · have hdrop : (pre ++ (magic ++ rest)).drop 2 = magic ++ rest := by
        rw [← hlength, List.drop_left]
      have hmagic : magic.isPrefixOf (magic ++ rest) = true :=
        List.isPrefixOf_iff_prefix.2 (List.prefix_append _ _)
      have hlong : ¬(pre ++ (magic ++ rest)).length < magic.length + 2 := by
        rw [List.length_append, List.length_append]
        omega
      rw [hfirst, hdrop, hmagic, if_neg Bool.false_ne_true, if_neg]
      rintro (hshort | hfalse)
      · exact hlong hshort
      · cases hfalse

theorem skipColon_eq_some_iff {p q : CString} : skipColon p = some q ↔ p = 58 :: q := by
  unfold skipColon
  split
  · simp
  · rename_i hne
    refine ⟨fun h => (by cases h), fun h => ?_⟩
    exact absurd h (hne q)

/-- The operation or the status ends at a colon. -/
theorem rpcTakeOp_spec {p word q : CString} :
    (rpcTakeOp p = word ∧ p.drop word.length = 58 :: q) ↔
      58 ∉ word ∧ word.length ≤ 63 ∧ p = word ++ 58 :: q := by
  constructor
  · rintro ⟨rfl, hrest⟩
    have hprefix : rpcTakeOp p <+: p := (List.take_prefix _ _).trans (List.takeWhile_prefix _)
    refine ⟨fun hcolon => ?_, List.length_take_le _ _, ?_⟩
    · have hne := List.mem_takeWhile_imp (List.mem_of_mem_take hcolon)
      simp at hne
    · rw [← hrest]
      exact (List.prefix_iff_eq_append.1 hprefix).symm
  · rintro ⟨hcolon, hfits, rfl⟩
    exact ⟨rpcTakeOp_append hcolon hfits q, List.drop_left⟩

/-! ### The grammar -/

/-- A packet with its fields. -/
structure RpcForm (magic pkt : CString) (id : ℤ) (word : CString) (len : ℤ) (body : CString) :
    Prop where
  written : ∃ pre idText lenText,
    pkt = pre ++ (magic ++ (idText ++ 58 :: (word ++ 58 :: (lenText ++ 58 :: body)))) ∧
      (pre = [] ∨ pre.length = 2) ∧ Numeral idText id ∧ Numeral lenText len
  noColon : 58 ∉ word
  fits : word.length ≤ 63

/-- **The parsers accept exactly the packets of this form.** -/
theorem rpcParse_eq_some_iff {magic pkt : CString} (hmagic : Unshifted magic) {wordLen cap : ℕ}
    {f : RpcFields} :
    rpcParse magic (magic.length + 2) pkt wordLen cap = some f ↔
      ∃ id word len body, RpcForm magic pkt id word len body ∧ f = {
        msgId := .ofInt id
        word := snprintfStr wordLen word
        payloadLen := sizeOfInt (.ofInt len)
        payload := body.take (rpcPayloadCopy (.ofInt len) body.length cap) } := by
  simp only [rpcParse, Option.bind_eq_bind, Option.bind_eq_some_iff, Option.pure_def,
    Option.some.injEq]
  constructor
  · rintro ⟨text, htext, ⟨id, p₁⟩, hid, p₂, hcolon, p₃, hword, ⟨len, p₄⟩, hlen, body, hcolon', rfl⟩
    obtain ⟨pre, rest, rfl, rfl, hpre⟩ := rpcText_eq_some_iff.1 htext
    rw [List.drop_left] at hid
    obtain ⟨idText, hnumeral, rfl, -⟩ := strtol_eq_some_iff.1 hid
    obtain rfl := skipColon_eq_some_iff.1 hcolon
    obtain ⟨hnoColon, hfits, hp₂⟩ := rpcTakeOp_spec.1 ⟨rfl, skipColon_eq_some_iff.1 hword⟩
    obtain ⟨lenText, hnumeral', rfl, -⟩ := strtol_eq_some_iff.1 hlen
    obtain rfl := skipColon_eq_some_iff.1 hcolon'
    refine ⟨id, rpcTakeOp p₂, len, body, ⟨⟨pre, idText, lenText, ?_, hpre.imp_right And.left,
      hnumeral, hnumeral'⟩, hnoColon, hfits⟩, rfl⟩
    rw [← hp₂]
  · rintro ⟨id, word, len, body, ⟨⟨pre, idText, lenText, rfl, hpre, hid, hlen⟩, hcolon, hfits⟩, rfl⟩
    have htext : rpcText magic (magic.length + 2)
        (pre ++ (magic ++ (idText ++ 58 :: (word ++ 58 :: (lenText ++ 58 :: body))))) =
          some (magic ++ (idText ++ 58 :: (word ++ 58 :: (lenText ++ 58 :: body)))) := by
      refine rpcText_eq_some_iff.2 ⟨pre, _, rfl, rfl, hpre.imp_right fun hlength => ⟨hlength, ?_⟩⟩
      obtain ⟨h0, h1, rfl⟩ := List.length_eq_two.1 hlength
      exact hmagic h0 h1 _
    obtain ⟨hop, hrest⟩ := rpcTakeOp_spec.2 ⟨hcolon, hfits, rfl⟩
    refine ⟨_, htext, (id, 58 :: (word ++ 58 :: (lenText ++ 58 :: body))), ?_, _,
      skipColon_eq_some_iff.2 rfl, lenText ++ 58 :: body, ?_, (len, 58 :: body), ?_, body,
      skipColon_eq_some_iff.2 rfl, ?_⟩
    · rw [List.drop_left]
      exact strtol_eq_some_iff.2 ⟨idText, hid, rfl, head_colon _⟩
    · rw [hop]
      exact skipColon_eq_some_iff.2 hrest
    · exact strtol_eq_some_iff.2 ⟨lenText, hlen, rfl, head_colon _⟩
    · rw [hop]

/-! ### What is handed out -/

/-- What is handed out of a packet with these fields: the numbers as they are, as far as an `int`
holds them, and as much of the payload as is declared, there, and fits. -/
structure RpcHanded (id : ℤ) (word : CString) (len : ℤ) (body : CString) (wordLen cap : ℕ)
    (msgId : Int32) (got : CString) (payloadLen : ℕ) (payload : CString) : Prop where
  msgId_eq : -2 ^ 31 ≤ id → id < 2 ^ 31 → msgId.toInt = id
  word_eq : got = snprintfStr wordLen word
  payload_eq : 0 ≤ len → len < 2 ^ 31 →
    payloadLen = len.toNat ∧ payload = body.take (min len.toNat (cap - 1))

/-- A length that an `int` holds and that is not negative. -/
theorem take_rpcPayloadCopy {n : ℕ} (hlt : n < 2 ^ 31) (body : CString) (cap : ℕ) :
    body.take (rpcPayloadCopy (.ofInt n) body.length cap) = body.take (min n (cap - 1)) := by
  rw [rpcPayloadCopy, sizeOfInt_ofInt hlt, List.take_eq_take_iff]
  split_ifs <;> omega

theorem rpcHanded (id : ℤ) (word : CString) (len : ℤ) (body : CString) (wordLen cap : ℕ) :
    RpcHanded id word len body wordLen cap (.ofInt id) (snprintfStr wordLen word)
      (sizeOfInt (.ofInt len)) (body.take (rpcPayloadCopy (.ofInt len) body.length cap)) where
  msgId_eq hge hlt := Int32.toInt_ofInt_of_le hge hlt
  word_eq := rfl
  payload_eq hge hlt := by
    obtain ⟨n, rfl⟩ := Int.eq_ofNat_of_zero_le hge
    have hlt : n < 2 ^ 31 := by omega
    exact ⟨sizeOfInt_ofInt hlt, take_rpcPayloadCopy hlt body cap⟩

theorem rpcParse_accepts {magic : CString} (hmagic : Unshifted magic) (pkt : CString)
    (wordLen cap : ℕ) :
    ((rpcParse magic (magic.length + 2) pkt wordLen cap).isSome ↔
      ∃ id word len body, RpcForm magic pkt id word len body) ∧
    ∀ id word len body, RpcForm magic pkt id word len body →
      ∀ f, rpcParse magic (magic.length + 2) pkt wordLen cap = some f →
        RpcHanded id word len body wordLen cap f.msgId f.word f.payloadLen f.payload := by
  refine ⟨⟨fun hsome => ?_, ?_⟩, fun id word len body hform f hf => ?_⟩
  · obtain ⟨f, hf⟩ := Option.isSome_iff_exists.1 hsome
    obtain ⟨id, word, len, body, hform, -⟩ := (rpcParse_eq_some_iff hmagic).1 hf
    exact ⟨id, word, len, body, hform⟩
  · rintro ⟨id, word, len, body, hform⟩
    exact Option.isSome_iff_exists.2
      ⟨_, (rpcParse_eq_some_iff hmagic).2 ⟨id, word, len, body, hform, rfl⟩⟩
  · have hparse : rpcParse magic (magic.length + 2) pkt wordLen cap = some _ :=
      (rpcParse_eq_some_iff hmagic).2 ⟨id, word, len, body, hform, rfl⟩
    obtain rfl := Option.some.inj (hf.symm.trans hparse)
    exact rpcHanded id word len body wordLen cap

/-- **What the parsers accept, and what they hand out.**  A declared length that differs from the
number of bytes behind the header is no error: what is missing is left out, and what is left over is
ignored. -/
theorem rpc_accepts :
    (∀ (pkt : CString) (opLen payloadCap : ℕ),
      ((rpcParseRequest pkt opLen payloadCap).isSome ↔
        ∃ id op len body, RpcForm (ascii "RPC:") pkt id op len body) ∧
      ∀ id op len body, RpcForm (ascii "RPC:") pkt id op len body →
        ∀ req, rpcParseRequest pkt opLen payloadCap = some req →
          RpcHanded id op len body opLen payloadCap req.msgId req.op req.payloadLen req.payload) ∧
    ∀ (pkt : CString) (statusLen payloadCap : ℕ),
      ((rpcParseResponse pkt statusLen payloadCap).isSome ↔
        ∃ id status len body, RpcForm (ascii "RPC_RSP:") pkt id status len body) ∧
      ∀ id status len body, RpcForm (ascii "RPC_RSP:") pkt id status len body →
        ∀ rsp, rpcParseResponse pkt statusLen payloadCap = some rsp →
          RpcHanded id status len body statusLen payloadCap rsp.msgId rsp.status rsp.payloadLen
            rsp.payload := by
  refine ⟨fun pkt opLen cap => ?_, fun pkt statusLen cap => ?_⟩
  · obtain ⟨hiff, hhanded⟩ := rpcParse_accepts unshifted_request pkt opLen cap
    refine ⟨(Option.isSome_map ..).symm ▸ hiff, fun id op len body hform req hreq => ?_⟩
    obtain ⟨f, hf, rfl⟩ := Option.map_eq_some_iff.1 hreq
    exact hhanded id op len body hform f hf
  · obtain ⟨hiff, hhanded⟩ := rpcParse_accepts unshifted_response pkt statusLen cap
    refine ⟨(Option.isSome_map ..).symm ▸ hiff, fun id status len body hform rsp hrsp => ?_⟩
    obtain ⟨f, hf, rfl⟩ := Option.map_eq_some_iff.1 hrsp
    exact hhanded id status len body hform f hf

/-- The fields of a packet that declares nine bytes and has two. -/
theorem short_form : RpcForm (ascii "RPC:") (ascii "RPC:1:ECHO:9:ab") 1 (ascii "ECHO") 9 (ascii "ab")
    where
  written := ⟨[], decimal 1, decimal 9, by decide, .inl rfl, numeral_decimal (by decide),
    numeral_decimal (by decide)⟩
  noColon := by decide
  fits := by decide

theorem rpc_accepts_short :
    RpcHanded 1 (ascii "ECHO") 9 (ascii "ab") 64 512 1 (ascii "ECHO") 9 (ascii "ab") :=
  (rpc_accepts.1 (ascii "RPC:1:ECHO:9:ab") 64 512).2 1 (ascii "ECHO") 9 (ascii "ab") short_form
    { msgId := 1, op := ascii "ECHO", payloadLen := 9, payload := ascii "ab" } (by decide +kernel)

/-- Neither a length that is too large or negative nor one that no `int` holds is an error. -/
theorem lengths_unchecked :
    rpcParseRequest (ascii "RPC:1:ECHO:9:ab") 64 512 = some ⟨1, ascii "ECHO", 9, ascii "ab"⟩ ∧
      rpcParseResponse (ascii "RPC_RSP:1:OK:1:ab") 64 512 = some ⟨1, ascii "OK", 1, ascii "a"⟩ ∧
      rpcParseRequest (ascii "RPC:1:ECHO:-1:ab") 64 512 =
        some ⟨1, ascii "ECHO", 2 ^ 64 - 1, ascii "ab"⟩ ∧
      rpcParseRequest (ascii "RPC:4294967297:ECHO:2:ab") 64 512 =
        some ⟨1, ascii "ECHO", 2, ascii "ab"⟩ := by
  decide +kernel

/-! ### A header in front -/

theorem cString_header (h0 h1 : UInt8) (buf : List UInt8) :
    cString (h0 :: h1 :: buf) =
      if h0 = 0 then [] else if h1 = 0 then [h0] else h0 :: h1 :: cString buf := by
  unfold cString
  split_ifs with hzero hzero' <;> simp [*]

/-- An accepted packet has at least its three colons. -/
theorem RpcForm.length {magic pkt word body : CString} {id len : ℤ}
    (h : RpcForm magic pkt id word len body) : 3 ≤ pkt.length := by
  obtain ⟨pre, idText, lenText, rfl, -⟩ := h.written
  simp only [List.length_append, List.length_cons]
  omega

/-- Two bytes in front of a packet. -/
theorem rpcParse_header {magic : CString} (hmagic : Unshifted magic) {buf : List UInt8}
    {wordLen cap : ℕ} {f : RpcFields} (hfirst : magic <+: cString buf)
    (hf : rpcParse magic (magic.length + 2) (cString buf) wordLen cap = some f) (h0 h1 : UInt8) :
    rpcParse magic (magic.length + 2) (cString (h0 :: h1 :: buf)) wordLen cap = some f ↔
      h0 ≠ 0 ∧ h1 ≠ 0 := by
  rw [cString_header]
  constructor
  · intro hsome
    obtain ⟨id, word, len, body, hform, -⟩ := (rpcParse_eq_some_iff hmagic).1 hsome
    have hlength := hform.length
    -- a string that ends in the header is too short
    split_ifs at hlength with hzero hzero'
    · simp at hlength
    · simp at hlength
    · exact ⟨hzero, hzero'⟩
  · rintro ⟨hne, hne'⟩
    rw [if_neg hne, if_neg hne']
    obtain ⟨rest, hrest⟩ := hfirst
    have hhere : rpcText magic (magic.length + 2) (cString buf) = some (cString buf) :=
      rpcText_eq_some_iff.2 ⟨[], rest, hrest.symm, rfl, .inl rfl⟩
    have hbehind : rpcText magic (magic.length + 2) (h0 :: h1 :: cString buf) =
        some (cString buf) :=
      rpcText_eq_some_iff.2 ⟨[h0, h1], rest, hrest.symm, rfl, .inr ⟨rfl, hrest ▸ hmagic h0 h1 rest⟩⟩
    rw [← hf, rpcParse, rpcParse, hhere, hbehind]

/-- The same for what is made of the fields. -/
theorem rpcParse_map_header {β : Type} {g : RpcFields → β} (hg : Function.Injective g)
    {magic : CString} (hmagic : Unshifted magic) {buf : List UInt8} {wordLen cap : ℕ} {b : β}
    (hfirst : magic <+: cString buf)
    (hb : (rpcParse magic (magic.length + 2) (cString buf) wordLen cap).map g = some b)
    (h0 h1 : UInt8) :
    (rpcParse magic (magic.length + 2) (cString (h0 :: h1 :: buf)) wordLen cap).map g = some b ↔
      h0 ≠ 0 ∧ h1 ≠ 0 := by
  obtain ⟨f, hf, rfl⟩ := Option.map_eq_some_iff.1 hb
  rw [← rpcParse_header hmagic hfirst hf h0 h1, ← Option.map_some]
  exact (Option.map_injective hg).eq_iff

/-- **A header of two bytes changes nothing if and only if neither is zero.** -/
theorem header_transparent_iff (buf : List UInt8) (wordLen cap : ℕ) (h0 h1 : UInt8) :
    (∀ req, ascii "RPC:" <+: cString buf → rpcParseRequest (cString buf) wordLen cap = some req →
      (rpcParseRequest (cString (h0 :: h1 :: buf)) wordLen cap = some req ↔ h0 ≠ 0 ∧ h1 ≠ 0)) ∧
    ∀ rsp, ascii "RPC_RSP:" <+: cString buf →
      rpcParseResponse (cString buf) wordLen cap = some rsp →
        (rpcParseResponse (cString (h0 :: h1 :: buf)) wordLen cap = some rsp ↔ h0 ≠ 0 ∧ h1 ≠ 0) := by
  constructor
  · intro req hfirst hreq
    refine rpcParse_map_header (fun f f' h => ?_) unshifted_request hfirst hreq h0 h1
    cases f
    cases f'
    cases h
    rfl
  · intro rsp hfirst hrsp
    refine rpcParse_map_header (fun f f' h => ?_) unshifted_response hfirst hrsp h0 h1
    cases f
    cases f'
    cases h
    rfl

theorem header_transparent_private :
    rpcParseRequest (cString (1 :: 17 :: ascii "RPC:1:ECHO:2:hi")) 64 512 =
        some ⟨1, ascii "ECHO", 2, ascii "hi"⟩ ↔
      (1 : UInt8) ≠ 0 ∧ (17 : UInt8) ≠ 0 :=
  (header_transparent_iff (ascii "RPC:1:ECHO:2:hi") 64 512 1 17).1 ⟨1, ascii "ECHO", 2, ascii "hi"⟩
    (by decide +kernel) (by decide +kernel)

/-- A header that begins with a zero byte ends the string. -/
theorem zero_header_rejected :
    rpcParseRequest (cString (ascii "RPC:1:ECHO:2:hi")) 64 512 =
        some ⟨1, ascii "ECHO", 2, ascii "hi"⟩ ∧
      rpcParseRequest (cString (0 :: 17 :: ascii "RPC:1:ECHO:2:hi")) 64 512 = none ∧
      rpcParseResponse (cString (ascii "RPC_RSP:1:OK:2:hi")) 64 512 =
        some ⟨1, ascii "OK", 2, ascii "hi"⟩ ∧
      rpcParseResponse (cString (17 :: 0 :: ascii "RPC_RSP:1:OK:2:hi")) 64 512 = none := by
  decide +kernel

end LinquUb
