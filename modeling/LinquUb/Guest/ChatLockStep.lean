import LinquUb.Guest.Chat
import LinquUb.Guest.RpcCodec
import LinquUb.LTS.History
import Mathlib.Data.List.TakeWhile

/-!
# The lock-step of the chat demo

The network may lose, duplicate, delay and reorder the datagrams, the alarm may go off at any time,
and any call may fail.

* `parseChat_chatTx` : a node skips its own messages and understands those of its peer;
* `Chat.Inv` : how far the nodes have come, and what the messages say;
* `Chat.lock_step` : **if the initiator returns 0, then the responder accepted the requests in order,
  each once, and had answered each of them before the next one was sent**.
-/

namespace LinquUb

/-! ### What a message says -/

theorem atol_of_strtol {p rest : CString} {n : ℤ} (h : strtol p = some (n, rest)) : atol p = n := by
  simp only [strtol, Option.ite_none_left_eq_some, Option.some.injEq, Prod.mk.injEq, not_or] at h
  obtain ⟨⟨-, hge, hlt⟩, hn, -⟩ := h
  simp only [atol, hn] at hge hlt ⊢
  omega

theorem atol_decimal {n : ℤ} (hge : -2 ^ 63 ≤ n) (hlt : n < 2 ^ 63) : atol (decimal n) = n := by
  have h : strtol (decimal n ++ []) = some (n, []) := strtol_decimal hge hlt (by simp)
  rw [List.append_nil] at h
  exact atol_of_strtol h

theorem strsep_append {field : CString} (h : 58 ∉ field) (p : CString) :
    strsep (some (field ++ 58 :: p)) = some (field, some p) := by
  have hfield : ∀ c ∈ field, decide (c ≠ 58) = true := by
    intro c hc
    refine decide_eq_true ?_
    rintro rfl
    exact h hc
  rw [strsep, List.takeWhile_append_of_pos hfield, List.dropWhile_append_of_pos hfield]
  simp

theorem strsep_last {field : CString} (h : 58 ∉ field) :
    strsep (some field) = some (field, none) := by
  have hfield : ∀ c ∈ field, decide (c ≠ 58) = true := by
    intro c hc
    refine decide_eq_true ?_
    rintro rfl
    exact h hc
  rw [strsep, List.takeWhile_eq_self_iff.2 hfield, List.dropWhile_eq_nil_iff.2 hfield]

theorem colon_not_mem_decimal (n : ℤ) : 58 ∉ decimal n := by
  rw [decimal, List.mem_append, not_or]
  refine ⟨by split_ifs <;> decide, fun hcolon => ?_⟩
  exact absurd (isDigit_of_mem_digits hcolon) (by decide)

/-- The texts of the demo. -/
structure IsChatText (text : CString) : Prop where
  noNul : 0 ∉ text
  noColon : 58 ∉ text
  fits : text.length ≤ 40

theorem isChatText_req : IsChatText chatReqText := ⟨by decide, by decide, by decide⟩

theorem isChatText_rsp : IsChatText chatRspText := ⟨by decide, by decide, by decide⟩

/-- The buffer has room for every message. -/
theorem chatTx_eq (role : ChatRole) {text : CString} (htext : IsChatText text) (seq : Int32)
    (now : Int64) :
    chatTx role text seq now = ascii "CHAT:" ++ (role.name ++ 58 :: (text ++ 58 ::
        (decimal seq.toInt ++ 58 :: decimal now.toInt))) ∧
      (chatTx role text seq now).length ≤ 255 := by
  have hseq : (decimal seq.toInt).length ≤ 10 + 1 := by
    refine decimal_length (by decide) ?_
    have hlt := seq.toInt_lt
    have hge := seq.le_toInt
    omega
  have hnow : (decimal now.toInt).length ≤ 19 + 1 := by
    refine decimal_length (by decide) ?_
    have hlt := now.toInt_lt
    have hge := now.le_toInt
    omega
  have hcolon : ascii ":" = [58] := rfl
  have htag : (ascii "CHAT:").length = 5 := rfl
  have hrole := role.fits
  have hfits := htext.fits
  have hwhole : chatTx role text seq now = ascii "CHAT:" ++ (role.name ++ 58 :: (text ++ 58 ::
      (decimal seq.toInt ++ 58 :: decimal now.toInt))) := by
    rw [chatTx, snprintfStr_eq]
    · simp [hcolon]
    · simp only [List.length_append, hcolon, htag, List.length_singleton]
      omega
  refine ⟨hwhole, ?_⟩
  simp only [hwhole, List.length_append, List.length_cons, htag]
  omega

/-- **What a node understands**: it skips the messages with its own role. -/
theorem parseChat_chatTx (localRole : CString) (role : ChatRole) {text : CString}
    (htext : IsChatText text) (seq : Int32) (now : Int64) :
    parseChat localRole (chatTx role text seq now) =
      if role.name = localRole then none else some { text, seq, ts := now.toInt } := by
  obtain ⟨hwhole, hlength⟩ := chatTx_eq role htext seq now
  have hnul : 0 ∉ chatTx role text seq now := by
    have htag : (0 : UInt8) ∉ ascii "CHAT:" := by decide
    rw [hwhole]
    simp [htag, role.noNul, htext.noNul, zero_not_mem_decimal]
  have hstring : cString (chatTx role text seq now) = chatTx role text seq now := by
    simpa [cString] using cString_append hnul []
  have hstart : findChatPayloadStart (chatTx role text seq now) = some (chatTx role text seq now) := by
    rw [hwhole]
    rfl
  have hsync : ¬((ascii "SYNC_REQ").isPrefixOf (chatTx role text seq now) = true ∨
      (ascii "SYNC_ACK").isPrefixOf (chatTx role text seq now) = true) := by
    rw [hwhole]
    rintro (h | h) <;> cases h
  have htag : strsep (some (chatTx role text seq now)) = some (ascii "CHAT",
      some (role.name ++ 58 :: (text ++ 58 :: (decimal seq.toInt ++ 58 :: decimal now.toInt)))) := by
    rw [hwhole]
    exact strsep_append (by decide : 58 ∉ ascii "CHAT") _
  have hseq := seq.le_toInt
  have hseq' := seq.toInt_lt
  have hnow := now.le_toInt
  have hnow' := now.toInt_lt
  rw [parseChat, List.take_of_length_le (by omega)]
  have hrole : snprintfStr 32 role.name = role.name := snprintfStr_eq (Nat.lt_succ_of_le role.fits)
  have htext' : snprintfStr 128 text = text := snprintfStr_eq (htext.fits.trans_lt (by decide))
  simp only [hsync, hstart, hstring, htag, strsep_append role.noColon, strsep_append htext.noColon,
    strsep_append (colon_not_mem_decimal _), strsep_last (colon_not_mem_decimal _), atoi,
    atol_decimal (n := seq.toInt) (by omega) (by omega),
    atol_decimal (n := now.toInt) (by omega) (by omega), Int32.ofInt_toInt, hrole, htext',
    guard, Option.bind_eq_bind, Option.bind_some,
    not_false_eq_true, if_true, Option.pure_def]
  by_cases hown : role.name = localRole
  · simp [hown]
  · simp [hown]

namespace Chat

variable {shared : Bool} {roleI roleR : ChatRole} {log : List ChatEvent} {e : ChatEvent}
  {s s' : Chat}

/-- What may be on the network. -/
inductive Says (roleI roleR : ChatRole) (log : List ChatEvent) : List UInt8 → Prop
  | syncReq : Says roleI roleR log (ascii "SYNC_REQ")
  | syncAck : Says roleI roleR log (ascii "SYNC_ACK")
  | request (seq : Int32) (now : Int64) (hsent : .request seq ∈ log) :
    Says roleI roleR log (chatTx roleI chatReqText seq now)
  | reply (seq : Int32) (now : Int64) (hsent : .reply seq ∈ log) :
    Says roleI roleR log (chatTx roleR chatRspText seq now)

theorem Says.snoc {m : List UInt8} (h : Says roleI roleR log m) :
    Says roleI roleR (log ++ [e]) m := by
  cases h with
  | syncReq => exact .syncReq
  | syncAck => exact .syncAck
  | request seq now hsent => exact .request seq now (List.mem_append_left _ hsent)
  | reply seq now hsent => exact .reply seq now (List.mem_append_left _ hsent)

theorem parseChat_syncReq (role : CString) : parseChat role (ascii "SYNC_REQ") = none := rfl

theorem parseChat_syncAck (role : CString) : parseChat role (ascii "SYNC_ACK") = none := rfl

/-- What the initiator understands is a reply. -/
theorem Says.reply_inv (hdistinct : roleI.name ≠ roleR.name) {m : List UInt8} {msg : ChatMsg}
    (h : Says roleI roleR log m) (hparse : parseChat roleI.name m = some msg) :
    .reply msg.seq ∈ log := by
  cases h with
  | syncReq => cases parseChat_syncReq roleI.name ▸ hparse
  | syncAck => cases parseChat_syncAck roleI.name ▸ hparse
  | request seq now =>
    rw [parseChat_chatTx _ _ isChatText_req, if_pos rfl] at hparse
    cases hparse
  | reply seq now hsent =>
    rw [parseChat_chatTx _ _ isChatText_rsp, if_neg hdistinct.symm] at hparse
    cases hparse
    exact hsent

/-- What the responder understands is a request. -/
theorem Says.request_inv (hdistinct : roleI.name ≠ roleR.name) {m : List UInt8} {msg : ChatMsg}
    (h : Says roleI roleR log m) (hparse : parseChat roleR.name m = some msg) :
    .request msg.seq ∈ log := by
  cases h with
  | syncReq => cases parseChat_syncReq roleR.name ▸ hparse
  | syncAck => cases parseChat_syncAck roleR.name ▸ hparse
  | request seq now hsent =>
    rw [parseChat_chatTx _ _ isChatText_req, if_neg hdistinct] at hparse
    cases hparse
    exact hsent
  | reply seq now =>
    rw [parseChat_chatTx _ _ isChatText_rsp, if_pos rfl] at hparse
    cases hparse

/-! ### How far the nodes have come -/

/-- The events of `k` whole rounds. -/
def exchanged (k : ℕ) : List ChatEvent :=
  (List.range k).flatMap fun i => [.request (.ofNat i), .accept (.ofNat i), .reply (.ofNat i)]

theorem exchanged_succ (k : ℕ) : exchanged (k + 1) =
    exchanged k ++ [.request (.ofNat k)] ++ [.accept (.ofNat k)] ++ [.reply (.ofNat k)] := by
  simp [exchanged, List.range_succ]

/-- Where the two nodes are between two rounds or within one. -/
inductive Stage (tx rounds : ℕ) (pc : ResponderPc) (log : List ChatEvent) : Prop
  /-- All requests have been answered. -/
  | idle (htx : tx = rounds) (hlog : log = exchanged rounds) (hpc : ∀ seq, pc ≠ .chatSend seq)
  /-- A request has been sent. -/
  | asked (htx : tx = rounds + 1) (hlog : log = exchanged rounds ++ [.request (.ofNat rounds)])
    (hpc : ∀ seq, pc ≠ .chatSend seq)
  /-- The responder has accepted it, and its reply is still to come, unless it has given up. -/
  | heard (htx : tx = rounds + 1)
    (hlog : log = exchanged rounds ++ [.request (.ofNat rounds)] ++ [.accept (.ofNat rounds)])
    (hpc : pc = .chatSend (.ofNat rounds) ∨ ∃ rc, pc = .returned rc)

/-- What the initiator knows where it is. -/
structure Knows (p : ChatInitiator) (rounds : ℕ) : Prop where
  rx : p.rxCount ≤ rounds
  tx : p.txCount ≤ chatRounds
  pc : match p.pc with
    | .syncSend | .syncRecv => p.txCount = 0 ∧ p.rxCount = 0
    | .round i => p.txCount = i ∧ p.rxCount = i
    | .chatRecv i => p.txCount = i + 1 ∧ p.rxCount = i
    | .returned 0 => chatRounds ≤ p.rxCount
    | _ => True

structure Inv (roleI roleR : ChatRole) (s : Chat) : Prop where
  net : ∀ d, s.net.Carries d → Says roleI roleR s.log d.msg
  stage : Stage s.initiator.txCount s.responder.rounds s.responder.pc s.log
  knows : Knows s.initiator s.responder.rounds

theorem ofNat_inj {i j : ℕ} (hi : i ≤ chatRounds) (hj : j ≤ chatRounds)
    (h : Int32.ofNat i = Int32.ofNat j) : i = j :=
  (by decide : ∀ i < chatRounds + 1, ∀ j < chatRounds + 1, Int32.ofNat i = Int32.ofNat j → i = j)
    i (by omega) j (by omega) h

theorem Stage.rounds_le {tx rounds : ℕ} {pc : ResponderPc} (h : Stage tx rounds pc log) :
    rounds ≤ tx := by
  cases h <;> omega

theorem mem_exchanged_reply {k : ℕ} {seq : Int32} :
    .reply seq ∈ exchanged k ↔ ∃ i < k, seq = .ofNat i := by
  simp [exchanged]

theorem mem_exchanged_request {k : ℕ} {seq : Int32} :
    .request seq ∈ exchanged k ↔ ∃ i < k, seq = .ofNat i := by
  simp [exchanged]

/-- The replies that have been sent. -/
theorem Stage.reply_inv {tx rounds : ℕ} {pc : ResponderPc} {seq : Int32}
    (h : Stage tx rounds pc log) (hsent : .reply seq ∈ log) : ∃ i < rounds, seq = .ofNat i := by
  rw [← mem_exchanged_reply]
  cases h with
  | idle _ hlog => exact hlog ▸ hsent
  | asked _ hlog => simpa [hlog] using hsent
  | heard _ hlog => simpa [hlog] using hsent

/-- The requests that have been sent. -/
theorem Stage.request_inv {tx rounds : ℕ} {pc : ResponderPc} {seq : Int32}
    (h : Stage tx rounds pc log) (hsent : .request seq ∈ log) : ∃ i < tx, seq = .ofNat i := by
  cases h with
  | idle htx hlog => exact htx ▸ mem_exchanged_request.1 (hlog ▸ hsent)
  | asked htx hlog =>
    rw [htx, ← mem_exchanged_request, exchanged_succ]
    simpa [hlog] using hsent
  | heard htx hlog =>
    rw [htx, ← mem_exchanged_request, exchanged_succ]
    simpa [hlog] using hsent

/-! ### Steps -/

theorem start_inv : start.Inv roleI roleR where
  net d hd := absurd hd (Net.not_carries_empty d)
  stage := .idle rfl rfl nofun
  knows := ⟨le_rfl, Nat.zero_le _, rfl, rfl⟩

/-- The responder moves on without a reply to send. -/
theorem Stage.goto {tx rounds : ℕ} {pc pc' : ResponderPc} (h : Stage tx rounds pc log)
    (hpc : ∀ seq, pc ≠ .chatSend seq) (hrun : ∀ rc, pc ≠ .returned rc)
    (hpc' : ∀ seq, pc' ≠ .chatSend seq) : Stage tx rounds pc' log := by
  cases h with
  | idle htx hlog => exact .idle htx hlog hpc'
  | asked htx hlog => exact .asked htx hlog hpc'
  | heard _ _ hheard =>
    rcases hheard with hsend | ⟨rc, hreturned⟩
    · exact absurd hsend (hpc _)
    · exact absurd hreturned (hrun rc)

theorem Stage.giveUp {tx rounds : ℕ} {pc : ResponderPc} (h : Stage tx rounds pc log) (rc : ℕ) :
    Stage tx rounds (.returned rc) log := by
  cases h with
  | idle htx hlog => exact .idle htx hlog nofun
  | asked htx hlog => exact .asked htx hlog nofun
  | heard htx hlog => exact .heard htx hlog (.inr ⟨rc, rfl⟩)

theorem Inv.gotoInitiator (h : s.Inv roleI roleR) (pc : InitiatorPc)
    (hpc : Knows { s.initiator with pc := pc } s.responder.rounds) :
    (s.gotoInitiator pc).Inv roleI roleR :=
  ⟨h.net, h.stage, hpc⟩

theorem Inv.failInitiator (h : s.Inv roleI roleR) : (s.gotoInitiator (.returned 1)).Inv roleI roleR :=
  h.gotoInitiator _ ⟨h.knows.rx, h.knows.tx, trivial⟩

theorem Inv.gotoResponder (h : s.Inv roleI roleR) {pc : ResponderPc}
    (hpc : Stage s.initiator.txCount s.responder.rounds pc s.log) :
    (s.gotoResponder pc).Inv roleI roleR :=
  ⟨h.net, hpc, h.knows⟩

theorem Inv.failResponder (h : s.Inv roleI roleR) (rc : ℕ) :
    (s.gotoResponder (.returned rc)).Inv roleI roleR :=
  h.gotoResponder (h.stage.giveUp rc)

theorem Inv.send (h : s.Inv roleI roleR) (src dst : ChatAddr) {m : List UInt8}
    (hm : Says roleI roleR s.log m) : (s.send src dst m).Inv roleI roleR := by
  refine ⟨fun d hd => ?_, h.stage, h.knows⟩
  rcases Net.carries_post.1 hd with hd | rfl
  · exact h.net d hd
  · exact hm

/-- Reading a datagram. -/
theorem Inv.recv (h : s.Inv roleI roleR) {i : ChatAddr}
    {next : ChatAddr → List UInt8 → Chat → Chat} {again : Chat} (hagain : again.Inv roleI roleR)
    (hnext : ∀ src m net, Says roleI roleR s.log m → { s with net := net }.Inv roleI roleR →
      (next src m { s with net := net }).Inv roleI roleR) :
    (s.recv i next again).Inv roleI roleR := by
  unfold Chat.recv
  split
  · exact hagain
  · rename_i src m rest hsocket
    refine hnext src m _ (h.net _ (Net.carries_head hsocket)) ⟨fun d hd => ?_, h.stage, h.knows⟩
    exact h.net d (Net.take_carries hsocket hd)

/-- **The initiator has received a message.**  It goes on only if its request has been answered. -/
theorem Inv.handleReply (hdistinct : roleI.name ≠ roleR.name) (h : s.Inv roleI roleR) {i : ℕ}
    (hpc : s.initiator.pc = .chatRecv i) {m : List UInt8} {msg : ChatMsg}
    (hm : Says roleI roleR s.log m) (hparse : parseChat roleI.name m = some msg) :
    (s.handleReply i msg).Inv roleI roleR := by
  unfold Chat.handleReply
  split_ifs with hwrong
  · exact h.failInitiator
  · have hknows := h.knows.pc
    rw [hpc] at hknows
    obtain ⟨htx, hrx⟩ := hknows
    -- the reply of this round has been sent
    obtain ⟨j, hj, hseq⟩ := h.stage.reply_inv (hm.reply_inv hdistinct hparse)
    have hrounds := h.stage.rounds_le
    have htx' := h.knows.tx
    have hsame : i = j := by
      refine ofNat_inj (by omega) (by omega) ?_
      rw [← hseq]
      exact (not_not.1 (not_or.1 hwrong).1).symm
    refine ⟨h.net, h.stage, ⟨?_, htx', ?_⟩⟩
    · show s.initiator.rxCount + 1 ≤ s.responder.rounds
      omega
    · exact ⟨htx, by rw [hrx]⟩

/-- **The responder has received a message.**  It accepts the request that waits for an answer. -/
theorem Inv.handleRequest (hdistinct : roleI.name ≠ roleR.name) (h : s.Inv roleI roleR)
    (hpc : s.responder.pc = .chatRecv) {m : List UInt8} {msg : ChatMsg}
    (hm : Says roleI roleR s.log m) (hparse : parseChat roleR.name m = some msg) :
    (s.handleRequest msg).Inv roleI roleR := by
  unfold Chat.handleRequest
  split_ifs with hwrong
  · exact h.failResponder 1
  · have hseq : msg.seq = .ofNat s.responder.rounds := not_not.1 (not_or.1 hwrong).1
    obtain ⟨i, hi, heq⟩ := h.stage.request_inv (hm.request_inv hdistinct hparse)
    have hrounds := h.stage.rounds_le
    have htx := h.knows.tx
    have hsame : i = s.responder.rounds := ofNat_inj (by omega) (by omega) (heq ▸ hseq)
    cases h.stage with
    | idle hidle => omega
    | asked hasked hlog =>
      refine ⟨fun d hd => (h.net d hd).snoc, .heard hasked ?_ (.inl ?_), h.knows⟩
      · rw [hseq]
        exact congrArg (· ++ [ChatEvent.accept (.ofNat s.responder.rounds)]) hlog
      · exact congrArg ResponderPc.chatSend hseq
    | heard _ _ hheard =>
      rw [hpc] at hheard
      rcases hheard with hsend | ⟨rc, hreturned⟩
      · cases hsend
      · cases hreturned

theorem Inv.runInitiator (hdistinct : roleI.name ≠ roleR.name) (h : s.Inv roleI roleR) {now : Int64}
    (hs : s.runInitiator shared roleI now = some s') : s'.Inv roleI roleR := by
  have hknows := h.knows.pc
  have hrx := h.knows.rx
  have hrounds := h.stage.rounds_le
  cases hpc : s.initiator.pc <;> simp only [Chat.runInitiator, hpc] at hs <;> rw [hpc] at hknows
  case syncSend =>
    split_ifs at hs <;> cases hs
    · exact h.failInitiator
    · exact (h.gotoInitiator .syncRecv ⟨hrx, h.knows.tx, hknows⟩).send _ _ .syncReq
  case syncRecv =>
    cases hs
    refine h.recv (h.gotoInitiator _ ⟨hrx, h.knows.tx, hknows⟩) fun src m net _ hnet => ?_
    split_ifs
    · exact hnet.gotoInitiator _ ⟨hrx, h.knows.tx, hknows⟩
    · exact hnet.gotoInitiator _ ⟨hrx, h.knows.tx, hknows⟩
  case round i =>
    obtain ⟨htx, hrx'⟩ := hknows
    split_ifs at hs with hgo <;> cases hs
    · refine ⟨fun d hd => ?_, ?_, hrx, ?_, congrArg (· + 1) htx, hrx'⟩
      · rcases Net.carries_post.1 hd with hd | rfl
        · exact (h.net d hd).snoc
        · exact .request _ now (List.mem_append_right _ List.mem_cons_self)
      · -- every request so far has been answered
        cases h.stage with
        | idle hidle hlog hpc' =>
          refine .asked (congrArg (· + 1) hidle) ?_ hpc'
          show s.log ++ [.request (.ofNat i)] =
            exchanged s.responder.rounds ++ [.request (.ofNat s.responder.rounds)]
          rw [hlog, ← hidle, htx]
        | asked => omega
        | heard => omega
      · show s.initiator.txCount + 1 ≤ chatRounds
        omega
    · exact h.gotoInitiator _ ⟨hrx, h.knows.tx, trivial⟩
  case chatRecv i =>
    split_ifs at hs <;> cases hs
    · exact h.failInitiator
    · refine h.recv h fun src m net hm hnet => ?_
      split
      · exact hnet
      · rename_i msg hparse
        exact hnet.handleReply hdistinct hpc hm hparse
  case summary =>
    cases hs
    refine h.gotoInitiator _ ⟨hrx, h.knows.tx, ?_⟩
    split_ifs with hfailed
    · trivial
    · exact Nat.not_lt.1 (not_or.1 (not_or.1 hfailed).2).2
  case returned => cases hs

theorem Inv.runResponder (hdistinct : roleI.name ≠ roleR.name) (h : s.Inv roleI roleR) {now : Int64}
    (hs : s.runResponder shared roleR now = some s') : s'.Inv roleI roleR := by
  cases hpc : s.responder.pc <;> simp only [Chat.runResponder, hpc] at hs
  case syncRecv =>
    have hround : Stage s.initiator.txCount s.responder.rounds .round s.log :=
      h.stage.goto (by rw [hpc]; nofun) (by rw [hpc]; nofun) nofun
    split_ifs at hs <;> cases hs
    · exact h.failResponder 1
    · refine h.recv h fun src m net _ hnet => ?_
      split_ifs
      · exact (hnet.gotoResponder hround).send _ _ .syncAck
      · exact hnet
  case round =>
    split_ifs at hs <;> cases hs
    · exact h.gotoResponder (h.stage.goto (by rw [hpc]; nofun) (by rw [hpc]; nofun) nofun)
    · exact h.gotoResponder (h.stage.goto (by rw [hpc]; nofun) (by rw [hpc]; nofun) nofun)
  case chatRecv =>
    split_ifs at hs <;> cases hs
    · exact h.failResponder 1
    · refine h.recv h fun src m net hm hnet => ?_
      split
      · exact hnet
      · rename_i msg hparse
        exact hnet.handleRequest hdistinct hpc hm hparse
  case chatSend seq =>
    cases hs
    have hknows := h.knows
    refine ⟨fun d hd => ?_, ?_, ⟨hknows.rx.trans (Nat.le_succ _), hknows.tx, hknows.pc⟩⟩
    · rcases Net.carries_post.1 hd with hd | rfl
      · exact (h.net d hd).snoc
      · exact .reply _ now (List.mem_append_right _ List.mem_cons_self)
    · -- the reply ends the round
      cases h.stage with
      | idle _ _ hpc' => exact absurd hpc (hpc' seq)
      | asked _ _ hpc' => exact absurd hpc (hpc' seq)
      | heard htx hlog hheard =>
        rw [hpc] at hheard
        rcases hheard with hsend | ⟨rc, hreturned⟩
        · cases hsend
          refine .idle htx ?_ nofun
          show s.log ++ [.reply (.ofNat s.responder.rounds)] = exchanged (s.responder.rounds + 1)
          rw [exchanged_succ, hlog]
        · cases hreturned
  case summary =>
    cases hs
    exact h.failResponder _
  case returned => cases hs

/-- **Every step keeps the invariant.** -/
theorem Inv.act (hdistinct : roleI.name ≠ roleR.name) (h : s.Inv roleI roleR) {a : ChatAction}
    (hs : s.act shared roleI roleR a = some s') : s'.Inv roleI roleR := by
  cases a with
  | node i now =>
    cases i with
    | initiator => exact h.runInitiator hdistinct hs
    | responder => exact h.runResponder hdistinct hs
  | alarm i =>
    cases i with
    | initiator =>
      cases hs
      exact ⟨h.net, h.stage, h.knows.rx, h.knows.tx, h.knows.pc⟩
    | responder =>
      cases hs
      exact ⟨h.net, h.stage, h.knows⟩
  | timeout i =>
    cases i <;> simp only [Chat.act] at hs <;> split_ifs at hs <;> cases hs
    · exact h.failInitiator
    · exact h.failResponder 1
  | error i =>
    cases i <;> simp only [Chat.act] at hs <;> split_ifs at hs <;> cases hs
    · exact h.failInitiator
    · exact h.failResponder 1
  | net a =>
    obtain ⟨net, hnet, rfl⟩ := Option.map_eq_some_iff.1 hs
    exact ⟨fun d hd => h.net d (Net.act_carries hnet hd), h.stage, h.knows⟩

theorem run_inv (hdistinct : roleI.name ≠ roleR.name) {actions : List ChatAction}
    (hrun : LTS.run (act shared roleI roleR) start actions = some s) : s.Inv roleI roleR :=
  LTS.run_invariant (P := Inv roleI roleR) (fun _ _ _ hs ha => hs.act hdistinct ha) start_inv hrun

/-- When the initiator has returned 0, all rounds are over, and nothing else has happened. -/
theorem Inv.log_eq (h : s.Inv roleI roleR) (hpc : s.initiator.pc = .returned 0) :
    s.log = exchanged chatRounds := by
  have hall := h.knows.pc
  rw [hpc] at hall
  have hall : chatRounds ≤ s.initiator.rxCount := hall
  have hrx := h.knows.rx
  have htx := h.knows.tx
  cases h.stage with
  | idle hidle hlog =>
    rw [hlog]
    congr 1
    omega
  | asked => omega
  | heard => omega

/-- The requests that the responder has accepted. -/
def acceptedSeqs (log : List ChatEvent) : List Int32 :=
  log.filterMap fun
    | .accept seq => some seq
    | _ => none

/-- **The lock-step of the chat demo.**  If `run_initiator` returns 0, then the responder accepted the
requests with the numbers from 0 on, in this order and each once; it replied to every one, and to each
of them before the initiator sent the next. -/
theorem lock_step (shared : Bool) (hdistinct : roleI.name ≠ roleR.name) {actions : List ChatAction}
    (hrun : LTS.run (act shared roleI roleR) start actions = some s)
    (hpc : s.initiator.pc = .returned 0) :
    acceptedSeqs s.log = (List.range chatRounds).map .ofNat ∧
      (∀ i < chatRounds, .reply (.ofNat i) ∈ s.log) ∧
      ∀ i, i + 1 < chatRounds → Before (.reply (.ofNat i)) (.request (.ofNat (i + 1))) s.log := by
  rw [(run_inv hdistinct hrun).log_eq hpc]
  have hbefore : ∀ i < chatRounds - 1, ChatEvent.reply (.ofNat i) ∈
      (exchanged chatRounds).takeWhile (· ≠ .request (.ofNat (i + 1))) := by
    decide
  exact ⟨by decide, by decide, fun i hi => before_of_mem_takeWhile (hbefore i (by omega))⟩

/-- Five rounds, after a handshake whose first datagram is lost. -/
def fullChat : List ChatAction :=
  let initiator := ChatAction.node .initiator 1000
  let responder := ChatAction.node .responder 1000
  let deliver := ChatAction.net (.deliver 0)
  [initiator, .net (.drop 0), initiator, initiator, deliver, responder, deliver, initiator] ++
    (List.replicate chatRounds
      [initiator, deliver, responder, responder, responder, deliver, initiator]).flatten ++
    [initiator, initiator]

theorem lock_step_fullChat : ∃ s,
    LTS.run (act true .initiator .responder) start fullChat = some s ∧
      s.initiator.pc = .returned 0 ∧ acceptedSeqs s.log = [0, 1, 2, 3, 4] := by
  have hany : (LTS.run (act true .initiator .responder) start fullChat).any (fun s =>
      s.initiator.pc = .returned 0) = true := by
    decide +kernel
  obtain ⟨s, hrun, hpc⟩ := (Option.any_eq_true _ _).1 hany
  have hpc := of_decide_eq_true hpc
  exact ⟨s, hrun, hpc, (lock_step true (by decide) hrun hpc).1⟩

end Chat

end LinquUb
