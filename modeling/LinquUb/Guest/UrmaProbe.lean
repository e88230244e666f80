import LinquUb.Guest.RpcMessage
import Mathlib.Data.List.TakeWhile
import Mathlib.Logic.Function.Basic

/-!
# Probes of the URMA data plane

`consume_probe_payload` of `urma_dp.c` takes a packet if it comes from another role, and copies it,
without a private header in front of it, to the buffer of the caller.

* `acceptProbe` : where the payload of a packet begins that is taken;
* `acceptProbe_eq_some_iff` : exactly the packets that carry `urma-dp:<role>:` are taken;
* `consumeProbePayload` : the function on a memory; `none` is a call without defined behaviour;
* `consumeProbePayload_iff` : **it does what it should exactly if it need not copy a range onto
  itself**;
* `consumeProbePayload_inPlace` : so it never does for a packet that `try_recv_peer` reads from the
  UDP socket, which lies in the buffer of the caller already.

Logging is left out.
-/

namespace LinquUb

/-! ### Acceptance -/

def probePrefix : CString := ascii "urma-dp:"

/-- `payload_off`, if the packet has the prefix. -/
def probeOffset (pkt : List UInt8) : Option ℕ :=
  if probePrefix.length ≤ pkt.length ∧ pkt.take probePrefix.length = probePrefix then some 0
  else if probePrefix.length + 2 < pkt.length ∧
      (pkt.drop 2).take probePrefix.length = probePrefix then some 2
  else none

/-- The checks on what follows the prefix. -/
def fromOtherRole (localRole body : CString) : Bool :=
  if body.length ≤ probePrefix.length + 1 then false
  else
    let roleBegin := body.drop probePrefix.length
    if 58 ∉ roleBegin then false
    else
      let role := roleBegin.takeWhile (· ≠ 58)
      role ≠ [] ∧ role ≠ localRole

/-- Where the payload begins, for the packets for which the function returns 1. -/
def acceptProbe (pkt : List UInt8) (rxIfindex ifindex : UInt32) (localRole : CString) : Option ℕ :=
  if rxIfindex ≠ 0 ∧ rxIfindex ≠ ifindex then none
  else do
    let payloadOff ← probeOffset pkt
    if fromOtherRole localRole (pkt.drop payloadOff) then some payloadOff else none

/-- The text is `urma-dp:<role>:` and something behind it, for another role. -/
def FromOtherRole (localRole body : CString) : Prop :=
  ∃ role rest, body = probePrefix ++ (role ++ 58 :: rest) ∧ 58 ∉ role ∧ role ≠ [] ∧
    role ≠ localRole

/-- The interface index is missing or right. -/
def RightInterface (rxIfindex ifindex : UInt32) : Prop := rxIfindex = 0 ∨ rxIfindex = ifindex

variable {pkt body localRole : CString} {rxIfindex ifindex : UInt32} {off : ℕ}

/-- `memchr` finds the end of the role. -/
theorem takeWhile_role {role : CString} (hrole : 58 ∉ role) (rest : CString) :
    (role ++ 58 :: rest).takeWhile (· ≠ 58) = role := by
  rw [List.takeWhile_append_of_pos, List.takeWhile_cons_of_neg (by decide), List.append_nil]
  exact fun c hc => decide_eq_true fun heq => hrole (heq ▸ hc)

theorem fromOtherRole_iff (hfront : body.take probePrefix.length = probePrefix) :
    fromOtherRole localRole body = true ↔ FromOtherRole localRole body := by
  have hbody : body = probePrefix ++ body.drop probePrefix.length := by
    conv_lhs => rw [← List.take_append_drop probePrefix.length body, hfront]
  constructor
  · intro h
    unfold fromOtherRole at h
    dsimp only at h
    split_ifs at h with hshort hcolon
    obtain ⟨role, rest, hsplit, hrole⟩ := List.eq_append_cons_of_mem hcolon
    rw [hsplit, takeWhile_role hrole] at h
    obtain ⟨hne, hother⟩ := of_decide_eq_true h
    exact ⟨role, rest, hsplit ▸ hbody, hrole, hne, hother⟩
  · rintro ⟨role, rest, rfl, hrole, hne, hother⟩
    have hlength := List.length_pos_iff.2 hne
    have hshort : ¬ (probePrefix ++ (role ++ 58 :: rest)).length ≤ probePrefix.length + 1 := by
      rw [List.length_append, List.length_append, List.length_cons]
      omega
    have hcolon : ¬ 58 ∉ role ++ 58 :: rest :=
      not_not_intro (List.mem_append_right role List.mem_cons_self)
    simp only [fromOtherRole, if_neg hshort, List.drop_left, if_neg hcolon, takeWhile_role hrole]
    exact decide_eq_true ⟨hne, hother⟩

theorem FromOtherRole.take_eq (h : FromOtherRole localRole body) :
    body.take probePrefix.length = probePrefix ∧ probePrefix.length < body.length := by
  obtain ⟨role, rest, rfl, -, -, -⟩ := h
  refine ⟨List.take_left, ?_⟩
  rw [List.length_append, List.length_append, List.length_cons]
  omega

/-- The prefix does not stand at both offsets. -/
theorem prefix_once (h : (pkt.drop 2).take probePrefix.length = probePrefix) :
    pkt.take probePrefix.length ≠ probePrefix := by
  intro h'
  have hthird : (pkt.drop 2)[0]? = probePrefix[0]? := by
    rw [← h, List.getElem?_take_of_lt (by decide)]
  have hthird' : pkt[2]? = probePrefix[2]? := by
    rw [← h', List.getElem?_take_of_lt (by decide)]
  rw [List.getElem?_drop, hthird'] at hthird
  exact absurd hthird (by decide)

/-- **The packets that are taken.** -/
theorem acceptProbe_eq_some_iff : acceptProbe pkt rxIfindex ifindex localRole = some off ↔
    RightInterface rxIfindex ifindex ∧ (off = 0 ∨ off = 2) ∧
      FromOtherRole localRole (pkt.drop off) := by
  by_cases hif : rxIfindex ≠ 0 ∧ rxIfindex ≠ ifindex
  · have hwrong : ¬ RightInterface rxIfindex ifindex := fun h => h.elim hif.1 hif.2
    rw [acceptProbe, if_pos hif]
    exact iff_of_false (by simp) fun h => hwrong h.1
  have hright : RightInterface rxIfindex ifindex := by
    by_contra h
    exact hif ⟨fun h0 => h (.inl h0), fun h0 => h (.inr h0)⟩
  rw [acceptProbe, if_neg hif, and_iff_right hright]
  simp only [Option.bind_eq_bind, Option.bind_eq_some_iff, Option.ite_none_right_eq_some,
    Option.some.injEq]
  constructor
  · rintro ⟨o, hoffset, hrole, rfl⟩
    unfold probeOffset at hoffset
    split_ifs at hoffset with hfirst hsecond
    · cases hoffset
      exact ⟨.inl rfl, (fromOtherRole_iff hfirst.2).1 hrole⟩
    · cases hoffset
      exact ⟨.inr rfl, (fromOtherRole_iff hsecond.2).1 hrole⟩
  · rintro ⟨hoff, hrole⟩
    obtain ⟨htake, hlength⟩ := hrole.take_eq
    refine ⟨off, ?_, (fromOtherRole_iff htake).2 hrole, rfl⟩
    unfold probeOffset
    rcases hoff with rfl | rfl
    · exact if_pos ⟨hlength.le, htake⟩
    · rw [List.length_drop] at hlength
      rw [if_neg fun h => prefix_once htake h.2, if_pos ⟨by omega, htake⟩]

/-! ### Copying -/

abbrev Memory := ℕ → UInt8

def bytesAt (mem : Memory) (addr len : ℕ) : List UInt8 :=
  (List.range len).map fun i => mem (addr + i)

/-- Two ranges of `len` bytes do not overlap. -/
def Apart (dst src len : ℕ) : Prop := dst + len ≤ src ∨ src + len ≤ dst

instance (dst src len : ℕ) : Decidable (Apart dst src len) := inferInstanceAs (Decidable (_ ∨ _))

/-- It has no defined behaviour on ranges that overlap. -/
def memcpy (mem : Memory) (dst src len : ℕ) : Option Memory :=
  if Apart dst src len then
    some fun a => if dst ≤ a ∧ a < dst + len then mem (src + (a - dst)) else mem a
  else none

/-- `copy_len` -/
def probeCopyLen (bodyLen payloadLen : ℕ) : ℕ :=
  if bodyLen ≥ payloadLen then payloadLen - 1 else bodyLen

section Consume

variable (mem : Memory) (pkt pktLen : ℕ) (rxIfindex ifindex : UInt32) (localRole : CString)
  (payload payloadLen : ℕ)

/-- Whether 1 is returned, and the memory behind the call. -/
def consumeProbePayload : Option (Bool × Memory) :=
  match acceptProbe (bytesAt mem pkt pktLen) rxIfindex ifindex localRole with
  | none => some (false, mem)
  | some payloadOff => do
    let copyLen := probeCopyLen (pktLen - payloadOff) payloadLen
    let mem ← memcpy mem payload (pkt + payloadOff) copyLen
    return (true, Function.update mem (payload + copyLen) 0)

/-- The text lies at the address, with a NUL behind it. -/
def HoldsText (mem : Memory) (addr : ℕ) (text : CString) : Prop :=
  bytesAt mem addr text.length = text ∧ mem (addr + text.length) = 0

/-- What the function should do: it takes the packets of other roles, and then the buffer holds
their text, cut to its length. -/
structure ProbeConsumed (accepted : Bool) (mem' : Memory) : Prop where
  accepted_iff : accepted = true ↔ RightInterface rxIfindex ifindex ∧
    ∃ off, (off = 0 ∨ off = 2) ∧ FromOtherRole localRole ((bytesAt mem pkt pktLen).drop off)
  text : accepted = true → ∀ off, off = 0 ∨ off = 2 →
    FromOtherRole localRole ((bytesAt mem pkt pktLen).drop off) →
    HoldsText mem' payload (((bytesAt mem pkt pktLen).drop off).take (payloadLen - 1))

end Consume

variable {mem mem' : Memory} {addr dst src len pktAddr pktLen payload payloadLen : ℕ}

@[simp] theorem length_bytesAt : (bytesAt mem addr len).length = len := by
  rw [bytesAt, List.length_map, List.length_range]

theorem bytesAt_drop (n : ℕ) :
    (bytesAt mem addr len).drop n = bytesAt mem (addr + n) (len - n) := by
  refine List.ext_getElem (by simp) fun i hi _ => ?_
  simp [bytesAt, Nat.add_assoc]

theorem bytesAt_take (n : ℕ) : (bytesAt mem addr len).take n = bytesAt mem addr (min n len) := by
  refine List.ext_getElem (by simp) fun i hi _ => ?_
  simp [bytesAt]

theorem probeCopyLen_eq (hlen : 0 < payloadLen) (bodyLen : ℕ) :
    probeCopyLen bodyLen payloadLen = min (payloadLen - 1) bodyLen := by
  unfold probeCopyLen
  split_ifs <;> omega

/-- What is copied is in the buffer, in front of the NUL. -/
theorem holdsText_memcpy (h : memcpy mem dst src len = some mem') :
    HoldsText (Function.update mem' (dst + len) 0) dst (bytesAt mem src len) := by
  unfold memcpy at h
  split_ifs at h
  cases h
  refine ⟨List.ext_getElem (by simp) fun i hi _ => ?_, ?_⟩
  · rw [length_bytesAt, length_bytesAt] at hi
    have hne : dst + i ≠ dst + len := by omega
    simp [bytesAt, Function.update_of_ne hne, hi]
  · rw [length_bytesAt, Function.update_self]

/-- **Probes are consumed as they should be** exactly if a packet that is taken does not overlap
with the part of the buffer that it is copied to. -/
theorem consumeProbePayload_iff (mem : Memory) (pkt pktLen : ℕ) (rxIfindex ifindex : UInt32)
    (localRole : CString) (payload payloadLen : ℕ) (hlen : 0 < payloadLen) :
    (∃ accepted mem', consumeProbePayload mem pkt pktLen rxIfindex ifindex localRole payload
        payloadLen = some (accepted, mem') ∧
      ProbeConsumed mem pkt pktLen rxIfindex ifindex localRole payload payloadLen accepted mem') ↔
    ∀ off, acceptProbe (bytesAt mem pkt pktLen) rxIfindex ifindex localRole = some off →
      Apart payload (pkt + off) (min (payloadLen - 1) (pktLen - off)) := by
  unfold consumeProbePayload
  cases haccept : acceptProbe (bytesAt mem pkt pktLen) rxIfindex ifindex localRole with
  | none =>
    refine iff_of_true ⟨false, mem, rfl, ?_, fun h => absurd h Bool.false_ne_true⟩ fun off h => by
      cases h
    refine iff_of_false Bool.false_ne_true ?_
    rintro ⟨hif, off, hoff, hrole⟩
    rw [acceptProbe_eq_some_iff.2 ⟨hif, hoff, hrole⟩] at haccept
    cases haccept
  | some off =>
    have hspec := acceptProbe_eq_some_iff.1 haccept
    simp only [Option.bind_eq_bind, Option.some.injEq, forall_eq', probeCopyLen_eq hlen]
    constructor
    · rintro ⟨accepted, mem', hconsume, -⟩
      obtain ⟨copied, hcopy, -⟩ := Option.bind_eq_some_iff.1 hconsume
      unfold memcpy at hcopy
      split_ifs at hcopy with hapart
      exact hapart
    · intro hapart
      obtain ⟨copied, hcopy⟩ : ∃ copied, memcpy mem payload (pkt + off)
          (min (payloadLen - 1) (pktLen - off)) = some copied := ⟨_, if_pos hapart⟩
      rw [hcopy]
      refine ⟨true, _, rfl, iff_of_true rfl ⟨hspec.1, off, hspec.2⟩, ?_⟩
      intro _ off' hoff' hrole'
      -- a packet is taken at one offset only
      have hsame := acceptProbe_eq_some_iff.2 ⟨hspec.1, hoff', hrole'⟩
      rw [haccept] at hsame
      cases hsame
      rw [bytesAt_drop, bytesAt_take]
      have hholds := holdsText_memcpy hcopy
      exact hholds

/-- A probe of the other node, from an address on. -/
def probeAt (addr : ℕ) : Memory := fun a => (ascii "urma-dp:nodeB:00001f2e:3").getD (a - addr) 0

/-- A probe from the raw socket. -/
theorem consumeProbePayload_raw : ∃ accepted mem',
    consumeProbePayload (probeAt 28) 28 24 2 2 (ascii "nodeA") 4096 256 = some (accepted, mem') ∧
      ProbeConsumed (probeAt 28) 28 24 2 2 (ascii "nodeA") 4096 256 accepted mem' := by
  have haccept : acceptProbe (bytesAt (probeAt 28) 28 24) 2 2 (ascii "nodeA") = some 0 := by
    decide +kernel
  refine (consumeProbePayload_iff (probeAt 28) 28 24 2 2 (ascii "nodeA") 4096 256
    (by decide)).2 fun off hoff => ?_
  rw [haccept] at hoff
  cases hoff
  decide

/-- **In place.**  A packet that lies in the buffer is taken without defined behaviour. -/
theorem consumeProbePayload_inPlace (hroom : pktLen < payloadLen) {localRole : CString}
    (haccept : acceptProbe (bytesAt mem payload pktLen) rxIfindex ifindex localRole = some off) :
    consumeProbePayload mem payload pktLen rxIfindex ifindex localRole payload payloadLen =
      none := by
  obtain ⟨-, hoff, hrole⟩ := acceptProbe_eq_some_iff.1 haccept
  have hlength := hrole.take_eq.2
  rw [List.length_drop, length_bytesAt, show probePrefix.length = 8 from rfl] at hlength
  simp only [consumeProbePayload, haccept, probeCopyLen_eq (by omega : 0 < payloadLen)]
  have hoverlap : ¬ Apart payload (payload + off) (min (payloadLen - 1) (pktLen - off)) := by
    unfold Apart
    omega
  rw [memcpy, if_neg hoverlap]
  rfl

/-- The same probe from the UDP socket. -/
theorem consumeProbePayload_udp_undefined :
    acceptProbe (bytesAt (probeAt 4096) 4096 24) 2 2 (ascii "nodeA") = some 0 ∧
    ¬ ∃ accepted mem',
      consumeProbePayload (probeAt 4096) 4096 24 2 2 (ascii "nodeA") 4096 256 =
        some (accepted, mem') ∧
      ProbeConsumed (probeAt 4096) 4096 24 2 2 (ascii "nodeA") 4096 256 accepted mem' := by
  have haccept : acceptProbe (bytesAt (probeAt 4096) 4096 24) 2 2 (ascii "nodeA") = some 0 := by
    decide +kernel
  refine ⟨haccept, ?_⟩
  rintro ⟨accepted, mem', hconsume, -⟩
  rw [consumeProbePayload_inPlace (by decide) haccept] at hconsume
  cases hconsume

end LinquUb
