import LinquUb.Guest.Pool
import Mathlib.Data.Fintype.Card

/-!
# Agreement on the rounds of the OBMM pool demo

* `PoolPc.rank` : how far a node is;
* `Pool.RoundsInv` : what the position of a node, and every message on the network, says about the
  other nodes;
* `Pool.round_agreement` : **when a node passes a round, every node but the owner of the round has
  verified the owner's slot**.

The network may lose, duplicate, delay and reorder the datagrams, and nodes may time out.
-/

namespace LinquUb

variable {n : ℕ}

/-! ### What a message says -/

theorem idx_inj (hn : n ≤ maxNodes) {a b : ℕ} (ha : a < n) (hb : b < n)
    (h : UInt16.ofNat a = UInt16.ofNat b) : a = b := by
  have hnat := congrArg UInt16.toNat h
  unfold maxNodes at hn
  rw [UInt16.toNat_ofNat', UInt16.toNat_ofNat', Nat.mod_eq_of_lt (by omega),
    Nat.mod_eq_of_lt (by omega)] at hnat
  exact hnat

theorem PoolMsg.isRoundMsg_inv (m : PoolMsg) {type : UInt16} {a b r : ℕ}
    (h : m.isRoundMsg type a b r = true) : m.type = type ∧ m.roundIdx = .ofNat r := by
  have hand := of_decide_eq_true h
  exact ⟨hand.2.1, hand.2.2.2.2⟩

theorem PoolMsg.sender_eq (hn : n ≤ maxNodes) {m : PoolMsg} {src : Fin n}
    (h : m.srcIdx = .ofNat src) : m.sender n = some src := by
  have hlt := src.isLt
  unfold maxNodes at hn
  have hsrc : m.srcIdx.toNat = src := by
    rw [h, UInt16.toNat_ofNat', Nat.mod_eq_of_lt (by omega)]
  rw [PoolMsg.sender, dif_pos (hsrc ▸ hlt)]
  exact congrArg some (Fin.ext hsrc)

theorem Exchange.msg_type (localMeta : Fin n → ObmmDemoMeta) (ph : Exchange) (i k : Fin n) :
    (ph.msg localMeta i k).type = ph.msgType := by
  cases ph <;> rfl

theorem Exchange.msgType_ne (ph : Exchange) :
    ph.msgType ≠ msgRoundTurn ∧ ph.msgType ≠ msgRoundAck ∧ ph.msgType ≠ msgRoundCommit := by
  cases ph <;> decide

def Exchange.rank : Exchange → ℕ
  | hello => 0
  | ready => 1

theorem Exchange.rank_le (ph : Exchange) : ph.rank ≤ 1 := by
  cases ph <;> decide

namespace PoolPc

/-- How far a node is. -/
def rank : PoolPc n → ℕ
  | .exchange ph => ph.rank
  | .exchangeSend ph _ => ph.rank
  | .exchangeRecv ph => ph.rank
  | .round r => 8 * r + 2
  | .verifyOwn r => 8 * r + 3
  | .turnWait r => 8 * r + 3
  | .turnSend r _ => 8 * r + 4
  | .verify r => 8 * r + 4
  | .acks r => 8 * r + 5
  | .ackSend r => 8 * r + 5
  | .commitSend r _ _ => 8 * r + 6
  | .commitWait r => 8 * r + 6
  | .done => 8 * n + 2

/-- The owner of round `r` has sent TURN to node `j`. -/
def Turned (pc : PoolPc n) (r j : Fin n) : Prop :=
  8 * r + 5 ≤ pc.rank ∨ ∃ k, pc = .turnSend r k ∧ j < k

/-- Only the owner of a round is where an owner is. -/
def Plays (i : Fin n) : PoolPc n → Prop
  | .verifyOwn r => i = r
  | .turnSend r _ => i = r
  | .acks r => i = r
  | .commitSend r _ _ => i = r
  | .turnWait r => i ≠ r
  | .verify r => i ≠ r
  | .ackSend r => i ≠ r
  | .commitWait r => i ≠ r
  | _ => True

/-- A node can get from `p` to `q`. -/
structure Precedes (p q : PoolPc n) : Prop where
  rank : p.rank ≤ q.rank
  turned : ∀ r j, p.Turned r j → q.Turned r j

theorem rank_atRound {k : ℕ} (hk : k ≤ n) : (atRound n k).rank = 8 * k + 2 := by
  unfold atRound
  split_ifs with hlt
  · rfl
  · rw [rank, Nat.le_antisymm hk (Nat.not_lt.1 hlt)]

theorem plays_atRound (i : Fin n) (k : ℕ) : (atRound n k).Plays i := by
  unfold atRound
  split_ifs <;> trivial

theorem atRound_ne_acks (k : ℕ) (r : Fin n) : atRound n k ≠ .acks r := by
  unfold atRound
  split_ifs <;> simp

theorem Precedes.refl (p : PoolPc n) : p.Precedes p := ⟨le_rfl, fun _ _ => id⟩

theorem Precedes.of_rank {p q : PoolPc n} (hrank : p.rank ≤ q.rank)
    (hp : ∀ r k, p ≠ .turnSend r k) : p.Precedes q := by
  refine ⟨hrank, ?_⟩
  rintro r j (hlt | ⟨k, heq, -⟩)
  · exact .inl (hlt.trans hrank)
  · exact absurd heq (hp r k)

theorem precedes_turnSend (r : Fin n) (k : ℕ) :
    (turnSend r k).Precedes (turnSend r (k + 1)) := by
  refine ⟨le_rfl, ?_⟩
  rintro r' j (hlt | ⟨k', heq, hj⟩)
  · exact .inl hlt
  · cases heq
    exact .inr ⟨k + 1, rfl, by omega⟩

theorem precedes_acks (r : Fin n) (k : ℕ) : (turnSend r k).Precedes (acks r) := by
  refine ⟨by simp [rank], ?_⟩
  rintro r' j (hlt | ⟨k', heq, -⟩)
  · exact .inl (hlt.trans (by simp [rank]))
  · cases heq
    exact .inl (by simp [rank])

end PoolPc

namespace Pool

/-- Node `j` has acknowledged round `r`. -/
def Acked (s : Pool n) (j r : Fin n) : Prop := 8 * r + 6 ≤ (s.node j).pc.rank

/-- The owner of round `r` has got all its acknowledgements. -/
def Collected (s : Pool n) (r : Fin n) : Prop := 8 * r + 6 ≤ (s.node r).pc.rank

/-- What may be on the network. -/
inductive Sendable (localMeta : Fin n → ObmmDemoMeta) (s : Pool n) : PoolDatagram n → Prop
  | exchange (ph : Exchange) (i k : Fin n) : Sendable localMeta s ⟨i, k, ph.msg localMeta i k⟩
  | turn {r j : Fin n} (hj : j ≠ r) (hturned : (s.node r).pc.Turned r j) :
    Sendable localMeta s ⟨r, j, roundMsg msgRoundTurn r j r⟩
  | ack {r j : Fin n} (hj : j ≠ r) (hturned : (s.node r).pc.Turned r j) (hacked : s.Acked j r) :
    Sendable localMeta s ⟨j, r, roundMsg msgRoundAck j r r⟩
  | commit {r j : Fin n} (hj : j ≠ r) (hcollected : s.Collected r) :
    Sendable localMeta s ⟨r, j, roundMsg msgRoundCommit r j r⟩

/-- What is known when node `i` is in the state `p`. -/
structure NodeInv (s : Pool n) (i : Fin n) (p : PoolNode n) : Prop where
  role : p.pc.Plays i
  turned : ∀ r, r ≠ i → 8 * r + 4 ≤ p.pc.rank → (s.node r).pc.Turned r i
  verified : ∀ r, r ≠ i → 8 * r + 5 ≤ p.pc.rank → (i, r) ∈ s.verified
  collected : 8 * i + 6 ≤ p.pc.rank → ∀ j, j ≠ i → s.Acked j i
  committed : ∀ r, r ≠ i → 8 * r + 10 ≤ p.pc.rank → s.Collected r
  acks : p.pc = .acks i → (∀ j, p.gotAck j = true → s.Acked j i) ∧
    p.pending = (Finset.univ.filter fun j => j ≠ i ∧ p.gotAck j = false).card

/-- Every slot that a node has verified still matches. -/
def SlotsMatch (s : Pool n) : Prop :=
  ∀ x ∈ s.verified, slotMatchesPayload (s.slot x.2) x.2 x.2 = true

/-- What holds when all nodes start at the loop `first`. -/
structure RoundsInv (localMeta : Fin n → ObmmDemoMeta) (first : Exchange) (s : Pool n) : Prop where
  begun : ∀ i, first.rank ≤ (s.node i).pc.rank
  node : ∀ i, s.NodeInv i (s.node i)
  net : ∀ d, s.net.Carries d → s.Sendable localMeta d
  passed : ∀ x ∈ s.passed, s.Collected x.2
  slots : s.SlotsMatch

variable {localMeta : Fin n → ObmmDemoMeta} {first : Exchange} {s s' : Pool n} {i : Fin n} {p : PoolNode n}

/-! ### What stays true -/

/-- No node has gone back. -/
structure Later (s s' : Pool n) : Prop where
  pc : ∀ j, (s.node j).pc.Precedes (s'.node j).pc
  verified : s.verified ⊆ s'.verified

theorem Later.acked (h : Later s s') {j r : Fin n} (ha : s.Acked j r) : s'.Acked j r :=
  ha.trans (h.pc j).rank

theorem Later.collected (h : Later s s') {r : Fin n} (hc : s.Collected r) : s'.Collected r :=
  hc.trans (h.pc r).rank

theorem Sendable.later {d : PoolDatagram n} (hd : s.Sendable localMeta d) (h : Later s s') :
    s'.Sendable localMeta d := by
  cases hd with
  | exchange ph i k => exact .exchange ph i k
  | turn hj hturned => exact .turn hj ((h.pc _).turned _ _ hturned)
  | ack hj hturned hacked => exact .ack hj ((h.pc _).turned _ _ hturned) (h.acked hacked)
  | commit hj hcollected => exact .commit hj (h.collected hcollected)

theorem NodeInv.later (hp : s.NodeInv i p) (h : Later s s') : s'.NodeInv i p where
  role := hp.role
  turned r hr hrank := (h.pc r).turned r i (hp.turned r hr hrank)
  verified r hr hrank := h.verified (hp.verified r hr hrank)
  collected hrank j hj := h.acked (hp.collected hrank j hj)
  committed r hr hrank := h.collected (hp.committed r hr hrank)
  acks hpc := ⟨fun j hj => h.acked ((hp.acks hpc).1 j hj), (hp.acks hpc).2⟩

/-- Node `i` moves to the state `p`. -/
theorem RoundsInv.move (h : s.RoundsInv localMeta first) (hnode : s'.node = Function.update s.node i p)
    (hpc : (s.node i).pc.Precedes p.pc) (hverified : s.verified ⊆ s'.verified)
    (hp : Later s s' → s'.NodeInv i p)
    (hnet : Later s s' → ∀ d, s'.net.Carries d → s.net.Carries d ∨ s'.Sendable localMeta d)
    (hpassed : ∀ x ∈ s'.passed, x ∈ s.passed ∨ s'.Collected x.2) (hslots : s'.SlotsMatch) :
    s'.RoundsInv localMeta first := by
  have hlater : Later s s' := by
    refine ⟨fun j => ?_, hverified⟩
    rw [hnode, Function.update_apply]
    split_ifs with hj
    · exact hj ▸ hpc
    · exact .refl _
  refine ⟨fun j => (h.begun j).trans (hlater.pc j).rank, ?_, ?_, ?_, hslots⟩
  · intro j
    by_cases hj : j = i
    · subst hj
      rw [hnode, Function.update_self]
      exact hp hlater
    · rw [hnode, Function.update_of_ne hj]
      exact (h.node j).later hlater
  · intro d hd
    exact (hnet hlater d hd).elim (fun hold => (h.net d hold).later hlater) id
  · intro x hx
    exact (hpassed x hx).elim (fun hold => hlater.collected (h.passed x hold)) id

/-- A node that goes on to `q` knows what it knew before and what is new at `q`. -/
theorem NodeInv.goto (h : s.NodeInv i p) {q : PoolPc n} (hrole : q.Plays i)
    (hacks : ∀ r, q ≠ .acks r)
    (hturned : ∀ r, r ≠ i → p.pc.rank < 8 * r + 4 → 8 * r + 4 ≤ q.rank → (s.node r).pc.Turned r i)
    (hverified : ∀ r, r ≠ i → p.pc.rank < 8 * r + 5 → 8 * r + 5 ≤ q.rank → (i, r) ∈ s.verified)
    (hcollected : p.pc.rank < 8 * i + 6 → 8 * i + 6 ≤ q.rank → ∀ j, j ≠ i → s.Acked j i)
    (hcommitted : ∀ r, r ≠ i → p.pc.rank < 8 * r + 10 → 8 * r + 10 ≤ q.rank → s.Collected r) :
    s.NodeInv i { p with pc := q } where
  role := hrole
  turned r hr hrank := (Nat.lt_or_ge p.pc.rank (8 * r + 4)).elim
    (fun hlt => hturned r hr hlt hrank) (h.turned r hr)
  verified r hr hrank := (Nat.lt_or_ge p.pc.rank (8 * r + 5)).elim
    (fun hlt => hverified r hr hlt hrank) (h.verified r hr)
  collected hrank := (Nat.lt_or_ge p.pc.rank (8 * i + 6)).elim
    (fun hlt => hcollected hlt hrank) h.collected
  committed r hr hrank := (Nat.lt_or_ge p.pc.rank (8 * r + 10)).elim
    (fun hlt => hcommitted r hr hlt hrank) (h.committed r hr)
  acks hpc := absurd hpc (hacks i)

/-! ### Parts of a step -/

theorem RoundsInv.setNode (h : s.RoundsInv localMeta first) (hpc : (s.node i).pc.Precedes p.pc)
    (hp : Later s (s.setNode i p) → (s.setNode i p).NodeInv i p) :
    (s.setNode i p).RoundsInv localMeta first :=
  h.move rfl hpc (List.Subset.refl _) hp (fun _ _ => .inl) (fun _ => .inl) h.slots

/-- Node `i` goes on to `q`. -/
theorem RoundsInv.goto (h : s.RoundsInv localMeta first) {q : PoolPc n}
    (hpc : (s.node i).pc.Precedes q) (hrole : q.Plays i) (hacks : ∀ r, q ≠ .acks r)
    (hturned : ∀ r, r ≠ i → (s.node i).pc.rank < 8 * r + 4 → 8 * r + 4 ≤ q.rank →
      (s.node r).pc.Turned r i)
    (hverified : ∀ r, r ≠ i → (s.node i).pc.rank < 8 * r + 5 → 8 * r + 5 ≤ q.rank →
      (i, r) ∈ s.verified)
    (hcollected : (s.node i).pc.rank < 8 * i + 6 → 8 * i + 6 ≤ q.rank → ∀ j, j ≠ i → s.Acked j i)
    (hcommitted : ∀ r, r ≠ i → (s.node i).pc.rank < 8 * r + 10 → 8 * r + 10 ≤ q.rank →
      s.Collected r) : (s.goto i q).RoundsInv localMeta first :=
  h.setNode hpc fun hlater => NodeInv.later
    ((h.node i).goto hrole hacks hturned hverified hcollected hcommitted) hlater

/-- Node `i` goes on to `q`, where nothing new is known. -/
theorem RoundsInv.quiet (h : s.RoundsInv localMeta first) {q : PoolPc n} (hpc : (s.node i).pc.Precedes q)
    (hrole : q.Plays i) (hacks : ∀ r, q ≠ .acks r)
    (hnone : ∀ r : ℕ, (8 * r + 4 ≤ q.rank → 8 * r + 4 ≤ (s.node i).pc.rank) ∧
      (8 * r + 5 ≤ q.rank → 8 * r + 5 ≤ (s.node i).pc.rank) ∧
      (8 * r + 6 ≤ q.rank → 8 * r + 6 ≤ (s.node i).pc.rank) ∧
      (8 * r + 10 ≤ q.rank → 8 * r + 10 ≤ (s.node i).pc.rank)) : (s.goto i q).RoundsInv localMeta first :=
  h.goto hpc hrole hacks (fun r _ hlt hle => absurd ((hnone r).1 hle) (by omega))
    (fun r _ hlt hle => absurd ((hnone r).2.1 hle) (by omega))
    (fun hlt hle => absurd ((hnone i).2.2.1 hle) (by omega))
    (fun r _ hlt hle => absurd ((hnone r).2.2.2 hle) (by omega))

/-- Less is on the network, and the nodes are where they were. -/
theorem RoundsInv.shrink (h : s.RoundsInv localMeta first) (hnode : s'.node = s.node)
    (hverified : s'.verified = s.verified) (hpassed : s'.passed = s.passed)
    (hnet : ∀ d, s'.net.Carries d → s.net.Carries d) (hslots : s'.SlotsMatch) :
    s'.RoundsInv localMeta first := by
  have hlater : Later s s' := ⟨fun j => hnode ▸ .refl _, hverified ▸ List.Subset.refl _⟩
  exact ⟨fun j => (h.begun j).trans (hlater.pc j).rank, fun j => hnode ▸ (h.node j).later hlater,
    fun d hd => (h.net d (hnet d hd)).later hlater,
    fun x hx => hlater.collected (h.passed x (hpassed ▸ hx)), hslots⟩

theorem RoundsInv.accept (h : s.RoundsInv localMeta first) {src : Fin n} {m : PoolMsg}
    {rest : List (Fin n × PoolMsg)} (hsocket : s.net.socket i = (src, m) :: rest) :
    (s.accept i src m rest).RoundsInv localMeta first :=
  h.shrink rfl rfl rfl (fun _ => Net.take_carries hsocket) h.slots

theorem RoundsInv.discard (h : s.RoundsInv localMeta first) {src : Fin n} {m : PoolMsg}
    {rest : List (Fin n × PoolMsg)} (hsocket : s.net.socket i = (src, m) :: rest) :
    (s.discard i src m rest).RoundsInv localMeta first :=
  h.shrink rfl rfl rfl (fun _ => Net.take_carries hsocket) h.slots

theorem RoundsInv.post (h : s.RoundsInv localMeta first) {j : Fin n} {m : PoolMsg}
    (hd : s.Sendable localMeta ⟨i, j, m⟩) : (s.post i j m).RoundsInv localMeta first := by
  have hlater : Later s (s.post i j m) := ⟨fun j => .refl _, List.Subset.refl _⟩
  refine ⟨h.begun, fun j => (h.node j).later hlater, fun d hd' => ?_, h.passed, h.slots⟩
  rcases Net.carries_post.1 hd' with hold | rfl
  · exact (h.net d hold).later hlater
  · exact hd.later hlater

theorem RoundsInv.logVerified (h : s.RoundsInv localMeta first) {r : Fin n}
    (hmatches : slotMatchesPayload (s.slot r) r r = true) :
    (s.logVerified i r).RoundsInv localMeta first := by
  have hlater : Later s (s.logVerified i r) :=
    ⟨fun j => .refl _, List.subset_cons_self _ _⟩
  refine ⟨h.begun, fun j => (h.node j).later hlater, fun d hd => (h.net d hd).later hlater, h.passed,
    ?_⟩
  rintro x (_ | ⟨_, hx⟩)
  · exact hmatches
  · exact h.slots x hx

theorem RoundsInv.logPassed (h : s.RoundsInv localMeta first) {r : Fin n} (hr : s.Collected r) :
    (s.logPassed i r).RoundsInv localMeta first := by
  have hlater : Later s (s.logPassed i r) := ⟨fun j => .refl _, List.Subset.refl _⟩
  refine ⟨h.begun, fun j => (h.node j).later hlater, fun d hd => (h.net d hd).later hlater, ?_,
    h.slots⟩
  rintro x (_ | ⟨_, hx⟩)
  · exact hr
  · exact h.passed x hx

theorem slotMatchesPayload_write (ownerIdx slotIdx : ℕ) :
    slotMatchesPayload (writeSlotPayload ownerIdx slotIdx) ownerIdx slotIdx = true := by
  simp [slotMatchesPayload, writeSlotPayload]

/-- A slot that is written again matches as before. -/
theorem RoundsInv.writeSlot (h : s.RoundsInv localMeta first) (r : Fin n) :
    (s.writeSlot r).RoundsInv localMeta first := by
  refine h.shrink rfl rfl rfl (fun _ => id) fun x hx => ?_
  show slotMatchesPayload (Function.update s.slot r (writeSlotPayload r r) x.2) x.2 x.2 = true
  by_cases hr : x.2 = r
  · rw [hr, Function.update_self]
    exact slotMatchesPayload_write r r
  · rw [Function.update_of_ne hr]
    exact h.slots x hx

/-- A send loop over the peers. -/
theorem RoundsInv.sendTo {k : ℕ} {skip : Fin n → Bool} {m : Fin n → PoolMsg} {next : PoolPc n}
    {last : Pool n} (hnext : k < n → (s.goto i next).RoundsInv localMeta first)
    (hlast : n ≤ k → last.RoundsInv localMeta first)
    (hm : ∀ hk : k < n, skip ⟨k, hk⟩ = false →
      (s.goto i next).Sendable localMeta ⟨i, ⟨k, hk⟩, m ⟨k, hk⟩⟩) :
    (s.sendTo i k skip m next last).RoundsInv localMeta first := by
  unfold Pool.sendTo
  split_ifs with hk hskip
  · exact hnext hk
  · exact (hnext hk).post (hm hk (by simpa using hskip))
  · exact hlast (by omega)

theorem RoundsInv.waitFor (h : s.RoundsInv localMeta first) {ok : PoolMsg → Bool} {next : Pool n → Pool n}
    (hnext : ∀ src m rest, s.net.socket i = (src, m) :: rest → ok m = true →
      (next (s.accept i src m rest)).RoundsInv localMeta first) :
    (s.waitFor i ok next).RoundsInv localMeta first := by
  unfold Pool.waitFor
  split
  · exact h
  · rename_i src m rest hsocket
    split_ifs with hok
    · exact hnext src m rest hsocket hok
    · exact h.discard hsocket

/-! ### What a message that is read says -/

/-- A TURN for round `r` that node `i` waits for comes from the owner. -/
theorem Sendable.turn_inv (hn : n ≤ maxNodes) {src r : Fin n} {m : PoolMsg}
    (h : s.Sendable localMeta ⟨src, i, m⟩) (hm : m.isRoundMsg msgRoundTurn r i r = true) :
    src = r ∧ i ≠ r ∧ (s.node r).pc.Turned r i := by
  obtain ⟨htype, hround⟩ := m.isRoundMsg_inv hm
  cases h with
  | exchange ph => exact absurd (Exchange.msg_type localMeta ph src i ▸ htype) ph.msgType_ne.1
  | turn hj hturned =>
    obtain rfl := Fin.ext (idx_inj hn src.isLt r.isLt hround)
    exact ⟨rfl, hj, hturned⟩
  | ack => exact absurd (show msgRoundAck = msgRoundTurn from htype) (by decide)
  | commit => exact absurd (show msgRoundCommit = msgRoundTurn from htype) (by decide)

theorem Sendable.commit_inv (hn : n ≤ maxNodes) {src r : Fin n} {m : PoolMsg}
    (h : s.Sendable localMeta ⟨src, i, m⟩) (hm : m.isRoundMsg msgRoundCommit r i r = true) :
    s.Collected r := by
  obtain ⟨htype, hround⟩ := m.isRoundMsg_inv hm
  cases h with
  | exchange ph => exact absurd (Exchange.msg_type localMeta ph src i ▸ htype) ph.msgType_ne.2.2
  | turn => exact absurd (show msgRoundTurn = msgRoundCommit from htype) (by decide)
  | ack => exact absurd (show msgRoundAck = msgRoundCommit from htype) (by decide)
  | commit _ hcollected =>
    obtain rfl := Fin.ext (idx_inj hn src.isLt r.isLt hround)
    exact hcollected

theorem Sendable.ack_inv (hn : n ≤ maxNodes) {src j : Fin n} {m : PoolMsg}
    (h : s.Sendable localMeta ⟨src, i, m⟩) (hm : m.roundAck i i = some j) :
    j ≠ i ∧ (s.node i).pc.Turned i j ∧ s.Acked j i := by
  unfold PoolMsg.roundAck at hm
  split_ifs at hm with hfilter
  obtain ⟨-, htype, -, hround, hother⟩ := hfilter
  cases h with
  | exchange ph => exact absurd (Exchange.msg_type localMeta ph src i ▸ htype) ph.msgType_ne.2.1
  | turn => exact absurd (show msgRoundTurn = msgRoundAck from htype) (by decide)
  | ack hj hturned hacked =>
    obtain rfl : src = j := Option.some.inj ((PoolMsg.sender_eq hn rfl).symm.trans hm)
    exact ⟨hj, hturned, hacked⟩
  | commit => exact absurd (show msgRoundCommit = msgRoundAck from htype) (by decide)

/-! ### The steps of the loops -/

theorem RoundsInv.exchange (h : s.RoundsInv localMeta first) {ph : Exchange}
    (hpc : (s.node i).pc = .exchange ph) :
    (s.setNode i ((s.node i).enter i .ready)).RoundsInv localMeta first ∧
      (s.goto i (.atRound n 0)).RoundsInv localMeta first ∧
      (s.goto i (.exchangeSend ph 0)).RoundsInv localMeta first := by
  have hrank : (s.node i).pc.rank = ph.rank := by rw [hpc]; rfl
  have hle := ph.rank_le
  have hprecedes : ∀ q, ph.rank ≤ q.rank → (s.node i).pc.Precedes q := fun q hq =>
    .of_rank (by omega) fun r k heq => by simp [hpc] at heq
  have hzero := PoolPc.rank_atRound (Nat.zero_le n)
  -- the loop goes on to places of its own rank or a higher one
  refine ⟨?_, ?_, ?_⟩
  · refine h.setNode (hprecedes _ hle) fun hlater => ?_
    have hready : ((s.node i).enter i .ready).pc.rank = 1 := rfl
    refine ⟨trivial, ?_, ?_, ?_, ?_, by simp [PoolNode.enter]⟩ <;> omega
  · exact h.quiet (hprecedes _ (by omega)) (PoolPc.plays_atRound i 0) (PoolPc.atRound_ne_acks 0)
      (by omega)
  · have hsend : (PoolPc.exchangeSend ph 0 : PoolPc n).rank = ph.rank := rfl
    exact h.quiet (hprecedes _ le_rfl) trivial (by simp) (by omega)

theorem RoundsInv.exchangeSend (h : s.RoundsInv localMeta first) {ph : Exchange} {k : ℕ}
    {skip : Fin n → Bool} (hpc : (s.node i).pc = .exchangeSend ph k) :
    (s.sendTo i k skip (ph.msg localMeta i) (.exchangeSend ph (k + 1))
      (s.goto i (.exchangeRecv ph))).RoundsInv localMeta first := by
  have hprecedes : ∀ q, ph.rank ≤ q.rank → (s.node i).pc.Precedes q := fun q hq =>
    .of_rank (by rwa [hpc]) fun r k heq => by simp [hpc] at heq
  refine .sendTo (fun _ => ?_) (fun _ => ?_) fun hk _ => .exchange ph i _
  · exact h.quiet (hprecedes _ le_rfl) trivial (by simp) (by simp [hpc, PoolPc.rank])
  · exact h.quiet (hprecedes _ le_rfl) trivial (by simp) (by simp [hpc, PoolPc.rank])

theorem RoundsInv.exchangeRecv (h : s.RoundsInv localMeta first) {ph : Exchange}
    (hpc : (s.node i).pc = .exchangeRecv ph) (k : Fin n) (m : PoolMsg) :
    (s.goto i (.exchange ph)).RoundsInv localMeta first ∧
      (s.setNode i ((s.node i).hear ph k m)).RoundsInv localMeta first := by
  refine ⟨h.quiet (.of_rank ?_ ?_) trivial (by simp) ?_, h.setNode (.refl _) fun hlater => ?_⟩
  · simp [hpc, PoolPc.rank]
  · simp [hpc]
  · simp [hpc, PoolPc.rank]
  · have hnode := (h.node i).later hlater
    exact ⟨hnode.role, hnode.turned, hnode.verified, hnode.collected, hnode.committed, hnode.acks⟩

theorem RoundsInv.turnSend (h : s.RoundsInv localMeta first) {k : ℕ} (hpc : (s.node i).pc = .turnSend i k) :
    (s.sendTo i k (fun k => k = i) (fun k => roundMsg msgRoundTurn i k i) (.turnSend i (k + 1))
      (s.setNode i ((s.node i).awaitAcks i))).RoundsInv localMeta first := by
  refine .sendTo (fun _ => ?_) (fun _ => ?_) fun hk hskip => ?_
  · refine h.quiet (hpc ▸ PoolPc.precedes_turnSend i k) rfl (by simp) ?_
    simp [hpc, PoolPc.rank]
  · -- all peers have been sent a TURN
    refine h.setNode (hpc ▸ PoolPc.precedes_acks i k) fun hlater => ?_
    have hnode := (h.node i).later hlater
    have hrank : (s.node i).pc.rank = 8 * i + 4 := by rw [hpc]; rfl
    have hsucc : ((s.node i).awaitAcks i).pc.rank = 8 * i + 5 := rfl
    refine ⟨rfl, ?_, ?_, ?_, ?_, ?_⟩
    · intro r hr hle
      exact hnode.turned r hr (by omega)
    · intro r hr hle
      have hne : r.val ≠ i.val := fun heq => hr (Fin.ext heq)
      exact hnode.verified r hr (by omega)
    · intro hle
      omega
    · intro r hr hle
      exact hnode.committed r hr (by omega)
    · intro _
      refine ⟨by simp [PoolNode.awaitAcks], ?_⟩
      simp [PoolNode.awaitAcks, Finset.filter_ne', Finset.card_erase_of_mem]
  · refine .turn (by simpa using hskip) (.inr ⟨k + 1, ?_, Nat.lt_succ_self k⟩)
    simp [Pool.goto, Pool.setNode]

theorem RoundsInv.acks (hn : n ≤ maxNodes) (h : s.RoundsInv localMeta first) {src k : Fin n} {m : PoolMsg}
    {rest : List (Fin n × PoolMsg)} (hpc : (s.node i).pc = .acks i)
    (hsocket : s.net.socket i = (src, m) :: rest) (hm : m.roundAck i i = some k) :
    ((s.accept i src m rest).setNode i ((s.node i).countAck k)).RoundsInv localMeta first := by
  obtain ⟨hk, -, hacked⟩ := (h.net _ (Net.carries_head hsocket)).ack_inv hn hm
  have hnode := h.node i
  have hsame : ((s.node i).countAck k).pc = (s.node i).pc := by
    unfold PoolNode.countAck
    split_ifs <;> rfl
  obtain ⟨hgot, hpending⟩ := hnode.acks hpc
  refine (h.accept hsocket).setNode (hsame ▸ .refl _) fun hlater => NodeInv.later (s := s) ?_ ?_
  · refine ⟨hsame ▸ hnode.role, hsame ▸ hnode.turned, hsame ▸ hnode.verified, hsame ▸ hnode.collected,
      hsame ▸ hnode.committed, fun _ => ?_⟩
    unfold PoolNode.countAck
    split_ifs with hold
    · exact ⟨hgot, hpending⟩
    · constructor
      · intro j hj
        simp only [Function.update_apply] at hj
        split_ifs at hj with heq
        · exact heq ▸ hacked
        · exact hgot j hj
      · -- `k` is no longer pending
        have herase : (Finset.univ.filter fun j => j ≠ i ∧
            Function.update (s.node i).gotAck k true j = false) =
              (Finset.univ.filter fun j => j ≠ i ∧ (s.node i).gotAck j = false).erase k := by
          ext j
          by_cases hj : j = k <;> simp [hj]
        show (s.node i).pending - 1 = _
        rw [herase, Finset.card_erase_of_mem (by simp [hk, hold]), hpending]
  · exact ⟨hlater.pc, hlater.verified⟩

/-- When nothing is pending, all have acknowledged. -/
theorem RoundsInv.allAcked (h : s.RoundsInv localMeta first) (hpc : (s.node i).pc = .acks i)
    (hpending : (s.node i).pending = 0) (j : Fin n) (hj : j ≠ i) : s.Acked j i := by
  obtain ⟨hgot, hcount⟩ := (h.node i).acks hpc
  rw [hpending, eq_comm, Finset.card_eq_zero, Finset.filter_eq_empty_iff] at hcount
  have hnot := hcount (Finset.mem_univ j)
  exact hgot j (by simpa [hj] using hnot)

theorem RoundsInv.collect (h : s.RoundsInv localMeta first) (hpc : (s.node i).pc = .acks i)
    (hpending : (s.node i).pending = 0) :
    ((s.goto i (.commitSend i 0 0)).logPassed i i).RoundsInv localMeta first := by
  have hrank : (s.node i).pc.rank = 8 * i + 5 := by rw [hpc]; rfl
  have hnext : (PoolPc.commitSend i 0 0).rank = 8 * i + 6 := rfl
  refine RoundsInv.logPassed ?_ ?_
  · refine h.goto (.of_rank (by omega) (by simp [hpc])) rfl (by simp) ?_ ?_ ?_ ?_
    · intro r hr hlt hle
      omega
    · intro r hr hlt hle
      exact absurd (Fin.ext (by omega)) hr
    · intro _ _
      exact h.allAcked hpc hpending
    · intro r hr hlt hle
      omega
  · simp [Collected, Pool.goto, Pool.setNode, hnext]

theorem RoundsInv.commitSend (h : s.RoundsInv localMeta first) {attempt k : ℕ}
    (hpc : (s.node i).pc = .commitSend i attempt k) :
    (s.sendTo i k (fun k => k = i) (fun k => roundMsg msgRoundCommit i k i)
      (.commitSend i attempt (k + 1)) (s.goto i (.commitSend i (attempt + 1) 0))).RoundsInv
        localMeta first := by
  have hprecedes : ∀ a k', (s.node i).pc.Precedes (.commitSend i a k') := fun a k' =>
    .of_rank (by simp [hpc, PoolPc.rank]) (by simp [hpc])
  refine .sendTo (fun _ => ?_) (fun _ => ?_) fun hk hskip => .commit (by simpa using hskip) ?_
  · exact h.quiet (hprecedes _ _) rfl (by simp) (by simp [hpc, PoolPc.rank])
  · exact h.quiet (hprecedes _ _) rfl (by simp) (by simp [hpc, PoolPc.rank])
  · simp [Collected, Pool.goto, Pool.setNode, PoolPc.rank]

/-- A node that is done with round `r` goes on to the next one. -/
theorem RoundsInv.nextRound (h : s.RoundsInv localMeta first) {r : Fin n}
    (hrank : (s.node i).pc.rank = 8 * r + 6) (hpc : ∀ r k, (s.node i).pc ≠ .turnSend r k)
    (hr : s.Collected r) : (s.goto i (.atRound n (r + 1))).RoundsInv localMeta first := by
  have hnext := PoolPc.rank_atRound (n := n) (k := r + 1) r.isLt
  refine h.goto (.of_rank (by omega) hpc) (PoolPc.plays_atRound i _) (PoolPc.atRound_ne_acks _)
    ?_ ?_ ?_ ?_
  · intro r' _ hlt hle
    omega
  · intro r' _ hlt hle
    omega
  · intro hlt hle
    omega
  · intro r' _ hlt hle
    obtain rfl : r' = r := Fin.ext (by omega)
    exact hr

theorem RoundsInv.turnWait (hn : n ≤ maxNodes) (h : s.RoundsInv localMeta first) {r : Fin n}
    (hpc : (s.node i).pc = .turnWait r) :
    (s.waitFor i (·.isRoundMsg msgRoundTurn r i r) fun s => s.goto i (.verify r)).RoundsInv
      localMeta first := by
  refine h.waitFor fun src m rest hsocket hm => ?_
  obtain ⟨-, hr, hturned⟩ := (h.net _ (Net.carries_head hsocket)).turn_inv hn hm
  have hrank : ((s.accept i src m rest).node i).pc.rank = 8 * r + 3 := by
    show (s.node i).pc.rank = _
    rw [hpc]
    rfl
  have hnext : (PoolPc.verify r).rank = 8 * r + 4 := rfl
  refine (h.accept hsocket).goto (.of_rank (by omega) ?_) hr (by simp) ?_ ?_ ?_ ?_
  · show ∀ r k, (s.node i).pc ≠ _
    simp [hpc]
  · intro r' _ hlt hle
    obtain rfl : r' = r := Fin.ext (by omega)
    exact hturned
  · intro r' _ hlt hle
    omega
  · intro hlt hle
    omega
  · intro r' _ hlt hle
    omega

theorem RoundsInv.verify (h : s.RoundsInv localMeta first) {r : Fin n} (hpc : (s.node i).pc = .verify r)
    (hmatches : slotMatchesPayload (s.slot r) r r = true) :
    ((s.goto i (.ackSend r)).logVerified i r).RoundsInv localMeta first := by
  have hrank : ((s.logVerified i r).node i).pc.rank = 8 * r + 4 := by
    show (s.node i).pc.rank = _
    rw [hpc]
    rfl
  have hnext : (PoolPc.ackSend r).rank = 8 * r + 5 := rfl
  have hrole : i ≠ r := by
    have hplays := (h.node i).role
    rwa [hpc] at hplays
  refine (h.logVerified hmatches).goto (.of_rank (by omega) ?_) hrole (by simp) ?_ ?_ ?_ ?_
  · show ∀ r k, (s.node i).pc ≠ _
    simp [hpc]
  · intro r' _ hlt hle
    omega
  · intro r' _ hlt hle
    obtain rfl : r' = r := Fin.ext (by omega)
    exact List.mem_cons_self ..
  · intro hlt hle
    omega
  · intro r' _ hlt hle
    omega

theorem RoundsInv.ackSend (h : s.RoundsInv localMeta first) {r : Fin n} (hpc : (s.node i).pc = .ackSend r) :
    ((s.goto i (.commitWait r)).post i r (roundMsg msgRoundAck i r r)).RoundsInv localMeta first := by
  have hrank : (s.node i).pc.rank = 8 * r + 5 := by rw [hpc]; rfl
  have hnext : (PoolPc.commitWait r).rank = 8 * r + 6 := rfl
  have hrole : i ≠ r := by
    have hplays := (h.node i).role
    rwa [hpc] at hplays
  have hgoto : (s.goto i (.commitWait r)).RoundsInv localMeta first := by
    refine h.goto (.of_rank (by omega) (by simp [hpc])) hrole (by simp) ?_ ?_ ?_ ?_
    · intro r' _ hlt hle
      omega
    · intro r' _ hlt hle
      omega
    · intro hlt hle
      exact absurd (Fin.ext (by omega)) hrole
    · intro r' _ hlt hle
      omega
  have hself : ((s.goto i (.commitWait r)).node i).pc = .commitWait r := by
    simp [Pool.goto, Pool.setNode]
  refine hgoto.post (.ack hrole ?_ ?_)
  · exact (hgoto.node i).turned r hrole.symm (by rw [hself, hnext]; omega)
  · exact le_of_eq (by rw [hself, hnext])

theorem RoundsInv.commitWait (hn : n ≤ maxNodes) (h : s.RoundsInv localMeta first) {r : Fin n}
    (hpc : (s.node i).pc = .commitWait r) :
    (s.waitFor i (·.isRoundMsg msgRoundCommit r i r) fun s =>
      (s.goto i (.atRound n (r + 1))).logPassed i r).RoundsInv localMeta first := by
  refine h.waitFor fun src m rest hsocket hm => ?_
  have hr : s.Collected r := (h.net _ (Net.carries_head hsocket)).commit_inv hn hm
  have hpassed : ((s.accept i src m rest).logPassed i r).RoundsInv localMeta first :=
    (h.accept hsocket).logPassed hr
  -- a COMMIT is only sent once all have acknowledged
  refine hpassed.nextRound ?_ ?_ hr
  · show (s.node i).pc.rank = _
    rw [hpc]
    rfl
  · show ∀ r k, (s.node i).pc ≠ _
    simp [hpc]

theorem RoundsInv.round (h : s.RoundsInv localMeta first) {r : Fin n} (hpc : (s.node i).pc = .round r) :
    (i = r → ((s.goto i (.verifyOwn r)).writeSlot r).RoundsInv localMeta first) ∧
      (i ≠ r → (s.goto i (.turnWait r)).RoundsInv localMeta first) := by
  have hprecedes : ∀ q, 8 * (r : ℕ) + 2 ≤ q.rank → (s.node i).pc.Precedes q := fun q hq =>
    .of_rank (by rw [hpc]; exact hq) (by simp [hpc])
  constructor
  · intro howner
    have hgoto : (s.goto i (.verifyOwn r)).RoundsInv localMeta first := by
      refine h.quiet (hprecedes _ (by simp [PoolPc.rank])) howner (by simp) ?_
      simp only [hpc, PoolPc.rank]
      omega
    exact hgoto.writeSlot r
  · intro hmember
    refine h.quiet (hprecedes _ (by simp [PoolPc.rank])) hmember (by simp) ?_
    simp only [hpc, PoolPc.rank]
    omega

/-- The owner knows nothing of itself. -/
theorem RoundsInv.verifyOwn (h : s.RoundsInv localMeta first) (hpc : (s.node i).pc = .verifyOwn i) :
    (s.goto i (.turnSend i 0)).RoundsInv localMeta first := by
  have hrank : (s.node i).pc.rank = 8 * i + 3 := by rw [hpc]; rfl
  have hnext : (PoolPc.turnSend i 0).rank = 8 * i + 4 := rfl
  refine h.goto (.of_rank (by omega) (by simp [hpc])) rfl (by simp) ?_ ?_ ?_ ?_
  · intro r hr hlt hle
    exact absurd (Fin.ext (by omega)) hr
  · intro r _ hlt hle
    omega
  · intro hlt hle
    omega
  · intro r _ hlt hle
    omega

theorem RoundsInv.advance (hn : n ≤ maxNodes) (h : s.RoundsInv localMeta first)
    (hs : s.advance localMeta i = some s') : s'.RoundsInv localMeta first := by
  have hrole : (s.node i).pc.Plays i := (h.node i).role
  cases hpc : (s.node i).pc with
  | exchange ph =>
    obtain ⟨hready, hround, hsend⟩ := h.exchange hpc
    simp only [Pool.advance, hpc] at hs
    split_ifs at hs
    · cases ph <;> cases hs
      · exact hready
      · exact hround
    · cases hs
      exact hsend
  | exchangeSend ph k =>
    simp only [Pool.advance, hpc] at hs
    cases hs
    exact h.exchangeSend hpc
  | exchangeRecv ph =>
    simp only [Pool.advance, hpc] at hs
    split at hs
    · cases hs
      exact (h.exchangeRecv hpc i (initPoolMsg 0 0 0)).1
    · rename_i src m rest hsocket
      split at hs <;> cases hs
      · exact ((h.accept hsocket).exchangeRecv hpc _ m).2
      · exact h.discard hsocket
  | round r =>
    simp only [Pool.advance, hpc] at hs
    split_ifs at hs with howner <;> cases hs
    · exact (h.round hpc).1 howner
    · exact (h.round hpc).2 howner
  | verifyOwn r =>
    rw [hpc] at hrole
    obtain rfl : i = r := hrole
    simp only [Pool.advance, hpc] at hs
    split_ifs at hs <;> cases hs
    · exact h.verifyOwn hpc
    · exact h
  | turnSend r k =>
    rw [hpc] at hrole
    obtain rfl : i = r := hrole
    simp only [Pool.advance, hpc] at hs
    cases hs
    exact h.turnSend hpc
  | acks r =>
    rw [hpc] at hrole
    obtain rfl : i = r := hrole
    simp only [Pool.advance, hpc] at hs
    split at hs
    · split_ifs at hs with hpending <;> cases hs
      · exact h.collect hpc hpending
      · exact h
    · rename_i src m rest hsocket
      split at hs <;> cases hs
      · rename_i k hm
        exact h.acks hn hpc hsocket hm
      · exact h.discard hsocket
  | commitSend r attempt k =>
    rw [hpc] at hrole
    obtain rfl : i = r := hrole
    simp only [Pool.advance, hpc] at hs
    cases hs
    split_ifs
    · exact h.commitSend hpc
    · have hrank : (s.node i).pc.rank = 8 * i + 6 := by rw [hpc]; rfl
      exact h.nextRound hrank (by simp [hpc]) hrank.ge
  | turnWait r =>
    simp only [Pool.advance, hpc] at hs
    cases hs
    exact h.turnWait hn hpc
  | verify r =>
    simp only [Pool.advance, hpc] at hs
    split_ifs at hs with hmatches <;> cases hs
    · exact h.verify hpc hmatches
    · exact h
  | ackSend r =>
    simp only [Pool.advance, hpc] at hs
    cases hs
    exact h.ackSend hpc
  | commitWait r =>
    simp only [Pool.advance, hpc] at hs
    cases hs
    exact h.commitWait hn hpc
  | done =>
    simp only [Pool.advance, hpc] at hs
    cases hs

theorem RoundsInv.act (hn : n ≤ maxNodes) {a : PoolAction n} (h : s.RoundsInv localMeta first)
    (hs : s.act localMeta a = some s') : s'.RoundsInv localMeta first := by
  cases a with
  | node i =>
    simp only [Pool.act] at hs
    split_ifs at hs
    exact h.advance hn hs
  -- a node that has given up stays where it is
  | timeout i =>
    cases hs
    refine h.setNode (.refl _) fun hlater => ?_
    have hnode := (h.node i).later hlater
    exact ⟨hnode.role, hnode.turned, hnode.verified, hnode.collected, hnode.committed, hnode.acks⟩
  | net a =>
    obtain ⟨net, hnet, rfl⟩ := Option.map_eq_some_iff.1 hs
    -- the network may lose, repeat and reorder messages, but it invents none
    exact h.shrink rfl rfl rfl (fun _ => Net.act_carries hnet) h.slots

theorem start_rounds (localMeta : Fin n → ObmmDemoMeta) (slot : Fin n → PoolSlotRecord)
    (first : Exchange) : (start localMeta slot first).RoundsInv localMeta first := by
  refine ⟨fun _ => le_rfl, fun i => ?_, fun d hd => absurd hd (Net.not_carries_empty d),
    fun x hx => (by cases hx), fun x hx => (by cases hx)⟩
  have hrank : ((start localMeta slot first).node i).pc.rank = first.rank := rfl
  have hle := first.rank_le
  refine ⟨trivial, ?_, ?_, ?_, ?_, by simp [start]⟩ <;> omega

theorem run_rounds (hn : n ≤ maxNodes) {actions : List (PoolAction n)}
    (h : s.RoundsInv localMeta first) (hrun : LTS.run (Pool.act localMeta) s actions = some s') :
    s'.RoundsInv localMeta first := by
  have hkeeps : LTS.Keeps (Pool.act localMeta) (RoundsInv localMeta first) := fun _ _ _ hs ha => hs.act hn ha
  exact LTS.run_invariant hkeeps h hrun

/-- **When a node passes a round, the others have verified the owner's slot**, whatever the network
does and whichever nodes time out; and the slot holds what they verified. -/
theorem round_agreement (hn : n ≤ maxNodes) (localMeta : Fin n → ObmmDemoMeta)
    (slot : Fin n → PoolSlotRecord) {actions : List (PoolAction n)}
    (hrun : LTS.run (Pool.act localMeta) (start localMeta slot .hello) actions = some s)
    {i r j : Fin n} (hpassed : (i, r) ∈ s.passed) (hj : j ≠ r) :
    (j, r) ∈ s.verified ∧ slotMatchesPayload (s.slot r) r r = true := by
  have hinv := run_rounds hn (start_rounds localMeta slot .hello) hrun
  have hacked : s.Acked j r := (hinv.node r).collected (hinv.passed _ hpassed) j hj
  have hverified := (hinv.node j).verified r hj.symm ((Nat.le_succ _).trans hacked)
  exact ⟨hverified, hinv.slots _ hverified⟩

/-- Two nodes up to the end of the first round. -/
def firstRound : List (PoolAction 2) :=
  let exchange := List.replicate 4 (.node 0) ++ List.replicate 4 (.node 1) ++
    List.replicate 2 (.net (.deliver 0)) ++ List.replicate 3 (.node 0) ++ List.replicate 3 (.node 1)
  exchange ++ exchange ++ List.replicate 5 (.node 0) ++ [.node 1, .net (.deliver 0)] ++
    List.replicate 3 (.node 1) ++ [.net (.deliver 0)] ++ List.replicate 2 (.node 0)

def blankSlot : PoolSlotRecord :=
  { magic := 0, version := 0, dataOwnerIdx := 0, dataRoundIdx := 0, dataCookie := 0 }

theorem round_agreement_firstRound :
    ∃ s, LTS.run (Pool.act fun _ => .zero) (start (fun _ => .zero) (fun _ => blankSlot) .hello)
      firstRound = some s ∧ (0, 0) ∈ s.passed ∧ (1, 0) ∈ s.verified ∧
      slotMatchesPayload (s.slot 0) 0 0 = true := by
  have hany : (LTS.run (Pool.act fun _ => .zero) (start (fun _ => .zero) (fun _ => blankSlot) .hello)
      firstRound).any (fun s => (0, 0) ∈ s.passed) = true := by
    decide +kernel
  obtain ⟨s, hrun, hpassed⟩ := (Option.any_eq_true _ _).1 hany
  have hpassed : ((0, 0) : Fin 2 × Fin 2) ∈ s.passed := of_decide_eq_true hpassed
  exact ⟨s, hrun, hpassed, round_agreement (by decide) _ _ hrun hpassed (by decide)⟩

end Pool

end LinquUb
