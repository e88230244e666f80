import LinquUb.Guest.PoolRounds

/-!
# The start-up of the OBMM pool demo

`broadcast_hello_until_all` and `wait_until_everyone_ready`: a node sends to each peer until it has
heard the peer itself.

* `Pool.NeverStranded` : whoever waits for a peer has a message coming, or the peer goes on sending;
* `Pool.StartupInv` : every copy of a message is accounted for, and who has heard whom;
* `Pool.neverStranded_iff_copySurvives` : **no node is stranded exactly if no node has heard a peer
  that lost all the copies of its message**.

The network may lose, duplicate, delay and reorder the datagrams; nodes do not time out.
-/

namespace LinquUb

variable {n : ℕ}

/-- The node is in the loop. -/
def PoolPc.inLoop (pc : PoolPc n) (ph : Exchange) : Bool :=
  match pc with
  | .exchange ph' => ph' = ph
  | .exchangeSend ph' _ => ph' = ph
  | .exchangeRecv ph' => ph' = ph
  | _ => false

theorem PoolPc.inLoop_of_rank {pc : PoolPc n} {ph : Exchange} (h : pc.rank = ph.rank) :
    pc.inLoop ph = true := by
  have hle := ph.rank_le
  have hinj : ∀ ph', ph'.rank = ph.rank → ph' = ph := by
    intro ph' heq
    cases ph <;> cases ph' <;> first | rfl | cases heq
  cases pc <;> simp only [PoolPc.rank] at h <;>
    first | exact decide_eq_true (hinj _ h) | omega

theorem PoolNode.countAck_eq (p : PoolNode n) (k : Fin n) :
    (p.countAck k).heard = p.heard ∧ (p.countAck k).pc = p.pc := by
  unfold PoolNode.countAck
  split_ifs <;> exact ⟨rfl, rfl⟩

namespace Pool

/-- What node `i` sends to node `j` in the loop. -/
def exchangeDatagram (localMeta : Fin n → ObmmDemoMeta) (ph : Exchange) (i j : Fin n) :
    PoolDatagram n :=
  ⟨i, j, ph.msg localMeta i j⟩

/-- Node `j` waits for the message of node `i`. -/
def Waits (s : Pool n) (ph : Exchange) (i j : Fin n) : Prop :=
  i ≠ j ∧ (s.node j).pc.inLoop ph = true ∧ (s.node j).heard ph i = false

/-- Node `i` is not past the loop and has not heard node `j`. -/
def StillSends (s : Pool n) (ph : Exchange) (i j : Fin n) : Prop :=
  (s.node i).pc.rank ≤ ph.rank ∧ (s.node i).heard ph j = false

instance (s : Pool n) (ph : Exchange) (i j : Fin n) : Decidable (s.Waits ph i j) :=
  inferInstanceAs (Decidable (_ ∧ _ ∧ _))

instance (s : Pool n) (ph : Exchange) (i j : Fin n) : Decidable (s.StillSends ph i j) :=
  inferInstanceAs (Decidable (_ ∧ _))

def NeverStranded (localMeta : Fin n → ObmmDemoMeta) (s : Pool n) : Prop :=
  ∀ ph i j, s.Waits ph i j →
    s.net.Carries (exchangeDatagram localMeta ph i j) ∨ s.StillSends ph i j

/-- Of the copies that a node has sent to a peer it has heard, not all were dropped or read by a loop
that does not wait for them. -/
def CopySurvives (localMeta : Fin n → ObmmDemoMeta) (s : Pool n) : Prop :=
  ∀ ph i j, i ≠ j → (s.node i).heard ph j = true →
    s.net.lost.count (exchangeDatagram localMeta ph i j) +
      s.discarded.count (exchangeDatagram localMeta ph i j) <
        s.net.sent.count (exchangeDatagram localMeta ph i j)

/-- The steps without timeouts. -/
def actUntimed (localMeta : Fin n → ObmmDemoMeta) (s : Pool n) (a : PoolAction n) : Option (Pool n) :=
  match a with
  | .timeout _ => none
  | a => s.act localMeta a

structure StartupInv (localMeta : Fin n → ObmmDemoMeta) (s : Pool n) : Prop where
  balanced : s.net.Balanced (s.accepted ++ s.discarded)
  heard : ∀ ph i j, i ≠ j →
    ((s.node j).heard ph i = true ↔ exchangeDatagram localMeta ph i j ∈ s.accepted)
  /-- A message was sent in its loop. -/
  sent : ∀ ph i j, s.net.Carries (exchangeDatagram localMeta ph i j) →
    ph.rank ≤ (s.node i).pc.rank
  spoken : ∀ ph i j, i ≠ j → (s.node j).heard ph i = true → ph.rank ≤ (s.node i).pc.rank
  entered : ∀ ph i j, i ≠ j → (s.node j).heard ph i = true → ph.rank ≤ (s.node j).pc.rank
  /-- A node that is past the loop has heard everyone. -/
  past : ∀ ph i, ph.rank < (s.node i).pc.rank → ∀ k, (s.node i).heard ph k = true

variable {localMeta : Fin n → ObmmDemoMeta} {s s' : Pool n} {i : Fin n}

/-! ### Messages -/

theorem exchange_ne {m : PoolMsg} {src : Fin n} {type : UInt16} (htype : m.type = type)
    (hround : type = msgRoundTurn ∨ type = msgRoundAck ∨ type = msgRoundCommit) (ph : Exchange)
    (a b : Fin n) : exchangeDatagram localMeta ph a b ≠ ⟨src, i, m⟩ := by
  intro heq
  have hmsg : ph.msg localMeta a b = m := congrArg Datagram.msg heq
  have hph : ph.msgType = type := by rw [← htype, ← hmsg, Exchange.msg_type]
  obtain ⟨hturn, hack, hcommit⟩ := ph.msgType_ne
  rcases hround with rfl | rfl | rfl
  · exact hturn hph
  · exact hack hph
  · exact hcommit hph

theorem exchangeDatagram_inj {ph ph' : Exchange} {a b a' b' : Fin n}
    (h : exchangeDatagram localMeta ph a b = exchangeDatagram localMeta ph' a' b') :
    ph = ph' ∧ a = a' ∧ b = b' := by
  have ha : a = a' := congrArg Datagram.src h
  have hb : b = b' := congrArg Datagram.dst h
  have htype : ph.msgType = ph'.msgType := by
    have hmsg := congrArg (fun d => d.msg.type) h
    simpa only [exchangeDatagram, Exchange.msg_type] using hmsg
  refine ⟨?_, ha, hb⟩
  cases ph <;> cases ph' <;> first | rfl | exact absurd htype (by decide)

/-- A loop hears the sender. -/
theorem Sendable.heard_inv (hn : n ≤ maxNodes) {src k : Fin n} {m : PoolMsg} {ph : Exchange}
    (h : s.Sendable localMeta ⟨src, i, m⟩) (hm : ph.heardFrom m n = some k) :
    exchangeDatagram localMeta ph k i = ⟨src, i, m⟩ := by
  unfold Exchange.heardFrom at hm
  split_ifs at hm with hfilter
  obtain ⟨-, htype⟩ := hfilter
  cases h with
  | exchange ph' =>
    obtain rfl : ph' = ph := by
      rw [Exchange.msg_type] at htype
      cases ph <;> cases ph' <;> first | rfl | exact absurd htype (by decide)
    have hsrc : (ph'.msg localMeta src i).srcIdx = .ofNat src := by cases ph' <;> rfl
    obtain rfl : src = k := Option.some.inj ((PoolMsg.sender_eq hn hsrc).symm.trans hm)
    rfl
  | turn => exact absurd htype.symm ph.msgType_ne.1
  | ack => exact absurd htype.symm ph.msgType_ne.2.1
  | commit => exact absurd htype.symm ph.msgType_ne.2.2

/-! ### Parts of a step -/

/-- A node goes on without hearing anyone. -/
theorem StartupInv.setNode (h : s.StartupInv localMeta) {p : PoolNode n}
    (hheard : p.heard = (s.node i).heard) (hrank : (s.node i).pc.rank ≤ p.pc.rank)
    (hpast : ∀ ph, ph.rank < p.pc.rank → ∀ k, p.heard ph k = true) :
    (s.setNode i p).StartupInv localMeta := by
  have hheard' : ∀ j, ((s.setNode i p).node j).heard = (s.node j).heard := by
    intro j
    simp only [Pool.setNode, Function.update_apply]
    split_ifs with hj
    · rw [hj, hheard]
    · rfl
  have hrank' : ∀ j, (s.node j).pc.rank ≤ ((s.setNode i p).node j).pc.rank := by
    intro j
    simp only [Pool.setNode, Function.update_apply]
    split_ifs with hj
    · exact hj ▸ hrank
    · exact le_rfl
  refine ⟨h.balanced, ?_, ?_, ?_, ?_, ?_⟩
  · intro ph a b hab
    rw [hheard' b]
    exact h.heard ph a b hab
  · intro ph a b hcarries
    exact (h.sent ph a b hcarries).trans (hrank' a)
  · intro ph a b hab hb
    rw [hheard' b] at hb
    exact (h.spoken ph a b hab hb).trans (hrank' a)
  · intro ph a b hab hb
    rw [hheard' b] at hb
    exact (h.entered ph a b hab hb).trans (hrank' b)
  · intro ph a
    simp only [Pool.setNode, Function.update_apply]
    split_ifs
    · exact hpast ph
    · exact h.past ph a

/-- A node goes on within a loop, or within its rounds. -/
theorem StartupInv.stay (h : s.StartupInv localMeta) {p : PoolNode n}
    (hheard : p.heard = (s.node i).heard) (hrank : (s.node i).pc.rank ≤ p.pc.rank)
    (hsame : p.pc.rank = (s.node i).pc.rank ∨ 1 < (s.node i).pc.rank) :
    (s.setNode i p).StartupInv localMeta := by
  refine h.setNode hheard hrank fun ph hlt k => ?_
  have hle := ph.rank_le
  rw [hheard]
  exact h.past ph i (by omega) k

theorem StartupInv.post (h : s.StartupInv localMeta) {k : Fin n} {m : PoolMsg}
    (hm : ∀ ph a b, exchangeDatagram localMeta ph a b = ⟨i, k, m⟩ → ph.rank ≤ (s.node a).pc.rank) :
    (s.post i k m).StartupInv localMeta := by
  refine ⟨h.balanced.post _, h.heard, ?_, h.spoken, h.entered, h.past⟩
  intro ph a b hcarries
  rcases Net.carries_post.1 hcarries with hold | heq
  · exact h.sent ph a b hold
  · exact hm ph a b heq

theorem StartupInv.discard (h : s.StartupInv localMeta) {src : Fin n} {m : PoolMsg}
    {rest : List (Fin n × PoolMsg)} (hsocket : s.net.socket i = (src, m) :: rest) :
    (s.discard i src m rest).StartupInv localMeta := by
  refine ⟨?_, h.heard, ?_, h.spoken, h.entered, h.past⟩
  · have htake := h.balanced.take hsocket
    rwa [List.append_assoc] at htake
  · exact fun ph a b hcarries => h.sent ph a b (Net.take_carries hsocket hcarries)

theorem Balanced.accept (h : s.net.Balanced (s.accepted ++ s.discarded)) {src : Fin n} {m : PoolMsg}
    {rest : List (Fin n × PoolMsg)} (hsocket : s.net.socket i = (src, m) :: rest) :
    (s.accept i src m rest).net.Balanced
      ((s.accept i src m rest).accepted ++ (s.accept i src m rest).discarded) := by
  intro d
  have hold := h.take hsocket d
  simp only [Pool.accept, List.count_append] at hold ⊢
  omega

/-- A message of a round is accepted. -/
theorem StartupInv.accept (h : s.StartupInv localMeta) {src : Fin n} {m : PoolMsg}
    {rest : List (Fin n × PoolMsg)} (hsocket : s.net.socket i = (src, m) :: rest)
    (hm : ∀ ph a b, exchangeDatagram localMeta ph a b ≠ ⟨src, i, m⟩) :
    (s.accept i src m rest).StartupInv localMeta := by
  refine ⟨Balanced.accept h.balanced hsocket, ?_, ?_, h.spoken, h.entered, h.past⟩
  · intro ph a b hab
    rw [Pool.accept, List.mem_append, List.mem_singleton]
    exact (h.heard ph a b hab).trans (or_iff_left (hm ph a b)).symm
  · exact fun ph a b hcarries => h.sent ph a b (Net.take_carries hsocket hcarries)

/-- A loop hears a peer. -/
theorem StartupInv.hear (h : s.StartupInv localMeta) {src k : Fin n} {m : PoolMsg}
    {rest : List (Fin n × PoolMsg)} {ph : Exchange} (hsocket : s.net.socket i = (src, m) :: rest)
    (hm : exchangeDatagram localMeta ph k i = ⟨src, i, m⟩)
    (hrank : (s.node i).pc.rank = ph.rank) :
    ((s.accept i src m rest).setNode i ((s.node i).hear ph k m)).StartupInv localMeta := by
  have hpc : ∀ b, (((s.accept i src m rest).setNode i ((s.node i).hear ph k m)).node b).pc =
      (s.node b).pc := by
    intro b
    simp only [Pool.setNode, Pool.accept, Function.update_apply]
    split_ifs with hb
    · rw [hb]
      rfl
    · rfl
  have hheard : ∀ ph' a b,
      (((s.accept i src m rest).setNode i ((s.node i).hear ph k m)).node b).heard ph' a = true ↔
        (s.node b).heard ph' a = true ∨ (ph' = ph ∧ a = k ∧ b = i) := by
    intro ph' a b
    simp only [Pool.setNode, Pool.accept, Function.update_apply]
    by_cases hb : b = i
    · subst hb
      by_cases hph : ph' = ph
      · subst hph
        by_cases ha : a = k <;> simp [PoolNode.hear, ha]
      · simp [PoolNode.hear, hph]
    · simp [hb]
  refine ⟨Balanced.accept h.balanced hsocket, ?_, ?_, ?_, ?_, ?_⟩
  · intro ph' a b hab
    rw [hheard]
    show _ ↔ _ ∈ s.accepted ++ [_]
    rw [List.mem_append, List.mem_singleton, ← hm, h.heard ph' a b hab]
    refine or_congr_right ⟨?_, exchangeDatagram_inj⟩
    rintro ⟨rfl, rfl, rfl⟩
    rfl
  · intro ph' a b hcarries
    rw [hpc]
    exact h.sent ph' a b (Net.take_carries hsocket hcarries)
  · intro ph' a b hab hb
    rw [hpc]
    rcases (hheard ph' a b).1 hb with hold | ⟨rfl, rfl, rfl⟩
    · exact h.spoken ph' a b hab hold
    · -- the message that is read was sent in the loop
      exact h.sent ph' a b (hm ▸ Net.carries_head hsocket)
  · intro ph' a b hab hb
    rw [hpc]
    rcases (hheard ph' a b).1 hb with hold | ⟨rfl, -, rfl⟩
    · exact h.entered ph' a b hab hold
    · exact hrank.ge
  · intro ph' a hlt b
    rw [hpc] at hlt
    exact (hheard ph' b a).2 (.inl (h.past ph' a hlt b))

/-- A node goes from the first loop to the second. -/
theorem StartupInv.enter (h : s.StartupInv localMeta) (hpc : (s.node i).pc = .exchange .hello)
    (hall : ∀ k, (s.node i).heard .hello k = true) :
    (s.setNode i ((s.node i).enter i .ready)).StartupInv localMeta := by
  have hzero : (s.node i).pc.rank = 0 := by rw [hpc]; rfl
  have hone : ((s.node i).enter i .ready).pc.rank = 1 := rfl
  have hrank : ∀ b, (s.node b).pc.rank ≤
      ((s.setNode i ((s.node i).enter i .ready)).node b).pc.rank := by
    intro b
    simp only [Pool.setNode, Function.update_apply]
    split_ifs with hb
    · rw [hb]
      omega
    · exact le_rfl
  -- in the second loop node `i` has heard nobody yet
  have hheard : ∀ ph a b, a ≠ b →
      ((s.setNode i ((s.node i).enter i .ready)).node b).heard ph a = (s.node b).heard ph a := by
    intro ph a b hab
    simp only [Pool.setNode, Function.update_apply]
    split_ifs with hb
    · subst hb
      cases ph with
      | hello => simp [PoolNode.enter]
      | ready =>
        have hdeaf : (s.node b).heard .ready a = false := by
          rw [Bool.eq_false_iff]
          intro hold
          have hle := h.entered .ready a b hab hold
          rw [hzero] at hle
          exact absurd hle (by decide)
        rw [hdeaf]
        simp [PoolNode.enter, hab]
    · rfl
  refine ⟨h.balanced, ?_, ?_, ?_, ?_, ?_⟩
  · intro ph a b hab
    rw [hheard ph a b hab]
    exact h.heard ph a b hab
  · exact fun ph a b hcarries => (h.sent ph a b hcarries).trans (hrank a)
  · intro ph a b hab hb
    rw [hheard ph a b hab] at hb
    exact (h.spoken ph a b hab hb).trans (hrank a)
  · intro ph a b hab hb
    rw [hheard ph a b hab] at hb
    exact (h.entered ph a b hab hb).trans (hrank b)
  · intro ph a hlt k
    by_cases ha : a = i
    · subst ha
      simp only [Pool.setNode, Function.update_self] at hlt ⊢
      rw [hone] at hlt
      cases ph with
      | hello => simpa [PoolNode.enter] using hall k
      | ready => exact absurd hlt (by decide)
    · simp only [Pool.setNode, Function.update_of_ne ha] at hlt ⊢
      exact h.past ph a hlt k

/-! ### The steps -/

theorem StartupInv.sendTo {k : ℕ} {skip : Fin n → Bool} {m : Fin n → PoolMsg} {next : PoolPc n}
    {last : Pool n} (hnext : (s.goto i next).StartupInv localMeta)
    (hlast : last.StartupInv localMeta)
    (hm : ∀ b ph a c, exchangeDatagram localMeta ph a c = ⟨i, b, m b⟩ →
      ph.rank ≤ ((s.goto i next).node a).pc.rank) :
    (s.sendTo i k skip m next last).StartupInv localMeta := by
  unfold Pool.sendTo
  split_ifs
  · exact hnext
  · exact hnext.post (hm _)
  · exact hlast

theorem StartupInv.waitFor (h : s.StartupInv localMeta) {ok : PoolMsg → Bool}
    {next : Pool n → Pool n} (hnext : ∀ src m rest, s.net.socket i = (src, m) :: rest → ok m = true →
      (next (s.accept i src m rest)).StartupInv localMeta) :
    (s.waitFor i ok next).StartupInv localMeta := by
  unfold Pool.waitFor
  split
  · exact h
  · rename_i src m rest hsocket
    split_ifs with hok
    · exact hnext src m rest hsocket hok
    · exact h.discard hsocket

theorem StartupInv.logs (h : s.StartupInv localMeta) (hnode : s'.node = s.node)
    (hnet : s'.net = s.net) (haccepted : s'.accepted = s.accepted)
    (hdiscarded : s'.discarded = s.discarded) : s'.StartupInv localMeta := by
  obtain ⟨h1, h2, h3, h4, h5, h6⟩ := h
  constructor <;> simpa only [hnode, hnet, haccepted, hdiscarded]

/-- A node goes on within a loop, or within its rounds. -/
theorem StartupInv.goto (h : s.StartupInv localMeta) {q : PoolPc n}
    (hrank : (s.node i).pc.rank ≤ q.rank)
    (hsame : q.rank = (s.node i).pc.rank ∨ 1 < (s.node i).pc.rank) :
    (s.goto i q).StartupInv localMeta :=
  h.stay rfl hrank hsame

theorem StartupInv.exchange (h : s.StartupInv localMeta) {ph : Exchange}
    (hpc : (s.node i).pc = .exchange ph) (hall : ∀ k, (s.node i).heard ph k = true) :
    (ph = .hello → (s.setNode i ((s.node i).enter i .ready)).StartupInv localMeta) ∧
      (ph = .ready → (s.goto i (.atRound n 0)).StartupInv localMeta) := by
  constructor
  · rintro rfl
    exact h.enter hpc hall
  · rintro rfl
    have hrank : (s.node i).pc.rank = 1 := by rw [hpc]; rfl
    have hzero := PoolPc.rank_atRound (Nat.zero_le n)
    refine h.setNode rfl (hrank.le.trans (by show 1 ≤ (PoolPc.atRound n 0).rank; omega)) ?_
    rintro (_ | _) _ k
    · exact h.past .hello i (by rw [hrank]; decide) k
    · exact hall k

/-- A node past the loops sends a message of a round. -/
theorem StartupInv.postRound (h : s.StartupInv localMeta) {k : Fin n} {type : UInt16} {a b r : ℕ}
    (hround : type = msgRoundTurn ∨ type = msgRoundAck ∨ type = msgRoundCommit) :
    (s.post i k (roundMsg type a b r)).StartupInv localMeta :=
  h.post fun ph _ _ heq => absurd heq (exchange_ne rfl hround ph _ _)

theorem StartupInv.sendRound (h : s.StartupInv localMeta) {k : ℕ} {type : UInt16} {r : ℕ}
    {next : PoolPc n} {last : Pool n}
    (hround : type = msgRoundTurn ∨ type = msgRoundAck ∨ type = msgRoundCommit)
    (hrank : 1 < (s.node i).pc.rank) (hnext : (s.node i).pc.rank ≤ next.rank)
    (hlast : last.StartupInv localMeta) :
    (s.sendTo i k (fun k => k = i) (fun k => roundMsg type i k r) next last).StartupInv
      localMeta :=
  .sendTo (h.goto hnext (.inr hrank)) hlast
    fun _ ph _ _ heq => absurd heq (exchange_ne rfl hround ph _ _)

/-- A node past the loops waits for a message of a round. -/
theorem StartupInv.waitRound (h : s.StartupInv localMeta) {type : UInt16} {a b r : ℕ}
    {next : Pool n → Pool n}
    (hround : type = msgRoundTurn ∨ type = msgRoundAck ∨ type = msgRoundCommit)
    (hnext : ∀ src m rest, (s.accept i src m rest).StartupInv localMeta →
      (next (s.accept i src m rest)).StartupInv localMeta) :
    (s.waitFor i (·.isRoundMsg type a b r) next).StartupInv localMeta :=
  h.waitFor fun src m rest hsocket hm => hnext src m rest <|
    h.accept hsocket fun ph _ _ => exchange_ne (m.isRoundMsg_inv hm).1 hround ph _ _

theorem StartupInv.advance_exchange (h : s.StartupInv localMeta) {ph : Exchange}
    (hpc : (s.node i).pc = .exchange ph) (hs : s.advance localMeta i = some s') :
    s'.StartupInv localMeta := by
  simp only [Pool.advance, hpc] at hs
  split_ifs at hs with hall
  · obtain ⟨hready, hround⟩ := h.exchange hpc hall
    cases ph <;> cases hs
    · exact hready rfl
    · exact hround rfl
  · cases hs
    exact h.goto (by rw [hpc]; rfl) (.inl (by rw [hpc]; rfl))

theorem StartupInv.advance_exchangeSend (h : s.StartupInv localMeta) {ph : Exchange} {k : ℕ}
    (hpc : (s.node i).pc = .exchangeSend ph k) (hs : s.advance localMeta i = some s') :
    s'.StartupInv localMeta := by
  simp only [Pool.advance, hpc] at hs
  have hrank : (s.node i).pc.rank = ph.rank := by rw [hpc]; rfl
  cases hs
  refine .sendTo (h.goto hrank.le (.inl hrank.symm)) (h.goto hrank.le (.inl hrank.symm)) ?_
  intro b ph' a c heq
  obtain ⟨rfl, rfl, -⟩ := exchangeDatagram_inj heq
  simp [Pool.goto, Pool.setNode, PoolPc.rank]

theorem StartupInv.advance_exchangeRecv (hn : n ≤ maxNodes)
    (hrounds : s.RoundsInv localMeta .hello) (h : s.StartupInv localMeta) {ph : Exchange}
    (hpc : (s.node i).pc = .exchangeRecv ph) (hs : s.advance localMeta i = some s') :
    s'.StartupInv localMeta := by
  simp only [Pool.advance, hpc] at hs
  have hrank : (s.node i).pc.rank = ph.rank := by rw [hpc]; rfl
  split at hs
  · cases hs
    exact h.goto hrank.le (.inl hrank.symm)
  · rename_i src m rest hsocket
    split at hs <;> cases hs
    · rename_i k hm
      have hsendable := hrounds.net _ (Net.carries_head hsocket)
      exact h.hear hsocket (hsendable.heard_inv hn hm) hrank
    · exact h.discard hsocket

/-! ### The steps past the loops -/

theorem StartupInv.advance_round (h : s.StartupInv localMeta) {r : Fin n}
    (hpc : (s.node i).pc = .round r) (hs : s.advance localMeta i = some s') :
    s'.StartupInv localMeta := by
  simp only [Pool.advance, hpc] at hs
  have hrank : (s.node i).pc.rank = 8 * r + 2 := by rw [hpc]; rfl
  have hnext : (PoolPc.verifyOwn r).rank = 8 * r + 3 := rfl
  have hwait : (PoolPc.turnWait r).rank = 8 * r + 3 := rfl
  split_ifs at hs <;> cases hs
  · exact (h.goto (q := .verifyOwn r) (by omega) (.inr (by omega))).logs rfl rfl rfl rfl
  · exact h.goto (by omega) (.inr (by omega))

theorem StartupInv.advance_verifyOwn (h : s.StartupInv localMeta) {r : Fin n}
    (hpc : (s.node i).pc = .verifyOwn r) (hs : s.advance localMeta i = some s') :
    s'.StartupInv localMeta := by
  simp only [Pool.advance, hpc] at hs
  have hrank : (s.node i).pc.rank = 8 * r + 3 := by rw [hpc]; rfl
  have hnext : (PoolPc.turnSend r 0).rank = 8 * r + 4 := rfl
  split_ifs at hs <;> cases hs
  · exact h.goto (by omega) (.inr (by omega))
  · exact h

theorem StartupInv.advance_turnSend (h : s.StartupInv localMeta) {r : Fin n} {k : ℕ}
    (hpc : (s.node i).pc = .turnSend r k) (hs : s.advance localMeta i = some s') :
    s'.StartupInv localMeta := by
  simp only [Pool.advance, hpc] at hs
  have hrank : (s.node i).pc.rank = 8 * r + 4 := by rw [hpc]; rfl
  have hnext : (PoolPc.turnSend r (k + 1)).rank = 8 * r + 4 := rfl
  have hacks : ((s.node i).awaitAcks r).pc.rank = 8 * r + 5 := rfl
  cases hs
  refine h.sendRound (.inl rfl) (by omega) (by omega) ?_
  exact h.stay rfl (by omega) (.inr (by omega))

theorem StartupInv.advance_acks (h : s.StartupInv localMeta) {r : Fin n}
    (hpc : (s.node i).pc = .acks r) (hs : s.advance localMeta i = some s') :
    s'.StartupInv localMeta := by
  simp only [Pool.advance, hpc] at hs
  have hrank : (s.node i).pc.rank = 8 * r + 5 := by rw [hpc]; rfl
  have hnext : (PoolPc.commitSend r 0 0).rank = 8 * r + 6 := rfl
  split at hs
  · split_ifs at hs <;> cases hs
    · exact (h.goto (q := .commitSend r 0 0) (by omega) (.inr (by omega))).logs rfl rfl rfl rfl
    · exact h
  · rename_i src m rest hsocket
    split at hs <;> cases hs
    · rename_i k hm
      obtain ⟨hheard, hsame⟩ := (s.node i).countAck_eq k
      have htype : m.type = msgRoundAck := by
        unfold PoolMsg.roundAck at hm
        split_ifs at hm with hfilter
        exact hfilter.2.1
      have haccept := h.accept hsocket fun ph _ _ => exchange_ne htype (.inr (.inl rfl)) ph _ _
      exact haccept.stay hheard (hsame ▸ le_rfl) (.inl (hsame ▸ rfl))
    · exact h.discard hsocket

theorem StartupInv.advance_commitSend (h : s.StartupInv localMeta) {r : Fin n} {attempt : ℕ} {k : ℕ}
    (hpc : (s.node i).pc = .commitSend r attempt k) (hs : s.advance localMeta i = some s') :
    s'.StartupInv localMeta := by
  simp only [Pool.advance, hpc] at hs
  have hrank : (s.node i).pc.rank = 8 * r + 6 := by rw [hpc]; rfl
  have hnext : (PoolPc.commitSend r attempt (k + 1)).rank = 8 * r + 6 := rfl
  have hagain : (PoolPc.commitSend r (attempt + 1) 0).rank = 8 * r + 6 := rfl
  have hround := PoolPc.rank_atRound (n := n) (k := r + 1) r.isLt
  cases hs
  split_ifs
  · refine h.sendRound (.inr (.inr rfl)) (by omega) (by omega) ?_
    exact h.goto (by omega) (.inr (by omega))
  · exact h.goto (by omega) (.inr (by omega))

theorem StartupInv.advance_turnWait (h : s.StartupInv localMeta) {r : Fin n}
    (hpc : (s.node i).pc = .turnWait r) (hs : s.advance localMeta i = some s') :
    s'.StartupInv localMeta := by
  simp only [Pool.advance, hpc] at hs
  have hrank : (s.node i).pc.rank = 8 * r + 3 := by rw [hpc]; rfl
  have hnext : (PoolPc.verify r).rank = 8 * r + 4 := rfl
  cases hs
  refine h.waitRound (.inl rfl) fun src m rest haccept => ?_
  exact haccept.goto (hrank.le.trans (by omega)) (.inr (hrank.ge.trans_lt' (by omega)))

theorem StartupInv.advance_verify (h : s.StartupInv localMeta) {r : Fin n}
    (hpc : (s.node i).pc = .verify r) (hs : s.advance localMeta i = some s') :
    s'.StartupInv localMeta := by
  simp only [Pool.advance, hpc] at hs
  have hrank : (s.node i).pc.rank = 8 * r + 4 := by rw [hpc]; rfl
  have hnext : (PoolPc.ackSend r).rank = 8 * r + 5 := rfl
  split_ifs at hs <;> cases hs
  · exact (h.goto (q := .ackSend r) (by omega) (.inr (by omega))).logs rfl rfl rfl rfl
  · exact h

theorem StartupInv.advance_ackSend (h : s.StartupInv localMeta) {r : Fin n}
    (hpc : (s.node i).pc = .ackSend r) (hs : s.advance localMeta i = some s') :
    s'.StartupInv localMeta := by
  simp only [Pool.advance, hpc] at hs
  have hrank : (s.node i).pc.rank = 8 * r + 5 := by rw [hpc]; rfl
  have hnext : (PoolPc.commitWait r).rank = 8 * r + 6 := rfl
  cases hs
  exact (h.goto (by omega) (.inr (by omega))).postRound (.inr (.inl rfl))

theorem StartupInv.advance_commitWait (h : s.StartupInv localMeta) {r : Fin n}
    (hpc : (s.node i).pc = .commitWait r) (hs : s.advance localMeta i = some s') :
    s'.StartupInv localMeta := by
  simp only [Pool.advance, hpc] at hs
  have hrank : (s.node i).pc.rank = 8 * r + 6 := by rw [hpc]; rfl
  have hround := PoolPc.rank_atRound (n := n) (k := r + 1) r.isLt
  cases hs
  refine h.waitRound (.inr (.inr rfl)) fun src m rest haccept => ?_
  have hgoto := haccept.goto (q := .atRound n (r + 1)) (hrank.le.trans (by omega))
    (.inr (hrank.ge.trans_lt' (by omega)))
  exact hgoto.logs rfl rfl rfl rfl

theorem StartupInv.advance (hn : n ≤ maxNodes) (hrounds : s.RoundsInv localMeta .hello)
    (h : s.StartupInv localMeta) (hs : s.advance localMeta i = some s') :
    s'.StartupInv localMeta := by
  cases hpc : (s.node i).pc with
  | exchange ph => exact h.advance_exchange hpc hs
  | exchangeSend ph k => exact h.advance_exchangeSend hpc hs
  | exchangeRecv ph => exact h.advance_exchangeRecv hn hrounds hpc hs
  | round r => exact h.advance_round hpc hs
  | verifyOwn r => exact h.advance_verifyOwn hpc hs
  | turnSend r k => exact h.advance_turnSend hpc hs
  | acks r => exact h.advance_acks hpc hs
  | commitSend r attempt k => exact h.advance_commitSend hpc hs
  | turnWait r => exact h.advance_turnWait hpc hs
  | verify r => exact h.advance_verify hpc hs
  | ackSend r => exact h.advance_ackSend hpc hs
  | commitWait r => exact h.advance_commitWait hpc hs
  | done =>
    simp only [Pool.advance, hpc] at hs
    cases hs

theorem actUntimed_act {a : PoolAction n} (h : s.actUntimed localMeta a = some s') :
    s.act localMeta a = some s' := by
  cases a with
  | timeout i => cases h
  | node i => exact h
  | net a => exact h

theorem StartupInv.act (hn : n ≤ maxNodes) (hrounds : s.RoundsInv localMeta .hello)
    (h : s.StartupInv localMeta) {a : PoolAction n} (hs : s.actUntimed localMeta a = some s') :
    s'.StartupInv localMeta := by
  cases a with
  | timeout i => cases hs
  | node i =>
    simp only [actUntimed, Pool.act] at hs
    split_ifs at hs
    exact h.advance hn hrounds hs
  | net a =>
    obtain ⟨net, hnet, rfl⟩ := Option.map_eq_some_iff.1 hs
    exact ⟨h.balanced.act hnet, h.heard,
      fun ph i j hcarries => h.sent ph i j (Net.act_carries hnet hcarries),
      h.spoken, h.entered, h.past⟩

theorem start_startup (localMeta : Fin n → ObmmDemoMeta) (slot : Fin n → PoolSlotRecord) :
    (start localMeta slot .hello).StartupInv localMeta := by
  refine ⟨Net.balanced_empty, ?_, ?_, ?_, ?_, ?_⟩
  · intro ph i j hij
    simp [start, hij]
  · exact fun ph i j hcarries => absurd hcarries (Net.not_carries_empty _)
  · intro ph i j hij hheard
    exact absurd (of_decide_eq_true hheard) hij
  · intro ph i j hij hheard
    exact absurd (of_decide_eq_true hheard) hij
  · intro ph i hlt
    exact absurd hlt (Nat.not_lt_zero _)

theorem run_startup (hn : n ≤ maxNodes) {actions : List (PoolAction n)}
    (hrounds : s.RoundsInv localMeta .hello) (h : s.StartupInv localMeta)
    (hrun : LTS.run (actUntimed localMeta) s actions = some s') : s'.StartupInv localMeta := by
  have hkeeps : LTS.Keeps (actUntimed localMeta) fun s =>
      s.RoundsInv localMeta .hello ∧ s.StartupInv localMeta :=
    fun _ _ _ hs ha => ⟨hs.1.act hn (actUntimed_act ha), hs.2.act hn hs.1 ha⟩
  exact (LTS.run_invariant hkeeps ⟨hrounds, h⟩ hrun).2

theorem StartupInv.neverStranded_iff (h : s.StartupInv localMeta) :
    s.NeverStranded localMeta ↔ s.CopySurvives localMeta := by
  constructor
  · intro hnever ph i j hij hheard
    have hbalance := h.balanced (exchangeDatagram localMeta ph i j)
    rw [List.count_append] at hbalance
    by_contra hwasted
    have htransit : ¬s.net.Carries (exchangeDatagram localMeta ph i j) := by
      rw [← Net.transit_pos]
      omega
    have hdeaf : (s.node j).heard ph i = false := by
      rw [Bool.eq_false_iff, ne_eq, h.heard ph i j hij, ← List.count_pos_iff]
      omega
    -- `j` has spoken in the loop, and it is not past the loop
    have hloop : (s.node j).pc.inLoop ph = true := by
      refine PoolPc.inLoop_of_rank (Nat.le_antisymm ?_ (h.spoken ph j i hij.symm hheard))
      by_contra hpast
      rw [h.past ph j (by omega) i] at hdeaf
      cases hdeaf
    rcases hnever ph i j ⟨hij, hloop, hdeaf⟩ with hcarries | ⟨-, hsilent⟩
    · exact htransit hcarries
    · rw [hheard] at hsilent
      cases hsilent
  · rintro hsurvives ph i j ⟨hij, hloop, hdeaf⟩
    by_cases hheard : (s.node i).heard ph j = true
    · left
      have hbalance := h.balanced (exchangeDatagram localMeta ph i j)
      have hcopy := hsurvives ph i j hij hheard
      have hread : s.accepted.count (exchangeDatagram localMeta ph i j) = 0 := by
        rw [List.count_eq_zero, ← h.heard ph i j hij, hdeaf]
        exact Bool.false_ne_true
      rw [List.count_append] at hbalance
      rw [← Net.transit_pos]
      omega
    · right
      refine ⟨?_, by simpa using hheard⟩
      by_contra hpast
      exact hheard (h.past ph i (by omega) j)

/-- **No node is stranded exactly if a copy survives** of what was sent to whoever was heard. -/
theorem neverStranded_iff_copySurvives (hn : n ≤ maxNodes) (localMeta : Fin n → ObmmDemoMeta)
    (slot : Fin n → PoolSlotRecord) {actions : List (PoolAction n)}
    (hrun : LTS.run (actUntimed localMeta) (start localMeta slot .hello) actions = some s) :
    s.NeverStranded localMeta ↔ s.CopySurvives localMeta :=
  (run_startup hn (start_rounds localMeta slot .hello) (start_startup localMeta slot) hrun).neverStranded_iff

/-- Node 0 enters `wait_until_everyone_ready` while node 1 still drains its socket for HELLOs. -/
def earlyReady : List (PoolAction 2) :=
  List.replicate 4 (.node 1) ++ List.replicate 4 (.node 0) ++ [.net (.deliver 0)] ++
    List.replicate 7 (.node 0) ++ List.replicate 2 (.net (.deliver 0)) ++
    List.replicate 8 (.node 1) ++ [.net (.deliver 0), .node 0]

/-- Node 1 has discarded the READY of node 0, and node 0 has heard node 1 and sends no other. -/
theorem earlyReady_run :
    ∃ s, LTS.run (actUntimed fun _ => .zero) (start (fun _ => .zero) (fun _ => blankSlot) .hello)
        earlyReady = some s ∧ ¬s.NeverStranded fun _ => .zero := by
  have hany : (LTS.run (actUntimed fun _ => .zero)
      (start (fun _ => .zero) (fun _ => blankSlot) .hello) earlyReady).any (fun s =>
        s.Waits .ready 0 1 ∧ ¬s.net.Carries (exchangeDatagram (fun _ => .zero) .ready 0 1) ∧
          ¬s.StillSends .ready 0 1) = true := by
    decide +kernel
  obtain ⟨s, hrun, hstranded⟩ := (Option.any_eq_true _ _).1 hany
  obtain ⟨hwaits, hnone, hsilent⟩ := of_decide_eq_true hstranded
  refine ⟨s, hrun, fun hnever => ?_⟩
  exact (hnever _ _ _ hwaits).elim hnone hsilent

theorem neverStranded_iff_earlyReady :
    ∃ s, LTS.run (actUntimed fun _ => .zero) (start (fun _ => .zero) (fun _ => blankSlot) .hello)
        earlyReady = some s ∧ ¬s.CopySurvives fun _ => .zero := by
  obtain ⟨s, hrun, hstranded⟩ := earlyReady_run
  exact ⟨s, hrun, fun hsurvives =>
    hstranded ((neverStranded_iff_copySurvives (by decide) _ _ hrun).2 hsurvives)⟩

/-- Nodes can be stranded. -/
theorem early_ready_strands :
    ¬∀ (actions : List (PoolAction 2)) (s : Pool 2),
      LTS.run (actUntimed fun _ => .zero) (start (fun _ => .zero) (fun _ => blankSlot) .hello)
        actions = some s → s.NeverStranded fun _ => .zero := by
  intro hall
  obtain ⟨s, hrun, hstranded⟩ := earlyReady_run
  exact hstranded (hall _ _ hrun)

end Pool

end LinquUb
