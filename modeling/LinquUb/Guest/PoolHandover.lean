import LinquUb.Guest.PoolRounds

/-!
# The hand-over between the loops of the OBMM pool demo

Every loop reads all that is at the socket of the node and discards what it is not waiting for.

* `PoolNode.Needs` : the node has a current or later wait for the message;
* `PoolNode.WillSend` : the node has yet to send the message;
* `Pool.discards_needed_iff` : **on a network that delivers everything once and in order, a message
  that is needed and is not sent again is discarded exactly if it is a TURN for a round that the node
  has not reached**.
-/

namespace LinquUb

variable {n : ℕ}

/-! ### What a node needs and sends -/

namespace PoolNode

/-- One of the node's current or later waits is for the message. -/
def Needs (p : PoolNode n) (i : Fin n) (m : PoolMsg) : Prop :=
  (p.pc.rank ≤ Exchange.ready.rank ∧
      ∃ k, Exchange.ready.heardFrom m n = some k ∧ p.heard .ready k = false) ∨
    (∃ r : Fin n, r ≠ i ∧ p.pc.rank ≤ (PoolPc.turnWait r).rank ∧
      m.isRoundMsg msgRoundTurn r i r = true) ∨
    (p.pc.rank ≤ (PoolPc.acks i).rank ∧
      ∃ k, m.roundAck i i = some k ∧ (p.pc = .acks i → p.gotAck k = false)) ∨
    ∃ r : Fin n, r ≠ i ∧ p.pc.rank ≤ (PoolPc.commitWait r).rank ∧
      m.isRoundMsg msgRoundCommit r i r = true

/-- TURN to node `k` is still to come. -/
def turnAhead (p : PoolNode n) (i k : Fin n) : Bool :=
  match p.pc with
  | .turnSend _ k' => k' ≤ k
  | pc => pc.rank < (PoolPc.turnSend i 0).rank

/-- A COMMIT to node `k` is still to come. -/
def commitAhead (p : PoolNode n) (i k : Fin n) : Bool :=
  match p.pc with
  | .commitSend _ attempt k' => attempt + 1 < 10 ∨ (attempt < 10 ∧ k' ≤ k)
  | pc => pc.rank < (PoolPc.commitSend i 0 0).rank

/-- Node `i` is still to send the message to node `k`. -/
def WillSend (p : PoolNode n) (localMeta : Fin n → ObmmDemoMeta) (i k : Fin n) (m : PoolMsg) : Prop :=
  p.running = true ∧
    ((m = Exchange.ready.msg localMeta i k ∧ p.pc.rank ≤ Exchange.ready.rank ∧
        p.heard .ready k = false) ∨
      (m = roundMsg msgRoundTurn i k i ∧ p.turnAhead i k = true) ∨
      (m = roundMsg msgRoundAck i k k ∧ p.pc.rank ≤ (PoolPc.ackSend k).rank) ∨
      (m = roundMsg msgRoundCommit i k i ∧ p.commitAhead i k = true))

/-- The message is the TURN of a round that the node has not reached. -/
def EarlyTurn (p : PoolNode n) (i : Fin n) (m : PoolMsg) : Prop :=
  ∃ r : Fin n, r ≠ i ∧ p.pc.rank < (PoolPc.turnWait r).rank ∧
    m.isRoundMsg msgRoundTurn r i r = true

instance (p : PoolNode n) (i : Fin n) (m : PoolMsg) : Decidable (p.Needs i m) :=
  inferInstanceAs (Decidable (_ ∨ _))

instance (p : PoolNode n) (localMeta : Fin n → ObmmDemoMeta) (i k : Fin n) (m : PoolMsg) :
    Decidable (p.WillSend localMeta i k m) :=
  inferInstanceAs (Decidable (_ ∧ _))

end PoolNode

namespace Pool

/-- The steps on a network that delivers everything once, in the order of sending. -/
def actInOrder (localMeta : Fin n → ObmmDemoMeta) (s : Pool n) (a : PoolAction n) : Option (Pool n) :=
  match a with
  | .net b => if s.net.InOrder b then s.act localMeta (.net b) else none
  | a => s.act localMeta a

/-- The loop of node `i` is not waiting for the message. -/
def Rejects (pc : PoolPc n) (i : Fin n) (m : PoolMsg) : Prop :=
  match pc with
  | .exchangeRecv ph => ph.heardFrom m n = none
  | .acks r => m.roundAck i r = none
  | .turnWait r => m.isRoundMsg msgRoundTurn r i r = false
  | .commitWait r => m.isRoundMsg msgRoundCommit r i r = false
  | _ => False

variable {localMeta : Fin n → ObmmDemoMeta} {first : Exchange} {s s' : Pool n} {i : Fin n}

theorem sendTo_discarded (s : Pool n) (i : Fin n) (k : ℕ) (skip : Fin n → Bool) (m : Fin n → PoolMsg)
    (next : PoolPc n) {last : Pool n} (hlast : last.discarded = s.discarded) :
    (s.sendTo i k skip m next last).discarded = s.discarded := by
  unfold sendTo
  split_ifs
  · rfl
  · rfl
  · exact hlast

theorem discard_inv {src : Fin n} {m : PoolMsg} {rest : List (Fin n × PoolMsg)} {d : PoolDatagram n}
    (hsocket : s.net.socket i = (src, m) :: rest)
    (hd : (s.discard i src m rest).discarded = s.discarded ++ [d]) :
    d = ⟨src, i, m⟩ ∧ s.net.Carries d := by
  obtain rfl : ⟨src, i, m⟩ = d := by simpa [discard] using hd
  exact ⟨rfl, Net.carries_head hsocket⟩

theorem waitFor_discarded {ok : PoolMsg → Bool} {next : Pool n → Pool n} {d : PoolDatagram n}
    (hnext : ∀ s, (next s).discarded = s.discarded)
    (hd : (s.waitFor i ok next).discarded = s.discarded ++ [d]) :
    d.dst = i ∧ s.net.Carries d ∧ ok d.msg = false := by
  unfold waitFor at hd
  split at hd
  · simp at hd
  · rename_i src m rest hsocket
    split_ifs at hd with hok
    · rw [hnext] at hd
      simp [accept] at hd
    · obtain ⟨rfl, hcarries⟩ := discard_inv hsocket hd
      exact ⟨rfl, hcarries, by simpa using hok⟩

/-- What a node discards is what its loop rejects. -/
theorem advance_discarded {d : PoolDatagram n} (hs : s.advance localMeta i = some s')
    (hd : s'.discarded = s.discarded ++ [d]) :
    d.dst = i ∧ s.net.Carries d ∧ Rejects (s.node i).pc i d.msg := by
  have hne : s'.discarded ≠ s.discarded := by simp [hd]
  cases hpc : (s.node i).pc <;> simp only [advance, hpc] at hs
  case exchange ph =>
    refine absurd ?_ hne
    split_ifs at hs
    · cases ph <;> cases hs <;> rfl
    · cases hs
      rfl
  case exchangeSend => exact absurd (Option.some.inj hs ▸ sendTo_discarded _ _ _ _ _ _ rfl) hne
  case exchangeRecv ph =>
    split at hs
    · exact absurd (Option.some.inj hs ▸ rfl) hne
    · rename_i src m rest hsocket
      split at hs
      · exact absurd (Option.some.inj hs ▸ rfl) hne
      · rename_i hm
        obtain ⟨rfl, hcarries⟩ := discard_inv hsocket (Option.some.inj hs ▸ hd)
        exact ⟨rfl, hcarries, hm⟩
  case round | verifyOwn =>
    refine absurd ?_ hne
    split_ifs at hs <;> cases hs <;> rfl
  case turnSend => exact absurd (Option.some.inj hs ▸ sendTo_discarded _ _ _ _ _ _ rfl) hne
  case acks r =>
    split at hs
    · refine absurd ?_ hne
      split_ifs at hs <;> cases hs <;> rfl
    · rename_i src m rest hsocket
      split at hs
      · exact absurd (Option.some.inj hs ▸ rfl) hne
      · rename_i hm
        obtain ⟨rfl, hcarries⟩ := discard_inv hsocket (Option.some.inj hs ▸ hd)
        exact ⟨rfl, hcarries, hm⟩
  case commitSend =>
    refine absurd ?_ hne
    cases hs
    split_ifs
    · exact sendTo_discarded _ _ _ _ _ _ rfl
    · rfl
  case turnWait =>
    cases hs
    refine waitFor_discarded ?_ hd
    exact fun _ => rfl
  case verify =>
    refine absurd ?_ hne
    split_ifs at hs <;> cases hs <;> rfl
  case ackSend => exact absurd (Option.some.inj hs ▸ rfl) hne
  case commitWait =>
    cases hs
    refine waitFor_discarded ?_ hd
    exact fun _ => rfl
  case done => cases hs

/-! ### What is discarded -/

/-- A node whose loop rejects a message that it needs has yet to reach the round. -/
theorem RoundsInv.early (hn : n ≤ maxNodes) (h : s.RoundsInv localMeta .ready)
    {src : Fin n} {m : PoolMsg} (hd : s.Sendable localMeta ⟨src, i, m⟩)
    (hrejects : Rejects (s.node i).pc i m) (hneeds : (s.node i).Needs i m) :
    (s.node i).EarlyTurn i m := by
  have hbegun : 1 ≤ (s.node i).pc.rank := h.begun i
  have hrole := (h.node i).role
  have hack : ∀ k, m.roundAck i i = some k → (s.node i).pc.Turned i k := fun k hm =>
    (hd.ack_inv hn hm).2.1
  have hcommit : ∀ r, r ≠ i → m.isRoundMsg msgRoundCommit r i r = true →
      8 * (r : ℕ) + 6 ≤ (s.node i).pc.rank := fun r hr hm =>
    (h.node r).collected (hd.commit_inv hn hm) i hr.symm
  unfold PoolNode.Needs at hneeds
  unfold PoolNode.EarlyTurn
  cases hpc : (s.node i).pc <;>
    simp only [Rejects, hpc, PoolPc.rank, PoolPc.Turned] at *
  case exchangeRecv ph =>
    obtain rfl : ph = .ready := by cases ph <;> simp [Exchange.rank] at hbegun ⊢
    rcases hneeds with ⟨-, k, hk, -⟩ | ⟨r, hr, hle, hm⟩ | ⟨-, k, hk, -⟩ | ⟨r, hr, -, hm⟩
    · rw [hk] at hrejects
      cases hrejects
    · exact ⟨r, hr, by simp [Exchange.rank], hm⟩
    · rcases hack k hk with hlt | ⟨k', heq, -⟩
      · simp [Exchange.rank] at hlt
      · cases heq
    · have hlt := hcommit r hr hm
      simp [Exchange.rank] at hlt
  case acks r' =>
    obtain rfl : i = r' := hrole
    rcases hneeds with ⟨hle, -⟩ | ⟨r, hr, hle, hm⟩ | ⟨-, k, hk, -⟩ | ⟨r, hr, hle, hm⟩
    · simp [Exchange.rank] at hle
    · exact ⟨r, hr, by omega, hm⟩
    · rw [hk] at hrejects
      cases hrejects
    · have hlt := hcommit r hr hm
      omega
  case turnWait r' =>
    rcases hneeds with ⟨hle, -⟩ | ⟨r, hr, hle, hm⟩ | ⟨hle, k, hk, -⟩ | ⟨r, hr, hle, hm⟩
    · simp [Exchange.rank] at hle
    · refine ⟨r, hr, ?_, hm⟩
      by_contra hreached
      obtain rfl : r = r' := Fin.ext (by omega)
      rw [hm] at hrejects
      cases hrejects
    · rcases hack k hk with hlt | ⟨k', heq, -⟩
      · omega
      · cases heq
    · have hlt := hcommit r hr hm
      omega
  case commitWait r' =>
    rcases hneeds with ⟨hle, -⟩ | ⟨r, hr, hle, hm⟩ | ⟨hle, k, hk, -⟩ | ⟨r, hr, hle, hm⟩
    · simp [Exchange.rank] at hle
    · exact ⟨r, hr, by omega, hm⟩
    · rcases hack k hk with hlt | ⟨k', heq, -⟩
      · omega
      · cases heq
    · have hlt := hcommit r hr hm
      obtain rfl : r = r' := Fin.ext (by omega)
      rw [hm] at hrejects
      cases hrejects

/-- A TURN on the network is not sent again. -/
theorem RoundsInv.turn_once (hn : n ≤ maxNodes) (h : s.RoundsInv localMeta first)
    {src r : Fin n} {m : PoolMsg} (hd : s.Sendable localMeta ⟨src, i, m⟩)
    (hm : m.isRoundMsg msgRoundTurn r i r = true) : ¬(s.node src).WillSend localMeta src i m := by
  obtain ⟨rfl, hi, hturned⟩ := hd.turn_inv hn hm
  have htype := (m.isRoundMsg_inv hm).1
  have hrole := (h.node src).role
  rintro ⟨-, ⟨rfl, -⟩ | ⟨-, hahead⟩ | ⟨rfl, -⟩ | ⟨rfl, -⟩⟩
  · exact absurd (Exchange.msg_type localMeta .ready src i ▸ htype) (by decide)
  · unfold PoolNode.turnAhead at hahead
    split at hahead
    · rename_i r' k' hpc
      rw [hpc] at hrole hturned
      obtain rfl : src = r' := hrole
      rcases hturned with hlt | ⟨k, heq, hi⟩
      · simp [PoolPc.rank] at hlt
      · cases heq
        have hle := of_decide_eq_true hahead
        omega
    · have hlt := of_decide_eq_true hahead
      have hrank : (PoolPc.turnSend src 0).rank = 8 * src + 4 := rfl
      rcases hturned with hge | ⟨k, heq, -⟩
      · omega
      · rw [heq] at hlt
        exact lt_irrefl _ hlt
  · exact absurd (show msgRoundAck = msgRoundTurn from htype) (by decide)
  · exact absurd (show msgRoundCommit = msgRoundTurn from htype) (by decide)

theorem actInOrder_act {a : PoolAction n} (h : s.actInOrder localMeta a = some s') :
    s.act localMeta a = some s' := by
  unfold actInOrder at h
  split at h
  · split_ifs at h
    exact h
  · exact h

theorem run_inOrder (hn : n ≤ maxNodes) {actions : List (PoolAction n)}
    (h : s.RoundsInv localMeta first) (hrun : LTS.run (actInOrder localMeta) s actions = some s') :
    s'.RoundsInv localMeta first := by
  have hkeeps : LTS.Keeps (actInOrder localMeta) (RoundsInv localMeta first) :=
    fun _ _ _ hs ha => hs.act hn (actInOrder_act ha)
  exact LTS.run_invariant hkeeps h hrun

/-- **Only a TURN that comes too early is lost.**  Whenever a node discards a message, it does not need
it, or the sender will send it again, unless the message is the TURN of a round that the node has not
reached. -/
theorem discards_needed_iff (hn : n ≤ maxNodes) (localMeta : Fin n → ObmmDemoMeta)
    (slot : Fin n → PoolSlotRecord) {actions : List (PoolAction n)} {d : PoolDatagram n}
    (hrun : LTS.run (actInOrder localMeta) (start localMeta slot .ready) actions = some s)
    (hs : s.actInOrder localMeta (.node i) = some s') (hd : s'.discarded = s.discarded ++ [d]) :
    ((s.node i).Needs i d.msg → (s.node d.src).WillSend localMeta d.src i d.msg) ↔
      ¬(s.node i).EarlyTurn i d.msg := by
  have hinv := run_inOrder hn (start_rounds localMeta slot .ready) hrun
  obtain ⟨src, dst, m⟩ := d
  simp only [actInOrder, act] at hs
  split_ifs at hs
  obtain ⟨rfl, hcarries, hrejects⟩ := advance_discarded hs hd
  have hsendable := hinv.net _ hcarries
  constructor
  · rintro hagain ⟨r, hr, hrank, hm⟩
    exact hinv.turn_once hn hsendable hm (hagain (.inr (.inl ⟨r, hr, hrank.le, hm⟩)))
  · intro hearly hneeds
    exact absurd (hinv.early hn hsendable hrejects hneeds) hearly

/-- Node 0 passes `wait_until_everyone_ready` and starts its round while node 1 still drains its
socket. -/
def earlyTurn : List (PoolAction 2) :=
  List.replicate 4 (.node 1) ++ List.replicate 4 (.node 0) ++ [.net (.deliver 0)] ++
    List.replicate 3 (.node 0) ++ List.replicate 4 (.node 0) ++
    List.replicate 2 (.net (.deliver 0)) ++ [.node 1]

def turnZero : PoolDatagram 2 := ⟨0, 1, roundMsg msgRoundTurn 0 1 0⟩

/-- Node 1 discards a TURN that it needs and that is not sent again. -/
theorem earlyTurn_run :
    ∃ s s', LTS.run (actInOrder fun _ => .zero) (start (fun _ => .zero) (fun _ => blankSlot) .ready)
        earlyTurn = some s ∧
      s.actInOrder (fun _ => .zero) (.node 1) = some s' ∧
      s'.discarded = s.discarded ++ [turnZero] ∧
      (s.node 1).Needs 1 turnZero.msg ∧
      ¬(s.node 0).WillSend (fun _ => .zero) 0 1 turnZero.msg := by
  have hany : (LTS.run (actInOrder fun _ => .zero)
      (start (fun _ => .zero) (fun _ => blankSlot) .ready) earlyTurn).any (fun s =>
        (s.actInOrder (fun _ => .zero) (.node 1)).any fun s' =>
          s'.discarded = s.discarded ++ [turnZero] ∧ (s.node 1).Needs 1 turnZero.msg ∧
            ¬(s.node 0).WillSend (fun _ => .zero) 0 1 turnZero.msg) = true := by
    decide +kernel
  obtain ⟨s, hrun, hany⟩ := (Option.any_eq_true _ _).1 hany
  obtain ⟨s', hs, hlost⟩ := (Option.any_eq_true _ _).1 hany
  exact ⟨s, s', hrun, hs, of_decide_eq_true hlost⟩

theorem discards_needed_iff_earlyTurn :
    ∃ s, LTS.run (actInOrder fun _ => .zero) (start (fun _ => .zero) (fun _ => blankSlot) .ready)
        earlyTurn = some s ∧
      (((s.node 1).Needs 1 turnZero.msg → (s.node 0).WillSend (fun _ => .zero) 0 1 turnZero.msg) ↔
        ¬(s.node 1).EarlyTurn 1 turnZero.msg) := by
  obtain ⟨s, s', hrun, hs, hd, -⟩ := earlyTurn_run
  exact ⟨s, hrun, discards_needed_iff (by decide) _ _ hrun hs hd⟩

/-- Not every message that a node needs is kept or sent again. -/
theorem early_turn_lost :
    ¬∀ (actions : List (PoolAction 2)) (s s' : Pool 2) (i : Fin 2) (d : PoolDatagram 2),
      LTS.run (actInOrder fun _ => .zero) (start (fun _ => .zero) (fun _ => blankSlot) .ready)
        actions = some s →
      s.actInOrder (fun _ => .zero) (.node i) = some s' → s'.discarded = s.discarded ++ [d] →
      (s.node i).Needs i d.msg → (s.node d.src).WillSend (fun _ => .zero) d.src i d.msg := by
  intro hall
  obtain ⟨s, s', hrun, hs, hd, hneeds, hnever⟩ := earlyTurn_run
  exact hnever (hall _ _ _ _ _ hrun hs hd hneeds)

end Pool

end LinquUb
