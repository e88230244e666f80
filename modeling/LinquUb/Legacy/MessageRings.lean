import LinquUb.LTS.Run
import LinquUb.Legacy.Requests

/-!
# The queues of messages under failures

The device moves the consumer index of the submission queue only when every request up to the
producer index has been answered, so a request that fails makes it answer the ones before again.  It
never looks at the consumer indices of the guest, so it writes over answers that the guest has not
read.

* `MsgRing.Fills` : what `n` answers do to a queue, and `MsgRing.overwritten_iff` : when they
  overwrite;
* `MessageQueue.ringLoop_served`, `MessageQueue.ringLoop_failed` : a whole batch;
* `MessageQueue.messages_once_iff` : **whole runs of index register writes**.
-/

namespace LinquUb

open LTS

namespace Legacy

/-! ### Queues that the device fills -/

namespace MsgRing

variable {r r₁ r₂ : MsgRing} {n : ℕ}

/-- `n` entries have been written and published. -/
structure Fills (r r' : MsgRing) (n : ℕ) : Prop where
  iova : r'.iova = r.iova
  depth : r'.depth = r.depth
  pi : r'.pi = (r.pi + n) % r.depth
  unread : r'.unread = r.unread ++ slots r.depth r.pi n
  overwritten : r'.overwritten = [] ↔
    r.overwritten = [] ∧ ∀ i < n, (r.pi + i) % r.depth ∉ r.unread ++ slots r.depth r.pi i

theorem fills_zero (hpi : r.pi % r.depth = r.pi) : Fills r r 0 where
  iova := rfl
  depth := rfl
  pi := hpi.symm
  unread := (List.append_nil _).symm
  overwritten := by simp

theorem fills_one (hpi : r.pi % r.depth = r.pi) (entry : List UInt8) :
    Fills r (r.store entry).publish 1 where
  iova := rfl
  depth := rfl
  pi := rfl
  unread := by
    rw [slots_succ, slots_zero, Nat.add_zero, hpi]
    rfl
  overwritten := by
    simp only [publish, store, Nat.lt_one_iff, forall_eq, slots_zero, List.append_nil,
      Nat.add_zero, hpi]
    split_ifs with hunread <;> simp [hunread]

theorem Fills.trans (h₁ : Fills r r₁ 1) (h₂ : Fills r₁ r₂ n) :
    Fills r r₂ (n + 1) where
  iova := h₂.iova.trans h₁.iova
  depth := h₂.depth.trans h₁.depth
  pi := by
    rw [h₂.pi, h₁.pi, h₁.depth]
    exact slot_succ _ _
  unread := by
    rw [h₂.unread, h₁.unread, h₁.depth, h₁.pi, List.append_assoc, ← slots_add, Nat.add_comm 1]
  overwritten := by
    rw [h₂.overwritten, h₁.overwritten, h₁.unread, h₁.depth, h₁.pi, and_assoc]
    refine and_congr_right fun _ => ?_
    have hslots : ∀ i, r.unread ++ slots r.depth r.pi 1 ++ slots r.depth ((r.pi + 1) % r.depth) i =
        r.unread ++ slots r.depth r.pi (i + 1) := by
      intro i
      rw [List.append_assoc, ← slots_add, Nat.add_comm 1]
    simp only [hslots, slot_succ]
    constructor
    · rintro ⟨hfirst, hrest⟩ i hi
      rcases i with _ | i
      · exact hfirst 0 Nat.one_pos
      · exact hrest i (Nat.lt_of_succ_lt_succ hi)
    · intro h
      refine ⟨fun i hi => ?_, fun i hi => h (i + 1) (Nat.succ_lt_succ hi)⟩
      rw [Nat.lt_one_iff.1 hi]
      exact h 0 (Nat.succ_pos n)

theorem Fills.pi_mod (h : Fills r r₁ n) : r₁.pi % r₁.depth = r₁.pi := by
  rw [h.pi, h.depth, Nat.mod_mod]

/-- There is room for `n` entries: the slots from the producer index on are read, up to one
revolution. -/
structure Fits (r : MsgRing) (n : ℕ) : Prop where
  le_depth : n ≤ r.depth
  read : ∀ slot ∈ slots r.depth r.pi n, slot ∉ r.unread

/-- **Entries overwrite unread ones exactly if there is no room for them.** -/
theorem Fills.overwritten_iff (h : Fills r r₁ n) (hdepth : 0 < n → 0 < r.depth)
    (hr : r.overwritten = []) : r₁.overwritten = [] ↔ Fits r n := by
  rw [h.overwritten, and_iff_right hr]
  constructor
  · intro hfresh
    refine ⟨?_, ?_⟩
    · by_contra hlong
      have hlap := hfresh r.depth (Nat.not_le.1 hlong)
      refine hlap (List.mem_append_right _ (mem_slots.2 ⟨0, hdepth (by omega), ?_⟩))
      rw [Nat.add_zero, Nat.add_mod_right]
    · rintro slot hslot hunread
      obtain ⟨i, hi, rfl⟩ := mem_slots.1 hslot
      exact hfresh i hi (List.mem_append_left _ hunread)
  · rintro ⟨hle, hread⟩ i hi hmem
    rcases List.mem_append.1 hmem with hunread | hslots
    · exact hread _ (mem_slots.2 ⟨i, hi, rfl⟩) hunread
    · obtain ⟨j, hj, heq⟩ := mem_slots.1 hslots
      exact slot_ne hj (hi.trans_le hle) heq

end MsgRing

namespace MessageQueue

variable {bus : DmaBus} {s s' t : MessageQueue}

/-! ### One request -/

/-- A request that fails leaves the indices of the submission queue alone. -/
structure Kept (s s' : MessageQueue) : Prop where
  sqPi : s'.sqPi = s.sqPi
  sqCi : s'.sqCi = s.sqCi

/-- `n` requests are answered. -/
structure Answered (s s' : MessageQueue) (n : ℕ) : Prop where
  sqIova : s'.sqIova = s.sqIova
  sqPi : s'.sqPi = s.sqPi
  sqCi : s'.sqCi = s.sqCi
  sqDepth : s'.sqDepth = s.sqDepth
  writes : s'.writes = s.writes + 2 * n
  rq : s.rq.Fills s'.rq n
  cq : s.cq.Fills s'.cq n

/-- The producer indices of the device are slots. -/
structure InRange (s : MessageQueue) : Prop where
  rq : s.rq.pi % s.rq.depth = s.rq.pi
  cq : s.cq.pi % s.cq.depth = s.cq.pi

theorem Answered.inRange {n : ℕ} (h : Answered s s' n) : s'.InRange :=
  ⟨h.rq.pi_mod, h.cq.pi_mod⟩

theorem Answered.trans {n : ℕ} (h₁ : Answered s t 1) (h₂ : Answered t s' n) :
    Answered s s' (n + 1) where
  sqIova := h₂.sqIova.trans h₁.sqIova
  sqPi := h₂.sqPi.trans h₁.sqPi
  sqCi := h₂.sqCi.trans h₁.sqCi
  sqDepth := h₂.sqDepth.trans h₁.sqDepth
  writes := by
    rw [h₂.writes, h₁.writes]
    omega
  rq := h₁.rq.trans h₂.rq
  cq := h₁.cq.trans h₂.cq

/-- Both queues exist, and guest memory takes a packet of `len` bytes and its completion entry, `i`
answers from now. -/
def Accepts (bus : DmaBus) (s : MessageQueue) (i len : ℕ) : Prop :=
  s.rq.depth ≠ 0 ∧ s.cq.depth ≠ 0 ∧
    bus.write (s.writes + 2 * i) (s.rqAddress ((s.rq.pi + i) % s.rq.depth)) len = true ∧
    bus.write (s.writes + 2 * i + 1) (s.cqAddress ((s.cq.pi + i) % s.cq.depth)) 16 = true

/-- The request `i` places behind `sqIdx` can be read, the device knows it, and guest memory takes
the answer. -/
def EntryServed (bus : DmaBus) (s : MessageQueue) (sqIdx i : ℕ) : Prop :=
  s.sqIova ≠ 0 ∧
    ∃ buf ∈ bus.read (s.reads + 2 * i) (s.sqAddress ((sqIdx + i) % s.sqDepth)) 16,
    ∃ pkt ∈ bus.read (s.reads + 2 * i + 1)
      (s.sqIova + (LinquUbMsgSqe.ofBytes buf).pAddr.toUInt64) 48,
    ∃ len ∈ responseLength (LinquUbMsgSqe.ofBytes buf) pkt, Accepts bus s i len

/-- The two ends of a request: it is answered if `ok` holds, after `n` more reads, and otherwise it
fails. -/
def Outcome (ok : Prop) (n : ℕ) (s : MessageQueue) (out : ℤ × MessageQueue) : Prop :=
  ok ∧ out.1 = 0 ∧ Answered s out.2 1 ∧ out.2.reads = s.reads + n ∧ out.2.processed = s.processed ∨
    ¬ ok ∧ out.1 < 0 ∧ Kept s out.2

/-- **What a request does.** -/
theorem processSqe_outcome (bus : DmaBus) (hs : s.InRange) {sqIdx : ℕ}
    (hidx : sqIdx < s.sqDepth) :
    Outcome (EntryServed bus s sqIdx 0) 2 s (processSqe bus s sqIdx) := by
  have hserved : EntryServed bus s sqIdx 0 ↔ Served bus s sqIdx := by
    simp only [EntryServed, Accepts, Served, TakesAnswer, Nat.mul_zero, Nat.add_zero, hs.rq, hs.cq,
      Nat.mod_eq_of_lt hidx]
  rcases processSqe_end bus s sqIdx with
    ⟨hok, config, rsp, cqe, heq⟩ | ⟨hok, config, reads, writes, rq, -, heq⟩
  · rw [heq]
    refine .inl ⟨hserved.2 hok, rfl, ?_, rfl, rfl⟩
    exact ⟨rfl, rfl, rfl, rfl, rfl, MsgRing.fills_one hs.rq _, MsgRing.fills_one hs.cq _⟩
  · rw [heq]
    exact .inr ⟨fun h => hok (hserved.1 h), neg_rc, rfl, rfl⟩

/-! ### A batch -/

/-- Behind an answer, the next request is the one that was one place further away. -/
theorem entryServed_succ {sqIdx i : ℕ} (h : Answered s t 1) (hreads : t.reads = s.reads + 2) :
    EntryServed bus t ((sqIdx + 1) % s.sqDepth) i ↔ EntryServed bus s sqIdx (i + 1) := by
  simp only [EntryServed, Accepts, sqAddress, rqAddress, cqAddress, h.sqIova, h.sqDepth, hreads,
    h.writes, h.rq.iova, h.rq.depth, h.rq.pi, h.cq.iova, h.cq.depth, h.cq.pi, slot_succ,
    Nat.mul_add, Nat.mul_one, Nat.add_assoc, Nat.add_comm 2]

/-- One round of the loop, when the request is answered. -/
theorem ringLoop_succ {newSqPi sqIdx : ℕ} (hs : s.InRange) (hidx : sqIdx < s.sqDepth)
    (hne : sqIdx ≠ newSqPi) (hserved : EntryServed bus s sqIdx 0) :
    ∃ t, Answered s t 1 ∧ t.reads = s.reads + 2 ∧ t.processed = s.processed ++ [sqIdx] ∧
      ∀ n, ringLoop bus newSqPi (n + 1) s sqIdx =
        ringLoop bus newSqPi n t ((sqIdx + 1) % s.sqDepth) := by
  have hout := processSqe_outcome bus
    (s := { s with processed := s.processed ++ [sqIdx] }) ⟨hs.rq, hs.cq⟩ hidx
  rcases hout with ⟨-, hrc, hanswered, hreads, hprocessed⟩ | ⟨hbad, -⟩
  · refine ⟨_, ⟨hanswered.sqIova, hanswered.sqPi, hanswered.sqCi, hanswered.sqDepth,
      hanswered.writes, hanswered.rq, hanswered.cq⟩, hreads, hprocessed, fun n => ?_⟩
    rw [ringLoop, if_neg hne]
    dsimp only
    rw [hrc, if_neg (lt_irrefl 0), hanswered.sqDepth]
  · exact absurd hserved hbad

theorem nextIdx_lt {sqIdx : ℕ} (h : Answered s t 1) (hidx : sqIdx < s.sqDepth) :
    (sqIdx + 1) % s.sqDepth < t.sqDepth := by
  rw [h.sqDepth]
  exact Nat.mod_lt _ (Nat.zero_lt_of_lt hidx)

theorem ringLoop_end (n sqIdx : ℕ) (s : MessageQueue) : ringLoop bus sqIdx n s sqIdx = (0, s) := by
  cases n with
  | zero => rfl
  | succ n => exact if_pos rfl

/-- The device answers every request up to the producer index. -/
theorem ringLoop_served {newSqPi sqIdx n : ℕ} (hs : s.InRange) (hidx : sqIdx < s.sqDepth)
    (hpi : newSqPi < s.sqDepth) (hn : advance s.sqDepth sqIdx newSqPi ≤ n)
    (hserved : ∀ i < advance s.sqDepth sqIdx newSqPi, EntryServed bus s sqIdx i) :
    ∃ t, ringLoop bus newSqPi n s sqIdx = (0, t) ∧
      Answered s t (advance s.sqDepth sqIdx newSqPi) ∧
      t.processed = s.processed ++ slots s.sqDepth sqIdx (advance s.sqDepth sqIdx newSqPi) := by
  induction n generalizing s sqIdx with
  | zero =>
    obtain rfl := (advance_eq_zero hidx).1 (Nat.le_zero.1 hn)
    rw [advance_self]
    exact ⟨s, rfl, ⟨rfl, rfl, rfl, rfl, rfl, MsgRing.fills_zero hs.rq, MsgRing.fills_zero hs.cq⟩,
      (List.append_nil _).symm⟩
  | succ n ih =>
    by_cases hend : sqIdx = newSqPi
    · subst hend
      rw [advance_self]
      exact ⟨s, ringLoop_end .., ⟨rfl, rfl, rfl, rfl, rfl, MsgRing.fills_zero hs.rq,
        MsgRing.fills_zero hs.cq⟩, (List.append_nil _).symm⟩
    · have hsucc := advance_succ hidx hpi hend
      obtain ⟨t, hanswered, hreads, hprocessed, hloop⟩ :=
        ringLoop_succ hs hidx hend (hserved 0 (by omega))
      have hdepth := hanswered.sqDepth
      have hnext := nextIdx_lt hanswered hidx
      obtain ⟨t', hrest, hanswered', hprocessed'⟩ := ih hanswered.inRange hnext
        (by rwa [hdepth]) (by rw [hdepth]; omega) (fun i hi => by
          rw [hdepth] at hi
          exact (entryServed_succ hanswered hreads).2 (hserved (i + 1) (by omega)))
      rw [hdepth] at hanswered' hprocessed'
      refine ⟨t', (hloop n).trans hrest, ?_, ?_⟩
      · rw [hsucc]
        exact hanswered.trans hanswered'
      · rw [hprocessed', hprocessed, hsucc, slots_cons hidx, List.append_assoc]
        rfl

/-- Some request up to the producer index fails: the indices of the submission queue stay. -/
theorem ringLoop_failed {newSqPi sqIdx n : ℕ} (hs : s.InRange) (hidx : sqIdx < s.sqDepth)
    (hpi : newSqPi < s.sqDepth) (hn : advance s.sqDepth sqIdx newSqPi ≤ n)
    (hfailed : ∃ i < advance s.sqDepth sqIdx newSqPi, ¬ EntryServed bus s sqIdx i) :
    ∃ t, ringLoop bus newSqPi n s sqIdx = (-1, t) ∧ Kept s t := by
  induction n generalizing s sqIdx with
  | zero =>
    obtain ⟨i, hi, -⟩ := hfailed
    omega
  | succ n ih =>
    obtain ⟨i, hi, hbad⟩ := hfailed
    have hne : sqIdx ≠ newSqPi := by
      rintro rfl
      rw [advance_self] at hi
      omega
    have hsucc := advance_succ hidx hpi hne
    by_cases hfirst : EntryServed bus s sqIdx 0
    · obtain ⟨t, hanswered, hreads, -, hloop⟩ := ringLoop_succ hs hidx hne hfirst
      have hdepth := hanswered.sqDepth
      obtain ⟨t', hrest, hkept⟩ := ih hanswered.inRange (nextIdx_lt hanswered hidx)
        (by rwa [hdepth]) (by rw [hdepth]; omega) (by
          rcases i with _ | i
          · exact absurd hfirst hbad
          · refine ⟨i, by rw [hdepth]; omega, fun hgood => hbad ?_⟩
            exact (entryServed_succ hanswered hreads).1 hgood)
      exact ⟨t', (hloop n).trans hrest, hkept.sqPi.trans hanswered.sqPi,
        hkept.sqCi.trans hanswered.sqCi⟩
    · have hout := processSqe_outcome bus
        (s := { s with processed := s.processed ++ [sqIdx] }) ⟨hs.rq, hs.cq⟩ hidx
      rcases hout with ⟨hgood, -⟩ | ⟨-, hrc, hkept⟩
      · exact absurd hgood hfirst
      · refine ⟨_, ?_, hkept.sqPi, hkept.sqCi⟩
        rw [ringLoop, if_neg hne]
        exact if_pos hrc

/-- More rounds than there are requests change nothing: the bound on the loop is never reached. -/
theorem ringLoop_of_le {newSqPi sqIdx m n : ℕ} (hs : s.InRange) (hidx : sqIdx < s.sqDepth)
    (hpi : newSqPi < s.sqDepth) (hm : advance s.sqDepth sqIdx newSqPi ≤ m) (hmn : m ≤ n) :
    ringLoop bus newSqPi n s sqIdx = ringLoop bus newSqPi m s sqIdx := by
  induction m generalizing n s sqIdx with
  | zero =>
    obtain rfl := (advance_eq_zero hidx).1 (Nat.le_zero.1 hm)
    exact ringLoop_end ..
  | succ m ih =>
    obtain ⟨n, rfl⟩ : ∃ n', n = n' + 1 := ⟨n - 1, by omega⟩
    by_cases hend : sqIdx = newSqPi
    · subst hend
      rw [ringLoop_end, ringLoop_end]
    · have hsucc := advance_succ hidx hpi hend
      by_cases hfirst : EntryServed bus s sqIdx 0
      · obtain ⟨t, hanswered, -, -, hloop⟩ := ringLoop_succ hs hidx hend hfirst
        have hdepth := hanswered.sqDepth
        rw [hloop, hloop]
        exact ih hanswered.inRange (nextIdx_lt hanswered hidx) (by rwa [hdepth])
          (by rw [hdepth]; omega) (Nat.le_of_succ_le_succ hmn)
      · have hout := processSqe_outcome bus
          (s := { s with processed := s.processed ++ [sqIdx] }) ⟨hs.rq, hs.cq⟩ hidx
        rcases hout with ⟨hgood, -⟩ | ⟨-, hrc, -⟩
        · exact absurd hgood hfirst
        · rw [ringLoop, ringLoop, if_neg hend, if_neg hend]
          exact (if_pos hrc).trans (if_pos hrc).symm

/-! ### Index registers -/

/-- The registers with the indices of the three queues; the device ignores three of them. -/
inductive IndexRegister
  | sqPi | sqCi | rqPi | rqCi | cqPi | cqCi
deriving DecidableEq, Repr

def IndexRegister.register : IndexRegister → Register
  | .sqPi => .sqPi
  | .sqCi => .sqCi
  | .rqPi => .rqPi
  | .rqCi => .rqCi
  | .cqPi => .cqPi
  | .cqCi => .cqCi

def step (bus : DmaBus) (s : MessageQueue) (write : IndexRegister × UInt64) : Option MessageQueue :=
  some (s.msgqRegWrite bus write.1.register write.2)

/-- Every request up to the producer index has been looked at once, in the order of the queue, and
no answer has been lost. -/
structure InOrder (s : MessageQueue) : Prop where
  processed : s.processed = slots s.sqDepth 0 s.processed.length
  consumed : s.sqCi = s.processed.length % s.sqDepth
  produced : s.sqPi = s.sqCi
  rq : s.rq.overwritten = []
  cq : s.cq.overwritten = []

/-- What the guest expects of a register write: the requests between the two indices are looked at,
and none of them twice. -/
structure ProcessesOnce (s : MessageQueue) (_ : IndexRegister × UInt64) (s' : MessageQueue) :
    Prop where
  ordered : InOrder s'
  batch : s'.processed = s.processed ++ slots s.sqDepth s.sqCi (advance s.sqDepth s.sqCi s'.sqPi)

/-- A producer index publishes requests that are all answered, and there is room for the answers. -/
def BatchFits (bus : DmaBus) (s : MessageQueue) (write : IndexRegister × UInt64)
    (_ : MessageQueue) : Prop :=
  write.1 = .sqPi → write.2.toNat < s.sqDepth →
    (∀ i < advance s.sqDepth s.sqCi write.2.toNat, EntryServed bus s s.sqCi i) ∧
      s.rq.Fits (advance s.sqDepth s.sqCi write.2.toNat) ∧
      s.cq.Fits (advance s.sqDepth s.sqCi write.2.toNat)

/-- A register write that leaves the submission queue alone. -/
theorem InOrder.quiet {write : IndexRegister × UInt64} (h : s.InOrder)
    (hdepth : s'.sqDepth = s.sqDepth) (hci : s'.sqCi = s.sqCi) (hpi : s'.sqPi = s.sqPi)
    (hprocessed : s'.processed = s.processed) (hrq : s'.rq.overwritten = s.rq.overwritten)
    (hcq : s'.cq.overwritten = s.cq.overwritten) : ProcessesOnce s write s' where
  ordered := by
    refine ⟨?_, ?_, ?_, hrq.trans h.rq, hcq.trans h.cq⟩
    · rw [hprocessed, hdepth, ← h.processed]
    · rw [hprocessed, hdepth, hci, h.consumed]
    · rw [hpi, hci, h.produced]
  batch := by
    rw [hprocessed, hpi, h.produced, advance_self, slots_zero, List.append_nil]

/-- **A producer index: the batch is processed once exactly if it fits.** -/
theorem ringSq_iff (bus : DmaBus) (hs : s.InOrder) (hrange : s.InRange) {value : UInt64}
    (hvalue : value.toNat < s.sqDepth) :
    (ProcessesOnce s (.sqPi, value) (s.msgqRegWrite bus .sqPi value) ↔
      BatchFits bus s (.sqPi, value) (s.msgqRegWrite bus .sqPi value)) ∧
    (ProcessesOnce s (.sqPi, value) (s.msgqRegWrite bus .sqPi value) →
      (s.msgqRegWrite bus .sqPi value).InRange) := by
  have hdepth : 0 < s.sqDepth := Nat.zero_lt_of_lt hvalue
  have hci : s.sqCi < s.sqDepth := hs.consumed ▸ Nat.mod_lt _ hdepth
  have hfuel : advance s.sqDepth s.sqCi value.toNat ≤ s.sqDepth + 1 :=
    (advance_lt hci hvalue).le.trans (Nat.le_succ _)
  have hfits : BatchFits bus s (.sqPi, value) (s.msgqRegWrite bus .sqPi value) ↔
      (∀ i < advance s.sqDepth s.sqCi value.toNat, EntryServed bus s s.sqCi i) ∧
        s.rq.Fits (advance s.sqDepth s.sqCi value.toNat) ∧
        s.cq.Fits (advance s.sqDepth s.sqCi value.toNat) := by
    simp only [BatchFits, true_imp_iff, hvalue]
  have hwrite : s.msgqRegWrite bus .sqPi value =
      if (ringSq bus { s with sqPi := value.toNat } value.toNat).1 < 0 then
        { (ringSq bus { s with sqPi := value.toNat } value.toNat).2 with
          cqIntStatus := 1, cqIntRo := 1 }
      else (ringSq bus { s with sqPi := value.toNat } value.toNat).2 := by
    rw [msgqRegWrite, if_neg (by omega)]
  rw [hfits, hwrite, ringSq]
  by_cases hserved : ∀ i < advance s.sqDepth s.sqCi value.toNat, EntryServed bus s s.sqCi i
  · obtain ⟨t, hloop, hanswered, hprocessed⟩ :=
      ringLoop_served (s := { s with sqPi := value.toNat }) ⟨hrange.rq, hrange.cq⟩ hci hvalue hfuel
        hserved
    dsimp only at hloop hprocessed hanswered
    rw [hloop]
    refine ⟨?_, fun _ => ⟨hanswered.rq.pi_mod, hanswered.cq.pi_mod⟩⟩
    have hrq : 0 < advance s.sqDepth s.sqCi value.toNat → 0 < s.rq.depth := by
      intro hpos
      obtain ⟨-, _, -, _, -, _, -, hrq, -⟩ := hserved 0 hpos
      exact Nat.pos_of_ne_zero hrq
    have hcq : 0 < advance s.sqDepth s.sqCi value.toNat → 0 < s.cq.depth := by
      intro hpos
      obtain ⟨-, _, -, _, -, _, -, -, hcq, -⟩ := hserved 0 hpos
      exact Nat.pos_of_ne_zero hcq
    rw [and_iff_right hserved, ← hanswered.rq.overwritten_iff hrq hs.rq,
      ← hanswered.cq.overwritten_iff hcq hs.cq]
    constructor
    · intro h
      exact ⟨h.ordered.rq, h.ordered.cq⟩
    · rintro ⟨hnorq, hnocq⟩
      have hpi : t.sqPi = value.toNat := hanswered.sqPi
      have hnew : t.processed =
          s.processed ++ slots s.sqDepth s.sqCi (advance s.sqDepth s.sqCi value.toNat) := hprocessed
      refine ⟨⟨?_, ?_, hpi, hnorq, hnocq⟩, ?_⟩
      · show t.processed = slots t.sqDepth 0 t.processed.length
        rw [hnew, hanswered.sqDepth, List.length_append, slots_length, slots_add, Nat.zero_add,
          ← hs.consumed, ← hs.processed]
      · show value.toNat = t.processed.length % t.sqDepth
        rw [hnew, hanswered.sqDepth, List.length_append, slots_length, ← Nat.mod_add_mod,
          ← hs.consumed, advance_mod hci hvalue]
      · show t.processed = _ ++ slots _ _ (advance _ _ t.sqPi)
        rw [hnew, hpi]
  · obtain ⟨t, hloop, hkept⟩ :=
      ringLoop_failed (s := { s with sqPi := value.toNat }) ⟨hrange.rq, hrange.cq⟩ hci hvalue hfuel
        (by push Not at hserved; exact hserved)
    rw [hloop]
    have hnot : ¬ ProcessesOnce s (.sqPi, value) { t with cqIntStatus := 1, cqIntRo := 1 } := by
      intro h
      have hproduced : t.sqPi = t.sqCi := h.ordered.produced
      rw [hkept.sqPi, hkept.sqCi] at hproduced
      refine hserved fun i hi => ?_
      rw [show value.toNat = s.sqCi from hproduced, advance_self] at hi
      omega
    exact ⟨iff_of_false hnot fun h => hserved h.1, fun h => absurd h hnot⟩

theorem processesOnce_iff {write : IndexRegister × UInt64} (hs : s.InOrder ∧ s.InRange)
    (hstep : step bus s write = some s') :
    (ProcessesOnce s write s' ↔ BatchFits bus s write s') ∧
      (ProcessesOnce s write s' → s'.InOrder ∧ s'.InRange) := by
  obtain ⟨reg, value⟩ := write
  obtain ⟨horder, hrange⟩ := hs
  obtain rfl : s.msgqRegWrite bus reg.register value = s' := Option.some.inj hstep
  have hother : ∀ {t : MessageQueue}, ProcessesOnce s (reg, value) t → t.InRange →
      (reg = .sqPi → s.sqDepth ≤ value.toNat) →
      (ProcessesOnce s (reg, value) t ↔ BatchFits bus s (reg, value) t) ∧
        (ProcessesOnce s (reg, value) t → t.InOrder ∧ t.InRange) := by
    intro t honce hin hreg
    refine ⟨iff_of_true honce fun heq hlt => ?_, fun h => ⟨h.ordered, hin⟩⟩
    exact absurd (hreg heq) (Nat.not_le.2 hlt)
  cases reg with
  | sqPi =>
    by_cases hvalue : value.toNat < s.sqDepth
    · obtain ⟨hiff, hin⟩ := ringSq_iff bus horder hrange hvalue
      exact ⟨hiff, fun h => ⟨h.ordered, hin h⟩⟩
    · have hsame : s.msgqRegWrite bus .sqPi value = s := if_pos (.inr (Nat.not_lt.1 hvalue))
      refine hother ?_ ?_ fun _ => Nat.not_lt.1 hvalue
      · rw [IndexRegister.register, hsame]
        exact horder.quiet rfl rfl rfl rfl rfl rfl
      · rwa [IndexRegister.register, hsame]
  | sqCi => exact hother (horder.quiet rfl rfl rfl rfl rfl rfl) hrange nofun
  | rqPi => exact hother (horder.quiet rfl rfl rfl rfl rfl rfl) hrange nofun
  | cqPi => exact hother (horder.quiet rfl rfl rfl rfl rfl rfl) hrange nofun
  | rqCi => exact hother (horder.quiet rfl rfl rfl rfl rfl rfl) ⟨hrange.rq, hrange.cq⟩ nofun
  | cqCi =>
    simp only [IndexRegister.register, msgqRegWrite]
    split_ifs
    · exact hother (horder.quiet rfl rfl rfl rfl rfl rfl) ⟨hrange.rq, hrange.cq⟩ nofun
    · exact hother (horder.quiet rfl rfl rfl rfl rfl rfl) ⟨hrange.rq, hrange.cq⟩ nofun

/-- **The message queue.**  Whatever a guest that has set up the three queues writes to their index
registers, every request up to the producer index is processed once and in order, and no answer is
overwritten that a consumer index has not passed, exactly if every batch that the guest publishes is
answered completely and fits behind the answers that are not read yet. -/
theorem messages_once_iff (bus : DmaBus) (config : ConfigSpace) (sqIova rqIova cqIova : UInt64)
    (sqDepth rqDepth cqDepth : ℕ) (writes : List (IndexRegister × UInt64)) :
    LTS.EveryStep (step bus) ProcessesOnce
        (start config sqIova rqIova cqIova sqDepth rqDepth cqDepth) writes ↔
      LTS.EveryStep (step bus) (BatchFits bus)
        (start config sqIova rqIova cqIova sqDepth rqDepth cqDepth) writes := by
  refine LTS.everyStep_congr (P := fun s => s.InOrder ∧ s.InRange) ?_ ?_ writes
  · intro s write s' hs hstep
    exact processesOnce_iff hs hstep
  · exact ⟨⟨rfl, (Nat.zero_mod _).symm, rfl, rfl, rfl⟩, Nat.zero_mod _, Nat.zero_mod _⟩

/-- Guest memory with requests that the device knows, but for the one at address `unknown`. -/
def requestBus (unknown : UInt64) : DmaBus where
  read _ addr _ := some (if addr = unknown then [3] else [2, 2])
  write _ _ _ := true

def noConfig : ConfigSpace := ⟨1, 0, 0, ⟨0, 0, 0, 0, 0, 0, 0, 0, 0, 0, 0, 0, 0⟩⟩

/-- Two requests are published and the second one fails: the next doorbell answers the first one
again.  And two requests are published to a receive queue with one slot: the second answer
overwrites the first one. -/
theorem messages_twice :
    (¬ LTS.EveryStep (step (requestBus 0x1010)) ProcessesOnce
        (start noConfig 0x1000 0x2000 0x3000 4 4 4) [(.sqPi, 2), (.sqPi, 2)] ∧
      (LTS.run (step (requestBus 0x1010)) (start noConfig 0x1000 0x2000 0x3000 4 4 4)
        [(.sqPi, 2), (.sqPi, 2)]).map MessageQueue.processed = some [0, 1, 0, 1]) ∧
    (¬ LTS.EveryStep (step (requestBus 0)) ProcessesOnce
        (start noConfig 0x1000 0x2000 0x3000 4 1 4) [(.sqPi, 2)] ∧
      (LTS.run (step (requestBus 0)) (start noConfig 0x1000 0x2000 0x3000 4 1 4)
        [(.sqPi, 2)]).map (fun s => (s.rq.ci, s.rq.overwritten)) = some (0, [0])) := by
  refine ⟨⟨fun h => ?_, by decide +kernel⟩, ⟨fun h => ?_, by decide +kernel⟩⟩
  · obtain ⟨hfirst, -⟩ := h.get rfl
    exact absurd hfirst.ordered.produced (by decide +kernel)
  · obtain ⟨hfirst, -⟩ := h.get rfl
    exact absurd hfirst.ordered.rq (by decide +kernel)

end MessageQueue

end Legacy

end LinquUb
