import LinquUb.Legacy.MessageRings

/-!
# Batches of requests from any state

The guest may change the addresses and sizes of the queues at any time, so that an index may lie
outside of its queue.  This is what a doorbell does then.

* `MessageQueue.BatchServed` : a batch that is answered;
* `MessageQueue.Progress` : what is left of the registers after `k` answers;
* `MessageQueue.ringSq_end` : the two ends of a batch;
* `MessageQueue.sqPi_cases` : **what a write of the producer index does**.
-/

namespace LinquUb

open LTS

namespace Legacy

namespace MessageQueue

/-! ### One request -/

/-- What an answer moves on: the state that the next request meets. -/
def nextRequest (s : MessageQueue) : MessageQueue :=
  { s with
    reads := s.reads + 2
    writes := s.writes + 2
    rq.pi := (s.rq.pi + 1) % s.rq.depth
    cq.pi := (s.cq.pi + 1) % s.cq.depth }

/-- A request cannot tell the two states apart. -/
structure Alike (s t : MessageQueue) : Prop where
  sqIova : t.sqIova = s.sqIova
  sqDepth : t.sqDepth = s.sqDepth
  rqIova : t.rq.iova = s.rq.iova
  rqDepth : t.rq.depth = s.rq.depth
  rqPi : t.rq.pi = s.rq.pi
  cqIova : t.cq.iova = s.cq.iova
  cqDepth : t.cq.depth = s.cq.depth
  cqPi : t.cq.pi = s.cq.pi
  reads : t.reads = s.reads
  writes : t.writes = s.writes

/-- The state after `k` answers, and perhaps a request that failed. -/
structure Progress (s s' : MessageQueue) (k : ℕ) : Prop where
  sqDepth : s'.sqDepth = s.sqDepth
  rqDepth : s'.rq.depth = s.rq.depth
  rqPi : s'.rq.pi = s.rq.pi ∨ s'.rq.pi < s.rq.depth
  cqIntMask : s'.cqIntMask = s.cqIntMask
  cqIntRo : s'.cqIntRo = if k = 0 then s.cqIntRo else 0
  entries : s'.cq.written.length = s.cq.written.length + k

variable {bus : DmaBus} {s s' t : MessageQueue} {sqIdx : ℕ}

theorem Alike.refl (s : MessageQueue) : Alike s s :=
  ⟨rfl, rfl, rfl, rfl, rfl, rfl, rfl, rfl, rfl, rfl⟩

theorem Alike.served_iff (h : Alike s t) : Served bus t sqIdx ↔ Served bus s sqIdx := by
  simp only [Served, TakesAnswer, sqAddress, rqAddress, cqAddress, h.sqIova, h.rqIova, h.rqDepth,
    h.rqPi, h.cqIova, h.cqDepth, h.cqPi, h.reads, h.writes]

theorem Alike.nextRequest (h : Alike s t) : Alike s.nextRequest t.nextRequest :=
  { h with
    rqPi := by simp only [MessageQueue.nextRequest, h.rqPi, h.rqDepth]
    cqPi := by simp only [MessageQueue.nextRequest, h.cqPi, h.cqDepth]
    reads := by simp only [MessageQueue.nextRequest, h.reads]
    writes := by simp only [MessageQueue.nextRequest, h.writes] }

theorem Progress.refl (s : MessageQueue) : Progress s s 0 :=
  ⟨rfl, rfl, .inl rfl, rfl, rfl, rfl⟩

theorem Progress.trans {j k : ℕ} (h₁ : Progress s t j) (h₂ : Progress t s' k) :
    Progress s s' (j + k) where
  sqDepth := h₂.sqDepth.trans h₁.sqDepth
  rqDepth := h₂.rqDepth.trans h₁.rqDepth
  rqPi := by
    have hdepth := h₁.rqDepth
    rcases h₂.rqPi with heq | hlt
    · rw [heq]
      exact h₁.rqPi
    · exact .inr (hdepth ▸ hlt)
  cqIntMask := h₂.cqIntMask.trans h₁.cqIntMask
  cqIntRo := by
    rw [h₂.cqIntRo, h₁.cqIntRo]
    split_ifs <;> first | rfl | omega
  entries := by
    rw [h₂.entries, h₁.entries]
    omega

/-- A request that is answered, and one that fails. -/
theorem processSqe_progress (bus : DmaBus) (s : MessageQueue) (sqIdx : ℕ) :
    Served bus s sqIdx ∧ (processSqe bus s sqIdx).1 = 0 ∧
        Alike s.nextRequest (processSqe bus s sqIdx).2 ∧ Progress s (processSqe bus s sqIdx).2 1 ∨
      ¬ Served bus s sqIdx ∧ (processSqe bus s sqIdx).1 < 0 ∧
        Progress s (processSqe bus s sqIdx).2 0 := by
  rcases processSqe_end bus s sqIdx with
    ⟨hserved, config, rsp, cqe, heq⟩ | ⟨hserved, config, reads, writes, rq, hrq, heq⟩
  · have hdepth : s.rq.depth ≠ 0 := by
      obtain ⟨-, _, -, _, -, _, -, hrq, -⟩ := hserved
      exact hrq
    rw [heq]
    refine .inl ⟨hserved, rfl, ⟨rfl, rfl, rfl, rfl, rfl, rfl, rfl, rfl, rfl, rfl⟩,
      ⟨rfl, rfl, .inr (Nat.mod_lt _ (Nat.pos_of_ne_zero hdepth)), rfl, rfl, ?_⟩⟩
    simp [withAnswer, MsgRing.store, MsgRing.publish]
  · rw [heq]
    refine .inr ⟨hserved, neg_rc, ?_⟩
    rcases hrq with rfl | ⟨rsp, rfl⟩ <;> exact ⟨rfl, rfl, .inl rfl, rfl, rfl, rfl⟩

/-! ### A batch -/

/-- The slots of the submission queue from `idx` up to `value`.  Only the first one may lie outside
of the queue. -/
def batch (depth idx value : ℕ) : List ℕ :=
  if idx = value then []
  else idx :: slots depth ((idx + 1) % depth) (advance depth ((idx + 1) % depth) value)

/-- Every request is served, in the state that the ones before it leave. -/
def BatchServed (bus : DmaBus) : MessageQueue → List ℕ → Prop
  | _, [] => True
  | s, sqIdx :: rest => Served bus s sqIdx ∧ BatchServed bus s.nextRequest rest

theorem batch_self (depth idx : ℕ) : batch depth idx idx = [] := if_pos rfl

theorem batch_eq_slots {depth idx value : ℕ} (hidx : idx < depth) (hvalue : value < depth) :
    batch depth idx value = slots depth idx (advance depth idx value) := by
  unfold batch
  split_ifs with heq
  · rw [(advance_eq_zero hidx).2 heq, slots_zero]
  · rw [advance_succ hidx hvalue heq, slots_cons hidx]

theorem batch_cons {depth idx value : ℕ} (hne : idx ≠ value) (hvalue : value < depth) :
    batch depth idx value = idx :: batch depth ((idx + 1) % depth) value := by
  rw [batch_eq_slots (Nat.mod_lt _ (Nat.zero_lt_of_lt hvalue)) hvalue]
  exact if_neg hne

theorem length_batch_le {depth value : ℕ} (idx : ℕ) (hvalue : value < depth) :
    (batch depth idx value).length ≤ depth := by
  by_cases heq : idx = value
  · rw [heq, batch_self]
    exact Nat.zero_le _
  · have hlt := advance_lt (Nat.mod_lt (idx + 1) (Nat.zero_lt_of_lt hvalue)) hvalue
    rw [batch, if_neg heq, List.length_cons, slots_length]
    omega

theorem Alike.batchServed_iff {idxs : List ℕ} (h : Alike s t) :
    BatchServed bus t idxs ↔ BatchServed bus s idxs := by
  induction idxs generalizing s t with
  | nil => exact Iff.rfl
  | cons sqIdx idxs ih =>
    exact and_congr h.served_iff (ih h.nextRequest)

/-- **What the loop does.** -/
theorem ringLoop_end_cases (bus : DmaBus) {value n : ℕ} (hvalue : value < s.sqDepth)
    (hn : (batch s.sqDepth sqIdx value).length ≤ n) :
    BatchServed bus s (batch s.sqDepth sqIdx value) ∧ (ringLoop bus value n s sqIdx).1 = 0 ∧
        Progress s (ringLoop bus value n s sqIdx).2 (batch s.sqDepth sqIdx value).length ∨
      ¬ BatchServed bus s (batch s.sqDepth sqIdx value) ∧ (ringLoop bus value n s sqIdx).1 < 0 ∧
        ∃ k, Progress s (ringLoop bus value n s sqIdx).2 k := by
  induction n generalizing s sqIdx with
  | zero =>
    rw [List.length_eq_zero_iff.1 (Nat.le_zero.1 hn)]
    exact .inl ⟨trivial, rfl, .refl s⟩
  | succ n ih =>
    by_cases hend : sqIdx = value
    · subst hend
      rw [batch_self, ringLoop_end]
      exact .inl ⟨trivial, rfl, .refl s⟩
    have hloop : ringLoop bus value (n + 1) s sqIdx =
        if (processSqe bus { s with processed := s.processed ++ [sqIdx] } sqIdx).1 < 0 then
          (-1, (processSqe bus { s with processed := s.processed ++ [sqIdx] } sqIdx).2)
        else ringLoop bus value n
          (processSqe bus { s with processed := s.processed ++ [sqIdx] } sqIdx).2
          ((sqIdx + 1) %
            (processSqe bus { s with processed := s.processed ++ [sqIdx] } sqIdx).2.sqDepth) :=
      if_neg hend
    rw [batch_cons hend hvalue, List.length_cons] at hn ⊢
    rw [hloop]
    rcases processSqe_progress bus { s with processed := s.processed ++ [sqIdx] } sqIdx with
      ⟨hserved, hrc, halike, hprogress⟩ | ⟨hserved, hrc, hprogress⟩
    · rw [hrc, if_neg (lt_irrefl 0)]
      generalize (processSqe bus { s with processed := s.processed ++ [sqIdx] } sqIdx).2 = t
        at halike hprogress ⊢
      have hdepth : t.sqDepth = s.sqDepth := hprogress.sqDepth
      have hprogress' : Progress s t 1 := { hprogress with }
      have hn' : (batch t.sqDepth ((sqIdx + 1) % t.sqDepth) value).length ≤ n := by
        rw [hdepth]
        omega
      have hrest := ih (by rwa [hdepth]) hn'
      rw [hdepth] at hrest ⊢
      have hiff : BatchServed bus t (batch s.sqDepth ((sqIdx + 1) % s.sqDepth) value) ↔
          BatchServed bus s.nextRequest (batch s.sqDepth ((sqIdx + 1) % s.sqDepth) value) :=
        Alike.batchServed_iff { halike with }
      rcases hrest with ⟨hall, hrc', h⟩ | ⟨hsome, hrc', k, h⟩
      · have hsum := hprogress'.trans h
        rw [Nat.add_comm 1 (List.length _)] at hsum
        exact .inl ⟨⟨hserved, hiff.1 hall⟩, hrc', hsum⟩
      · exact .inr ⟨fun hall => hsome (hiff.2 hall.2), hrc', 1 + k, hprogress'.trans h⟩
    · rw [if_pos hrc]
      exact .inr ⟨fun hall => hserved hall.1, neg_rc, 0, { hprogress with }⟩

/-- **What a doorbell does.** -/
theorem ringSq_end (bus : DmaBus) {value : ℕ} (hvalue : value < s.sqDepth) :
    BatchServed bus s (batch s.sqDepth s.sqCi value) ∧ (ringSq bus s value).1 = 0 ∧
        Progress s (ringSq bus s value).2 (batch s.sqDepth s.sqCi value).length ∨
      ¬ BatchServed bus s (batch s.sqDepth s.sqCi value) ∧ (ringSq bus s value).1 < 0 ∧
        ∃ k, Progress s (ringSq bus s value).2 k := by
  have hsq : ringSq bus s value =
      if (ringLoop bus value (s.sqDepth + 1) s s.sqCi).1 < 0 then
        (-1, (ringLoop bus value (s.sqDepth + 1) s s.sqCi).2)
      else (0, { (ringLoop bus value (s.sqDepth + 1) s s.sqCi).2 with sqCi := value }) := rfl
  have hn := (length_batch_le s.sqCi hvalue).trans (Nat.le_succ _)
  rw [hsq]
  rcases ringLoop_end_cases bus hvalue hn with ⟨hall, hrc, h⟩ | ⟨hall, hrc, k, h⟩
  · rw [hrc, if_neg (lt_irrefl 0)]
    exact .inl ⟨hall, rfl, { h with }⟩
  · rw [if_pos hrc]
    exact .inr ⟨hall, neg_rc, k, h⟩

/-- **What a producer index does**: it is ignored, or its batch is answered, or the batch fails. -/
theorem sqPi_cases (bus : DmaBus) (s : MessageQueue) (value : UInt64) :
    (s.sqDepth ≤ value.toNat ∧ s.msgqRegWrite bus .sqPi value = s) ∨
    (value.toNat < s.sqDepth ∧ BatchServed bus s (batch s.sqDepth s.sqCi value.toNat) ∧
      Progress s (s.msgqRegWrite bus .sqPi value) (batch s.sqDepth s.sqCi value.toNat).length) ∨
    (value.toNat < s.sqDepth ∧ ¬ BatchServed bus s (batch s.sqDepth s.sqCi value.toNat) ∧
      ∃ t k, Progress s t k ∧
        s.msgqRegWrite bus .sqPi value = { t with cqIntStatus := 1, cqIntRo := 1 }) := by
  by_cases hvalue : s.sqDepth ≤ value.toNat
  · exact .inl ⟨hvalue, if_pos (.inr hvalue)⟩
  have hlt := Nat.lt_of_not_le hvalue
  have hwrite : s.msgqRegWrite bus .sqPi value =
      if (ringSq bus { s with sqPi := value.toNat } value.toNat).1 < 0 then
        { (ringSq bus { s with sqPi := value.toNat } value.toNat).2 with
          cqIntStatus := 1, cqIntRo := 1 }
      else (ringSq bus { s with sqPi := value.toNat } value.toNat).2 := by
    rw [msgqRegWrite, if_neg (by omega)]
  have hiff : BatchServed bus { s with sqPi := value.toNat }
      (batch s.sqDepth s.sqCi value.toNat) ↔
        BatchServed bus s (batch s.sqDepth s.sqCi value.toNat) :=
    Alike.batchServed_iff { Alike.refl s with }
  rw [hwrite]
  rcases ringSq_end bus (s := { s with sqPi := value.toNat }) hlt with
    ⟨hall, hrc, h⟩ | ⟨hall, hrc, k, h⟩
  · rw [hrc, if_neg (lt_irrefl 0)]
    exact .inr (.inl ⟨hlt, hiff.1 hall, { h with }⟩)
  · rw [if_pos hrc]
    exact .inr (.inr ⟨hlt, fun h => hall (hiff.2 h), _, k, { h with }, rfl⟩)

end MessageQueue

end Legacy

end LinquUb
