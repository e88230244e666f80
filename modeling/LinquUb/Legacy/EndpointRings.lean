import LinquUb.LTS.Run
import LinquUb.Legacy.Endpoint

/-!
# The rings of an endpoint under failures

Calls of the device may fail at any point of a doorbell.  `kick` moves the head of the command ring
only after the whole batch, so a failure behind the first slot leaves slots to be submitted twice.
`flushCq` takes a completion from the backend before it knows that guest memory accepts it, so a
failing write loses one.

* `Endpoint.submitsOnce_iff`, `Endpoint.deliversOnce_iff` : what a single register write does;
* `Endpoint.commands_once_iff` : **the command ring over whole runs**;
* `Endpoint.completions_once_iff` : **the completion ring over whole runs**.

The guest may write any register with any value at any time.
-/

namespace LinquUb

open LTS

namespace Legacy

namespace Endpoint

variable {bus : DmaBus} {ops : LinquUbBackendOps} {s s' : Endpoint} {write : Register × UInt64}

/-! ### Commands -/

/-- The backend has every slot up to the head, in the order of the ring. -/
structure CommandsInOrder (s : Endpoint) : Prop where
  submitted : s.submitted = slots s.cmdq.depth 0 s.submitted.length
  head : s.cmdq.head = s.submitted.length % s.cmdq.depth

/-- What the command ring asks of a register write: the backend gets published slots only, each one
once, and a doorbell that succeeds submits its whole batch. -/
structure SubmitsOnce (bus : DmaBus) (ops : LinquUbBackendOps) (s : Endpoint)
    (write : Register × UInt64) (s' : Endpoint) : Prop where
  ordered : CommandsInOrder s'
  published : ∃ n ≤ s.cmdq.pending,
    s'.submitted = s.submitted ++ slots s.cmdq.depth s.cmdq.head n ∧
    (write.1 = .doorbell → 0 ≤ (s.kick bus ops (s.batchOf write.2)).1 →
      n = s.batchLength (s.batchOf write.2))

/-- A doorbell gets nothing to the backend, or all of its batch. -/
def AllOrNothing (bus : DmaBus) (ops : LinquUbBackendOps) (s : Endpoint)
    (write : Register × UInt64) (_ : Endpoint) : Prop :=
  write.1 = .doorbell → CommandsStop bus ops s (s.batchOf write.2) ∨
    CommandsPass bus ops s (s.batchOf write.2)

theorem CommandsInOrder.quiet (h : s.CommandsInOrder) (hquiet : Quiet s s') :
    s'.CommandsInOrder where
  submitted := by rw [hquiet.submitted, hquiet.cmdqDepth, ← h.submitted]
  head := by rw [hquiet.submitted, hquiet.cmdqDepth, hquiet.cmdqHead, h.head]

/-- The head passes the slots that are submitted. -/
theorem CommandsInOrder.advance (h : s.CommandsInOrder) {n : ℕ}
    (hcmdq : s'.cmdq = s.cmdq.moveHead n)
    (hsubmitted : s'.submitted = s.submitted ++ slots s.cmdq.depth s.cmdq.head n) :
    s'.CommandsInOrder where
  submitted := by
    rw [hsubmitted, hcmdq, Ring.moveHead_depth, List.length_append, slots_length, slots_add,
      Nat.zero_add, ← h.head, ← h.submitted]
  head := by
    rw [hsubmitted, hcmdq, Ring.moveHead_depth, Ring.moveHead_head, List.length_append,
      slots_length, h.head, Nat.mod_add_mod]

theorem batchLength_le (s : Endpoint) (batch : ℕ) : s.batchLength batch ≤ s.cmdq.pending :=
  Nat.min_le_right _ _

/-- **A register write submits every slot once exactly if no doorbell stops in the middle of its
batch.** -/
theorem submitsOnce_iff (hs : s.CommandsInOrder) (hstep : step bus ops s write = some s') :
    (SubmitsOnce bus ops s write s' ↔ AllOrNothing bus ops s write s') := by
  obtain ⟨reg, value⟩ := write
  obtain rfl : s.epRegWrite bus ops reg value = s' := Option.some.inj hstep
  by_cases hreg : reg = .doorbell
  · subst hreg
    rcases kick_cases bus ops s (s.batchOf value) with
      ⟨hpass, hkick⟩ | ⟨hpass, rc, t, n, hkick, hrc, hrefused, hn, hstop⟩
    · refine iff_of_true ?_ fun _ => .inr hpass
      obtain ⟨rc, t, new, lost, hflush, hflushed, -⟩ := flushCq_cases bus ops
        { s.accept s.cmdq (s.batchLength (s.batchOf value)) with
          rings := s.rings + 1
          cmdq := s.cmdq.moveHead (s.batchLength (s.batchOf value)) }
      rw [hflush] at hkick
      have hstate : s.epRegWrite bus ops .doorbell value = t := congrArg Prod.snd hkick
      rw [hstate]
      exact ⟨hs.advance hflushed.cmdq hflushed.submitted, _, s.batchLength_le _,
        hflushed.submitted, fun _ _ => rfl⟩
    · have hstate : s.epRegWrite bus ops .doorbell value = t := congrArg Prod.snd hkick
      rw [hstate]
      have hall : AllOrNothing bus ops s (.doorbell, value) t ↔ n = 0 := by
        rw [hstop]
        constructor
        · intro h
          exact (h rfl).resolve_right hpass
        · exact fun h _ => .inl h
      rw [hall]
      constructor
      · -- the head has not moved past the slots that were submitted
        intro h
        have hhead := h.ordered.head
        rw [hrefused.cmdq, hrefused.submitted, List.length_append, slots_length,
          ← Nat.mod_add_mod, ← hs.head] at hhead
        by_contra hpos
        have hne : (s.cmdq.head + 0) % s.cmdq.depth ≠ (s.cmdq.head + n) % s.cmdq.depth :=
          slot_ne (Nat.pos_of_ne_zero hpos)
            ((hn.trans (s.batchLength_le _)).trans_lt Ring.pending_lt)
        rw [Nat.add_zero, Nat.mod_eq_of_lt s.cmdq.head_lt] at hne
        exact hne hhead
      · rintro rfl
        refine ⟨hs.advance (hrefused.cmdq.trans (Ring.moveHead_zero _).symm) hrefused.submitted,
          0, Nat.zero_le _, hrefused.submitted, fun _ hok => ?_⟩
        rw [hkick] at hok
        exact absurd hrc (Int.not_lt.2 hok)
  · have hquiet := epRegWrite_quiet bus ops s hreg value
    refine iff_of_true ⟨hs.quiet hquiet, 0, Nat.zero_le _, ?_, fun h => absurd h hreg⟩
      fun h => absurd h hreg
    rw [hquiet.submitted, slots_zero, List.append_nil]

theorem start_commandsInOrder (endpointId : UInt16) : (start endpointId).CommandsInOrder :=
  ⟨rfl, rfl⟩

/-- **The command ring.**  Whatever the guest writes to the registers of an endpoint, and whichever
calls of the device fail, every published slot goes to the backend once and in the order of the
ring exactly if no doorbell fails behind the first slot of its batch. -/
theorem commands_once_iff (bus : DmaBus) (ops : LinquUbBackendOps) (endpointId : UInt16)
    (writes : List (Register × UInt64)) :
    LTS.EveryStep (step bus ops) (SubmitsOnce bus ops) (start endpointId) writes ↔
      LTS.EveryStep (step bus ops) (AllOrNothing bus ops) (start endpointId) writes := by
  refine LTS.everyStep_congr (P := CommandsInOrder) ?_ (start_commandsInOrder endpointId) writes
  intro s write s' hs hstep
  exact ⟨submitsOnce_iff hs hstep, SubmitsOnce.ordered⟩

/-- Guest memory that is readable and writable, full of zeros. -/
def zeroBus : DmaBus where
  read _ _ len := some (List.replicate len 0)
  write _ _ _ := true

/-- A backend that takes everything but the slots of the calls in `failing`. -/
def submitsBut (failing : List ℕ) : LinquUbBackendOps where
  submitSlot := some fun n _ _ => if n ∈ failing then -1 else 0
  ringDoorbell := some fun _ _ _ => 0
  pollCompletion := some fun _ _ => (1, [])

/-- Two slots are published.  The backend takes the first one and refuses the second one; the next
doorbell submits the first slot again. -/
theorem commands_twice :
    ¬ LTS.EveryStep (step zeroBus (submitsBut [1])) (SubmitsOnce zeroBus (submitsBut [1])) (start 1)
      [(.cmdqTail, 2), (.doorbell, 0), (.doorbell, 0)] ∧
    (LTS.run (step zeroBus (submitsBut [1])) (start 1)
      [(.cmdqTail, 2), (.doorbell, 0), (.doorbell, 0)]).map Endpoint.submitted =
        some [0, 0, 1] := by
  refine ⟨fun h => ?_, by decide +kernel⟩
  obtain ⟨-, hfirst⟩ := h.get rfl
  obtain ⟨hkick, -⟩ := hfirst.get rfl
  exact absurd hkick.ordered.head (by decide +kernel)

/-! ### Completions -/

/-- Guest memory has every completion that the backend gave out, one after the other. -/
structure CompletionsInOrder (s : Endpoint) : Prop where
  taken : s.taken = s.written.map Prod.snd
  places : s.written.map Prod.fst = slots s.cq.depth 0 s.written.length
  tail : s.cq.tail = s.written.length % s.cq.depth

/-- What the completion ring asks of a register write: the entries that are not consumed and the new
ones have different slots. -/
structure DeliversOnce (s : Endpoint) (_ : Register × UInt64) (s' : Endpoint) : Prop where
  ordered : CompletionsInOrder s'
  kept : ∃ new, s'.written = s.written ++ new ∧
    (slots s.cq.depth s.cq.head s.cq.pending ++ new.map Prod.fst).Nodup

/-- If a doorbell comes to the completion ring, guest memory takes the completions that the backend
gives out for the free slots. -/
def FlushWritable (bus : DmaBus) (ops : LinquUbBackendOps) (s : Endpoint)
    (write : Register × UInt64) (_ : Endpoint) : Prop :=
  write.1 = .doorbell → CommandsPass bus ops s (s.batchOf write.2) →
    ∀ pollCompletion ∈ ops.pollCompletion, Writable bus pollCompletion s

theorem pending_nodup (s : Endpoint) : (slots s.cq.depth s.cq.head s.cq.pending ++ []).Nodup := by
  rw [List.append_nil]
  exact slots_nodup Ring.pending_lt.le

/-- A write that adds no completion. -/
theorem CompletionsInOrder.deliversOnce (h : s.CompletionsInOrder)
    (hdepth : s'.cq.depth = s.cq.depth) (htail : s'.cq.tail = s.cq.tail)
    (hwritten : s'.written = s.written) (htaken : s'.taken = s.taken) :
    DeliversOnce s write s' where
  ordered := by
    refine ⟨?_, ?_, ?_⟩
    · rw [htaken, hwritten, h.taken]
    · rw [hwritten, hdepth, h.places]
    · rw [htail, hwritten, hdepth, h.tail]
  kept := ⟨[], by rw [hwritten, List.append_nil], s.pending_nodup⟩

/-- A flush delivers every completion exactly if it loses none. -/
theorem CompletionsInOrder.flushed (h : s.CompletionsInOrder) {new : List (ℕ × List UInt8)}
    {lost : List (List UInt8)} (hcq : s'.cq = s.cq.moveTail new.length)
    (hwritten : s'.written = s.written ++ new)
    (htaken : s'.taken = s.taken ++ new.map Prod.snd ++ lost)
    (hplaces : new.map Prod.fst = slots s.cq.depth s.cq.tail new.length)
    (hroom : new.length ≤ s.cq.free) : DeliversOnce s write s' ↔ lost = [] := by
  have hall : s.taken ++ new.map Prod.snd = s'.written.map Prod.snd := by
    rw [hwritten, List.map_append, h.taken]
  constructor
  · intro hdelivers
    have hsame := hdelivers.ordered.taken
    rw [htaken, hall] at hsame
    exact List.append_right_eq_self.1 hsame
  · rintro rfl
    refine ⟨⟨?_, ?_, ?_⟩, new, hwritten, ?_⟩
    · rw [htaken, List.append_nil, hall]
    · rw [hwritten, hcq, List.map_append, List.length_append, Ring.moveTail_depth, slots_add,
        Nat.zero_add, ← h.tail, h.places, hplaces]
    · rw [hwritten, hcq, Ring.moveTail_tail, Ring.moveTail_depth, List.length_append, h.tail,
        Nat.mod_add_mod]
    · -- the new slots continue the window, and stay within one revolution
      have hlt := s.cq.pending_lt
      rw [hplaces, ← Ring.tail_eq, ← slots_add]
      unfold Ring.free at hroom
      exact slots_nodup (by omega)

/-- **A register write delivers every completion once exactly if guest memory accepts what a flush
writes.** -/
theorem deliversOnce_iff (hs : s.CompletionsInOrder) (hstep : step bus ops s write = some s') :
    DeliversOnce s write s' ↔ FlushWritable bus ops s write s' := by
  obtain ⟨reg, value⟩ := write
  obtain rfl : s.epRegWrite bus ops reg value = s' := Option.some.inj hstep
  by_cases hreg : reg = .doorbell
  · subst hreg
    rcases kick_cases bus ops s (s.batchOf value) with
      ⟨hpass, hkick⟩ | ⟨hpass, rc, t, n, hkick, -, hrefused, -⟩
    · obtain ⟨rc, t, new, lost, hflush, hflushed, hlost⟩ := flushCq_cases bus ops
        { s.accept s.cmdq (s.batchLength (s.batchOf value)) with
          rings := s.rings + 1
          cmdq := s.cmdq.moveHead (s.batchLength (s.batchOf value)) }
      rw [hflush] at hkick
      have hstate : s.epRegWrite bus ops .doorbell value = t := congrArg Prod.snd hkick
      rw [hstate, hs.flushed hflushed.cq hflushed.written hflushed.taken hflushed.places
        hflushed.room, hlost]
      constructor
      · exact fun h _ _ => h
      · exact fun h => h rfl hpass
    · have hstate : s.epRegWrite bus ops .doorbell value = t := congrArg Prod.snd hkick
      rw [hstate]
      refine iff_of_true (hs.deliversOnce ?_ ?_ hrefused.written hrefused.taken)
        fun _ h => absurd h hpass
      · rw [hrefused.cq]
      · rw [hrefused.cq]
  · have hquiet := epRegWrite_quiet bus ops s hreg value
    exact iff_of_true
      (hs.deliversOnce hquiet.cqDepth hquiet.cqTail hquiet.written hquiet.taken)
      fun h => absurd h hreg

theorem start_completionsInOrder (endpointId : UInt16) : (start endpointId).CompletionsInOrder :=
  ⟨rfl, rfl, rfl⟩

/-- **The completion ring.**  Whatever the guest writes to the registers of an endpoint, every
completion that the backend gives out is written to the next slot, none is lost and none is
overwritten before the guest consumes it, exactly if guest memory accepts the writes of every
flush. -/
theorem completions_once_iff (bus : DmaBus) (ops : LinquUbBackendOps) (endpointId : UInt16)
    (writes : List (Register × UInt64)) :
    LTS.EveryStep (step bus ops) DeliversOnce (start endpointId) writes ↔
      LTS.EveryStep (step bus ops) (FlushWritable bus ops) (start endpointId) writes := by
  refine LTS.everyStep_congr (P := CompletionsInOrder) ?_ (start_completionsInOrder endpointId)
    writes
  intro s write s' hs hstep
  exact ⟨deliversOnce_iff hs hstep, DeliversOnce.ordered⟩

/-- A backend with one completion. -/
def oneCompletion : LinquUbBackendOps where
  submitSlot := some fun _ _ _ => 0
  ringDoorbell := some fun _ _ _ => 0
  pollCompletion := some fun n _ => if n = 0 then (0, [7]) else (1, [])

/-- The first write to guest memory fails, later ones succeed: the only completion of the backend
has been taken and is never written. -/
theorem completion_lost :
    ¬ LTS.EveryStep (step { zeroBus with write := fun n _ _ => n ≠ 0 } oneCompletion) DeliversOnce
      (start 1) [(.doorbell, 0), (.doorbell, 0)] ∧
    (LTS.run (step { zeroBus with write := fun n _ _ => n ≠ 0 } oneCompletion) (start 1)
      [(.doorbell, 0), (.doorbell, 0)]).map (fun s => (s.taken, s.written)) =
        some ([[7]], []) := by
  refine ⟨fun h => ?_, by decide +kernel⟩
  obtain ⟨hkick, -⟩ := h.get rfl
  exact absurd hkick.ordered.taken (by decide +kernel)

end Endpoint

end Legacy

end LinquUb
