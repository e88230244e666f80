import LinquUb.Qemu.Calls

/-!
# The rings of an endpoint

`DeviceEndpointState.Rings` is the representation invariant of the two rings: head, tail and count
describe a window, and the window of the completion ring holds the completions that have arrived and
not yet left.

* `takeCompletions_eq` : a poll takes the oldest completions and cannot fail;
* `storeAll_stored` : a flush stores completions until one does not fit into its slot;
* `Device.call_keeps` : **every call keeps the rings of all endpoints**.
-/

namespace LinquUb

open Action
open LTS (Window Holds)

namespace DeviceEndpointState

/-- The representation invariant of an endpoint. -/
structure Rings (st : DeviceEndpointState) : Prop where
  cmdDepth : st.memory.cmdDepth = st.session.layout.cmdqDepth.toNat
  cqDepth : st.memory.cqDepth = st.session.layout.cqDepth.toNat
  cmd : Window st.memory.cmdDepth st.cmdqHead st.cmdqTail st.cmdqCount
  cq : Window st.memory.cqDepth st.cqHead st.cqTail st.cqCount
  length : st.arrived.length = st.retired + st.cqCount
  held : Holds st.memory.HoldsCompletion st.memory.cqDepth st.cqHead (st.arrived.drop st.retired)
  returned : st.returned.Sublist (st.arrived.take st.retired)

theorem new_rings (session : GuestEndpointSession) : (new session).Rings where
  cmdDepth := GuestRingMemory.cmdDepth_new ..
  cqDepth := GuestRingMemory.cqDepth_new ..
  cmd := .empty _
  cq := .empty _
  length := rfl
  held := .nil
  returned := .refl _

variable {st : DeviceEndpointState}

theorem Rings.pending_length (h : st.Rings) : (st.arrived.drop st.retired).length = st.cqCount := by
  rw [List.length_drop, h.length]
  omega

/-- The completion at the head of a ring that is not empty. -/
theorem Rings.exists_front (h : st.Rings) (hcount : 0 < st.cqCount) :
    ∃ completion, st.arrived.drop st.retired = completion :: st.arrived.drop (st.retired + 1) ∧
      st.memory.HoldsCompletion st.cqHead completion := by
  have hlt : st.retired < st.arrived.length := by
    have := h.length
    omega
  have hdrop := List.drop_eq_getElem_cons hlt
  have hheld := h.held
  rw [hdrop] at hheld
  exact ⟨_, hdrop, hheld.front (h.cq.head_lt_depth (hcount.trans_le h.cq.count_le))⟩

/-- A completion leaves the ring; what its slot holds afterwards does not matter. -/
theorem Rings.retire {memory : GuestRingMemory} (h : st.Rings) (hcount : 0 < st.cqCount)
    (hcmd : memory.cmdDepth = st.memory.cmdDepth) (hcq : memory.cqDepth = st.memory.cqDepth)
    (hheld : ∀ slot completion, slot ≠ st.cqHead → st.memory.HoldsCompletion slot completion →
      memory.HoldsCompletion slot completion) :
    ({ st with memory } : DeviceEndpointState).retire.Rings := by
  obtain ⟨completion, hdrop, _⟩ := h.exists_front hcount
  have hrest : (st.arrived.drop (st.retired + 1)).length < st.memory.cqDepth := by
    have hlength := h.pending_length
    have hle := h.cq.count_le
    rw [hdrop, List.length_cons] at hlength
    omega
  refine ⟨hcmd.trans h.cmdDepth, hcq.trans h.cqDepth, ?_, ?_, ?_, ?_, ?_⟩
  · exact hcmd.symm ▸ h.cmd
  · show Window memory.cqDepth ((st.cqHead + 1) % memory.cqDepth) st.cqTail (st.cqCount - 1)
    exact hcq.symm ▸ h.cq.leave hcount
  · show st.arrived.length = st.retired + 1 + (st.cqCount - 1)
    have := h.length
    omega
  · show Holds memory.HoldsCompletion memory.cqDepth ((st.cqHead + 1) % memory.cqDepth)
      (st.arrived.drop (st.retired + 1))
    rw [hcq]
    refine Holds.leave (hdrop ▸ h.held) hrest fun slot y hslot => hheld slot y ?_
    rwa [Nat.mod_eq_of_lt (h.cq.head_lt_depth (hcount.trans_le h.cq.count_le))] at hslot
  · exact h.returned.trans (List.take_sublist_take_left (Nat.le_succ _))

/-- A completion enters the ring at its tail. -/
theorem Rings.store {completion : CompletionEvent} {bytes : List UInt8} (h : st.Rings)
    (hroom : st.cqCount < st.memory.cqDepth) (hbytes : decodeCompletion bytes = .ok completion) :
    (st.store (st.memory.putCq st.cqTail bytes) completion).Rings := by
  have htail := h.cq.tail_lt (Nat.zero_lt_of_lt hroom)
  have hretired : st.retired ≤ st.arrived.length := by
    have := h.length
    omega
  refine ⟨h.cmdDepth, ?_, h.cmd, ?_, ?_, ?_, ?_⟩
  · exact (GuestRingMemory.cqDepth_putCq ..).trans h.cqDepth
  · simp only [DeviceEndpointState.store, GuestRingMemory.cqDepth_putCq]
    exact h.cq.enter hroom
  · simp only [DeviceEndpointState.store, List.length_append, List.length_singleton, h.length]
    omega
  · simp only [DeviceEndpointState.store, GuestRingMemory.cqDepth_putCq,
      List.drop_append_of_le_length hretired]
    have hslot : (st.cqHead + (st.arrived.drop st.retired).length) % st.memory.cqDepth =
        st.cqTail := by
      rw [h.pending_length]
      exact h.cq.tail_eq
    refine h.held.enter (h.pending_length ▸ hroom) ?_ fun slot y hne hy => ?_
    · rw [hslot]
      exact GuestRingMemory.putCq_holds htail hbytes
    · exact GuestRingMemory.putCq_holds_of_ne (hslot ▸ hne) hy
  · simp only [DeviceEndpointState.store, List.take_append_of_le_length hretired]
    exact h.returned

/-- The command ring of the memory is not part of the completion ring. -/
theorem Rings.setCmd {memory : GuestRingMemory} (h : st.Rings)
    (hcmd : memory.cmdDepth = st.memory.cmdDepth) (hslots : memory.cqSlots = st.memory.cqSlots)
    (hvalid : memory.cqValid = st.memory.cqValid) :
    ({ st with memory } : DeviceEndpointState).Rings := by
  have hcq : memory.cqDepth = st.memory.cqDepth := congrArg List.length hslots
  have hheld : memory.HoldsCompletion = st.memory.HoldsCompletion := by
    funext slot completion
    simp only [GuestRingMemory.HoldsCompletion, hslots, hvalid]
  refine ⟨hcmd.trans h.cmdDepth, hcq.trans h.cqDepth, ?_, ?_, h.length, ?_, h.returned⟩
  · exact hcmd.symm ▸ h.cmd
  · exact hcq.symm ▸ h.cq
  · show Holds memory.HoldsCompletion memory.cqDepth st.cqHead (st.arrived.drop st.retired)
    rw [hcq, hheld]
    exact h.held

theorem Rings.submitted (h : st.Rings) (hcount : 0 < st.cmdqCount) : st.submitted.Rings :=
  ⟨h.cmdDepth, h.cqDepth, h.cmd.leave hcount, h.cq, h.length, h.held, h.returned⟩

theorem Rings.retire_iterate (h : st.Rings) {n : ℕ} (hn : n ≤ st.cqCount) :
    (DeviceEndpointState.retire^[n] st).Rings := by
  induction n generalizing st with
  | zero => exact h
  | succ n ih =>
    rw [Function.iterate_succ_apply]
    refine ih (h.retire (by omega) rfl rfl fun _ _ _ hheld => hheld) ?_
    show n ≤ st.cqCount - 1
    omega

/-! ### Polls -/

/-- **A poll takes the oldest completions and cannot fail.** -/
theorem takeCompletions_eq (h : st.Rings) {n : ℕ} (hn : n ≤ st.cqCount) :
    ∃ st', exec (takeCompletions n) st = (.ok ((st.arrived.drop st.retired).take n), st') ∧
      st'.Rings ∧ st'.arrived = st.arrived ∧ st'.retired = st.retired + n ∧
      st'.returned = st.returned := by
  induction n generalizing st with
  | zero => exact ⟨st, rfl, h, rfl, rfl, rfl⟩
  | succ n ih =>
    obtain ⟨completion, hdrop, hheld⟩ := h.exists_front (by omega)
    let memory := st.memory.clearCq st.cqHead
    have htake : exec takeCq st = (.ok completion, { st with memory }) := by
      unfold takeCq
      rw [exec_bind_ok (exec_get st), GuestRingMemory.takeCqSlot_eq hheld]
      rfl
    have hretire : ({ st with memory } : DeviceEndpointState).retire.Rings :=
      h.retire (by omega) rfl rfl fun _ _ hne => GuestRingMemory.clearCq_holds_of_ne hne
    have hcount : n ≤ st.cqCount - 1 := by omega
    obtain ⟨st', hexec, hrings, harrived, hretired, hreturned⟩ := ih hretire hcount
    refine ⟨st', ?_, hrings, harrived, ?_, hreturned⟩
    · rw [takeCompletions, exec_bind_ok htake, exec_bind_ok (exec_modify _ _), exec_bind_ok hexec,
        hdrop]
      rfl
    · calc st'.retired = st.retired + 1 + n := hretired
        _ = st.retired + (n + 1) := by omega

/-- What a poll returns leaves the ring and is logged. -/
theorem pollRing_eq (h : st.Rings) (maxEntries : Option ℕ) :
    ∃ events rest st', exec (pollRing maxEntries) st = (.ok (events, rest), st') ∧ st'.Rings ∧
      st'.arrived = st.arrived ∧ st'.returned = st.returned ++ events := by
  obtain ⟨st', hexec, hrings, harrived, hretired, hreturned⟩ :=
    takeCompletions_eq h (Nat.min_le_right (maxEntries.getD st.cqCount) st.cqCount)
  let limit := min (maxEntries.getD st.cqCount) st.cqCount
  let events := (st.arrived.drop st.retired).take limit
  refine ⟨events, st'.cqCount, { st' with returned := st'.returned ++ events }, ?_, ?_, harrived,
    congrArg (· ++ events) hreturned⟩
  · unfold pollRing
    rw [exec_bind_ok (exec_get st)]
    simp only []
    rw [exec_bind_ok hexec]
    rfl
  · refine ⟨hrings.cmdDepth, hrings.cqDepth, hrings.cmd, hrings.cq, hrings.length, hrings.held, ?_⟩
    show (st'.returned ++ events).Sublist (st'.arrived.take st'.retired)
    rw [hreturned, harrived, hretired, List.take_add]
    exact h.returned.append (.refl _)

/-! ### Flushes -/

/-- The ring after `events` have been stored as far as they fit. -/
structure Stored (events : List CompletionEvent) (st : DeviceEndpointState)
    (outcome : Except SimError Unit × DeviceEndpointState) : Prop where
  rings : outcome.2.Rings
  depth : outcome.2.memory.cqDepth = st.memory.cqDepth
  head : outcome.2.cqHead = st.cqHead
  retired : outcome.2.retired = st.retired
  arrived : outcome.2.arrived = st.arrived ++ events.takeWhile (·.Fits st.memory.slotBytes)
  returned : outcome.2.returned = st.returned
  fails : (∃ e, outcome.1 = .error e) ↔ ∃ event ∈ events, ¬event.Fits st.memory.slotBytes

/-- What has been stored is in the slots behind the window of before. -/
theorem Stored.holds {events : List CompletionEvent}
    {outcome : Except SimError Unit × DeviceEndpointState} (h : Stored events st outcome)
    (hst : st.Rings) :
    Holds outcome.2.memory.HoldsCompletion st.memory.cqDepth (st.cqHead + st.cqCount)
      (events.takeWhile (·.Fits st.memory.slotBytes)) := by
  have hretired : st.retired ≤ st.arrived.length := by
    have := hst.length
    omega
  have hheld := h.rings.held
  rw [h.depth, h.head, h.retired, h.arrived, List.drop_append_of_le_length hretired] at hheld
  intro i event hi
  rw [Nat.add_assoc]
  refine hheld (st.cqCount + i) event ?_
  rw [← hst.pending_length, List.getElem?_append_right (Nat.le_add_right _ _),
    Nat.add_sub_cancel_left]
  exact hi

/-- **A flush stores completions until one does not fit into its slot.** -/
theorem storeAll_stored (events : List CompletionEvent) (h : st.Rings)
    (hroom : events.length ≤ st.memory.cqDepth - st.cqCount) :
    Stored events st (exec (storeAll events) st) := by
  induction events generalizing st with
  | nil => exact ⟨h, rfl, rfl, rfl, (List.append_nil _).symm, rfl, by simp [storeAll]⟩
  | cons completion rest ih =>
    rw [List.length_cons] at hroom
    have htail := h.cq.tail_lt (by omega)
    rcases st.memory.writeCqSlot_spec completion htail with
      ⟨hnot, e, hwrite⟩ | ⟨hfits, bytes, hbytes, hwrite⟩
    · have hexec : exec (storeAll (completion :: rest)) st = (.error (.invalidInput e), st) := by
        rw [storeAll, exec_bind_ok (exec_get st), hwrite]
        rfl
      rw [hexec]
      refine ⟨h, rfl, rfl, rfl, ?_, rfl, iff_of_true ⟨_, rfl⟩ ⟨completion, List.mem_cons_self, hnot⟩⟩
      rw [List.takeWhile_cons_of_neg (by simpa using hnot), List.append_nil]
    · let st₁ := st.store (st.memory.putCq st.cqTail bytes) completion
      have hdepth : st₁.memory.cqDepth = st.memory.cqDepth := GuestRingMemory.cqDepth_putCq ..
      have hrest : rest.length ≤ st₁.memory.cqDepth - st₁.cqCount := by
        show rest.length ≤ st₁.memory.cqDepth - (st.cqCount + 1)
        omega
      have hstored := ih (h.store (by omega) hbytes) hrest
      have hexec : exec (storeAll (completion :: rest)) st = exec (storeAll rest) st₁ := by
        rw [storeAll, exec_bind_ok (exec_get st), hwrite]
        rfl
      rw [hexec]
      refine ⟨hstored.rings, hstored.depth.trans hdepth, hstored.head, hstored.retired, ?_,
        hstored.returned, ?_⟩
      · rw [hstored.arrived, List.takeWhile_cons_of_pos (by simpa using hfits)]
        exact List.append_assoc ..
      · rw [hstored.fails]
        simp only [List.mem_cons, exists_eq_or_imp, hfits, not_true_eq_false, false_or]
        rfl

theorem storeCompletions_stored {events : List CompletionEvent} (h : st.Rings)
    (hroom : events.length ≤ st.memory.cqDepth - st.cqCount) :
    Stored events st (exec (storeCompletions events) st) := by
  have hstored := storeAll_stored events h hroom
  rcases hexec : exec (storeAll events) st with ⟨e | a, st'⟩
  · rw [hexec] at hstored
    rw [storeCompletions, exec_bind_error hexec]
    exact hstored
  · rw [hexec] at hstored
    rw [storeCompletions, exec_bind_ok hexec, exec_bind_ok (exec_get st')]
    by_cases hcount : st'.cqCount > 0
    · simp only [hcount, if_true]
      have hst' := hstored.rings
      exact ⟨⟨hst'.cmdDepth, hst'.cqDepth, hst'.cmd, hst'.cq, hst'.length, hst'.held,
        hst'.returned⟩, hstored.depth, hstored.head, hstored.retired, hstored.arrived,
        hstored.returned, hstored.fails⟩
    · simp only [hcount, if_false]
      exact hstored

/-! ### The other methods -/

theorem writeCmdDescriptor_rings (h : st.Rings) (slot : ℕ) (desc : GuestDescriptor) :
    (exec (writeCmdDescriptor slot desc) st).2.Rings := by
  unfold writeCmdDescriptor
  rw [exec_bind_ok (exec_get st)]
  cases hwrite : st.memory.writeCmdSlot slot desc with
  | error e => exact h
  | ok memory =>
    obtain ⟨bytes, rfl⟩ := GuestRingMemory.writeCmdSlot_ok hwrite
    exact h.setCmd (GuestRingMemory.cmdDepth_putCmd ..) rfl rfl

theorem writeCmdqTail_rings (h : st.Rings) (newTail : ℕ) :
    (exec (writeCmdqTail newTail) st).2.Rings := by
  unfold writeCmdqTail
  rw [exec_bind_ok (exec_get st)]
  by_cases hrange : newTail ≥ st.memory.cmdDepth
  · simp only [hrange, if_true]
    exact h
  · by_cases hover : st.cmdqCount + LTS.advance st.memory.cmdDepth st.cmdqTail newTail >
        st.memory.cmdDepth
    · simp only [hrange, hover, if_false, if_true]
      exact h
    · simp only [hrange, hover, if_false]
      have hcmd := h.cmd.extend (Nat.lt_of_not_le hrange) (Nat.le_of_not_lt hover)
      exact ⟨h.cmdDepth, h.cqDepth, hcmd, h.cq, h.length, h.held, h.returned⟩

theorem writeCqHead_rings (h : st.Rings) (newHead : ℕ) :
    (exec (writeCqHead newHead) st).2.Rings := by
  unfold writeCqHead
  rw [exec_bind_ok (exec_get st)]
  by_cases hrange : newHead ≥ st.memory.cqDepth
  · simp only [hrange, if_true]
    exact h
  · by_cases hover : LTS.advance st.memory.cqDepth st.cqHead newHead > st.cqCount
    · simp only [hrange, hover, if_false, if_true]
      exact h
    · simp only [hrange, hover, if_false]
      exact h.retire_iterate (Nat.le_of_not_lt hover)

theorem writeIrqAck_rings (h : st.Rings) (value : UInt64) :
    (exec (writeIrqAck value) st).2.Rings :=
  ⟨h.cmdDepth, h.cqDepth, h.cmd, h.cq, h.length, h.held, h.returned⟩

/-- Taking a descriptor changes nothing but the flag of its slot. -/
theorem takeCmd_state (st : DeviceEndpointState) :
    (exec takeCmd st).2 = st ∨
      (exec takeCmd st).2 = { st with memory := st.memory.clearCmd st.cmdqHead } := by
  have hstate : (exec takeCmd st).2 =
      { st with memory := (st.memory.takeCmdSlot st.cmdqHead).2 } := by
    unfold takeCmd
    rw [exec_bind_ok (exec_get st)]
    rcases st.memory.takeCmdSlot st.cmdqHead with ⟨_ | desc, memory⟩ <;> rfl
  rw [hstate]
  unfold GuestRingMemory.takeCmdSlot
  split_ifs
  · exact .inl rfl
  · exact .inl rfl
  · exact .inr rfl

theorem takeCmd_rings (h : st.Rings) :
    (exec takeCmd st).2.Rings ∧ (exec takeCmd st).2.cmdqCount = st.cmdqCount := by
  rcases takeCmd_state st with heq | heq
  · rw [heq]
    exact ⟨h, rfl⟩
  · rw [heq]
    exact ⟨h.setCmd rfl rfl rfl, rfl⟩

end DeviceEndpointState

/-! ### Methods on an endpoint and the adapter -/

namespace EndpointView

open DeviceEndpointState

/-- The adapter has only run commands, and the rings of the endpoint are kept. -/
structure Keeps (v v' : EndpointView) : Prop where
  runs : v.adapter.Runs v'.adapter
  rings : v.state.Rings → v'.state.Rings

theorem Keeps.refl (v : EndpointView) : Keeps v v := ⟨.refl _, id⟩

theorem Keeps.trans (u v w : EndpointView) (huv : Keeps u v) (hvw : Keeps v w) : Keeps u w :=
  ⟨huv.runs.trans _ _ _ hvw.runs, hvw.rings ∘ huv.rings⟩

theorem onAdapter_keeps {α : Type} {m : Action QemuBackendAdapter SimError α}
    (hm : Within QemuBackendAdapter.Runs m) : Within Keeps (onAdapter m) :=
  fun v => ⟨hm v.adapter, id⟩

theorem onState_keeps {α : Type} {m : Action DeviceEndpointState SimError α}
    (hm : ∀ st, st.Rings → (exec m st).2.Rings) : Within Keeps (onState m) :=
  fun v => ⟨.refl _, hm v.state⟩

/-- **A flush** takes completions out of the adapter only when the ring has room for all of them,
and stores those in front of the first that does not fit. -/
theorem flushCqRing_cases (v : EndpointView) :
    (v.state.memory.cqDepth - v.state.cqCount = 0 ∧ exec flushCqRing v = (.ok (), v)) ∨
    (∃ e adapter, exec flushCqRing v = (.error e, { v with adapter }) ∧
      exec (QemuBackendAdapter.pollCq v.state.session
        (some (v.state.memory.cqDepth - v.state.cqCount))) v.adapter = (.error e, adapter)) ∨
    ∃ events rest adapter,
      exec (QemuBackendAdapter.pollCq v.state.session
        (some (v.state.memory.cqDepth - v.state.cqCount))) v.adapter =
          (.ok (events, rest), adapter) ∧
      exec flushCqRing v = exec (onState (storeCompletions events)) { v with adapter } := by
  by_cases hroom : v.state.memory.cqDepth - v.state.cqCount = 0
  · refine .inl ⟨hroom, ?_⟩
    unfold flushCqRing
    rw [exec_bind_ok (exec_get v)]
    simp only [hroom, if_true]
    rfl
  · refine .inr ?_
    have hflush : exec flushCqRing v = exec (do
        let polled ← onAdapter (QemuBackendAdapter.pollCq v.state.session
          (some (v.state.memory.cqDepth - v.state.cqCount)))
        onState (storeCompletions polled.1)) v := by
      unfold flushCqRing
      rw [exec_bind_ok (exec_get v)]
      simp only [hroom, if_false]
    rw [hflush]
    rcases hpoll : exec (QemuBackendAdapter.pollCq v.state.session
      (some (v.state.memory.cqDepth - v.state.cqCount))) v.adapter with ⟨e | ⟨events, rest⟩, adapter⟩
    · have hon : exec (onAdapter (QemuBackendAdapter.pollCq v.state.session
          (some (v.state.memory.cqDepth - v.state.cqCount)))) v =
          (.error e, { v with adapter }) := by
        rw [onAdapter, exec_zoom, hpoll]
      exact .inl ⟨e, adapter, exec_bind_error hon, rfl⟩
    · have hon : exec (onAdapter (QemuBackendAdapter.pollCq v.state.session
          (some (v.state.memory.cqDepth - v.state.cqCount)))) v =
          (.ok (events, rest), { v with adapter }) := by
        rw [onAdapter, exec_zoom, hpoll]
      exact .inr ⟨events, rest, adapter, rfl, exec_bind_ok hon⟩

theorem flushCqRing_keeps : Within Keeps flushCqRing := by
  intro v
  have hruns := QemuBackendAdapter.pollCq_runs v.state.session
    (some (v.state.memory.cqDepth - v.state.cqCount)) v.adapter
  rcases flushCqRing_cases v with ⟨_, hflush⟩ | ⟨e, adapter, hflush, hpoll⟩ |
    ⟨events, rest, adapter, hpoll, hflush⟩
  · rw [hflush]
    exact .refl v
  · rw [hpoll] at hruns
    rw [hflush]
    exact ⟨hruns, id⟩
  · rw [hpoll] at hruns
    rw [hflush]
    refine ⟨hruns, fun hrings => ?_⟩
    exact (storeCompletions_stored hrings (QemuBackendAdapter.pollCq_length hpoll)).rings

/-- The loop of a doorbell stays within the descriptors that the ring announces. -/
theorem submitSlots_keeps {n : ℕ} {v : EndpointView} (hn : n ≤ v.state.cmdqCount) :
    Keeps v (exec (submitSlots n) v).2 := by
  induction n generalizing v with
  | zero => exact .refl v
  | succ n ih =>
    obtain ⟨hcount, htake⟩ : (exec takeCmd v.state).2.cmdqCount = v.state.cmdqCount ∧
        (v.state.Rings → (exec takeCmd v.state).2.Rings) := by
      refine ⟨?_, fun h => (takeCmd_rings h).1⟩
      rcases takeCmd_state v.state with heq | heq <;> rw [heq]
    rcases hexec : exec takeCmd v.state with ⟨result, st⟩
    rw [hexec] at hcount htake
    have hst : st.cmdqCount = v.state.cmdqCount := hcount
    let v₁ : EndpointView := { v with state := st }
    have hon : exec (onState takeCmd) v = (result, v₁) := by
      rw [onState, exec_zoom, hexec]
    have hfirst : Keeps v v₁ := ⟨.refl _, htake⟩
    rw [submitSlots]
    cases result with
    | error e =>
      rw [exec_bind_error hon]
      exact hfirst
    | ok desc =>
      rw [exec_bind_ok hon, exec_bind_ok (exec_get v₁)]
      have henqueue := QemuBackendAdapter.enqueueDescriptor_runs st.session desc v.adapter
      rcases hcall : exec (QemuBackendAdapter.enqueueDescriptor st.session desc) v.adapter with
        ⟨result, adapter⟩
      rw [hcall] at henqueue
      let v₂ : EndpointView := { adapter, state := st }
      have hon' : exec (onAdapter (QemuBackendAdapter.enqueueDescriptor st.session desc)) v₁ =
          (result, v₂) := by
        rw [onAdapter, exec_zoom, hcall]
      have hsecond : Keeps v₁ v₂ := ⟨henqueue, id⟩
      cases result with
      | error e =>
        rw [exec_bind_error hon']
        exact hfirst.trans _ _ _ hsecond
      | ok counts =>
        rw [exec_bind_ok hon']
        let v₃ : EndpointView := { adapter, state := st.submitted }
        have hthird : Keeps v₂ v₃ := ⟨.refl _, fun h => h.submitted (by show 0 < st.cmdqCount; omega)⟩
        have hrest : Keeps v₃ (exec (submitSlots n) v₃).2 := ih (by
          show n ≤ st.cmdqCount - 1
          omega)
        exact hfirst.trans _ _ _ (hsecond.trans _ _ _ (hthird.trans _ _ _ hrest))

theorem submitBatch_keeps (batch : Option ℕ) : Within Keeps (submitBatch batch) := by
  intro v
  have hslots := submitSlots_keeps (v := v) (Nat.min_le_right (batch.getD v.state.cmdqCount)
    v.state.cmdqCount)
  unfold submitBatch
  rw [exec_bind_ok (exec_get v)]
  rcases hexec : exec (submitSlots (min (batch.getD v.state.cmdqCount) v.state.cmdqCount)) v with
    ⟨_ | _, v'⟩ <;> rw [hexec] at hslots
  · exact (exec_bind_error hexec : exec (_ >>= _) v = _) ▸ hslots
  · exact (exec_bind_ok hexec : exec (_ >>= _) v = _) ▸ hslots

end EndpointView

/-! ### Calls of the device -/

namespace LinquDeviceModel

/-- The rings of all endpoints are well formed. -/
def RingsHold (d : LinquDeviceModel) : Prop :=
  ∀ endpoint st, d.endpoints.lookup endpoint = some st → st.Rings

/-- The adapter has only run commands, and the rings are kept. -/
structure Keeps (d d' : LinquDeviceModel) : Prop where
  runs : d.adapter.Runs d'.adapter
  rings : d.RingsHold → d'.RingsHold

theorem Keeps.refl (d : LinquDeviceModel) : Keeps d d := ⟨.refl _, id⟩

theorem Keeps.trans (d e f : LinquDeviceModel) (hde : Keeps d e) (hef : Keeps e f) : Keeps d f :=
  ⟨hde.runs.trans _ _ _ hef.runs, hef.rings ∘ hde.rings⟩

theorem RingsHold.update {d : LinquDeviceModel} {st : DeviceEndpointState} (h : d.RingsHold)
    (endpoint : EndpointId) (hst : st.Rings) : (d.update endpoint st).RingsHold := by
  intro other st' hlookup
  by_cases heq : other = endpoint
  · subst heq
    rw [LinquDeviceModel.update, Finmap.lookup_insert] at hlookup
    exact Option.some.inj hlookup ▸ hst
  · rw [LinquDeviceModel.update, Finmap.lookup_insert_of_ne _ heq] at hlookup
    exact h other st' hlookup

theorem setLastError_keeps (d : LinquDeviceModel) (endpoint : EndpointId) (err : SimError) :
    Keeps d (d.setLastError endpoint err) := by
  unfold setLastError
  cases hlookup : d.endpoints.lookup endpoint with
  | none => exact .refl d
  | some st =>
    refine ⟨.refl _, fun h => h.update endpoint ?_⟩
    have hst := h endpoint st hlookup
    exact ⟨hst.cmdDepth, hst.cqDepth, hst.cmd, hst.cq, hst.length, hst.held, hst.returned⟩

end LinquDeviceModel

namespace Device

open LinquDeviceModel (Keeps RingsHold)

variable {α : Type}

theorem withEndpoint_keeps (endpoint : EndpointId) {m : Action EndpointView SimError α}
    (hm : Within EndpointView.Keeps m) : Within Keeps (withEndpoint endpoint m) := by
  intro d
  cases hlookup : d.endpoints.lookup endpoint with
  | none =>
    rw [withEndpoint_none hlookup]
    exact .refl d
  | some st =>
    have hkeeps := hm ⟨d.adapter, st⟩
    rw [withEndpoint_eq hlookup]
    refine ⟨hkeeps.runs, fun h => ?_⟩
    exact h.update endpoint (hkeeps.rings (h endpoint st hlookup))

theorem onAdapter_keeps {m : Action QemuBackendAdapter SimError α}
    (hm : Within QemuBackendAdapter.Runs m) : Within Keeps (onAdapter m) :=
  fun d => ⟨hm d.adapter, id⟩

theorem realizeEndpoint_keeps (entity : EntityId) : Within Keeps (realizeEndpoint entity) := by
  refine within_bind Keeps.trans (fun d => ⟨.refl _, id⟩) fun _ => ?_
  refine within_bind Keeps.trans Keeps.refl fun d => ?_
  refine within_bind Keeps.trans
    (onAdapter_keeps (QemuBackendAdapter.registerEndpoint_runs entity)) fun session => ?_
  refine within_bind Keeps.trans (fun d => ⟨.refl _, fun h => ?_⟩) fun _ => within_pure Keeps.refl _
  exact h.update _ (DeviceEndpointState.new_rings session)

theorem keeps_rules : CallRules EndpointView.Keeps Keeps where
  refl := Keeps.refl
  trans := Keeps.trans
  adapter := onAdapter_keeps
  endpoint := withEndpoint_keeps
  lastError := LinquDeviceModel.setLastError_keeps
  realize := realizeEndpoint_keeps
  viewRefl := EndpointView.Keeps.refl
  viewAdapter := EndpointView.onAdapter_keeps
  flush := EndpointView.flushCqRing_keeps
  submit := EndpointView.submitBatch_keeps
  poll := by
    refine fun maxEntries => EndpointView.onState_keeps fun st h => ?_
    obtain ⟨events, rest, st', hexec, hrings, _⟩ := DeviceEndpointState.pollRing_eq h maxEntries
    rw [hexec]
    exact hrings
  writeCmd := fun slot desc => EndpointView.onState_keeps fun _ h =>
    DeviceEndpointState.writeCmdDescriptor_rings h slot desc
  writeTail := fun newTail => EndpointView.onState_keeps fun _ h =>
    DeviceEndpointState.writeCmdqTail_rings h newTail
  writeHead := fun newHead => EndpointView.onState_keeps fun _ h =>
    DeviceEndpointState.writeCqHead_rings h newHead
  writeAck := fun value => EndpointView.onState_keeps fun _ h =>
    DeviceEndpointState.writeIrqAck_rings h value

theorem flushCqRing_keeps (endpoint : EndpointId) : Within Keeps (flushCqRing endpoint) :=
  keeps_rules.flushCqRing endpoint

theorem submitAndRing_keeps (write : DoorbellWrite) : Within Keeps (submitAndRing write) :=
  keeps_rules.submitAndRing write

/-- **Every call keeps the rings of all endpoints.** -/
theorem call_keeps (call : DeviceCall) : Within Keeps (Device.call call) := keeps_rules.call call

end Device

namespace LinquDeviceModel

/-- Every run keeps the rings, and is a run of the surface. -/
theorem run_keeps (d : LinquDeviceModel) (calls : List DeviceCall) : Keeps d (d.run calls) := by
  induction calls generalizing d with
  | nil => exact .refl d
  | cons call calls ih => exact (Device.call_keeps call d).trans _ _ _ (ih _)

end LinquDeviceModel

end LinquUb
