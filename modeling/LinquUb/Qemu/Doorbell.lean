import LinquUb.Qemu.Access
import LinquUb.Qemu.Sessions
import LinquUb.Uapi.Order

/-!
# Doorbells of the device

A doorbell takes descriptors out of the command ring, enqueues them one after the other, and then
rings the adapter.  A slot is given up before its content is decoded and enqueued, and an error
stops the doorbell before the adapter is rung.

* `DeviceEndpointState.Consumed` : the first slots of the command ring, and only these, are given up;
* `submitSlots_cases` : how the loop of a doorbell ends;
* `LinquDeviceModel.doorbell_accounted_iff` : **a doorbell accounts for the slots that it gives up if
  and only if its batch fits**.
-/

namespace LinquUb

open Action
open LTS (Window Holds slots)

namespace GuestRingMemory

variable {memory : GuestRingMemory} {slot : ℕ} {desc : GuestDescriptor}

/-- The slot is marked valid and its bytes decode to the descriptor. -/
def HoldsCommand (memory : GuestRingMemory) (slot : ℕ) (desc : GuestDescriptor) : Prop :=
  memory.cmdValid[slot]? = some true ∧
    ∃ bytes, memory.cmdSlots[slot]? = some bytes ∧ GuestDescriptor.decode bytes = .ok desc

/-- A slot holds one descriptor at most. -/
theorem HoldsCommand.unique {desc' : GuestDescriptor} (h : memory.HoldsCommand slot desc)
    (h' : memory.HoldsCommand slot desc') : desc = desc' := by
  obtain ⟨-, bytes, hbytes, hdecode⟩ := h
  obtain ⟨-, bytes', hbytes', hdecode'⟩ := h'
  rw [hbytes] at hbytes'
  cases hbytes'
  exact Except.ok.inj (hdecode.symm.trans hdecode')

/-- A slot that is marked valid is given up, whatever it holds. -/
theorem takeCmdSlot_cases (memory : GuestRingMemory) (slot : ℕ) :
    (memory.cmdValid[slot]? ≠ some true ∧ ∃ e, memory.takeCmdSlot slot = (.error e, memory)) ∨
    (memory.cmdValid[slot]? = some true ∧ (∀ desc, ¬memory.HoldsCommand slot desc) ∧
      ∃ e, memory.takeCmdSlot slot = (.error e, memory.clearCmd slot)) ∨
    ∃ desc, memory.HoldsCommand slot desc ∧
      memory.takeCmdSlot slot = (.ok desc, memory.clearCmd slot) := by
  unfold takeCmdSlot
  split_ifs with hrange hvalid
  · refine .inl ⟨?_, _, rfl⟩
    rw [List.getElem?_eq_none (memory.cmd_length ▸ hrange)]
    exact nofun
  · refine .inl ⟨fun h => ?_, _, rfl⟩
    rw [List.getD_eq_getElem?_getD, h] at hvalid
    cases hvalid
  · have hlt : slot < memory.cmdSlots.length := Nat.lt_of_not_le hrange
    have hflag : memory.cmdValid[slot]? = some true := by
      rw [List.getElem?_eq_getElem (memory.cmd_length ▸ hlt)]
      simpa [List.getD_eq_getElem?_getD, memory.cmd_length, hlt] using hvalid
    have hbytes : memory.cmdSlots[slot]? = some (memory.cmdSlots.getD slot []) := by
      rw [List.getD_eq_getElem?_getD, List.getElem?_eq_getElem hlt]
      rfl
    cases hdecode : GuestDescriptor.decode (memory.cmdSlots.getD slot []) with
    | error e =>
      refine .inr (.inl ⟨hflag, ?_, e, rfl⟩)
      rintro desc ⟨-, bytes, hbytes', hok⟩
      rw [hbytes] at hbytes'
      cases hbytes'
      rw [hdecode] at hok
      cases hok
    | ok desc => exact .inr (.inr ⟨desc, ⟨hflag, _, hbytes, hdecode⟩, rfl⟩)

theorem HoldsCommand.of_takeCmdSlot (h : (memory.takeCmdSlot slot).1.toOption = some desc) :
    memory.HoldsCommand slot desc := by
  rcases memory.takeCmdSlot_cases slot with ⟨_, e, heq⟩ | ⟨_, _, e, heq⟩ | ⟨desc', hdesc, heq⟩
  · rw [heq] at h
    cases h
  · rw [heq] at h
    cases h
  · rw [heq] at h
    exact Option.some.inj h ▸ hdesc

theorem cmdValid_clearCmd (memory : GuestRingMemory) {slot : ℕ} (hslot : slot < memory.cmdDepth)
    (other : ℕ) : (memory.clearCmd slot).cmdValid[other]? =
      if other = slot then some false else memory.cmdValid[other]? := by
  split_ifs with h
  · subst h
    exact List.getElem?_set_self (memory.cmd_length ▸ hslot)
  · exact List.getElem?_set_ne (Ne.symm h)

end GuestRingMemory

namespace DeviceEndpointState

/-- The commands in the first slots of the command ring have been taken out, and the other slots are
as they were. -/
structure Consumed (st st' : DeviceEndpointState) (descs : List GuestDescriptor) : Prop where
  held : Holds st.memory.HoldsCommand st.memory.cmdDepth st.cmdqHead descs
  length_le : descs.length ≤ st.cmdqCount
  head : st'.cmdqHead = (st.cmdqHead + descs.length) % st.memory.cmdDepth
  count : st'.cmdqCount = st.cmdqCount - descs.length
  contents : st'.memory.cmdSlots = st.memory.cmdSlots
  valid : ∀ slot, st'.memory.cmdValid[slot]? =
    if slot ∈ slots st.memory.cmdDepth st.cmdqHead descs.length then some false
    else st.memory.cmdValid[slot]?

variable {st st₁ st' : DeviceEndpointState} {desc : GuestDescriptor} {descs descs' : List GuestDescriptor}

theorem Consumed.nil (h : st.Rings) : st.Consumed st [] where
  held := .nil
  length_le := Nat.zero_le _
  head := by
    rcases Nat.eq_zero_or_pos st.memory.cmdDepth with hzero | hpos
    · simp [hzero]
    · exact (Nat.mod_eq_of_lt (h.cmd.head_lt_depth hpos)).symm
  count := rfl
  contents := rfl
  valid := fun slot => by simp

/-- The number of the commands that are left tells how many have been taken out. -/
theorem Consumed.length_eq (h : st.Consumed st' descs) (h' : st.Consumed st' descs') :
    descs.length = descs'.length := by
  have := h.count
  have := h'.count
  have := h.length_le
  have := h'.length_le
  omega

theorem Consumed.same (h : st.Consumed st₁ descs) (hsame : st₁.SameCommands st') :
    st.Consumed st' descs where
  held := h.held
  length_le := h.length_le
  head := hsame.head.trans h.head
  count := hsame.count.trans h.count
  contents := hsame.slots.trans h.contents
  valid := fun slot => by rw [hsame.valid, h.valid]

/-- The slot behind the commands that have been taken out is as it was. -/
theorem Consumed.next_valid (h : st.Consumed st' descs) (hlt : descs.length < st.memory.cmdDepth) :
    st'.memory.cmdValid[(st.cmdqHead + descs.length) % st.memory.cmdDepth]? =
      st.memory.cmdValid[(st.cmdqHead + descs.length) % st.memory.cmdDepth]? := by
  rw [h.valid, if_neg]
  intro hmem
  obtain ⟨i, hi, heq⟩ := LTS.mem_slots.1 hmem
  exact LTS.slot_ne hi hlt heq

theorem Consumed.next_holds (h : st.Consumed st' descs) (hlt : descs.length < st.memory.cmdDepth)
    (hheld : st.memory.HoldsCommand ((st.cmdqHead + descs.length) % st.memory.cmdDepth) desc) :
    st'.memory.HoldsCommand st'.cmdqHead desc := by
  obtain ⟨hvalid, hbytes⟩ := hheld
  rw [← h.head] at hvalid hbytes
  refine ⟨?_, h.contents ▸ hbytes⟩
  rw [← hvalid, h.head]
  exact h.next_valid hlt

/-- Nothing is taken out of a ring whose first slot is not valid. -/
theorem Consumed.eq_nil (h : st.Consumed st' descs) (hhead : st.cmdqHead < st.memory.cmdDepth)
    (hvalid : st.memory.cmdValid[st.cmdqHead]? ≠ some true) : descs = [] := by
  cases descs with
  | nil => rfl
  | cons desc rest => exact absurd (h.held.front hhead).1 hvalid

/-- The slot at the head is marked as empty. -/
def giveUp (st : DeviceEndpointState) : DeviceEndpointState :=
  { st with memory := st.memory.clearCmd st.cmdqHead }

theorem giveUp_valid (hhead : st.cmdqHead < st.memory.cmdDepth) (slot : ℕ) :
    st.giveUp.memory.cmdValid[slot]? =
      if slot = st.cmdqHead then some false else st.memory.cmdValid[slot]? :=
  GuestRingMemory.cmdValid_clearCmd _ hhead slot

/-- The descriptor in the slot at the head is taken out, or the slot is given up for nothing, or it
was not valid. -/
theorem takeCmd_cases (st : DeviceEndpointState) :
    (st.memory.cmdValid[st.cmdqHead]? ≠ some true ∧ ∃ e, exec takeCmd st = (.error e, st)) ∨
    (st.memory.cmdValid[st.cmdqHead]? = some true ∧
      (∀ desc, ¬st.memory.HoldsCommand st.cmdqHead desc) ∧
      ∃ e, exec takeCmd st = (.error e, st.giveUp)) ∨
    ∃ desc, st.memory.HoldsCommand st.cmdqHead desc ∧ exec takeCmd st = (.ok desc, st.giveUp) := by
  unfold takeCmd
  rw [exec_bind_ok (exec_get st)]
  rcases st.memory.takeCmdSlot_cases st.cmdqHead with
    ⟨hvalid, e, heq⟩ | ⟨hvalid, hnone, e, heq⟩ | ⟨desc, hdesc, heq⟩
  all_goals
    rw [heq]
  · exact .inl ⟨hvalid, _, rfl⟩
  · exact .inr (.inl ⟨hvalid, hnone, _, rfl⟩)
  · exact .inr (.inr ⟨desc, hdesc, rfl⟩)

/-- The first command is taken out, and then others. -/
theorem Consumed.cons (h : st.Rings) (hcount : 0 < st.cmdqCount)
    (hdesc : st.memory.HoldsCommand st.cmdqHead desc)
    (hrest : st.giveUp.submitted.Consumed st' descs) : st.Consumed st' (desc :: descs) := by
  have hhead : st.cmdqHead < st.memory.cmdDepth :=
    h.cmd.head_lt_depth (hcount.trans_le h.cmd.count_le)
  have hlength : descs.length ≤ st.cmdqCount - 1 := hrest.length_le
  refine ⟨.cons hhead hdesc (hrest.held.mono ?_), ?_, ?_, ?_, hrest.contents, fun slot => ?_⟩
  · rintro slot y ⟨hvalid, hbytes⟩
    have hflag := (giveUp_valid hhead slot).symm.trans hvalid
    split_ifs at hflag
    · cases hflag
    · exact ⟨hflag, hbytes⟩
  · rw [List.length_cons]
    omega
  · rw [List.length_cons, ← LTS.slot_succ]
    exact hrest.head
  · have : st'.cmdqCount = st.cmdqCount - 1 - descs.length := hrest.count
    rw [List.length_cons]
    omega
  · have hflag : st.giveUp.submitted.memory.cmdValid[slot]? = _ := giveUp_valid hhead slot
    have hslots : slots st.memory.cmdDepth st.cmdqHead (desc :: descs).length =
        st.cmdqHead :: slots st.memory.cmdDepth st.giveUp.submitted.cmdqHead descs.length :=
      LTS.slots_cons hhead _
    rw [hrest.valid, hflag]
    simp only [hslots, List.mem_cons]
    show (if slot ∈ slots st.memory.cmdDepth st.giveUp.submitted.cmdqHead descs.length
      then _ else _) = _
    by_cases hslot : slot = st.cmdqHead
    · simp only [hslot, true_or, if_true, ite_self]
    · simp only [hslot, false_or, if_false]

end DeviceEndpointState

namespace EndpointView

open DeviceEndpointState (Consumed)
open LocalGuestUapiSurface (Enqueued Staged)

/-- The commands have been taken out of the ring and enqueued. -/
structure Submits (v v' : EndpointView) (descs : List GuestDescriptor) : Prop where
  consumed : v.state.Consumed v'.state descs
  session : v'.state.session = v.state.session
  enqueued : ∃ subs, subs.map (·.desc) = descs.map (·.toUapiDescriptor) ∧
    Enqueued v.adapter.surface v'.adapter.surface v.state.session.cmdq subs

/-- The slot at the head cannot be decoded, or the command queue has no room for it. -/
def Refuses (v : EndpointView) : Prop :=
  (∀ desc, ¬v.state.memory.HoldsCommand v.state.cmdqHead desc) ∨
    ∃ queue, v.adapter.surface.cmdQueues.lookup v.state.session.cmdq = some queue ∧
      queue.depth ≤ queue.pending.length

variable {v v₁ v' : EndpointView} {descs : List GuestDescriptor}

/-- One round of the loop: the slot at the head is not valid, or it is given up for nothing, or its
descriptor is enqueued. -/
theorem submitSlot_cases (hserves : v.adapter.Serves v.state.session) (n : ℕ) :
    (∃ e, exec (submitSlots (n + 1)) v = (.error e, v) ∧
      v.state.memory.cmdValid[v.state.cmdqHead]? ≠ some true) ∨
    (∃ e, exec (submitSlots (n + 1)) v = (.error e, { v with state := v.state.giveUp }) ∧
      v.state.memory.cmdValid[v.state.cmdqHead]? = some true ∧ v.Refuses) ∨
    ∃ desc adapter sub, v.state.memory.HoldsCommand v.state.cmdqHead desc ∧
      v.adapter.Runs adapter ∧ sub.desc = desc.toUapiDescriptor ∧
      Enqueued v.adapter.surface adapter.surface v.state.session.cmdq [sub] ∧
      exec (submitSlots (n + 1)) v =
        exec (submitSlots n) { adapter, state := v.state.giveUp.submitted } := by
  rw [submitSlots]
  rcases v.state.takeCmd_cases with ⟨hvalid, e, htake⟩ | ⟨hvalid, hnone, e, htake⟩ |
    ⟨desc, hdesc, htake⟩
  · refine .inl ⟨e, exec_bind_error ?_, hvalid⟩
    rw [onState, exec_zoom, htake]
  · refine .inr (.inl ⟨e, exec_bind_error ?_, hvalid, .inl hnone⟩)
    rw [onState, exec_zoom, htake]
  · let v₁ : EndpointView := { v with state := v.state.giveUp }
    have hon : exec (onState DeviceEndpointState.takeCmd) v = (.ok desc, v₁) := by
      rw [onState, exec_zoom, htake]
    rw [exec_bind_ok hon, exec_bind_ok (exec_get v₁)]
    obtain ⟨queue, hq, howner, hdepth⟩ := hserves.queue
    have hruns := QemuBackendAdapter.enqueueDescriptor_runs v.state.session desc v.adapter
    have henqueue := QemuBackendAdapter.enqueueDescriptor_exec v.state.session desc v.adapter
    rw [← howner] at henqueue
    rcases Uapi.enqueueCmd_spec hq desc.toUapiDescriptor with
      ⟨hfull, herror⟩ | ⟨hroom, counts, s', sub, hok, hsub, hnew⟩
    · rw [herror] at henqueue
      have hon' : exec (onAdapter (QemuBackendAdapter.enqueueDescriptor v.state.session desc)) v₁ =
          (.error (.invalidInput "command queue full"), v₁) := by
        rw [onAdapter, exec_zoom]
        exact congrArg (fun r => (r.1, { v₁ with adapter := r.2 })) henqueue
      exact .inr (.inl ⟨_, exec_bind_error hon', hdesc.1, .inr ⟨queue, hq, hfull⟩⟩)
    · rw [hok] at henqueue
      rw [henqueue] at hruns
      let adapter := { v.adapter with surface := s' }
      have hon' : exec (onAdapter (QemuBackendAdapter.enqueueDescriptor v.state.session desc)) v₁ =
          (.ok counts, { v₁ with adapter }) := by
        rw [onAdapter, exec_zoom]
        exact congrArg (fun r => (r.1, { v₁ with adapter := r.2 })) henqueue
      exact .inr (.inr ⟨desc, adapter, sub, hdesc, hruns, hsub, hnew, exec_bind_ok hon'⟩)

/-- **How the loop of a doorbell ends**: all slots have been submitted, or it stops at a slot that is
not valid, or it stops at a slot that it gives up for nothing. -/
theorem submitSlots_cases {n : ℕ} (hrings : v.state.Rings)
    (hserves : v.adapter.Serves v.state.session) (hn : n ≤ v.state.cmdqCount) :
    (∃ v' descs, exec (submitSlots n) v = (.ok (), v') ∧ descs.length = n ∧ v.Submits v' descs) ∨
    ∃ e v₁ v' descs, exec (submitSlots n) v = (.error e, v') ∧ descs.length < n ∧
      v.Submits v₁ descs ∧
      (v' = v₁ ∧ v₁.state.memory.cmdValid[v₁.state.cmdqHead]? ≠ some true ∨
        v' = { v₁ with state := v₁.state.giveUp } ∧
          v₁.state.memory.cmdValid[v₁.state.cmdqHead]? = some true ∧ v₁.Refuses) := by
  have hsame : v.Submits v [] :=
    ⟨.nil hrings, rfl, [], rfl, .nil v.adapter.surface v.state.session.cmdq⟩
  induction n generalizing v with
  | zero => exact .inl ⟨v, [], rfl, rfl, hsame⟩
  | succ n ih =>
    rcases submitSlot_cases hserves n with ⟨e, hexec, hvalid⟩ | ⟨e, hexec, hvalid, hrefuses⟩ |
      ⟨desc, adapter, sub, hdesc, hruns, hsub, hnew, hexec⟩
    · exact .inr ⟨e, v, v, [], hexec, Nat.succ_pos n, hsame, .inl ⟨rfl, hvalid⟩⟩
    · exact .inr ⟨e, v, _, [], hexec, Nat.succ_pos n, hsame, .inr ⟨rfl, hvalid, hrefuses⟩⟩
    · have hcount : 0 < v.state.cmdqCount := by omega
      let v₁ : EndpointView := { adapter, state := v.state.giveUp.submitted }
      have hgiveUp : v.state.giveUp.Rings := hrings.setCmd rfl rfl rfl
      have hrings₁ : v₁.state.Rings := hgiveUp.submitted hcount
      have hserves₁ : v₁.adapter.Serves v₁.state.session := hserves.runs hruns
      have hn₁ : n ≤ v₁.state.cmdqCount := by
        show n ≤ v.state.cmdqCount - 1
        omega
      have hsame₁ : v₁.Submits v₁ [] :=
        ⟨.nil hrings₁, rfl, [], rfl, .nil v₁.adapter.surface v₁.state.session.cmdq⟩
      have hcons : ∀ v' descs, v₁.Submits v' descs → v.Submits v' (desc :: descs) := by
        rintro v' descs ⟨hconsumed, hsession, subs, hsubs, henqueued⟩
        refine ⟨hconsumed.cons hrings hcount hdesc, hsession, sub :: subs, ?_,
          hnew.append henqueued⟩
        rw [List.map_cons, List.map_cons, hsubs, hsub]
      rw [hexec]
      rcases ih hrings₁ hserves₁ hn₁ hsame₁ with ⟨v', descs, hrest, hlength, hsubmits⟩ |
        ⟨e, v₂, v', descs, hrest, hlength, hsubmits, hend⟩
      · exact .inl ⟨v', desc :: descs, hrest, congrArg Nat.succ hlength, hcons v' descs hsubmits⟩
      · exact .inr ⟨e, v₂, v', desc :: descs, hrest, Nat.succ_lt_succ hlength,
          hcons v₂ descs hsubmits, hend⟩

/-- The commands have been taken out of the ring, enqueued, and staged by a doorbell. -/
structure Rung (v v' : EndpointView) (descs : List GuestDescriptor) : Prop where
  consumed : v.state.Consumed v'.state descs
  staged : ∃ subs, subs.map (·.desc) = descs.map (·.toUapiDescriptor) ∧
    Staged v.adapter.surface v'.adapter.surface v.state.session.cmdq subs

/-- The first `n` slots hold commands, the command queue is empty, and the runtime queue has room for
`n` commands. -/
structure Fits (v : EndpointView) (queue : CommandQueueState) (n : ℕ) : Prop where
  held : ∃ descs, descs.length = n ∧
    Holds v.state.memory.HoldsCommand v.state.memory.cmdDepth v.state.cmdqHead descs
  empty : queue.pending = []
  room : n ≤ v.adapter.surface.runtimeRoom

variable {n : ℕ} {queue : CommandQueueState} {e : SimError}

theorem Rung.nil (hrings : v.state.Rings) : v.Rung v [] :=
  ⟨.nil hrings, [], rfl, .nil v.adapter.surface v.state.session.cmdq⟩

/-- What the endpoints of a reachable device bring along. -/
structure Ready (v : EndpointView) (queue : CommandQueueState) : Prop where
  rings : v.state.Rings
  serves : v.adapter.Serves v.state.session
  lookup : v.adapter.surface.cmdQueues.lookup v.state.session.cmdq = some queue
  old : ∀ sub ∈ queue.pending, sub.ticket < v.adapter.surface.tickets

theorem Ready.owner_depth (h : v.Ready queue) :
    queue.owner = v.state.session.entity ∧ queue.depth = v.state.memory.cmdDepth := by
  obtain ⟨queue', hq, howner, hdepth⟩ := h.serves.queue
  cases Option.some.inj (hq.symm.trans h.lookup)
  exact ⟨howner, hdepth.trans h.rings.cmdDepth.symm⟩

/-- Commands that are all there are submitted, if the command queue is empty. -/
theorem submitSlots_held (h : v.Ready queue) (hn : n ≤ v.state.cmdqCount)
    (hheld : ∃ descs, descs.length = n ∧
      Holds v.state.memory.HoldsCommand v.state.memory.cmdDepth v.state.cmdqHead descs)
    (hempty : queue.pending = []) :
    ∃ v' descs, exec (submitSlots n) v = (.ok (), v') ∧ descs.length = n ∧ v.Submits v' descs := by
  rcases submitSlots_cases h.rings h.serves hn with hdone |
    ⟨e, v₁, v', descs, -, hlength, ⟨hconsumed, hsession, subs, hsubs, henqueued⟩, hend⟩
  · exact hdone
  exfalso
  have hlt : descs.length < v.state.memory.cmdDepth :=
    hlength.trans_le (hn.trans h.rings.cmd.count_le)
  obtain ⟨all, hall, hheld⟩ := hheld
  obtain ⟨desc, hdesc⟩ : ∃ desc, all[descs.length]? = some desc :=
    ⟨_, List.getElem?_eq_getElem (hall ▸ hlength)⟩
  have hholds := hconsumed.next_holds hlt (hheld _ _ hdesc)
  rcases hend with ⟨-, hinvalid⟩ | ⟨-, -, hnone | ⟨queue', hq, hfull⟩⟩
  · exact hinvalid hholds.1
  · exact hnone desc hholds
  · rw [hsession, henqueued.queue queue h.lookup] at hq
    cases hq
    have hdepth := h.owner_depth.2
    have := congrArg List.length hsubs
    rw [List.length_map, List.length_map] at this
    simp only [hempty, List.nil_append] at hfull
    omega

/-- A loop that fails accounts for its slots exactly when the first slot was not valid. -/
theorem submitSlots_error_iff (h : v.Ready queue) (hn : n ≤ v.state.cmdqCount)
    (hexec : exec (submitSlots n) v = (.error e, v')) :
    ((∃ descs, v.Rung v' descs) ↔ v.state.memory.cmdValid[v.state.cmdqHead]? ≠ some true) ∧
      n ≠ 0 ∧ ¬v.Fits queue n := by
  rcases submitSlots_cases h.rings h.serves hn with ⟨_, _, hok, _⟩ |
    ⟨e', v₁, v'', descs, herror, hlength, ⟨hconsumed, hsession, subs, hsubs, henqueued⟩, hend⟩
  · rw [hexec] at hok
    cases hok
  rw [hexec] at herror
  cases herror
  have hcount := h.rings.cmd.count_le
  have hlt : descs.length < v.state.memory.cmdDepth := by omega
  have hhead : v.state.cmdqHead < v.state.memory.cmdDepth := h.rings.cmd.head_lt_depth (by omega)
  have hnext := hconsumed.next_valid hlt
  -- the loop stops at the first slot unless something has been enqueued
  have hfirst : descs = [] → v₁.state.memory.cmdValid[v₁.state.cmdqHead]? =
      v.state.memory.cmdValid[v.state.cmdqHead]? := by
    rintro rfl
    rw [List.length_nil, Nat.add_zero, Nat.mod_eq_of_lt hhead] at hnext
    rw [hconsumed.head, List.length_nil, Nat.add_zero, Nat.mod_eq_of_lt hhead, hnext]
  refine ⟨?_, by omega, ?_⟩
  · rcases hend with ⟨rfl, hvalid⟩ | ⟨rfl, hvalid, _⟩
    · constructor
      · rintro ⟨descs', _, subs', _, hstaged⟩
        rw [henqueued.staged hstaged, List.map_nil] at hsubs
        rwa [hfirst (List.map_eq_nil_iff.1 hsubs.symm)] at hvalid
      · intro hinvalid
        obtain rfl := hconsumed.eq_nil hhead hinvalid
        obtain rfl := List.map_eq_nil_iff.1 hsubs
        exact ⟨[], hconsumed, [], rfl, henqueued.staged_nil h.lookup⟩
    · refine iff_of_false ?_ ?_
      · rintro ⟨descs', hconsumed', _⟩
        -- the slot behind the commands that were taken out is no longer valid
        have hsame : descs'.length = descs.length := by
          have hleft : v₁.state.cmdqCount = v.state.cmdqCount - descs'.length := hconsumed'.count
          have := hconsumed.count
          have := hconsumed.length_le
          have := hconsumed'.length_le
          omega
        have hhead₁ : v₁.state.cmdqHead < v₁.state.memory.cmdDepth := by
          have hdepth : v₁.state.memory.cmdDepth = v.state.memory.cmdDepth :=
            congrArg List.length hconsumed.contents
          rw [hconsumed.head, hdepth]
          exact Nat.mod_lt _ (Nat.zero_lt_of_lt hlt)
        have hkept := hconsumed'.next_valid (hsame ▸ hlt)
        rw [hsame, ← hnext, ← hconsumed.head] at hkept
        have hcleared := DeviceEndpointState.giveUp_valid hhead₁ v₁.state.cmdqHead
        rw [if_pos rfl] at hcleared
        have := hcleared.symm.trans (hkept.trans hvalid)
        cases this
      · intro hinvalid
        rw [hfirst (hconsumed.eq_nil hhead hinvalid)] at hvalid
        exact hinvalid hvalid
  · rintro ⟨hheld, hempty, -⟩
    obtain ⟨_, _, hok, -⟩ := submitSlots_held h hn hheld hempty
    rw [hexec] at hok
    cases hok

/-- A loop that succeeds and is followed by a doorbell accounts for its slots exactly when the batch
fits. -/
theorem ringDoorbell_iff (h : v.Ready queue) (hn : n ≤ v.state.cmdqCount) (hpos : n ≠ 0)
    (hexec : exec (submitSlots n) v = (.ok (), v')) {result : Except SimError (ℕ × ℕ)}
    {adapter : QemuBackendAdapter}
    (hring : exec (QemuBackendAdapter.ringDoorbell v.state.session (some n)) v'.adapter =
      (result, adapter)) :
    ((∃ descs, v.Rung { v' with adapter } descs) ↔ v.Fits queue n) ∧
      (∀ submitted pending, result = .ok (submitted, pending) → submitted = n) ∧
      ∃ descs, v.state.Consumed v'.state descs ∧ descs.length = n := by
  rcases submitSlots_cases h.rings h.serves hn with
    ⟨v'', descs, hok, hlength, ⟨hconsumed, hsession, subs, hsubs, henqueued⟩⟩ | ⟨_, _, _, _, herror, _⟩
  swap
  · rw [hexec] at herror
    cases herror
  rw [hexec] at hok
  cases hok
  have hcount : subs.length = n := by
    have := congrArg List.length hsubs
    rw [List.length_map, List.length_map] at this
    omega
  have hsome : subs ≠ [] := by
    rintro rfl
    exact hpos hcount.symm
  rw [QemuBackendAdapter.ringDoorbell_exec, ← h.owner_depth.1, ← hcount] at hring
  rcases hsurface : exec (Uapi.ringDoorbell v.state.session.cmdq queue.owner (some subs.length))
    v'.adapter.surface with ⟨result', s⟩
  rw [hsurface] at hring
  cases hring
  have hstaged : ∀ subs', Staged v.adapter.surface s v.state.session.cmdq subs' ↔
      subs' = subs ∧ queue.pending = [] ∧ subs.length ≤ v.adapter.surface.runtimeRoom :=
    fun subs' => Uapi.ringDoorbell_staged h.lookup henqueued h.old hsome hsurface
  refine ⟨?_, ?_, descs, hconsumed, hlength⟩
  · constructor
    · rintro ⟨descs', _, subs', _, hall⟩
      obtain ⟨_, hempty, hroom⟩ := (hstaged subs').1 hall
      exact ⟨⟨descs, hlength, hconsumed.held⟩, hempty, hcount ▸ hroom⟩
    · rintro ⟨_, hempty, hroom⟩
      exact ⟨descs, hconsumed, subs, hsubs, (hstaged subs).2 ⟨rfl, hempty, hcount ▸ hroom⟩⟩
  · obtain ⟨_, _, hspec, _, _, _, _, hcounts⟩ :=
      Uapi.ringDoorbell_spec (n := subs.length) (henqueued.queue queue h.lookup) (by simp)
    rw [hsurface] at hspec
    cases hspec
    exact hcount ▸ hcounts

/-- A flush does not touch the command ring. -/
theorem flushCqRing_same (v : EndpointView) :
    v.state.SameCommands (exec flushCqRing v).2.state := by
  rcases flushCqRing_cases v with ⟨_, hflush⟩ | ⟨e, adapter, hflush, _⟩ |
    ⟨events, rest, adapter, _, hflush⟩
  · rw [hflush]
    exact .refl _
  · rw [hflush]
    exact .refl _
  · rw [hflush]
    exact DeviceEndpointState.storeCompletions_same events v.state

end EndpointView

/-- How many descriptors a doorbell is to submit. -/
def DoorbellWrite.toSubmit (write : DoorbellWrite) (st : DeviceEndpointState) : ℕ :=
  min (write.batch.getD st.cmdqCount) st.cmdqCount

namespace LinquDeviceModel

open EndpointView (submitSlots Ready)
open LocalGuestUapiSurface (Staged)

variable {d : LinquDeviceModel} {write : DoorbellWrite} {st st₁ : DeviceEndpointState}

/-- A method has worked on an endpoint. -/
def afterView (d : LinquDeviceModel) (endpoint : EndpointId) (v : EndpointView) : LinquDeviceModel :=
  { d.update endpoint v.state with adapter := v.adapter }

theorem afterView_lookup (d : LinquDeviceModel) (endpoint : EndpointId) (v : EndpointView) :
    (d.afterView endpoint v).endpoints.lookup endpoint = some v.state :=
  Finmap.lookup_insert _

/-- A doorbell up to its flush: its loop fails, or there is nothing to submit, or it rings the
adapter. -/
theorem submitAndRing_cases (hst : d.endpoints.lookup write.endpoint = some st) :
    (∃ e v, exec (submitSlots (write.toSubmit st)) ⟨d.adapter, st⟩ = (.error e, v) ∧
      exec (Device.submitAndRing write) d = (.error e, d.afterView write.endpoint v)) ∨
    (∃ v, exec (submitSlots (write.toSubmit st)) ⟨d.adapter, st⟩ = (.ok (), v) ∧
      write.toSubmit st = 0 ∧ exec (Device.submitAndRing write) d =
        (.ok (0, v.state.cmdqCount, false), d.afterView write.endpoint v)) ∨
    ∃ v result adapter, exec (submitSlots (write.toSubmit st)) ⟨d.adapter, st⟩ = (.ok (), v) ∧
      write.toSubmit st ≠ 0 ∧
      exec (QemuBackendAdapter.ringDoorbell st.session (some (write.toSubmit st))) v.adapter =
        (result, adapter) ∧
      exec (Device.submitAndRing write) d = (result.map fun counts => (counts.1, counts.2, true),
        d.afterView write.endpoint { v with adapter }) := by
  let n := write.toSubmit st
  have hbatch : exec (EndpointView.submitBatch write.batch) ⟨d.adapter, st⟩ = exec (do
      submitSlots n
      return (st.session, n, (← get).state.cmdqCount)) ⟨d.adapter, st⟩ := rfl
  unfold Device.submitAndRing
  rcases hslots : exec (submitSlots n) ⟨d.adapter, st⟩ with ⟨e | _, v⟩
  · rw [exec_bind_error hslots] at hbatch
    have hwith : exec (Device.withEndpoint write.endpoint (EndpointView.submitBatch write.batch)) d =
        (.error e, d.afterView write.endpoint v) := by
      rw [Device.withEndpoint_eq hst, hbatch]
      rfl
    exact .inl ⟨e, v, rfl, exec_bind_error hwith⟩
  · rw [exec_bind_ok hslots, exec_bind_ok (exec_get v)] at hbatch
    have hwith : exec (Device.withEndpoint write.endpoint (EndpointView.submitBatch write.batch)) d =
        (.ok (st.session, n, v.state.cmdqCount), d.afterView write.endpoint v) := by
      rw [Device.withEndpoint_eq hst, hbatch]
      rfl
    rw [exec_bind_ok hwith]
    by_cases hzero : n = 0
    · refine .inr (.inl ⟨v, rfl, hzero, ?_⟩)
      simp only [hzero, if_true]
      rfl
    · refine .inr (.inr ?_)
      rcases hring : exec (QemuBackendAdapter.ringDoorbell st.session (some n)) v.adapter with
        ⟨result, adapter⟩
      refine ⟨v, result, adapter, rfl, hzero, hring, ?_⟩
      have hon : exec (Device.onAdapter (QemuBackendAdapter.ringDoorbell st.session (some n)))
          (d.afterView write.endpoint v) =
            (result, d.afterView write.endpoint { v with adapter }) := by
        rw [Device.onAdapter, exec_zoom]
        exact congrArg (fun r => (r.1, d.afterView write.endpoint { v with adapter := r.2 })) hring
      simp only [hzero, if_false]
      cases result with
      | error e => exact exec_bind_error hon
      | ok counts => exact exec_bind_ok hon

/-- What the flush behind a doorbell leaves alone. -/
theorem mmioRingDoorbell_same
    (h : (exec (Device.submitAndRing write) d).2.endpoints.lookup write.endpoint = some st₁) :
    ∃ st', (exec (Device.mmioRingDoorbell write) d).2.endpoints.lookup write.endpoint = some st' ∧
      st₁.SameCommands st' := by
  unfold Device.mmioRingDoorbell
  rcases hexec : exec (Device.submitAndRing write) d with ⟨e | ⟨submitted, pending, rung⟩, d₁⟩
  all_goals
    rw [hexec] at h
  · rw [exec_bind_error hexec]
    exact ⟨st₁, h, .refl st₁⟩
  · rw [exec_bind_ok hexec]
    cases rung with
    | false => exact ⟨st₁, h, .refl st₁⟩
    | true =>
      have hflush : (exec (Device.flushCqRing write.endpoint) d₁).2.endpoints.lookup
          write.endpoint = some (exec EndpointView.flushCqRing ⟨d₁.adapter, st₁⟩).2.state := by
        rw [Device.flushCqRing, Device.withEndpoint_eq h]
        exact Finmap.lookup_insert _
      have hstate : (exec (do
          Device.flushCqRing write.endpoint
          return (submitted, pending)) d₁).2 = (exec (Device.flushCqRing write.endpoint) d₁).2 :=
        exec_map_snd (Device.flushCqRing write.endpoint) (fun _ => (submitted, pending)) d₁
      refine ⟨_, ?_, EndpointView.flushCqRing_same ⟨d₁.adapter, st₁⟩⟩
      rw [← hflush, ← hstate]
      rfl

/-- A doorbell returns the counts of the adapter. -/
theorem mmioRingDoorbell_ok {submitted pending : ℕ}
    (h : (exec (Device.mmioRingDoorbell write) d).1 = .ok (submitted, pending)) :
    ∃ rung, (exec (Device.submitAndRing write) d).1 = .ok (submitted, pending, rung) := by
  unfold Device.mmioRingDoorbell at h
  rcases hexec : exec (Device.submitAndRing write) d with ⟨e | ⟨submitted', pending', rung⟩, d₁⟩
  · rw [exec_bind_error hexec] at h
    cases h
  · rw [exec_bind_ok hexec] at h
    refine ⟨rung, ?_⟩
    cases rung with
    | false =>
      cases h
      rfl
    | true =>
      dsimp only [if_true] at h
      rcases hflush : exec (Device.flushCqRing write.endpoint) d₁ with ⟨e | _, d₂⟩
      · rw [if_pos rfl, exec_bind_error hflush] at h
        cases h
      · rw [if_pos rfl, exec_bind_ok hflush] at h
        cases h
        rfl

/-- The doorbell accounts for the slots that it gives up: they are the first slots of the ring, their
commands have been enqueued in order and all of them staged, and the other slots are as they were.
If it succeeds, it returns their number, and that is the size of its batch. -/
def Accounted (d : LinquDeviceModel) (write : DoorbellWrite) : Prop :=
  ∀ st, d.endpoints.lookup write.endpoint = some st →
    ∃ descs subs st',
      (exec (Device.mmioRingDoorbell write) d).2.endpoints.lookup write.endpoint = some st' ∧
      st.Consumed st' descs ∧ subs.map (·.desc) = descs.map (·.toUapiDescriptor) ∧
      Staged d.adapter.surface (exec (Device.submitAndRing write) d).2.adapter.surface
        st.session.cmdq subs ∧
      ∀ submitted pending,
        (exec (Device.mmioRingDoorbell write) d).1 = .ok (submitted, pending) →
          submitted = write.toSubmit st ∧ descs.length = submitted

/-- Nothing is to be submitted, or the slot at the head of the ring is not valid, or each slot of the
batch holds a command, the command queue is empty and the runtime queue has room for the batch. -/
def BatchFits (d : LinquDeviceModel) (write : DoorbellWrite) : Prop :=
  ∀ st queue, d.endpoints.lookup write.endpoint = some st →
    d.adapter.surface.cmdQueues.lookup st.session.cmdq = some queue →
    write.toSubmit st = 0 ∨ st.memory.cmdValid[st.cmdqHead]? ≠ some true ∨
      EndpointView.Fits ⟨d.adapter, st⟩ queue (write.toSubmit st)

theorem Reachable.ready {machine : Machine} {profile : MachineProfile}
    (hd : Reachable machine profile d) {endpoint : EndpointId}
    (hst : d.endpoints.lookup endpoint = some st) :
    ∃ queue, Ready ⟨d.adapter, st⟩ queue := by
  have hserves := hd.sessionsHold endpoint st hst
  obtain ⟨queue, hq, -⟩ := hserves.queue
  refine ⟨queue, hd.ringsHold endpoint st hst, hserves, hq, fun sub hsub => ?_⟩
  obtain ⟨cmds, hcmds⟩ := hd.runs.surface
  have hordered : d.adapter.surface.flow.Ordered :=
    hcmds ▸ LocalGuestUapiSurface.run_ordered _ cmds
  refine hordered.wayBounded st.session.cmdq sub ?_
  simp only [Flow.way, Flow.pendingOf, hq, List.mem_append]
  exact .inr hsub

/-- A doorbell that has rung for the commands of its batch accounts for them; the flush does no
harm. -/
theorem accounted_of_rung {result : Except SimError (ℕ × ℕ × Bool)} {v : EndpointView}
    {descs : List GuestDescriptor}
    (hexec : exec (Device.submitAndRing write) d = (result, d.afterView write.endpoint v))
    (hrung : EndpointView.Rung ⟨d.adapter, st⟩ v descs)
    (hcounts : ∀ submitted pending rung, result = .ok (submitted, pending, rung) →
      submitted = write.toSubmit st ∧ descs.length = submitted) :
    ∃ descs subs st',
      (exec (Device.mmioRingDoorbell write) d).2.endpoints.lookup write.endpoint = some st' ∧
      st.Consumed st' descs ∧ subs.map (·.desc) = descs.map (·.toUapiDescriptor) ∧
      Staged d.adapter.surface (exec (Device.submitAndRing write) d).2.adapter.surface
        st.session.cmdq subs ∧
      ∀ submitted pending,
        (exec (Device.mmioRingDoorbell write) d).1 = .ok (submitted, pending) →
          submitted = write.toSubmit st ∧ descs.length = submitted := by
  obtain ⟨hconsumed, subs, hsubs, hstaged⟩ := hrung
  have hlookup : (exec (Device.submitAndRing write) d).2.endpoints.lookup write.endpoint =
      some v.state := hexec ▸ afterView_lookup ..
  obtain ⟨st', hst', hsame⟩ := mmioRingDoorbell_same hlookup
  refine ⟨descs, subs, st', hst', hconsumed.same hsame, hsubs, ?_, fun submitted pending hok => ?_⟩
  · rw [hexec]
    exact hstaged
  · obtain ⟨rung, hok'⟩ := mmioRingDoorbell_ok hok
    rw [hexec] at hok'
    exact hcounts submitted pending rung hok'

/-- **A doorbell accounts for the slots that it gives up if and only if its batch fits**, in every
reachable state and for every batch. -/
theorem doorbell_accounted_iff {machine : Machine} {profile : MachineProfile}
    (hd : Reachable machine profile d) (write : DoorbellWrite) :
    d.Accounted write ↔ d.BatchFits write := by
  constructor
  · intro h st queue hst hq
    obtain ⟨queue', hready⟩ := hd.ready hst
    cases Option.some.inj (hready.lookup.symm.trans hq)
    have hn : write.toSubmit st ≤ st.cmdqCount := Nat.min_le_right ..
    obtain ⟨descs, subs, st', hst', hconsumed, hsubs, hstaged, -⟩ := h st hst
    have hrung : ∀ v, (exec (Device.submitAndRing write) d).2 = d.afterView write.endpoint v →
        EndpointView.Rung ⟨d.adapter, st⟩ v descs := by
      intro v hv
      obtain ⟨st'', hst'', hsame⟩ := mmioRingDoorbell_same (hv ▸ afterView_lookup ..)
      rw [hst'] at hst''
      cases hst''
      rw [hv] at hstaged
      exact ⟨hconsumed.same hsame.symm, subs, hsubs, hstaged⟩
    rcases submitAndRing_cases hst with ⟨e, v, hslots, hexec⟩ | ⟨v, _, hzero, _⟩ |
      ⟨v, result, adapter, hslots, hpos, hring, hexec⟩
    · exact .inr (.inl ((EndpointView.submitSlots_error_iff hready hn hslots).1.1
        ⟨descs, hrung v (congrArg Prod.snd hexec)⟩))
    · exact .inl hzero
    · exact .inr (.inr ((EndpointView.ringDoorbell_iff hready hn hpos hslots hring).1.1
        ⟨descs, hrung _ (congrArg Prod.snd hexec)⟩))
  · intro h st hst
    obtain ⟨queue, hready⟩ := hd.ready hst
    have hn : write.toSubmit st ≤ st.cmdqCount := Nat.min_le_right ..
    have hfits := h st queue hst hready.lookup
    rcases submitAndRing_cases hst with ⟨e, v, hslots, hexec⟩ | ⟨v, hslots, hzero, hexec⟩ |
      ⟨v, result, adapter, hslots, hpos, hring, hexec⟩
    · obtain ⟨hiff, hpos, hnot⟩ := EndpointView.submitSlots_error_iff hready hn hslots
      obtain ⟨descs, hrung⟩ := hiff.2 ((hfits.resolve_left hpos).resolve_right hnot)
      refine accounted_of_rung hexec hrung fun submitted pending rung hok => ?_
      cases hok
    · rw [hzero] at hslots
      cases hslots
      refine accounted_of_rung hexec (.nil hready.rings) fun submitted pending rung hok => ?_
      cases hok
      exact ⟨hzero.symm, rfl⟩
    · obtain ⟨hiff, hcounts, descs', hconsumed', hlength'⟩ :=
        EndpointView.ringDoorbell_iff hready hn hpos hslots hring
      have hvalid : ¬st.memory.cmdValid[st.cmdqHead]? ≠ some true := by
        intro hinvalid
        have hhead : st.cmdqHead < st.memory.cmdDepth :=
          hready.rings.cmd.head_lt_depth ((Nat.pos_of_ne_zero hpos).trans_le
            (hn.trans hready.rings.cmd.count_le))
        rw [hconsumed'.eq_nil hhead hinvalid] at hlength'
        exact hpos hlength'.symm
      obtain ⟨descs, hrung⟩ := hiff.2 ((hfits.resolve_left hpos).resolve_left hvalid)
      refine accounted_of_rung hexec hrung fun submitted pending rung hok => ?_
      rw [← hrung.consumed.length_eq hconsumed'] at hlength'
      cases result with
      | error e => cases hok
      | ok counts =>
        cases hok
        have := hcounts _ _ rfl
        exact ⟨this, hlength'.trans this.symm⟩

/-- The default device with one endpoint, where a small `DbPut` has been written into the first slot
and the first `n` slots have been announced. -/
def announced (n : ℕ) : LinquDeviceModel :=
  (withProfile .sample .default).run
    [.realizeEndpoint 0, .writeCmdDescriptor ⟨1⟩ 0 (.service (.dbPut ⟨none, "", 1⟩)),
      .mmioWriteCmdqTail ⟨1⟩ n]

theorem announced_reachable (n : ℕ) : Reachable .sample .default (announced n) :=
  .call _ (.call _ (.call _ .start))

/-- Three puts that can be told from each other. -/
def threePuts : List GuestDescriptor :=
  ["a", "b", "c"].map fun key => .service (.dbPut ⟨none, key, 1⟩)

/-- An endpoint with three slots, the head at slot 1, and a put in every slot. -/
def threeAnnounced : LinquDeviceModel :=
  (withProfile .sample threeSlotProfile).run <| .realizeEndpoint 0 :: threeSlotPut ⟨1⟩ none 0 ++
    threePuts.mapIdx (fun i put => .writeCmdDescriptor ⟨1⟩ ((1 + i) % 3) put) ++
    [.mmioWriteCmdqTail ⟨1⟩ 0, .mmioWriteCmdqTail ⟨1⟩ 1]

theorem threeAnnounced_reachable : Reachable .sample threeSlotProfile threeAnnounced :=
  .run .start _

/-- A doorbell for three slots, the last of which is in front of the first. -/
theorem doorbell_accounted_announced :
    threeAnnounced.Accounted ⟨⟨1⟩, none⟩ ∧
      (exec (Device.mmioRingDoorbell ⟨⟨1⟩, none⟩) threeAnnounced).1.toOption = some (3, 0) := by
  refine ⟨(doorbell_accounted_iff threeAnnounced_reachable _).2 fun st queue hst hq => ?_, by
    decide +kernel⟩
  have hview : (threeAnnounced.endpoints.lookup ⟨1⟩).map (fun st => (st.session.cmdq, st.cmdqCount,
      st.cmdqHead, st.memory.cmdDepth)) = some (⟨1⟩, 3, 1, 3) := by
    decide +kernel
  have htake : (threeAnnounced.endpoints.lookup ⟨1⟩).map (fun st =>
      [1, 2, 0].map fun slot => (st.memory.takeCmdSlot slot).1.toOption) =
        some (threePuts.map some) := by
    decide +kernel
  have hqueue : (threeAnnounced.adapter.surface.cmdQueues.lookup ⟨1⟩).map (·.pending) = some [] := by
    decide +kernel
  have hroom : 3 ≤ threeAnnounced.adapter.surface.runtimeRoom := by decide +kernel
  rw [hst] at hview htake
  simp only [Option.map_some, Option.some.injEq, Prod.mk.injEq] at hview
  obtain ⟨hcmdq, hcount, hhead, hdepth⟩ := hview
  rw [hcmdq] at hq
  rw [hq] at hqueue
  have hslots := Option.some.inj htake
  simp only [threePuts, List.map_cons, List.map_nil, List.cons.injEq] at hslots
  obtain ⟨hfirst, hsecond, hthird, -⟩ := hslots
  have hall : DoorbellWrite.toSubmit ⟨⟨1⟩, none⟩ st = 3 := by
    rw [DoorbellWrite.toSubmit, hcount]
    rfl
  have hheld : Holds st.memory.HoldsCommand st.memory.cmdDepth st.cmdqHead threePuts := by
    rw [hhead, hdepth]
    exact .cons (by decide) (.of_takeCmdSlot hfirst) (.cons (by decide) (.of_takeCmdSlot hsecond)
      (.cons (by decide) (.of_takeCmdSlot hthird) .nil))
  rw [hall]
  generalize threeAnnounced = d at *
  exact .inr (.inr ⟨⟨threePuts, rfl, hheld⟩, Option.some.inj hqueue, hroom⟩)

/-- The second slot has been announced but not written.  The doorbell fails there; it has taken the
descriptor out of the first slot by then, and does not ring for it. -/
theorem slot_lost : Reachable .sample .default (announced 2) ∧
    ¬(announced 2).Accounted ⟨⟨1⟩, none⟩ := by
  refine ⟨announced_reachable 2, fun h => ?_⟩
  obtain ⟨st, hst⟩ : ∃ st, (announced 2).endpoints.lookup ⟨1⟩ = some st :=
    Option.isSome_iff_exists.1 (by decide +kernel)
  obtain ⟨descs, subs, st', hst', hconsumed, hsubs, hstaged, -⟩ := h st hst
  have hbefore : ((announced 2).endpoints.lookup ⟨1⟩).map (·.cmdqCount) = some 2 := by
    decide +kernel
  have hafter : ((exec (Device.mmioRingDoorbell ⟨⟨1⟩, none⟩) (announced 2)).2.endpoints.lookup
      ⟨1⟩).map (·.cmdqCount) = some 1 := by
    decide +kernel
  have hwaiting : (exec (Device.submitAndRing ⟨⟨1⟩, none⟩)
      (announced 2)).2.adapter.surface.waitingSubs = [] := by
    decide +kernel
  rw [hst] at hbefore
  rw [hst'] at hafter
  have htwo : st.cmdqCount = 2 := Option.some.inj hbefore
  have hone : st'.cmdqCount = 1 := Option.some.inj hafter
  have hcount := hconsumed.count
  have hlength := congrArg List.length hsubs
  rw [List.length_map, List.length_map] at hlength
  have hnone : subs = [] := (List.append_eq_nil_iff.1 (hstaged.waiting.symm.trans hwaiting)).2
  rw [hnone, List.length_nil] at hlength
  omega

end LinquDeviceModel

end LinquUb
