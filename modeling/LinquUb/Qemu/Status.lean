import LinquUb.Qemu.Doorbell

/-!
# The status register

`encode_status` packs the state of both rings into one word: the pending counts with all their bits,
and of the heads and tails the lower 8 bits.

* `encodeStatus_toNat` : the fields of the word;
* `readStatus_ok` : the register is read of the rings as the read leaves them;
* `status_eq_iff` : **what two equal words say about two reachable states**;
* `run_commandCalls` : **every head is reached**, and so heads that differ by 256 are.
-/

namespace LinquUb

open Action

namespace LinquDeviceModel

/-! ### The word -/

theorem or_shiftLeft {low high k : ℕ} (h : low < 2 ^ k) : low ||| high <<< k = low + high * 2 ^ k := by
  rw [Nat.or_comm, ← Nat.shiftLeft_add_eq_or_of_lt h, Nat.shiftLeft_eq, Nat.add_comm]

/-- A field of `w` bits. -/
theorem field_toNat (value : ℕ) {mask shift : UInt64} {w k : ℕ} (hmask : mask.toNat = 2 ^ w - 1)
    (hshift : shift.toNat = k) (hfits : k + w ≤ 64) (hk : k < 64) :
    ((UInt64.ofNat value &&& mask) <<< shift).toNat = (value % 2 ^ w) <<< k := by
  have hdvd : 2 ^ w ∣ 2 ^ 64 := Nat.pow_dvd_pow 2 (by omega)
  have hlt : (value % 2 ^ w) <<< k < 2 ^ 64 := by
    rw [Nat.shiftLeft_eq]
    calc value % 2 ^ w * 2 ^ k < 2 ^ w * 2 ^ k :=
          Nat.mul_lt_mul_of_pos_right (Nat.mod_lt _ (Nat.two_pow_pos w)) (Nat.two_pow_pos k)
      _ = 2 ^ (k + w) := by rw [Nat.pow_add, Nat.mul_comm]
      _ ≤ 2 ^ 64 := Nat.pow_le_pow_right Nat.two_pos hfits
  rw [UInt64.toNat_shiftLeft, UInt64.toNat_and, hmask, hshift, Nat.and_two_pow_sub_one_eq_mod,
    UInt64.toNat_ofNat', Nat.mod_mod_of_dvd _ hdvd, Nat.mod_eq_of_lt hk, Nat.mod_eq_of_lt hlt]

/-- The fields of the word. -/
theorem encodeStatus_toNat (status : DeviceQueueStatus) :
    (encodeStatus status).toNat =
      status.cmdqPending % 2 ^ 16 + status.cqPending % 2 ^ 16 * 2 ^ 16 +
        status.cmdqHead % 2 ^ 8 * 2 ^ 32 + status.cmdqTail % 2 ^ 8 * 2 ^ 40 +
        status.cqHead % 2 ^ 8 * 2 ^ 48 + status.cqTail % 2 ^ 8 * 2 ^ 56 := by
  unfold encodeStatus
  rw [UInt64.toNat_or, UInt64.toNat_or, UInt64.toNat_or, UInt64.toNat_or, UInt64.toNat_or,
    field_toNat _ (w := 16) (k := 0) rfl rfl (by omega) (by omega),
    field_toNat _ (w := 16) (k := 16) rfl rfl (by omega) (by omega),
    field_toNat _ (w := 8) (k := 32) rfl rfl (by omega) (by omega),
    field_toNat _ (w := 8) (k := 40) rfl rfl (by omega) (by omega),
    field_toNat _ (w := 8) (k := 48) rfl rfl (by omega) (by omega),
    field_toNat _ (w := 8) (k := 56) rfl rfl (by omega) (by omega), Nat.shiftLeft_zero]
  rw [or_shiftLeft (k := 16) (by omega), or_shiftLeft (k := 32) (by omega),
    or_shiftLeft (k := 40) (by omega), or_shiftLeft (k := 48) (by omega),
    or_shiftLeft (k := 56) (by omega)]

end LinquDeviceModel

/-- What `read_status` reports. -/
def DeviceEndpointState.queueStatus (st : DeviceEndpointState) : DeviceQueueStatus :=
  { cmdqHead := st.cmdqHead, cmdqTail := st.cmdqTail, cmdqPending := st.cmdqCount,
    cqHead := st.cqHead, cqTail := st.cqTail, cqPending := st.cqCount }

namespace LinquDeviceModel

/-- The words agree in what the register shows of the rings. -/
structure SameWord (status status' : DeviceQueueStatus) : Prop where
  cmdqPending : status.cmdqPending = status'.cmdqPending
  cqPending : status.cqPending = status'.cqPending
  cmdqHead : status.cmdqHead % 256 = status'.cmdqHead % 256
  cmdqTail : status.cmdqTail % 256 = status'.cmdqTail % 256
  cqHead : status.cqHead % 256 = status'.cqHead % 256
  cqTail : status.cqTail % 256 = status'.cqTail % 256

/-- Pending counts of two bytes are not cut. -/
theorem encodeStatus_eq_iff {status status' : DeviceQueueStatus}
    (hcmd : status.cmdqPending < 2 ^ 16) (hcq : status.cqPending < 2 ^ 16)
    (hcmd' : status'.cmdqPending < 2 ^ 16) (hcq' : status'.cqPending < 2 ^ 16) :
    encodeStatus status = encodeStatus status' ↔ SameWord status status' := by
  rw [← UInt64.toNat_inj, encodeStatus_toNat, encodeStatus_toNat]
  constructor
  · intro h
    refine ⟨?_, ?_, ?_, ?_, ?_, ?_⟩ <;> omega
  · rintro ⟨h1, h2, h3, h4, h5, h6⟩
    omega

end LinquDeviceModel

namespace DeviceEndpointState

variable {st : DeviceEndpointState}

theorem Rings.pending_lt (h : st.Rings) : st.cmdqCount < 2 ^ 16 ∧ st.cqCount < 2 ^ 16 :=
  ⟨(h.cmd.count_le.trans_eq h.cmdDepth).trans_lt st.session.layout.cmdqDepth.toNat_lt,
    (h.cq.count_le.trans_eq h.cqDepth).trans_lt st.session.layout.cqDepth.toNat_lt⟩

/-- The heads and tails of rings with 256 slots have 8 bits. -/
theorem Rings.queueStatus_lt (h : st.Rings) (hcmd : st.session.layout.cmdqDepth.toNat ≤ 256)
    (hcq : st.session.layout.cqDepth.toNat ≤ 256) :
    st.cmdqHead < 256 ∧ st.cmdqTail < 256 ∧ st.cqHead < 256 ∧ st.cqTail < 256 := by
  have hcmdMax : max st.memory.cmdDepth 1 ≤ 256 := max_le (h.cmdDepth.trans_le hcmd) (by decide)
  have hcqMax : max st.memory.cqDepth 1 ≤ 256 := max_le (h.cqDepth.trans_le hcq) (by decide)
  exact ⟨h.cmd.head_lt.trans_le hcmdMax, h.cmd.tail_lt_max.trans_le hcmdMax,
    h.cq.head_lt.trans_le hcqMax, h.cq.tail_lt_max.trans_le hcqMax⟩

end DeviceEndpointState

namespace LinquDeviceModel

/-- A status read reports the rings as it leaves them. -/
theorem readStatus_ok {d d' : LinquDeviceModel} {endpoint : EndpointId} {status : DeviceQueueStatus}
    (h : exec (Device.readStatus endpoint) d = (.ok status, d')) :
    ∃ st, d'.endpoints.lookup endpoint = some st ∧ status = st.queueStatus := by
  unfold Device.readStatus at h
  rcases hflush : exec (Device.flushCqRing endpoint) d with ⟨e | _, d₁⟩
  · rw [exec_bind_error hflush] at h
    cases h
  · rw [exec_bind_ok hflush] at h
    cases hlookup : d₁.endpoints.lookup endpoint with
    | none =>
      rw [Device.withEndpoint_none hlookup] at h
      cases h
    | some st =>
      rw [Device.withEndpoint_eq hlookup] at h
      cases h
      exact ⟨st, Finmap.lookup_insert _, rfl⟩

/-- **What two equal words say about two reachable states** of endpoints with the same layout.
Nothing is lost if both rings have 256 slots at most. -/
theorem status_eq_iff {machine machine' : Machine} {profile profile' : MachineProfile}
    {d d' : LinquDeviceModel} (hd : Reachable machine profile d)
    (hd' : Reachable machine' profile' d') {endpoint endpoint' : EndpointId}
    {st st' : DeviceEndpointState} (hst : d.endpoints.lookup endpoint = some st)
    (hst' : d'.endpoints.lookup endpoint' = some st')
    (hlayout : st'.session.layout = st.session.layout) :
    (encodeStatus st.queueStatus = encodeStatus st'.queueStatus ↔
      SameWord st.queueStatus st'.queueStatus) ∧
    (st.session.layout.cmdqDepth.toNat ≤ 256 → st.session.layout.cqDepth.toNat ≤ 256 →
      encodeStatus st.queueStatus = encodeStatus st'.queueStatus →
        st.queueStatus = st'.queueStatus) := by
  have hrings := hd.ringsHold endpoint st hst
  have hrings' := hd'.ringsHold endpoint' st' hst'
  have hiff : encodeStatus st.queueStatus = encodeStatus st'.queueStatus ↔
      SameWord st.queueStatus st'.queueStatus :=
    encodeStatus_eq_iff hrings.pending_lt.1 hrings.pending_lt.2 hrings'.pending_lt.1
      hrings'.pending_lt.2
  refine ⟨hiff, fun hcmd hcq hword => ?_⟩
  have hlt := hrings.queueStatus_lt hcmd hcq
  have hlt' := hrings'.queueStatus_lt (hlayout ▸ hcmd) (hlayout ▸ hcq)
  obtain ⟨hcmdqPending, hcqPending, hcmdqHead, hcmdqTail, hcqHead, hcqTail⟩ := hiff.1 hword
  simp only [DeviceEndpointState.queueStatus] at *
  rw [Nat.mod_eq_of_lt hlt.1, Nat.mod_eq_of_lt hlt'.1] at hcmdqHead
  rw [Nat.mod_eq_of_lt hlt.2.1, Nat.mod_eq_of_lt hlt'.2.1] at hcmdqTail
  rw [Nat.mod_eq_of_lt hlt.2.2.1, Nat.mod_eq_of_lt hlt'.2.2.1] at hcqHead
  rw [Nat.mod_eq_of_lt hlt.2.2.2, Nat.mod_eq_of_lt hlt'.2.2.2] at hcqTail
  rw [hcmdqPending, hcqPending, hcmdqHead, hcmdqTail, hcqHead, hcqTail]

/-- An endpoint before and after its first command has been announced. -/
theorem status_eq_iff_announced : ∃ st st', (announced 0).endpoints.lookup ⟨1⟩ = some st ∧
    (announced 1).endpoints.lookup ⟨1⟩ = some st' ∧
    (encodeStatus st.queueStatus = encodeStatus st'.queueStatus ↔
      SameWord st.queueStatus st'.queueStatus) := by
  obtain ⟨st, hst⟩ : ∃ st, (announced 0).endpoints.lookup ⟨1⟩ = some st :=
    Option.isSome_iff_exists.1 (by decide +kernel)
  obtain ⟨st', hst'⟩ : ∃ st, (announced 1).endpoints.lookup ⟨1⟩ = some st :=
    Option.isSome_iff_exists.1 (by decide +kernel)
  have hlayouts : ((announced 0).endpoints.lookup ⟨1⟩).map (·.session.layout) =
      ((announced 1).endpoints.lookup ⟨1⟩).map (·.session.layout) := by decide +kernel
  rw [hst, hst'] at hlayouts
  exact ⟨st, st', hst, hst', (status_eq_iff (announced_reachable 0) (announced_reachable 1) hst hst'
    (Option.some.inj hlayouts).symm).1⟩

end LinquDeviceModel

/-! ### Commands in a row -/

namespace GuestRingMemory

variable {memory : GuestRingMemory} {slot : ℕ} {desc : GuestDescriptor} {bytes : List UInt8}

theorem putCmd_holds (hslot : slot < memory.cmdDepth)
    (hbytes : GuestDescriptor.decode bytes = .ok desc) :
    (memory.putCmd slot bytes).HoldsCommand slot desc :=
  ⟨List.getElem?_set_self (memory.cmd_length ▸ hslot), bytes, List.getElem?_set_self hslot, hbytes⟩

theorem putCmd_holds_of_ne {other : ℕ} (hne : other ≠ slot) (h : memory.HoldsCommand other desc) :
    (memory.putCmd slot bytes).HoldsCommand other desc := by
  obtain ⟨hvalid, content, hcontent, hdecode⟩ := h
  refine ⟨?_, content, ?_, hdecode⟩
  · rw [← hvalid]
    exact List.getElem?_set_ne hne.symm
  · rw [← hcontent]
    exact List.getElem?_set_ne hne.symm

/-- The first `n` slots of the command ring are filled. -/
def fillCmd (memory : GuestRingMemory) (bytes : List UInt8) : ℕ → GuestRingMemory
  | 0 => memory
  | n + 1 => (memory.fillCmd bytes n).putCmd n bytes

theorem fillCmd_same (memory : GuestRingMemory) (bytes : List UInt8) (n : ℕ) :
    (memory.fillCmd bytes n).cmdDepth = memory.cmdDepth ∧
      (memory.fillCmd bytes n).slotBytes = memory.slotBytes := by
  induction n with
  | zero => exact ⟨rfl, rfl⟩
  | succ n ih => exact ⟨(cmdDepth_putCmd n bytes).trans ih.1, ih.2⟩

theorem fillCmd_holds (hbytes : GuestDescriptor.decode bytes = .ok desc) {n : ℕ}
    (hn : n ≤ memory.cmdDepth) : ∀ i < n, (memory.fillCmd bytes n).HoldsCommand i desc := by
  induction n with
  | zero => exact fun i hi => absurd hi (Nat.not_lt_zero i)
  | succ n ih =>
    intro i hi
    rcases Nat.lt_succ_iff_lt_or_eq.1 hi with hlt | rfl
    · exact putCmd_holds_of_ne hlt.ne (ih (by omega) i hlt)
    · exact putCmd_holds (by rw [(fillCmd_same memory bytes i).1]; omega) hbytes

end GuestRingMemory

namespace DeviceEndpointState

theorem writeCmdDescriptor_eq {st : DeviceEndpointState} {slot : ℕ} {desc : GuestDescriptor}
    {bytes : List UInt8} (hslot : slot < st.memory.cmdDepth)
    (hbytes : desc.encode st.memory.slotBytes = .ok bytes) :
    exec (writeCmdDescriptor slot desc) st =
      (.ok (), { st with memory := st.memory.putCmd slot bytes }) := by
  have hwrite : st.memory.writeCmdSlot slot desc = .ok (st.memory.putCmd slot bytes) := by
    have hin : ¬slot ≥ st.memory.cmdSlots.length := Nat.not_le.2 hslot
    rw [GuestRingMemory.writeCmdSlot, if_neg hin, hbytes]
    rfl
  unfold writeCmdDescriptor
  rw [exec_bind_ok (exec_get st), hwrite]
  rfl

/-- The first `n` slots of an unused ring are announced. -/
theorem writeCmdqTail_eq {st : DeviceEndpointState} {n : ℕ} (hn : n < st.memory.cmdDepth)
    (htail : st.cmdqTail = 0) (hcount : st.cmdqCount = 0) :
    exec (writeCmdqTail n) st = (.ok (), { st with cmdqTail := n, cmdqCount := n }) := by
  have hadvance : LTS.advance st.memory.cmdDepth st.cmdqTail n = n := by
    rw [htail, LTS.advance, if_pos (Nat.zero_le n), Nat.sub_zero]
  unfold writeCmdqTail
  rw [exec_bind_ok (exec_get st)]
  simp only [hadvance, hcount, Nat.zero_add]
  rw [if_neg (Nat.not_le.2 hn), if_neg (Nat.not_lt.2 hn.le)]
  rfl

end DeviceEndpointState

namespace LinquDeviceModel

variable {machine : Machine} {profile : MachineProfile} {d : LinquDeviceModel}
  {endpoint : EndpointId} {st : DeviceEndpointState} {desc : GuestDescriptor} {bytes : List UInt8}

/-- Write a descriptor into the first `n` slots. -/
def writeCalls (endpoint : EndpointId) (desc : GuestDescriptor) (n : ℕ) : List DeviceCall :=
  (List.range n).map fun slot => .writeCmdDescriptor endpoint slot desc

theorem run_writeCalls (hst : d.endpoints.lookup endpoint = some st)
    (hbytes : desc.encode st.memory.slotBytes = .ok bytes) {n : ℕ} (hn : n ≤ st.memory.cmdDepth) :
    (d.run (writeCalls endpoint desc n)).adapter = d.adapter ∧
      (d.run (writeCalls endpoint desc n)).endpoints.lookup endpoint =
        some { st with memory := st.memory.fillCmd bytes n } := by
  induction n with
  | zero => exact ⟨rfl, hst⟩
  | succ n ih =>
    obtain ⟨hadapter, hlookup⟩ := ih (by omega)
    obtain ⟨hdepth, hslot⟩ := GuestRingMemory.fillCmd_same st.memory bytes n
    have hrun : d.run (writeCalls endpoint desc (n + 1)) =
        (exec (Device.writeCmdDescriptor endpoint n desc) (d.run (writeCalls endpoint desc n))).2 := by
      rw [writeCalls, List.range_succ, List.map_append, LinquDeviceModel.run, List.foldl_append]
      rfl
    have hwrite : exec (EndpointView.onState (DeviceEndpointState.writeCmdDescriptor n desc))
        ⟨d.adapter, { st with memory := st.memory.fillCmd bytes n }⟩ =
          (.ok (), ⟨d.adapter, { st with memory := st.memory.fillCmd bytes (n + 1) }⟩) := by
      rw [EndpointView.onState, exec_zoom, DeviceEndpointState.writeCmdDescriptor_eq]
      · rfl
      · show n < (st.memory.fillCmd bytes n).cmdDepth
        omega
      · show desc.encode (st.memory.fillCmd bytes n).slotBytes = .ok bytes
        rw [hslot, hbytes]
    rw [hrun, Device.writeCmdDescriptor, Device.withEndpoint_eq hlookup, hadapter, hwrite]
    exact ⟨rfl, Finmap.lookup_insert _⟩

theorem run_announce (hst : d.endpoints.lookup endpoint = some st) (htail : st.cmdqTail = 0)
    (hcount : st.cmdqCount = 0) (hbytes : desc.encode st.memory.slotBytes = .ok bytes) {n : ℕ}
    (hn : n < st.memory.cmdDepth) :
    (d.run (writeCalls endpoint desc n ++ [.mmioWriteCmdqTail endpoint n])).adapter = d.adapter ∧
      (d.run (writeCalls endpoint desc n ++ [.mmioWriteCmdqTail endpoint n])).endpoints.lookup
        endpoint = some { st with
          memory := st.memory.fillCmd bytes n, cmdqTail := n, cmdqCount := n } := by
  obtain ⟨hadapter, hlookup⟩ := run_writeCalls hst hbytes hn.le
  have hdepth := (GuestRingMemory.fillCmd_same st.memory bytes n).1
  have hwrite : exec (DeviceEndpointState.writeCmdqTail n)
      { st with memory := st.memory.fillCmd bytes n } = (.ok (), { st with
        memory := st.memory.fillCmd bytes n, cmdqTail := n, cmdqCount := n }) :=
    DeviceEndpointState.writeCmdqTail_eq (hdepth ▸ hn) htail hcount
  have hon : exec (EndpointView.onState (DeviceEndpointState.writeCmdqTail n))
      ⟨d.adapter, { st with memory := st.memory.fillCmd bytes n }⟩ = (.ok (), ⟨d.adapter, { st with
        memory := st.memory.fillCmd bytes n, cmdqTail := n, cmdqCount := n }⟩) := by
    rw [EndpointView.onState, exec_zoom]
    exact congrArg (fun r => (r.1, EndpointView.mk d.adapter r.2)) hwrite
  have hrun : d.run (writeCalls endpoint desc n ++ [.mmioWriteCmdqTail endpoint n]) =
      (exec (Device.mmioWriteCmdqTail endpoint n) (d.run (writeCalls endpoint desc n))).2 := by
    rw [LinquDeviceModel.run, List.foldl_append]
    rfl
  rw [hrun, Device.mmioWriteCmdqTail, Device.withEndpoint_eq hlookup, hadapter, hon]
  exact ⟨rfl, Finmap.lookup_insert _⟩

/-- Write a descriptor into the first `n` slots, announce them and ring the doorbell. -/
def commandCalls (endpoint : EndpointId) (desc : GuestDescriptor) (n : ℕ) : List DeviceCall :=
  writeCalls endpoint desc n ++ [.mmioWriteCmdqTail endpoint n] ++
    [.mmioRingDoorbell ⟨endpoint, none⟩]

/-- Every head is reached from an endpoint that has not been used. -/
theorem run_commandCalls (hd : Reachable machine profile d)
    (hst : d.endpoints.lookup endpoint = some st)
    (hunused : st.cmdqHead = 0 ∧ st.cmdqTail = 0 ∧ st.cmdqCount = 0)
    (hempty : ∀ queue, d.adapter.surface.cmdQueues.lookup st.session.cmdq = some queue →
      queue.pending = [])
    (hbytes : desc.encode st.memory.slotBytes = .ok bytes)
    (hdecode : GuestDescriptor.decode bytes = .ok desc) {n : ℕ} (hn : n < st.memory.cmdDepth) :
    ∃ st', (d.run (commandCalls endpoint desc n)).endpoints.lookup endpoint = some st' ∧
      st'.session = st.session ∧ st'.cmdqHead = n ∧ st'.cmdqCount = 0 := by
  obtain ⟨hhead, htail, hcount⟩ := hunused
  obtain ⟨hadapter, hst₂⟩ := run_announce hst htail hcount hbytes hn
  have hd₂ := hd.run (writeCalls endpoint desc n ++ [.mmioWriteCmdqTail endpoint n])
  have hrun : d.run (commandCalls endpoint desc n) =
      (exec (Device.call (.mmioRingDoorbell ⟨endpoint, none⟩))
        (d.run (writeCalls endpoint desc n ++ [.mmioWriteCmdqTail endpoint n]))).2 :=
    List.foldl_append
  rw [hrun]
  generalize d.run (writeCalls endpoint desc n ++ [.mmioWriteCmdqTail endpoint n]) = d₂ at *
  obtain ⟨queue, hready⟩ := hd₂.ready hst₂
  have hdepth := (GuestRingMemory.fillCmd_same st.memory bytes n).1
  have hheld : ∃ descs : List GuestDescriptor, descs.length = n ∧
      LTS.Holds (st.memory.fillCmd bytes n).HoldsCommand (st.memory.fillCmd bytes n).cmdDepth
        st.cmdqHead descs := by
    refine ⟨List.replicate n desc, List.length_replicate, fun i x hx => ?_⟩
    obtain ⟨hi, rfl⟩ := List.getElem?_eq_some_iff.1 hx
    rw [List.length_replicate] at hi
    rw [List.getElem_replicate, hhead, Nat.zero_add, Nat.mod_eq_of_lt (by omega)]
    exact GuestRingMemory.fillCmd_holds hdecode hn.le i hi
  obtain ⟨v, descs, hslots, hlength, hsubmits⟩ := EndpointView.submitSlots_held hready
    (Nat.le_refl n) hheld (hempty queue (hadapter ▸ hready.lookup))
  let write : DoorbellWrite := ⟨endpoint, none⟩
  have hall : write.toSubmit { st with
      memory := st.memory.fillCmd bytes n, cmdqTail := n, cmdqCount := n } = n := Nat.min_self n
  have hrung : (exec (Device.submitAndRing write) d₂).2.endpoints.lookup write.endpoint =
      some v.state := by
    have hst₂' : d₂.endpoints.lookup write.endpoint = some _ := hst₂
    rcases submitAndRing_cases hst₂' with ⟨e, v', herror, -⟩ |
      ⟨v', hok, -, hexec⟩ | ⟨v', result, adapter, hok, -, -, hexec⟩
    · rw [hall, hslots] at herror
      cases herror
    · rw [hall, hslots] at hok
      cases hok
      exact hexec ▸ afterView_lookup ..
    · rw [hall, hslots] at hok
      cases hok
      exact hexec ▸ afterView_lookup ..
  obtain ⟨st', hst', hsame⟩ := mmioRingDoorbell_same hrung
  refine ⟨st', ?_, hsame.session.trans hsubmits.session, ?_, ?_⟩
  · have hsnd := exec_map_snd (Device.mmioRingDoorbell ⟨endpoint, none⟩) (fun _ => ()) d₂
    rw [← hst', ← hsnd]
    rfl
  · rw [hsame.head, hsubmits.consumed.head, hlength]
    show (st.cmdqHead + n) % (st.memory.fillCmd bytes n).cmdDepth = n
    rw [hhead, Nat.zero_add, Nat.mod_eq_of_lt (by omega)]
  · rw [hsame.count, hsubmits.consumed.count, hlength, Nat.sub_self]

/-- An endpoint with 257 command slots. -/
def deepProfile : MachineProfile :=
  { MachineProfile.default with
    endpoint := { GuestEndpointLayout.default with cmdqDepth := 257, cqDepth := 0 } }

def withDeepEndpoint : LinquDeviceModel :=
  (exec (Device.call (.realizeEndpoint 0)) (withProfile .sample deepProfile)).2

theorem withDeepEndpoint_reachable : Reachable .sample deepProfile withDeepEndpoint := .call _ .start

/-- The command that is submitted 256 times. -/
def smallGet : GuestDescriptor := .service (.dbGet ⟨none, ""⟩)

theorem heads_collide : ∃ d d' st st', Reachable .sample deepProfile d ∧
    Reachable .sample deepProfile d' ∧ d.endpoints.lookup ⟨1⟩ = some st ∧
    d'.endpoints.lookup ⟨1⟩ = some st' ∧ st.session.layout = st'.session.layout ∧
    st.cmdqHead = 0 ∧ st'.cmdqHead = 256 ∧
    encodeStatus st.queueStatus = encodeStatus st'.queueStatus := by
  let st : DeviceEndpointState := .new ⟨0, ⟨1⟩, ⟨1⟩, deepProfile.endpoint⟩
  have hst : withDeepEndpoint.endpoints.lookup ⟨1⟩ = some st := rfl
  have hempty : (withDeepEndpoint.adapter.surface.cmdQueues.lookup ⟨1⟩).map (·.pending) = some [] := by
    decide +kernel
  have hempty' : ∀ queue, withDeepEndpoint.adapter.surface.cmdQueues.lookup ⟨1⟩ = some queue →
      queue.pending = [] := by
    intro queue hq
    rw [hq] at hempty
    exact Option.some.inj hempty
  have hcodec : ((smallGet.encode 64).bind GuestDescriptor.decode).toOption = some smallGet := by
    decide +kernel
  obtain ⟨bytes, hbytes, hdecode⟩ : ∃ bytes, smallGet.encode 64 = .ok bytes ∧
      GuestDescriptor.decode bytes = .ok smallGet := by
    rcases hencode : smallGet.encode 64 with e | bytes
    · rw [hencode] at hcodec
      cases hcodec
    · rw [hencode] at hcodec
      refine ⟨bytes, rfl, ?_⟩
      rcases hdecode : GuestDescriptor.decode bytes with e | desc
      · rw [Except.bind, hdecode] at hcodec
        cases hcodec
      · rw [Except.bind, hdecode] at hcodec
        rw [Option.some.inj hcodec]
  have hdepth : st.memory.cmdDepth = 257 := GuestRingMemory.cmdDepth_new ..
  obtain ⟨st', hst', hsession, hhead, hcount⟩ := run_commandCalls withDeepEndpoint_reachable hst
    ⟨rfl, rfl, rfl⟩ hempty' hbytes hdecode (n := 256) (by omega)
  have hd' := withDeepEndpoint_reachable.run (commandCalls ⟨1⟩ smallGet 256)
  have hrings := hd'.ringsHold _ st' hst'
  refine ⟨_, _, st, st', withDeepEndpoint_reachable, hd', hst, hst', congrArg _ hsession.symm, rfl,
    hhead, ?_⟩
  have hcmdDepth : st'.memory.cmdDepth = 257 := hrings.cmdDepth.trans (by rw [hsession]; rfl)
  have hcqDepth : st'.memory.cqDepth = 0 := hrings.cqDepth.trans (by rw [hsession]; rfl)
  have htail := hrings.cmd.tail_eq
  have hcq := hrings.cq
  rw [hhead, hcount, hcmdDepth] at htail
  rw [hcqDepth] at hcq
  have hcqHead : st'.cqHead = 0 := by
    have := hcq.head_lt
    omega
  have hcqTail : st'.cqTail = 0 := by
    have := hcq.tail_lt_max
    omega
  have hcqCount : st'.cqCount = 0 := Nat.le_zero.1 hcq.count_le
  rw [DeviceEndpointState.queueStatus, DeviceEndpointState.queueStatus, hhead, ← htail, hcount,
    hcqHead, hcqTail, hcqCount]
  decide +kernel

end LinquDeviceModel

end LinquUb
