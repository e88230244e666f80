import LinquUb.Qemu.Delivery

/-!
# The register map

`MmioRegisterMap` gives every register of every endpoint an address, and `decode_mmio_offset` finds
the register at an address.  The index of an endpoint is cut to 16 bits before it is looked up.

* `MmioRegisterMap.addr` : the address of a register;
* `decodeMmioOffset_eq_ok_iff` : which offsets are decoded, in numbers;
* `decodes_exactly_iff` : **decoding inverts the map at an offset if and only if the offset is in
  the range of the 65535 windows, and is not also the address of a register of an endpoint 0**.
-/

namespace LinquUb

open Action

namespace MmioRegisterMap

variable (self : MmioRegisterMap)

/-- The window of an endpoint; `saturating_sub` puts endpoint 0 where endpoint 1 is. -/
def endpointOffset (endpoint : EndpointId) : UInt64 :=
  self.endpointBase +
    (if endpoint.id = 0 then 0 else endpoint.id - 1).toUInt64 * self.endpointStride

def cmdqHeadAddr (endpoint : EndpointId) : UInt64 := self.endpointOffset endpoint + self.cmdqHeadOffset

def cmdqTailAddr (endpoint : EndpointId) : UInt64 := self.endpointOffset endpoint + self.cmdqTailOffset

def cqHeadAddr (endpoint : EndpointId) : UInt64 := self.endpointOffset endpoint + self.cqHeadOffset

def cqTailAddr (endpoint : EndpointId) : UInt64 := self.endpointOffset endpoint + self.cqTailOffset

def statusAddr (endpoint : EndpointId) : UInt64 := self.endpointOffset endpoint + self.statusOffset

def doorbellAddr (endpoint : EndpointId) : UInt64 := self.endpointOffset endpoint + self.doorbellOffset

def lastErrorAddr (endpoint : EndpointId) : UInt64 :=
  self.endpointOffset endpoint + self.lastErrorOffset

def irqStatusAddr (endpoint : EndpointId) : UInt64 :=
  self.endpointOffset endpoint + self.irqStatusOffset

def irqAckAddr (endpoint : EndpointId) : UInt64 := self.endpointOffset endpoint + self.irqAckOffset

/-- The address of a register. -/
def addr (endpoint : EndpointId) : RegisterKind → UInt64
  | .cmdqHead => self.cmdqHeadAddr endpoint
  | .cmdqTail => self.cmdqTailAddr endpoint
  | .cqHead => self.cqHeadAddr endpoint
  | .cqTail => self.cqTailAddr endpoint
  | .status => self.statusAddr endpoint
  | .doorbell => self.doorbellAddr endpoint
  | .lastError => self.lastErrorAddr endpoint
  | .irqStatus => self.irqStatusAddr endpoint
  | .irqAck => self.irqAckAddr endpoint

/-- The index of the endpoint at an offset, before it is cut to 16 bits. -/
def endpointIndex (offset : UInt64) : UInt64 := (offset - self.endpointBase) / self.endpointStride

end MmioRegisterMap

/-- The registers are 8 bytes apart. -/
def RegisterKind.index : RegisterKind → ℕ
  | .cmdqHead => 0
  | .cmdqTail => 1
  | .cqHead => 2
  | .cqTail => 3
  | .status => 4
  | .doorbell => 5
  | .lastError => 6
  | .irqStatus => 7
  | .irqAck => 8

theorem RegisterKind.index_injective : Function.Injective index := by
  intro r r' h
  cases r <;> cases r' <;> first | rfl | cases h

theorem RegisterKind.offset_toNat (reg : RegisterKind) :
    (UInt64.ofNat (8 * reg.index)).toNat = 8 * reg.index := by
  cases reg <;> rfl

theorem RegisterKind.index_le (reg : RegisterKind) : reg.index ≤ 8 := by
  cases reg <;> decide

namespace MmioRegisterMap

theorem endpointOffset_toNat (endpoint : EndpointId) :
    (default.endpointOffset endpoint).toNat = 0x1000 + (endpoint.id.toNat - 1) * 0x100 := by
  have hid : (if endpoint.id = 0 then 0 else endpoint.id - 1).toNat = endpoint.id.toNat - 1 := by
    split_ifs with hzero
    · rw [hzero]
      rfl
    · have hpos : endpoint.id.toNat ≠ 0 := fun h => hzero (UInt16.toNat_inj.1 h)
      have hone : 1 ≤ endpoint.id := UInt16.le_iff_toNat_le.2 (Nat.one_le_iff_ne_zero.2 hpos)
      rw [UInt16.toNat_sub_of_le _ _ hone]
      rfl
  have hlt := endpoint.id.toNat_lt
  have hbase : default.endpointBase.toNat = 0x1000 := rfl
  have hstride : default.endpointStride.toNat = 0x100 := rfl
  rw [endpointOffset, UInt64.toNat_add, UInt64.toNat_mul, UInt16.toNat_toUInt64, hid, hbase, hstride]
  omega

theorem addr_toNat (endpoint : EndpointId) (reg : RegisterKind) :
    (default.addr endpoint reg).toNat =
      0x1000 + (endpoint.id.toNat - 1) * 0x100 + 8 * reg.index := by
  have hlt := endpoint.id.toNat_lt
  have hadd : ∀ offset : UInt64, offset.toNat ≤ 64 →
      (default.endpointOffset endpoint + offset).toNat =
        0x1000 + (endpoint.id.toNat - 1) * 0x100 + offset.toNat := by
    intro offset hoffset
    rw [UInt64.toNat_add, endpointOffset_toNat]
    omega
  cases reg <;> exact hadd _ (by decide)

theorem endpointIndex_toNat {offset : UInt64} (h : 0x1000 ≤ offset.toNat) :
    (default.endpointIndex offset).toNat = (offset.toNat - 0x1000) / 0x100 := by
  have hbase : default.endpointBase ≤ offset := UInt64.le_iff_toNat_le.2 h
  rw [endpointIndex, UInt64.toNat_div, UInt64.toNat_sub_of_le _ _ hbase]
  rfl

end MmioRegisterMap

/-! ### What is decoded -/

namespace LinquDeviceModel

variable {d : LinquDeviceModel} {offset : UInt64} {endpoint : EndpointId} {reg : RegisterKind}

theorem endpointId_eq {e : EndpointId} (h : e.id.toNat = endpoint.id.toNat) : e = endpoint := by
  cases e
  cases endpoint
  exact congrArg EndpointId.mk (UInt16.toNat_inj.1 h)

/-- Both branches of a conditional are decided alike. -/
theorem ite_eq_iff_of {α : Type} {c p : Prop} [Decidable c] {x y z : α} (hthen : c → (x = z ↔ p))
    (helse : ¬c → (y = z ↔ p)) : (if c then x else y) = z ↔ p := by
  split_ifs with hc
  · exact hthen hc
  · exact helse hc

/-- A register has been found. -/
theorem found_iff {e : EndpointId} {r : RegisterKind} {index within : ℕ}
    (he : (d.endpoints.lookup e).isSome) (hid : e.id.toNat = index) (hr : within = 8 * r.index) :
    (.ok (e, r) : Except SimError (EndpointId × RegisterKind)) = .ok (endpoint, reg) ↔
      (d.endpoints.lookup endpoint).isSome ∧ endpoint.id.toNat = index ∧ within = 8 * reg.index := by
  constructor
  · intro h
    cases h
    exact ⟨he, hid, hr⟩
  · rintro ⟨-, hid', hr'⟩
    have hreg : r = reg := RegisterKind.index_injective (by omega)
    rw [hreg, endpointId_eq (hid.trans hid'.symm)]

/-- Which offsets are decoded, in numbers. -/
theorem decodeMmioOffset_eq_ok_iff (hmmio : d.mmio = .default) :
    d.decodeMmioOffset offset = .ok (endpoint, reg) ↔
      0x1000 ≤ offset.toNat ∧ (d.endpoints.lookup endpoint).isSome ∧
        endpoint.id.toNat = ((offset.toNat - 0x1000) / 0x100 + 1) % 2 ^ 16 ∧
        (offset.toNat - 0x1000) % 0x100 = 8 * reg.index := by
  unfold decodeMmioOffset
  rw [hmmio]
  by_cases hbelow : offset < MmioRegisterMap.default.endpointBase
  · have hlt : offset.toNat < 0x1000 := UInt64.lt_iff_toNat_lt.1 hbelow
    rw [if_pos hbelow]
    exact iff_of_false (fun h => (by cases h)) fun h => absurd h.1 (Nat.not_le.2 hlt)
  have hbase : 0x1000 ≤ offset.toNat := UInt64.le_iff_toNat_le.1 (UInt64.not_lt.1 hbelow)
  rw [if_neg hbelow, and_iff_right hbase]
  have hindex := MmioRegisterMap.endpointIndex_toNat hbase
  have hid : ((MmioRegisterMap.default.endpointIndex offset).toUInt16 + 1).toNat =
      ((offset.toNat - 0x1000) / 0x100 + 1) % 2 ^ 16 := by
    have hone : (1 : UInt16).toNat = 1 := rfl
    rw [UInt16.toNat_add, UInt64.toNat_toUInt16, hindex, hone]
    omega
  have hwithin : ((offset - MmioRegisterMap.default.endpointBase) %
      MmioRegisterMap.default.endpointStride).toNat = (offset.toNat - 0x1000) % 0x100 := by
    rw [UInt64.toNat_mod, UInt64.toNat_sub_of_le _ _ (UInt64.not_lt.1 hbelow)]
    rfl
  rw [MmioRegisterMap.endpointIndex] at hid
  simp only []
  generalize (offset - MmioRegisterMap.default.endpointBase) %
    MmioRegisterMap.default.endpointStride = regOffset at hwithin
  generalize ((offset - MmioRegisterMap.default.endpointBase) /
    MmioRegisterMap.default.endpointStride).toUInt16 + 1 = id at hid
  have hfound : ∀ r : RegisterKind, regOffset = UInt64.ofNat (8 * r.index) →
      (offset.toNat - 0x1000) % 0x100 = 8 * r.index := by
    intro r hr
    rw [← hwithin, hr, r.offset_toNat]
  have hmissing : regOffset ≠ UInt64.ofNat (8 * reg.index) →
      (offset.toNat - 0x1000) % 0x100 ≠ 8 * reg.index := by
    rw [← hwithin]
    rintro hne heq
    exact hne (by rw [← heq, UInt64.ofNat_toNat])
  refine ite_eq_iff_of (fun hnone => ?_) fun hnone => ?_
  · refine iff_of_false (fun h => (by cases h)) ?_
    rintro ⟨hsome, hid', -⟩
    have hendpoint : ⟨id⟩ = endpoint := endpointId_eq (hid.trans hid'.symm)
    rw [← hendpoint, Option.isNone_iff_eq_none.1 hnone] at hsome
    cases hsome
  have hsome := Option.ne_none_iff_isSome.1 (mt Option.isNone_iff_eq_none.2 hnone)
  have hcase : ∀ r : RegisterKind, regOffset = UInt64.ofNat (8 * r.index) →
      ((.ok (⟨id⟩, r) : Except SimError (EndpointId × RegisterKind)) = .ok (endpoint, reg) ↔
        (d.endpoints.lookup endpoint).isSome ∧
          endpoint.id.toNat = ((offset.toNat - 0x1000) / 0x100 + 1) % 2 ^ 16 ∧
          (offset.toNat - 0x1000) % 0x100 = 8 * reg.index) :=
    fun r hr => found_iff hsome hid (hfound r hr)
  refine ite_eq_iff_of (hcase .cmdqHead) fun h0 => ?_
  refine ite_eq_iff_of (hcase .cmdqTail) fun h1 => ?_
  refine ite_eq_iff_of (hcase .cqHead) fun h2 => ?_
  refine ite_eq_iff_of (hcase .cqTail) fun h3 => ?_
  refine ite_eq_iff_of (hcase .status) fun h4 => ?_
  refine ite_eq_iff_of (hcase .doorbell) fun h5 => ?_
  refine ite_eq_iff_of (hcase .lastError) fun h6 => ?_
  refine ite_eq_iff_of (hcase .irqStatus) fun h7 => ?_
  refine ite_eq_iff_of (hcase .irqAck) fun h8 => ?_
  refine iff_of_false (fun h => (by cases h)) fun h => hmissing ?_ h.2.2
  cases reg <;> assumption

/-! ### Inverting the map -/

/-- At this offset decoding inverts the map, and no bit is lost. -/
structure DecodesExactly (d : LinquDeviceModel) (offset : UInt64) : Prop where
  inverts : ∀ endpoint reg, d.decodeMmioOffset offset = .ok (endpoint, reg) ↔
    (d.endpoints.lookup endpoint).isSome ∧ offset = d.mmio.addr endpoint reg
  lossless : d.mmio.endpointBase ≤ offset →
    (d.mmio.endpointIndex offset).toUInt16.toUInt64 = d.mmio.endpointIndex offset ∧
      (d.mmio.endpointIndex offset).toUInt16.toNat + 1 < 2 ^ 16

theorem eq_addr_iff : offset = MmioRegisterMap.default.addr endpoint reg ↔
    0x1000 ≤ offset.toNat ∧ (offset.toNat - 0x1000) / 0x100 = endpoint.id.toNat - 1 ∧
      (offset.toNat - 0x1000) % 0x100 = 8 * reg.index := by
  have hle := reg.index_le
  rw [← UInt64.toNat_inj, MmioRegisterMap.addr_toNat]
  omega

/-- No bit of the index is lost below the end of the last window. -/
theorem lossless_iff (hbase : 0x1000 ≤ offset.toNat) :
    (MmioRegisterMap.default.endpointIndex offset).toUInt16.toUInt64 =
        MmioRegisterMap.default.endpointIndex offset ∧
      (MmioRegisterMap.default.endpointIndex offset).toUInt16.toNat + 1 < 2 ^ 16 ↔
    offset.toNat < 0x1000 + 0x100 * 65535 := by
  rw [← UInt64.toNat_inj, UInt16.toNat_toUInt64, UInt64.toNat_toUInt16,
    MmioRegisterMap.endpointIndex_toNat hbase]
  omega

theorem decodesExactly_iff (hmmio : d.mmio = .default) :
    d.DecodesExactly offset ↔ offset.toNat < 0x1000 + 0x100 * 65535 ∧
      ((d.endpoints.lookup ⟨0⟩).isSome → ∀ reg, offset ≠ d.mmio.addr ⟨1⟩ reg) := by
  constructor
  · rintro ⟨hinverts, hlossless⟩
    rw [hmmio] at hinverts hlossless ⊢
    refine ⟨?_, ?_⟩
    · by_cases hbase : 0x1000 ≤ offset.toNat
      · exact (lossless_iff hbase).1 (hlossless (UInt64.le_iff_toNat_le.2 hbase))
      · omega
    · -- endpoint 0 has the addresses of endpoint 1, and is never decoded in its window
      intro hzero reg haddr
      obtain ⟨hbase, hindex, hreg⟩ := eq_addr_iff.1 haddr
      have haddr' : offset = MmioRegisterMap.default.addr ⟨0⟩ reg :=
        eq_addr_iff.2 ⟨hbase, hindex, hreg⟩
      obtain ⟨-, -, hid, -⟩ := (decodeMmioOffset_eq_ok_iff hmmio).1 ((hinverts _ _).2 ⟨hzero, haddr'⟩)
      rw [hindex] at hid
      exact absurd hid (by decide)
  · rintro ⟨hlt, hzero⟩
    refine ⟨fun endpoint reg => ?_, fun hbase => ?_⟩
    · rw [decodeMmioOffset_eq_ok_iff hmmio, hmmio, eq_addr_iff]
      rw [hmmio] at hzero
      constructor
      · rintro ⟨hbase, hsome, hid, hreg⟩
        exact ⟨hsome, hbase, by omega, hreg⟩
      · rintro ⟨hsome, hbase, hindex, hreg⟩
        refine ⟨hbase, hsome, ?_, hreg⟩
        have hid : endpoint.id.toNat ≠ 0 := by
          intro hid
          have hone : offset = MmioRegisterMap.default.addr ⟨1⟩ reg :=
            eq_addr_iff.2 ⟨hbase, by rw [hindex, hid]; rfl, hreg⟩
          have hendpoint : endpoint = ⟨0⟩ := endpointId_eq hid
          exact hzero (hendpoint ▸ hsome) reg hone
        omega
    · rw [hmmio] at hbase ⊢
      exact (lossless_iff (UInt64.le_iff_toNat_le.1 hbase)).2 hlt

/-! ### Every device -/

/-- No method changes the register map. -/
theorem sameMap_rules : CallRules (fun _ _ => True) fun d d' => d'.mmio = d.mmio :=
  .ofDevice (fun _ => rfl) (fun _ _ _ h h' => h'.trans h) (fun _ _ => rfl) (fun _ _ => rfl)
    fun _ _ _ => rfl

theorem Reachable.mmio {machine : Machine} {profile : MachineProfile}
    (hd : Reachable machine profile d) : d.mmio = .default := by
  induction hd with
  | start => rfl
  | call call _ ih => exact Eq.trans (sameMap_rules.call call _) ih
  | rung write _ ih => exact Eq.trans (sameMap_rules.submitAndRing write _) ih

/-- **When decoding inverts the register map**, in every device, at every offset. -/
theorem decodes_exactly_iff {machine : Machine} {profile : MachineProfile}
    (hd : Reachable machine profile d) (offset : UInt64) :
    d.DecodesExactly offset ↔ offset.toNat < 0x1000 + 0x100 * 65535 ∧
      ((d.endpoints.lookup ⟨0⟩).isSome → ∀ reg, offset ≠ d.mmio.addr ⟨1⟩ reg) :=
  decodesExactly_iff hd.mmio

/-- The default device with one endpoint. -/
def withOneEndpoint : LinquDeviceModel :=
  (exec (Device.call (.realizeEndpoint 0)) (withProfile .sample .default)).2

theorem withOneEndpoint_reachable : Reachable .sample .default withOneEndpoint := .call _ .start

theorem decodes_exactly_status : withOneEndpoint.DecodesExactly 0x1020 :=
  (decodes_exactly_iff withOneEndpoint_reachable 0x1020).2 ⟨by decide, fun hzero => by
    have hnone : (withOneEndpoint.endpoints.lookup ⟨0⟩).isSome = false := by decide +kernel
    rw [hnone] at hzero
    cases hzero⟩

/-- 65536 windows behind the address of a register, the same register is decoded. -/
theorem far_offset_aliases :
    Reachable .sample .default withOneEndpoint ∧
      withOneEndpoint.decodeMmioOffset (0x1000 + 0x100 * 65536) = .ok (⟨1⟩, .cmdqHead) ∧
      (0x1000 + 0x100 * 65536 : UInt64) ≠ withOneEndpoint.mmio.addr ⟨1⟩ .cmdqHead ∧
      (withOneEndpoint.mmio.endpointIndex (0x1000 + 0x100 * 65536)).toUInt16 = 0 :=
  ⟨withOneEndpoint_reachable, by decide +kernel, by decide +kernel, by decide +kernel⟩

end LinquDeviceModel

end LinquUb
