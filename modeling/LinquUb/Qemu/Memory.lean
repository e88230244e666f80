import LinquUb.Qemu.Codec

/-!
# The rings in guest memory

`GuestRingMemory` of `sim-qemu`: the slots of an endpoint's command ring and completion ring, each
with a flag that says whether the slot holds something.  The two vectors of a ring have one length,
which the structure carries as a proof.
-/

namespace LinquUb

structure GuestRingMemory where
  slotBytes : ℕ
  cmdSlots : List (List UInt8)
  cmdValid : List Bool
  cqSlots : List (List UInt8)
  cqValid : List Bool
  cmd_length : cmdValid.length = cmdSlots.length
  cq_length : cqValid.length = cqSlots.length

namespace GuestRingMemory

def new (cmdDepth cqDepth slotBytes : ℕ) : GuestRingMemory :=
  { slotBytes
    cmdSlots := List.replicate cmdDepth (List.replicate slotBytes 0)
    cmdValid := List.replicate cmdDepth false
    cqSlots := List.replicate cqDepth (List.replicate slotBytes 0)
    cqValid := List.replicate cqDepth false
    cmd_length := by rw [List.length_replicate, List.length_replicate]
    cq_length := by rw [List.length_replicate, List.length_replicate] }

variable (self : GuestRingMemory)

def cmdDepth : ℕ := self.cmdSlots.length

def cqDepth : ℕ := self.cqSlots.length

/-- Fill a slot of the command ring. -/
def putCmd (slot : ℕ) (bytes : List UInt8) : GuestRingMemory :=
  { self with
    cmdSlots := self.cmdSlots.set slot bytes
    cmdValid := self.cmdValid.set slot true
    cmd_length := by rw [List.length_set, List.length_set, self.cmd_length] }

/-- Mark a slot of the command ring as empty. -/
def clearCmd (slot : ℕ) : GuestRingMemory :=
  { self with
    cmdValid := self.cmdValid.set slot false
    cmd_length := by rw [List.length_set, self.cmd_length] }

/-- Fill a slot of the completion ring. -/
def putCq (slot : ℕ) (bytes : List UInt8) : GuestRingMemory :=
  { self with
    cqSlots := self.cqSlots.set slot bytes
    cqValid := self.cqValid.set slot true
    cq_length := by rw [List.length_set, List.length_set, self.cq_length] }

/-- Mark a slot of the completion ring as empty. -/
def clearCq (slot : ℕ) : GuestRingMemory :=
  { self with
    cqValid := self.cqValid.set slot false
    cq_length := by rw [List.length_set, self.cq_length] }

def writeCmdSlot (slot : ℕ) (desc : GuestDescriptor) : Except String GuestRingMemory :=
  if slot ≥ self.cmdSlots.length then
    .error "cmd slot out of range"
  else do
    return self.putCmd slot (← desc.encode self.slotBytes)

/-- The slot is given up before its content is decoded. -/
def takeCmdSlot (slot : ℕ) : Except String GuestDescriptor × GuestRingMemory :=
  if slot ≥ self.cmdSlots.length then
    (.error "cmd slot out of range", self)
  else if !self.cmdValid.getD slot false then
    (.error "missing descriptor in cmd ring", self)
  else
    (GuestDescriptor.decode (self.cmdSlots.getD slot []), self.clearCmd slot)

def writeCqSlot (slot : ℕ) (completion : CompletionEvent) : Except String GuestRingMemory :=
  if slot ≥ self.cqSlots.length then
    .error "cq slot out of range"
  else do
    return self.putCq slot (← encodeCompletion completion self.slotBytes)

def takeCqSlot (slot : ℕ) : Except String CompletionEvent × GuestRingMemory :=
  if slot ≥ self.cqSlots.length then
    (.error "cq slot out of range", self)
  else if !self.cqValid.getD slot false then
    (.error "missing completion in cq ring", self)
  else
    (decodeCompletion (self.cqSlots.getD slot []), self.clearCq slot)

/-! ### Depths -/

variable {self}

@[simp] theorem cmdDepth_new (cmdDepth cqDepth slotBytes : ℕ) :
    (new cmdDepth cqDepth slotBytes).cmdDepth = cmdDepth := List.length_replicate

@[simp] theorem cqDepth_new (cmdDepth cqDepth slotBytes : ℕ) :
    (new cmdDepth cqDepth slotBytes).cqDepth = cqDepth := List.length_replicate

@[simp] theorem cmdDepth_putCmd (slot : ℕ) (bytes : List UInt8) :
    (self.putCmd slot bytes).cmdDepth = self.cmdDepth := List.length_set

@[simp] theorem cqDepth_putCq (slot : ℕ) (bytes : List UInt8) :
    (self.putCq slot bytes).cqDepth = self.cqDepth := List.length_set

theorem writeCmdSlot_ok {slot : ℕ} {desc : GuestDescriptor} {memory : GuestRingMemory}
    (h : self.writeCmdSlot slot desc = .ok memory) : ∃ bytes, memory = self.putCmd slot bytes := by
  unfold writeCmdSlot at h
  split_ifs at h
  cases hencode : desc.encode self.slotBytes with
  | error e =>
    rw [hencode] at h
    cases h
  | ok bytes =>
    rw [hencode] at h
    exact ⟨bytes, (Except.ok.inj h).symm⟩

theorem writeCqSlot_ok {slot : ℕ} {completion : CompletionEvent} {memory : GuestRingMemory}
    (h : self.writeCqSlot slot completion = .ok memory) :
    ∃ bytes, memory = self.putCq slot bytes := by
  unfold writeCqSlot at h
  split_ifs at h
  cases hencode : encodeCompletion completion self.slotBytes with
  | error e =>
    rw [hencode] at h
    cases h
  | ok bytes =>
    rw [hencode] at h
    exact ⟨bytes, (Except.ok.inj h).symm⟩

/-! ### What a slot of the completion ring holds -/

/-- The slot is marked valid and its bytes decode to the completion. -/
def HoldsCompletion (self : GuestRingMemory) (slot : ℕ) (completion : CompletionEvent) : Prop :=
  self.cqValid[slot]? = some true ∧
    ∃ bytes, self.cqSlots[slot]? = some bytes ∧ decodeCompletion bytes = .ok completion

variable {slot : ℕ} {completion : CompletionEvent}

theorem putCq_holds {bytes : List UInt8} (hslot : slot < self.cqDepth)
    (hbytes : decodeCompletion bytes = .ok completion) :
    (self.putCq slot bytes).HoldsCompletion slot completion := by
  refine ⟨?_, bytes, ?_, hbytes⟩
  · exact List.getElem?_set_self (self.cq_length ▸ hslot)
  · exact List.getElem?_set_self hslot

theorem putCq_holds_of_ne {bytes : List UInt8} {other : ℕ} (hne : other ≠ slot)
    (h : self.HoldsCompletion other completion) :
    (self.putCq slot bytes).HoldsCompletion other completion := by
  obtain ⟨hvalid, content, hcontent, hdecode⟩ := h
  refine ⟨?_, content, ?_, hdecode⟩
  · rw [← hvalid]
    exact List.getElem?_set_ne hne.symm
  · rw [← hcontent]
    exact List.getElem?_set_ne hne.symm

theorem clearCq_holds_of_ne {other : ℕ} (hne : other ≠ slot)
    (h : self.HoldsCompletion other completion) :
    (self.clearCq slot).HoldsCompletion other completion := by
  obtain ⟨hvalid, hcontent⟩ := h
  refine ⟨?_, hcontent⟩
  rw [← hvalid]
  exact List.getElem?_set_ne hne.symm

/-- **Taking a slot that holds a completion succeeds.** -/
theorem takeCqSlot_eq (h : self.HoldsCompletion slot completion) :
    self.takeCqSlot slot = (.ok completion, self.clearCq slot) := by
  obtain ⟨hvalid, bytes, hbytes, hdecode⟩ := h
  have hlt : slot < self.cqSlots.length := (List.getElem?_eq_some_iff.1 hbytes).1
  unfold takeCqSlot
  rw [if_neg (by omega), List.getD_eq_getElem?_getD, List.getD_eq_getElem?_getD, hvalid, hbytes]
  simp [hdecode]

/-- Writing into an existing slot succeeds exactly for completions that fit into it. -/
theorem writeCqSlot_spec (self : GuestRingMemory) (completion : CompletionEvent)
    (hslot : slot < self.cqDepth) :
    (¬completion.Fits self.slotBytes ∧ ∃ e, self.writeCqSlot slot completion = .error e) ∨
      completion.Fits self.slotBytes ∧ ∃ bytes, decodeCompletion bytes = .ok completion ∧
        self.writeCqSlot slot completion = .ok (self.putCq slot bytes) := by
  have hwrite : self.writeCqSlot slot completion =
      (encodeCompletion completion self.slotBytes).map (self.putCq slot) := by
    unfold writeCqSlot
    rw [if_neg (show ¬slot ≥ self.cqSlots.length from Nat.not_le.2 hslot)]
    cases encodeCompletion completion self.slotBytes <;> rfl
  rw [hwrite]
  rcases completion.encodeCompletion_spec self.slotBytes with
    ⟨hnot, e, herror⟩ | ⟨hfits, bytes, hok, _, hdecode⟩
  · exact .inl ⟨hnot, e, by rw [herror]; rfl⟩
  · exact .inr ⟨hfits, bytes, hdecode, by rw [hok]; rfl⟩

theorem writeCqSlot_error {e : String} (h : self.writeCqSlot slot completion = .error e) :
    e = "cq slot out of range" ∨ e = "string too long for slot encoding" ∨
      e = "encoded payload exceeds slot size" := by
  unfold writeCqSlot at h
  split_ifs at h
  · exact .inl (Except.error.inj h).symm
  · cases hencode : encodeCompletion completion self.slotBytes with
    | error e' =>
      rw [hencode] at h
      exact .inr (Except.error.inj h ▸ CompletionEvent.encodeCompletion_error hencode)
    | ok bytes =>
      rw [hencode] at h
      cases h

end GuestRingMemory

end LinquUb
