import LinquUb.LTS.History
import LinquUb.Legacy.ConfigSpace
import LinquUb.Legacy.MessageRegisters

/-!
# The history of the configuration space

A register may have two positions, and a register of 64 bits has its halves at different ones.

* `ConfigSpace.cellAt` : what is behind a position;
* `ConfigSpace.Cell.get_set` : a cell keeps what is written to it, and leaves the others alone;
* `ConfigSpace.cfgRead_writes` : **a read returns what the last write to its cell has left**.
-/

namespace LinquUb

namespace Legacy

/-! ### Registers -/

@[simp] theorem highHalf_withLow (reg value : UInt64) :
    highHalf (withLow reg value) = highHalf reg := by
  rw [highHalf, withLow_shiftRight, highHalf]

namespace ConfigSpace

/-- Registers of 64 bits: every position has one half. -/
inductive WideRegister
  | matt | mmio | cmdq | eventq
deriving DecidableEq, Repr

inductive WordRegister
  | ctrl | cmdqCfg | cmdqProd | cmdqCons | eventqCfg | eventqProd | eventqCons
deriving DecidableEq, Repr

/-- What a position can hold. -/
inductive Cell
  | upi
  | low (reg : WideRegister)
  | high (reg : WideRegister)
  | word (reg : WordRegister)
deriving DecidableEq, Repr

def WideRegister.get (s : LinquUbDecoderState) : WideRegister → UInt64
  | matt => s.mattBa
  | mmio => s.mmioBa
  | cmdq => s.cmdqBase
  | eventq => s.eventqBase

def WideRegister.set (s : LinquUbDecoderState) (value : UInt64) :
    WideRegister → LinquUbDecoderState
  | matt => { s with mattBa := value }
  | mmio => { s with mmioBa := value }
  | cmdq => { s with cmdqBase := value }
  | eventq => { s with eventqBase := value }

def WordRegister.get (s : LinquUbDecoderState) : WordRegister → UInt32
  | ctrl => s.ctrl
  | cmdqCfg => s.cmdqCfg
  | cmdqProd => s.cmdqProd
  | cmdqCons => s.cmdqCons
  | eventqCfg => s.eventqCfg
  | eventqProd => s.eventqProd
  | eventqCons => s.eventqCons

def WordRegister.set (s : LinquUbDecoderState) (value : UInt32) :
    WordRegister → LinquUbDecoderState
  | ctrl => { s with ctrl := value }
  | cmdqCfg => { s with cmdqCfg := value }
  | cmdqProd => { s with cmdqProd := value }
  | cmdqCons => { s with cmdqCons := value }
  | eventqCfg => { s with eventqCfg := value }
  | eventqProd => { s with eventqProd := value }
  | eventqCons => { s with eventqCons := value }

/-- The positions that a write changes and a read returns. -/
def cellAt : ℕ → Option Cell
  | 0x7c => some .upi
  | 0x40088 => some (.low .matt)
  | 0x4008c => some (.high .matt)
  | 0x40408 => some (.word .ctrl)
  | 0x4040c => some (.low .matt)
  | 0x40410 => some (.high .matt)
  | 0x40414 => some (.low .mmio)
  | 0x40418 => some (.high .mmio)
  | 0x40440 => some (.word .cmdqCfg)
  | 0x40444 => some (.word .cmdqProd)
  | 0x40448 => some (.word .cmdqCons)
  | 0x4044c => some (.low .cmdq)
  | 0x40450 => some (.high .cmdq)
  | 0x40480 => some (.word .eventqCfg)
  | 0x40484 => some (.word .eventqProd)
  | 0x40488 => some (.word .eventqCons)
  | 0x4048c => some (.low .eventq)
  | 0x40490 => some (.high .eventq)
  | _ => none

def Cell.get (s : ConfigSpace) : Cell → UInt32
  | upi => s.cfgUpi &&& 0x7fff
  | low reg => lowHalf (reg.get s.decoder)
  | high reg => highHalf (reg.get s.decoder)
  | word reg => reg.get s.decoder

/-- What is left of a value that is written. -/
def Cell.hold (value : UInt32) : Cell → UInt32
  | upi => value &&& 0x7fff
  | low _ | high _ | word _ => value

def Cell.set (s : ConfigSpace) (value : UInt32) : Cell → ConfigSpace
  | upi => { s with cfgUpi := value &&& 0x7fff }
  | low reg => { s with decoder := reg.set s.decoder (withLow (reg.get s.decoder) value.toUInt64) }
  | high reg => { s with decoder := reg.set s.decoder (withHigh (reg.get s.decoder) value.toUInt64) }
  | word reg => { s with decoder := reg.set s.decoder value }

@[simp] theorem WideRegister.get_set (s : LinquUbDecoderState) (value : UInt64)
    (reg reg' : WideRegister) :
    reg.get (reg'.set s value) = if reg = reg' then value else reg.get s := by
  cases reg <;> cases reg' <;> rfl

@[simp] theorem WideRegister.get_setWord (s : LinquUbDecoderState) (value : UInt32)
    (reg : WideRegister) (reg' : WordRegister) : reg.get (reg'.set s value) = reg.get s := by
  cases reg <;> cases reg' <;> rfl

@[simp] theorem WordRegister.get_set (s : LinquUbDecoderState) (value : UInt32)
    (reg reg' : WordRegister) :
    reg.get (reg'.set s value) = if reg = reg' then value else reg.get s := by
  cases reg <;> cases reg' <;> rfl

@[simp] theorem WordRegister.get_setWide (s : LinquUbDecoderState) (value : UInt64)
    (reg : WordRegister) (reg' : WideRegister) : reg.get (reg'.set s value) = reg.get s := by
  cases reg <;> cases reg' <;> rfl

/-- A cell keeps what is written to it, and the other cells keep what they have. -/
theorem Cell.get_set (s : ConfigSpace) (value : UInt32) (c c' : Cell) :
    c.get (c'.set s value) = if c = c' then c.hold value else c.get s := by
  cases c with
  | upi => cases c' <;> simp [get, set, hold, UInt32.and_assoc]
  | low reg =>
    cases c' with
    | low reg' | high reg' => by_cases hreg : reg = reg' <;> simp [get, set, hold, hreg]
    | _ => simp [get, set]
  | high reg =>
    cases c' with
    | low reg' | high reg' => by_cases hreg : reg = reg' <;> simp [get, set, hold, hreg]
    | _ => simp [get, set]
  | word reg =>
    cases c' with
    | word reg' => by_cases hreg : reg = reg' <;> simp [get, set, hold, hreg]
    | _ => simp [get, set]

theorem cfgReadDword_cell {s : ConfigSpace} {reqAddr : UInt32} {c : Cell}
    (h : cellAt (reqAddr * 4).toNat = some c) : s.cfgReadDword reqAddr = c.get s := by
  unfold cfgReadDword
  generalize (reqAddr * 4).toNat = pos at h ⊢
  unfold cellAt at h
  split at h <;> first | (cases h; rfl) | cases h

/-- A write changes a cell or nothing that a read returns. -/
theorem cfgWriteDword_eq (s : ConfigSpace) (reqAddr value : UInt32) :
    s.cfgWriteDword reqAddr value = match cellAt (reqAddr * 4).toNat with
      | some c => c.set s value
      | none =>
        if (reqAddr * 4).toNat = 0x94 then { s with cfgThEn := value &&& 0x1 } else s := by
  unfold cfgWriteDword
  generalize (reqAddr * 4).toNat = pos
  unfold cellAt
  split <;> first | rfl | grind

/-- What no write changes. -/
structure SameFixed (s s' : ConfigSpace) : Prop where
  numEndpoints : s'.numEndpoints = s.numEndpoints
  cap : s'.decoder.cap = s.decoder.cap
  usiIdx : s'.decoder.usiIdx = s.decoder.usiIdx

theorem cfgWriteDword_fixed (s : ConfigSpace) (reqAddr value : UInt32) :
    SameFixed s (s.cfgWriteDword reqAddr value) := by
  rw [cfgWriteDword_eq]
  cases cellAt (reqAddr * 4).toNat with
  | none => split_ifs <;> exact ⟨rfl, rfl, rfl⟩
  | some c =>
    rcases c with _ | reg | reg | reg
    · exact ⟨rfl, rfl, rfl⟩
    all_goals cases reg <;> exact ⟨rfl, rfl, rfl⟩

/-- The other positions have constants. -/
theorem cfgReadDword_fixed {s s' : ConfigSpace} (hsame : SameFixed s s') {reqAddr : UInt32}
    (h : cellAt (reqAddr * 4).toNat = none) : s'.cfgReadDword reqAddr = s.cfgReadDword reqAddr := by
  unfold cfgReadDword
  generalize (reqAddr * 4).toNat = pos at h ⊢
  split <;> first
    | exact absurd h (by decide)
    | simp only [hsame.numEndpoints, hsame.cap, hsame.usiIdx]

/-- A write to the configuration space. -/
structure CfgWrite where
  reqAddr : UInt32
  writeData : UInt32
deriving DecidableEq, Repr

/-- What a write leaves in a cell. -/
def CfgWrite.inCell (c : Cell) (w : CfgWrite) : Option UInt32 :=
  if cellAt (w.reqAddr * 4).toNat = some c then some (c.hold w.writeData) else none

def write (s : ConfigSpace) (w : CfgWrite) : ConfigSpace := s.cfgWriteDword w.reqAddr w.writeData

theorem get_write (c : Cell) (s : ConfigSpace) (w : CfgWrite) :
    c.get (s.write w) = (w.inCell c).getD (c.get s) := by
  rw [write, cfgWriteDword_eq, CfgWrite.inCell]
  cases hcell : cellAt (w.reqAddr * 4).toNat with
  | none =>
    dsimp only
    rw [if_neg (show ¬(none : Option Cell) = some c by nofun)]
    split_ifs
    · cases c <;> rfl
    · rfl
  | some c' =>
    simp only [Cell.get_set, Option.some.injEq]
    by_cases hc : c = c'
    · simp [hc]
    · simp [hc, Ne.symm hc]

/-- What is read after some writes: what the last write to the same register has left, or what was
there before. -/
def valueAfter (s : ConfigSpace) (log : List CfgWrite) (reqAddr : UInt32) : UInt32 :=
  match cellAt (reqAddr * 4).toNat with
  | some c => (latest (·.inCell c) log).getD (s.cfgReadDword reqAddr)
  | none => s.cfgReadDword reqAddr

/-- **The configuration space answers from the history of its writes.** -/
theorem cfgRead_writes (s : ConfigSpace) (log : List CfgWrite) (reqAddr : UInt32) :
    (log.foldl write s).cfgReadDword reqAddr = s.valueAfter log reqAddr := by
  unfold valueAfter
  cases hcell : cellAt (reqAddr * 4).toNat with
  | none =>
    have hfixed : SameFixed s (log.foldl write s) := by
      induction log generalizing s with
      | nil => exact ⟨rfl, rfl, rfl⟩
      | cons w log ih =>
        have hfirst := s.cfgWriteDword_fixed w.reqAddr w.writeData
        have hrest := ih (s.write w)
        exact ⟨hrest.numEndpoints.trans hfirst.numEndpoints, hrest.cap.trans hfirst.cap,
          hrest.usiIdx.trans hfirst.usiIdx⟩
    exact cfgReadDword_fixed hfixed hcell
  | some c =>
    rw [cfgReadDword_cell hcell, cfgReadDword_cell hcell]
    exact @foldl_latest _ _ (·.inCell c) _ write (fun s => c.get s) (get_write c) s log

end ConfigSpace

end Legacy

end LinquUb
