import Mathlib.Data.Nat.Notation

/-!
# The configuration space of the archived QEMU device

Messages of the guest read and write the configuration space in words of 32 bits.  Most positions
have constants; the others are the registers of the decoder.

* `withLow`, `withHigh` : half of a register is replaced;
* `ConfigSpace.cfgReadDword`, `ConfigSpace.cfgWriteDword` : the two accesses, which never fail.
-/

namespace LinquUb

namespace Legacy

/-- The low half of a register of 64 bits is replaced. -/
def withLow (reg value : UInt64) : UInt64 :=
  (reg &&& (0xffffffff00000000 : UInt64)) ||| (value &&& (0xffffffff : UInt64))

/-- The high half is replaced. -/
def withHigh (reg value : UInt64) : UInt64 :=
  (reg &&& (0xffffffff : UInt64)) ||| (value <<< (32 : UInt64))

def lowHalf (reg : UInt64) : UInt32 := reg.toUInt32

def highHalf (reg : UInt64) : UInt32 := (reg >>> (32 : UInt64)).toUInt32

@[simp] theorem lowHalf_withLow (reg : UInt64) (value : UInt32) :
    lowHalf (withLow reg value.toUInt64) = value := by
  have hzero : (0xffffffff00000000 : UInt64).toUInt32 = 0 := rfl
  have hones : (0xffffffff : UInt64).toUInt32 = -1 := rfl
  rw [lowHalf, withLow, UInt64.toUInt32_or, UInt64.toUInt32_and, UInt64.toUInt32_and, hzero, hones]
  simp

@[simp] theorem highHalf_withHigh (reg : UInt64) (value : UInt32) :
    highHalf (withHigh reg value.toUInt64) = value := by
  have hzero : (0xffffffff : UInt64) >>> (32 : UInt64) = 0 := rfl
  rw [highHalf, withHigh, UInt64.shiftRight_or, UInt64.shiftRight_and, hzero,
    ← UInt32.toBitVec_inj]
  ext i hi
  have hbit : 32 + i < 64 := by omega
  simp [hbit, BitVec.getLsbD_eq_getElem hi]

structure LinquUbDecoderState where
  mmioBa : UInt64
  mattBa : UInt64
  cmdqBase : UInt64
  eventqBase : UInt64
  ctrl : UInt32
  cap : UInt32
  usiIdx : UInt32
  cmdqCfg : UInt32
  cmdqProd : UInt32
  cmdqCons : UInt32
  eventqCfg : UInt32
  eventqProd : UInt32
  eventqCons : UInt32
deriving DecidableEq, Repr

structure ConfigSpace where
  numEndpoints : UInt32
  cfgUpi : UInt32
  cfgThEn : UInt32
  decoder : LinquUbDecoderState
deriving DecidableEq, Repr

namespace ConfigSpace

/-- The word at address `reqAddr`; unknown positions read as zero. -/
def cfgReadDword (s : ConfigSpace) (reqAddr : UInt32) : UInt32 :=
  match (reqAddr * 4).toNat with
  | 0x4 => ((s.numEndpoints + 1) <<< 16) ||| 1
  | 0x8 => 0
  | 0x28 => 0
  | 0x38 => 0x00000001
  | 0x3c => 0x00000000
  | 0x40 => 0x12000000
  | 0x44 => 0x0000cc08
  | 0x48 => 1
  | 0x7c => s.cfgUpi &&& 0x7fff
  | 0x80 => 0
  | 0x40004 => 0x4b
  | 0x40024 => 0x660
  | 0x40034 => 0x100000
  | 0x40084 => 0
  | 0x40088 => lowHalf s.decoder.mattBa
  | 0x4008c => highHalf s.decoder.mattBa
  | 0x40090 => 1
  | 0x400a4 => 0
  | 0x40404 => s.decoder.cap
  | 0x40408 => s.decoder.ctrl
  | 0x4040c => lowHalf s.decoder.mattBa
  | 0x40410 => highHalf s.decoder.mattBa
  | 0x40414 => lowHalf s.decoder.mmioBa
  | 0x40418 => highHalf s.decoder.mmioBa
  | 0x4041c => s.decoder.usiIdx
  | 0x40440 => s.decoder.cmdqCfg
  | 0x40444 => s.decoder.cmdqProd
  | 0x40448 => s.decoder.cmdqCons
  | 0x4044c => lowHalf s.decoder.cmdqBase
  | 0x40450 => highHalf s.decoder.cmdqBase
  | 0x40480 => s.decoder.eventqCfg
  | 0x40484 => s.decoder.eventqProd
  | 0x40488 => s.decoder.eventqCons
  | 0x4048c => lowHalf s.decoder.eventqBase
  | 0x40490 => highHalf s.decoder.eventqBase
  | _ => 0

def cfgWriteDword (s : ConfigSpace) (reqAddr writeData : UInt32) : ConfigSpace :=
  match (reqAddr * 4).toNat with
  | 0x7c => { s with cfgUpi := writeData &&& 0x7fff }
  | 0x94 => { s with cfgThEn := writeData &&& 0x1 }
  | 0x40088 => { s with decoder.mattBa := withLow s.decoder.mattBa writeData.toUInt64 }
  | 0x4008c => { s with decoder.mattBa := withHigh s.decoder.mattBa writeData.toUInt64 }
  | 0x40408 => { s with decoder.ctrl := writeData }
  | 0x4040c => { s with decoder.mattBa := withLow s.decoder.mattBa writeData.toUInt64 }
  | 0x40410 => { s with decoder.mattBa := withHigh s.decoder.mattBa writeData.toUInt64 }
  | 0x40414 => { s with decoder.mmioBa := withLow s.decoder.mmioBa writeData.toUInt64 }
  | 0x40418 => { s with decoder.mmioBa := withHigh s.decoder.mmioBa writeData.toUInt64 }
  | 0x40440 => { s with decoder.cmdqCfg := writeData }
  | 0x40444 => { s with decoder.cmdqProd := writeData }
  | 0x40448 => { s with decoder.cmdqCons := writeData }
  | 0x4044c => { s with decoder.cmdqBase := withLow s.decoder.cmdqBase writeData.toUInt64 }
  | 0x40450 => { s with decoder.cmdqBase := withHigh s.decoder.cmdqBase writeData.toUInt64 }
  | 0x40480 => { s with decoder.eventqCfg := writeData }
  | 0x40484 => { s with decoder.eventqProd := writeData }
  | 0x40488 => { s with decoder.eventqCons := writeData }
  | 0x4048c => { s with decoder.eventqBase := withLow s.decoder.eventqBase writeData.toUInt64 }
  | 0x40490 => { s with decoder.eventqBase := withHigh s.decoder.eventqBase writeData.toUInt64 }
  | _ => s

end ConfigSpace

end Legacy

end LinquUb
