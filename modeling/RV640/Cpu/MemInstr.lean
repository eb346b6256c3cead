import RV640.Machine
import RV640.Cpu.Instr

set_option autoImplicit false

/-! # Instructions that reach the bus (`cpu/rv_instr.h`)

Loads, stores, atomics and the cache operations.
-/

namespace RV640

open Bits

variable {c : Cfg}

/-- `_doMISCMEM`. FENCE and FENCE.I ignore their other fields. -/
def doMISCMEM (m : Machine c) (funct3 : BitVec 3) (iimm : BitVec 32) (rd rs1 : Reg) : Machine c :=
  match funct3 with
  | 0#3 => { m with cpu := flushIcache m.cpu }
  | 1#3 => { m with cpu := flushIcache m.cpu }
  | 2#3 =>
      match iimm with
      | 4#32 =>
          if rd = 0#5 then
            if m.cpu.mode < .machine && m.cpu.csr.menvcfg &&& menvcfgCbzeMask == 0#_ then
              { m with cpu := trap m.cpu .instIll }
            else if m.cpu.mode < .supervisor && m.cpu.csr.senvcfg &&& senvcfgCbzeMask == 0#_ then
              { m with cpu := trap m.cpu .instIll }
            else
              let mask : Addr c := ~~~BitVec.ofNat _ (dcacheLineSize - 1)
              writeMem m ((readReg m.cpu rs1 &&& mask.setWidth _).setWidth _)
                (List.replicate dcacheLineSize 0#8)
          else { m with cpu := doILL m.cpu }
      | _ => { m with cpu := doILL m.cpu }
  | _ => { m with cpu := doILL m.cpu }

/-- What the switch of `_doAMO` computes: `rdVal`, `data` and `needWrite`. -/
structure AmoResult (c : Cfg) where
  rdVal : Word c
  data : Word c
  needWrite : Bool

/-- The read-modify-write operation of a `funct5`; `none` for LR, SC and the unused encodings. -/
def amoOp {w : Nat} (funct5 : BitVec 5) (rs2Val data : BitVec w) : Option (BitVec w) :=
  match funct5 with
  | 0#5 => some (data + rs2Val)
  | 1#5 => some rs2Val
  | 4#5 => some (data ^^^ rs2Val)
  | 8#5 => some (data ||| rs2Val)
  | 12#5 => some (data &&& rs2Val)
  | 16#5 => some (if rs2Val.slt data then rs2Val else data)
  | 20#5 => some (if data.slt rs2Val then rs2Val else data)
  | 24#5 => some (if rs2Val.ult data then rs2Val else data)
  | 28#5 => some (if data.ult rs2Val then rs2Val else data)
  | _ => none

/-- The switch of `_doAMO`, after the old value `data` was read from `addr`. It runs also when
that read has trapped. -/
def amoSwitch (m : Machine c) (funct5 : BitVec 5) (rs2 : Reg) (addr : Addr c) (size : Nat)
    (rs2Val data : Word c) : Machine c × AmoResult c :=
  match funct5 with
  | 2#5 =>
      if rs2 ≠ 0#5 then ({ m with cpu := doILL m.cpu }, ⟨0#_, data, true⟩)
      else ({ m with bus := busReservationCreate m.bus addr size }, ⟨data, data, false⟩)
  | 3#5 =>
      let (bus, ok) := busReservationCheckInvalidate m.bus addr size
      ({ m with bus := bus },
        if ok then ⟨0#_, rs2Val, true⟩ else ⟨1#_, data, false⟩)
  | _ =>
      match amoOp funct5 rs2Val data with
      | some res => (m, ⟨data, res, true⟩)
      | none => ({ m with cpu := doILL m.cpu }, ⟨0#_, data, true⟩)

/-- `size` of `_doAMO`. -/
def amoSize (c : Cfg) (funct3 : BitVec 3) : Nat := min (1 <<< funct3.toNat) c.wordBytes

/-- `_doAMO`. -/
def doAMO (m : Machine c) (funct3 : BitVec 3) (funct5 : BitVec 5) (rd rs1 rs2 : Reg) :
    Machine c :=
  let size := amoSize c funct3
  let rs1Val : Addr c := (readReg m.cpu rs1).setWidth _
  if rs1Val.toNat &&& (size - 1) ≠ 0 then { m with cpu := trap m.cpu .stAllign }
  else
    let sizeBits := size * 8
    let mask := (cpuUintMax : Word c) >>> (c.xlen - sizeBits)
    let rs2Val := signExtend (readReg m.cpu rs2 &&& mask) (sizeBits - 1)
    let (m, data) := readMem m rs1Val size
    let data := signExtend data (sizeBits - 1)
    let (m, res) := amoSwitch m funct5 rs2 rs1Val size rs2Val data
    let m := { m with cpu := writeReg m.cpu rd res.rdVal }
    if res.needWrite then writeMem m rs1Val (toBytes size res.data) else m

/-- `_doSTORE`. -/
def doSTORE (m : Machine c) (funct3 : BitVec 3) (simm : BitVec 32) (rs1 rs2 : Reg) : Machine c :=
  let size := 1 <<< funct3.toNat
  if c.wordBytes < size then { m with cpu := doILL m.cpu }
  else
    let offset : Addr c := signExtend (simm.setWidth _) 11
    let addr : Addr c := (readReg m.cpu rs1 + offset.setWidth _).setWidth _
    let data := readReg m.cpu rs2
    writeMem m addr (toBytes size data)

/-- `_doLOAD`. -/
def doLOAD (m : Machine c) (funct3 : BitVec 3) (iimm : BitVec 32) (rd rs1 : Reg) : Machine c :=
  let size := 1 <<< (funct3 &&& 3#3).toNat
  if c.wordBytes < size then { m with cpu := doILL m.cpu }
  else
    let isSigned := funct3 &&& 4#3 == 0#3
    let offset : Addr c := signExtend (iimm.setWidth _) 11
    let addr : Addr c := (readReg m.cpu rs1 + offset.setWidth _).setWidth _
    let (m, data) := readMem m addr size
    let data := if isSigned then signExtend data (size * 8 - 1) else data
    { m with cpu := writeReg m.cpu rd data }

end RV640
