import RV640.Cpu.Csr

set_option autoImplicit false

/-! # Instructions that stay inside the hart (`cpu/rv_instr.h`)

One function per major opcode of the base ISA, for the opcodes that do not reach the bus. An
instruction's size is a parameter where the source passes it: the same function serves the
32-bit instruction and its compressed form.
-/

namespace RV640

open Bits

variable {c : Cfg}

/-- `_doILL`. The `assert(false)` that follows the trap is compiled out of the shipped build. -/
def doILL (self : Cpu c) : Cpu c := trap self .instIll

/-- `_doJAL`. -/
def doJAL (self : Cpu c) (jimm : BitVec 32) (rd : Reg) (size : Int) : Cpu c :=
  let imm : Word c := signExtend (jimm.setWidth _) 20
  let pc := readPC self
  let target : Word c := pc.setWidth _ + imm
  let self := writeReg self rd ((pc + BitVec.ofInt _ size).setWidth _)
  writePC self ((target - BitVec.ofInt _ size).setWidth _)

/-- The exception an ECALL raises in each mode. -/
def ecallCause : PrivMode → TrapCause
  | .supervisor => .callS
  | .machine => .callM
  | _ => .callU

/-- `_doSYSTEM`. -/
def doSYSTEM (self : Cpu c) (mtime : BitVec 64) (funct3 : BitVec 3) (iimm : BitVec 32)
    (rd rs1 : Reg) (size : Int) : Cpu c :=
  let csrNo : BitVec 16 := iimm.setWidth 16
  match funct3 with
  | 0#3 =>
      match iimm with
      | 0#32 => trap self (ecallCause self.mode)
      | 1#32 => trap self .breakpoint
      | 0x102#32 => xret self .supervisor size
      | 0x105#32 =>
          if (self.mode < .machine && self.csr.mstatus &&& mstatusTwMask != 0#_)
              || self.mode = .user then trap self .instIll
          else { self with wfi := true }
      | 0x302#32 => xret self .machine size
      | _ => doILL self
  | 1#3 =>
      let data := readReg self rs1
      let (self, csr) := readCSR self mtime csrNo
      let self := writeCSR self csrNo data
      if rd ≠ 0#5 then writeReg self rd csr else self
  | 2#3 =>
      let data := readReg self rs1
      let (self, csr) := readCSR self mtime csrNo
      let self := if rs1 ≠ 0#5 then writeCSR self csrNo (csr ||| data) else self
      writeReg self rd csr
  | 3#3 =>
      let data := readReg self rs1
      let (self, csr) := readCSR self mtime csrNo
      let self := if rs1 ≠ 0#5 then writeCSR self csrNo (csr &&& ~~~data) else self
      writeReg self rd csr
  | 5#3 =>
      let (self, csr) := readCSR self mtime csrNo
      let self := writeCSR self csrNo (rs1.setWidth _)
      if rd ≠ 0#5 then writeReg self rd csr else self
  | 6#3 =>
      let (self, csr) := readCSR self mtime csrNo
      let self := if rs1 ≠ 0#5 then writeCSR self csrNo (csr ||| rs1.setWidth _) else self
      writeReg self rd csr
  | 7#3 =>
      let (self, csr) := readCSR self mtime csrNo
      let self := if rs1 ≠ 0#5 then writeCSR self csrNo (csr &&& ~~~(rs1.setWidth _)) else self
      writeReg self rd csr
  | _ => doILL self

/-- The word `(v >> s) | ~(((v & SIGN) >> s) - 1)` of SRA, SRAI, SRAW and SRAIW. -/
def shiftRightArith {w : Nat} (v : BitVec w) (shift : Nat) : BitVec w :=
  (v >>> shift) ||| ~~~(((v &&& bit (w - 1)) >>> shift) - 1#w)

/-- The word that holds a C truth value. -/
def boolWord {w : Nat} (b : Bool) : BitVec w := if b then 1#w else 0#w

/-- `_doOPIMM`. -/
def doOPIMM (self : Cpu c) (funct3 : BitVec 3) (iimm : BitVec 32) (rd rs1 : Reg) : Cpu c :=
  let imm : Word c := signExtend (iimm.setWidth _) 11
  let rs1Val := readReg self rs1
  let shift := iimm.toNat &&& cpuShiftMask c
  match funct3 with
  | 1#3 =>
      match iimm >>> 6 with
      | 0#32 => writeReg self rd (rs1Val <<< shift)
      | _ => doILL self
  | 2#3 => writeReg self rd (boolWord (rs1Val.slt imm))
  | 3#3 => writeReg self rd (boolWord (rs1Val.ult imm))
  | 4#3 => writeReg self rd (rs1Val ^^^ imm)
  | 5#3 =>
      match iimm >>> 6 with
      | 0#32 => writeReg self rd (rs1Val >>> shift)
      | 0x10#32 => writeReg self rd (shiftRightArith rs1Val shift)
      | _ => doILL self
  | 6#3 => writeReg self rd (imm ||| rs1Val)
  | 7#3 => writeReg self rd (imm &&& rs1Val)
  | _ => writeReg self rd (imm + rs1Val)

/-- The condition of a conditional branch; `none` for the two unused encodings. -/
def branchTaken {w : Nat} (funct3 : BitVec 3) (rs1Val rs2Val : BitVec w) : Option Bool :=
  match funct3 with
  | 0#3 => some (rs1Val == rs2Val)
  | 1#3 => some (rs1Val != rs2Val)
  | 4#3 => some (rs1Val.slt rs2Val)
  | 5#3 => some (rs2Val.sle rs1Val)
  | 6#3 => some (rs1Val.ult rs2Val)
  | 7#3 => some (rs2Val.ule rs1Val)
  | _ => none

/-- `_doBRANCH`. -/
def doBRANCH (self : Cpu c) (funct3 : BitVec 3) (bimm : BitVec 32) (rs1 rs2 : Reg) (size : Int) :
    Cpu c :=
  let imm : Word c := signExtend (bimm.setWidth _) 12
  match branchTaken funct3 (readReg self rs1) (readReg self rs2) with
  | some true =>
      writePC self (((readPC self).setWidth _ + imm - BitVec.ofInt _ size).setWidth _)
  | some false => self
  | none => doILL self

/-- The immediate of `_doLUI` and `_doAUIPC`. -/
def upperImm (uimm : BitVec 32) : Word c :=
  if c.isRv64 then signExtend (uimm.setWidth _) 31 else uimm.setWidth _

/-- `_doLUI`. -/
def doLUI (self : Cpu c) (uimm : BitVec 32) (rd : Reg) : Cpu c :=
  writeReg self rd (upperImm uimm)

/-- `_doAUIPC`. -/
def doAUIPC (self : Cpu c) (uimm : BitVec 32) (rd : Reg) : Cpu c :=
  writeReg self rd ((readPC self).setWidth _ + upperImm uimm)

/-! ## Multiplication and division -/

/-- `(uint32_t)x` back in 64 bits. -/
def low32 (x : BitVec 64) : BitVec 64 := (x.setWidth 32).setWidth 64

/-- The low and high halves of a 64 × 64 product from 32-bit limbs, as MULH, MULHSU and MULHU
write it out for RV64. -/
def mulLimbs (ma mb : BitVec 64) : BitVec 64 × BitVec 64 :=
  let a0 := low32 ma
  let a1 := ma >>> 32
  let b0 := low32 mb
  let b1 := mb >>> 32
  let p0 := a0 * b0
  let p1 := a0 * b1
  let p2 := a1 * b0
  let p3 := a1 * b1
  let mid := (p0 >>> 32) + low32 p1 + low32 p2
  let lo := (p0 &&& 0xffffffff#64) ||| (mid <<< 32)
  let hi := p3 + (p1 >>> 32) + (p2 >>> 32) + (mid >>> 32)
  (lo, hi)

/-- The magnitude `(x < 0) ? (0 - x) : x` of a signed word. -/
def magnitude (x : BitVec 64) : BitVec 64 := if x.slt 0#64 then 0#64 - x else x

/-- `hi`, negated together with the low half when the product is negative. -/
def negateHigh (lo hi : BitVec 64) : BitVec 64 := ~~~hi + boolWord (lo == 0#64)

/-- MULH for RV64. -/
def mulh64 (rs1Val rs2Val : BitVec 64) : BitVec 64 :=
  let (lo, hi) := mulLimbs (magnitude rs1Val) (magnitude rs2Val)
  if rs1Val.slt 0#64 != rs2Val.slt 0#64 then negateHigh lo hi else hi

/-- MULHSU for RV64. -/
def mulhsu64 (rs1Val rs2Val : BitVec 64) : BitVec 64 :=
  let (lo, hi) := mulLimbs (magnitude rs1Val) rs2Val
  if rs1Val.slt 0#64 then negateHigh lo hi else hi

/-- MULHU for RV64. -/
def mulhu64 (rs1Val rs2Val : BitVec 64) : BitVec 64 := (mulLimbs rs1Val rs2Val).2

/-- MULH for RV32, through one 64-bit product. -/
def mulh32 (rs1Val rs2Val : BitVec 32) : BitVec 32 :=
  ((rs1Val.signExtend 64 * rs2Val.signExtend 64) >>> 32).setWidth 32

/-- MULHSU for RV32. -/
def mulhsu32 (rs1Val rs2Val : BitVec 32) : BitVec 32 :=
  ((rs1Val.signExtend 64 * rs2Val.setWidth 64) >>> 32).setWidth 32

/-- MULHU for RV32. -/
def mulhu32 (rs1Val rs2Val : BitVec 32) : BitVec 32 :=
  ((rs1Val.setWidth 64 * rs2Val.setWidth 64) >>> 32).setWidth 32

/-- The high product an `#ifdef CONFIG_RV64` selects. -/
def highMul (f64 : BitVec 64 → BitVec 64 → BitVec 64) (f32 : BitVec 32 → BitVec 32 → BitVec 32)
    (rs1Val rs2Val : Word c) : Word c :=
  if c.isRv64 then (f64 (rs1Val.setWidth 64) (rs2Val.setWidth 64)).setWidth _
  else (f32 (rs1Val.setWidth 32) (rs2Val.setWidth 32)).setWidth _

section Division

/-! The branches of the divisions, over the operator of the host and what a result is: `ret` gives
the results that are not computed by it. -/

variable {w : Nat} {α : Type} (ret : BitVec w → α) (op : BitVec w → BitVec w → α)

/-- DIV, and DIVW at 32 bits. -/
def divSignedWith (rs1Val rs2Val : BitVec w) : α :=
  if rs2Val != 0#w then
    if rs1Val == bit (w - 1) && rs2Val == ~~~0#w then ret (bit (w - 1)) else op rs1Val rs2Val
  else ret (~~~0#w)

/-- DIVU, and DIVUW at 32 bits. -/
def divUnsignedWith (rs1Val rs2Val : BitVec w) : α :=
  if rs2Val != 0#w then op rs1Val rs2Val else ret (~~~0#w)

/-- REM, and REMW at 32 bits. -/
def remSignedWith (rs1Val rs2Val : BitVec w) : α :=
  if rs2Val != 0#w then
    if rs1Val == bit (w - 1) && rs2Val == ~~~0#w then ret 0#w else op rs1Val rs2Val
  else ret rs1Val

/-- REMU, and REMUW at 32 bits. -/
def remUnsignedWith (rs1Val rs2Val : BitVec w) : α :=
  if rs2Val != 0#w then op rs1Val rs2Val else ret rs1Val

def divSigned (rs1Val rs2Val : BitVec w) : BitVec w := divSignedWith id BitVec.sdiv rs1Val rs2Val
def divUnsigned (rs1Val rs2Val : BitVec w) : BitVec w :=
  divUnsignedWith id (· / ·) rs1Val rs2Val
def remSigned (rs1Val rs2Val : BitVec w) : BitVec w := remSignedWith id BitVec.srem rs1Val rs2Val
def remUnsigned (rs1Val rs2Val : BitVec w) : BitVec w :=
  remUnsignedWith id (· % ·) rs1Val rs2Val

variable (rs1Val rs2Val : BitVec w)

theorem divSigned_def : divSigned rs1Val rs2Val =
    if rs2Val != 0#w then
      if rs1Val == bit (w - 1) && rs2Val == ~~~0#w then bit (w - 1) else rs1Val.sdiv rs2Val
    else ~~~0#w := rfl

theorem divUnsigned_def : divUnsigned rs1Val rs2Val =
    if rs2Val != 0#w then rs1Val / rs2Val else ~~~0#w := rfl

theorem remSigned_def : remSigned rs1Val rs2Val =
    if rs2Val != 0#w then
      if rs1Val == bit (w - 1) && rs2Val == ~~~0#w then 0#w else rs1Val.srem rs2Val
    else rs1Val := rfl

theorem remUnsigned_def : remUnsigned rs1Val rs2Val =
    if rs2Val != 0#w then rs1Val % rs2Val else rs1Val := rfl

end Division

/-- `_doOP`. -/
def doOP (self : Cpu c) (funct3 : BitVec 3) (funct7 : BitVec 7) (rd rs1 rs2 : Reg) : Cpu c :=
  let rs1Val := readReg self rs1
  let rs2Val := readReg self rs2
  let shift := rs2Val.toNat &&& cpuShiftMask c
  match funct3, funct7 with
  | 0#3, 0#7 => writeReg self rd (rs1Val + rs2Val)
  | 0#3, 1#7 => writeReg self rd (rs1Val * rs2Val)
  | 0#3, 32#7 => writeReg self rd (rs1Val - rs2Val)
  | 1#3, 0#7 => writeReg self rd (rs1Val <<< shift)
  | 1#3, 1#7 => writeReg self rd (highMul mulh64 mulh32 rs1Val rs2Val)
  | 2#3, 0#7 => writeReg self rd (boolWord (rs1Val.slt rs2Val))
  | 2#3, 1#7 => writeReg self rd (highMul mulhsu64 mulhsu32 rs1Val rs2Val)
  | 3#3, 0#7 => writeReg self rd (boolWord (rs1Val.ult rs2Val))
  | 3#3, 1#7 => writeReg self rd (highMul mulhu64 mulhu32 rs1Val rs2Val)
  | 4#3, 0#7 => writeReg self rd (rs1Val ^^^ rs2Val)
  | 4#3, 1#7 => writeReg self rd (divSigned rs1Val rs2Val)
  | 5#3, 0#7 => writeReg self rd (rs1Val >>> shift)
  | 5#3, 1#7 => writeReg self rd (divUnsigned rs1Val rs2Val)
  | 5#3, 32#7 => writeReg self rd (shiftRightArith rs1Val shift)
  | 6#3, 0#7 => writeReg self rd (rs1Val ||| rs2Val)
  | 6#3, 1#7 => writeReg self rd (remSigned rs1Val rs2Val)
  | 7#3, 0#7 => writeReg self rd (rs1Val &&& rs2Val)
  | 7#3, 1#7 => writeReg self rd (remUnsigned rs1Val rs2Val)
  | _, _ => doILL self

/-- `_doJALR`. -/
def doJALR (self : Cpu c) (funct3 : BitVec 3) (iimm : BitVec 32) (rd rs1 : Reg) (size : Int) :
    Cpu c :=
  match funct3 with
  | 0#3 =>
      let imm : Word c := signExtend (iimm.setWidth _) 11
      let target : Addr c := ((readReg self rs1 + imm) &&& ~~~1#_).setWidth _
      let self := writeReg self rd ((readPC self + BitVec.ofInt _ size).setWidth _)
      writePC self (target - BitVec.ofInt _ size)
  | _ => doILL self

/-! ## 32-bit operations of RV64 -/

/-- `SIGN_EXTEND(res, 31, cpu_word_t)` of a 32-bit result. -/
def extendW (res : BitVec 32) : Word c := signExtend (res.setWidth _) 31

/-- `_doOPIMM32`, on RV64 only. -/
def doOPIMM32 (self : Cpu c) (funct3 : BitVec 3) (iimm : BitVec 32) (rd rs1 : Reg) : Cpu c :=
  let imm : Word c := signExtend (iimm.setWidth _) 11
  let rs1Val : BitVec 32 := (readReg self rs1).setWidth 32
  let shift := iimm.toNat &&& 0x1F
  match funct3 with
  | 0#3 => writeReg self rd (extendW ((imm + rs1Val.setWidth _).setWidth 32))
  | 1#3 =>
      match iimm >>> 5 with
      | 0#32 => writeReg self rd (extendW (rs1Val <<< shift))
      | _ => doILL self
  | 5#3 =>
      match iimm >>> 5 with
      | 0#32 => writeReg self rd (extendW (rs1Val >>> shift))
      | 0x20#32 => writeReg self rd (extendW (shiftRightArith rs1Val shift))
      | _ => doILL self
  | _ => doILL self

/-- `_doOP32`, on RV64 only. SLLW masks its shift with `CPU_SHIFT_MASK`, the others with
`0x1F`. -/
def doOP32 (self : Cpu c) (funct3 : BitVec 3) (funct7 : BitVec 7) (rd rs1 rs2 : Reg) : Cpu c :=
  let rs1Val : BitVec 32 := (readReg self rs1).setWidth 32
  let rs2Val : BitVec 32 := (readReg self rs2).setWidth 32
  let shift := rs2Val.toNat &&& 0x1F
  match funct3, funct7 with
  | 0#3, 0#7 => writeReg self rd (extendW (rs1Val + rs2Val))
  | 0#3, 1#7 => writeReg self rd (extendW (rs1Val * rs2Val))
  | 0#3, 32#7 => writeReg self rd (extendW (rs1Val - rs2Val))
  | 1#3, 0#7 => writeReg self rd (extendW (rs1Val <<< (rs2Val.toNat &&& cpuShiftMask c)))
  | 4#3, 1#7 =>
      writeReg self rd (if rs2Val != 0#32 then extendW (divSigned rs1Val rs2Val) else cpuUintMax)
  | 5#3, 0#7 => writeReg self rd (extendW (rs1Val >>> shift))
  | 5#3, 1#7 =>
      writeReg self rd (if rs2Val != 0#32 then extendW (divUnsigned rs1Val rs2Val) else cpuUintMax)
  | 5#3, 32#7 => writeReg self rd (extendW (shiftRightArith rs1Val shift))
  | 6#3, 1#7 => writeReg self rd (extendW (remSigned rs1Val rs2Val))
  | 7#3, 1#7 => writeReg self rd (extendW (remUnsigned rs1Val rs2Val))
  | _, _ => doILL self

end RV640
