import RV640.Isa.Encoding

set_option autoImplicit false

/-! # The C extension

The expansion of the 16-bit instructions of RV32C and RV64C, from the tables of the unprivileged
specification: the integer instructions and the hints, which expand to `nop`. Reserved encodings,
those left to custom extensions and the floating-point loads and stores expand to nothing. The bits
of an immediate are named as the tables name them: `bits h start len at` puts bits
`start + len - 1 : start` of the halfword at bit `at` of the immediate.
-/

namespace Riscv

open Bits

/-- A field of the halfword, at its place in an immediate. -/
def bits {n : Nat} (h : BitVec 16) (start len pos : Nat) : BitVec n :=
  place (h.extractLsb' start len) pos

/-! ## Fields -/

/-- The full register field at bit `lo`. -/
def reg (h : BitVec 16) (lo : Nat) : RegNo := h.extractLsb' lo 5

/-- The three-bit register field at bit `lo`: `x8` to `x15`. -/
def reg' (h : BitVec 16) (lo : Nat) : RegNo := place (h.extractLsb' lo 3) 0 ||| 8#5

/-- CI-format `imm[5|4:0]`. -/
def imm6 (h : BitVec 16) : BitVec 6 := bits h 12 1 5 ||| bits h 2 5 0

/-- CIW-format `nzuimm[5:4|9:6|2|3]` of C.ADDI4SPN. -/
def uimmAddi4spn (h : BitVec 16) : BitVec 12 :=
  bits h 11 2 4 ||| bits h 7 4 6 ||| bits h 6 1 2 ||| bits h 5 1 3

/-- CL- and CS-format `uimm[5:3]`, `uimm[2|6]` of C.LW and C.SW. -/
def uimmWord (h : BitVec 16) : BitVec 12 := bits h 10 3 3 ||| bits h 6 1 2 ||| bits h 5 1 6

/-- CL- and CS-format `uimm[5:3]`, `uimm[7:6]` of C.LD and C.SD. -/
def uimmDouble (h : BitVec 16) : BitVec 12 := bits h 10 3 3 ||| bits h 5 2 6

/-- CI-format `nzimm[9]`, `nzimm[4|6|8:7|5]` of C.ADDI16SP. -/
def immAddi16sp (h : BitVec 16) : BitVec 10 :=
  bits h 12 1 9 ||| bits h 6 1 4 ||| bits h 5 1 6 ||| bits h 3 2 7 ||| bits h 2 1 5

/-- CJ-format `imm[11|4|9:8|10|6|7|3:1|5]`, in halfwords. -/
def immJump (h : BitVec 16) : BitVec 11 :=
  bits h 12 1 10 ||| bits h 11 1 3 ||| bits h 9 2 7 ||| bits h 8 1 9 ||| bits h 7 1 5
    ||| bits h 6 1 6 ||| bits h 3 3 0 ||| bits h 2 1 4

/-- CB-format `imm[8|4:3]`, `imm[7:6|2:1|5]`, in halfwords. -/
def immBranch (h : BitVec 16) : BitVec 8 :=
  bits h 12 1 7 ||| bits h 10 2 2 ||| bits h 5 2 5 ||| bits h 3 2 0 ||| bits h 2 1 4

/-- CI-format `uimm[5]`, `uimm[4:2|7:6]` of C.LWSP. -/
def uimmLwsp (h : BitVec 16) : BitVec 12 := bits h 12 1 5 ||| bits h 4 3 2 ||| bits h 2 2 6

/-- CI-format `uimm[5]`, `uimm[4:3|8:6]` of C.LDSP. -/
def uimmLdsp (h : BitVec 16) : BitVec 12 := bits h 12 1 5 ||| bits h 5 2 3 ||| bits h 2 3 6

/-- CSS-format `uimm[5:2|7:6]` of C.SWSP. -/
def uimmSwsp (h : BitVec 16) : BitVec 12 := bits h 9 4 2 ||| bits h 7 2 6

/-- CSS-format `uimm[5:3|8:6]` of C.SDSP. -/
def uimmSdsp (h : BitVec 16) : BitVec 12 := bits h 10 3 3 ||| bits h 7 3 6

/-! ## Expansion -/

/-- Quadrant 1, `funct3` 100: shifts, C.ANDI and the register operations. -/
def expandAlu (rv64 : Bool) (h : BitVec 16) : Option Base :=
  let rd := reg' h 7
  let rs2 := reg' h 2
  match h.extractLsb' 10 2 with
  | 0#2 =>
      if !rv64 && h.getLsbD 12 then none
      else if imm6 h = 0#6 then some .nop
      else some (.srli rd rd (imm6 h))
  | 1#2 =>
      if !rv64 && h.getLsbD 12 then none
      else if imm6 h = 0#6 then some .nop
      else some (.srai rd rd (imm6 h))
  | 2#2 => some (.andi rd rd ((imm6 h).signExtend 12))
  | _ =>
      match h.getLsbD 12, h.extractLsb' 5 2 with
      | false, 0#2 => some (.sub rd rd rs2)
      | false, 1#2 => some (.xor rd rd rs2)
      | false, 2#2 => some (.or rd rd rs2)
      | false, _ => some (.and rd rd rs2)
      | true, 0#2 => if rv64 then some (.subw rd rd rs2) else none
      | true, 1#2 => if rv64 then some (.addw rd rd rs2) else none
      | true, _ => none

/-- Quadrant 2, `funct3` 100: C.JR, C.MV, C.EBREAK, C.JALR and C.ADD. -/
def expandJumpMove (h : BitVec 16) : Option Base :=
  let rd := reg h 7
  let rs2 := reg h 2
  if h.getLsbD 12 then
    if rs2 = x0 then
      if rd = x0 then some .ebreak else some (.jalr ra rd 0#12)
    else if rd = x0 then some .nop
    else some (.add rd rd rs2)
  else
    if rs2 = x0 then
      if rd = x0 then none else some (.jalr x0 rd 0#12)
    else if rd = x0 then some .nop
    else some (.add rd x0 rs2)

/-- The base instruction a 16-bit instruction stands for, on RV64 or RV32. -/
def expand (rv64 : Bool) (h : BitVec 16) : Option Base :=
  match h.extractLsb' 0 2, h.extractLsb' 13 3 with
  | 0#2, 0#3 =>
      if uimmAddi4spn h = 0#12 then none else some (.addi (reg' h 2) sp (uimmAddi4spn h))
  | 0#2, 2#3 => some (.lw (reg' h 2) (reg' h 7) (uimmWord h))
  | 0#2, 3#3 => if rv64 then some (.ld (reg' h 2) (reg' h 7) (uimmDouble h)) else none
  | 0#2, 6#3 => some (.sw (reg' h 2) (reg' h 7) (uimmWord h))
  | 0#2, 7#3 => if rv64 then some (.sd (reg' h 2) (reg' h 7) (uimmDouble h)) else none
  | 1#2, 0#3 =>
      if reg h 7 = x0 ∨ imm6 h = 0#6 then some .nop
      else some (.addi (reg h 7) (reg h 7) ((imm6 h).signExtend 12))
  | 1#2, 1#3 =>
      if rv64 then
        if reg h 7 = x0 then none
        else some (.addiw (reg h 7) (reg h 7) ((imm6 h).signExtend 12))
      else some (.jal ra ((immJump h).signExtend 20))
  | 1#2, 2#3 =>
      if reg h 7 = x0 then some .nop
      else some (.addi (reg h 7) x0 ((imm6 h).signExtend 12))
  | 1#2, 3#3 =>
      if reg h 7 = sp then
        if immAddi16sp h = 0#10 then none else some (.addi sp sp ((immAddi16sp h).signExtend 12))
      else if imm6 h = 0#6 then none
      else if reg h 7 = x0 then some .nop
      else some (.lui (reg h 7) ((imm6 h).signExtend 20))
  | 1#2, 4#3 => expandAlu rv64 h
  | 1#2, 5#3 => some (.jal x0 ((immJump h).signExtend 20))
  | 1#2, 6#3 => some (.beq (reg' h 7) x0 ((immBranch h).signExtend 12))
  | 1#2, 7#3 => some (.bne (reg' h 7) x0 ((immBranch h).signExtend 12))
  | 2#2, 0#3 =>
      if !rv64 && h.getLsbD 12 then none
      else if reg h 7 = x0 ∨ imm6 h = 0#6 then some .nop
      else some (.slli (reg h 7) (reg h 7) (imm6 h))
  | 2#2, 2#3 => if reg h 7 = x0 then none else some (.lw (reg h 7) sp (uimmLwsp h))
  | 2#2, 3#3 =>
      if rv64 then
        if reg h 7 = x0 then none else some (.ld (reg h 7) sp (uimmLdsp h))
      else none
  | 2#2, 4#3 => expandJumpMove h
  | 2#2, 6#3 => some (.sw (reg h 2) sp (uimmSwsp h))
  | 2#2, 7#3 => if rv64 then some (.sd (reg h 2) sp (uimmSdsp h)) else none
  | _, _ => none

end Riscv
