import RV640.Lib.Fields

set_option autoImplicit false

/-! # RISC-V instruction formats

The six formats of 32-bit instructions, from the fields of the unprivileged specification. `op` is
the major opcode, bits 6:2; bits 1:0 are set. Branch and jump offsets count halfwords, so an odd
offset cannot be written down.
-/

namespace Riscv

open Bits

/-- The number of an integer register. -/
abbrev RegNo := BitVec 5

/-- The zero register, the link register and the stack pointer. -/
abbrev x0 : RegNo := 0#5
abbrev ra : RegNo := 1#5
abbrev sp : RegNo := 2#5

/-! ## Major opcodes -/

def opLoad : BitVec 5 := 0#5
def opOpImm : BitVec 5 := 4#5
def opOpImm32 : BitVec 5 := 6#5
def opStore : BitVec 5 := 8#5
def opOp : BitVec 5 := 12#5
def opLui : BitVec 5 := 13#5
def opOp32 : BitVec 5 := 14#5
def opBranch : BitVec 5 := 24#5
def opJalr : BitVec 5 := 25#5
def opJal : BitVec 5 := 27#5
def opSystem : BitVec 5 := 28#5

/-! ## Formats -/

/-- R-type: `funct7`, `rs2`, `rs1`, `funct3`, `rd`. -/
def encodeR (funct7 : BitVec 7) (rs2 rs1 : RegNo) (funct3 : BitVec 3) (rd : RegNo)
    (op : BitVec 5) : BitVec 32 :=
  place funct7 25 ||| place rs2 20 ||| place rs1 15 ||| place funct3 12 ||| place rd 7
    ||| place op 2 ||| 3#32

/-- I-type: `imm[11:0]`, `rs1`, `funct3`, `rd`. -/
def encodeI (imm : BitVec 12) (rs1 : RegNo) (funct3 : BitVec 3) (rd : RegNo) (op : BitVec 5) :
    BitVec 32 :=
  place imm 20 ||| place rs1 15 ||| place funct3 12 ||| place rd 7 ||| place op 2 ||| 3#32

/-- S-type: `imm[11:5]`, `rs2`, `rs1`, `funct3`, `imm[4:0]`. -/
def encodeS (imm : BitVec 12) (rs2 rs1 : RegNo) (funct3 : BitVec 3) (op : BitVec 5) : BitVec 32 :=
  place (imm.extractLsb' 5 7) 25 ||| place rs2 20 ||| place rs1 15 ||| place funct3 12
    ||| place (imm.extractLsb' 0 5) 7 ||| place op 2 ||| 3#32

/-- B-type: offset bits 12, 10:5, `rs2`, `rs1`, `funct3`, offset bits 4:1, 11. -/
def encodeB (imm : BitVec 12) (rs2 rs1 : RegNo) (funct3 : BitVec 3) (op : BitVec 5) : BitVec 32 :=
  place (imm.extractLsb' 11 1) 31 ||| place (imm.extractLsb' 4 6) 25 ||| place rs2 20
    ||| place rs1 15 ||| place funct3 12 ||| place (imm.extractLsb' 0 4) 8
    ||| place (imm.extractLsb' 10 1) 7 ||| place op 2 ||| 3#32

/-- U-type: `imm[31:12]`, `rd`. -/
def encodeU (imm : BitVec 20) (rd : RegNo) (op : BitVec 5) : BitVec 32 :=
  place imm 12 ||| place rd 7 ||| place op 2 ||| 3#32

/-- J-type: offset bits 20, 10:1, 11, 19:12, `rd`. -/
def encodeJ (imm : BitVec 20) (rd : RegNo) (op : BitVec 5) : BitVec 32 :=
  place (imm.extractLsb' 19 1) 31 ||| place (imm.extractLsb' 0 10) 21
    ||| place (imm.extractLsb' 10 1) 20 ||| place (imm.extractLsb' 11 8) 12 ||| place rd 7
    ||| place op 2 ||| 3#32

/-! ## Instructions -/

/-- The base instructions, by major opcode, that compressed instructions stand for. -/
inductive Base where
  | load (funct3 : BitVec 3) (rd rs1 : RegNo) (imm : BitVec 12)
  | store (funct3 : BitVec 3) (rs1 rs2 : RegNo) (imm : BitVec 12)
  | opImm (funct3 : BitVec 3) (rd rs1 : RegNo) (imm : BitVec 12)
  | opImm32 (funct3 : BitVec 3) (rd rs1 : RegNo) (imm : BitVec 12)
  | op (funct7 : BitVec 7) (funct3 : BitVec 3) (rd rs1 rs2 : RegNo)
  | op32 (funct7 : BitVec 7) (funct3 : BitVec 3) (rd rs1 rs2 : RegNo)
  | lui (rd : RegNo) (imm : BitVec 20)
  | jal (rd : RegNo) (imm : BitVec 20)
  | jalr (rd rs1 : RegNo) (imm : BitVec 12)
  | branch (funct3 : BitVec 3) (rs1 rs2 : RegNo) (imm : BitVec 12)
  | ebreak
  deriving DecidableEq, Repr

namespace Base

/-- The instruction word. -/
def encode : Base → BitVec 32
  | load funct3 rd rs1 imm => encodeI imm rs1 funct3 rd opLoad
  | store funct3 rs1 rs2 imm => encodeS imm rs2 rs1 funct3 opStore
  | opImm funct3 rd rs1 imm => encodeI imm rs1 funct3 rd opOpImm
  | opImm32 funct3 rd rs1 imm => encodeI imm rs1 funct3 rd opOpImm32
  | op funct7 funct3 rd rs1 rs2 => encodeR funct7 rs2 rs1 funct3 rd opOp
  | op32 funct7 funct3 rd rs1 rs2 => encodeR funct7 rs2 rs1 funct3 rd opOp32
  | lui rd imm => encodeU imm rd opLui
  | jal rd imm => encodeJ imm rd opJal
  | jalr rd rs1 imm => encodeI imm rs1 0#3 rd opJalr
  | branch funct3 rs1 rs2 imm => encodeB imm rs2 rs1 funct3 opBranch
  | ebreak => encodeI 1#12 x0 0#3 x0 opSystem

/-! The mnemonics. -/

def lw (rd rs1 : RegNo) (imm : BitVec 12) : Base := load 2#3 rd rs1 imm
def ld (rd rs1 : RegNo) (imm : BitVec 12) : Base := load 3#3 rd rs1 imm
def sw (rs2 rs1 : RegNo) (imm : BitVec 12) : Base := store 2#3 rs1 rs2 imm
def sd (rs2 rs1 : RegNo) (imm : BitVec 12) : Base := store 3#3 rs1 rs2 imm
def addi (rd rs1 : RegNo) (imm : BitVec 12) : Base := opImm 0#3 rd rs1 imm
def andi (rd rs1 : RegNo) (imm : BitVec 12) : Base := opImm 7#3 rd rs1 imm
def slli (rd rs1 : RegNo) (shamt : BitVec 6) : Base := opImm 1#3 rd rs1 (place shamt 0)
def srli (rd rs1 : RegNo) (shamt : BitVec 6) : Base := opImm 5#3 rd rs1 (place shamt 0)
def srai (rd rs1 : RegNo) (shamt : BitVec 6) : Base :=
  opImm 5#3 rd rs1 (place shamt 0 ||| place 1#1 10)
def addiw (rd rs1 : RegNo) (imm : BitVec 12) : Base := opImm32 0#3 rd rs1 imm
def add (rd rs1 rs2 : RegNo) : Base := op 0#7 0#3 rd rs1 rs2
def sub (rd rs1 rs2 : RegNo) : Base := op 32#7 0#3 rd rs1 rs2
def xor (rd rs1 rs2 : RegNo) : Base := op 0#7 4#3 rd rs1 rs2
def or (rd rs1 rs2 : RegNo) : Base := op 0#7 6#3 rd rs1 rs2
def and (rd rs1 rs2 : RegNo) : Base := op 0#7 7#3 rd rs1 rs2
def addw (rd rs1 rs2 : RegNo) : Base := op32 0#7 0#3 rd rs1 rs2
def subw (rd rs1 rs2 : RegNo) : Base := op32 32#7 0#3 rd rs1 rs2
def beq (rs1 rs2 : RegNo) (imm : BitVec 12) : Base := branch 0#3 rs1 rs2 imm
def bne (rs1 rs2 : RegNo) (imm : BitVec 12) : Base := branch 1#3 rs1 rs2 imm
def nop : Base := addi x0 x0 0#12

end Base

end Riscv
