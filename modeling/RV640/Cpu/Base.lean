import RV640.Cpu.MemInstr

set_option autoImplicit false

/-! # Decoding of 32-bit instructions (`cpu/rv_base.h`) -/

namespace RV640

open Bits

variable {c : Cfg}

/-! ## Fields -/

/-- `DECODE_RD`. -/
def decodeRd (instr : BitVec 32) : Reg := instr.extractLsb' 7 5

/-- `DECODE_RS1`. -/
def decodeRs1 (instr : BitVec 32) : Reg := instr.extractLsb' 15 5

/-- `DECODE_RS2`. -/
def decodeRs2 (instr : BitVec 32) : Reg := instr.extractLsb' 20 5

/-- `DECODE_FUNCT3`. -/
def decodeFunct3 (instr : BitVec 32) : BitVec 3 := instr.extractLsb' 12 3

/-- `DECODE_FUNCT5`. -/
def decodeFunct5 (instr : BitVec 32) : BitVec 5 := instr.extractLsb' 27 5

/-- `DECODE_FUNCT7`. -/
def decodeFunct7 (instr : BitVec 32) : BitVec 7 := instr.extractLsb' 25 7

/-- `DECODE_JIMM`. -/
def decodeJimm (instr : BitVec 32) : BitVec 32 :=
  (instr &&& (0xFF#32 <<< 12)) ||| ((instr >>> 20) &&& (0x3FF#32 <<< 1))
    ||| ((instr >>> 9) &&& (1#32 <<< 11)) ||| ((instr >>> 11) &&& (1#32 <<< 20))

/-- `DECODE_IIMM`. -/
def decodeIimm (instr : BitVec 32) : BitVec 32 := (instr >>> 20) &&& 0xFFF#32

/-- `DECODE_BIMM`. -/
def decodeBimm (instr : BitVec 32) : BitVec 32 :=
  ((instr >>> 7) &&& (0xF#32 <<< 1)) ||| ((instr >>> 20) &&& (0x3F#32 <<< 5))
    ||| ((instr <<< 4) &&& (1#32 <<< 11)) ||| ((instr >>> 19) &&& (1#32 <<< 12))

/-- `DECODE_UIMM`. -/
def decodeUimm (instr : BitVec 32) : BitVec 32 := instr &&& 0xFFFFF000#32

/-- `DECODE_SIMM`. -/
def decodeSimm (instr : BitVec 32) : BitVec 32 :=
  ((instr >>> 7) &&& 0x1F#32) ||| ((instr >>> 20) &&& (0x7F#32 <<< 5))

/-! ## The jump table -/

/-- `(instr >> 2) & 0x1F`: the index into the jump table of `_execInstr`. -/
def opcode (instr : BitVec 32) : BitVec 5 := instr.extractLsb' 2 5

/-- `_execInstr`, with the decoders it jumps to. -/
def execInstr (m : Machine c) (instr : BitVec 32) : Machine c :=
  let rd := decodeRd instr
  let rs1 := decodeRs1 instr
  let rs2 := decodeRs2 instr
  let funct3 := decodeFunct3 instr
  match opcode instr with
  | 0#5 => doLOAD m funct3 (decodeIimm instr) rd rs1
  | 3#5 => doMISCMEM m funct3 (decodeIimm instr) rd rs1
  | 4#5 => { m with cpu := doOPIMM m.cpu funct3 (decodeIimm instr) rd rs1 }
  | 5#5 => { m with cpu := doAUIPC m.cpu (decodeUimm instr) rd }
  | 6#5 =>
      { m with cpu :=
          if c.isRv64 then doOPIMM32 m.cpu funct3 (decodeIimm instr) rd rs1 else doILL m.cpu }
  | 8#5 => doSTORE m funct3 (decodeSimm instr) rs1 rs2
  | 11#5 => doAMO m funct3 (decodeFunct5 instr) rd rs1 rs2
  | 12#5 => { m with cpu := doOP m.cpu funct3 (decodeFunct7 instr) rd rs1 rs2 }
  | 13#5 => { m with cpu := doLUI m.cpu (decodeUimm instr) rd }
  | 14#5 =>
      { m with cpu :=
          if c.isRv64 then doOP32 m.cpu funct3 (decodeFunct7 instr) rd rs1 rs2 else doILL m.cpu }
  | 24#5 => { m with cpu := doBRANCH m.cpu funct3 (decodeBimm instr) rs1 rs2 4 }
  | 25#5 => { m with cpu := doJALR m.cpu funct3 (decodeIimm instr) rd rs1 4 }
  | 27#5 => { m with cpu := doJAL m.cpu (decodeJimm instr) rd 4 }
  | 28#5 =>
      { m with cpu := doSYSTEM m.cpu m.aclint.mtime funct3 (decodeIimm instr) rd rs1 4 }
  | _ => { m with cpu := doILL m.cpu }

end RV640
