import RV640.Cpu.Base

set_option autoImplicit false

/-! # Compressed instructions (`cpu/rv_cext.h`)

One function per quadrant and `funct3`, as in the source. The immediates are built by the
source's own shifts and masks on the halfword, which arrives zero-extended.
-/

namespace RV640

open Bits

variable {c : Cfg}

/-- The register `((instr >> lo) & 0x7) + 8`. -/
def cextReg (instr : BitVec 32) (lo : Nat) : Reg := (instr.extractLsb' lo 3).setWidth 5 + 8#5

/-- The register `(instr >> lo) & 0x1F`. -/
def cextFullReg (instr : BitVec 32) (lo : Nat) : Reg := instr.extractLsb' lo 5

/-- `((instr >> 2) & 0x1F) | ((instr >> 7) & (1 << 5))`: the six-bit immediate. -/
def cextImm6 (instr : BitVec 32) : BitVec 32 :=
  ((instr >>> 2) &&& 0x1F#32) ||| ((instr >>> 7) &&& (1#32 <<< 5))

/-- `SIGN_EXTEND(imm, 5, uint32_t)` of the six-bit immediate. -/
def cextSimm6 (instr : BitVec 32) : BitVec 32 := signExtend (cextImm6 instr) 5

/-- `ASSEMBLE_11(data, r0, .., r10)`: bit `k` of `data` goes to position `r k`. -/
def assemble11 (data : BitVec 32) (r0 r1 r2 r3 r4 r5 r6 r7 r8 r9 r10 : Nat) : BitVec 32 :=
  (((data >>> 0) &&& 1#32) <<< r0)
    ||| (((data >>> 1) &&& 1#32) <<< r1)
    ||| (((data >>> 2) &&& 1#32) <<< r2)
    ||| (((data >>> 3) &&& 1#32) <<< r3)
    ||| (((data >>> 4) &&& 1#32) <<< r4)
    ||| (((data >>> 5) &&& 1#32) <<< r5)
    ||| (((data >>> 6) &&& 1#32) <<< r6)
    ||| (((data >>> 7) &&& 1#32) <<< r7)
    ||| (((data >>> 8) &&& 1#32) <<< r8)
    ||| (((data >>> 9) &&& 1#32) <<< r9)
    ||| (((data >>> 10) &&& 1#32) <<< r10)

/-- The offset of C.J and C.JAL. -/
def cextJumpOffset (instr : BitVec 32) : BitVec 32 :=
  signExtend (assemble11 ((instr >>> 2) &&& 0x7FF#32) 5 1 2 3 7 6 10 8 9 4 11) 11

/-- The offset of C.BEQZ and C.BNEZ. -/
def cextBranchOffset (instr : BitVec 32) : BitVec 32 :=
  signExtend (((instr <<< 3) &&& (1#32 <<< 5)) ||| ((instr >>> 2) &&& (3#32 <<< 1))
    ||| ((instr <<< 1) &&& (3#32 <<< 6)) ||| ((instr >>> 7) &&& (3#32 <<< 3))
    ||| ((instr >>> 4) &&& (1#32 <<< 8))) 8

/-- The offset of C.LW and C.SW. -/
def cextWordOffset (instr : BitVec 32) : BitVec 32 :=
  ((instr >>> 7) &&& (0x7#32 <<< 3)) ||| ((instr <<< 1) &&& (1#32 <<< 6))
    ||| ((instr >>> 4) &&& (1#32 <<< 2))

/-- The offset of C.LD and C.SD. -/
def cextDoubleOffset (instr : BitVec 32) : BitVec 32 :=
  ((instr >>> 7) &&& (0x7#32 <<< 3)) ||| ((instr <<< 1) &&& (3#32 <<< 6))

/-- `_doILL` on the machine. -/
def cextIll (m : Machine c) : Machine c := { m with cpu := doILL m.cpu }

/-- `_cextNop`. -/
def cextNop (m : Machine c) : Machine c := m

/-- The immediate of C.ADDI4SPN. -/
def cextAddi4spnImm (instr : BitVec 32) : BitVec 32 :=
  ((instr >>> 2) &&& (1#32 <<< 3)) ||| ((instr >>> 4) &&& (1#32 <<< 2))
    ||| ((instr >>> 1) &&& (0xF#32 <<< 6)) ||| ((instr >>> 7) &&& (0x3#32 <<< 4))

/-- `_decodeCextQ0_0`: C.ADDI4SPN. -/
def decodeCextQ0_0 (m : Machine c) (instr : BitVec 32) : Machine c :=
  let imm := cextAddi4spnImm instr
  if imm ≠ 0#32 then { m with cpu := doOPIMM m.cpu 0#3 imm (cextReg instr 2) 2#5 }
  else cextIll m

/-- `_decodeCextQ0_2`: C.LW. -/
def decodeCextQ0_2 (m : Machine c) (instr : BitVec 32) : Machine c :=
  doLOAD m 2#3 (cextWordOffset instr) (cextReg instr 2) (cextReg instr 7)

/-- `_decodeCextQ0_3`: C.LD. -/
def decodeCextQ0_3 (m : Machine c) (instr : BitVec 32) : Machine c :=
  if c.isRv64 then doLOAD m 3#3 (cextDoubleOffset instr) (cextReg instr 2) (cextReg instr 7)
  else cextIll m

/-- `_decodeCextQ0_6`: C.SW. -/
def decodeCextQ0_6 (m : Machine c) (instr : BitVec 32) : Machine c :=
  doSTORE m 2#3 (cextWordOffset instr) (cextReg instr 7) (cextReg instr 2)

/-- `_decodeCextQ0_7`: C.SD. -/
def decodeCextQ0_7 (m : Machine c) (instr : BitVec 32) : Machine c :=
  if c.isRv64 then doSTORE m 3#3 (cextDoubleOffset instr) (cextReg instr 7) (cextReg instr 2)
  else cextIll m

/-- `_decodeCextQ1_0`: C.ADDI and C.NOP. -/
def decodeCextQ1_0 (m : Machine c) (instr : BitVec 32) : Machine c :=
  let rd := cextFullReg instr 7
  if rd ≠ 0#5 then
    if cextImm6 instr ≠ 0#32 then
      { m with cpu := doOPIMM m.cpu 0#3 (cextSimm6 instr) rd rd }
    else cextNop m
  else cextNop m

/-- `_decodeCextQ1_1`: C.ADDIW on RV64, C.JAL on RV32. -/
def decodeCextQ1_1 (m : Machine c) (instr : BitVec 32) : Machine c :=
  if c.isRv64 then
    let rd := cextFullReg instr 7
    if rd ≠ 0#5 then { m with cpu := doOPIMM32 m.cpu 0#3 (cextSimm6 instr) rd rd }
    else cextIll m
  else { m with cpu := doJAL m.cpu (cextJumpOffset instr) 1#5 2 }

/-- `_decodeCextQ1_2`: C.LI. -/
def decodeCextQ1_2 (m : Machine c) (instr : BitVec 32) : Machine c :=
  let rd := cextFullReg instr 7
  if rd ≠ 0#5 then { m with cpu := doOPIMM m.cpu 0#3 (cextSimm6 instr) rd 0#5 }
  else cextNop m

/-- The immediate of C.ADDI16SP. -/
def cextAddi16spImm (instr : BitVec 32) : BitVec 32 :=
  ((instr >>> 2) &&& (1#32 <<< 4)) ||| ((instr <<< 3) &&& (1#32 <<< 5))
    ||| ((instr <<< 1) &&& (1#32 <<< 6)) ||| ((instr <<< 4) &&& (3#32 <<< 7))
    ||| ((instr >>> 3) &&& (1#32 <<< 9))

/-- `_decodeCextQ1_3`: C.ADDI16SP and C.LUI. -/
def decodeCextQ1_3 (m : Machine c) (instr : BitVec 32) : Machine c :=
  let rd := cextFullReg instr 7
  if rd ≠ 0#5 then
    if rd = 2#5 then
      let imm := cextAddi16spImm instr
      if imm ≠ 0#32 then { m with cpu := doOPIMM m.cpu 0#3 (signExtend imm 9) 2#5 2#5 }
      else cextIll m
    else if cextImm6 instr ≠ 0#32 then
      { m with cpu := doLUI m.cpu (cextSimm6 instr <<< 12) rd }
    else cextIll m
  else cextNop m

/-- `_decodeCextQ1_4`: C.SRLI, C.SRAI, C.ANDI and the register operations. -/
def decodeCextQ1_4 (m : Machine c) (instr : BitVec 32) : Machine c :=
  let imm := cextImm6 instr
  let rd := cextReg instr 7
  let rs2 := cextReg instr 2
  match instr.extractLsb' 10 2 with
  | 1#2 => { m with cpu := doOPIMM m.cpu 5#3 (imm ||| (1#32 <<< 10)) rd rd }
  | 2#2 => { m with cpu := doOPIMM m.cpu 7#3 (cextSimm6 instr) rd rd }
  | 3#2 =>
      if instr.getLsbD 12 then
        if c.isRv64 then
          match instr.extractLsb' 5 2 with
          | 1#2 => { m with cpu := doOP32 m.cpu 0#3 0#7 rd rd rs2 }
          | 2#2 => cextIll m
          | 3#2 => cextIll m
          | _ => { m with cpu := doOP32 m.cpu 0#3 32#7 rd rd rs2 }
        else cextIll m
      else
        match instr.extractLsb' 5 2 with
        | 1#2 => { m with cpu := doOP m.cpu 4#3 0#7 rd rd rs2 }
        | 2#2 => { m with cpu := doOP m.cpu 6#3 0#7 rd rd rs2 }
        | 3#2 => { m with cpu := doOP m.cpu 7#3 0#7 rd rd rs2 }
        | _ => { m with cpu := doOP m.cpu 0#3 32#7 rd rd rs2 }
  | _ => { m with cpu := doOPIMM m.cpu 5#3 imm rd rd }

/-- `_decodeCextQ1_5`: C.J. -/
def decodeCextQ1_5 (m : Machine c) (instr : BitVec 32) : Machine c :=
  { m with cpu := doJAL m.cpu (cextJumpOffset instr) 0#5 2 }

/-- `_decodeCextQ1_6`: C.BEQZ. -/
def decodeCextQ1_6 (m : Machine c) (instr : BitVec 32) : Machine c :=
  { m with cpu := doBRANCH m.cpu 0#3 (cextBranchOffset instr) (cextReg instr 7) 0#5 2 }

/-- `_decodeCextQ1_7`: C.BNEZ. -/
def decodeCextQ1_7 (m : Machine c) (instr : BitVec 32) : Machine c :=
  { m with cpu := doBRANCH m.cpu 1#3 (cextBranchOffset instr) (cextReg instr 7) 0#5 2 }

/-- `_decodeCextQ2_0`: C.SLLI. -/
def decodeCextQ2_0 (m : Machine c) (instr : BitVec 32) : Machine c :=
  let shamt := cextImm6 instr
  let rd := cextFullReg instr 7
  if shamt ≠ 0#32 && rd ≠ 0#5 then { m with cpu := doOPIMM m.cpu 1#3 shamt rd rd }
  else cextNop m

/-- `_decodeCextQ2_2`: C.LWSP. -/
def decodeCextQ2_2 (m : Machine c) (instr : BitVec 32) : Machine c :=
  let rd := cextFullReg instr 7
  if rd ≠ 0#5 then
    let iimm := ((instr <<< 4) &&& (3#32 <<< 6)) ||| ((instr >>> 2) &&& (7#32 <<< 2))
      ||| ((instr >>> 7) &&& (1#32 <<< 5))
    doLOAD m 2#3 iimm rd 2#5
  else cextIll m

/-- `_decodeCextQ2_3`: C.LDSP. -/
def decodeCextQ2_3 (m : Machine c) (instr : BitVec 32) : Machine c :=
  if c.isRv64 then
    let rd := cextFullReg instr 7
    if rd ≠ 0#5 then
      let iimm := ((instr <<< 4) &&& (7#32 <<< 6)) ||| ((instr >>> 2) &&& (3#32 <<< 3))
        ||| ((instr >>> 7) &&& (1#32 <<< 5))
      doLOAD m 3#3 iimm rd 2#5
    else cextIll m
  else cextIll m

/-- `_decodeCextQ2_4`: C.MV, C.JR, C.ADD, C.JALR and C.EBREAK. -/
def decodeCextQ2_4 (m : Machine c) (instr : BitVec 32) : Machine c :=
  let rs1 := cextFullReg instr 7
  let rs2 := cextFullReg instr 2
  if instr.getLsbD 12 then
    if rs2 ≠ 0#5 then
      if rs1 ≠ 0#5 then { m with cpu := doOP m.cpu 0#3 0#7 rs1 rs1 rs2 } else cextNop m
    else if rs1 ≠ 0#5 then { m with cpu := doJALR m.cpu 0#3 0#32 1#5 rs1 2 }
    else { m with cpu := doSYSTEM m.cpu m.aclint.mtime 0#3 1#32 0#5 0#5 2 }
  else
    if rs2 ≠ 0#5 then
      if rs1 ≠ 0#5 then { m with cpu := doOP m.cpu 0#3 0#7 rs1 0#5 rs2 } else cextNop m
    else if rs1 ≠ 0#5 then { m with cpu := doJALR m.cpu 0#3 0#32 0#5 rs1 2 }
    else cextIll m

/-- `_decodeCextQ2_6`: C.SWSP. -/
def decodeCextQ2_6 (m : Machine c) (instr : BitVec 32) : Machine c :=
  let simm := ((instr >>> 7) &&& (0xF#32 <<< 2)) ||| ((instr >>> 1) &&& (3#32 <<< 6))
  doSTORE m 2#3 simm 2#5 (cextFullReg instr 2)

/-- `_decodeCextQ2_7`: C.SDSP. -/
def decodeCextQ2_7 (m : Machine c) (instr : BitVec 32) : Machine c :=
  if c.isRv64 then
    let simm := ((instr >>> 7) &&& (7#32 <<< 3)) ||| ((instr >>> 1) &&& (7#32 <<< 6))
    doSTORE m 3#3 simm 2#5 (cextFullReg instr 2)
  else cextIll m

/-- The jump table of `_execCext`, indexed by quadrant and `funct3`. The entries `Q0_1`,
`Q0_4`, `Q0_5`, `Q2_1` and `Q2_5` are illegal instructions. -/
def cextTable (m : Machine c) (instr : BitVec 32) (q : BitVec 2) (funct3 : BitVec 3) : Machine c :=
  match q, funct3 with
  | 0#2, 0#3 => decodeCextQ0_0 m instr
  | 0#2, 2#3 => decodeCextQ0_2 m instr
  | 0#2, 3#3 => decodeCextQ0_3 m instr
  | 0#2, 6#3 => decodeCextQ0_6 m instr
  | 0#2, 7#3 => decodeCextQ0_7 m instr
  | 1#2, 0#3 => decodeCextQ1_0 m instr
  | 1#2, 1#3 => decodeCextQ1_1 m instr
  | 1#2, 2#3 => decodeCextQ1_2 m instr
  | 1#2, 3#3 => decodeCextQ1_3 m instr
  | 1#2, 4#3 => decodeCextQ1_4 m instr
  | 1#2, 5#3 => decodeCextQ1_5 m instr
  | 1#2, 6#3 => decodeCextQ1_6 m instr
  | 1#2, 7#3 => decodeCextQ1_7 m instr
  | 2#2, 0#3 => decodeCextQ2_0 m instr
  | 2#2, 2#3 => decodeCextQ2_2 m instr
  | 2#2, 3#3 => decodeCextQ2_3 m instr
  | 2#2, 4#3 => decodeCextQ2_4 m instr
  | 2#2, 6#3 => decodeCextQ2_6 m instr
  | 2#2, 7#3 => decodeCextQ2_7 m instr
  | _, _ => cextIll m

/-- `_execCext`; `none` when the word is not a compressed instruction. -/
def execCext (m : Machine c) (instr : BitVec 32) : Option (Machine c) :=
  let q := instr.extractLsb' 0 2
  if q = 3#2 then none
  else some (cextTable m (instr &&& 0xFFFF#32) q (instr.extractLsb' 13 3))

end RV640
