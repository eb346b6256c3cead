import RV640.Isa.Encoding
import RV640.Cpu.Run

set_option autoImplicit false

/-! # The decoders of `rv_base.h` read the instruction formats

For each format, the `DECODE_*` macros return the fields the word was made of. `Base.exec` is what
`_execInstr` does with a base instruction, with the size of the instruction as a parameter.
-/

namespace RV640

open Bits Riscv

variable {c : Cfg}

/-! ## Immediates as fields -/

theorem decodeIimm_eq (w : BitVec 32) : decodeIimm w = place (w.extractLsb' 20 12) 0 :=
  ushiftRight_and w _ 20 12 0 (by decide)

theorem decodeSimm_eq (w : BitVec 32) :
    decodeSimm w = place (w.extractLsb' 7 5) 0 ||| place (w.extractLsb' 25 7) 5 := by
  unfold decodeSimm
  rw [ushiftRight_and w _ 7 5 0 (by decide), ushiftRight_and w _ 20 7 5 (by decide)]

theorem decodeBimm_eq (w : BitVec 32) :
    decodeBimm w = place (w.extractLsb' 8 4) 1 ||| place (w.extractLsb' 25 6) 5
      ||| place (w.extractLsb' 7 1) 11 ||| place (w.extractLsb' 31 1) 12 := by
  unfold decodeBimm
  rw [ushiftRight_and w _ 7 4 1 (by decide), ushiftRight_and w _ 20 6 5 (by decide),
    shiftLeft_and w _ 4 1 11 (by decide) (by decide), ushiftRight_and w _ 19 1 12 (by decide)]

theorem decodeUimm_eq (w : BitVec 32) : decodeUimm w = place (w.extractLsb' 12 20) 12 := by
  have h := ushiftRight_and w 0xFFFFF000#32 0 20 12 (by decide)
  rwa [BitVec.ushiftRight_zero] at h

theorem decodeJimm_eq (w : BitVec 32) :
    decodeJimm w = place (w.extractLsb' 21 10) 1 ||| place (w.extractLsb' 20 1) 11
      ||| place (w.extractLsb' 12 8) 12 ||| place (w.extractLsb' 31 1) 20 := by
  have h := ushiftRight_and w (0xFF#32 <<< 12) 0 8 12 (by decide)
  rw [BitVec.ushiftRight_zero] at h
  unfold decodeJimm
  rw [h, ushiftRight_and w _ 20 10 1 (by decide), ushiftRight_and w _ 9 1 11 (by decide),
    ushiftRight_and w _ 11 1 20 (by decide), BitVec.or_assoc (place _ 12),
    BitVec.or_comm (place _ 12)]

/-! ## Formats -/

section Formats

variable (funct7 : BitVec 7) (rs2 rs1 : RegNo) (funct3 : BitVec 3) (rd : RegNo) (op : BitVec 5)

theorem decode_encodeR :
    let w := encodeR funct7 rs2 rs1 funct3 rd op
    opcode w = op ∧ decodeRd w = rd ∧ decodeFunct3 w = funct3 ∧ decodeRs1 w = rs1
      ∧ decodeRs2 w = rs2 ∧ decodeFunct7 w = funct7 := by
  refine ⟨?_, ?_, ?_, ?_, ?_, ?_⟩ <;>
    simp (disch := decide) [opcode, decodeRd, decodeFunct3, decodeRs1, decodeRs2, decodeFunct7,
      encodeR, BitVec.extractLsb'_or, extractLsb'_place, extractLsb'_place_of_le,
      extractLsb'_place_of_ge]

theorem decode_encodeI (imm : BitVec 12) :
    let w := encodeI imm rs1 funct3 rd op
    opcode w = op ∧ decodeRd w = rd ∧ decodeFunct3 w = funct3 ∧ decodeRs1 w = rs1
      ∧ decodeIimm w = place imm 0 := by
  refine ⟨?_, ?_, ?_, ?_, ?_⟩ <;>
    simp (disch := decide) [opcode, decodeRd, decodeFunct3, decodeRs1, decodeIimm_eq, encodeI,
      BitVec.extractLsb'_or, extractLsb'_place, extractLsb'_place_of_le, extractLsb'_place_of_ge]

theorem decode_encodeS (imm : BitVec 12) :
    let w := encodeS imm rs2 rs1 funct3 op
    opcode w = op ∧ decodeFunct3 w = funct3 ∧ decodeRs1 w = rs1 ∧ decodeRs2 w = rs2
      ∧ decodeSimm w = place imm 0 := by
  refine ⟨?_, ?_, ?_, ?_, ?_⟩
  case refine_5 =>
    have hjoin := place_or_place (n := 32) imm 0 5 7 0
    rw [BitVec.extractLsb'_eq_self] at hjoin
    rw [← hjoin]
    simp (disch := decide) [decodeSimm_eq, encodeS, BitVec.extractLsb'_or, extractLsb'_place,
      extractLsb'_place_of_le, extractLsb'_place_of_ge]
  all_goals
    simp (disch := decide) [opcode, decodeFunct3, decodeRs1, decodeRs2, encodeS,
      BitVec.extractLsb'_or, extractLsb'_place, extractLsb'_place_of_le, extractLsb'_place_of_ge]

theorem decode_encodeB (imm : BitVec 12) :
    let w := encodeB imm rs2 rs1 funct3 op
    opcode w = op ∧ decodeFunct3 w = funct3 ∧ decodeRs1 w = rs1 ∧ decodeRs2 w = rs2
      ∧ decodeBimm w = place imm 1 := by
  refine ⟨?_, ?_, ?_, ?_, ?_⟩
  case refine_5 =>
    have hjoin := place_or_place (n := 32) imm 0 11 1 1
    rw [BitVec.extractLsb'_eq_self, ← place_or_place imm 0 10 1 1, ← place_or_place imm 0 4 6 1]
      at hjoin
    rw [← hjoin]
    simp (disch := decide) [decodeBimm_eq, encodeB, BitVec.extractLsb'_or, extractLsb'_place,
      extractLsb'_place_of_le, extractLsb'_place_of_ge]
  all_goals
    simp (disch := decide) [opcode, decodeFunct3, decodeRs1, decodeRs2, encodeB,
      BitVec.extractLsb'_or, extractLsb'_place, extractLsb'_place_of_le, extractLsb'_place_of_ge]

theorem decode_encodeU (imm : BitVec 20) :
    let w := encodeU imm rd op
    opcode w = op ∧ decodeRd w = rd ∧ decodeUimm w = place imm 12 := by
  refine ⟨?_, ?_, ?_⟩ <;>
    simp (disch := decide) [opcode, decodeRd, decodeUimm_eq, encodeU, BitVec.extractLsb'_or,
      extractLsb'_place, extractLsb'_place_of_le, extractLsb'_place_of_ge]

theorem decode_encodeJ (imm : BitVec 20) :
    let w := encodeJ imm rd op
    opcode w = op ∧ decodeRd w = rd ∧ decodeJimm w = place imm 1 := by
  refine ⟨?_, ?_, ?_⟩
  case refine_3 =>
    have hjoin := place_or_place (n := 32) imm 0 19 1 1
    rw [BitVec.extractLsb'_eq_self, ← place_or_place imm 0 11 8 1, ← place_or_place imm 0 10 1 1]
      at hjoin
    rw [← hjoin]
    simp (disch := decide) [decodeJimm_eq, encodeJ, BitVec.extractLsb'_or, extractLsb'_place,
      extractLsb'_place_of_le, extractLsb'_place_of_ge]
  all_goals
    simp (disch := decide) [opcode, decodeRd, encodeJ, BitVec.extractLsb'_or, extractLsb'_place,
      extractLsb'_place_of_le, extractLsb'_place_of_ge]

end Formats

/-! ## What `_execInstr` does with a base instruction -/

/-- The function of `rv_instr.h` a base instruction ends in, for an instruction of `size` bytes. -/
def execBase (m : Machine c) (size : Int) : Base → Machine c
  | .load funct3 rd rs1 imm => doLOAD m funct3 (place imm 0) rd rs1
  | .store funct3 rs1 rs2 imm => doSTORE m funct3 (place imm 0) rs1 rs2
  | .opImm funct3 rd rs1 imm => { m with cpu := doOPIMM m.cpu funct3 (place imm 0) rd rs1 }
  | .opImm32 funct3 rd rs1 imm =>
      { m with cpu :=
          if c.isRv64 then doOPIMM32 m.cpu funct3 (place imm 0) rd rs1 else doILL m.cpu }
  | .op funct7 funct3 rd rs1 rs2 => { m with cpu := doOP m.cpu funct3 funct7 rd rs1 rs2 }
  | .op32 funct7 funct3 rd rs1 rs2 =>
      { m with cpu :=
          if c.isRv64 then doOP32 m.cpu funct3 funct7 rd rs1 rs2 else doILL m.cpu }
  | .lui rd imm => { m with cpu := doLUI m.cpu (place imm 12) rd }
  | .jal rd imm => { m with cpu := doJAL m.cpu (place imm 1) rd size }
  | .jalr rd rs1 imm => { m with cpu := doJALR m.cpu 0#3 (place imm 0) rd rs1 size }
  | .branch funct3 rs1 rs2 imm =>
      { m with cpu := doBRANCH m.cpu funct3 (place imm 1) rs1 rs2 size }
  | .ebreak => { m with cpu := doSYSTEM m.cpu m.aclint.mtime 0#3 1#32 0#5 0#5 size }

/-- A base instruction is no compressed one. -/
theorem quadrant_encode (b : Base) : b.encode.extractLsb' 0 2 = 3#2 := by
  cases b <;>
    simp (disch := decide) [Base.encode, encodeI, encodeS, encodeR, encodeU, encodeJ, encodeB,
      BitVec.extractLsb'_or, extractLsb'_place_of_ge]

/-- `_execInstr` decodes what the formats encode. -/
theorem execInstr_encode (m : Machine c) (b : Base) : execInstr m b.encode = execBase m 4 b := by
  cases b with
  | load funct3 rd rs1 imm =>
      obtain ⟨hop, hrd, hf, hrs1, himm⟩ := decode_encodeI rs1 funct3 rd opLoad imm
      simp only [execInstr, Base.encode, hop, hrd, hf, hrs1, himm]
      rfl
  | store funct3 rs1 rs2 imm =>
      obtain ⟨hop, hf, hrs1, hrs2, himm⟩ := decode_encodeS rs2 rs1 funct3 opStore imm
      simp only [execInstr, Base.encode, hop, hf, hrs1, hrs2, himm]
      rfl
  | opImm funct3 rd rs1 imm =>
      obtain ⟨hop, hrd, hf, hrs1, himm⟩ := decode_encodeI rs1 funct3 rd opOpImm imm
      simp only [execInstr, Base.encode, hop, hrd, hf, hrs1, himm]
      rfl
  | opImm32 funct3 rd rs1 imm =>
      obtain ⟨hop, hrd, hf, hrs1, himm⟩ := decode_encodeI rs1 funct3 rd opOpImm32 imm
      simp only [execInstr, Base.encode, hop, hrd, hf, hrs1, himm]
      rfl
  | op funct7 funct3 rd rs1 rs2 =>
      obtain ⟨hop, hrd, hf, hrs1, hrs2, hf7⟩ := decode_encodeR funct7 rs2 rs1 funct3 rd opOp
      simp only [execInstr, Base.encode, hop, hrd, hf, hrs1, hrs2, hf7]
      rfl
  | op32 funct7 funct3 rd rs1 rs2 =>
      obtain ⟨hop, hrd, hf, hrs1, hrs2, hf7⟩ := decode_encodeR funct7 rs2 rs1 funct3 rd opOp32
      simp only [execInstr, Base.encode, hop, hrd, hf, hrs1, hrs2, hf7]
      rfl
  | lui rd imm =>
      obtain ⟨hop, hrd, himm⟩ := decode_encodeU rd opLui imm
      simp only [execInstr, Base.encode, hop, hrd, himm]
      rfl
  | jal rd imm =>
      obtain ⟨hop, hrd, himm⟩ := decode_encodeJ rd opJal imm
      simp only [execInstr, Base.encode, hop, hrd, himm]
      rfl
  | jalr rd rs1 imm =>
      obtain ⟨hop, hrd, hf, hrs1, himm⟩ := decode_encodeI rs1 0#3 rd opJalr imm
      simp only [execInstr, Base.encode, hop, hrd, hf, hrs1, himm]
      rfl
  | branch funct3 rs1 rs2 imm =>
      obtain ⟨hop, hf, hrs1, hrs2, himm⟩ := decode_encodeB rs2 rs1 funct3 opBranch imm
      simp only [execInstr, Base.encode, hop, hf, hrs1, hrs2, himm]
      rfl
  | ebreak =>
      obtain ⟨hop, hrd, hf, hrs1, himm⟩ := decode_encodeI x0 0#3 x0 opSystem 1#12
      simp only [execInstr, Base.encode, hop, hrd, hf, hrs1, himm]
      rfl

end RV640
