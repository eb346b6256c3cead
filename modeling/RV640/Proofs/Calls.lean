import RV640.Cpu.Run

set_option autoImplicit false

/-! # The calls of the jump tables

Every entry of the jump tables ends in a call of one handler, with operands cut out of the
instruction word. A `Call` is a handler with its operands; an instruction makes the same call in
every state. What holds of each handler, for all operands, holds of every instruction.
-/

namespace RV640

open Bits

variable {c : Cfg}

/-- A handler and its operands. `_cextNop` is `nop`, `_doILL` is `ill`. -/
inductive Call where
  | opImm (funct3 : BitVec 3) (iimm : BitVec 32) (rd rs1 : Reg)
  | opImm32 (funct3 : BitVec 3) (iimm : BitVec 32) (rd rs1 : Reg)
  | op (funct3 : BitVec 3) (funct7 : BitVec 7) (rd rs1 rs2 : Reg)
  | op32 (funct3 : BitVec 3) (funct7 : BitVec 7) (rd rs1 rs2 : Reg)
  | lui (uimm : BitVec 32) (rd : Reg)
  | auipc (uimm : BitVec 32) (rd : Reg)
  | jal (jimm : BitVec 32) (rd : Reg)
  | jalr (funct3 : BitVec 3) (iimm : BitVec 32) (rd rs1 : Reg)
  | branch (funct3 : BitVec 3) (bimm : BitVec 32) (rs1 rs2 : Reg)
  | system (funct3 : BitVec 3) (iimm : BitVec 32) (rd rs1 : Reg)
  | load (funct3 : BitVec 3) (iimm : BitVec 32) (rd rs1 : Reg)
  | store (funct3 : BitVec 3) (simm : BitVec 32) (rs1 rs2 : Reg)
  | miscMem (funct3 : BitVec 3) (iimm : BitVec 32) (rd rs1 : Reg)
  | amo (funct3 : BitVec 3) (funct5 : BitVec 5) (rd rs1 rs2 : Reg)
  | nop
  | ill

namespace Call

/-- The call, for an instruction of `size` bytes. -/
def exec (m : Machine c) (size : Int) : Call → Machine c
  | opImm funct3 iimm rd rs1 => { m with cpu := doOPIMM m.cpu funct3 iimm rd rs1 }
  | opImm32 funct3 iimm rd rs1 => { m with cpu := doOPIMM32 m.cpu funct3 iimm rd rs1 }
  | op funct3 funct7 rd rs1 rs2 => { m with cpu := doOP m.cpu funct3 funct7 rd rs1 rs2 }
  | op32 funct3 funct7 rd rs1 rs2 => { m with cpu := doOP32 m.cpu funct3 funct7 rd rs1 rs2 }
  | lui uimm rd => { m with cpu := doLUI m.cpu uimm rd }
  | auipc uimm rd => { m with cpu := doAUIPC m.cpu uimm rd }
  | jal jimm rd => { m with cpu := doJAL m.cpu jimm rd size }
  | jalr funct3 iimm rd rs1 => { m with cpu := doJALR m.cpu funct3 iimm rd rs1 size }
  | branch funct3 bimm rs1 rs2 => { m with cpu := doBRANCH m.cpu funct3 bimm rs1 rs2 size }
  | system funct3 iimm rd rs1 =>
      { m with cpu := doSYSTEM m.cpu m.aclint.mtime funct3 iimm rd rs1 size }
  | load funct3 iimm rd rs1 => doLOAD m funct3 iimm rd rs1
  | store funct3 simm rs1 rs2 => doSTORE m funct3 simm rs1 rs2
  | miscMem funct3 iimm rd rs1 => doMISCMEM m funct3 iimm rd rs1
  | amo funct3 funct5 rd rs1 rs2 => doAMO m funct3 funct5 rd rs1 rs2
  | nop => m
  | ill => { m with cpu := doILL m.cpu }

/-- The word is a 32-bit SYSTEM instruction with these fields. -/
def IsSystem (w : BitVec 32) (funct3 : BitVec 3) (iimm : BitVec 32) : Prop :=
  w.extractLsb' 0 2 = 3#2 ∧ opcode w = 28#5 ∧ decodeFunct3 w = funct3 ∧ decodeIimm w = iimm

/-- What the call has of the instruction `w`: the offset of a jump or a branch is even, and a SYSTEM
call is the one of `w` or C.EBREAK. -/
def Fits (w : BitVec 32) : Call → Prop
  | jal jimm _ => jimm.getLsbD 0 = false
  | branch _ bimm _ _ => bimm.getLsbD 0 = false
  | system funct3 iimm _ _ => IsSystem w funct3 iimm ∨ funct3 = 0#3 ∧ iimm = 1#32
  | _ => True

end Call

/-- From `m` to `a` and from `m'` to `b` the instruction `w` made the same call. -/
def SameCall (w : BitVec 32) (size : Int) (m m' a b : Machine c) : Prop :=
  ∃ k : Call, k.Fits w ∧ a = k.exec m size ∧ b = k.exec m' size

theorem SameCall.of_call {w : BitVec 32} {size : Int} {m m' : Machine c} (k : Call)
    (h : k.Fits w) : SameCall w size m m' (k.exec m size) (k.exec m' size) := ⟨k, h, rfl, rfl⟩

/-! ## Offsets -/

theorem decodeJimm_even (w : BitVec 32) : (decodeJimm w).getLsbD 0 = false := by
  simp [decodeJimm]

theorem decodeBimm_even (w : BitVec 32) : (decodeBimm w).getLsbD 0 = false := by
  simp [decodeBimm]

theorem cextJumpOffset_even (instr : BitVec 32) : (cextJumpOffset instr).getLsbD 0 = false := by
  rw [cextJumpOffset, getLsbD_signExtend _ 11 0 (by decide)]
  simp [assemble11]

theorem cextBranchOffset_even (instr : BitVec 32) :
    (cextBranchOffset instr).getLsbD 0 = false := by
  rw [cextBranchOffset, getLsbD_signExtend _ 8 0 (by decide)]
  simp

/-! ## The tables -/

section Tables

variable (m m' : Machine c)

theorem execInstr_call (w : BitVec 32) (hq : w.extractLsb' 0 2 = 3#2) :
    SameCall w 4 m m' (execInstr m w) (execInstr m' w) := by
  simp only [execInstr]
  split
  · exact .of_call (.load _ _ _ _) trivial
  · exact .of_call (.miscMem _ _ _ _) trivial
  · exact .of_call (.opImm _ _ _ _) trivial
  · exact .of_call (.auipc _ _) trivial
  · split
    · exact .of_call (.opImm32 _ _ _ _) trivial
    · exact .of_call .ill trivial
  · exact .of_call (.store _ _ _ _) trivial
  · exact .of_call (.amo _ _ _ _ _) trivial
  · exact .of_call (.op _ _ _ _ _) trivial
  · exact .of_call (.lui _ _) trivial
  · split
    · exact .of_call (.op32 _ _ _ _ _) trivial
    · exact .of_call .ill trivial
  · exact .of_call (.branch _ _ _ _) (decodeBimm_even w)
  · exact .of_call (.jalr _ _ _ _) trivial
  · exact .of_call (.jal _ _) (decodeJimm_even w)
  · rename_i hop
    exact .of_call (.system _ _ _ _) (Or.inl ⟨hq, hop, rfl, rfl⟩)
  · exact .of_call .ill trivial

variable (w instr : BitVec 32)

theorem decodeCextQ1_3_call :
    SameCall w 2 m m' (decodeCextQ1_3 m instr) (decodeCextQ1_3 m' instr) := by
  simp only [decodeCextQ1_3]
  split
  · split
    · split
      · exact .of_call (.opImm _ _ _ _) trivial
      · exact .of_call .ill trivial
    · split
      · exact .of_call (.lui _ _) trivial
      · exact .of_call .ill trivial
  · exact .of_call .nop trivial

theorem decodeCextQ1_4_call :
    SameCall w 2 m m' (decodeCextQ1_4 m instr) (decodeCextQ1_4 m' instr) := by
  simp only [decodeCextQ1_4]
  split
  · exact .of_call (.opImm _ _ _ _) trivial
  · exact .of_call (.opImm _ _ _ _) trivial
  · split
    · split
      · split
        · exact .of_call (.op32 _ _ _ _ _) trivial
        · exact .of_call .ill trivial
        · exact .of_call .ill trivial
        · exact .of_call (.op32 _ _ _ _ _) trivial
      · exact .of_call .ill trivial
    · split <;> exact .of_call (.op _ _ _ _ _) trivial
  · exact .of_call (.opImm _ _ _ _) trivial

theorem decodeCextQ2_4_call :
    SameCall w 2 m m' (decodeCextQ2_4 m instr) (decodeCextQ2_4 m' instr) := by
  simp only [decodeCextQ2_4]
  split
  · split
    · split
      · exact .of_call (.op _ _ _ _ _) trivial
      · exact .of_call .nop trivial
    · split
      · exact .of_call (.jalr _ _ _ _) trivial
      · exact .of_call (.system _ _ _ _) (Or.inr ⟨rfl, rfl⟩)
  · split
    · split
      · exact .of_call (.op _ _ _ _ _) trivial
      · exact .of_call .nop trivial
    · split
      · exact .of_call (.jalr _ _ _ _) trivial
      · exact .of_call .ill trivial

theorem cextTable_call (q : BitVec 2) (funct3 : BitVec 3) :
    SameCall w 2 m m' (cextTable m instr q funct3) (cextTable m' instr q funct3) := by
  unfold cextTable
  split
  · simp only [decodeCextQ0_0]
    split
    · exact .of_call (.opImm _ _ _ _) trivial
    · exact .of_call .ill trivial
  · exact .of_call (.load _ _ _ _) trivial
  · unfold decodeCextQ0_3
    split
    · exact .of_call (.load _ _ _ _) trivial
    · exact .of_call .ill trivial
  · exact .of_call (.store _ _ _ _) trivial
  · unfold decodeCextQ0_7
    split
    · exact .of_call (.store _ _ _ _) trivial
    · exact .of_call .ill trivial
  · simp only [decodeCextQ1_0]
    split
    · split
      · exact .of_call (.opImm _ _ _ _) trivial
      · exact .of_call .nop trivial
    · exact .of_call .nop trivial
  · simp only [decodeCextQ1_1]
    split
    · split
      · exact .of_call (.opImm32 _ _ _ _) trivial
      · exact .of_call .ill trivial
    · exact .of_call (.jal _ _) (cextJumpOffset_even instr)
  · simp only [decodeCextQ1_2]
    split
    · exact .of_call (.opImm _ _ _ _) trivial
    · exact .of_call .nop trivial
  · exact decodeCextQ1_3_call m m' w instr
  · exact decodeCextQ1_4_call m m' w instr
  · exact .of_call (.jal _ _) (cextJumpOffset_even instr)
  · exact .of_call (.branch _ _ _ _) (cextBranchOffset_even instr)
  · exact .of_call (.branch _ _ _ _) (cextBranchOffset_even instr)
  · simp only [decodeCextQ2_0]
    split
    · exact .of_call (.opImm _ _ _ _) trivial
    · exact .of_call .nop trivial
  · simp only [decodeCextQ2_2]
    split
    · exact .of_call (.load _ _ _ _) trivial
    · exact .of_call .ill trivial
  · simp only [decodeCextQ2_3]
    split
    · split
      · exact .of_call (.load _ _ _ _) trivial
      · exact .of_call .ill trivial
    · exact .of_call .ill trivial
  · exact decodeCextQ2_4_call m m' w instr
  · exact .of_call (.store _ _ _ _) trivial
  · unfold decodeCextQ2_7
    split
    · exact .of_call (.store _ _ _ _) trivial
    · exact .of_call .ill trivial
  · exact .of_call .ill trivial

/-- **The instruction of `rv_run` is one call and a PC update**, the same in every state. -/
theorem rvExec_call :
    ∃ (k : Call) (size : Nat), (size = 2 ∨ size = 4) ∧ k.Fits w
      ∧ rvExec m w = advancePC (k.exec m size) size
      ∧ rvExec m' w = advancePC (k.exec m' size) size := by
  unfold rvExec execCext
  by_cases hq : w.extractLsb' 0 2 = 3#2
  · obtain ⟨k, hk, h, h'⟩ := execInstr_call m m' w hq
    refine ⟨k, 4, Or.inr rfl, hk, ?_, ?_⟩
    · simp only [if_pos hq, h]
      rfl
    · simp only [if_pos hq, h']
      rfl
  · obtain ⟨k, hk, h, h'⟩ := cextTable_call m m' w (w &&& 0xFFFF#32) (w.extractLsb' 0 2)
      (w.extractLsb' 13 3)
    refine ⟨k, 2, Or.inl rfl, hk, ?_, ?_⟩
    · simp only [if_neg hq, h]
      rfl
    · simp only [if_neg hq, h']
      rfl

end Tables

end RV640
