import RV640.Isa.Encoding

set_option autoImplicit false

/-! # The 32-bit instructions of an RV32 hart

RV32I, M, A with the byte and halfword operations of Zabha, Zicsr, Zifencei, the `cbo.zero` of
Zicboz and the trap instructions, with their encodings. FENCE and FENCE.I have fields that an
implementation ignores; they are arguments here.
-/

namespace Riscv

open Bits

def opMiscMem : BitVec 5 := 3#5
def opAuipc : BitVec 5 := 5#5
def opAmo : BitVec 5 := 11#5

/-! ## Operations -/

/-- The conditional branches. -/
inductive BranchOp where
  | beq | bne | blt | bge | bltu | bgeu
  deriving DecidableEq, Repr

def BranchOp.funct3 : BranchOp → BitVec 3
  | beq => 0#3
  | bne => 1#3
  | blt => 4#3
  | bge => 5#3
  | bltu => 6#3
  | bgeu => 7#3

/-- The loads of RV32. -/
inductive LoadOp where
  | lb | lh | lw | lbu | lhu
  deriving DecidableEq, Repr

def LoadOp.funct3 : LoadOp → BitVec 3
  | lb => 0#3
  | lh => 1#3
  | lw => 2#3
  | lbu => 4#3
  | lhu => 5#3

/-- The stores of RV32, and the widths of atomics. -/
inductive MemWidth where
  | byte | half | word
  deriving DecidableEq, Repr

def MemWidth.funct3 : MemWidth → BitVec 3
  | byte => 0#3
  | half => 1#3
  | word => 2#3

/-- The register-immediate operations with a 12-bit immediate. -/
inductive ImmOp where
  | addi | slti | sltiu | xori | ori | andi
  deriving DecidableEq, Repr

def ImmOp.funct3 : ImmOp → BitVec 3
  | addi => 0#3
  | slti => 2#3
  | sltiu => 3#3
  | xori => 4#3
  | ori => 6#3
  | andi => 7#3

/-- The shifts by an immediate amount. -/
inductive ShiftOp where
  | slli | srli | srai
  deriving DecidableEq, Repr

def ShiftOp.funct3 : ShiftOp → BitVec 3
  | slli => 1#3
  | srli => 5#3
  | srai => 5#3

def ShiftOp.funct7 : ShiftOp → BitVec 7
  | slli => 0#7
  | srli => 0#7
  | srai => 32#7

/-- The register-register operations: those of RV32I by `funct3`, subtraction and the arithmetic
shift, and those of M by `funct3`. -/
inductive RegOp where
  | base (funct3 : BitVec 3)
  | sub
  | sra
  | mulDiv (funct3 : BitVec 3)
  deriving DecidableEq, Repr

def RegOp.funct3 : RegOp → BitVec 3
  | base funct3 => funct3
  | sub => 0#3
  | sra => 5#3
  | mulDiv funct3 => funct3

def RegOp.funct7 : RegOp → BitVec 7
  | base _ => 0#7
  | sub => 32#7
  | sra => 32#7
  | mulDiv _ => 1#7

/-- The trap instructions. -/
inductive SystemOp where
  | ecall | ebreak | sret | wfi | mret
  deriving DecidableEq, Repr

def SystemOp.funct12 : SystemOp → BitVec 12
  | ecall => 0#12
  | ebreak => 1#12
  | sret => 0x102#12
  | wfi => 0x105#12
  | mret => 0x302#12

/-- The CSR instructions. -/
inductive CsrOp where
  | csrrw | csrrs | csrrc | csrrwi | csrrsi | csrrci
  deriving DecidableEq, Repr

def CsrOp.funct3 : CsrOp → BitVec 3
  | csrrw => 1#3
  | csrrs => 2#3
  | csrrc => 3#3
  | csrrwi => 5#3
  | csrrsi => 6#3
  | csrrci => 7#3

/-- The read-modify-write atomics. -/
inductive AmoOp where
  | amoadd | amoswap | amoxor | amoor | amoand | amomin | amomax | amominu | amomaxu
  deriving DecidableEq, Repr

def AmoOp.funct5 : AmoOp → BitVec 5
  | amoadd => 0#5
  | amoswap => 1#5
  | amoxor => 4#5
  | amoor => 8#5
  | amoand => 12#5
  | amomin => 16#5
  | amomax => 20#5
  | amominu => 24#5
  | amomaxu => 28#5

/-! The values the minor opcodes take. -/

theorem BranchOp.funct3_iff (f : BitVec 3) :
    (∃ o : BranchOp, o.funct3 = f) ↔ f ≠ 2#3 ∧ f ≠ 3#3 := by
  constructor
  · rintro ⟨o, rfl⟩
    cases o <;> decide
  · intro h
    have hf : f ∈ [0#3, 1#3, 4#3, 5#3, 6#3, 7#3] := by
      revert f
      decide
    simp only [List.mem_cons, List.not_mem_nil, or_false] at hf
    rcases hf with rfl | rfl | rfl | rfl | rfl | rfl
    exacts [⟨beq, rfl⟩, ⟨bne, rfl⟩, ⟨blt, rfl⟩, ⟨bge, rfl⟩, ⟨bltu, rfl⟩, ⟨bgeu, rfl⟩]

theorem LoadOp.funct3_iff (f : BitVec 3) :
    (∃ o : LoadOp, o.funct3 = f) ↔ f ∈ [0#3, 1#3, 2#3, 4#3, 5#3] := by
  constructor
  · rintro ⟨o, rfl⟩
    cases o <;> decide
  · intro hf
    simp only [List.mem_cons, List.not_mem_nil, or_false] at hf
    rcases hf with rfl | rfl | rfl | rfl | rfl
    exacts [⟨lb, rfl⟩, ⟨lh, rfl⟩, ⟨lw, rfl⟩, ⟨lbu, rfl⟩, ⟨lhu, rfl⟩]

theorem MemWidth.funct3_iff (f : BitVec 3) :
    (∃ o : MemWidth, o.funct3 = f) ↔ f ∈ [0#3, 1#3, 2#3] := by
  constructor
  · rintro ⟨o, rfl⟩
    cases o <;> decide
  · intro hf
    simp only [List.mem_cons, List.not_mem_nil, or_false] at hf
    rcases hf with rfl | rfl | rfl
    exacts [⟨byte, rfl⟩, ⟨half, rfl⟩, ⟨word, rfl⟩]

theorem ImmOp.funct3_iff (f : BitVec 3) :
    (∃ o : ImmOp, o.funct3 = f) ↔ f ≠ 1#3 ∧ f ≠ 5#3 := by
  constructor
  · rintro ⟨o, rfl⟩
    cases o <;> decide
  · intro h
    have hf : f ∈ [0#3, 2#3, 3#3, 4#3, 6#3, 7#3] := by
      revert f
      decide
    simp only [List.mem_cons, List.not_mem_nil, or_false] at hf
    rcases hf with rfl | rfl | rfl | rfl | rfl | rfl
    exacts [⟨addi, rfl⟩, ⟨slti, rfl⟩, ⟨sltiu, rfl⟩, ⟨xori, rfl⟩, ⟨ori, rfl⟩, ⟨andi, rfl⟩]

theorem SystemOp.funct12_iff (f : BitVec 12) :
    (∃ o : SystemOp, o.funct12 = f) ↔ f ∈ [0#12, 1#12, 0x102#12, 0x105#12, 0x302#12] := by
  constructor
  · rintro ⟨o, rfl⟩
    cases o <;> decide
  · intro hf
    simp only [List.mem_cons, List.not_mem_nil, or_false] at hf
    rcases hf with rfl | rfl | rfl | rfl | rfl
    exacts [⟨ecall, rfl⟩, ⟨ebreak, rfl⟩, ⟨sret, rfl⟩, ⟨wfi, rfl⟩, ⟨mret, rfl⟩]

theorem CsrOp.funct3_iff (f : BitVec 3) :
    (∃ o : CsrOp, o.funct3 = f) ↔ f ≠ 0#3 ∧ f ≠ 4#3 := by
  constructor
  · rintro ⟨o, rfl⟩
    cases o <;> decide
  · intro h
    have hf : f ∈ [1#3, 2#3, 3#3, 5#3, 6#3, 7#3] := by
      revert f
      decide
    simp only [List.mem_cons, List.not_mem_nil, or_false] at hf
    rcases hf with rfl | rfl | rfl | rfl | rfl | rfl
    exacts [⟨csrrw, rfl⟩, ⟨csrrs, rfl⟩, ⟨csrrc, rfl⟩, ⟨csrrwi, rfl⟩, ⟨csrrsi, rfl⟩, ⟨csrrci, rfl⟩]

theorem AmoOp.funct5_iff (f : BitVec 5) :
    (∃ o : AmoOp, o.funct5 = f)
      ↔ f ∈ [0#5, 1#5, 4#5, 8#5, 12#5, 16#5, 20#5, 24#5, 28#5] := by
  constructor
  · rintro ⟨o, rfl⟩
    cases o <;> decide
  · intro hf
    simp only [List.mem_cons, List.not_mem_nil, or_false] at hf
    rcases hf with rfl | rfl | rfl | rfl | rfl | rfl | rfl | rfl | rfl
    exacts [⟨amoadd, rfl⟩, ⟨amoswap, rfl⟩, ⟨amoxor, rfl⟩, ⟨amoor, rfl⟩, ⟨amoand, rfl⟩,
      ⟨amomin, rfl⟩, ⟨amomax, rfl⟩, ⟨amominu, rfl⟩, ⟨amomaxu, rfl⟩]

/-- `funct7` of an atomic: the operation, and the two ordering bits. -/
def amoFunct7 (funct5 : BitVec 5) (aqrl : BitVec 2) : BitVec 7 := place funct5 2 ||| place aqrl 0

/-! ## Instructions -/

/-- The instructions. The source operand of a CSR instruction is a register or an immediate of the
same width. -/
inductive Rv32 where
  | lui (rd : RegNo) (imm : BitVec 20)
  | auipc (rd : RegNo) (imm : BitVec 20)
  | jal (rd : RegNo) (imm : BitVec 20)
  | jalr (rd rs1 : RegNo) (imm : BitVec 12)
  | branch (op : BranchOp) (rs1 rs2 : RegNo) (imm : BitVec 12)
  | load (op : LoadOp) (rd rs1 : RegNo) (imm : BitVec 12)
  | store (width : MemWidth) (rs1 rs2 : RegNo) (imm : BitVec 12)
  | opImm (op : ImmOp) (rd rs1 : RegNo) (imm : BitVec 12)
  | shiftImm (op : ShiftOp) (rd rs1 : RegNo) (shamt : BitVec 5)
  | op (op : RegOp) (rd rs1 rs2 : RegNo)
  | fence (rd rs1 : RegNo) (imm : BitVec 12)
  | fenceI (rd rs1 : RegNo) (imm : BitVec 12)
  | cboZero (rs1 : RegNo)
  | system (op : SystemOp)
  | csr (op : CsrOp) (rd src : RegNo) (no : BitVec 12)
  | lr (aqrl : BitVec 2) (rd rs1 : RegNo)
  | sc (aqrl : BitVec 2) (rd rs1 rs2 : RegNo)
  | amo (op : AmoOp) (width : MemWidth) (aqrl : BitVec 2) (rd rs1 rs2 : RegNo)

namespace Rv32

/-- The instruction word. -/
def encode : Rv32 → BitVec 32
  | lui rd imm => encodeU imm rd opLui
  | auipc rd imm => encodeU imm rd opAuipc
  | jal rd imm => encodeJ imm rd opJal
  | jalr rd rs1 imm => encodeI imm rs1 0#3 rd opJalr
  | branch o rs1 rs2 imm => encodeB imm rs2 rs1 o.funct3 opBranch
  | load o rd rs1 imm => encodeI imm rs1 o.funct3 rd opLoad
  | store width rs1 rs2 imm => encodeS imm rs2 rs1 width.funct3 opStore
  | opImm o rd rs1 imm => encodeI imm rs1 o.funct3 rd opOpImm
  | shiftImm o rd rs1 shamt => encodeR o.funct7 shamt rs1 o.funct3 rd opOpImm
  | op o rd rs1 rs2 => encodeR o.funct7 rs2 rs1 o.funct3 rd opOp
  | fence rd rs1 imm => encodeI imm rs1 0#3 rd opMiscMem
  | fenceI rd rs1 imm => encodeI imm rs1 1#3 rd opMiscMem
  | cboZero rs1 => encodeI 4#12 rs1 2#3 x0 opMiscMem
  | system o => encodeI o.funct12 x0 0#3 x0 opSystem
  | csr o rd src no => encodeI no src o.funct3 rd opSystem
  | lr aqrl rd rs1 => encodeR (amoFunct7 2#5 aqrl) x0 rs1 2#3 rd opAmo
  | sc aqrl rd rs1 rs2 => encodeR (amoFunct7 3#5 aqrl) rs2 rs1 2#3 rd opAmo
  | amo o width aqrl rd rs1 rs2 =>
      encodeR (amoFunct7 o.funct5 aqrl) rs2 rs1 width.funct3 rd opAmo

end Rv32

/-- The word is the encoding of an instruction. -/
def IsRv32 (w : BitVec 32) : Prop := ∃ i : Rv32, i.encode = w

end Riscv
