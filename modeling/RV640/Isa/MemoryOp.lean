import RV640.Isa.Compressed
import RV640.Isa.Rv32

set_option autoImplicit false

/-! # The memory instructions

Loads, stores, the atomics of A and Zabha and `cbo.zero`, on RV32 and RV64, with the exceptions that
the privileged specification assigns to them: those of a load for the instructions that only read,
those of a store for all the others. Compressed loads and stores stand for base instructions.
-/

namespace Riscv

open Bits

/-- The memory instructions. `funct3` is the width of the access, and of a load its signedness. -/
inductive MemOp where
  | load (funct3 : BitVec 3) (rd rs1 : RegNo) (imm : BitVec 12)
  | store (funct3 : BitVec 3) (rs1 rs2 : RegNo) (imm : BitVec 12)
  | lr (funct3 : BitVec 3) (aqrl : BitVec 2) (rd rs1 : RegNo)
  | sc (funct3 : BitVec 3) (aqrl : BitVec 2) (rd rs1 rs2 : RegNo)
  | amo (op : AmoOp) (funct3 : BitVec 3) (aqrl : BitVec 2) (rd rs1 rs2 : RegNo)
  | cboZero (rs1 : RegNo)
  deriving DecidableEq, Repr

namespace MemOp

/-- The instruction word. -/
def encode : MemOp → BitVec 32
  | load funct3 rd rs1 imm => encodeI imm rs1 funct3 rd opLoad
  | store funct3 rs1 rs2 imm => encodeS imm rs2 rs1 funct3 opStore
  | lr funct3 aqrl rd rs1 => encodeR (amoFunct7 2#5 aqrl) x0 rs1 funct3 rd opAmo
  | sc funct3 aqrl rd rs1 rs2 => encodeR (amoFunct7 3#5 aqrl) rs2 rs1 funct3 rd opAmo
  | amo o funct3 aqrl rd rs1 rs2 => encodeR (amoFunct7 o.funct5 aqrl) rs2 rs1 funct3 rd opAmo
  | cboZero rs1 => encodeI 4#12 rs1 2#3 x0 opMiscMem

/-- The widths there are: doublewords and LWU on RV64 only, LR and SC of no less than a word. -/
def legal (rv64 : Bool) : MemOp → Bool
  | load funct3 _ _ _ => [0#3, 1#3, 2#3, 4#3, 5#3].contains funct3
      || rv64 && [3#3, 6#3].contains funct3
  | store funct3 _ _ _ => [0#3, 1#3, 2#3].contains funct3 || rv64 && funct3 == 3#3
  | lr funct3 _ _ _ => funct3 == 2#3 || rv64 && funct3 == 3#3
  | sc funct3 _ _ _ _ => funct3 == 2#3 || rv64 && funct3 == 3#3
  | amo _ funct3 _ _ _ _ => [0#3, 1#3, 2#3].contains funct3 || rv64 && funct3 == 3#3
  | cboZero _ => true

/-- The base instructions that access memory. -/
def ofBase : Base → Option MemOp
  | .load funct3 rd rs1 imm => some (load funct3 rd rs1 imm)
  | .store funct3 rs1 rs2 imm => some (store funct3 rs1 rs2 imm)
  | _ => none

/-- The word holds the instruction: a legal encoding of 32 bits, or in its low half one of 16. -/
def Holds (rv64 : Bool) (w : BitVec 32) (i : MemOp) : Prop :=
  i.encode = w ∧ i.legal rv64 = true ∨ (expand rv64 (w.setWidth 16)).bind ofBase = some i

/-! ## Exceptions -/

/-- The instruction only reads memory. -/
def isLoad : MemOp → Bool
  | load _ _ _ _ => true
  | lr _ _ _ _ => true
  | _ => false

/-- The instruction requires an aligned address. -/
def isAtomic : MemOp → Bool
  | lr _ _ _ _ => true
  | sc _ _ _ _ _ => true
  | amo _ _ _ _ _ _ => true
  | _ => false

/-! ## Compressed instructions -/

theorem expandAlu_ofBase (rv64 : Bool) (h : BitVec 16) : (expandAlu rv64 h).bind ofBase = none := by
  unfold expandAlu
  simp only
  split
  · split
    · rfl
    · split <;> rfl
  · split
    · rfl
    · split <;> rfl
  · rfl
  · split <;> first | rfl | (split <;> rfl)

theorem expandJumpMove_ofBase (h : BitVec 16) : (expandJumpMove h).bind ofBase = none := by
  unfold expandJumpMove
  simp only
  split
  · split
    · split <;> rfl
    · split <;> rfl
  · split
    · split <;> rfl
    · split <;> rfl

/-- The loads and stores that 16-bit instructions stand for exist. -/
theorem legal_of_expand {rv64 : Bool} {h : BitVec 16} {i : MemOp}
    (hi : (expand rv64 h).bind ofBase = some i) : i.legal rv64 = true := by
  unfold expand at hi
  split at hi
  case h_10 =>
    rw [expandAlu_ofBase] at hi
    cases hi
  case h_17 =>
    rw [expandJumpMove_ofBase] at hi
    cases hi
  case h_2 | h_4 | h_18 =>
    -- a word
    obtain rfl := Option.some.inj hi
    rfl
  case h_3 | h_5 | h_19 =>
    -- a doubleword
    split at hi
    · rename_i hrv
      obtain rfl := Option.some.inj hi
      rw [hrv]
      rfl
    · cases hi
  case h_15 =>
    split at hi
    · cases hi
    · obtain rfl := Option.some.inj hi
      rfl
  case h_16 =>
    split at hi
    · rename_i hrv
      split at hi
      · cases hi
      · obtain rfl := Option.some.inj hi
        rw [hrv]
        rfl
    · cases hi
  -- the others access no memory
  all_goals first
    | cases hi
    | (split at hi <;> first
        | cases hi
        | (split at hi <;> first | cases hi | (split at hi <;> cases hi)))

theorem Holds.legal {rv64 : Bool} {w : BitVec 32} {i : MemOp} (h : Holds rv64 w i) :
    i.legal rv64 = true := by
  rcases h with ⟨-, hlegal⟩ | hexpand
  · exact hlegal
  · exact legal_of_expand hexpand

end MemOp

end Riscv
