import RV640.Lib.HostDiv
import RV640.Proofs.Decoding
import RV640.Proofs.WordOps

set_option autoImplicit false

/-! # Division

The eight division instructions, as four pairs of a quotient and a remainder: signed or unsigned,
at the width of the registers or on their low 32 bits. `hostQuotient` and `hostRemainder` are the
branches of the emulator over the operators of the host as they are, partial: a division that the
host does not define has no result.
-/

namespace RV640

open Bits Riscv HostDiv WordInstr

variable {c : Cfg}

/-! ## The C expressions -/

/-- The quotient as `_doOP` and `_doOP32` compute it. -/
def hostQuotient {w : Nat} (signed : Bool) (rs1Val rs2Val : BitVec w) : Option (BitVec w) :=
  if signed then divSignedWith some HostDiv.sdiv rs1Val rs2Val
  else divUnsignedWith some HostDiv.udiv rs1Val rs2Val

/-- The remainder as `_doOP` and `_doOP32` compute it. -/
def hostRemainder {w : Nat} (signed : Bool) (rs1Val rs2Val : BitVec w) : Option (BitVec w) :=
  if signed then remSignedWith some HostDiv.srem rs1Val rs2Val
  else remUnsignedWith some HostDiv.umod rs1Val rs2Val

section

variable {w : Nat}

/-- The guards of the source leave out what the host does not define. -/
theorem signedUndefined_iff (a b : BitVec w) :
    SignedUndefined a b ↔ b = 0#w ∨ (a = bit (w - 1) ∧ b = BitVec.allOnes w) := by
  rw [SignedUndefined, BitVec.neg_one_eq_allOnes]
  rfl

/-- Past the guards, the signed operators are defined. -/
theorem signed_defined {a b : BitVec w} (hb : b ≠ 0#w)
    (hover : ¬ (a = bit (w - 1) ∧ b = BitVec.allOnes w)) : ¬ SignedUndefined a b := by
  rw [signedUndefined_iff]
  exact not_or.mpr ⟨hb, hover⟩

theorem hostQuotient_signed (a b : BitVec w) : hostQuotient true a b = some (divSigned a b) := by
  by_cases hb : b = 0#w
  · simp [hostQuotient, divSignedWith, divSigned_def, hb]
  by_cases hover : a = bit (w - 1) ∧ b = BitVec.allOnes w
  · simp [hostQuotient, divSignedWith, divSigned_def, hb, if_pos hover]
  · simp [hostQuotient, divSignedWith, divSigned_def, HostDiv.sdiv, hb, if_neg hover,
      signed_defined hb hover]

theorem hostQuotient_unsigned (a b : BitVec w) :
    hostQuotient false a b = some (divUnsigned a b) := by
  by_cases hb : b = 0#w
  · simp [hostQuotient, divUnsignedWith, divUnsigned_def, hb]
  · simp [hostQuotient, divUnsignedWith, divUnsigned_def, HostDiv.udiv, hb]

theorem hostRemainder_signed (a b : BitVec w) : hostRemainder true a b = some (remSigned a b) := by
  by_cases hb : b = 0#w
  · simp [hostRemainder, remSignedWith, remSigned_def, hb]
  by_cases hover : a = bit (w - 1) ∧ b = BitVec.allOnes w
  · simp [hostRemainder, remSignedWith, remSigned_def, hb, if_pos hover]
  · simp [hostRemainder, remSignedWith, remSigned_def, HostDiv.srem, hb, if_neg hover,
      signed_defined hb hover]

theorem hostRemainder_unsigned (a b : BitVec w) :
    hostRemainder false a b = some (remUnsigned a b) := by
  by_cases hb : b = 0#w
  · simp [hostRemainder, remUnsignedWith, remUnsigned_def, hb]
  · simp [hostRemainder, remUnsignedWith, remUnsigned_def, HostDiv.umod, hb]

/-! ## Quotient and remainder together -/

/-- What a quotient `q` and a remainder `r` of `a` by `b` have to obey. -/
structure DivisionOk (signed : Bool) (a b q r : BitVec w) : Prop where
  law : a = q * b + r
  trunc : b ≠ 0#w → ¬ (signed = true ∧ a = BitVec.intMin w ∧ b = -1#w) → Quotient signed a b q r
  zero : b = 0#w → q = ~~~0#w ∧ r = a

/-- The overflowing division has the result that the words wrap to. -/
theorem divSigned_eq (a : BitVec w) {b : BitVec w} (hb : b ≠ 0#w) :
    divSigned a b = a.sdiv b := by
  by_cases hover : a = bit (w - 1) ∧ b = BitVec.allOnes w
  · obtain ⟨rfl, rfl⟩ := hover
    have h : (bit (w - 1) : BitVec w).sdiv (BitVec.allOnes w) = bit (w - 1) := by
      rw [← BitVec.neg_one_eq_allOnes]
      exact BitVec.intMin_sdiv_neg_one
    rw [divSigned_def, if_pos (bne_iff_ne.mpr hb), if_pos (by simp), h]
  · simp [divSigned_def, hb, if_neg hover]

theorem remSigned_eq (a : BitVec w) {b : BitVec w} (hb : b ≠ 0#w) :
    remSigned a b = a.srem b := by
  by_cases hover : a = bit (w - 1) ∧ b = BitVec.allOnes w
  · obtain ⟨rfl, rfl⟩ := hover
    have h : (bit (w - 1) : BitVec w).srem (BitVec.allOnes w) = 0#w := by
      have hlaw := sdiv_mul_add_srem (BitVec.intMin w) (-1#w)
      rw [BitVec.intMin_sdiv_neg_one, BitVec.mul_neg, BitVec.mul_one, BitVec.neg_intMin,
        BitVec.neg_one_eq_allOnes] at hlaw
      exact BitVec.add_right_eq_self.mp hlaw
    rw [remSigned_def, if_pos (bne_iff_ne.mpr hb), if_pos (by simp), h]
  · simp [remSigned_def, hb, if_neg hover]

theorem divisionOk_signed (a b : BitVec w) :
    DivisionOk true a b (divSigned a b) (remSigned a b) := by
  constructor
  · by_cases hb : b = 0#w
    · simp [divSigned_def, remSigned_def, hb]
    · rw [divSigned_eq a hb, remSigned_eq a hb, sdiv_mul_add_srem]
  · intro hb hover
    rw [divSigned_eq a hb, remSigned_eq a hb]
    apply quotient_signed
    rintro (hz | hmin)
    · exact hb hz
    · exact hover ⟨rfl, hmin⟩
  · rintro rfl
    simp [divSigned_def, remSigned_def]

theorem divisionOk_unsigned (a b : BitVec w) :
    DivisionOk false a b (divUnsigned a b) (remUnsigned a b) := by
  constructor
  · by_cases hb : b = 0#w
    · simp [divUnsigned_def, remUnsigned_def, hb]
    · have h := udiv_mul_add_umod a b
      simp only [divUnsigned_def, remUnsigned_def, bne_iff_ne, ne_eq, hb, not_false_eq_true, if_true,
        h]
  · intro hb _
    simp only [divUnsigned_def, remUnsigned_def, bne_iff_ne, ne_eq, hb, not_false_eq_true, if_true]
    exact quotient_unsigned a hb
  · rintro rfl
    simp [divUnsigned_def, remUnsigned_def]

end

/-! ## The instructions -/

/-- DIV and REM, DIVU and REMU, DIVW and REMW, DIVUW and REMUW. -/
structure DivPair where
  signed : Bool
  word : Bool
  deriving DecidableEq, Repr

namespace DivPair

variable (p : DivPair)

/-- Bits of the operands. -/
def width (c : Cfg) : DivPair → Nat
  | ⟨_, true⟩ => 32
  | ⟨_, false⟩ => c.xlen

/-- The operand in a register. -/
def operand (self : Cpu c) (r : Reg) : BitVec (p.width c) := (readReg self r).setWidth _

/-- The instruction of the quotient. -/
def quotientInstr (rd rs1 rs2 : RegNo) : Base :=
  let funct3 := if p.signed then 4#3 else 5#3
  if p.word then .op32 1#7 funct3 rd rs1 rs2 else .op 1#7 funct3 rd rs1 rs2

/-- The instruction of the remainder. -/
def remainderInstr (rd rs1 rs2 : RegNo) : Base :=
  let funct3 := if p.signed then 6#3 else 7#3
  if p.word then .op32 1#7 funct3 rd rs1 rs2 else .op 1#7 funct3 rd rs1 rs2

/-- The quotient of the source. -/
def quotient {w : Nat} (a b : BitVec w) : BitVec w :=
  if p.signed then divSigned a b else divUnsigned a b

/-- The remainder of the source. -/
def remainder {w : Nat} (a b : BitVec w) : BitVec w :=
  if p.signed then remSigned a b else remUnsigned a b

theorem host {w : Nat} (a b : BitVec w) :
    hostQuotient p.signed a b = some (p.quotient a b)
      ∧ hostRemainder p.signed a b = some (p.remainder a b) := by
  rcases p with ⟨signed, word⟩
  cases signed with
  | true => exact ⟨hostQuotient_signed a b, hostRemainder_signed a b⟩
  | false => exact ⟨hostQuotient_unsigned a b, hostRemainder_unsigned a b⟩

theorem ok {w : Nat} (a b : BitVec w) :
    DivisionOk p.signed a b (p.quotient a b) (p.remainder a b) := by
  rcases p with ⟨signed, word⟩
  cases signed with
  | true => exact divisionOk_signed a b
  | false => exact divisionOk_unsigned a b

end DivPair

/-- The word divisions by zero write all ones at full width, which is the extension of a word of
ones. -/
theorem wordQuotient (q b : BitVec 32) (hq : b = 0#32 → q = ~~~0#32) :
    (if b != 0#32 then extendW q else cpuUintMax : Word c) = q.signExtend c.xlen := by
  by_cases hb : b = 0#32
  · have hones : (cpuUintMax : Word c) = (~~~0#32 : BitVec 32).signExtend c.xlen := by
      cases c <;> decide
    simp [hb, hq hb, hones]
  · simp [hb, extendW_eq]

/-- The quotient that an instruction writes. -/
theorem exec_quotientInstr (m : Machine c) (p : DivPair) (hp : p.word = true → c.isRv64 = true)
    (rd rs1 rs2 : RegNo) :
    execInstr m (p.quotientInstr rd rs1 rs2).encode
      = { m with
          cpu := writeReg m.cpu rd
            ((p.quotient (p.operand m.cpu rs1) (p.operand m.cpu rs2)).signExtend c.xlen) } := by
  rw [execInstr_encode]
  rcases p with ⟨signed, word⟩
  cases word with
  | false =>
      simp only [DivPair.operand, DivPair.width, BitVec.setWidth_eq, BitVec.signExtend_eq]
      cases signed <;> rfl
  | true =>
      have hword := wordQuotient (c := c)
        (DivPair.quotient ⟨signed, true⟩ (lowHalf m.cpu rs1) (lowHalf m.cpu rs2))
        (lowHalf m.cpu rs2) fun hb => ((DivPair.ok _ _ _).zero hb).1
      refine Eq.trans ?_ (congrArg (fun v => { m with cpu := writeReg m.cpu rd v }) hword)
      simp only [DivPair.quotientInstr, execBase, hp rfl, if_true]
      cases signed <;> rfl

/-- The remainder that an instruction writes. -/
theorem exec_remainderInstr (m : Machine c) (p : DivPair) (hp : p.word = true → c.isRv64 = true)
    (rd rs1 rs2 : RegNo) :
    execInstr m (p.remainderInstr rd rs1 rs2).encode
      = { m with
          cpu := writeReg m.cpu rd
            ((p.remainder (p.operand m.cpu rs1) (p.operand m.cpu rs2)).signExtend c.xlen) } := by
  rw [execInstr_encode]
  rcases p with ⟨signed, word⟩
  cases word with
  | false =>
      simp only [DivPair.operand, DivPair.width, BitVec.setWidth_eq, BitVec.signExtend_eq]
      cases signed <;> rfl
  | true =>
      have hword := extendW_eq (c := c)
        (DivPair.remainder ⟨signed, true⟩ (lowHalf m.cpu rs1) (lowHalf m.cpu rs2))
      refine Eq.trans ?_ (congrArg (fun v => { m with cpu := writeReg m.cpu rd v }) hword)
      simp only [DivPair.remainderInstr, execBase, hp rfl, if_true]
      cases signed <;> rfl

/-- **Division is total and correct.** The host divides only what C defines, and the results that
the matching instructions write, extended to the register width, are a quotient and a remainder of
the operands; a division by zero yields all ones and the dividend. -/
theorem division_total (m : Machine c) (p : DivPair) (hp : p.word = true → c.isRv64 = true)
    (rd rd' rs1 rs2 : RegNo) :
    ∃ q r : BitVec (p.width c),
      hostQuotient p.signed (p.operand m.cpu rs1) (p.operand m.cpu rs2) = some q
        ∧ hostRemainder p.signed (p.operand m.cpu rs1) (p.operand m.cpu rs2) = some r
        ∧ execInstr m (p.quotientInstr rd rs1 rs2).encode
          = { m with cpu := writeReg m.cpu rd (q.signExtend c.xlen) }
        ∧ execInstr m (p.remainderInstr rd' rs1 rs2).encode
          = { m with cpu := writeReg m.cpu rd' (r.signExtend c.xlen) }
        ∧ DivisionOk p.signed (p.operand m.cpu rs1) (p.operand m.cpu rs2) q r :=
  ⟨_, _, (p.host _ _).1, (p.host _ _).2, exec_quotientInstr m p hp rd rs1 rs2,
    exec_remainderInstr m p hp rd' rs1 rs2, p.ok _ _⟩

/-- A machine whose registers `x1` and `x2` hold the least 32-bit integer and -1. -/
def divMachine : Machine .rv64 :=
  { vmInit (mainBus .rv64 0) ⟨fun _ => 0#8⟩ false with
    cpu := { (rvInit false : Cpu .rv64) with
      regs := fun r => if r = 1#5 then 0x80000000#64 else if r = 2#5 then ~~~0#64 else 0#64 } }

theorem division_total_divw :
    Cfg.rv64.isRv64 = true
      ∧ ∃ q r : BitVec 32,
        hostQuotient true (DivPair.operand ⟨true, true⟩ divMachine.cpu 1#5)
            (DivPair.operand ⟨true, true⟩ divMachine.cpu 2#5) = some q
          ∧ hostRemainder true (DivPair.operand ⟨true, true⟩ divMachine.cpu 1#5)
            (DivPair.operand ⟨true, true⟩ divMachine.cpu 2#5) = some r
          ∧ execInstr divMachine (DivPair.quotientInstr ⟨true, true⟩ 3#5 1#5 2#5).encode
            = { divMachine with cpu := writeReg divMachine.cpu 3#5 (q.signExtend 64) }
          ∧ execInstr divMachine (DivPair.remainderInstr ⟨true, true⟩ 4#5 1#5 2#5).encode
            = { divMachine with cpu := writeReg divMachine.cpu 4#5 (r.signExtend 64) }
          ∧ DivisionOk true (DivPair.operand ⟨true, true⟩ divMachine.cpu 1#5)
            (DivPair.operand ⟨true, true⟩ divMachine.cpu 2#5) q r :=
  ⟨rfl, division_total divMachine ⟨true, true⟩ (fun _ => rfl) 3#5 4#5 1#5 2#5⟩

end RV640
