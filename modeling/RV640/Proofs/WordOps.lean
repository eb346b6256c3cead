import RV640.Cpu.Run
import RV640.Lib.Fields

set_option autoImplicit false

/-! # The 32-bit operations of RV64

ADDW, SUBW, MULW, the word shifts and their immediate forms work on the low halves of the registers
and sign-extend a 32-bit result. The source writes the mask of the shift count in every case anew;
SLLW is written with the mask of the 64-bit shifts.
-/

namespace RV640

open Bits

variable {c : Cfg}

/-! ## The C expressions -/

/-- The sign bit, shifted. -/
theorem signBit_shift {w : Nat} (v : BitVec w) {k : Nat} (hk : k < w) :
    (v &&& bit (w - 1)) >>> k = if v.msb then bit (w - 1 - k) else 0#w := by
  apply BitVec.eq_of_getLsbD_eq
  intro i hi
  rw [BitVec.getLsbD_ushiftRight, BitVec.getLsbD_and, getLsbD_bit, BitVec.msb_eq_getLsbD_last]
  by_cases hik : k + i = w - 1
  · have hi' : i = w - 1 - k := by omega
    rw [hik]
    cases v.getLsbD (w - 1) with
    | false => simp
    | true => simp [← hi', hi, show w - 1 < w by omega]
  · have hi' : i ≠ w - 1 - k := by omega
    cases v.getLsbD (w - 1) with
    | false => simp [hik]
    | true => simp [hik, hi']

/-- The shift of SRA and its relatives is arithmetic. -/
theorem shiftRightArith_eq {w : Nat} (v : BitVec w) {k : Nat} (hk : k < w) :
    shiftRightArith v k = v.sshiftRight k := by
  rw [shiftRightArith, signBit_shift v hk]
  cases hm : v.msb with
  | false =>
      rw [if_neg Bool.false_ne_true, BitVec.zero_sub, BitVec.neg_one_eq_allOnes,
        BitVec.not_allOnes, BitVec.or_zero, BitVec.sshiftRight_eq_of_msb_false hm]
  | true =>
      apply BitVec.eq_of_getLsbD_eq
      intro i hi
      rw [if_pos rfl, BitVec.getLsbD_or, BitVec.getLsbD_ushiftRight, BitVec.getLsbD_not, bit,
        getLsbD_low_mask _ _ (by omega), BitVec.getLsbD_sshiftRight, hm]
      rw [BitVec.msb_eq_getLsbD_last] at hm
      by_cases hik : k + i < w
      · by_cases hlast : k + i = w - 1
        · rw [hlast, hm]
          simp [hi, show w - 1 < w by omega]
        · simp [hi, hik, show i < w - 1 - k by omega]
      · simp [hi, hik, show ¬ i < w - 1 - k by omega]

theorem extendW_eq (res : BitVec 32) : (extendW res : Word c) = res.signExtend c.xlen := by
  have := c.xlen_ge
  exact signExtend_setWidth_field res (by omega)

/-! ## The instructions -/

/-- The word instructions, with what they take besides `rs1`. -/
inductive WordInstr where
  | addw (rs2 : Reg)
  | subw (rs2 : Reg)
  | mulw (rs2 : Reg)
  | sllw (rs2 : Reg)
  | srlw (rs2 : Reg)
  | sraw (rs2 : Reg)
  | addiw (imm : BitVec 12)
  | slliw (shamt : BitVec 5)
  | srliw (shamt : BitVec 5)
  | sraiw (shamt : BitVec 5)

namespace WordInstr

/-- What `_doOP32` and `_doOPIMM32` do for an instruction. -/
def exec (self : Cpu c) (rd rs1 : Reg) : WordInstr → Cpu c
  | addw rs2 => doOP32 self 0#3 0#7 rd rs1 rs2
  | subw rs2 => doOP32 self 0#3 32#7 rd rs1 rs2
  | mulw rs2 => doOP32 self 0#3 1#7 rd rs1 rs2
  | sllw rs2 => doOP32 self 1#3 0#7 rd rs1 rs2
  | srlw rs2 => doOP32 self 5#3 0#7 rd rs1 rs2
  | sraw rs2 => doOP32 self 5#3 32#7 rd rs1 rs2
  | addiw imm => doOPIMM32 self 0#3 (imm.setWidth 32) rd rs1
  | slliw shamt => doOPIMM32 self 1#3 (shamt.setWidth 32) rd rs1
  | srliw shamt => doOPIMM32 self 5#3 (shamt.setWidth 32) rd rs1
  | sraiw shamt => doOPIMM32 self 5#3 (0x400#32 ||| shamt.setWidth 32) rd rs1

/-- The low half of a register. -/
def lowHalf (self : Cpu c) (r : Reg) : BitVec 32 := (readReg self r).setWidth 32

/-- The second operand: the low half of a register, or an immediate. -/
def operand (self : Cpu c) : WordInstr → BitVec 32
  | addw rs2 => lowHalf self rs2
  | subw rs2 => lowHalf self rs2
  | mulw rs2 => lowHalf self rs2
  | sllw rs2 => lowHalf self rs2
  | srlw rs2 => lowHalf self rs2
  | sraw rs2 => lowHalf self rs2
  | addiw imm => imm.signExtend 32
  | slliw shamt => shamt.setWidth 32
  | srliw shamt => shamt.setWidth 32
  | sraiw shamt => shamt.setWidth 32

/-- The 32-bit result that the RISC-V specification defines. -/
def spec (x y : BitVec 32) : WordInstr → BitVec 32
  | addw _ => x + y
  | subw _ => x - y
  | mulw _ => x * y
  | sllw _ => x <<< (y.toNat % 32)
  | srlw _ => x >>> (y.toNat % 32)
  | sraw _ => x.sshiftRight (y.toNat % 32)
  | addiw _ => x + y
  | slliw _ => x <<< (y.toNat % 32)
  | srliw _ => x >>> (y.toNat % 32)
  | sraiw _ => x.sshiftRight (y.toNat % 32)

/-- The count of the C shift of a 32-bit value that the source performs. -/
def shiftCount (c : Cfg) (y : BitVec 32) : WordInstr → Option Nat
  | sllw _ => some (y.toNat &&& cpuShiftMask c)
  | srlw _ => some (y.toNat &&& 0x1F)
  | sraw _ => some (y.toNat &&& 0x1F)
  | slliw _ => some (y.toNat &&& 0x1F)
  | srliw _ => some (y.toNat &&& 0x1F)
  | sraiw _ => some (y.toNat &&& 0x1F)
  | _ => none

/-- The C expression of the result, over the shift count `k`. -/
def value (x y : BitVec 32) (k : Nat) : WordInstr → BitVec 32
  | sllw _ => x <<< k
  | srlw _ => x >>> k
  | sraw _ => shiftRightArith x k
  | slliw _ => x <<< k
  | srliw _ => x >>> k
  | sraiw _ => shiftRightArith x k
  | i => i.spec x y

theorem and_31 (n : Nat) : n &&& 0x1F = n % 32 := Nat.and_two_pow_sub_one_eq_mod n 5

/-- An immediate shift count takes no bits above it. -/
theorem shamt_shift (shamt : BitVec 5) : (shamt.setWidth 32) >>> 5 = 0#32 := by
  apply BitVec.eq_of_getLsbD_eq
  intro i hi
  rw [BitVec.getLsbD_ushiftRight, BitVec.getLsbD_setWidth, BitVec.getLsbD_of_ge shamt _ (by omega)]
  simp

theorem sraiw_shift (shamt : BitVec 5) : (0x400#32 ||| shamt.setWidth 32) >>> 5 = 0x20#32 := by
  rw [BitVec.ushiftRight_or_distrib, shamt_shift, BitVec.or_zero]
  rfl

theorem sraiw_count (shamt : BitVec 5) :
    (0x400#32 ||| shamt.setWidth 32).toNat &&& 0x1F = (shamt.setWidth 32).toNat &&& 0x1F := by
  have h : (0x400#32 ||| shamt.setWidth 32) &&& 0x1F#32 = shamt.setWidth 32 &&& 0x1F#32 := by
    rw [BitVec.and_comm, BitVec.and_or_distrib_left, BitVec.and_comm 0x1F#32 (shamt.setWidth 32)]
    simp
  have := congrArg BitVec.toNat h
  rwa [BitVec.toNat_and, BitVec.toNat_and] at this

/-- The sum of ADDIW, computed in a machine word. -/
theorem addiw_sum (x : BitVec 32) (imm : BitVec 12) :
    ((signExtend ((imm.setWidth 32).setWidth c.xlen) 11 + x.setWidth c.xlen : Word c)).setWidth 32
      = x + imm.signExtend 32 := by
  have hx := c.xlen_ge
  have himm : ((imm.setWidth 32).setWidth c.xlen : Word c) = imm.setWidth c.xlen := by
    apply BitVec.eq_of_getLsbD_eq
    intro i hi
    rw [BitVec.getLsbD_setWidth, BitVec.getLsbD_setWidth, BitVec.getLsbD_setWidth]
    by_cases h : i < 32
    · simp [h]
    · simp [h, BitVec.getLsbD_of_ge imm i (by omega)]
  have hsign : (imm.signExtend c.xlen).setWidth 32 = imm.signExtend 32 := by
    rw [← BitVec.signExtend_eq_setWidth_of_le _ hx,
      signExtend_signExtend_of_le imm (by decide) (by omega)]
  rw [himm, signExtend_setWidth_field imm (by omega), BitVec.setWidth_add _ _ hx, hsign,
    BitVec.setWidth_setWidth_of_le _ hx, BitVec.setWidth_eq, BitVec.add_comm]

/-- Every instruction writes the sign extension of its C expression. -/
theorem exec_eq (self : Cpu c) (rd rs1 : Reg) (i : WordInstr) :
    i.exec self rd rs1 = writeReg self rd
      ((i.value (lowHalf self rs1) (i.operand self)
        ((i.shiftCount c (i.operand self)).getD 0)).signExtend c.xlen) := by
  rw [← extendW_eq]
  cases i with
  | addw rs2 => rfl
  | subw rs2 => rfl
  | mulw rs2 => rfl
  | sllw rs2 => rfl
  | srlw rs2 => rfl
  | sraw rs2 => rfl
  | addiw imm =>
      show writeReg self rd (extendW _) = _
      rw [addiw_sum]
      rfl
  | slliw shamt =>
      simp only [exec, doOPIMM32, shamt_shift]
      rfl
  | srliw shamt =>
      simp only [exec, doOPIMM32, shamt_shift]
      rfl
  | sraiw shamt =>
      simp only [exec, doOPIMM32, sraiw_shift, sraiw_count]
      rfl

/-- With a count in range that is the low five bits of the operand, the C expression is the
specified result. -/
theorem value_eq_spec (x y : BitVec 32) (i : WordInstr)
    (h : ∀ k, i.shiftCount c y = some k → k = y.toNat % 32) :
    i.value x y ((i.shiftCount c y).getD 0) = i.spec x y := by
  have hlt : y.toNat % 32 < 32 := Nat.mod_lt _ (by decide)
  cases i with
  | addw rs2 => rfl
  | subw rs2 => rfl
  | mulw rs2 => rfl
  | sllw rs2 =>
      have hk := h _ rfl
      show x <<< _ = _
      rw [shiftCount, Option.getD_some, hk]
      rfl
  | srlw rs2 =>
      have hk := h _ rfl
      show x >>> _ = _
      rw [shiftCount, Option.getD_some, hk]
      rfl
  | sraw rs2 =>
      have hk := h _ rfl
      show shiftRightArith x _ = _
      rw [shiftCount, Option.getD_some, hk, shiftRightArith_eq _ hlt]
      rfl
  | addiw imm => rfl
  | slliw shamt =>
      have hk := h _ rfl
      show x <<< _ = _
      rw [shiftCount, Option.getD_some, hk]
      rfl
  | srliw shamt =>
      have hk := h _ rfl
      show x >>> _ = _
      rw [shiftCount, Option.getD_some, hk]
      rfl
  | sraiw shamt =>
      have hk := h _ rfl
      show shiftRightArith x _ = _
      rw [shiftCount, Option.getD_some, hk, shiftRightArith_eq _ hlt]
      rfl

end WordInstr

/-- An instruction performs no C shift of a 32-bit value by 32 or more, and writes the sign
extension of the specified result, a function of the low halves of its operands. -/
structure WordInstrOk (s : Cpu c) (rd rs1 : Reg) (i : WordInstr) : Prop where
  shift : ∀ k, i.shiftCount c (i.operand s) = some k → k < 32
  result : i.exec s rd rs1 = writeReg s rd
    ((i.spec (WordInstr.lowHalf s rs1) (i.operand s)).signExtend c.xlen)

/-- SLLW masks its count with the mask of the 64-bit shifts. -/
theorem sllw_mask (hrv64 : c.isRv64 = true) (y : BitVec 32) :
    y.toNat &&& cpuShiftMask c = y.toNat % 64 := by
  rw [cpuShiftMask, Cfg.xlen_of_rv64 hrv64]
  exact Nat.and_two_pow_sub_one_eq_mod _ 6

/-- Its count is in range when bit 5 of the operand is clear. -/
theorem sllw_count (hrv64 : c.isRv64 = true) (self : Cpu c) (rs2 : Reg) :
    (WordInstr.lowHalf self rs2).toNat &&& cpuShiftMask c < 32
      ↔ (readReg self rs2).getLsbD 5 = false := by
  have hbit : (readReg self rs2).getLsbD 5 = (WordInstr.lowHalf self rs2).getLsbD 5 := by
    rw [WordInstr.lowHalf, BitVec.getLsbD_setWidth]
    rfl
  rw [hbit, sllw_mask hrv64, BitVec.getLsbD, Nat.testBit_eq_decide_div_mod_eq,
    decide_eq_false_iff_not]
  omega

/-- **The word operations of RV64**: each of them shifts in range and writes the sign extension of
the specified 32-bit result, except that SLLW does so exactly for a shift operand with bit 5
clear. -/
theorem word_instr_iff (hrv64 : c.isRv64 = true) (self : Cpu c) (rd rs1 : Reg) (i : WordInstr) :
    WordInstrOk self rd rs1 i ↔ ∀ rs2, i = .sllw rs2 → (readReg self rs2).getLsbD 5 = false := by
  constructor
  · rintro ⟨hshift, -⟩ rs2 rfl
    exact (sllw_count hrv64 self rs2).mp (hshift _ rfl)
  · intro h
    have hcount : ∀ k, i.shiftCount c (i.operand self) = some k →
        k = (i.operand self).toNat % 32 := by
      intro k hk
      cases i with
      | sllw rs2 =>
          have hlt := (sllw_count hrv64 self rs2).mpr (h rs2 rfl)
          have hmask := sllw_mask hrv64 (WordInstr.lowHalf self rs2)
          obtain rfl := Option.some.inj hk
          show (WordInstr.lowHalf self rs2).toNat &&& cpuShiftMask c
            = (WordInstr.lowHalf self rs2).toNat % 32
          omega
      | srlw rs2 => exact (Option.some.inj hk).symm.trans (WordInstr.and_31 _)
      | sraw rs2 => exact (Option.some.inj hk).symm.trans (WordInstr.and_31 _)
      | slliw shamt => exact (Option.some.inj hk).symm.trans (WordInstr.and_31 _)
      | srliw shamt => exact (Option.some.inj hk).symm.trans (WordInstr.and_31 _)
      | sraiw shamt => exact (Option.some.inj hk).symm.trans (WordInstr.and_31 _)
      | addw rs2 => cases hk
      | subw rs2 => cases hk
      | mulw rs2 => cases hk
      | addiw imm => cases hk
    refine ⟨?_, ?_⟩
    · intro k hk
      rw [hcount k hk]
      exact Nat.mod_lt _ (by decide)
    · rw [WordInstr.exec_eq, WordInstr.value_eq_spec _ _ i hcount]

/-- A hart whose registers `x1` and `x2` hold 1 and 32. -/
def shiftHart : Cpu .rv64 :=
  { (rvInit true : Cpu .rv64) with
    regs := fun r => if r = 1#5 then 1#64 else if r = 2#5 then 32#64 else 0#64 }

theorem word_instr_iff_addw :
    Cfg.rv64.isRv64 = true
      ∧ (WordInstrOk shiftHart 3#5 1#5 (.addw 2#5)
        ↔ ∀ rs2, WordInstr.addw 2#5 = .sllw rs2 → (readReg shiftHart rs2).getLsbD 5 = false) :=
  ⟨rfl, word_instr_iff rfl shiftHart 3#5 1#5 (.addw 2#5)⟩

/-- `sllw x3, x1, x2` with 1 and 32: the source shifts a 32-bit value by 32, the specification by
nothing. -/
theorem sllw_shifts_by_32 :
    (WordInstr.sllw 2#5).shiftCount .rv64 ((WordInstr.sllw 2#5).operand shiftHart) = some 32
      ∧ (WordInstr.sllw 2#5).spec (WordInstr.lowHalf shiftHart 1#5)
          ((WordInstr.sllw 2#5).operand shiftHart) = 1#32
      ∧ ¬ WordInstrOk shiftHart 3#5 1#5 (.sllw 2#5) := by
  have hcount : (WordInstr.sllw 2#5).shiftCount .rv64 ((WordInstr.sllw 2#5).operand shiftHart)
      = some 32 := by decide
  refine ⟨hcount, by decide, ?_⟩
  intro h
  exact absurd (h.shift 32 hcount) (by decide)

end RV640
