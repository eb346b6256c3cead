import RV640.Isa.Semantics
import RV640.Proofs.Amo
import RV640.Proofs.Division
import RV640.Proofs.HighMul
import RV640.Proofs.SignArith

set_option autoImplicit false

/-! # Results of operations

The handlers of OP, OP-IMM and their 32-bit forms write the results that the architecture defines
as integers and naturals, on both widths. SLLW does with a shift operand that has bit 5 clear.
-/

namespace RV640

open Bits Riscv

variable {c : Cfg}

/-! ## Operators as arithmetic -/

section Operators

variable {w : Nat} (x y : BitVec w)

theorem ofNat_toNat_self : BitVec.ofNat w x.toNat = x := by
  rw [BitVec.ofNat_toNat, BitVec.setWidth_eq]

theorem add_eq_ofInt : x + y = BitVec.ofInt w (x.toInt + y.toInt) := by
  rw [BitVec.ofInt_add, BitVec.ofInt_toInt, BitVec.ofInt_toInt]

theorem sub_eq_ofInt : x - y = BitVec.ofInt w (x.toInt - y.toInt) := by
  rw [Int.sub_eq_add_neg, BitVec.ofInt_add, BitVec.ofInt_neg, BitVec.ofInt_toInt,
    BitVec.ofInt_toInt, BitVec.sub_eq_add_neg]

theorem mul_eq_ofInt : x * y = BitVec.ofInt w (x.toInt * y.toInt) := by
  rw [BitVec.ofInt_mul, BitVec.ofInt_toInt, BitVec.ofInt_toInt]

theorem shiftLeft_eq_ofNat (k : Nat) : x <<< k = BitVec.ofNat w (x.toNat * 2 ^ k) := by
  apply BitVec.eq_of_toNat_eq
  rw [BitVec.toNat_shiftLeft, BitVec.toNat_ofNat, Nat.shiftLeft_eq]

theorem ushiftRight_eq_ofNat (k : Nat) : x >>> k = BitVec.ofNat w (x.toNat / 2 ^ k) := by
  have hlt : x.toNat / 2 ^ k < 2 ^ w := Nat.lt_of_le_of_lt (Nat.div_le_self _ _) x.isLt
  apply BitVec.eq_of_toNat_eq
  rw [BitVec.toNat_ushiftRight, BitVec.toNat_ofNat, Nat.shiftRight_eq_div_pow,
    Nat.mod_eq_of_lt hlt]

theorem shiftRightArith_eq_ofInt {k : Nat} (hk : k < w) :
    shiftRightArith x k = BitVec.ofInt w (x.toInt / 2 ^ k) := by
  rw [shiftRightArith_fdiv x hk, Int.fdiv_eq_ediv_of_nonneg _ (by positivity)]

theorem allOnes_eq_ofInt : (~~~0#w : BitVec w) = BitVec.ofInt w (-1) := by
  rw [BitVec.ofInt_neg, BitVec.not_zero, ← BitVec.neg_one_eq_allOnes]
  rfl

theorem divSigned_eq_ofInt :
    divSigned x y = BitVec.ofInt w (if y = 0#w then -1 else x.toInt.tdiv y.toInt) := by
  by_cases hy : y = 0#w
  · rw [divSigned_def, if_neg (by simp [hy]), if_pos hy, allOnes_eq_ofInt]
  · rw [divSigned_eq x hy, if_neg hy]
    apply BitVec.eq_of_toInt_eq
    rw [BitVec.toInt_sdiv, BitVec.toInt_ofInt]

theorem divUnsigned_eq_ofInt :
    divUnsigned x y = BitVec.ofInt w (if y = 0#w then -1 else x.toNat / y.toNat) := by
  by_cases hy : y = 0#w
  · rw [divUnsigned_def, if_neg (by simp [hy]), if_pos hy, allOnes_eq_ofInt]
  · rw [divUnsigned_def, if_pos (bne_iff_ne.mpr hy), if_neg hy]
    calc x / y
        = BitVec.ofNat w (x / y).toNat := (ofNat_toNat_self _).symm
      _ = BitVec.ofNat w (x.toNat / y.toNat) := by rw [BitVec.toNat_udiv]
      _ = BitVec.ofInt w (x.toNat / y.toNat) := by rw [← BitVec.ofInt_natCast]; norm_cast

theorem remSigned_eq_ofInt : remSigned x y = BitVec.ofInt w (x.toInt.tmod y.toInt) := by
  by_cases hy : y = 0#w
  · rw [remSigned_def, if_neg (by simp [hy]), hy, BitVec.toInt_zero, Int.tmod_zero,
      BitVec.ofInt_toInt]
  · rw [remSigned_eq x hy]
    calc x.srem y
        = BitVec.ofInt w (x.srem y).toInt := BitVec.ofInt_toInt.symm
      _ = BitVec.ofInt w (x.toInt.tmod y.toInt) := by rw [BitVec.toInt_srem]

theorem remUnsigned_eq_ofNat : remUnsigned x y = BitVec.ofNat w (x.toNat % y.toNat) := by
  by_cases hy : y = 0#w
  · rw [remUnsigned_def, if_neg (by simp [hy]), hy, BitVec.toNat_zero, Nat.mod_zero,
      ofNat_toNat_self]
  · rw [remUnsigned_def, if_pos (bne_iff_ne.mpr hy)]
    calc x % y
        = BitVec.ofNat w (x % y).toNat := (ofNat_toNat_self _).symm
      _ = BitVec.ofNat w (x.toNat % y.toNat) := by rw [BitVec.toNat_umod]

/-- The high half of an unsigned product. -/
theorem highWord_natCast (n : Nat) : highWord w n = BitVec.ofNat w (n / 2 ^ w) := by
  rw [highWord_eq, ← BitVec.ofInt_natCast]
  norm_cast

end Operators

/-! ## OP and OP-32 -/

/-- What `_doOP` writes. -/
theorem doOP_result (s : Cpu c) (funct7 : BitVec 7) (funct3 : BitVec 3) (rd rs1 rs2 : Reg)
    {v : Word c} (h : opResult funct7 funct3 (readReg s rs1) (readReg s rs2) = some v) :
    doOP s funct3 funct7 rd rs1 rs2 = writeReg s rd v := by
  have hmod : (readReg s rs2).toNat &&& cpuShiftMask c = (readReg s rs2).toNat % c.xlen :=
    and_cpuShiftMask _
  have hlt : (readReg s rs2).toNat % c.xlen < c.xlen :=
    Nat.mod_lt _ (by have := c.xlen_ge; omega)
  unfold opResult at h
  simp only at h
  split at h
  case h_19 => cases h
  all_goals obtain rfl := Option.some.inj h
  case h_4 | h_5 | h_6 | h_9 | h_10 => rfl
  case h_1 => exact congrArg (writeReg s rd) (add_eq_ofInt _ _)
  case h_2 => exact congrArg (writeReg s rd) (sub_eq_ofInt _ _)
  -- the handler masks the count of a shift
  case h_3 =>
    rw [← hmod, ← shiftLeft_eq_ofNat]
    rfl
  case h_7 =>
    rw [← hmod, ← ushiftRight_eq_ofNat]
    rfl
  case h_8 =>
    rw [← shiftRightArith_eq_ofInt _ hlt, ← hmod]
    rfl
  case h_11 => exact congrArg (writeReg s rd) (mul_eq_ofInt _ _)
  case h_12 =>
    rw [← highWord_eq, ← highMul_eq (fun w x y => x.toInt * y.toInt) mulh64_eq mulh32_eq]
    rfl
  case h_13 =>
    rw [← highWord_eq, ← highMul_eq (fun w x y => x.toInt * y.toNat) mulhsu64_eq mulhsu32_eq]
    rfl
  case h_14 =>
    rw [← highWord_natCast, Nat.cast_mul,
      ← highMul_eq (fun w x y => x.toNat * y.toNat) mulhu64_eq mulhu32_eq]
    rfl
  case h_15 => exact congrArg (writeReg s rd) (divSigned_eq_ofInt _ _)
  case h_16 => exact congrArg (writeReg s rd) (divUnsigned_eq_ofInt _ _)
  case h_17 => exact congrArg (writeReg s rd) (remSigned_eq_ofInt _ _)
  case h_18 => exact congrArg (writeReg s rd) (remUnsigned_eq_ofNat _ _)

/-- What `_doOP32` writes. -/
theorem doOP32_result (hrv64 : c.isRv64 = true) (s : Cpu c) (funct7 : BitVec 7) (funct3 : BitVec 3)
    (rd rs1 rs2 : Reg) {v : BitVec 32} (hword : hasWord funct7 funct3 = true)
    (hsllw : funct7 = 0#7 → funct3 = 1#3 → (readReg s rs2).getLsbD 5 = false)
    (h : opResult funct7 funct3 ((readReg s rs1).setWidth 32) ((readReg s rs2).setWidth 32)
      = some v) :
    doOP32 s funct3 funct7 rd rs1 rs2 = writeReg s rd (v.signExtend _) := by
  have hmod := WordInstr.and_31 ((readReg s rs2).setWidth 32).toNat
  have hlt : ((readReg s rs2).setWidth 32).toNat % 32 < 32 := Nat.mod_lt _ (by decide)
  unfold opResult at h
  simp only at h
  split at h
  -- the operations without a 32-bit form
  case h_4 | h_5 | h_6 | h_9 | h_10 | h_12 | h_13 | h_14 => cases hword
  case h_19 => cases h
  all_goals
    obtain rfl := Option.some.inj h
    rw [← extendW_eq]
  case h_1 => exact congrArg (fun x => writeReg s rd (extendW x)) (add_eq_ofInt _ _)
  case h_2 => exact congrArg (fun x => writeReg s rd (extendW x)) (sub_eq_ofInt _ _)
  case h_3 =>
    -- the count is masked with 63
    have hcount := (sllw_count hrv64 s rs2).mpr (hsllw rfl rfl)
    have hmask := sllw_mask hrv64 (WordInstr.lowHalf s rs2)
    have hsame : (WordInstr.lowHalf s rs2).toNat &&& cpuShiftMask c
        = ((readReg s rs2).setWidth 32).toNat % 32 := by
      rw [hmask] at hcount ⊢
      unfold WordInstr.lowHalf at hcount ⊢
      omega
    rw [← hsame, ← shiftLeft_eq_ofNat]
    rfl
  case h_7 =>
    rw [← hmod, ← ushiftRight_eq_ofNat]
    rfl
  case h_8 =>
    rw [← shiftRightArith_eq_ofInt _ hlt, ← hmod]
    rfl
  case h_11 => exact congrArg (fun x => writeReg s rd (extendW x)) (mul_eq_ofInt _ _)
  case h_15 =>
    rw [← divSigned_eq_ofInt, extendW_eq, ← wordQuotient _ ((readReg s rs2).setWidth 32)]
    · rfl
    · intro hz
      simp [divSigned_def, hz]
  case h_16 =>
    rw [← divUnsigned_eq_ofInt, extendW_eq, ← wordQuotient _ ((readReg s rs2).setWidth 32)]
    · rfl
    · intro hz
      simp [divUnsigned_def, hz]
  case h_17 => exact congrArg (fun x => writeReg s rd (extendW x)) (remSigned_eq_ofInt _ _)
  case h_18 => exact congrArg (fun x => writeReg s rd (extendW x)) (remUnsigned_eq_ofNat _ _)

/-! ## OP-IMM and OP-IMM-32 -/

/-- The immediate as the decoder leaves it. -/
theorem place_toNat (imm : BitVec 12) : (place imm 0 : BitVec 32).toNat = imm.toNat := by
  rw [place_zero, BitVec.toNat_setWidth, Nat.mod_eq_of_lt (by have := imm.isLt; omega)]

theorem place_shift (imm : BitVec 12) (k n : Nat) (h : imm.toNat / 2 ^ k = n) :
    (place imm 0 : BitVec 32) >>> k = BitVec.ofNat 32 n := by
  have hlt : n < 2 ^ 32 := by
    have := imm.isLt
    have := Nat.div_le_self imm.toNat (2 ^ k)
    omega
  apply BitVec.eq_of_toNat_eq
  rw [BitVec.toNat_ushiftRight, place_toNat, Nat.shiftRight_eq_div_pow, h, BitVec.toNat_ofNat,
    Nat.mod_eq_of_lt hlt]

/-- A shift count, as a word. -/
theorem shamt_mod {w n : Nat} (h : n < w) : (BitVec.ofNat w n).toNat % w = n := by
  have hlt : n < 2 ^ w := Nat.lt_trans h Nat.lt_two_pow_self
  rw [BitVec.toNat_ofNat, Nat.mod_eq_of_lt hlt, Nat.mod_eq_of_lt h]

/-- The count that the handlers take from an immediate whose low bits hold it. -/
theorem place_count (imm : BitVec 12) {n : Nat} (hn : n < c.xlen) (h : imm.toNat % 2 ^ 10 = n) :
    (place imm 0 : BitVec 32).toNat &&& cpuShiftMask c = n := by
  rw [and_cpuShiftMask, place_toNat]
  cases c with
  | rv32 => show imm.toNat % 32 = n; have : n < 32 := hn; omega
  | rv64 => show imm.toNat % 64 = n; have : n < 64 := hn; omega
  | rv64Addr32 => show imm.toNat % 64 = n; have : n < 64 := hn; omega

/-- What `_doOPIMM` writes. -/
theorem doOPIMM_result (s : Cpu c) (funct3 : BitVec 3) (imm : BitVec 12) (rd rs1 : Reg)
    {v : Word c} (h : immResult funct3 (readReg s rs1) imm = some v) :
    doOPIMM s funct3 (place imm 0) rd rs1 = writeReg s rd v := by
  have hx := c.xlen_ge
  have hx' := c.xlen_le
  have himm : Bits.signExtend ((place imm 0 : BitVec 32).setWidth c.xlen) 11
      = imm.signExtend c.xlen := signExtend_bytes imm (by decide) (by omega)
  unfold immResult at h
  simp only at h
  split at h
  · -- SLLI
    split at h
    · rename_i hlt
      have hcount : imm.toNat % 2 ^ 10 = imm.toNat := Nat.mod_eq_of_lt (by omega)
      rw [hcount] at h
      simp only [opResult, shamt_mod hlt, Option.some.injEq] at h
      rw [← h, ← shiftLeft_eq_ofNat]
      simp only [doOPIMM, place_shift imm 6 0 (by omega), place_count imm hlt hcount]
    · cases h
  · split at h
    · -- SRLI
      rename_i hlt
      have hcount : imm.toNat % 2 ^ 10 = imm.toNat := Nat.mod_eq_of_lt (by omega)
      rw [hcount] at h
      simp only [opResult, shamt_mod hlt, Option.some.injEq] at h
      rw [← h, ← ushiftRight_eq_ofNat]
      simp only [doOPIMM, place_shift imm 6 0 (by omega), place_count imm hlt hcount]
    · split at h
      · -- SRAI
        rename_i hsra
        obtain ⟨hbit, hlt⟩ := hsra
        simp only [opResult, shamt_mod hlt, Option.some.injEq] at h
        rw [← h, ← shiftRightArith_eq_ofInt _ hlt]
        simp only [doOPIMM, place_shift imm 6 16 (by omega), place_count imm hlt rfl]
      · cases h
  · rename_i hn1 hn5
    obtain ⟨o, rfl⟩ := (ImmOp.funct3_iff funct3).mpr ⟨hn1, hn5⟩
    cases o with
    | addi =>
        obtain rfl := Option.some.inj h
        show writeReg s rd (Bits.signExtend _ 11 + readReg s rs1) = _
        rw [himm, ← add_eq_ofInt, BitVec.add_comm]
    | slti | sltiu | xori =>
        obtain rfl := Option.some.inj h
        rw [← himm]
        rfl
    | ori =>
        obtain rfl := Option.some.inj h
        show writeReg s rd (Bits.signExtend _ 11 ||| readReg s rs1) = _
        rw [himm, BitVec.or_comm]
    | andi =>
        obtain rfl := Option.some.inj h
        show writeReg s rd (Bits.signExtend _ 11 &&& readReg s rs1) = _
        rw [himm, BitVec.and_comm]

/-- What `_doOPIMM32` writes. -/
theorem doOPIMM32_result (s : Cpu c) (funct3 : BitVec 3) (imm : BitVec 12) (rd rs1 : Reg)
    {v : BitVec 32} (hword : hasWord 0#7 funct3 = true)
    (h : immResult funct3 ((readReg s rs1).setWidth 32) imm = some v) :
    doOPIMM32 s funct3 (place imm 0) rd rs1 = writeReg s rd (v.signExtend _) := by
  have himm := imm.isLt
  have hcount : ∀ {n : Nat}, n < 32 → imm.toNat % 2 ^ 10 = n →
      (place imm 0 : BitVec 32).toNat &&& 0x1F = n := by
    intro n hn hmod
    rw [WordInstr.and_31, place_toNat]
    omega
  unfold immResult at h
  simp only at h
  split at h
  · -- SLLIW
    split at h
    · rename_i hlt
      have hmod : imm.toNat % 2 ^ 10 = imm.toNat := Nat.mod_eq_of_lt (by omega)
      rw [hmod] at h
      simp only [opResult, shamt_mod hlt, Option.some.injEq] at h
      rw [← h, ← shiftLeft_eq_ofNat, ← extendW_eq]
      simp only [doOPIMM32, place_shift imm 5 0 (by omega), hcount hlt hmod]
    · cases h
  · split at h
    · -- SRLIW
      rename_i hlt
      have hmod : imm.toNat % 2 ^ 10 = imm.toNat := Nat.mod_eq_of_lt (by omega)
      rw [hmod] at h
      simp only [opResult, shamt_mod hlt, Option.some.injEq] at h
      rw [← h, ← ushiftRight_eq_ofNat, ← extendW_eq]
      simp only [doOPIMM32, place_shift imm 5 0 (by omega), hcount hlt hmod]
    · split at h
      · -- SRAIW
        rename_i hsra
        obtain ⟨hbit, hlt⟩ := hsra
        simp only [opResult, shamt_mod hlt, Option.some.injEq] at h
        rw [← h, ← shiftRightArith_eq_ofInt _ hlt, ← extendW_eq]
        simp only [doOPIMM32, place_shift imm 5 32 (by omega), hcount hlt rfl]
      · cases h
  · rename_i hn1 hn5
    have hf : funct3 = 0#3 := by
      clear h
      revert funct3
      decide
    subst hf
    obtain rfl := Option.some.inj h
    rw [← add_eq_ofInt, place_zero]
    exact WordInstr.exec_eq s rd rs1 (.addiw imm)

/-! ## Branches and upper immediates -/

/-- The condition of a branch. -/
theorem branchTaken_result {n : Nat} (funct3 : BitVec 3) (x y : BitVec n) :
    branchTaken funct3 x y = branchResult funct3 x y := by
  by_cases hf : ∃ o : BranchOp, o.funct3 = funct3
  · obtain ⟨o, rfl⟩ := hf
    rw [branchTaken_funct3]
    cases o <;> rfl
  · have hunused : funct3 = 2#3 ∨ funct3 = 3#3 := by
      rw [BranchOp.funct3_iff] at hf
      tauto
    rcases hunused with rfl | rfl <;> rfl

/-- The immediate of LUI and AUIPC. -/
theorem upperImm_place (imm : BitVec 20) :
    (upperImm (place imm 12) : Word c) = BitVec.ofInt _ (imm.toInt * 2 ^ 12) := by
  have hplace : (place imm 12 : BitVec 32) = BitVec.ofInt 32 (imm.toInt * 2 ^ 12) := by
    have h := signExtend_shiftLeft (n := 32) (m := 20) imm 12 (by decide)
    rw [BitVec.signExtend_eq] at h
    rw [← h, BitVec.shiftLeft_eq_mul_twoPow, BitVec.ofInt_mul]
    rfl
  have hlo := BitVec.le_two_mul_toInt (x := imm)
  have hhi := BitVec.two_mul_toInt_lt (x := imm)
  have hint : (place imm 12 : BitVec 32).toInt = imm.toInt * 2 ^ 12 := by
    rw [hplace, BitVec.toInt_ofInt_eq_self] <;> omega
  have hext : (place imm 12 : BitVec 32).signExtend 64 = BitVec.ofInt 64 (imm.toInt * 2 ^ 12) := by
    rw [BitVec.signExtend, hint]
  cases c with
  | rv32 => rw [upperImm, if_neg (by decide), BitVec.setWidth_eq, hplace]
  | rv64 | rv64Addr32 =>
      rw [upperImm, if_pos (by decide), ← hext]
      exact signExtend_setWidth_field _ (by decide)

end RV640
