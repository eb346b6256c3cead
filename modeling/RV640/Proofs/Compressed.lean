import RV640.Isa.Compressed
import RV640.Proofs.Decoding
import RV640.Proofs.Frames

set_option autoImplicit false

/-! # Compressed instructions equal their expansions

The decoders of `rv_cext.h` build their operands by shifts and masks of the halfword and call the
handlers of the base instructions. First the operands are the fields of the C extension, then each
decoder is the handler of the expansion, and last the two steps of `rv_run` differ only in the size
of the instruction.
-/

namespace RV640

open Bits Riscv

variable {c : Cfg}

/-! ## Operands -/

theorem extractLsb'_half (h : BitVec 16) {start len : Nat} (hlen : start + len ≤ 32) :
    (h.setWidth 32).extractLsb' start len = h.extractLsb' start len :=
  BitVec.extractLsb'_setWidth_of_le hlen

theorem cextReg_half (h : BitVec 16) {lo : Nat} (hlo : lo + 3 ≤ 32) :
    cextReg (h.setWidth 32) lo = reg' h lo := by
  have hadd : ∀ x : BitVec 3, x.setWidth 5 + 8#5 = place x 0 ||| 8#5 := by decide
  unfold cextReg reg'
  rw [extractLsb'_half h hlo, hadd]

theorem cextFullReg_half (h : BitVec 16) {lo : Nat} (hlo : lo + 5 ≤ 32) :
    cextFullReg (h.setWidth 32) lo = reg h lo := extractLsb'_half h hlo

theorem cextImm6_half (h : BitVec 16) : cextImm6 (h.setWidth 32) = place (imm6 h) 0 := by
  unfold cextImm6
  rw [ushiftRight_and _ _ 2 5 0 (by decide), ushiftRight_and _ _ 7 1 5 (by decide)]
  simp (disch := decide) [imm6, bits, place_or, place_place, extractLsb'_half, BitVec.or_comm]

theorem cextSimm6_half (h : BitVec 16) : cextSimm6 (h.setWidth 32) = (imm6 h).signExtend 32 := by
  rw [cextSimm6, cextImm6_half, place_zero]
  exact signExtend_setWidth_field _ (by decide)

theorem cextAddi4spnImm_half (h : BitVec 16) :
    cextAddi4spnImm (h.setWidth 32) = place (uimmAddi4spn h) 0 := by
  unfold cextAddi4spnImm
  rw [ushiftRight_and _ _ 2 1 3 (by decide), ushiftRight_and _ _ 4 1 2 (by decide),
    ushiftRight_and _ _ 1 4 6 (by decide), ushiftRight_and _ _ 7 2 4 (by decide)]
  simp (disch := decide) [uimmAddi4spn, bits, place_or, place_place, extractLsb'_half,
    BitVec.or_comm, bv_or_left_comm]

theorem cextWordOffset_half (h : BitVec 16) :
    cextWordOffset (h.setWidth 32) = place (uimmWord h) 0 := by
  unfold cextWordOffset
  rw [ushiftRight_and _ _ 7 3 3 (by decide), shiftLeft_and _ _ 1 1 6 (by decide) (by decide),
    ushiftRight_and _ _ 4 1 2 (by decide)]
  simp (disch := decide) [uimmWord, bits, place_or, place_place, extractLsb'_half,
    BitVec.or_comm, bv_or_left_comm]

theorem cextDoubleOffset_half (h : BitVec 16) :
    cextDoubleOffset (h.setWidth 32) = place (uimmDouble h) 0 := by
  unfold cextDoubleOffset
  rw [ushiftRight_and _ _ 7 3 3 (by decide), shiftLeft_and _ _ 1 2 6 (by decide) (by decide)]
  simp (disch := decide) [uimmDouble, bits, place_or, place_place, extractLsb'_half]

theorem cextAddi16spImm_half (h : BitVec 16) :
    cextAddi16spImm (h.setWidth 32) = place (immAddi16sp h) 0 := by
  unfold cextAddi16spImm
  rw [ushiftRight_and _ _ 2 1 4 (by decide), shiftLeft_and _ _ 3 1 5 (by decide) (by decide),
    shiftLeft_and _ _ 1 1 6 (by decide) (by decide),
    shiftLeft_and _ _ 4 2 7 (by decide) (by decide), ushiftRight_and _ _ 3 1 9 (by decide)]
  simp (disch := decide) [immAddi16sp, bits, place_or, place_place, extractLsb'_half,
    BitVec.or_comm, bv_or_left_comm]

theorem cextBranchOffset_half (h : BitVec 16) :
    cextBranchOffset (h.setWidth 32) = (place (immBranch h) 1 : BitVec 9).signExtend 32 := by
  have hraw : (((h.setWidth 32 <<< 3) &&& (1#32 <<< 5)) ||| ((h.setWidth 32 >>> 2) &&& (3#32 <<< 1))
      ||| ((h.setWidth 32 <<< 1) &&& (3#32 <<< 6)) ||| ((h.setWidth 32 >>> 7) &&& (3#32 <<< 3))
      ||| ((h.setWidth 32 >>> 4) &&& (1#32 <<< 8)))
      = (place (immBranch h) 1 : BitVec 9).setWidth 32 := by
    rw [shiftLeft_and _ _ 3 1 5 (by decide) (by decide), ushiftRight_and _ _ 2 2 1 (by decide),
      shiftLeft_and _ _ 1 2 6 (by decide) (by decide), ushiftRight_and _ _ 7 2 3 (by decide),
      ushiftRight_and _ _ 4 1 8 (by decide), setWidth_place _ (by decide)]
    simp (disch := decide) [immBranch, bits, place_or, place_place, extractLsb'_half,
      BitVec.or_comm, bv_or_left_comm]
  rw [cextBranchOffset, hraw]
  exact signExtend_setWidth_field _ (by decide)

theorem cextJumpOffset_half (h : BitVec 16) :
    cextJumpOffset (h.setWidth 32) = (place (immJump h) 1 : BitVec 12).signExtend 32 := by
  have hdata : (h.setWidth 32 >>> 2) &&& 0x7FF#32 = (h.extractLsb' 2 11).setWidth 32 := by
    rw [ushiftRight_and _ _ 2 11 0 (by decide), extractLsb'_half h (by decide), place_zero]
  have hraw : assemble11 ((h.setWidth 32 >>> 2) &&& 0x7FF#32) 5 1 2 3 7 6 10 8 9 4 11
      = (place (immJump h) 1 : BitVec 12).setWidth 32 := by
    -- the fields of more than one bit, bit by bit
    have h9 : (place (h.extractLsb' 9 2) 8 : BitVec 32)
        = place (h.extractLsb' 9 1) 8 ||| place (h.extractLsb' 10 1) 9 :=
      (place_or_place h 9 1 1 8).symm
    have h3 : (place (h.extractLsb' 3 3) 1 : BitVec 32)
        = place (h.extractLsb' 3 1) 1 ||| place (h.extractLsb' 4 2) 2 :=
      (place_or_place h 3 1 2 1).symm
    have h4 : (place (h.extractLsb' 4 2) 2 : BitVec 32)
        = place (h.extractLsb' 4 1) 2 ||| place (h.extractLsb' 5 1) 3 :=
      (place_or_place h 4 1 1 2).symm
    rw [hdata, assemble11, setWidth_place _ (by decide)]
    simp only [bit_shiftLeft]
    simp (disch := decide) [immJump, bits, place_or, place_place, h9, h3, h4,
      extractLsb'_extractLsb', BitVec.extractLsb'_setWidth_of_le, BitVec.or_comm, bv_or_left_comm]
  rw [cextJumpOffset, hraw]
  exact signExtend_setWidth_field _ (by decide)

/-! ## Immediates extended twice

The decoders extend a short immediate to 32 bits, and the handlers extend it once more at the sign
bit of the base format. -/

theorem signExtend_iimm {k w : Nat} (y : BitVec k) (hk : 0 < k) (hk12 : k ≤ 12) (hw : 11 < w) :
    Bits.signExtend ((y.signExtend 32).setWidth w) 11
      = Bits.signExtend ((place (y.signExtend 12) 0 : BitVec 32).setWidth w) 11 := by
  rw [signExtend_setWidth_signExtend y hk hk12 (by decide) hw, place_zero,
    BitVec.setWidth_setWidth (by omega), signExtend_setWidth_field _ hw,
    signExtend_signExtend_of_le y hk hk12]

theorem signExtend_offset {k m w : Nat} (y : BitVec k) (hk : 0 < k) (hkm : k ≤ m) (hm : m < 32)
    (hw : m < w) :
    Bits.signExtend (((place y 1 : BitVec (1 + k)).signExtend 32).setWidth w) m
      = Bits.signExtend ((place (y.signExtend m) 1 : BitVec 32).setWidth w) m := by
  have hz : (place (y.signExtend m) 1 : BitVec (m + 1))
      = (place y 1 : BitVec (1 + k)).signExtend (m + 1) := by
    rw [Nat.add_comm m 1]
    exact place_signExtend y 1 hk
  have hwide : (place (y.signExtend m) 1 : BitVec 32)
      = (place (y.signExtend m) 1 : BitVec (m + 1)).setWidth 32 :=
    (setWidth_place _ (by omega)).symm
  rw [signExtend_setWidth_signExtend _ (by omega) (by omega) hm hw, hwide,
    BitVec.setWidth_setWidth (by omega), signExtend_setWidth_field _ hw, hz,
    signExtend_signExtend_of_le _ (by omega) (by omega)]

section Handlers

variable (s : Cpu c) (rd rs1 rs2 : Reg)

theorem doOPIMM_addi (y : BitVec 6) :
    doOPIMM s 0#3 (y.signExtend 32) rd rs1 = doOPIMM s 0#3 (place (y.signExtend 12) 0) rd rs1 := by
  have hx := c.xlen_ge
  simp only [doOPIMM, signExtend_iimm y (by decide) (by decide) (by omega : 11 < c.xlen)]
  rfl

theorem doOPIMM_andi (y : BitVec 6) :
    doOPIMM s 7#3 (y.signExtend 32) rd rs1 = doOPIMM s 7#3 (place (y.signExtend 12) 0) rd rs1 := by
  have hx := c.xlen_ge
  simp only [doOPIMM, signExtend_iimm y (by decide) (by decide) (by omega : 11 < c.xlen)]

/-- The immediate of C.ADDI16SP is extended from its bit 9. -/
theorem doOPIMM_addi16sp (y : BitVec 10) :
    doOPIMM s 0#3 (Bits.signExtend (place y 0) 9) rd rs1
      = doOPIMM s 0#3 (place (y.signExtend 12) 0) rd rs1 := by
  have hx := c.xlen_ge
  have hy : Bits.signExtend (place y 0 : BitVec 32) 9 = y.signExtend 32 := by
    rw [place_zero]
    exact signExtend_setWidth_field y (by decide)
  rw [hy]
  simp only [doOPIMM, signExtend_iimm y (by decide) (by decide) (by omega : 11 < c.xlen)]
  rfl

theorem doOPIMM32_addiw (y : BitVec 6) :
    doOPIMM32 s 0#3 (y.signExtend 32) rd rs1
      = doOPIMM32 s 0#3 (place (y.signExtend 12) 0) rd rs1 := by
  have hx := c.xlen_ge
  simp only [doOPIMM32, signExtend_iimm y (by decide) (by decide) (by omega : 11 < c.xlen)]

theorem doJAL_offset (y : BitVec 11) (size : Int) :
    doJAL s ((place y 1 : BitVec 12).signExtend 32) rd size
      = doJAL s (place (y.signExtend 20) 1) rd size := by
  have hx := c.xlen_ge
  have h := signExtend_offset y (by decide) (by decide) (by decide : 20 < 32)
    (by omega : 20 < c.xlen)
  unfold doJAL
  rw [← h]

theorem doBRANCH_offset (funct3 : BitVec 3) (y : BitVec 8) (size : Int) :
    doBRANCH s funct3 ((place y 1 : BitVec 9).signExtend 32) rs1 rs2 size
      = doBRANCH s funct3 (place (y.signExtend 12) 1) rs1 rs2 size := by
  have hx := c.xlen_ge
  have h := signExtend_offset y (by decide) (by decide) (by decide : 12 < 32)
    (by omega : 12 < c.xlen)
  unfold doBRANCH
  rw [← h]

/-- Writing x0, or a register with its own value, does nothing. -/
theorem writeReg_x0 (d : Word c) : writeReg s x0 d = s := by
  unfold writeReg
  rw [if_pos (by simp [x0])]

theorem writeReg_self : writeReg s rd (readReg s rd) = s := by
  unfold writeReg readReg
  split
  · rfl
  · rw [Function.update_eq_self]

theorem doOPIMM_nop : doOPIMM s 0#3 (place (0#12) 0) x0 x0 = s := writeReg_x0 s _

/-- A shift by no bits. -/
theorem doOPIMM_srli_zero : doOPIMM s 5#3 0#32 rd rd = s := by
  have h : doOPIMM s 5#3 0#32 rd rd = writeReg s rd (readReg s rd >>> (0 &&& cpuShiftMask c)) := rfl
  rw [h, Nat.zero_and, BitVec.ushiftRight_zero, writeReg_self]

theorem shiftRightArith_zero {w : Nat} (v : BitVec w) : shiftRightArith v 0 = v := by
  apply BitVec.eq_of_getLsbD_eq
  intro i hi
  have hsign : v &&& bit (w - 1) = if v.getLsbD (w - 1) then bit (w - 1) else 0#w := by
    split
    · rename_i hv
      apply BitVec.eq_of_getLsbD_eq
      intro j hj
      by_cases hjw : j = w - 1
      · simp [hjw, hv]
      · simp [hjw]
    · rename_i hv
      rw [and_bit_eq_zero]
      exact Bool.eq_false_iff.mpr hv
  unfold shiftRightArith
  rw [BitVec.ushiftRight_zero, BitVec.ushiftRight_zero, hsign]
  split
  · rename_i hv
    -- the mask adds the sign bit, which is set
    unfold bit
    rw [BitVec.getLsbD_or, BitVec.getLsbD_not, getLsbD_low_mask _ _ (by omega)]
    by_cases hiw : i < w - 1
    · simp [hiw]
    · rw [show i = w - 1 by omega, hv]
      simp
  · simp [BitVec.neg_one_eq_allOnes, hi]

theorem doOPIMM_srai_zero : doOPIMM s 5#3 (0#32 ||| (1#32 <<< 10)) rd rd = s := by
  have h : doOPIMM s 5#3 (0#32 ||| (1#32 <<< 10)) rd rd
      = writeReg s rd (shiftRightArith (readReg s rd) (0x400 &&& cpuShiftMask c)) := rfl
  have hmask : 0x400 &&& cpuShiftMask c = 0 := by cases c <;> decide
  rw [h, hmask, shiftRightArith_zero, writeReg_self]

end Handlers

/-! ## Each decoder is the handler of the expansion -/

section Decoders

variable (m : Machine c) (h : BitVec 16) {b : Base}

theorem cextReg_lo : cextReg (h.setWidth 32) 2 = reg' h 2 := cextReg_half h (by decide)

theorem cextReg_hi : cextReg (h.setWidth 32) 7 = reg' h 7 := cextReg_half h (by decide)

theorem cextFullReg_lo : cextFullReg (h.setWidth 32) 2 = reg h 2 := cextFullReg_half h (by decide)

theorem cextFullReg_hi : cextFullReg (h.setWidth 32) 7 = reg h 7 := cextFullReg_half h (by decide)

theorem getLsbD_half_12 : (h.setWidth 32).getLsbD 12 = h.getLsbD 12 := by
  rw [BitVec.getLsbD_setWidth]
  rfl

theorem execBase_nop : execBase m 2 .nop = m := by
  show ({ m with cpu := doOPIMM m.cpu 0#3 (place (0#12) 0) x0 x0 } : Machine c) = m
  rw [doOPIMM_nop]

theorem decodeCextQ0_0_half
    (hb : (if uimmAddi4spn h = 0#12 then none
      else some (Base.addi (reg' h 2) sp (uimmAddi4spn h))) = some b) :
    decodeCextQ0_0 m (h.setWidth 32) = execBase m 2 b := by
  split at hb
  · cases hb
  · rename_i hnz
    obtain rfl := Option.some.inj hb
    simp only [decodeCextQ0_0, cextAddi4spnImm_half, cextReg_lo,
      if_pos (place_ne_zero (n := 32) (by decide) hnz)]
    rfl

theorem decodeCextQ0_2_half :
    decodeCextQ0_2 m (h.setWidth 32) = execBase m 2 (.lw (reg' h 2) (reg' h 7) (uimmWord h)) := by
  simp only [decodeCextQ0_2, cextWordOffset_half, cextReg_lo, cextReg_hi]
  rfl

theorem decodeCextQ0_3_half
    (hb : (if c.isRv64 then some (Base.ld (reg' h 2) (reg' h 7) (uimmDouble h)) else none)
      = some b) : decodeCextQ0_3 m (h.setWidth 32) = execBase m 2 b := by
  split at hb
  · rename_i h64
    obtain rfl := Option.some.inj hb
    simp only [decodeCextQ0_3, if_pos h64, cextDoubleOffset_half, cextReg_lo, cextReg_hi]
    rfl
  · cases hb

theorem decodeCextQ0_6_half :
    decodeCextQ0_6 m (h.setWidth 32) = execBase m 2 (.sw (reg' h 2) (reg' h 7) (uimmWord h)) := by
  simp only [decodeCextQ0_6, cextWordOffset_half, cextReg_lo, cextReg_hi]
  rfl

theorem decodeCextQ0_7_half
    (hb : (if c.isRv64 then some (Base.sd (reg' h 2) (reg' h 7) (uimmDouble h)) else none)
      = some b) : decodeCextQ0_7 m (h.setWidth 32) = execBase m 2 b := by
  split at hb
  · rename_i h64
    obtain rfl := Option.some.inj hb
    simp only [decodeCextQ0_7, if_pos h64, cextDoubleOffset_half, cextReg_lo, cextReg_hi]
    rfl
  · cases hb

theorem decodeCextQ1_0_half
    (hb : (if reg h 7 = x0 ∨ imm6 h = 0#6 then some Base.nop
      else some (Base.addi (reg h 7) (reg h 7) ((imm6 h).signExtend 12))) = some b) :
    decodeCextQ1_0 m (h.setWidth 32) = execBase m 2 b := by
  simp only [decodeCextQ1_0, cextImm6_half, cextSimm6_half, cextFullReg_hi, ne_eq,
    place_eq_zero_iff (imm6 h) (by decide : 6 ≤ 32), ite_not]
  split at hb
  · rename_i hint
    obtain rfl := Option.some.inj hb
    rw [execBase_nop]
    by_cases hrd : reg h 7 = 0#5
    · rw [if_pos hrd]
      rfl
    · rw [if_neg hrd, if_pos (hint.resolve_left hrd)]
      rfl
  · rename_i hno
    obtain ⟨hrd, himm⟩ := not_or.mp hno
    obtain rfl := Option.some.inj hb
    rw [if_neg hrd, if_neg himm, doOPIMM_addi]
    rfl

theorem decodeCextQ1_1_half
    (hb : (if c.isRv64 then
        if reg h 7 = x0 then none
        else some (Base.addiw (reg h 7) (reg h 7) ((imm6 h).signExtend 12))
      else some (Base.jal ra ((immJump h).signExtend 20))) = some b) :
    decodeCextQ1_1 m (h.setWidth 32) = execBase m 2 b := by
  simp only [decodeCextQ1_1, cextSimm6_half, cextFullReg_hi, cextJumpOffset_half]
  split at hb
  · rename_i h64
    split at hb
    · cases hb
    · rename_i hrd
      obtain rfl := Option.some.inj hb
      rw [if_pos h64, if_pos hrd, doOPIMM32_addiw]
      simp only [Base.addiw, execBase, if_pos h64]
  · rename_i h32
    obtain rfl := Option.some.inj hb
    rw [if_neg h32, doJAL_offset]
    rfl

theorem decodeCextQ1_2_half
    (hb : (if reg h 7 = x0 then some Base.nop
      else some (Base.addi (reg h 7) x0 ((imm6 h).signExtend 12))) = some b) :
    decodeCextQ1_2 m (h.setWidth 32) = execBase m 2 b := by
  simp only [decodeCextQ1_2, cextSimm6_half, cextFullReg_hi, ne_eq, ite_not]
  split at hb
  · rename_i hrd
    obtain rfl := Option.some.inj hb
    rw [execBase_nop, if_pos hrd]
    rfl
  · rename_i hrd
    obtain rfl := Option.some.inj hb
    rw [if_neg hrd, doOPIMM_addi]
    rfl

theorem decodeCextQ1_3_half
    (hb : (if reg h 7 = sp then
        if immAddi16sp h = 0#10 then none
        else some (Base.addi sp sp ((immAddi16sp h).signExtend 12))
      else if imm6 h = 0#6 then none
      else if reg h 7 = x0 then some Base.nop
      else some (Base.lui (reg h 7) ((imm6 h).signExtend 20))) = some b) :
    decodeCextQ1_3 m (h.setWidth 32) = execBase m 2 b := by
  simp only [decodeCextQ1_3, cextImm6_half, cextSimm6_half, cextFullReg_hi, cextAddi16spImm_half,
    ne_eq, place_eq_zero_iff (imm6 h) (by decide : 6 ≤ 32),
    place_eq_zero_iff (immAddi16sp h) (by decide : 10 ≤ 32), ite_not]
  split at hb
  · rename_i hsp
    have hne : ¬ reg h 7 = 0#5 := by
      rw [hsp]
      decide
    split at hb
    · cases hb
    · rename_i himm
      obtain rfl := Option.some.inj hb
      rw [if_neg hne, if_pos hsp, if_neg himm, doOPIMM_addi16sp]
      rfl
  · rename_i hsp
    split at hb
    · cases hb
    · rename_i himm
      split at hb
      · rename_i hrd
        obtain rfl := Option.some.inj hb
        rw [execBase_nop, if_pos hrd]
        rfl
      · rename_i hrd
        obtain rfl := Option.some.inj hb
        rw [if_neg hrd, if_neg hsp, if_neg himm]
        rw [signExtend_shiftLeft (m := 20) (imm6 h) 12 (by decide)]
        rfl

theorem bv2_eq_three {x : BitVec 2} (h0 : x = 0#2 → False) (h1 : x = 1#2 → False)
    (h2 : x = 2#2 → False) : x = 3#2 := by
  revert x
  decide

theorem decodeCextQ1_4_half (hb : expandAlu c.isRv64 h = some b) :
    decodeCextQ1_4 m (h.setWidth 32) = execBase m 2 b := by
  simp only [decodeCextQ1_4, extractLsb'_half h (by decide : 10 + 2 ≤ 32),
    extractLsb'_half h (by decide : 5 + 2 ≤ 32), getLsbD_half_12, cextReg_lo, cextReg_hi,
    cextImm6_half, cextSimm6_half]
  unfold expandAlu at hb
  simp only at hb
  split at hb
  case h_1 hsel =>
    rw [hsel]
    split at hb
    · cases hb
    · split at hb
      · rename_i himm
        obtain rfl := Option.some.inj hb
        rw [execBase_nop, himm]
        show ({ m with cpu := doOPIMM m.cpu 5#3 0#32 (reg' h 7) (reg' h 7) } : Machine c) = m
        rw [doOPIMM_srli_zero]
      · obtain rfl := Option.some.inj hb
        simp only [Base.srli, execBase, place_place _ 0 (by decide : 0 + 6 ≤ 12)]
        rfl
  case h_2 hsel =>
    rw [hsel]
    split at hb
    · cases hb
    · split at hb
      · rename_i himm
        obtain rfl := Option.some.inj hb
        rw [execBase_nop, himm]
        show ({ m with
          cpu := doOPIMM m.cpu 5#3 (0#32 ||| (1#32 <<< 10)) (reg' h 7) (reg' h 7) } : Machine c) = m
        rw [doOPIMM_srai_zero]
      · obtain rfl := Option.some.inj hb
        simp only [Base.srai, execBase, place_or, place_place _ 0 (by decide : 0 + 6 ≤ 12),
          place_place _ 0 (by decide : 10 + 1 ≤ 12)]
        rfl
  case h_3 hsel =>
    obtain rfl := Option.some.inj hb
    rw [hsel, doOPIMM_andi]
    rfl
  case h_4 h0 h1 h2 =>
    rw [bv2_eq_three h0 h1 h2]
    split at hb
    case h_1 h12 hop =>
      obtain rfl := Option.some.inj hb
      rw [h12, hop]
      rfl
    case h_2 h12 hop =>
      obtain rfl := Option.some.inj hb
      rw [h12, hop]
      rfl
    case h_3 h12 hop =>
      obtain rfl := Option.some.inj hb
      rw [h12, hop]
      rfl
    case h_4 h12 h0 h1 h2 =>
      obtain rfl := Option.some.inj hb
      rw [h12, bv2_eq_three h0 h1 h2]
      rfl
    case h_5 h12 hop =>
      split at hb
      · rename_i h64
        obtain rfl := Option.some.inj hb
        rw [h12, hop]
        simp only [if_pos h64, Base.subw, execBase]
        rfl
      · cases hb
    case h_6 h12 hop =>
      split at hb
      · rename_i h64
        obtain rfl := Option.some.inj hb
        rw [h12, hop]
        simp only [if_pos h64, Base.addw, execBase]
        rfl
      · cases hb
    case h_7 => cases hb

theorem decodeCextQ1_5_half :
    decodeCextQ1_5 m (h.setWidth 32) = execBase m 2 (.jal x0 ((immJump h).signExtend 20)) := by
  simp only [decodeCextQ1_5, cextJumpOffset_half, doJAL_offset]
  rfl

theorem decodeCextQ1_6_half :
    decodeCextQ1_6 m (h.setWidth 32)
      = execBase m 2 (.beq (reg' h 7) x0 ((immBranch h).signExtend 12)) := by
  simp only [decodeCextQ1_6, cextBranchOffset_half, cextReg_hi, doBRANCH_offset]
  rfl

theorem decodeCextQ1_7_half :
    decodeCextQ1_7 m (h.setWidth 32)
      = execBase m 2 (.bne (reg' h 7) x0 ((immBranch h).signExtend 12)) := by
  simp only [decodeCextQ1_7, cextBranchOffset_half, cextReg_hi, doBRANCH_offset]
  rfl

theorem decodeCextQ2_0_half
    (hb : (if !c.isRv64 && h.getLsbD 12 then none
      else if reg h 7 = x0 ∨ imm6 h = 0#6 then some Base.nop
      else some (Base.slli (reg h 7) (reg h 7) (imm6 h))) = some b) :
    decodeCextQ2_0 m (h.setWidth 32) = execBase m 2 b := by
  simp only [decodeCextQ2_0, cextImm6_half, cextFullReg_hi, ne_eq,
    place_eq_zero_iff (imm6 h) (by decide : 6 ≤ 32), Bool.and_eq_true, decide_eq_true_eq]
  split at hb
  · cases hb
  · split at hb
    · rename_i hint
      obtain rfl := Option.some.inj hb
      rw [execBase_nop, if_neg (by tauto)]
      rfl
    · rename_i hno
      obtain ⟨hrd, himm⟩ := not_or.mp hno
      obtain rfl := Option.some.inj hb
      rw [if_pos ⟨himm, hrd⟩]
      simp only [Base.slli, execBase, place_place _ 0 (by decide : 0 + 6 ≤ 12)]

theorem decodeCextQ2_2_half
    (hb : (if reg h 7 = x0 then none else some (Base.lw (reg h 7) sp (uimmLwsp h))) = some b) :
    decodeCextQ2_2 m (h.setWidth 32) = execBase m 2 b := by
  split at hb
  · cases hb
  · rename_i hrd
    obtain rfl := Option.some.inj hb
    simp only [decodeCextQ2_2, cextFullReg_hi, if_pos hrd]
    rw [shiftLeft_and _ _ 4 2 6 (by decide) (by decide), ushiftRight_and _ _ 2 3 2 (by decide),
      ushiftRight_and _ _ 7 1 5 (by decide)]
    simp (disch := decide) [Base.lw, execBase, uimmLwsp, bits, place_or, place_place,
      extractLsb'_half, BitVec.or_comm, bv_or_left_comm]

theorem decodeCextQ2_3_half
    (hb : (if c.isRv64 then
        if reg h 7 = x0 then none else some (Base.ld (reg h 7) sp (uimmLdsp h))
      else none) = some b) : decodeCextQ2_3 m (h.setWidth 32) = execBase m 2 b := by
  split at hb
  · rename_i h64
    split at hb
    · cases hb
    · rename_i hrd
      obtain rfl := Option.some.inj hb
      simp only [decodeCextQ2_3, cextFullReg_hi, if_pos h64, if_pos hrd]
      rw [shiftLeft_and _ _ 4 3 6 (by decide) (by decide), ushiftRight_and _ _ 2 2 3 (by decide),
        ushiftRight_and _ _ 7 1 5 (by decide)]
      simp (disch := decide) [Base.ld, execBase, uimmLdsp, bits, place_or, place_place,
        extractLsb'_half, BitVec.or_comm, bv_or_left_comm]
  · cases hb

theorem decodeCextQ2_4_half (hb : expandJumpMove h = some b) :
    decodeCextQ2_4 m (h.setWidth 32) = execBase m 2 b := by
  simp only [decodeCextQ2_4, cextFullReg_hi, cextFullReg_lo, getLsbD_half_12, ne_eq, ite_not]
  unfold expandJumpMove at hb
  simp only at hb
  split at hb
  · rename_i h12
    rw [if_pos h12]
    split at hb
    · rename_i hrs2
      rw [if_pos hrs2]
      split at hb
      · rename_i hrd
        obtain rfl := Option.some.inj hb
        rw [if_pos hrd]
        rfl
      · rename_i hrd
        obtain rfl := Option.some.inj hb
        rw [if_neg hrd]
        rfl
    · rename_i hrs2
      rw [if_neg hrs2]
      split at hb
      · rename_i hrd
        obtain rfl := Option.some.inj hb
        rw [if_pos hrd, execBase_nop]
        rfl
      · rename_i hrd
        obtain rfl := Option.some.inj hb
        rw [if_neg hrd]
        rfl
  · rename_i h12
    rw [if_neg h12]
    split at hb
    · rename_i hrs2
      rw [if_pos hrs2]
      split at hb
      · cases hb
      · rename_i hrd
        obtain rfl := Option.some.inj hb
        rw [if_neg hrd]
        rfl
    · rename_i hrs2
      rw [if_neg hrs2]
      split at hb
      · rename_i hrd
        obtain rfl := Option.some.inj hb
        rw [if_pos hrd, execBase_nop]
        rfl
      · rename_i hrd
        obtain rfl := Option.some.inj hb
        rw [if_neg hrd]
        rfl

theorem decodeCextQ2_6_half :
    decodeCextQ2_6 m (h.setWidth 32) = execBase m 2 (.sw (reg h 2) sp (uimmSwsp h)) := by
  simp only [decodeCextQ2_6, cextFullReg_lo]
  rw [ushiftRight_and _ _ 7 4 2 (by decide), ushiftRight_and _ _ 1 2 6 (by decide)]
  simp (disch := decide) [Base.sw, execBase, uimmSwsp, bits, place_or, place_place,
    extractLsb'_half]

theorem decodeCextQ2_7_half
    (hb : (if c.isRv64 then some (Base.sd (reg h 2) sp (uimmSdsp h)) else none) = some b) :
    decodeCextQ2_7 m (h.setWidth 32) = execBase m 2 b := by
  split at hb
  · rename_i h64
    obtain rfl := Option.some.inj hb
    simp only [decodeCextQ2_7, cextFullReg_lo, if_pos h64]
    rw [ushiftRight_and _ _ 7 3 3 (by decide), ushiftRight_and _ _ 1 3 6 (by decide)]
    simp (disch := decide) [Base.sd, execBase, uimmSdsp, bits, place_or, place_place,
      extractLsb'_half]
  · cases hb

/-- **The jump table of `_execCext` refines the expansion.** -/
theorem cextTable_expand (hb : expand c.isRv64 h = some b) :
    cextTable m (h.setWidth 32) (h.extractLsb' 0 2) (h.extractLsb' 13 3) = execBase m 2 b := by
  unfold expand at hb
  split at hb
  case h_1 hq hf => rw [hq, hf]; exact decodeCextQ0_0_half m h hb
  case h_2 hq hf =>
    obtain rfl := Option.some.inj hb
    rw [hq, hf]
    exact decodeCextQ0_2_half m h
  case h_3 hq hf => rw [hq, hf]; exact decodeCextQ0_3_half m h hb
  case h_4 hq hf =>
    obtain rfl := Option.some.inj hb
    rw [hq, hf]
    exact decodeCextQ0_6_half m h
  case h_5 hq hf => rw [hq, hf]; exact decodeCextQ0_7_half m h hb
  case h_6 hq hf => rw [hq, hf]; exact decodeCextQ1_0_half m h hb
  case h_7 hq hf => rw [hq, hf]; exact decodeCextQ1_1_half m h hb
  case h_8 hq hf => rw [hq, hf]; exact decodeCextQ1_2_half m h hb
  case h_9 hq hf => rw [hq, hf]; exact decodeCextQ1_3_half m h hb
  case h_10 hq hf => rw [hq, hf]; exact decodeCextQ1_4_half m h hb
  case h_11 hq hf =>
    obtain rfl := Option.some.inj hb
    rw [hq, hf]
    exact decodeCextQ1_5_half m h
  case h_12 hq hf =>
    obtain rfl := Option.some.inj hb
    rw [hq, hf]
    exact decodeCextQ1_6_half m h
  case h_13 hq hf =>
    obtain rfl := Option.some.inj hb
    rw [hq, hf]
    exact decodeCextQ1_7_half m h
  case h_14 hq hf => rw [hq, hf]; exact decodeCextQ2_0_half m h hb
  case h_15 hq hf => rw [hq, hf]; exact decodeCextQ2_2_half m h hb
  case h_16 hq hf => rw [hq, hf]; exact decodeCextQ2_3_half m h hb
  case h_17 hq hf => rw [hq, hf]; exact decodeCextQ2_4_half m h hb
  case h_18 hq hf =>
    obtain rfl := Option.some.inj hb
    rw [hq, hf]
    exact decodeCextQ2_6_half m h
  case h_19 hq hf => rw [hq, hf]; exact decodeCextQ2_7_half m h hb
  case h_20 => cases hb

end Decoders

/-! ## What a base instruction does to the PC -/

/-- The register a jump links. -/
def linkReg : Base → Option RegNo
  | .jal rd _ => if rd = x0 then none else some rd
  | .jalr rd _ _ => if rd = x0 then none else some rd
  | _ => none

/-- The instruction jumps, or is a branch that is taken. -/
def transfers (s : Cpu c) : Base → Bool
  | .jal .. => true
  | .jalr .. => true
  | .branch funct3 rs1 rs2 _ => branchTaken funct3 (readReg s rs1) (readReg s rs2) == some true
  | _ => false

/-- The two steps of a 16-bit and a 32-bit form of the instruction `b`, taken from `m`: they differ
in a sequential PC and in the value a jump links. -/
structure SameStep (m : Machine c) (b : Base) (half full : Machine c) : Prop where
  rest : half = { full with cpu := { full.cpu with pc := half.cpu.pc, regs := half.cpu.regs } }
  regs : ∀ r, linkReg b ≠ some r → half.cpu.regs r = full.cpu.regs r
  link : ∀ r, linkReg b = some r → half.cpu.regs r = (m.cpu.pc + 2#_).setWidth _
    ∧ full.cpu.regs r = (m.cpu.pc + 4#_).setWidth _
  trapped : full.cpu.trap = true → half.cpu.pc = m.cpu.pc ∧ full.cpu.pc = m.cpu.pc
  target : full.cpu.trap = false → transfers m.cpu b = true → half.cpu.pc = full.cpu.pc
  next : full.cpu.trap = false → transfers m.cpu b = false →
    half.cpu.pc = m.cpu.pc + 2#_ ∧ full.cpu.pc = m.cpu.pc + 4#_

/-! ## Instructions that leave the PC alone -/

theorem writeReg_pc (s : Cpu c) (rd : Reg) (d : Word c) : (writeReg s rd d).pc = s.pc := by
  unfold writeReg
  split <;> rfl

theorem doLOAD_pc (m : Machine c) (funct3 : BitVec 3) (iimm : BitVec 32) (rd rs1 : Reg) :
    (doLOAD m funct3 iimm rd rs1).cpu.pc = m.cpu.pc := by
  simp only [doLOAD]
  split
  · rfl
  · exact (writeReg_pc _ _ _).trans (readMem_pc _ _ _)

theorem doSTORE_pc (m : Machine c) (funct3 : BitVec 3) (simm : BitVec 32) (rs1 rs2 : Reg) :
    (doSTORE m funct3 simm rs1 rs2).cpu.pc = m.cpu.pc := by
  simp only [doSTORE]
  split
  · rfl
  · exact writeMem_pc _ _ _

theorem doOPIMM_pc (s : Cpu c) (funct3 : BitVec 3) (iimm : BitVec 32) (rd rs1 : Reg) :
    (doOPIMM s funct3 iimm rd rs1).pc = s.pc := by
  unfold doOPIMM
  split
  case h_1 | h_5 => split <;> first | exact writeReg_pc _ _ _ | rfl
  all_goals exact writeReg_pc _ _ _

theorem doOPIMM32_pc (s : Cpu c) (funct3 : BitVec 3) (iimm : BitVec 32) (rd rs1 : Reg) :
    (doOPIMM32 s funct3 iimm rd rs1).pc = s.pc := by
  unfold doOPIMM32
  split
  case h_2 | h_3 => split <;> first | exact writeReg_pc _ _ _ | rfl
  all_goals first | exact writeReg_pc _ _ _ | rfl

theorem doOP_pc (s : Cpu c) (funct3 : BitVec 3) (funct7 : BitVec 7) (rd rs1 rs2 : Reg) :
    (doOP s funct3 funct7 rd rs1 rs2).pc = s.pc := by
  unfold doOP
  split <;> first | exact writeReg_pc _ _ _ | rfl

theorem doOP32_pc (s : Cpu c) (funct3 : BitVec 3) (funct7 : BitVec 7) (rd rs1 rs2 : Reg) :
    (doOP32 s funct3 funct7 rd rs1 rs2).pc = s.pc := by
  unfold doOP32
  split <;> first | exact writeReg_pc _ _ _ | rfl

/-- What does not depend on the size, and neither jumps nor links. -/
theorem sameStep_sequential {m n : Machine c} {b : Base} (hpc : n.cpu.pc = m.cpu.pc)
    (hlink : linkReg b = none) (htake : transfers m.cpu b = false) :
    SameStep m b (advancePC n 2) (advancePC n 4) := by
  have hnone : ∀ r, linkReg b ≠ some r := by
    intro r hr
    rw [hlink] at hr
    cases hr
  have hnot : transfers m.cpu b ≠ true := by
    rw [htake]
    decide
  by_cases ht : n.cpu.trap = true
  · have hadv : ∀ k, advancePC n k = n := by
      intro k
      simp only [advancePC, writePC, if_pos ht]
    rw [hadv, hadv]
    refine ⟨rfl, fun _ _ => rfl, fun r hr => absurd hr (hnone r), fun _ => ⟨hpc, hpc⟩, ?_, ?_⟩
    · intro hf
      exact absurd ht (Bool.eq_false_iff.mp hf)
    · intro hf
      exact absurd ht (Bool.eq_false_iff.mp hf)
  · have hadv : ∀ k, advancePC n k
        = { n with cpu := { n.cpu with pc := m.cpu.pc + BitVec.ofNat _ k } } := by
      intro k
      simp only [advancePC, writePC, if_neg ht, readPC, hpc]
    rw [hadv, hadv]
    refine ⟨rfl, fun _ _ => rfl, fun r hr => absurd hr (hnone r), ?_, ?_, fun _ _ => ⟨rfl, rfl⟩⟩
    · intro hf
      exact absurd hf ht
    · intro _ hf
      exact absurd hf hnot

/-! ## Jumps and branches -/

/-- After a jump to `target` that links `rd`, in an instruction of `size` bytes. -/
def jumped (m : Machine c) (rd : Reg) (target : Addr c) (size : Nat) : Machine c :=
  let hart := writeReg m.cpu rd ((m.cpu.pc + BitVec.ofNat _ size).setWidth _)
  { m with cpu := { hart with pc := target } }

theorem writeReg_notrap {s : Cpu c} (ht : s.trap = false) (rd : Reg) (d : Word c) :
    (writeReg s rd d).trap = false := by
  unfold writeReg
  split <;> exact ht

/-- The handlers subtract the size that the run loop adds. -/
theorem advancePC_jump {m : Machine c} {s : Cpu c} (ht : s.trap = false) (target : Addr c)
    (size : Nat) :
    advancePC { m with cpu := writePC s (target - BitVec.ofNat _ size) } size
      = { m with cpu := { s with pc := target } } := by
  simp only [advancePC, writePC, ht, Bool.false_eq_true, if_false, readPC]
  rw [BitVec.sub_add_cancel]

theorem setWidth_sub_size (t : Word c) (size : Nat) :
    (t - BitVec.ofNat _ size).setWidth c.alen = t.setWidth c.alen - BitVec.ofNat _ size := by
  have hsize : (BitVec.ofNat c.xlen size).setWidth c.alen = BitVec.ofNat c.alen size :=
    BitVec.setWidth_ofNat_of_le c.alen_le_xlen size
  rw [BitVec.eq_sub_iff_add_eq, ← hsize, ← BitVec.setWidth_add _ _ c.alen_le_xlen,
    BitVec.sub_add_cancel]

theorem doJAL_advance {m : Machine c} (ht : m.cpu.trap = false) (jimm : BitVec 32) (rd : Reg)
    (size : Nat) :
    advancePC { m with cpu := doJAL m.cpu jimm rd size } size
      = jumped m rd
        ((m.cpu.pc.setWidth _ + Bits.signExtend (jimm.setWidth _) 20 : Word c).setWidth _)
        size := by
  simp only [doJAL, readPC, BitVec.ofInt_natCast, setWidth_sub_size]
  exact advancePC_jump (writeReg_notrap ht _ _) _ size

theorem doJALR_advance {m : Machine c} (ht : m.cpu.trap = false) (iimm : BitVec 32)
    (rd rs1 : Reg) (size : Nat) :
    advancePC { m with cpu := doJALR m.cpu 0#3 iimm rd rs1 size } size
      = jumped m rd
        (((readReg m.cpu rs1 + Bits.signExtend (iimm.setWidth _) 11) &&& ~~~1#_).setWidth _)
        size := by
  simp only [doJALR, readPC, BitVec.ofInt_natCast]
  exact advancePC_jump (writeReg_notrap ht _ _) _ size

theorem doBRANCH_advance {m : Machine c} (ht : m.cpu.trap = false) (funct3 : BitVec 3)
    (bimm : BitVec 32) (rs1 rs2 : Reg)
    (htake : branchTaken funct3 (readReg m.cpu rs1) (readReg m.cpu rs2) = some true) (size : Nat) :
    advancePC { m with cpu := doBRANCH m.cpu funct3 bimm rs1 rs2 size } size
      = jumped m x0
        ((m.cpu.pc.setWidth _ + Bits.signExtend (bimm.setWidth _) 12 : Word c).setWidth _)
        size := by
  simp only [doBRANCH, htake, readPC, BitVec.ofInt_natCast, setWidth_sub_size, jumped, writeReg_x0]
  exact advancePC_jump ht _ size

/-- Jumps of the two sizes. -/
theorem sameStep_jump {m : Machine c} {b : Base} (ht : m.cpu.trap = false) (rd : Reg)
    (target : Addr c) (hlink : linkReg b = if rd = x0 then none else some rd)
    (htake : transfers m.cpu b = true) :
    SameStep m b (jumped m rd target 2) (jumped m rd target 4) := by
  have hnot : transfers m.cpu b ≠ false := by
    rw [htake]
    decide
  have hfull : (jumped m rd target 4).cpu.trap = false := writeReg_notrap ht _ _
  refine ⟨?_, ?_, ?_, ?_, fun _ _ => rfl, fun _ hf => absurd hf hnot⟩
  · unfold jumped writeReg
    split <;> rfl
  · intro r hr
    unfold jumped writeReg
    split
    · rfl
    · rename_i hrd
      have hne : r ≠ rd := by
        rintro rfl
        rw [if_neg (by simpa [ht] using hrd)] at hlink
        exact hr hlink
      simp only [Function.update_of_ne hne]
  · intro r hr
    rw [hlink] at hr
    split at hr
    · cases hr
    · rename_i hrd
      obtain rfl := Option.some.inj hr
      have hcond : (rd = 0#5 || m.cpu.trap) = false := by simp [hrd, ht]
      simp only [jumped, writeReg, hcond, Bool.false_eq_true, if_false, Function.update_self]
      exact ⟨trivial, trivial⟩
  · intro hf
    exact absurd hf (Bool.eq_false_iff.mp hfull)

/-- The two sizes of a base instruction. -/
theorem sameStep_execBase {m : Machine c} (ht : m.cpu.trap = false) (b : Base) :
    SameStep m b (advancePC (execBase m 2 b) 2) (advancePC (execBase m 4 b) 4) := by
  cases b with
  | load funct3 rd rs1 imm => exact sameStep_sequential (doLOAD_pc m _ _ _ _) rfl rfl
  | store funct3 rs1 rs2 imm => exact sameStep_sequential (doSTORE_pc m _ _ _ _) rfl rfl
  | opImm funct3 rd rs1 imm => exact sameStep_sequential (doOPIMM_pc m.cpu _ _ _ _) rfl rfl
  | opImm32 funct3 rd rs1 imm =>
      refine sameStep_sequential (n := execBase m 2 (.opImm32 funct3 rd rs1 imm)) ?_ rfl rfl
      simp only [execBase]
      split
      · exact doOPIMM32_pc m.cpu _ _ _ _
      · rfl
  | op funct7 funct3 rd rs1 rs2 => exact sameStep_sequential (doOP_pc m.cpu _ _ _ _ _) rfl rfl
  | op32 funct7 funct3 rd rs1 rs2 =>
      refine sameStep_sequential (n := execBase m 2 (.op32 funct7 funct3 rd rs1 rs2)) ?_ rfl rfl
      simp only [execBase]
      split
      · exact doOP32_pc m.cpu _ _ _ _ _
      · rfl
  | lui rd imm => exact sameStep_sequential (writeReg_pc m.cpu _ _) rfl rfl
  | jal rd imm =>
      have h2 := doJAL_advance ht (place imm 1) rd 2
      have h4 := doJAL_advance ht (place imm 1) rd 4
      show SameStep m (.jal rd imm)
        (advancePC { m with cpu := doJAL m.cpu (place imm 1) rd (2 : Nat) } 2)
        (advancePC { m with cpu := doJAL m.cpu (place imm 1) rd (4 : Nat) } 4)
      rw [h2, h4]
      exact sameStep_jump ht rd _ rfl rfl
  | jalr rd rs1 imm =>
      have h2 := doJALR_advance ht (place imm 0) rd rs1 2
      have h4 := doJALR_advance ht (place imm 0) rd rs1 4
      show SameStep m (.jalr rd rs1 imm)
        (advancePC { m with cpu := doJALR m.cpu 0#3 (place imm 0) rd rs1 (2 : Nat) } 2)
        (advancePC { m with cpu := doJALR m.cpu 0#3 (place imm 0) rd rs1 (4 : Nat) } 4)
      rw [h2, h4]
      exact sameStep_jump ht rd _ rfl rfl
  | branch funct3 rs1 rs2 imm =>
      cases htake : branchTaken funct3 (readReg m.cpu rs1) (readReg m.cpu rs2) with
      | none =>
          have hill : ∀ size, doBRANCH m.cpu funct3 (place imm 1) rs1 rs2 size = doILL m.cpu := by
            intro size
            simp only [doBRANCH, htake]
          simp only [execBase, hill]
          exact sameStep_sequential (n := { m with cpu := doILL m.cpu }) rfl rfl
            (by simp [transfers, htake])
      | some taken =>
          cases taken with
          | false =>
              have hseq : ∀ size, doBRANCH m.cpu funct3 (place imm 1) rs1 rs2 size = m.cpu := by
                intro size
                simp only [doBRANCH, htake]
              simp only [execBase, hseq]
              exact sameStep_sequential (n := m) rfl rfl (by simp [transfers, htake])
          | true =>
              have h2 := doBRANCH_advance ht funct3 (place imm 1) rs1 rs2 htake 2
              have h4 := doBRANCH_advance ht funct3 (place imm 1) rs1 rs2 htake 4
              show SameStep m (.branch funct3 rs1 rs2 imm)
                (advancePC
                  { m with cpu := doBRANCH m.cpu funct3 (place imm 1) rs1 rs2 (2 : Nat) } 2)
                (advancePC
                  { m with cpu := doBRANCH m.cpu funct3 (place imm 1) rs1 rs2 (4 : Nat) } 4)
              rw [h2, h4]
              exact sameStep_jump ht x0 _ rfl (by simp [transfers, htake])
  | ebreak => exact sameStep_sequential (n := { m with cpu := trap m.cpu .breakpoint }) rfl rfl rfl

/-! ## The steps of `rv_run` -/

theorem expand_quadrant {rv64 : Bool} {h : BitVec 16} {b : Base} (hb : expand rv64 h = some b) :
    h.extractLsb' 0 2 ≠ 3#2 := by
  intro hq
  unfold expand at hb
  rw [hq] at hb
  cases hb

theorem rvExec_half {m : Machine c} {w : BitVec 32} {b : Base}
    (hb : expand c.isRv64 (w.setWidth 16) = some b) :
    rvExec m w = advancePC (execBase m 2 b) 2 := by
  have hlow : w &&& 0xFFFF#32 = (w.setWidth 16).setWidth 32 := by
    have h := ushiftRight_and w 0xFFFF#32 0 16 0 (by decide)
    rw [BitVec.ushiftRight_zero, place_zero] at h
    rw [h]
    rfl
  have hfield : ∀ {start len : Nat}, start + len ≤ 16 →
      w.extractLsb' start len = (w.setWidth 16).extractLsb' start len :=
    fun hlen => (BitVec.extractLsb'_setWidth_of_le hlen).symm
  have hq := expand_quadrant hb
  have hcext : execCext m w = some (execBase m 2 b) := by
    unfold execCext
    simp only [hfield (by decide : 0 + 2 ≤ 16), hfield (by decide : 13 + 3 ≤ 16), hlow, if_neg hq]
    rw [cextTable_expand m _ hb]
  simp only [rvExec, hcext]

theorem rvExec_encode (m : Machine c) (b : Base) :
    rvExec m b.encode = advancePC (execBase m 4 b) 4 := by
  have hcext : execCext m b.encode = none := by
    unfold execCext
    simp only [quadrant_encode, if_true]
  simp only [rvExec, hcext, execInstr_encode]

/-- **Compressed instructions equal their expansions.** Whatever was fetched, when its low half is a
legal 16-bit instruction the step of `rv_run` is that of the expansion but for the size. -/
theorem compressed_step (m : Machine c) (ht : m.cpu.trap = false) (w : BitVec 32) (b : Base)
    (hb : expand c.isRv64 (w.setWidth 16) = some b) :
    SameStep m b (rvExec m w) (rvExec m b.encode) := by
  rw [rvExec_half hb, rvExec_encode]
  exact sameStep_execBase ht b

/-- `c.jal .+4` on RV32, with another instruction's bits in the upper half of the fetched word. -/
theorem compressed_step_jal :
    SameStep (vmInit (mainBus .rv32 0x2000000) ⟨fun _ => 0#8⟩ true) (.jal ra 2#20)
      (rvExec (vmInit (mainBus .rv32 0x2000000) ⟨fun _ => 0#8⟩ true) 0xABCD2011#32)
      (rvExec (vmInit (mainBus .rv32 0x2000000) ⟨fun _ => 0#8⟩ true) (Base.jal ra 2#20).encode) :=
  compressed_step _ rfl 0xABCD2011#32 (.jal ra 2#20) (by decide)

end RV640
