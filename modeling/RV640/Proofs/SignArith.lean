import RV640.Proofs.WordOps
import RV640.Cpu.Cext

set_option autoImplicit false

/-! # Signed arithmetic on unsigned words

The source has no signed shift: SRA and its relatives fill the vacated bits with the complement of
a borrow. Immediates are extended by a product with zero or one, and those of compressed
instructions twice, once to 32 bits and once more by the handler of the base instruction.
-/

namespace RV640

open Bits

variable {c : Cfg}

/-- The two's complement reading of the `k + 1` low bits of a word. -/
def signedField (k n : Nat) : Int := if n < 2 ^ k then n else (n : Int) - 2 ^ (k + 1)

theorem signedField_eq_toInt {w k : Nat} (v : BitVec w) (hv : v.toNat < 2 ^ (k + 1)) :
    signedField k v.toNat = (v.setWidth (k + 1)).toInt := by
  have hnat : (v.setWidth (k + 1)).toNat = v.toNat := by
    rw [BitVec.toNat_setWidth, Nat.mod_eq_of_lt hv]
  rw [signedField, BitVec.toInt_eq_toNat_cond, hnat, pow_succ]
  push_cast
  by_cases hlt : v.toNat < 2 ^ k
  · rw [if_pos hlt, if_pos (by omega)]
  · rw [if_neg hlt, if_neg (by omega), pow_succ]

/-- A word below `2 ^ (k + 1)` is its low field. -/
theorem setWidth_field_self {w k : Nat} (v : BitVec w) (hv : v.toNat < 2 ^ (k + 1)) :
    (v.setWidth (k + 1)).setWidth w = v := by
  apply BitVec.eq_of_toNat_eq
  rw [BitVec.toNat_setWidth, BitVec.toNat_setWidth, Nat.mod_eq_of_lt hv,
    Nat.mod_eq_of_lt v.isLt]

/-! ## The shift -/

/-- The branch-free right shift divides, rounding down. -/
theorem shiftRightArith_fdiv {w : Nat} (v : BitVec w) {s : Nat} (hs : s < w) :
    shiftRightArith v s = BitVec.ofInt w (v.toInt.fdiv (2 ^ s)) := by
  calc shiftRightArith v s
      = v.sshiftRight s := shiftRightArith_eq v hs
    _ = BitVec.ofInt w (v.toInt >>> s) := BitVec.sshiftRight_eq
    _ = BitVec.ofInt w (v.toInt / 2 ^ s) := by rw [Int.shiftRight_eq_div_pow]; norm_cast
    _ = BitVec.ofInt w (v.toInt.fdiv (2 ^ s)) := by
        rw [Int.fdiv_eq_ediv_of_nonneg _ (by positivity)]

/-- Masking with `CPU_SHIFT_MASK` takes the count modulo the width. -/
theorem and_cpuShiftMask (n : Nat) : n &&& cpuShiftMask c = n % c.xlen := by
  cases c with
  | rv32 => exact Nat.and_two_pow_sub_one_eq_mod n 5
  | rv64 => exact Nat.and_two_pow_sub_one_eq_mod n 6
  | rv64Addr32 => exact Nat.and_two_pow_sub_one_eq_mod n 6

/-- The masked count is one the shift is right for. -/
theorem shift_masked (v : Word c) (n : Nat) :
    shiftRightArith v (n &&& cpuShiftMask c)
      = BitVec.ofInt _ (v.toInt.fdiv (2 ^ (n % c.xlen))) := by
  have hlt : n % c.xlen < c.xlen := Nat.mod_lt _ (by have := c.xlen_ge; omega)
  rw [and_cpuShiftMask, shiftRightArith_fdiv v hlt]

/-- The same for the word instructions, whose count has five bits. -/
theorem shift_masked_word (v : BitVec 32) (n : Nat) :
    shiftRightArith v (n &&& 0x1F) = BitVec.ofInt 32 (v.toInt.fdiv (2 ^ (n % 32))) := by
  rw [WordInstr.and_31, shiftRightArith_fdiv v (Nat.mod_lt _ (by decide))]

/-! ## The extension -/

/-- The branch-free extension of a field that fills the bits up to its sign. -/
theorem signExtend_signedField {w k : Nat} (v : BitVec w) (hk : k < w)
    (hv : v.toNat < 2 ^ (k + 1)) :
    Bits.signExtend v k = BitVec.ofInt w (signedField k v.toNat) := by
  have h := signExtend_setWidth_field (v.setWidth (k + 1)) hk
  rw [setWidth_field_self v hv] at h
  rw [h, signedField_eq_toInt v hv]
  rfl

/-- Extending to 32 bits and then, at a sign bit not below the first, to the word. -/
theorem signExtend_twice {w k j : Nat} (v : BitVec 32) (hkj : k ≤ j) (hj : j ≤ 31) (hjw : j < w)
    (hv : v.toNat < 2 ^ (k + 1)) :
    Bits.signExtend ((Bits.signExtend v k).setWidth w) j = Bits.signExtend (v.setWidth w) k := by
  have hself : (v.setWidth (k + 1)).setWidth w = v.setWidth w := by
    apply BitVec.eq_of_toNat_eq
    rw [BitVec.toNat_setWidth, BitVec.toNat_setWidth, BitVec.toNat_setWidth, Nat.mod_eq_of_lt hv]
  have hfirst : Bits.signExtend v k = (v.setWidth (k + 1)).signExtend 32 := by
    have h := signExtend_setWidth_field (v.setWidth (k + 1)) (show k < 32 by omega)
    rwa [setWidth_field_self v hv] at h
  calc Bits.signExtend ((Bits.signExtend v k).setWidth w) j
      = Bits.signExtend (((v.setWidth (k + 1)).signExtend 32).setWidth w) j := by rw [hfirst]
    _ = (v.setWidth (k + 1)).signExtend w :=
        signExtend_setWidth_signExtend _ (by omega) (by omega) (by omega) hjw
    _ = Bits.signExtend ((v.setWidth (k + 1)).setWidth w) k :=
        (signExtend_setWidth_field _ (by omega)).symm
    _ = Bits.signExtend (v.setWidth w) k := by rw [hself]

/-! ## The instructions -/

/-- What the source computes with signs on unsigned words: the shift at every width and count, in
each instruction that masks its count for it, and the extension at every width and sign bit, once
or twice. -/
structure SignArith (c : Cfg) : Prop where
  shift : ∀ (w : Nat) (v : BitVec w) (s : Nat), s < w →
    shiftRightArith v s = BitVec.ofInt w (v.toInt.fdiv (2 ^ s))
  sra : ∀ (self : Cpu c) (rd rs1 rs2 : Reg), doOP self 5#3 32#7 rd rs1 rs2
    = writeReg self rd (BitVec.ofInt _
        ((readReg self rs1).toInt.fdiv (2 ^ ((readReg self rs2).toNat % c.xlen))))
  srai : ∀ (self : Cpu c) (iimm : BitVec 32) (rd rs1 : Reg), iimm >>> 6 = 0x10#32 →
    doOPIMM self 5#3 iimm rd rs1 = writeReg self rd (BitVec.ofInt _
      ((readReg self rs1).toInt.fdiv (2 ^ (iimm.toNat % c.xlen))))
  csrai : ∀ (m : Machine c) (instr : BitVec 32), instr.extractLsb' 10 2 = 1#2 →
    decodeCextQ1_4 m instr = { m with cpu := writeReg m.cpu (cextReg instr 7) (BitVec.ofInt _
      ((readReg m.cpu (cextReg instr 7)).toInt.fdiv
        (2 ^ ((cextImm6 instr).toNat % c.xlen)))) }
  sraw : ∀ (self : Cpu c) (rd rs1 rs2 : Reg), doOP32 self 5#3 32#7 rd rs1 rs2
    = writeReg self rd (extendW (BitVec.ofInt 32
        (((readReg self rs1).setWidth 32).toInt.fdiv
          (2 ^ (((readReg self rs2).setWidth 32).toNat % 32)))))
  sraiw : ∀ (self : Cpu c) (iimm : BitVec 32) (rd rs1 : Reg), iimm >>> 5 = 0x20#32 →
    doOPIMM32 self 5#3 iimm rd rs1 = writeReg self rd (extendW (BitVec.ofInt 32
      (((readReg self rs1).setWidth 32).toInt.fdiv (2 ^ (iimm.toNat % 32)))))
  extend : ∀ (w : Nat) (v : BitVec w) (k : Nat), k < w → v.toNat < 2 ^ (k + 1) →
    Bits.signExtend v k = BitVec.ofInt w (signedField k v.toNat)
  extendTwice : ∀ (v : BitVec 32) (k j : Nat), k ≤ j → j ≤ 31 → v.toNat < 2 ^ (k + 1) →
    (Bits.signExtend ((Bits.signExtend v k).setWidth _) j : Word c)
      = Bits.signExtend (v.setWidth _) k

/-- The six-bit count of c.srai sits below the bit that marks the arithmetic shift. -/
theorem csrai_select (instr : BitVec 32) :
    (cextImm6 instr ||| (1#32 <<< 10)) >>> 6 = 0x10#32 := by
  have himm : cextImm6 instr >>> 6 = 0#32 := by
    rw [cextImm6, BitVec.ushiftRight_or_distrib, BitVec.ushiftRight_and_distrib,
      BitVec.ushiftRight_and_distrib]
    have hlow : 0x1F#32 >>> 6 = 0#32 := rfl
    have htop : (1#32 <<< 5) >>> 6 = 0#32 := rfl
    rw [hlow, htop, BitVec.and_zero, BitVec.and_zero, BitVec.or_zero]
  rw [BitVec.ushiftRight_or_distrib, himm, BitVec.zero_or]
  rfl

theorem csrai_count (instr : BitVec 32) :
    (cextImm6 instr ||| (1#32 <<< 10)).toNat &&& cpuShiftMask c
      = (cextImm6 instr).toNat &&& cpuShiftMask c := by
  have hmark : (1#32 <<< 10).toNat &&& cpuShiftMask c = 0 := by cases c <;> decide
  rw [BitVec.toNat_or, Nat.and_or_distrib_right, hmark, Nat.or_zero]

theorem sign_arithmetic (c : Cfg) : SignArith c where
  shift _ v _ hs := shiftRightArith_fdiv v hs
  sra self rd rs1 rs2 := by
    show writeReg self rd (shiftRightArith _ _) = _
    rw [shift_masked]
  srai self iimm rd rs1 h := by
    simp only [doOPIMM, h]
    rw [shift_masked]
  csrai m instr h := by
    simp only [decodeCextQ1_4, h, doOPIMM, csrai_select, csrai_count]
    rw [shift_masked]
  sraw self rd rs1 rs2 := by
    show writeReg self rd (extendW (shiftRightArith _ _)) = _
    rw [shift_masked_word]
  sraiw self iimm rd rs1 h := by
    simp only [doOPIMM32, h]
    rw [shift_masked_word]
  extend _ v _ hk hv := signExtend_signedField v hk hv
  extendTwice v k j hkj hj hv :=
    signExtend_twice v hkj hj (by have := c.xlen_ge; omega) hv

end RV640
