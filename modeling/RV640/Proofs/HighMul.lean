import RV640.Cpu.Instr
import RV640.Lib.WideMul

set_option autoImplicit false

/-! # High products

MULH, MULHSU and MULHU write the high word of the exact product. For RV64 the source multiplies
magnitudes limb by limb and negates the two-word result when the product is negative; for RV32 it
shifts one 64-bit product.
-/

namespace RV640

open Bits

variable {c : Cfg}

/-- `⌊p / 2^w⌋` modulo `2^w`: the high word of an exact product. -/
def highWord (w : Nat) (p : Int) : BitVec w := BitVec.ofInt w (p.fdiv (2 ^ w))

theorem highWord_eq (w : Nat) (p : Int) : highWord w p = BitVec.ofInt w (p / 2 ^ w) := by
  rw [highWord, Int.fdiv_eq_ediv_of_nonneg _ (by positivity)]

/-! ## The limbs -/

@[simp] theorem low32_toNat (x : BitVec 64) : (low32 x).toNat = x.toNat % 2 ^ 32 := by
  rw [low32, BitVec.toNat_setWidth, BitVec.toNat_setWidth]
  omega

@[simp] theorem high32_toNat (x : BitVec 64) : (x >>> 32).toNat = x.toNat / 2 ^ 32 := by
  rw [BitVec.toNat_ushiftRight, Nat.shiftRight_eq_div_pow]

/-- A product of two 32-bit limbs fits in 64 bits. -/
theorem limb_mul_toNat {x y : BitVec 64} (hx : x.toNat < 2 ^ 32) (hy : y.toNat < 2 ^ 32) :
    (x * y).toNat = x.toNat * y.toNat := by
  have := WideMul.limb_mul_lt hx hy
  rw [BitVec.toNat_mul, Nat.mod_eq_of_lt (by omega)]

theorem low32_lt (x : BitVec 64) : (low32 x).toNat < 2 ^ 32 := by
  rw [low32_toNat]
  exact Nat.mod_lt _ (by decide)

theorem high32_lt (x : BitVec 64) : (x >>> 32).toNat < 2 ^ 32 := by
  have := x.isLt
  rw [high32_toNat]
  omega

/-- The sums `mid` and `hi` of the 64-bit code do not wrap. -/
def SumsFit (ma mb : BitVec 64) : Prop :=
  let a0 := low32 ma
  let a1 := ma >>> 32
  let b0 := low32 mb
  let b1 := mb >>> 32
  let p0 := a0 * b0
  let p1 := a0 * b1
  let p2 := a1 * b0
  let p3 := a1 * b1
  let mid := (p0 >>> 32) + low32 p1 + low32 p2
  (p0 >>> 32).toNat + (low32 p1).toNat + (low32 p2).toNat < 2 ^ 64
    ∧ p3.toNat + (p1 >>> 32).toNat + (p2 >>> 32).toNat + (mid >>> 32).toNat < 2 ^ 64

/-- The partial sums of the 64-bit code are those of the exact product, and its two words are the
words of that product. -/
theorem mulLimbs_spec (ma mb : BitVec 64) :
    SumsFit ma mb ∧ (mulLimbs ma mb).2.toNat = WideMul.hi (2 ^ 32) ma.toNat mb.toNat
      ∧ (mulLimbs ma mb).1.toNat = WideMul.lo (2 ^ 32) ma.toNat mb.toNat := by
  have hp0 := limb_mul_toNat (low32_lt ma) (low32_lt mb)
  have hp1 := limb_mul_toNat (low32_lt ma) (high32_lt mb)
  have hp2 := limb_mul_toNat (high32_lt ma) (low32_lt mb)
  have hp3 := limb_mul_toNat (high32_lt ma) (high32_lt mb)
  rw [low32_toNat, low32_toNat] at hp0
  rw [low32_toNat, high32_toNat] at hp1
  rw [high32_toNat, low32_toNat] at hp2
  rw [high32_toNat, high32_toNat] at hp3
  have hmidlt := WideMul.mid_lt (B := 2 ^ 32) (by decide) ma.toNat mb.toNat
  have hhilt := WideMul.hi_lt (B := 2 ^ 32) (by decide) ma.isLt mb.isLt
  simp only [SumsFit, mulLimbs]
  set p0 := low32 ma * low32 mb with hp0'
  set p1 := low32 ma * mb >>> 32 with hp1'
  set p2 := ma >>> 32 * low32 mb with hp2'
  set p3 := ma >>> 32 * mb >>> 32 with hp3'
  have hsum : p0.toNat / 2 ^ 32 + p1.toNat % 2 ^ 32 + p2.toNat % 2 ^ 32
      = WideMul.mid (2 ^ 32) ma.toNat mb.toNat := by
    rw [hp0, hp1, hp2]
    rfl
  have hmid : ((p0 >>> 32) + low32 p1 + low32 p2).toNat
      = WideMul.mid (2 ^ 32) ma.toNat mb.toNat := by
    rw [BitVec.toNat_add, BitVec.toNat_add, high32_toNat, low32_toNat, low32_toNat]
    omega
  set mid := (p0 >>> 32) + low32 p1 + low32 p2 with hmid'
  have hhi : p3.toNat + p1.toNat / 2 ^ 32 + p2.toNat / 2 ^ 32 + mid.toNat / 2 ^ 32
      = WideMul.hi (2 ^ 32) ma.toNat mb.toNat := by
    rw [hp3, hp1, hp2, hmid]
    rfl
  refine ⟨⟨?_, ?_⟩, ?_, ?_⟩
  · rw [high32_toNat, low32_toNat, low32_toNat]
    omega
  · rw [high32_toNat, high32_toNat, high32_toNat]
    omega
  · rw [BitVec.toNat_add, BitVec.toNat_add, BitVec.toNat_add, high32_toNat, high32_toNat,
      high32_toNat]
    omega
  · have hlow : (p0 &&& 0xffffffff#64).toNat = p0.toNat % 2 ^ 32 := by
      rw [BitVec.toNat_and]
      exact Nat.and_two_pow_sub_one_eq_mod p0.toNat 32
    have hshift : (mid <<< 32).toNat = (mid.toNat % 2 ^ 32) <<< 32 := by
      rw [BitVec.toNat_shiftLeft, Nat.shiftLeft_eq, Nat.shiftLeft_eq]
      omega
    have hlt : p0.toNat % 2 ^ 32 < 2 ^ 32 := Nat.mod_lt _ (by decide)
    rw [BitVec.toNat_or, hlow, hshift, Nat.or_comm, ← Nat.shiftLeft_add_eq_or_of_lt hlt,
      Nat.shiftLeft_eq, WideMul.lo, hmid, hp0, Nat.add_comm]

/-! ## Signs -/

theorem slt_zero_iff (x : BitVec 64) : x.slt 0#64 = decide (x.toInt < 0) := by
  rw [BitVec.slt_eq_decide, BitVec.toInt_zero]

/-- The magnitude is the absolute value, also of the least integer. -/
theorem magnitude_toNat (x : BitVec 64) : (magnitude x).toNat = x.toInt.natAbs := by
  have hx := x.isLt
  rw [magnitude, slt_zero_iff]
  by_cases hneg : x.toInt < 0
  · rw [if_pos (by simpa using hneg), BitVec.zero_sub, BitVec.toNat_neg]
    rw [BitVec.toInt_eq_toNat_cond] at hneg ⊢
    split at hneg
    · omega
    · rename_i hmsb
      rw [if_neg hmsb, Nat.mod_eq_of_lt (by omega)]
      omega
  · rw [if_neg (by simpa using hneg)]
    rw [BitVec.toInt_eq_toNat_cond] at hneg ⊢
    split at hneg
    · rename_i hmsb
      rw [if_pos hmsb]
      omega
    · omega

/-- The high word of a nonnegative product. -/
theorem highWord_of_nat {p : Nat} {hi : BitVec 64} (h : hi.toNat = p / 2 ^ 64) :
    hi = highWord 64 p := by
  apply BitVec.eq_of_toInt_eq
  rw [highWord_eq]
  have : ((p : Int) / 2 ^ 64) = ((p / 2 ^ 64 : Nat) : Int) := by push_cast; rfl
  rw [this, ← h, BitVec.ofInt_natCast, BitVec.ofNat_toNat, BitVec.setWidth_eq]

/-- The high word of a negated product, from its two words. -/
theorem highWord_of_neg {p : Nat} {lo hi : BitVec 64} (hlo : lo.toNat = p % 2 ^ 64)
    (hhi : hi.toNat = p / 2 ^ 64) : negateHigh lo hi = highWord 64 (-(p : Int)) := by
  have hquot : BitVec.ofInt 64 ((p / 2 ^ 64 : Nat) : Int) = hi := by
    rw [← hhi, BitVec.ofInt_natCast, BitVec.ofNat_toNat, BitVec.setWidth_eq]
  have hzero : (lo == 0#64) = decide (p % 2 ^ 64 = 0) := by
    rw [← hlo, Bool.eq_iff_iff, beq_iff_eq, decide_eq_true_iff]
    exact ⟨fun h => by rw [h]; rfl, fun h => BitVec.eq_of_toNat_eq h⟩
  have hdiv := WideMul.neg_ediv p (W := 2 ^ 64) (by decide)
  rw [highWord_eq, negateHigh, BitVec.not_eq_neg_add, hzero, boolWord]
  rw [show (-(p : Int)) / 2 ^ 64 = _ from hdiv, BitVec.ofInt_add, Int.sub_eq_add_neg,
    BitVec.ofInt_add, BitVec.ofInt_neg, BitVec.ofInt_neg, hquot, BitVec.sub_eq_add_neg]
  by_cases h0 : p % 2 ^ 64 = 0
  · rw [if_pos h0, if_pos (by simpa using h0)]
    rfl
  · rw [if_neg h0, if_neg (by simpa using h0)]
    rfl

/-! ## The three instructions -/

theorem mulh64_eq (x y : BitVec 64) : mulh64 x y = highWord 64 (x.toInt * y.toInt) := by
  obtain ⟨-, hhi, hlo⟩ := mulLimbs_spec (magnitude x) (magnitude y)
  rw [WideMul.hi_eq (by decide), magnitude_toNat, magnitude_toNat] at hhi
  rw [WideMul.lo_eq (by decide), magnitude_toNat, magnitude_toNat] at hlo
  simp only [mulh64, slt_zero_iff]
  by_cases hx : x.toInt < 0
  · by_cases hy : y.toInt < 0
    · have hprod : x.toInt * y.toInt = ((x.toInt.natAbs * y.toInt.natAbs : Nat) : Int) := by
        push_cast
        rw [abs_of_neg hx, abs_of_neg hy]
        ring
      rw [hprod]
      simpa [hx, hy] using highWord_of_nat hhi
    · have hprod : x.toInt * y.toInt = -((x.toInt.natAbs * y.toInt.natAbs : Nat) : Int) := by
        push_cast
        rw [abs_of_neg hx, abs_of_nonneg (not_lt.mp hy)]
        ring
      rw [hprod]
      simpa [hx, hy] using highWord_of_neg hlo hhi
  · by_cases hy : y.toInt < 0
    · have hprod : x.toInt * y.toInt = -((x.toInt.natAbs * y.toInt.natAbs : Nat) : Int) := by
        push_cast
        rw [abs_of_nonneg (not_lt.mp hx), abs_of_neg hy]
        ring
      rw [hprod]
      simpa [hx, hy] using highWord_of_neg hlo hhi
    · have hprod : x.toInt * y.toInt = ((x.toInt.natAbs * y.toInt.natAbs : Nat) : Int) := by
        push_cast
        rw [abs_of_nonneg (not_lt.mp hx), abs_of_nonneg (not_lt.mp hy)]
      rw [hprod]
      simpa [hx, hy] using highWord_of_nat hhi

theorem mulhsu64_eq (x y : BitVec 64) : mulhsu64 x y = highWord 64 (x.toInt * y.toNat) := by
  obtain ⟨-, hhi, hlo⟩ := mulLimbs_spec (magnitude x) y
  rw [WideMul.hi_eq (by decide), magnitude_toNat] at hhi
  rw [WideMul.lo_eq (by decide), magnitude_toNat] at hlo
  simp only [mulhsu64, slt_zero_iff]
  by_cases hx : x.toInt < 0
  · have hprod : x.toInt * y.toNat = -((x.toInt.natAbs * y.toNat : Nat) : Int) := by
      push_cast
      rw [abs_of_neg hx]
      ring
    rw [hprod]
    simpa [hx] using highWord_of_neg hlo hhi
  · have hprod : x.toInt * y.toNat = ((x.toInt.natAbs * y.toNat : Nat) : Int) := by
      push_cast
      rw [abs_of_nonneg (not_lt.mp hx)]
    rw [hprod]
    simpa [hx] using highWord_of_nat hhi

theorem mulhu64_eq (x y : BitVec 64) : mulhu64 x y = highWord 64 (x.toNat * y.toNat) := by
  obtain ⟨-, hhi, -⟩ := mulLimbs_spec x y
  rw [WideMul.hi_eq (by decide)] at hhi
  have hprod : (x.toNat : Int) * y.toNat = ((x.toNat * y.toNat : Nat) : Int) := by push_cast; rfl
  rw [hprod]
  exact highWord_of_nat hhi

/-- The upper half of a 64-bit word that holds a product modulo `2^64`. -/
theorem upperHalf_eq (p : Int) :
    ((BitVec.ofInt 64 p >>> 32).setWidth 32 : BitVec 32) = highWord 32 p := by
  apply BitVec.eq_of_toNat_eq
  have h := WideMul.ediv_emod p 32
  rw [highWord_eq, BitVec.toNat_setWidth, BitVec.toNat_ushiftRight, BitVec.toNat_ofInt,
    BitVec.toNat_ofInt, Nat.shiftRight_eq_div_pow]
  have h64 : (0 : Int) ≤ p % 2 ^ 64 := Int.emod_nonneg _ (by norm_num)
  have h32 : (0 : Int) ≤ p / 2 ^ 32 % 2 ^ 32 := Int.emod_nonneg _ (by norm_num)
  norm_num at h h64 h32 ⊢
  omega

theorem mulh32_eq (x y : BitVec 32) : mulh32 x y = highWord 32 (x.toInt * y.toInt) := by
  rw [← upperHalf_eq, mulh32, BitVec.ofInt_mul]
  rfl

theorem mulhsu32_eq (x y : BitVec 32) : mulhsu32 x y = highWord 32 (x.toInt * y.toNat) := by
  rw [← upperHalf_eq, mulhsu32, BitVec.ofInt_mul, BitVec.ofInt_natCast, BitVec.ofNat_toNat]
  rfl

theorem mulhu32_eq (x y : BitVec 32) : mulhu32 x y = highWord 32 (x.toNat * y.toNat) := by
  rw [← upperHalf_eq, mulhu32, BitVec.ofInt_mul, BitVec.ofInt_natCast, BitVec.ofInt_natCast,
    BitVec.ofNat_toNat, BitVec.ofNat_toNat]

/-- The high product of the build, from that of both widths. -/
theorem highMul_eq {f64 : BitVec 64 → BitVec 64 → BitVec 64}
    {f32 : BitVec 32 → BitVec 32 → BitVec 32} (prod : ∀ w, BitVec w → BitVec w → Int)
    (h64 : ∀ x y, f64 x y = highWord 64 (prod 64 x y))
    (h32 : ∀ x y, f32 x y = highWord 32 (prod 32 x y)) (x y : Word c) :
    highMul f64 f32 x y = highWord c.xlen (prod c.xlen x y) := by
  cases c with
  | rv32 => simpa [highMul, Cfg.isRv64] using h32 x y
  | rv64 => simpa [highMul, Cfg.isRv64] using h64 x y
  | rv64Addr32 => simpa [highMul, Cfg.isRv64] using h64 x y

/-- **High multiplication is exact.** MULH, MULHSU and MULHU write the high word of the exact
product, signed by signed, signed by unsigned and unsigned by unsigned; in the 64-bit code none of
the partial sums wraps, whatever the operands. -/
theorem high_mul_exact (self : Cpu c) (rd rs1 rs2 : Reg) :
    doOP self 1#3 1#7 rd rs1 rs2
        = writeReg self rd
            (highWord c.xlen ((readReg self rs1).toInt * (readReg self rs2).toInt))
      ∧ doOP self 2#3 1#7 rd rs1 rs2
        = writeReg self rd
            (highWord c.xlen ((readReg self rs1).toInt * (readReg self rs2).toNat))
      ∧ doOP self 3#3 1#7 rd rs1 rs2
        = writeReg self rd
            (highWord c.xlen ((readReg self rs1).toNat * (readReg self rs2).toNat))
      ∧ ∀ ma mb : BitVec 64, SumsFit ma mb := by
  refine ⟨?_, ?_, ?_, fun ma mb => (mulLimbs_spec ma mb).1⟩
  · show writeReg self rd (highMul mulh64 mulh32 _ _) = _
    rw [highMul_eq (fun _ x y => x.toInt * y.toInt) mulh64_eq mulh32_eq]
  · show writeReg self rd (highMul mulhsu64 mulhsu32 _ _) = _
    rw [highMul_eq (fun _ x y => x.toInt * y.toNat) mulhsu64_eq mulhsu32_eq]
  · show writeReg self rd (highMul mulhu64 mulhu32 _ _) = _
    rw [highMul_eq (fun _ x y => x.toNat * y.toNat) mulhu64_eq mulhu32_eq]

end RV640
