import RV640.Lib.Fields

set_option autoImplicit false

/-! # Narrow operations on wide registers

A machine keeps a narrow value in a wide register as its sign extension. Sums and bitwise
operations of the wide values, cut, are those of the narrow ones. The extension keeps the signed
order, and the unsigned one too: the values with the sign bit set move together, above all others.
-/

namespace Bits

variable {n w : Nat}

theorem setWidth_signExtend_self (x : BitVec n) (h : n ≤ w) :
    (x.signExtend w).setWidth n = x := by
  apply BitVec.eq_of_getLsbD_eq
  intro i hi
  rw [BitVec.getLsbD_setWidth, BitVec.getLsbD_signExtend]
  simp [hi, show i < w by omega]

/-- Masking a word to its low bits and extending their sign. -/
theorem signExtend_masked (x : BitVec w) {k : Nat} (hk : k < w) :
    signExtend (x &&& (~~~0#w >>> (w - (k + 1)))) k = (x.setWidth (k + 1)).signExtend w := by
  have hmask : x &&& (~~~0#w >>> (w - (k + 1))) = (x.setWidth (k + 1)).setWidth w := by
    apply BitVec.eq_of_getLsbD_eq
    intro i hi
    by_cases hik : i < k + 1
    · have : w - (k + 1) + i < w := by omega
      simp [hi, hik, this]
    · have : ¬ w - (k + 1) + i < w := by omega
      simp [hik, this]
  rw [hmask, signExtend_setWidth_field _ hk]

/-! ## Orders -/

theorem slt_signExtend (x y : BitVec n) (h : n ≤ w) :
    (x.signExtend w).slt (y.signExtend w) = x.slt y := by
  rw [BitVec.slt_eq_decide, BitVec.slt_eq_decide, BitVec.toInt_signExtend_of_le h,
    BitVec.toInt_signExtend_of_le h]

/-- Sign extension on unsigned values. -/
theorem toNat_signExtend_eq (x : BitVec n) (h : n ≤ w) :
    (x.signExtend w).toNat = x.toNat + if 2 ^ (n - 1) ≤ x.toNat then 2 ^ w - 2 ^ n else 0 := by
  rw [BitVec.toNat_signExtend, BitVec.toNat_setWidth_of_le h, BitVec.msb_eq_decide]
  simp only [decide_eq_true_eq]

theorem ult_signExtend (x y : BitVec n) (h : n ≤ w) :
    (x.signExtend w).ult (y.signExtend w) = x.ult y := by
  have hx := x.isLt
  have hy := y.isLt
  have hpow : 2 ^ n ≤ 2 ^ w := Nat.pow_le_pow_right (by decide) h
  unfold BitVec.ult
  rw [toNat_signExtend_eq x h, toNat_signExtend_eq y h]
  congr 1
  by_cases hxs : 2 ^ (n - 1) ≤ x.toNat
  · by_cases hys : 2 ^ (n - 1) ≤ y.toNat
    · rw [if_pos hxs, if_pos hys]
      exact propext (Nat.add_lt_add_iff_right)
    · -- only the first has its sign bit set
      rw [if_pos hxs, if_neg hys]
      exact propext ⟨by omega, by omega⟩
  · by_cases hys : 2 ^ (n - 1) ≤ y.toNat
    · rw [if_neg hxs, if_pos hys]
      exact propext ⟨by omega, by omega⟩
    · rw [if_neg hxs, if_neg hys]
      rfl

/-! ## Minima and maxima -/

theorem min_toInt (x y : BitVec n) :
    (if x.slt y then x else y) = BitVec.ofInt n (min y.toInt x.toInt) := by
  rw [BitVec.slt_eq_decide]
  by_cases h : x.toInt < y.toInt
  · simp [h, min_eq_right (le_of_lt h)]
  · simp [h, min_eq_left (not_lt.mp h)]

theorem max_toInt (x y : BitVec n) :
    (if y.slt x then x else y) = BitVec.ofInt n (max y.toInt x.toInt) := by
  rw [BitVec.slt_eq_decide]
  by_cases h : y.toInt < x.toInt
  · simp [h, max_eq_right (le_of_lt h)]
  · simp [h, max_eq_left (not_lt.mp h)]

theorem min_toNat (x y : BitVec n) :
    (if x.ult y then x else y) = BitVec.ofNat n (min y.toNat x.toNat) := by
  rw [BitVec.ult_eq_decide]
  by_cases h : x.toNat < y.toNat
  · simp [h, min_eq_right (le_of_lt h)]
  · simp [h, min_eq_left (not_lt.mp h)]

theorem max_toNat (x y : BitVec n) :
    (if y.ult x then x else y) = BitVec.ofNat n (max y.toNat x.toNat) := by
  rw [BitVec.ult_eq_decide]
  by_cases h : y.toNat < x.toNat
  · simp [h, max_eq_right (le_of_lt h)]
  · simp [h, max_eq_left (not_lt.mp h)]

end Bits
