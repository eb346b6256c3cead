import RV640.Lib.Bits

set_option autoImplicit false

/-! # Words under a mask, and parity

A register with fields is a word of which an update replaces some bits. What a mask selects is kept
by every update of bits outside the mask. `IsEven` is the parity of a word.
-/

namespace Bits

variable {w : Nat}

/-! ## Masks -/

/-- Clearing bits outside a mask keeps what it selects. -/
theorem clear_and {a mask : BitVec w} (x : BitVec w) (ha : a &&& mask = 0#w) :
    x &&& ~~~a &&& mask = x &&& mask := by
  apply BitVec.eq_of_getLsbD_eq
  intro i hi
  have h := congrArg (fun v => v.getLsbD i) ha
  simp only [BitVec.getLsbD_and, BitVec.getLsbD_zero] at h
  simp only [BitVec.getLsbD_and, BitVec.getLsbD_not, hi, decide_true, Bool.true_and]
  cases ham : a.getLsbD i
  · simp
  · rw [ham, Bool.true_and] at h
    simp [h]

/-- Replacing bits outside a mask keeps what it selects. -/
theorem update_and {a b mask : BitVec w} (x : BitVec w) (ha : a &&& mask = 0#w)
    (hb : b &&& mask = 0#w) : (x &&& ~~~a ||| b) &&& mask = x &&& mask := by
  apply BitVec.eq_of_getLsbD_eq
  intro i hi
  have hbi := congrArg (fun v => v.getLsbD i) hb
  have hai := congrArg (fun v => v.getLsbD i) (clear_and x ha)
  simp only [BitVec.getLsbD_and, BitVec.getLsbD_zero] at hbi hai
  rw [BitVec.getLsbD_and, BitVec.getLsbD_or, Bool.and_or_distrib_right, BitVec.getLsbD_and, hai,
    hbi, Bool.or_false, BitVec.getLsbD_and]

/-- After the bits of a mask were replaced, it selects the new ones. -/
theorem replace_and (x b mask : BitVec w) : (x &&& ~~~mask ||| b) &&& mask = b &&& mask := by
  apply BitVec.eq_of_getLsbD_eq
  intro i hi
  simp only [BitVec.getLsbD_and, BitVec.getLsbD_or, BitVec.getLsbD_not, hi, decide_true,
    Bool.true_and]
  cases mask.getLsbD i <;> simp

/-- Words that a mask selects the same from have the same bits in it. -/
theorem getLsbD_of_and_eq {x y mask : BitVec w} (h : x &&& mask = y &&& mask) {i : Nat}
    (hm : mask.getLsbD i = true) : x.getLsbD i = y.getLsbD i := by
  have hbit := congrArg (fun v => v.getLsbD i) h
  simpa only [BitVec.getLsbD_and, hm, Bool.and_true] using hbit

/-- A replacement of the same bits by the same word keeps an agreement. -/
theorem replace_congr {x y mask : BitVec w} (a b : BitVec w) (h : x &&& mask = y &&& mask) :
    (x &&& ~~~a ||| b) &&& mask = (y &&& ~~~a ||| b) &&& mask := by
  apply BitVec.eq_of_getLsbD_eq
  intro i hi
  simp only [BitVec.getLsbD_and, BitVec.getLsbD_or, BitVec.getLsbD_not, hi, decide_true,
    Bool.true_and]
  cases hm : mask.getLsbD i
  · simp
  · rw [getLsbD_of_and_eq h hm]

/-- A word is put together from what a mask selects and the rest. -/
theorem clear_or_self (x a : BitVec w) : x &&& ~~~a ||| x &&& a = x := by
  apply BitVec.eq_of_getLsbD_eq
  intro i hi
  simp only [BitVec.getLsbD_and, BitVec.getLsbD_or, BitVec.getLsbD_not, hi, decide_true,
    Bool.true_and]
  cases a.getLsbD i <;> simp

/-- Bits taken from a word that agrees with the old one inside the mask. -/
theorem merge_and {x v mask : BitVec w} (sel : BitVec w) (h : v &&& mask = x &&& mask) :
    (x &&& ~~~sel ||| v &&& sel) &&& mask = x &&& mask := by
  apply BitVec.eq_of_getLsbD_eq
  intro i hi
  simp only [BitVec.getLsbD_and, BitVec.getLsbD_or, BitVec.getLsbD_not, hi, decide_true,
    Bool.true_and]
  cases hm : mask.getLsbD i
  · simp
  · rw [getLsbD_of_and_eq h hm]
    cases sel.getLsbD i <;> simp

theorem ite_and_eq_zero {b mask : BitVec w} (p : Prop) [Decidable p] (hb : b &&& mask = 0#w) :
    (if p then b else 0#w) &&& mask = 0#w := by
  split
  · exact hb
  · exact BitVec.zero_and

/-- A mask inside another one selects from what that one selects. -/
theorem and_eq_of_and_eq {x y mask sub : BitVec w} (h : x &&& mask = y)
    (hsub : mask &&& sub = sub) : x &&& sub = y &&& sub := by
  rw [← h, BitVec.and_assoc, hsub]

/-- No bit is set outside a mask. -/
theorem and_not_eq_zero_iff (x mask : BitVec w) :
    x &&& ~~~mask = 0#w ↔ ∀ k, mask.getLsbD k = false → x.getLsbD k = false := by
  constructor
  · intro h k hm
    by_cases hk : k < w
    · have hk' := congrArg (fun v => v.getLsbD k) h
      simp only [BitVec.getLsbD_and, BitVec.getLsbD_not, hm, hk, decide_true, Bool.not_false,
        Bool.and_true, BitVec.getLsbD_zero] at hk'
      exact hk'
    · exact BitVec.getLsbD_of_ge _ k (by omega)
  · intro h
    apply BitVec.eq_of_getLsbD_eq
    intro i hi
    simp only [BitVec.getLsbD_and, BitVec.getLsbD_not, hi, decide_true, Bool.true_and,
      BitVec.getLsbD_zero]
    cases hm : mask.getLsbD i
    · simp [h i hm]
    · simp

/-- Bits taken from a second word inside a mask set none outside it. -/
theorem merge_and_not {x mask : BitVec w} (v : BitVec w) (h : x &&& ~~~mask = 0#w) :
    (x &&& ~~~mask ||| v &&& mask) &&& ~~~mask = 0#w := by
  have hv : v &&& mask &&& ~~~mask = 0#w := by
    apply BitVec.eq_of_getLsbD_eq
    intro i hi
    simp only [BitVec.getLsbD_and, BitVec.getLsbD_not, hi, decide_true, Bool.true_and,
      BitVec.getLsbD_zero]
    cases mask.getLsbD i <;> simp
  rw [h, BitVec.zero_or, hv]

/-! ## Parity -/

/-- Bit 0 is clear. -/
def IsEven (x : BitVec w) : Prop := x.getLsbD 0 = false

theorem IsEven.add {x y : BitVec w} (hx : IsEven x) (hy : IsEven y) : IsEven (x + y) := by
  unfold IsEven at *
  by_cases hw : 0 < w
  · rw [BitVec.getLsbD_add hw, hx, hy, BitVec.carry_zero]
    rfl
  · exact BitVec.getLsbD_of_ge _ 0 (by omega)

theorem IsEven.sub {x y : BitVec w} (hx : IsEven x) (hy : IsEven y) : IsEven (x - y) := by
  rw [BitVec.sub_eq_add_neg]
  refine hx.add ?_
  unfold IsEven at *
  rw [BitVec.getLsbD_neg, hy]
  simp

theorem IsEven.setWidth {x : BitVec w} (hx : IsEven x) (v : Nat) : IsEven (x.setWidth v) := by
  unfold IsEven at *
  rw [BitVec.getLsbD_setWidth, hx, Bool.and_false]

theorem IsEven.shiftLeft (x : BitVec w) {k : Nat} (hk : 0 < k) : IsEven (x <<< k) := by
  unfold IsEven
  rw [BitVec.getLsbD_shiftLeft]
  simp [hk]

/-- Clearing a mask that holds bit 0. -/
theorem IsEven.clear (x : BitVec w) {mask : BitVec w} (hm : mask.getLsbD 0 = true) :
    IsEven (x &&& ~~~mask) := by
  unfold IsEven
  rw [BitVec.getLsbD_and, BitVec.getLsbD_not, hm]
  simp

theorem IsEven.and_one {x : BitVec w} (hx : IsEven x) : x &&& 1#w = 0#w := by
  apply BitVec.eq_of_getLsbD_eq
  intro i _
  unfold IsEven at hx
  rw [BitVec.getLsbD_and, BitVec.getLsbD_zero]
  rcases Nat.eq_zero_or_pos i with rfl | hi
  · rw [hx, Bool.false_and]
  · have h1 : (1#w).getLsbD i = false := by
      simp
      omega
    rw [h1, Bool.and_false]

theorem IsEven.signExtend {x : BitVec w} (hx : IsEven x) {k : Nat} (hk : k < w) (hpos : 0 < k) :
    IsEven (Bits.signExtend x k) := by
  unfold IsEven at *
  have hk0 : ¬k ≤ 0 := by omega
  rw [getLsbD_signExtend x k 0 hk, hx, decide_eq_false hk0]
  rfl

/-- Rounding down to a multiple of a power of two. -/
theorem toNat_align_down (x : BitVec w) {k : Nat} (hk : k < w) :
    (x &&& ~~~((1#w <<< k) - 1#w)).toNat = x.toNat / 2 ^ k * 2 ^ k := by
  have hshift : x &&& ~~~((1#w <<< k) - 1#w) = (x >>> k) <<< k := by
    apply BitVec.eq_of_getLsbD_eq
    intro i hi
    rw [BitVec.getLsbD_and, BitVec.getLsbD_not, getLsbD_low_mask k i hk, BitVec.getLsbD_shiftLeft,
      BitVec.getLsbD_ushiftRight]
    by_cases hik : i < k
    · simp [hik]
    · simp [hik, hi, show k + (i - k) = i by omega]
  have hle : x.toNat / 2 ^ k * 2 ^ k ≤ x.toNat := Nat.div_mul_le_self _ _
  have hx := x.isLt
  rw [hshift, BitVec.toNat_shiftLeft, BitVec.toNat_ushiftRight, Nat.shiftRight_eq_div_pow,
    Nat.shiftLeft_eq, Nat.mod_eq_of_lt (by omega)]

end Bits
