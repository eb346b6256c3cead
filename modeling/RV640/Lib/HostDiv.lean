import Mathlib.Tactic

set_option autoImplicit false

/-! # Division of machine words as C defines it

The operators `/` and `%` of C on words of `w` bits, as partial functions: C leaves a division by
zero and the signed division of the least value by -1 undefined. `Quotient` is the law that a
quotient and a remainder rounded towards zero obey.
-/

namespace HostDiv

variable {w : Nat}

/-- The operands that signed `/` and `%` are undefined for. -/
def SignedUndefined (x y : BitVec w) : Prop := y = 0#w ∨ (x = BitVec.intMin w ∧ y = -1#w)

instance (x y : BitVec w) : Decidable (SignedUndefined x y) := by
  unfold SignedUndefined
  infer_instance

/-- Signed `x / y`. -/
def sdiv (x y : BitVec w) : Option (BitVec w) :=
  if SignedUndefined x y then none else some (x.sdiv y)

/-- Signed `x % y`. -/
def srem (x y : BitVec w) : Option (BitVec w) :=
  if SignedUndefined x y then none else some (x.srem y)

/-- Unsigned `x / y`. -/
def udiv (x y : BitVec w) : Option (BitVec w) := if y = 0#w then none else some (x / y)

/-- Unsigned `x % y`. -/
def umod (x y : BitVec w) : Option (BitVec w) := if y = 0#w then none else some (x % y)

/-! ## The law of division -/

/-- The integer a word stands for. -/
def value (signed : Bool) (x : BitVec w) : Int := if signed then x.toInt else x.toNat

/-- `q` and `r` are the quotient and the remainder of `a` by `b`, rounded towards zero. -/
structure Quotient (signed : Bool) (a b q r : BitVec w) : Prop where
  lt : (value signed r).natAbs < (value signed b).natAbs
  sign : value signed r = 0 ∨ (value signed r).sign = (value signed a).sign
  trunc : value signed q = (value signed a).tdiv (value signed b)

/-- The remainder of integers is zero or has the sign of the dividend. -/
theorem tmod_sign (a b : Int) : a.tmod b = 0 ∨ (a.tmod b).sign = a.sign := by
  rw [Int.sign_tmod]
  by_cases hdvd : b ∣ a
  · exact Or.inl (Int.tmod_eq_zero_of_dvd hdvd)
  · exact Or.inr (if_neg hdvd)

theorem natAbs_tmod_lt (a : Int) {b : Int} (hb : b ≠ 0) : (a.tmod b).natAbs < b.natAbs := by
  rw [Int.natAbs_tmod]
  exact Nat.mod_lt _ (Int.natAbs_pos.mpr hb)

/-- A word is the word of its integer. -/
theorem eq_ofInt {x : BitVec w} {i : Int} (h : x.toInt = i.bmod (2 ^ w)) :
    x = BitVec.ofInt w i := by
  apply BitVec.eq_of_toInt_eq
  rw [h, BitVec.toInt_ofInt]

/-- `a = q * b + r` for the signed operators, whatever the operands. -/
theorem sdiv_mul_add_srem (a b : BitVec w) : a.sdiv b * b + a.srem b = a := by
  have hq : a.sdiv b = BitVec.ofInt w (a.toInt.tdiv b.toInt) := eq_ofInt (BitVec.toInt_sdiv a b)
  have hr : a.srem b = BitVec.ofInt w (a.toInt.tmod b.toInt) := by
    rw [← BitVec.toInt_srem, BitVec.ofInt_toInt]
  calc a.sdiv b * b + a.srem b
      = BitVec.ofInt w (a.toInt.tdiv b.toInt) * BitVec.ofInt w b.toInt
          + BitVec.ofInt w (a.toInt.tmod b.toInt) := by rw [hq, hr, BitVec.ofInt_toInt]
    _ = BitVec.ofInt w (a.toInt.tdiv b.toInt * b.toInt + a.toInt.tmod b.toInt) := by
          rw [BitVec.ofInt_add, BitVec.ofInt_mul]
    _ = BitVec.ofInt w a.toInt := by rw [Int.add_comm, Int.tmod_add_tdiv_mul]
    _ = a := BitVec.ofInt_toInt

/-- The signed operators round towards zero where C defines them. -/
theorem quotient_signed {a b : BitVec w} (h : ¬ SignedUndefined a b) :
    Quotient true a b (a.sdiv b) (a.srem b) := by
  obtain ⟨hb, hover⟩ := not_or.mp h
  have hb' : b.toInt ≠ 0 := by
    intro hz
    exact hb (BitVec.eq_of_toInt_eq (by rw [hz, BitVec.toInt_zero]))
  have hne : a ≠ BitVec.intMin w ∨ b ≠ -1#w := by
    rcases not_and_or.mp hover with ha | hb
    · exact Or.inl ha
    · exact Or.inr hb
  constructor
  · simp only [value, if_true, BitVec.toInt_srem]
    exact natAbs_tmod_lt _ hb'
  · simp only [value, if_true, BitVec.toInt_srem]
    exact tmod_sign _ _
  · simp only [value, if_true]
    exact BitVec.toInt_sdiv_of_ne_or_ne a b hne

/-- `a = q * b + r` for the unsigned operators. -/
theorem udiv_mul_add_umod (a b : BitVec w) : a / b * b + a % b = a := by
  apply BitVec.eq_of_toNat_eq
  have h : a.toNat / b.toNat * b.toNat + a.toNat % b.toNat = a.toNat := Nat.div_add_mod' _ _
  rw [BitVec.toNat_add, BitVec.toNat_mul, BitVec.toNat_udiv, BitVec.toNat_umod, Nat.mod_add_mod, h]
  exact Nat.mod_eq_of_lt a.isLt

/-- The unsigned operators round towards zero. -/
theorem quotient_unsigned (a : BitVec w) {b : BitVec w} (hb : b ≠ 0#w) :
    Quotient false a b (a / b) (a % b) := by
  have hb' : (b.toNat : Int) ≠ 0 := by
    intro hz
    exact hb (BitVec.eq_of_toNat_eq (by simpa using hz))
  have hr : ((a % b).toNat : Int) = (a.toNat : Int).tmod b.toNat := by
    rw [BitVec.toNat_umod]
    rfl
  have hq : ((a / b).toNat : Int) = (a.toNat : Int).tdiv b.toNat := by
    rw [BitVec.toNat_udiv]
    rfl
  constructor
  · simp only [value, Bool.false_eq_true, if_false, hr]
    exact natAbs_tmod_lt _ hb'
  · simp only [value, Bool.false_eq_true, if_false, hr]
    exact tmod_sign _ _
  · simpa only [value, Bool.false_eq_true, if_false] using hq

end HostDiv
