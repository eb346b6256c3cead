import Mathlib.Tactic

set_option autoImplicit false

/-! # Double-width products from limbs

A word of base `B * B` is split into two limbs of base `B`; the product of two words is the sum of
four products of limbs. The facts here are about numbers and hold for every base: how the partial
sums are bounded, that the two result words make up the product, and what the high word of the
negated product is.
-/

namespace WideMul

/-! ## The sums -/

variable {B a b : Nat}

/-- The sum of the middle column: the high limb of the low product and the low limbs of the two
mixed products. -/
def mid (B a b : Nat) : Nat :=
  a % B * (b % B) / B + a % B * (b / B) % B + a / B * (b % B) % B

/-- The high word. -/
def hi (B a b : Nat) : Nat :=
  a / B * (b / B) + a % B * (b / B) / B + a / B * (b % B) / B + mid B a b / B

/-- The low word. -/
def lo (B a b : Nat) : Nat := a % B * (b % B) % B + mid B a b % B * B

/-- A product of two limbs. -/
theorem limb_mul_lt {x y : Nat} (hx : x < B) (hy : y < B) : x * y < B * B :=
  Nat.mul_lt_mul'' hx hy

/-- Three limbs make up the middle column. -/
theorem mid_lt (hB : 0 < B) (a b : Nat) : mid B a b < 3 * B := by
  have h0 : a % B * (b % B) / B < B :=
    Nat.div_lt_of_lt_mul (limb_mul_lt (Nat.mod_lt a hB) (Nat.mod_lt b hB))
  have h1 : a % B * (b / B) % B < B := Nat.mod_lt _ hB
  have h2 : a / B * (b % B) % B < B := Nat.mod_lt _ hB
  unfold mid
  omega

theorem lo_lt (hB : 0 < B) (a b : Nat) : lo B a b < B * B := by
  have h0 : a % B * (b % B) % B < B := Nat.mod_lt _ hB
  have h1 : mid B a b % B + 1 ≤ B := Nat.mod_lt _ hB
  have h2 : (mid B a b % B + 1) * B ≤ B * B := Nat.mul_le_mul_right B h1
  rw [Nat.add_mul, Nat.one_mul] at h2
  unfold lo
  omega

/-- **The two words make up the product.** -/
theorem hi_lo (a b : Nat) : hi B a b * (B * B) + lo B a b = a * b := by
  -- the four products, and the columns they are added in
  have ha := Nat.div_add_mod a B
  have hb := Nat.div_add_mod b B
  have h0 := Nat.div_add_mod (a % B * (b % B)) B
  have h1 := Nat.div_add_mod (a % B * (b / B)) B
  have h2 := Nat.div_add_mod (a / B * (b % B)) B
  have hm := Nat.div_add_mod (mid B a b) B
  set p0 := a % B * (b % B) with hp0
  set p1 := a % B * (b / B) with hp1
  set p2 := a / B * (b % B) with hp2
  set p3 := a / B * (b / B) with hp3
  have hmid : mid B a b = p0 / B + p1 % B + p2 % B := rfl
  calc hi B a b * (B * B) + lo B a b
      = p3 * (B * B) + (p1 / B + p2 / B) * (B * B) + (B * (mid B a b / B) + mid B a b % B) * B
          + p0 % B := by
        simp only [hi, lo, ← hp0, ← hp1, ← hp2, ← hp3]
        ring
    _ = p3 * (B * B) + (p1 / B + p2 / B) * (B * B) + (p0 / B + p1 % B + p2 % B) * B + p0 % B := by
        rw [hm, hmid]
    _ = p3 * (B * B) + (B * (p1 / B) + p1 % B) * B + (B * (p2 / B) + p2 % B) * B
          + (B * (p0 / B) + p0 % B) := by ring
    _ = p3 * (B * B) + p1 * B + p2 * B + p0 := by rw [h0, h1, h2]
    _ = (B * (a / B) + a % B) * (B * (b / B) + b % B) := by
        rw [hp0, hp1, hp2, hp3]
        ring
    _ = a * b := by rw [ha, hb]

/-- The high word is the quotient of the product. -/
theorem hi_eq (hB : 0 < B) (a b : Nat) : hi B a b = a * b / (B * B) := by
  have hpos : 0 < B * B := Nat.mul_pos hB hB
  rw [← hi_lo (B := B) a b, Nat.mul_comm (hi B a b), Nat.mul_add_div hpos,
    Nat.div_eq_of_lt (lo_lt hB a b), Nat.add_zero]

/-- The low word is the remainder of the product. -/
theorem lo_eq (hB : 0 < B) (a b : Nat) : lo B a b = a * b % (B * B) := by
  rw [← hi_lo (B := B) a b, Nat.mul_comm (hi B a b), Nat.mul_add_mod,
    Nat.mod_eq_of_lt (lo_lt hB a b)]

/-- The high word of two words is a word: its sum does not wrap. -/
theorem hi_lt (hB : 0 < B) (ha : a < B * B) (hb : b < B * B) : hi B a b < B * B := by
  rw [hi_eq hB]
  exact Nat.div_lt_of_lt_mul (Nat.mul_lt_mul'' ha hb)

/-! ## Quotients by a word -/

/-- The high word of a number known up to a double word. -/
theorem ediv_emod (p : Int) (w : Nat) :
    p % (2 ^ (w + w)) / 2 ^ w % 2 ^ w = p / 2 ^ w % 2 ^ w := by
  have hw : (0 : Int) < 2 ^ w := by positivity
  have hsplit : p = 2 ^ (w + w) * (p / 2 ^ (w + w)) + p % 2 ^ (w + w) :=
    (Int.mul_ediv_add_emod p _).symm
  have hdiv : p / 2 ^ w = 2 ^ w * (p / 2 ^ (w + w)) + p % 2 ^ (w + w) / 2 ^ w := by
    conv_lhs => rw [hsplit]
    rw [pow_add, Int.mul_assoc, Int.add_comm, Int.add_mul_ediv_left _ _ (ne_of_gt hw), Int.add_comm]
  rw [hdiv, Int.add_comm, Int.add_mul_emod_self_left]

/-- The quotient of a negated number: the complement of the quotient, plus one when nothing
remains. -/
theorem neg_ediv (p : Nat) {W : Nat} (hW : 0 < W) :
    (-(p : Int)) / W = -(p / W : Nat) - 1 + (if p % W = 0 then 1 else 0) := by
  have hsplit : (p : Int) = W * (p / W : Nat) + (p % W : Nat) := by
    exact_mod_cast (Nat.div_add_mod p W).symm
  have hpos : (0 : Int) < W := by exact_mod_cast hW
  by_cases h0 : p % W = 0
  · rw [if_pos h0]
    rw [h0] at hsplit
    have : -(p : Int) = W * (-(p / W : Nat)) := by rw [hsplit]; push_cast; ring
    rw [this, Int.mul_ediv_cancel_left _ (ne_of_gt hpos)]
    ring
  · rw [if_neg h0]
    have hlt : ((p % W : Nat) : Int) < W := by exact_mod_cast Nat.mod_lt p hW
    have hgt : (0 : Int) < (p % W : Nat) := by exact_mod_cast Nat.pos_of_ne_zero h0
    have : -(p : Int) = (W - (p % W : Nat)) + W * (-(p / W : Nat) - 1) := by rw [hsplit]; ring_nf
    rw [this, Int.add_mul_ediv_left _ _ (ne_of_gt hpos),
      Int.ediv_eq_zero_of_lt (by omega) (by omega)]
    ring

end WideMul
