import Mathlib.Tactic

set_option autoImplicit false

/-! # Single bits, masks and sign extension of machine words

General facts about `BitVec`: the word with one bit set, the test `x & (1 << k)` of C code,
and the branch-free sign extension that emulators write as `v | (sign * ~((1 << k) - 1))`.
Nothing here knows about a particular machine.
-/

namespace Bits

variable {w : Nat}

/-! ## One bit -/

/-- `(word_t)1 << k`. -/
def bit (k : Nat) : BitVec w := 1#w <<< k

@[simp] theorem getLsbD_bit (k i : Nat) :
    (bit k : BitVec w).getLsbD i = (decide (i < w) && decide (i = k)) := by
  simp only [bit, BitVec.getLsbD_shiftLeft, BitVec.getLsbD_one]
  by_cases hi : i < w
  · by_cases hk : i = k
    · subst hk
      simp [hi]
      omega
    · by_cases hlt : i < k
      · simp [hk, hlt]
      · have : i - k ≠ 0 := by omega
        simp [hk, this]
  · simp [hi]

@[simp] theorem getElem_bit (k i : Nat) (h : i < w) : (bit k : BitVec w)[i] = decide (i = k) := by
  rw [← BitVec.getLsbD_eq_getElem, getLsbD_bit]
  simp [h]

/-- A word whose bits below its width are all clear is zero. -/
theorem eq_zero_iff (x : BitVec w) : x = 0#w ↔ ∀ i, i < w → x.getLsbD i = false := by
  constructor
  · rintro rfl i _
    simp
  · intro h
    apply BitVec.eq_of_getLsbD_eq
    intro i hi
    simp [h i hi]

/-- The C test `x & (1 << k)`. -/
@[simp] theorem and_bit_bne_zero (x : BitVec w) (k : Nat) :
    (x &&& bit k != 0#w) = x.getLsbD k := by
  by_cases hk : k < w
  · cases hx : x.getLsbD k with
    | false =>
        have : x &&& bit k = 0#w := by
          rw [eq_zero_iff]
          intro i hi
          by_cases hik : i = k
          · subst hik; simp [hx]
          · simp [hik]
        simp [this]
    | true =>
        have : x &&& bit k ≠ 0#w := by
          intro h0
          have := congrArg (fun y => BitVec.getLsbD y k) h0
          simp only [BitVec.getLsbD_and, hx, getLsbD_bit, hk, BitVec.getLsbD_zero] at this
          simp at this
        simpa using this
  · have hx : x.getLsbD k = false := BitVec.getLsbD_of_ge x k (by omega)
    have : x &&& bit k = 0#w := by
      rw [eq_zero_iff]
      intro i hi
      have : i ≠ k := by omega
      simp [this]
    simp [hx, this]

@[simp] theorem and_bit_beq_zero (x : BitVec w) (k : Nat) :
    (x &&& bit k == 0#w) = !x.getLsbD k := by
  rw [← and_bit_bne_zero x k, bne, Bool.not_not]

/-- The C test `!(x & (1 << k))`. -/
@[simp] theorem and_bit_eq_zero (x : BitVec w) (k : Nat) :
    x &&& bit k = 0#w ↔ x.getLsbD k = false := by
  have h := and_bit_beq_zero x k
  rw [← beq_iff_eq, h]
  simp

/-! ## Sign extension -/

/-- `SIGN_EXTEND(v, signBit, type)` on a value already of the target type: the bits from
`signBit` up are set when bit `signBit` is. -/
def signExtend (v : BitVec w) (signBit : Nat) : BitVec w :=
  v ||| (((v >>> signBit) &&& 1#w) * ~~~((1#w <<< signBit) - 1#w))

theorem getLsbD_low_mask (k i : Nat) (hk : k < w) :
    ((1#w <<< k) - 1#w).getLsbD i = (decide (i < k)) := by
  have h : (1#w <<< k) - 1#w = BitVec.ofNat w (2 ^ k - 1) := by
    apply BitVec.eq_of_toNat_eq
    have h1 : 2 ^ k < 2 ^ w := Nat.pow_lt_pow_right (by omega) hk
    have h2 : 1 % 2 ^ w = 1 := Nat.mod_eq_of_lt (Nat.one_lt_two_pow (by omega))
    have h3 : 0 < 2 ^ k := Nat.two_pow_pos k
    simp only [BitVec.toNat_sub, BitVec.toNat_shiftLeft, BitVec.toNat_ofNat, h2,
      Nat.one_shiftLeft]
    rw [Nat.mod_eq_of_lt h1, show 2 ^ w - 1 + 2 ^ k = 2 ^ k - 1 + 2 ^ w by omega,
      Nat.add_mod_right]
  rw [h, BitVec.getLsbD_ofNat, Nat.testBit_two_pow_sub_one]
  by_cases hi : i < w
  · simp [hi]
  · have : ¬ i < k := by omega
    simp [hi, this]

theorem getLsbD_signExtend (v : BitVec w) (k i : Nat) (hk : k < w) :
    (signExtend v k).getLsbD i
      = (v.getLsbD i || (decide (k ≤ i) && decide (i < w) && v.getLsbD k)) := by
  have hone : (v >>> k) &&& 1#w = if v.getLsbD k then 1#w else 0#w := by
    apply BitVec.eq_of_getLsbD_eq
    intro j hj
    by_cases h0 : j = 0
    · subst h0
      cases hv : v.getLsbD k <;> simp [hv, show 0 < w by omega]
    · cases hv : v.getLsbD k <;> simp [h0]
  unfold signExtend
  rw [hone]
  cases hv : v.getLsbD k with
  | false => simp
  | true =>
      simp only [if_true, BitVec.one_mul, BitVec.getLsbD_or, BitVec.getLsbD_not,
        getLsbD_low_mask k i hk, Bool.and_true]
      by_cases hik : k ≤ i
      · simp [hik, show ¬ i < k by omega]
      · simp [hik, show i < k by omega]

/-! ## Little-endian bytes -/

abbrev Byte := BitVec 8

/-- The word whose bytes, lowest first, are `bs`. -/
def ofBytes : List Byte → BitVec w
  | [] => 0#w
  | b :: bs => b.setWidth w ||| (ofBytes bs <<< 8)

/-- The `n` lowest bytes of a word, lowest first. -/
def toBytes (n : Nat) (x : BitVec w) : List Byte :=
  (List.range n).map fun i => x.extractLsb' (8 * i) 8

@[simp] theorem toBytes_length (n : Nat) (x : BitVec w) : (toBytes n x).length = n := by
  simp [toBytes]

/-- Replace byte `i` (lowest first) of a word. -/
def setByte (x : BitVec w) (i : Nat) (b : Byte) : BitVec w :=
  (x &&& ~~~((0xFF#8).setWidth w <<< (8 * i))) ||| (b.setWidth w <<< (8 * i))

/-- Byte `i` (lowest first) of a word. -/
def getByte (x : BitVec w) (i : Nat) : Byte := x.extractLsb' (8 * i) 8

/-- A byte after a write of one. -/
theorem getByte_setByte (x : BitVec w) {i j : Nat} (hj : 8 * j + 8 ≤ w) (b : Byte) :
    getByte (setByte x i b) j = if i = j then b else getByte x j := by
  apply BitVec.eq_of_getLsbD_eq
  intro k hk
  have hbit : 8 * j + k < w := by omega
  simp only [getByte, setByte, BitVec.getLsbD_extractLsb', BitVec.getLsbD_or, BitVec.getLsbD_and,
    BitVec.getLsbD_not, BitVec.getLsbD_shiftLeft, BitVec.getLsbD_setWidth, hbit, hk, decide_true,
    Bool.true_and]
  by_cases hij : i = j
  · subst hij
    have hones : (0xFF#8).getLsbD k = true := by
      interval_cases k <;> rfl
    have hsub : 8 * i + k - 8 * i = k := by omega
    have hlow : ¬8 * i + k < 8 * i := by omega
    have hword : k < w := by omega
    simp [hlow, hsub, hword, hones]
  · rw [if_neg hij]
    by_cases hlow : 8 * j + k < 8 * i
    · simp [hlow, hk]
    · -- above the byte that was written
      have hhigh : 8 ≤ 8 * j + k - 8 * i := by omega
      simp [hk, BitVec.getLsbD_of_ge _ _ hhigh]

end Bits
