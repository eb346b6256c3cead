import RV640.Lib.Bits

set_option autoImplicit false

/-! # Fields of instruction words

Instruction formats put fields at bit positions, and decoders in C take them out again with a shift
and a mask. `place x pos` is the word with the field `x` at `pos`; the lemmas below turn shifts and
masks into placed fields and read fields out of words made of them. The last section is about
extending the sign of a field more than once.
-/

namespace Bits

variable {n k w : Nat}

/-- The word with the field `x` at bit `pos`. -/
def place (x : BitVec k) (pos : Nat) : BitVec n := x.setWidth n <<< pos

theorem getLsbD_place (x : BitVec k) (pos i : Nat) :
    (place x pos : BitVec n).getLsbD i
      = (decide (i < n) && decide (pos ≤ i) && x.getLsbD (i - pos)) := by
  unfold place
  rw [BitVec.getLsbD_shiftLeft, BitVec.getLsbD_setWidth]
  by_cases hi : i < n
  · have hsub : i - pos < n := by omega
    by_cases hp : pos ≤ i
    · simp [hi, hp, hsub]
    · simp [hi, hp]
  · simp [hi]

/-! ## Reading a field -/

/-- A placed field is read back. -/
theorem extractLsb'_place (x : BitVec k) {pos : Nat} (h : pos + k ≤ n) :
    (place x pos : BitVec n).extractLsb' pos k = x := by
  apply BitVec.eq_of_getLsbD_eq
  intro i hi
  rw [BitVec.getLsbD_extractLsb', getLsbD_place, Nat.add_sub_cancel_left]
  simp [hi, show pos + i < n by omega]

/-- Above a placed field there is nothing. -/
theorem extractLsb'_place_of_le (x : BitVec k) {pos start l : Nat} (h : pos + k ≤ start) :
    (place x pos : BitVec n).extractLsb' start l = 0#l := by
  apply BitVec.eq_of_getLsbD_eq
  intro i hi
  rw [BitVec.getLsbD_extractLsb', getLsbD_place,
    BitVec.getLsbD_of_ge x (start + i - pos) (by omega)]
  simp

/-- Below a placed field there is nothing. -/
theorem extractLsb'_place_of_ge (x : BitVec k) {pos start l : Nat} (h : start + l ≤ pos) :
    (place x pos : BitVec n).extractLsb' start l = 0#l := by
  apply BitVec.eq_of_getLsbD_eq
  intro i hi
  rw [BitVec.getLsbD_extractLsb', getLsbD_place]
  simp [show ¬ pos ≤ start + i by omega]

/-- A field of a field. -/
theorem extractLsb'_extractLsb' (x : BitVec w) {s l start len : Nat} (h : start + len ≤ l) :
    (x.extractLsb' s l).extractLsb' start len = x.extractLsb' (s + start) len := by
  apply BitVec.eq_of_getLsbD_eq
  intro i hi
  simp only [BitVec.getLsbD_extractLsb', hi, decide_true, Bool.true_and]
  rw [decide_eq_true (by omega : start + i < l), Bool.true_and, Nat.add_assoc]

/-! ## Placing a field -/

theorem place_zero (x : BitVec k) : (place x 0 : BitVec n) = x.setWidth n := BitVec.shiftLeft_zero _

theorem place_or (x y : BitVec k) (pos : Nat) :
    (place (x ||| y) pos : BitVec n) = place x pos ||| place y pos := by
  unfold place
  rw [BitVec.setWidth_or, BitVec.shiftLeft_or_distrib]

/-- A field of a word that is placed in turn. -/
theorem place_place (x : BitVec k) {pos m : Nat} (pos' : Nat) (h : pos + k ≤ m) :
    (place (place x pos : BitVec m) pos' : BitVec n) = place x (pos + pos') := by
  apply BitVec.eq_of_getLsbD_eq
  intro i hi
  rw [getLsbD_place, getLsbD_place, getLsbD_place]
  by_cases hp : pos + pos' ≤ i
  · rw [show i - pos' - pos = i - (pos + pos') by omega]
    by_cases him : i - pos' < m
    · simp [hi, hp, him, show pos' ≤ i by omega, show pos ≤ i - pos' by omega]
    · rw [BitVec.getLsbD_of_ge x (i - (pos + pos')) (by omega)]
      simp
  · by_cases hp' : pos' ≤ i
    · simp [hp, show ¬ pos ≤ i - pos' by omega]
    · simp [hp, hp']

theorem place_eq_zero_iff (x : BitVec k) (h : k ≤ n) : (place x 0 : BitVec n) = 0#n ↔ x = 0#k := by
  constructor
  · intro h0
    have hx : (place x 0 : BitVec n).extractLsb' 0 k = x := extractLsb'_place x (by omega)
    rw [← hx, h0]
    simp
  · rintro rfl
    simp [place]

theorem place_ne_zero {x : BitVec k} (h : k ≤ n) (hx : x ≠ 0#k) : (place x 0 : BitVec n) ≠ 0#n :=
  mt (place_eq_zero_iff x h).mp hx

theorem bv_or_left_comm (x y z : BitVec n) : x ||| (y ||| z) = y ||| (x ||| z) := by
  rw [← BitVec.or_assoc, BitVec.or_comm x y, BitVec.or_assoc]

/-- Two neighbouring fields are one. -/
theorem place_or_place (x : BitVec w) (s l l' pos : Nat) :
    (place (x.extractLsb' s l) pos ||| place (x.extractLsb' (s + l) l') (pos + l) : BitVec n)
      = place (x.extractLsb' s (l + l')) pos := by
  apply BitVec.eq_of_getLsbD_eq
  intro i hi
  rw [BitVec.getLsbD_or]
  simp only [getLsbD_place, BitVec.getLsbD_extractLsb', hi, decide_true, Bool.true_and]
  by_cases hp : pos ≤ i
  · by_cases hl : pos + l ≤ i
    · have hnl : ¬ i - pos < l := by omega
      rw [show s + l + (i - (pos + l)) = s + (i - pos) by omega,
        decide_eq_false hnl, decide_eq_true hp, decide_eq_true hl]
      have hiff : i - (pos + l) < l' ↔ i - pos < l + l' := by omega
      simp [hiff]
    · have hlt : i - pos < l := by omega
      simp [hp, hl, hlt, show i - pos < l + l' by omega]
  · simp [hp, show ¬ pos + l ≤ i by omega]

/-- Widening a word that holds the field. -/
theorem setWidth_place (x : BitVec k) {pos m : Nat} (h : pos + k ≤ m) :
    (place x pos : BitVec m).setWidth n = place x pos := by
  apply BitVec.eq_of_getLsbD_eq
  intro i hi
  rw [BitVec.getLsbD_setWidth, getLsbD_place, getLsbD_place]
  by_cases him : i < m
  · simp [him, Bool.and_assoc]
  · rw [BitVec.getLsbD_of_ge x (i - pos) (by omega)]
    simp

/-! ## Shifts and masks of C -/

/-- `(x >> s) & (mask << pos)` takes a field down. -/
theorem ushiftRight_and (x mask : BitVec n) (s len pos : Nat)
    (hmask : mask = place (BitVec.allOnes len) pos) :
    (x >>> s) &&& mask = place (x.extractLsb' (s + pos) len) pos := by
  apply BitVec.eq_of_getLsbD_eq
  intro i hi
  rw [hmask, BitVec.getLsbD_and, BitVec.getLsbD_ushiftRight, getLsbD_place, getLsbD_place,
    BitVec.getLsbD_extractLsb', BitVec.getLsbD_allOnes]
  by_cases hp : pos ≤ i
  · rw [show s + pos + (i - pos) = s + i by omega]
    simp [hi, hp, Bool.and_comm]
  · simp [hp]

/-- `(x << s) & (mask << pos)` takes a field up. -/
theorem shiftLeft_and (x mask : BitVec n) (s len pos : Nat) (h : s ≤ pos)
    (hmask : mask = place (BitVec.allOnes len) pos) :
    (x <<< s) &&& mask = place (x.extractLsb' (pos - s) len) pos := by
  apply BitVec.eq_of_getLsbD_eq
  intro i hi
  rw [hmask, BitVec.getLsbD_and, BitVec.getLsbD_shiftLeft, getLsbD_place, getLsbD_place,
    BitVec.getLsbD_extractLsb', BitVec.getLsbD_allOnes]
  by_cases hp : pos ≤ i
  · rw [show pos - s + (i - pos) = i - s by omega]
    simp [hi, hp, show ¬ i < s by omega, Bool.and_comm]
  · simp [hp]

/-- `((x >> s) & 1) << pos` moves one bit. -/
theorem bit_shiftLeft (x : BitVec n) (s pos : Nat) :
    ((x >>> s) &&& 1#n) <<< pos = place (x.extractLsb' s 1) pos := by
  apply BitVec.eq_of_getLsbD_eq
  intro i hi
  rw [BitVec.getLsbD_shiftLeft, BitVec.getLsbD_and, BitVec.getLsbD_ushiftRight, BitVec.getLsbD_one,
    getLsbD_place, BitVec.getLsbD_extractLsb']
  by_cases hp : i < pos
  · simp [hp]
  · by_cases h0 : i - pos = 0
    · simp [h0, hp, hi, show 0 < n by omega, show pos ≤ i by omega]
    · simp [h0, show ¬ i - pos < 1 by omega]

/-! ## Extending a sign -/

theorem signExtend_setWidth_field (z : BitVec (k + 1)) (hk : k < w) :
    signExtend (z.setWidth w) k = z.signExtend w := by
  apply BitVec.eq_of_getLsbD_eq
  intro i hi
  rw [getLsbD_signExtend _ _ _ hk, BitVec.getLsbD_signExtend, BitVec.getLsbD_setWidth,
    BitVec.getLsbD_setWidth, BitVec.msb_eq_getLsbD_last, Nat.add_sub_cancel]
  by_cases hik : i < k + 1
  · by_cases heq : i = k
    · subst heq
      simp [hi]
    · simp [hi, hik, show ¬ k ≤ i by omega]
  · simp [hi, hk, hik, show k ≤ i by omega, BitVec.getLsbD_of_ge z i (by omega)]

/-- Extending once more, at a higher sign bit and to another width, is extending once. -/
theorem signExtend_setWidth_signExtend {m l : Nat} (y : BitVec k) (hk : 0 < k) (hkm : k ≤ m + 1)
    (hml : m < l) (hmw : m < w) : signExtend ((y.signExtend l).setWidth w) m = y.signExtend w := by
  apply BitVec.eq_of_getLsbD_eq
  intro i hi
  rw [getLsbD_signExtend _ _ _ hmw, BitVec.getLsbD_setWidth, BitVec.getLsbD_setWidth,
    BitVec.getLsbD_signExtend, BitVec.getLsbD_signExtend, BitVec.getLsbD_signExtend]
  have hm : (if m < k then y.getLsbD m else y.msb) = y.msb := by
    split
    · rw [BitVec.msb_eq_getLsbD_last, show k - 1 = m by omega]
    · rfl
  rw [hm]
  by_cases hik : i < k
  · by_cases him : m ≤ i
    · have heq : i = k - 1 := by omega
      rw [heq, ← BitVec.msb_eq_getLsbD_last]
      simp [show k - 1 < w by omega, show k - 1 < l by omega, hk, hmw]
    · simp [hi, hik, him, show i < l by omega]
  · by_cases him : m ≤ i
    · simp [hi, hik, him, hmw, hml]
    · simp [hi, hik, him, show i < l by omega]

theorem signExtend_signExtend_of_le {m : Nat} (y : BitVec k) (hk : 0 < k) (h : k ≤ m) :
    (y.signExtend m).signExtend w = y.signExtend w := by
  apply BitVec.eq_of_getLsbD_eq
  intro i hi
  have hmsb : (y.signExtend m).msb = y.msb := by
    rw [BitVec.msb_eq_getLsbD_last, BitVec.getLsbD_signExtend, decide_eq_true (by omega),
      Bool.true_and]
    split
    · rw [BitVec.msb_eq_getLsbD_last, show m - 1 = k - 1 by omega]
    · rfl
  rw [BitVec.getLsbD_signExtend, BitVec.getLsbD_signExtend, BitVec.getLsbD_signExtend, hmsb]
  by_cases him : i < m
  · simp [hi, him]
  · simp [hi, him, show ¬ i < k by omega]

/-- The sign of a placed field. -/
theorem place_signExtend {m : Nat} (y : BitVec k) (pos : Nat) (hk : 0 < k) :
    (place (y.signExtend m) pos : BitVec (pos + m))
      = (place y pos : BitVec (pos + k)).signExtend (pos + m) := by
  apply BitVec.eq_of_getLsbD_eq
  intro i hi
  have hmsb : (place y pos : BitVec (pos + k)).msb = y.msb := by
    rw [BitVec.msb_eq_getLsbD_last, BitVec.msb_eq_getLsbD_last, getLsbD_place]
    simp [show pos + k - 1 < pos + k by omega, show pos ≤ pos + k - 1 by omega,
      show pos + k - 1 - pos = k - 1 by omega]
  rw [getLsbD_place, BitVec.getLsbD_signExtend, BitVec.getLsbD_signExtend, hmsb, getLsbD_place]
  by_cases hp : pos ≤ i
  · by_cases hik : i < pos + k
    · simp [hi, hp, hik, show i - pos < m by omega, show i - pos < k by omega]
    · simp [hi, hp, hik, show i - pos < m by omega, show ¬ i - pos < k by omega]
  · simp [hi, hp, show i < pos + k by omega]

/-- Shifting an extended field up leaves only its low bits. -/
theorem signExtend_shiftLeft {m : Nat} (y : BitVec k) (pos : Nat) (h : n ≤ m + pos) :
    y.signExtend n <<< pos = place (y.signExtend m) pos := by
  apply BitVec.eq_of_getLsbD_eq
  intro i hi
  rw [BitVec.getLsbD_shiftLeft, getLsbD_place, BitVec.getLsbD_signExtend, BitVec.getLsbD_signExtend]
  by_cases hp : i < pos
  · simp [hp]
  · simp [hi, hp, show pos ≤ i by omega, show i - pos < n by omega, show i - pos < m by omega]

end Bits
