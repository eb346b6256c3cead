import RV640.Lib.Fields

set_option autoImplicit false

/-! # Words assembled from bytes

`ofBytes` assembles a word from bytes, the lowest first, and `toBytes` cuts one up. The width of the
word is free: a word that is wider than its bytes is zero above them, and a sign extended from the
highest byte is the sign of the word that is just as wide as the bytes.
-/

namespace Bits

variable {w : Nat}

/-! ## Assembling -/

/-- A bit of an assembled word is a bit of one byte. -/
theorem getLsbD_ofBytes (bs : List Byte) (i : Nat) :
    (ofBytes bs : BitVec w).getLsbD i
      = (decide (i < w) && (bs[i / 8]?.getD 0#8).getLsbD (i % 8)) := by
  induction bs generalizing i with
  | nil => simp [ofBytes]
  | cons b bs ih =>
      rw [ofBytes, BitVec.getLsbD_or, BitVec.getLsbD_setWidth, BitVec.getLsbD_shiftLeft, ih]
      by_cases hi : i < 8
      · -- a bit of the first byte
        have hdiv : i / 8 = 0 := by omega
        have hmod : i % 8 = i := by omega
        simp [hi, hdiv, hmod]
      · -- a bit of the rest
        have hdiv : i / 8 = (i - 8) / 8 + 1 := by omega
        have hmod : i % 8 = (i - 8) % 8 := by omega
        rw [hdiv, List.getElem?_cons_succ, hmod, BitVec.getLsbD_of_ge b i (by omega)]
        by_cases hw : i < w
        · simp [hi, hw, show i - 8 < w by omega]
        · simp [hw]

/-- Above its bytes an assembled word is zero. -/
theorem getLsbD_ofBytes_of_ge {bs : List Byte} {i : Nat} (h : 8 * bs.length ≤ i) :
    (ofBytes bs : BitVec w).getLsbD i = false := by
  rw [getLsbD_ofBytes, List.getElem?_eq_none (by omega)]
  simp

/-- The same bytes in a wider word. -/
theorem setWidth_ofBytes {v : Nat} {bs : List Byte} (h : 8 * bs.length ≤ v) :
    (ofBytes bs : BitVec v).setWidth w = ofBytes bs := by
  apply BitVec.eq_of_getLsbD_eq
  intro i hi
  rw [BitVec.getLsbD_setWidth]
  by_cases hv : i < v
  · rw [getLsbD_ofBytes, getLsbD_ofBytes]
    simp [hi, hv]
  · rw [getLsbD_ofBytes_of_ge (by omega), getLsbD_ofBytes_of_ge (by omega), Bool.and_false]

/-- The low bytes of an assembled word. -/
theorem setWidth_ofBytes_append {v : Nat} {bs : List Byte} (h : 8 * bs.length = w) (hv : w ≤ v)
    (bs' : List Byte) : (ofBytes (bs ++ bs') : BitVec v).setWidth w = ofBytes bs := by
  apply BitVec.eq_of_getLsbD_eq
  intro i hi
  have hbyte : (bs ++ bs')[i / 8]? = bs[i / 8]? := List.getElem?_append_left (by omega)
  rw [BitVec.getLsbD_setWidth, getLsbD_ofBytes, getLsbD_ofBytes, hbyte]
  simp [hi, show i < v by omega]

/-- The sign extension of an assembled word, from its highest byte. -/
theorem signExtend_ofBytes {bs : List Byte} (hpos : 0 < bs.length) (hw : 8 * bs.length ≤ w) :
    signExtend (ofBytes bs : BitVec w) (bs.length * 8 - 1)
      = (ofBytes bs : BitVec (8 * bs.length)).signExtend w := by
  obtain ⟨k, hk⟩ : ∃ k, 8 * bs.length = k + 1 := ⟨8 * bs.length - 1, by omega⟩
  have hbit : bs.length * 8 - 1 = k := by omega
  calc signExtend (ofBytes bs : BitVec w) (bs.length * 8 - 1)
      = signExtend ((ofBytes bs : BitVec (k + 1)).setWidth w) k := by
        rw [hbit, setWidth_ofBytes (by omega)]
    _ = (ofBytes bs : BitVec (k + 1)).signExtend w := signExtend_setWidth_field _ (by omega)
    _ = (ofBytes bs : BitVec (8 * bs.length)).signExtend w := by rw [hk]

/-! ## Cutting up -/

theorem toBytes_getElem? (n : Nat) (x : BitVec w) (i : Nat) :
    (toBytes n x)[i]? = if i < n then some (getByte x i) else none := by
  unfold toBytes getByte
  rw [List.getElem?_map]
  by_cases h : i < n
  · simp [h]
  · simp [h]

/-- The low bytes of a word depend on its low bits only. -/
theorem toBytes_setWidth (n : Nat) (x : BitVec w) :
    toBytes n (x.setWidth (8 * n)) = toBytes n x := by
  unfold toBytes
  apply List.map_congr_left
  intro i hi
  have hi := List.mem_range.mp hi
  apply BitVec.eq_of_getLsbD_eq
  intro j hj
  rw [BitVec.getLsbD_extractLsb', BitVec.getLsbD_extractLsb', BitVec.getLsbD_setWidth,
    decide_eq_true (show 8 * i + j < 8 * n by omega), Bool.true_and]

end Bits
