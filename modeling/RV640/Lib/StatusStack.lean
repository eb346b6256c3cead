import RV640.Lib.Bits

set_option autoImplicit false

/-! # An enable bit with a stack of one

Entering a handler saves an enable bit in a second bit of the same word and clears it; leaving
copies it back and sets the second bit. Both are written with masks, as emulators do, and both are
characterised bit by bit. `setField` replaces the bits under a mask.
-/

namespace Bits

variable {w : Nat}

/-- Save bit `ie` in bit `pie` and clear it. -/
def pushBit (x : BitVec w) (ie pie : Nat) : BitVec w :=
  (x &&& ~~~(bit pie ||| bit ie)) ||| (if x &&& bit ie != 0#w then bit pie else 0#w)

/-- Copy bit `pie` back to bit `ie` and set it. -/
def popBit (x : BitVec w) (ie pie : Nat) : BitVec w :=
  (x &&& ~~~bit ie) ||| (if x &&& bit pie != 0#w then bit ie else 0#w) ||| bit pie

/-- Replace the bits under a mask. -/
def setField (x mask v : BitVec w) : BitVec w := (x &&& ~~~mask) ||| v

theorem getLsbD_pushBit (x : BitVec w) {ie pie : Nat} (hne : ie ≠ pie) {k : Nat} (hk : k < w) :
    (pushBit x ie pie).getLsbD k
      = if k = ie then false else if k = pie then x.getLsbD ie else x.getLsbD k := by
  unfold pushBit
  rw [and_bit_bne_zero]
  by_cases hie : k = ie
  · subst hie
    cases x.getLsbD k <;> simp [hne]
  · by_cases hpie : k = pie
    · subst hpie
      cases x.getLsbD ie <;> simp [hie, hk]
    · cases x.getLsbD ie <;> simp [hie, hpie, hk]

theorem getLsbD_popBit (x : BitVec w) {ie pie : Nat} (hne : ie ≠ pie) {k : Nat} (hk : k < w) :
    (popBit x ie pie).getLsbD k
      = if k = ie then x.getLsbD pie else if k = pie then true else x.getLsbD k := by
  unfold popBit
  rw [and_bit_bne_zero]
  by_cases hie : k = ie
  · subst hie
    cases x.getLsbD pie <;> simp [hne, hk]
  · by_cases hpie : k = pie
    · subst hpie
      cases x.getLsbD k <;> simp [hie, hk]
    · cases x.getLsbD pie <;> simp [hie, hpie, hk]

/-- A field that holds neither bit is left alone. -/
theorem popBit_and (x : BitVec w) {ie pie : Nat} (hne : ie ≠ pie) {mask : BitVec w}
    (hie : mask.getLsbD ie = false) (hpie : mask.getLsbD pie = false) :
    popBit x ie pie &&& mask = x &&& mask := by
  apply BitVec.eq_of_getLsbD_eq
  intro k hk
  rw [BitVec.getLsbD_and, BitVec.getLsbD_and, getLsbD_popBit x hne hk]
  by_cases h1 : k = ie
  · rw [h1, hie, Bool.and_false, Bool.and_false]
  · by_cases h2 : k = pie
    · rw [h2, hpie, Bool.and_false, Bool.and_false]
    · rw [if_neg h1, if_neg h2]

/-- A bit outside the mask. -/
theorem getLsbD_setField (x : BitVec w) {mask v : BitVec w} {k : Nat}
    (hmask : mask.getLsbD k = false) (hv : v.getLsbD k = false) :
    (setField x mask v).getLsbD k = x.getLsbD k := by
  by_cases hk : k < w
  · rw [setField, BitVec.getLsbD_or, hv, BitVec.getLsbD_and, BitVec.getLsbD_not, hmask,
      decide_eq_true hk]
    simp
  · rw [BitVec.getLsbD_of_ge _ k (by omega), BitVec.getLsbD_of_ge _ k (by omega)]

end Bits
