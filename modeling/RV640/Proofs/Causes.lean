import RV640.Cpu.Run

set_option autoImplicit false

/-! # Cause words

A latched `trapCause` is an exception number, or an interrupt number with the sign bit. The two
kinds and their numbers can be told apart at either word size.
-/

namespace RV640

open Bits

variable {c : Cfg}

/-- The `trapCause` that `_trap` latches. -/
def trapCauseWord (cause : TrapCause) : Word c := BitVec.ofNat _ cause.toNat

/-- The `trapCause` that `_interrupt` latches. -/
def irqCauseWord (i : IrqCause) : Word c := BitVec.ofNat _ i.toNat ||| cpuSignBit

theorem toNat_ofNat_small (c : Cfg) {k : Nat} (h : k < 31) : (BitVec.ofNat c.xlen k).toNat = k := by
  have h1 : 2 ^ 32 ≤ 2 ^ c.xlen := Nat.pow_le_pow_right (by omega) c.xlen_ge
  rw [BitVec.toNat_ofNat, Nat.mod_eq_of_lt (by omega)]

theorem ofNat_small_inj {j k : Nat} (hj : j < 31) (hk : k < 31)
    (h : BitVec.ofNat c.xlen j = BitVec.ofNat c.xlen k) : j = k := by
  have := congrArg BitVec.toNat h
  rwa [toNat_ofNat_small c hj, toNat_ofNat_small c hk] at this

/-- A small number does not reach the sign bit. -/
theorem signBit_ofNat_small {k : Nat} (h : k < 31) :
    (BitVec.ofNat c.xlen k).getLsbD (c.xlen - 1) = false := by
  have hx := c.xlen_ge
  have hpow : 2 ^ 31 ≤ 2 ^ (c.xlen - 1) := Nat.pow_le_pow_right (by omega) (by omega)
  rw [BitVec.getLsbD_ofNat, Nat.testBit_lt_two_pow (by omega), Bool.and_false]

@[simp] theorem causeIsIrq_trapCauseWord (cause : TrapCause) :
    causeIsIrq (trapCauseWord cause : Word c) = false := by
  simp only [causeIsIrq, cpuSignBit, and_bit_bne_zero, trapCauseWord]
  exact signBit_ofNat_small cause.toNat_lt

@[simp] theorem causeIsIrq_irqCauseWord (i : IrqCause) :
    causeIsIrq (irqCauseWord i : Word c) = true := by
  have hx := c.xlen_ge
  simp only [causeIsIrq, cpuSignBit, and_bit_bne_zero, irqCauseWord, BitVec.getLsbD_or, getLsbD_bit,
    decide_true, Bool.and_true, decide_eq_true (show c.xlen - 1 < c.xlen by omega), Bool.or_true]

theorem causeCode_ofNat_small {k : Nat} (h : k < 31) :
    causeCode (BitVec.ofNat c.xlen k) = BitVec.ofNat c.xlen k := by
  apply BitVec.eq_of_getLsbD_eq
  intro j hj
  by_cases hs : j = c.xlen - 1
  · rw [hs, signBit_ofNat_small h, causeCode, BitVec.getLsbD_and, signBit_ofNat_small h,
      Bool.false_and]
  · simp only [causeCode, cpuSignBit, BitVec.getLsbD_and, BitVec.getLsbD_not, getLsbD_bit, hs, hj,
      decide_false, decide_true, Bool.and_false, Bool.not_false, Bool.and_self, Bool.and_true]

@[simp] theorem causeCode_trapCauseWord (cause : TrapCause) :
    causeCode (trapCauseWord cause : Word c) = BitVec.ofNat _ cause.toNat :=
  causeCode_ofNat_small cause.toNat_lt

@[simp] theorem causeCode_irqCauseWord (i : IrqCause) :
    causeCode (irqCauseWord i : Word c) = BitVec.ofNat _ i.toNat := by
  have hcode := causeCode_ofNat_small (c := c) i.toNat_lt
  have hself : (cpuSignBit : Word c) &&& ~~~cpuSignBit = 0#_ := BitVec.and_not_self _
  unfold causeCode at hcode ⊢
  rw [irqCauseWord, BitVec.and_or_distrib_right, hself, BitVec.or_zero, hcode]

theorem irqCauseWord_inj {i j : IrqCause} (h : (irqCauseWord i : Word c) = irqCauseWord j) :
    i = j := by
  have hcode := congrArg causeCode h
  rw [causeCode_irqCauseWord, causeCode_irqCauseWord] at hcode
  exact IrqCause.toNat_inj (ofNat_small_inj i.toNat_lt j.toNat_lt hcode)

theorem trapCauseWord_ne_irqCauseWord (cause : TrapCause) (i : IrqCause) :
    (trapCauseWord cause : Word c) ≠ irqCauseWord i := by
  intro h
  have hirq := congrArg causeIsIrq h
  rw [causeIsIrq_trapCauseWord, causeIsIrq_irqCauseWord] at hirq
  cases hirq

end RV640
