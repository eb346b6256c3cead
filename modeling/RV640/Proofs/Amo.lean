import RV640.Lib.Narrow
import RV640.Proofs.LoadStore

set_option autoImplicit false

/-! # Read-modify-write atomics

`_doAMO` works on copies of the old value and of the operand that are sign extended to the width of
a register, whatever the width of the access and also where the operation compares unsigned values.
What it leaves in memory is nevertheless the operation at the width of the access.
-/

namespace RV640

open Bits Riscv

variable {c : Cfg}

/-! ## The operations -/

/-- The operation of an atomic on the value in memory and the register operand. -/
def amoResult {n : Nat} (op : AmoOp) (old x : BitVec n) : BitVec n :=
  match op with
  | .amoadd => old + x
  | .amoswap => x
  | .amoxor => old ^^^ x
  | .amoor => old ||| x
  | .amoand => old &&& x
  | .amomin => BitVec.ofInt n (min old.toInt x.toInt)
  | .amomax => BitVec.ofInt n (max old.toInt x.toInt)
  | .amominu => BitVec.ofNat n (min old.toNat x.toNat)
  | .amomaxu => BitVec.ofNat n (max old.toNat x.toNat)

/-- The source's operation on words of any width. -/
theorem amoOp_eq {n : Nat} (op : AmoOp) (old x : BitVec n) :
    amoOp op.funct5 x old = some (amoResult op old x) := by
  cases op with
  | amoadd => rfl
  | amoswap => rfl
  | amoxor => rfl
  | amoor => rfl
  | amoand => rfl
  | amomin => exact congrArg some (min_toInt x old)
  | amomax => exact congrArg some (max_toInt x old)
  | amominu => exact congrArg some (min_toNat x old)
  | amomaxu => exact congrArg some (max_toNat x old)

/-- The operation on sign extended copies, cut, is the operation at the narrow width. -/
theorem amoResult_narrow {n w : Nat} (h : n ≤ w) (op : AmoOp) (old x : BitVec n) :
    (amoResult op (old.signExtend w) (x.signExtend w)).setWidth n = amoResult op old x := by
  have hold := setWidth_signExtend_self old h
  have hx := setWidth_signExtend_self x h
  cases op with
  | amoadd =>
      show (old.signExtend w + x.signExtend w).setWidth n = old + x
      rw [BitVec.setWidth_add _ _ h, hold, hx]
  | amoswap => exact hx
  | amoxor =>
      show (old.signExtend w ^^^ x.signExtend w).setWidth n = old ^^^ x
      rw [BitVec.setWidth_xor, hold, hx]
  | amoor =>
      show (old.signExtend w ||| x.signExtend w).setWidth n = old ||| x
      rw [BitVec.setWidth_or, hold, hx]
  | amoand =>
      show (old.signExtend w &&& x.signExtend w).setWidth n = old &&& x
      rw [BitVec.setWidth_and, hold, hx]
  | amomin =>
      -- the comparison of the copies is that of the values, and either way one of them is kept
      show (BitVec.ofInt w (min _ _)).setWidth n = BitVec.ofInt n (min _ _)
      rw [← min_toInt, ← min_toInt, slt_signExtend x old h, apply_ite (BitVec.setWidth n), hold, hx]
  | amomax =>
      show (BitVec.ofInt w (max _ _)).setWidth n = BitVec.ofInt n (max _ _)
      rw [← max_toInt, ← max_toInt, slt_signExtend old x h, apply_ite (BitVec.setWidth n), hold, hx]
  | amominu =>
      show (BitVec.ofNat w (min _ _)).setWidth n = BitVec.ofNat n (min _ _)
      rw [← min_toNat, ← min_toNat, ult_signExtend x old h, apply_ite (BitVec.setWidth n), hold, hx]
  | amomaxu =>
      show (BitVec.ofNat w (max _ _)).setWidth n = BitVec.ofNat n (max _ _)
      rw [← max_toNat, ← max_toNat, ult_signExtend old x h, apply_ite (BitVec.setWidth n), hold, hx]

/-! ## The instruction -/

/-- A read-modify-write atomic; `aqrl` are its ordering bits. -/
def amoWord (op : AmoOp) (funct3 : BitVec 3) (aqrl : BitVec 2) (rd rs1 rs2 : RegNo) : BitVec 32 :=
  encodeR (amoFunct7 op.funct5 aqrl) rs2 rs1 funct3 rd opAmo

theorem execInstr_encodeAmo (m : Machine c) (funct5 : BitVec 5) (funct3 : BitVec 3)
    (aqrl : BitVec 2) (rd rs1 rs2 : RegNo) :
    execInstr m (encodeR (amoFunct7 funct5 aqrl) rs2 rs1 funct3 rd opAmo)
      = doAMO m funct3 funct5 rd rs1 rs2 := by
  obtain ⟨hop, hrd, hf, hrs1, hrs2, hf7⟩ :=
    decode_encodeR (amoFunct7 funct5 aqrl) rs2 rs1 funct3 rd opAmo
  have hf5 : decodeFunct5 (encodeR (amoFunct7 funct5 aqrl) rs2 rs1 funct3 rd opAmo) = funct5 := by
    rw [decodeFunct5_eq, hf7]
    exact extract_amoFunct7 funct5 aqrl
  simp only [execInstr, hop, hrd, hf, hrs1, hrs2, hf5]
  rfl

theorem execInstr_amo (m : Machine c) (op : AmoOp) (funct3 : BitVec 3) (aqrl : BitVec 2)
    (rd rs1 rs2 : RegNo) : execInstr m (amoWord op funct3 aqrl rd rs1 rs2)
      = doAMO m funct3 op.funct5 rd rs1 rs2 :=
  execInstr_encodeAmo m op.funct5 funct3 aqrl rd rs1 rs2

/-- The value in memory that an atomic of `size` bytes reads. -/
def ramValue (m : Machine c) (addr size : Nat) : BitVec (8 * size) :=
  ofBytes ((List.range size).map fun k => ramByte m (addr + k))

/-! ## The values `_doAMO` works on -/

section

variable (m : Machine c) (funct3 : BitVec 3) (rs1 rs2 : Reg)

/-- The bits of an access, as the last one and its predecessors. -/
theorem amoSize_bits : ∃ k, 8 * amoSize c funct3 = k + 1 ∧ amoSize c funct3 * 8 - 1 = k
    ∧ k < c.xlen := by
  have hpos := amoSize_ne_zero c funct3
  have hle := amoSize_le c funct3
  have h8 : c.wordBytes * 8 = c.xlen := by cases c <;> rfl
  exact ⟨8 * amoSize c funct3 - 1, by omega, by omega, by omega⟩

/-- The operand is the sign extension of the low bytes of its register. -/
theorem amoRs2Val_eq : amoRs2Val m funct3 rs2
    = ((readReg m.cpu rs2).setWidth (8 * amoSize c funct3)).signExtend c.xlen := by
  obtain ⟨k, hk, hk', hlt⟩ := amoSize_bits (c := c) funct3
  rw [amoRs2Val, hk', hk, show amoSize c funct3 * 8 = k + 1 by omega]
  exact signExtend_masked (readReg m.cpu rs2) hlt

/-- The old value is the sign extension of the bytes at the address. -/
theorem amoOldVal_eq (ha : 0x80000000 ≤ (amoAddr m rs1).toNat) : amoOldVal m funct3 rs1
    = (ramValue m (amoAddr m rs1).toNat (amoSize c funct3)).signExtend c.xlen := by
  have hbytes : memRead m.ram (ramOffset (amoAddr m rs1)) (amoSize c funct3)
      = (List.range (amoSize c funct3)).map fun k => ramByte m ((amoAddr m rs1).toNat + k) :=
    memRead_ramByte m ha (amoSize c funct3)
  have hlen : (memRead m.ram (ramOffset (amoAddr m rs1)) (amoSize c funct3)).length
      = amoSize c funct3 := by
    rw [memRead, List.length_map, List.length_range]
  obtain ⟨k, hk, -, hlt⟩ := amoSize_bits (c := c) funct3
  have hext := @signExtend_ofBytes c.xlen (memRead m.ram (ramOffset (amoAddr m rs1))
    (amoSize c funct3)) (by omega) (by omega)
  rw [hlen] at hext
  rw [amoOldVal, hext, hbytes, ramValue]

/-- The alignment test, for a width that a register has. -/
theorem amoAddr_aligned_iff (hsize : storeSize funct3 ≤ c.wordBytes) :
    (amoAddr m rs1).toNat &&& (amoSize c funct3 - 1) = 0
      ↔ storeSize funct3 ∣ (amoAddr m rs1).toNat := by
  have hamo : amoSize c funct3 = storeSize funct3 := Nat.min_eq_left hsize
  rw [hamo, storeSize, Nat.one_shiftLeft, Nat.and_two_pow_sub_one_eq_mod]
  exact Nat.dvd_iff_mod_eq_zero.symm

end

/-- A read-modify-write atomic of RAM at an aligned address: `rd` receives the old value, sign
extended from the width of the access, and the bytes at the address become the operation on the old
value and the low bytes of `rs2`. Nothing else changes. -/
theorem amo_semantics {ramSize : Nat} (hsz : ramSize ≤ ramSizeMax) (m : Machine c)
    (hdev : MainDevices ramSize m.bus) (ht : m.cpu.trap = false) (op : AmoOp) (funct3 : BitVec 3)
    (aqrl : BitVec 2) (rd rs1 rs2 : RegNo) (hsize : storeSize funct3 ≤ c.wordBytes)
    (hal : storeSize funct3 ∣ (amoAddr m rs1).toNat)
    (hin : InRam ramSize (amoAddr m rs1) (storeSize funct3)) :
    let a := (amoAddr m rs1).toNat
    let old := ramValue m a (storeSize funct3)
    let x := (readReg m.cpu rs2).setWidth (8 * storeSize funct3)
    Stored ramSize { m with cpu := writeReg m.cpu rd (old.signExtend c.xlen) }
      (execInstr m (amoWord op funct3 aqrl rd rs1 rs2))
      (storedByte m a (storeSize funct3) (amoResult op old x)) := by
  intro a old x
  have hamo : amoSize c funct3 = storeSize funct3 := Nat.min_eq_left hsize
  have hmask := (amoAddr_aligned_iff m funct3 rs1 hsize).mpr hal
  obtain ⟨k, hk, -, hlt⟩ := amoSize_bits (c := c) funct3
  have hold : amoOldVal m funct3 rs1 = old.signExtend c.xlen := by
    rw [amoOldVal_eq m funct3 rs1 hin.1, hamo]
  have hx : amoRs2Val m funct3 rs2 = x.signExtend c.xlen := by
    rw [amoRs2Val_eq, hamo]
  have hexec := doRMW_inRam hdev hsz ht funct3 op.funct5 rd rs1 rs2 hmask (by rw [hamo]; exact hin)
    (amoOp_eq op (amoOldVal m funct3 rs1) (amoRs2Val m funct3 rs2))
  -- the handler computes on sign extended copies, and the store cuts the result
  have hstored : toBytes (storeSize funct3)
      (amoResult op (amoOldVal m funct3 rs1) (amoRs2Val m funct3 rs2))
      = toBytes (storeSize funct3) (amoResult op old x) := by
    rw [hold, hx, ← toBytes_setWidth, amoResult_narrow (by omega)]
  rw [hamo, hstored, hold] at hexec
  rw [execInstr_amo, hexec]
  refine ⟨fun addr haddr => ramByte_store _ _ _ hin.1 rfl haddr, rfl, ?_⟩
  rw [MainDevices, busWriteInvalidate_devices]
  exact hdev

/-- `amominu.h x6, x6, (x5)`: the operand is the smaller value, and its register is replaced. -/
theorem amo_semantics_amominu :
    Stored 0x100000
      { loadStoreMachine with cpu := writeReg loadStoreMachine.cpu 6#5 0xFFFFFFFFFFFFF0F0#64 }
      (execInstr loadStoreMachine (amoWord .amominu 1#3 0#2 6#5 5#5 6#5))
      (storedByte loadStoreMachine 0x80000004 2 0x3344#16) := by
  have hold : (ramValue loadStoreMachine (amoAddr loadStoreMachine 5#5).toNat 2).signExtend 64
      = 0xFFFFFFFFFFFFF0F0#64 := by decide +kernel
  have hnew : amoResult .amominu (ramValue loadStoreMachine (amoAddr loadStoreMachine 5#5).toNat 2)
      ((readReg loadStoreMachine.cpu 6#5).setWidth 16) = 0x3344#16 := by decide +kernel
  have h := @amo_semantics .rv64 0x100000 (by decide) loadStoreMachine rfl rfl .amominu 1#3
    0#2 6#5 5#5 6#5 (by decide) (by decide +kernel) (by decide +kernel)
  rw [← hold, ← hnew]
  exact h

end RV640
