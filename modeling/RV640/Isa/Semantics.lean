import RV640.Isa.MemoryOp
import RV640.Lib.Bytes

set_option autoImplicit false

/-! # What the instructions do

The unprivileged architecture as a transition system: the base instructions, M, the
read-modify-write atomics, FENCE.I and the compressed forms, on a hart whose memory is one range of
addresses. Results are integers and naturals cut to the width of a register. A store makes the bytes
it writes stale: until the next FENCE.I the hart may fetch the old ones, so a step that fetches them
is not described. Neither are the instructions that trap, those that access memory outside the
range, the instructions on CSRs and the pairs of LR and SC.
-/

namespace Riscv

open Bits

/-! ## States -/

/-- The integer registers. -/
structure RegFile (w : Nat) where
  val : RegNo → BitVec w
  zero : val x0 = 0#w

/-- A write of a register. Those of `x0` are lost. -/
def RegFile.set {w : Nat} (r : RegFile w) (rd : RegNo) (x : BitVec w) : RegFile w where
  val i := if i = rd ∧ rd ≠ x0 then x else r.val i
  zero := by
    rw [if_neg fun h => h.2 h.1.symm]
    exact r.zero

@[simp] theorem RegFile.set_x0 {w : Nat} (r : RegFile w) (x : BitVec w) : r.set x0 x = r := by
  unfold RegFile.set
  simp

/-- A hart with registers of `w` and addresses of `a` bits. `stale` are the bytes written since the
last FENCE.I. -/
structure Hart (w a : Nat) where
  pc : BitVec a
  regs : RegFile w
  mem : Nat → Byte
  stale : Nat → Bool

/-- The instruction set and the range of memory. -/
structure Platform where
  rv64 : Bool
  base : Nat
  size : Nat

/-- The memory holds the bytes `[addr, addr + n)`. -/
def Platform.Holds (p : Platform) (addr n : Nat) : Prop :=
  p.base ≤ addr ∧ addr + n ≤ p.base + p.size

instance (p : Platform) (addr n : Nat) : Decidable (p.Holds addr n) := by
  unfold Platform.Holds
  infer_instance

namespace Hart

variable {w a : Nat}

/-- On to the next instruction. -/
def next (s : Hart w a) (size : Nat) : Hart w a := { s with pc := s.pc + BitVec.ofNat _ size }

/-- The result of an instruction in a register. -/
def write (s : Hart w a) (rd : RegNo) (x : BitVec w) (size : Nat) : Hart w a :=
  { s.next size with regs := s.regs.set rd x }

/-- A jump, with the return address in a register. -/
def jump (s : Hart w a) (rd : RegNo) (target : BitVec a) (size : Nat) : Hart w a :=
  { s with pc := target, regs := s.regs.set rd ((s.pc + BitVec.ofNat _ size).setWidth w) }

/-- A store. -/
def store (s : Hart w a) (addr : Nat) (bs : List Byte) : Hart w a :=
  { s with
    mem := Bytes.writeAt s.mem addr bs
    stale := fun i => s.stale i || decide (addr ≤ i ∧ i < addr + bs.length) }

/-- The address of a load or store. -/
def addr (s : Hart w a) (rs1 : RegNo) (imm : BitVec 12) : BitVec a :=
  (s.regs.val rs1).setWidth _ + BitVec.ofInt _ imm.toInt

end Hart

/-! ## Results -/

section Results

variable {w : Nat}

/-- A truth value in a register. -/
def truth (b : Bool) : BitVec w := if b then 1#w else 0#w

/-- The operations on two registers; `funct7` 1 is the M extension. Quotients are rounded towards
zero, shifts to the right down. A remainder by zero is the dividend. -/
def opResult (funct7 : BitVec 7) (funct3 : BitVec 3) (x y : BitVec w) : Option (BitVec w) :=
  let shamt := y.toNat % w
  match funct7, funct3 with
  | 0#7, 0#3 => some (BitVec.ofInt w (x.toInt + y.toInt))
  | 32#7, 0#3 => some (BitVec.ofInt w (x.toInt - y.toInt))
  | 0#7, 1#3 => some (BitVec.ofNat w (x.toNat * 2 ^ shamt))
  | 0#7, 2#3 => some (truth (decide (x.toInt < y.toInt)))
  | 0#7, 3#3 => some (truth (decide (x.toNat < y.toNat)))
  | 0#7, 4#3 => some (x ^^^ y)
  | 0#7, 5#3 => some (BitVec.ofNat w (x.toNat / 2 ^ shamt))
  | 32#7, 5#3 => some (BitVec.ofInt w (x.toInt / 2 ^ shamt))
  | 0#7, 6#3 => some (x ||| y)
  | 0#7, 7#3 => some (x &&& y)
  | 1#7, 0#3 => some (BitVec.ofInt w (x.toInt * y.toInt))
  | 1#7, 1#3 => some (BitVec.ofInt w (x.toInt * y.toInt / 2 ^ w))
  | 1#7, 2#3 => some (BitVec.ofInt w (x.toInt * y.toNat / 2 ^ w))
  | 1#7, 3#3 => some (BitVec.ofNat w (x.toNat * y.toNat / 2 ^ w))
  | 1#7, 4#3 => some (BitVec.ofInt w (if y = 0#w then -1 else x.toInt.tdiv y.toInt))
  | 1#7, 5#3 => some (BitVec.ofInt w (if y = 0#w then -1 else x.toNat / y.toNat))
  | 1#7, 6#3 => some (BitVec.ofInt w (x.toInt.tmod y.toInt))
  | 1#7, 7#3 => some (BitVec.ofNat w (x.toNat % y.toNat))
  | _, _ => none

/-- The operations on a register and an immediate. Shifts keep their operation in the upper bits of
the immediate. -/
def immResult (funct3 : BitVec 3) (x : BitVec w) (imm : BitVec 12) : Option (BitVec w) :=
  let shamt := imm.toNat % 2 ^ 10
  match funct3 with
  | 1#3 => if imm.toNat < w then opResult 0#7 1#3 x (BitVec.ofNat w shamt) else none
  | 5#3 =>
      if imm.toNat < w then opResult 0#7 5#3 x (BitVec.ofNat w shamt)
      else if imm.toNat / 2 ^ 10 = 1 ∧ shamt < w then
        opResult 32#7 5#3 x (BitVec.ofNat w shamt)
      else none
  | _ => opResult 0#7 funct3 x (imm.signExtend w)

/-- The operations of RV64 that have a 32-bit form. -/
def hasWord (funct7 : BitVec 7) (funct3 : BitVec 3) : Bool :=
  match funct7 with
  | 0#7 => [0#3, 1#3, 5#3].contains funct3
  | 32#7 => [0#3, 5#3].contains funct3
  | 1#7 => [0#3, 4#3, 5#3, 6#3, 7#3].contains funct3
  | _ => false

/-- The condition of a branch. -/
def branchResult (funct3 : BitVec 3) (x y : BitVec w) : Option Bool :=
  match funct3 with
  | 0#3 => some (decide (x = y))
  | 1#3 => some (decide (x ≠ y))
  | 4#3 => some (decide (x.toInt < y.toInt))
  | 5#3 => some (decide (y.toInt ≤ x.toInt))
  | 6#3 => some (decide (x.toNat < y.toNat))
  | 7#3 => some (decide (y.toNat ≤ x.toNat))
  | _ => none

/-- What an atomic leaves in memory, from the old value and the operand. -/
def AmoOp.result {n : Nat} (op : AmoOp) (old x : BitVec n) : BitVec n :=
  match op with
  | .amoadd => BitVec.ofInt n (old.toInt + x.toInt)
  | .amoswap => x
  | .amoxor => old ^^^ x
  | .amoor => old ||| x
  | .amoand => old &&& x
  | .amomin => BitVec.ofInt n (min old.toInt x.toInt)
  | .amomax => BitVec.ofInt n (max old.toInt x.toInt)
  | .amominu => BitVec.ofNat n (min old.toNat x.toNat)
  | .amomaxu => BitVec.ofNat n (max old.toNat x.toNat)

/-- The bytes of an access; bit 2 of a load's `funct3` is its signedness. -/
def accessSize (funct3 : BitVec 3) : Nat := 1 <<< (funct3 &&& 3#3).toNat

/-- The register that a load leaves, from its bytes. -/
def extended (signed : Bool) (bs : List Byte) : BitVec w :=
  let x : BitVec (8 * bs.length) := ofBytes bs
  if signed then x.signExtend w else x.setWidth w

end Results

/-! ## Instructions -/

/-- The instructions described here. -/
inductive Instr where
  | base (b : Base)
  | auipc (rd : RegNo) (imm : BitVec 20)
  | fence (rd rs1 : RegNo) (imm : BitVec 12)
  | fenceI (rd rs1 : RegNo) (imm : BitVec 12)
  | amo (op : AmoOp) (funct3 : BitVec 3) (aqrl : BitVec 2) (rd rs1 rs2 : RegNo)
  deriving DecidableEq, Repr

/-- The instruction word. -/
def Instr.encode : Instr → BitVec 32
  | base b => b.encode
  | auipc rd imm => encodeU imm rd opAuipc
  | fence rd rs1 imm => encodeI imm rs1 0#3 rd opMiscMem
  | fenceI rd rs1 imm => encodeI imm rs1 1#3 rd opMiscMem
  | amo o funct3 aqrl rd rs1 rs2 => encodeR (amoFunct7 o.funct5 aqrl) rs2 rs1 funct3 rd opAmo

section Exec

variable {w a : Nat} (p : Platform)

/-- A base instruction of `size` bytes. -/
def Base.exec (size : Nat) (s : Hart w a) : Base → Option (Hart w a)
  | .load funct3 rd rs1 imm =>
      let addr := (s.addr rs1 imm).toNat
      if (MemOp.load funct3 rd rs1 imm).legal p.rv64 ∧ p.Holds addr (accessSize funct3) then
        let bs := Bytes.readAt s.mem addr (accessSize funct3)
        some (s.write rd (extended (funct3 &&& 4#3 == 0#3) bs) size)
      else none
  | .store funct3 rs1 rs2 imm =>
      let addr := (s.addr rs1 imm).toNat
      if (MemOp.store funct3 rs1 rs2 imm).legal p.rv64 ∧ p.Holds addr (accessSize funct3) then
        some ((s.store addr (toBytes (accessSize funct3) (s.regs.val rs2))).next size)
      else none
  | .opImm funct3 rd rs1 imm =>
      (immResult funct3 (s.regs.val rs1) imm).map fun x => s.write rd x size
  | .opImm32 funct3 rd rs1 imm =>
      if p.rv64 ∧ hasWord 0#7 funct3 then
        (immResult funct3 ((s.regs.val rs1).setWidth 32) imm).map fun x =>
          s.write rd (x.signExtend w) size
      else none
  | .op funct7 funct3 rd rs1 rs2 =>
      (opResult funct7 funct3 (s.regs.val rs1) (s.regs.val rs2)).map fun x => s.write rd x size
  | .op32 funct7 funct3 rd rs1 rs2 =>
      if p.rv64 ∧ hasWord funct7 funct3 then
        (opResult funct7 funct3 ((s.regs.val rs1).setWidth 32)
          ((s.regs.val rs2).setWidth 32)).map fun x => s.write rd (x.signExtend w) size
      else none
  | .lui rd imm => some (s.write rd (BitVec.ofInt _ (imm.toInt * 2 ^ 12)) size)
  | .jal rd imm => some (s.jump rd (s.pc + BitVec.ofInt _ (2 * imm.toInt)) size)
  | .jalr rd rs1 imm =>
      let target := s.regs.val rs1 + BitVec.ofInt _ imm.toInt
      some (s.jump rd ((target &&& ~~~1#_).setWidth _) size)
  | .branch funct3 rs1 rs2 imm =>
      (branchResult funct3 (s.regs.val rs1) (s.regs.val rs2)).map fun taken =>
        if taken then { s with pc := s.pc + BitVec.ofInt _ (2 * imm.toInt) } else s.next size
  | .ebreak => none

/-- An instruction of `size` bytes. The ordering bits of an atomic order nothing on one hart. -/
def Instr.exec (size : Nat) (s : Hart w a) : Instr → Option (Hart w a)
  | .base b => b.exec p size s
  | .auipc rd imm => some (s.write rd (s.pc.setWidth w + BitVec.ofInt _ (imm.toInt * 2 ^ 12)) size)
  | .fence _ _ _ => some (s.next size)
  | .fenceI _ _ _ => some { s.next size with stale := fun _ => false }
  | .amo op funct3 aqrl rd rs1 rs2 =>
      let n := accessSize funct3
      let addr := ((s.regs.val rs1).setWidth a).toNat
      if (MemOp.amo op funct3 aqrl rd rs1 rs2).legal p.rv64 ∧ n ∣ addr ∧ p.Holds addr n then
        let old : BitVec (8 * n) := ofBytes (Bytes.readAt s.mem addr n)
        let new := op.result old ((s.regs.val rs2).setWidth (8 * n))
        some ((s.store addr (toBytes n new)).write rd (old.signExtend w) size)
      else none

/-- The `n` bytes at the PC, in memory and not stale. -/
def Hart.Fresh (s : Hart w a) (n : Nat) : Prop :=
  p.Holds s.pc.toNat n ∧ ∀ k, k < n → s.stale (s.pc.toNat + k) = false

/-- The instruction at the PC, and its size. -/
def Hart.AtPC (s : Hart w a) (i : Instr) (size : Nat) : Prop :=
  s.Fresh p size ∧
    (size = 4 ∧ ofBytes (Bytes.readAt s.mem s.pc.toNat 4) = i.encode
      ∨ size = 2 ∧ ∃ b, i = .base b
        ∧ expand p.rv64 (ofBytes (Bytes.readAt s.mem s.pc.toNat 2)) = some b)

/-- One instruction. -/
def Hart.Step (s : Hart w a) (i : Instr) (s' : Hart w a) : Prop :=
  ∃ size, s.AtPC p i size ∧ i.exec p size s = some s'

/-- `k` instructions, each of which meets a condition. -/
inductive Steps (Q : Hart w a → Instr → Prop) : Nat → Hart w a → Hart w a → Prop where
  | zero (s : Hart w a) : Steps Q 0 s s
  | succ {k : Nat} {s s' s'' : Hart w a} {i : Instr} (step : s.Step p i s') (cond : Q s i)
      (rest : Steps Q k s' s'') : Steps Q (k + 1) s s''

/-- A run stops anywhere on its way. -/
theorem Steps.split {p : Platform} {Q : Hart w a → Instr → Prop} {k n : Nat} {s s' : Hart w a}
    (h : Steps p Q k s s') (hn : n ≤ k) : ∃ s1, Steps p Q n s s1 ∧ Steps p Q (k - n) s1 s' := by
  induction h generalizing n with
  | zero s =>
      obtain rfl : n = 0 := by omega
      exact ⟨s, .zero s, .zero s⟩
  | @succ k s s2 s' i step cond rest ih =>
      cases n with
      | zero => exact ⟨s, .zero s, .succ step cond rest⟩
      | succ n =>
          obtain ⟨s1, hfirst, hrest⟩ := ih (show n ≤ k by omega)
          refine ⟨s1, .succ step cond hfirst, ?_⟩
          rw [Nat.add_sub_add_right]
          exact hrest

end Exec

end Riscv
