import RV640.Cpu.State

set_option autoImplicit false

/-! # The PLIC (`dev/plic.c`)

The interrupt controller, written over the number `n` of interrupt sources (`PLIC_INTERRUPTS`)
as the source is. There is one hart with two contexts, M and S.

The source computes array indices from guest data. Every access here goes through `getWord` or
`setWord`, and `oob` records whether one of them was ever outside its array: from then on the C
program has no defined behaviour.
-/

namespace RV640

open Bits

variable {c : Cfg} {n : Nat}

/-- `PLIC_INTERRUPT_WORDS`. -/
def plicInterruptWords (n : Nat) : Nat := (n + 1) / 32 + (if (n + 1) % 32 ≠ 0 then 1 else 0)

/-- `PLIC_CONTEXTS`: `PLIC_HARTS` times the M and the S context. -/
@[reducible] def plicContexts : Nat := 2

/-- `Plic.contexts[i]`. -/
structure PlicContext (n : Nat) where
  enable : Vector (BitVec 32) (plicInterruptWords n)
  threshold : BitVec 32
  claim : BitVec 32
  pendingClaims : Vector (BitVec 32) (plicInterruptWords n)
  deriving DecidableEq

/-- `Plic`. -/
structure Plic (n : Nat) where
  priority : Vector (BitVec 32) n
  pending : Vector (BitVec 32) (plicInterruptWords n)
  contexts : Vector (PlicContext n) plicContexts
  oob : Bool
  deriving DecidableEq

/-- `self->contexts[i]`. -/
abbrev Plic.context {n : Nat} (self : Plic n) (i : Fin plicContexts) : PlicContext n :=
  self.contexts[i]

/-- `plic_size`. -/
def plicSize : Nat := 0x400000

/-- `plic_init`. -/
def plicInit (n : Nat) : Plic n :=
  { priority := Vector.replicate n 0#32
    pending := Vector.replicate _ 0#32
    contexts := Vector.replicate _
      ⟨Vector.replicate _ 0#32, 0#32, 0#32, Vector.replicate _ 0#32⟩
    oob := false }

/-- `arr[i]`. -/
def getWord {k : Nat} (arr : Vector (BitVec 32) k) (i : Nat) : BitVec 32 := arr[i]?.getD 0#32

/-- `arr[i] = x`. A write outside the array is dropped, where the C program overwrites what lies
behind it: once `oob` is set, nothing the model says is claimed of the program. -/
def setWord {k : Nat} (arr : Vector (BitVec 32) k) (i : Nat) (x : BitVec 32) :
    Vector (BitVec 32) k := arr.setIfInBounds i x

/-- `((uint8_t *)arr)[i]`. -/
def getArrByte {k : Nat} (arr : Vector (BitVec 32) k) (i : Nat) : Byte :=
  getByte (getWord arr (i / 4)) (i % 4)

/-- `((uint8_t *)arr)[i] = b`. -/
def setArrByte {k : Nat} (arr : Vector (BitVec 32) k) (i : Nat) (b : Byte) :
    Vector (BitVec 32) k := setWord arr (i / 4) (setByte (getWord arr (i / 4)) (i % 4) b)

namespace Plic

/-- Record an index `i` computed into an array of `len` elements. -/
def touch (self : Plic n) (i len : Nat) : Plic n :=
  { self with oob := self.oob || !decide (i < len) }

/-- The word that holds a source's bit: `i / sizeof(uint32_t)`. -/
def irqWord (i : Nat) : Nat := i / 4

/-- The source's bit in that word: `1 << (i % sizeof(uint32_t))`. -/
def irqMask (i : Nat) : BitVec 32 := bit (i % 4)

/-- The running maximum of `_processInterrupts`. -/
structure Best where
  irq : Nat
  irqWord : Nat
  irqMask : BitVec 32
  priority : BitVec 32
  deriving DecidableEq

/-- One round of the first loop of `_processInterrupts`. -/
def scanIrq (self : Plic n) (best : Best) (i : Nat) : Plic n × Best :=
  let word := irqWord i
  let mask := irqMask i
  let self := self.touch word (plicInterruptWords n)
  if getWord self.pending word &&& mask != 0#32 then
    let self := self.touch (i - 1) n
    if best.priority < getWord self.priority (i - 1) then
      (self, ⟨i, word, mask, getWord self.priority (i - 1)⟩)
    else (self, best)
  else (self, best)

/-- The first loop of `_processInterrupts`: `for(int i = 1; i <= PLIC_INTERRUPTS; ++i)`. -/
def scanIrqs (self : Plic n) (best : Best) : List Nat → Plic n × Best
  | [] => (self, best)
  | i :: is =>
      let (self, best) := self.scanIrq best i
      self.scanIrqs best is

/-- The interrupt of a context. -/
def contextCause (i : Nat) : IrqCause :=
  if i % 2 ≠ 0 then .supervisorExtInt else .machineExtInt

/-- The test of the second loop of `_processInterrupts`. -/
def accepts (ctx : PlicContext n) (best : Best) : Bool :=
  decide (ctx.threshold < best.priority)
    && getWord ctx.pendingClaims best.irqWord &&& best.irqMask == 0#32
    && getWord ctx.enable best.irqWord &&& best.irqMask != 0#32

/-- One round of the second loop of `_processInterrupts`. The test is evaluated left to right:
the arrays are indexed only when the threshold is passed. -/
def notifyContext (self : Plic n) (hart : Cpu c) (best : Best) (i : Fin plicContexts) :
    Plic n × Cpu c :=
  let ctx := self.contexts[i]
  let self :=
    if ctx.threshold < best.priority then self.touch best.irqWord (plicInterruptWords n) else self
  if accepts ctx best then
    ({ self with contexts := self.contexts.set i { ctx with claim := BitVec.ofNat 32 best.irq } },
      rvSetInterrupt hart (contextCause i))
  else
    ({ self with contexts := self.contexts.set i { ctx with claim := 0#32 } },
      rvClearInterrupt hart (contextCause i))

/-- `_processInterrupts`. -/
def processInterrupts (self : Plic n) (hart : Cpu c) : Plic n × Cpu c :=
  let (self, best) := self.scanIrqs ⟨0, 0, 0#32, 0#32⟩ (List.range' 1 n)
  let (self, hart) := self.notifyContext hart best 0
  self.notifyContext hart best 1

/-- `_claimInterrupts`; `none` is the negative context. -/
def claimInterrupts (self : Plic n) (hart : Cpu c) (context : Option (Fin plicContexts)) :
    Plic n × Cpu c :=
  match context with
  | none => (self, hart)
  | some i =>
      let ctx := self.contexts[i]
      let word := irqWord ctx.claim.toNat
      let mask := irqMask ctx.claim.toNat
      let self := self.touch word (plicInterruptWords n)
      let ctx :=
        { ctx with
          pendingClaims := setWord ctx.pendingClaims word
            (getWord ctx.pendingClaims word ||| mask) }
      let self :=
        { self with
          contexts := self.contexts.set i ctx
          pending := setWord self.pending word (getWord self.pending word &&& ~~~mask) }
      self.processInterrupts hart

/-- `_completeInterrupts`; `none` is the negative context. -/
def completeInterrupts (self : Plic n) (hart : Cpu c) (context : Option (Fin plicContexts))
    (irq : BitVec 32) : Plic n × Cpu c :=
  match context with
  | none => self.processInterrupts hart
  | some i =>
      let ctx := self.contexts[i]
      let word := irqWord irq.toNat
      let mask := irqMask irq.toNat
      let self := self.touch word (plicInterruptWords n)
      let self :=
        if getWord ctx.enable word &&& mask != 0#32 then
          { self with
            contexts := self.contexts.set i
              { ctx with
                pendingClaims := setWord ctx.pendingClaims word
                  (getWord ctx.pendingClaims word &&& ~~~mask) } }
        else self
      self.processInterrupts hart

/-! ## Register accesses -/

/-- The byte a guest address selects: the decode that `_cbRead` and `_cbWrite` share. -/
inductive Target where
  | priority (i : Nat)
  | pending (i : Nat)
  | enable (context : Fin plicContexts) (i : Nat)
  | threshold (context : Fin plicContexts) (i : Nat)
  | claim (context : Fin plicContexts) (i : Nat)
  | nothing
  deriving DecidableEq

/-- The test `context < PLIC_CONTEXTS`. -/
def contextOf (k : Nat) : Option (Fin plicContexts) :=
  if h : k < plicContexts then some ⟨k, h⟩ else none

/-- Offset `a` in the enable registers: `0x80` bytes a context. -/
def decodeEnable (n : Nat) (a : Nat) : Target :=
  match contextOf (a / 0x80) with
  | some k => if a % 0x80 < 4 * plicInterruptWords n then .enable k (a % 0x80) else .nothing
  | none => .nothing

/-- Offset `a` in the threshold and claim registers: `0x1000` bytes a context. -/
def decodeContext (a : Nat) : Target :=
  match contextOf (a / 0x1000) with
  | some k =>
      if a % 0x1000 < 4 then .threshold k (a % 0x1000)
      else if 4 ≤ a % 0x1000 ∧ a % 0x1000 < 4 + 4 then .claim k (a % 0x1000 - 4)
      else .nothing
  | none => .nothing

/-- The address decode of `_cbRead` and, for `write`, of `_cbWrite`, which lacks the branch of
the pending words. -/
def decodeAddr (n : Nat) (write : Bool) (addr : Nat) : Target :=
  if 4 ≤ addr ∧ addr < 4 * n + 4 then .priority (addr - 4)
  else if !write ∧ 0x1000 ≤ addr ∧ addr < 0x1000 + 4 * plicInterruptWords n then
    .pending (addr - 0x1000)
  else if 0x2000 ≤ addr ∧ addr < 0x200000 then decodeEnable n (addr - 0x2000)
  else if 0x200000 ≤ addr ∧ addr < 0x400000 then decodeContext (addr - 0x200000)
  else .nothing

/-- One byte of the loop of `_cbRead`: the byte read and `claimContext`. -/
def readByte (self : Plic n) (claimContext : Option (Fin plicContexts)) (addr : Nat) :
    Plic n × Option (Fin plicContexts) × Byte :=
  match decodeAddr n false addr with
  | .priority i => (self.touch i (4 * n), claimContext, getArrByte self.priority i)
  | .pending i =>
      (self.touch i (4 * plicInterruptWords n), claimContext, getArrByte self.pending i)
  | .enable k i =>
      (self.touch i (4 * plicInterruptWords n), claimContext,
        getArrByte self.contexts[k].enable i)
  | .threshold k i => (self.touch i 4, claimContext, getByte self.contexts[k].threshold i)
  | .claim k i => (self.touch i 4, some k, getByte self.contexts[k].claim i)
  | .nothing => (self, claimContext, 0#8)

/-- The loop of `_cbRead` over `size` bytes from `addr`. -/
def readBytes (self : Plic n) (claimContext : Option (Fin plicContexts)) (addr : Nat) :
    Nat → Plic n × Option (Fin plicContexts) × List Byte
  | 0 => (self, claimContext, [])
  | size + 1 =>
      let (self, claimContext, b) := self.readByte claimContext addr
      let (self, claimContext, bs) := self.readBytes claimContext (addr + 1) size
      (self, claimContext, b :: bs)

/-- `_cbRead`. -/
def cbRead (self : Plic n) (hart : Cpu c) (addr size : Nat) : Plic n × Cpu c × List Byte :=
  let (self, claimContext, bs) := self.readBytes none addr size
  let (self, hart) := self.claimInterrupts hart claimContext
  (self, hart, bs)

/-- The completion a write collects: `completeContext` and `completeIrq`. -/
structure Completion where
  context : Option (Fin plicContexts)
  irq : BitVec 32
  deriving DecidableEq

/-- One byte of the loop of `_cbWrite`. -/
def writeByte (self : Plic n) (done : Completion) (addr : Nat) (b : Byte) :
    Plic n × Completion :=
  match decodeAddr n true addr with
  | .priority i =>
      ({ self.touch i (4 * n) with priority := setArrByte self.priority i b }, done)
  | .pending _ => (self, done)
  | .enable k i =>
      let ctx := self.contexts[k]
      ({ self.touch i (4 * plicInterruptWords n) with
        contexts := self.contexts.set k { ctx with enable := setArrByte ctx.enable i b } }, done)
  | .threshold k i =>
      let ctx := self.contexts[k]
      ({ self.touch i 4 with
        contexts := self.contexts.set k { ctx with threshold := setByte ctx.threshold i b } },
        done)
  | .claim k i => (self.touch i 4, ⟨some k, setByte done.irq i b⟩)
  | .nothing => (self, done)

/-- The loop of `_cbWrite`. -/
def writeBytes (self : Plic n) (done : Completion) (addr : Nat) :
    List Byte → Plic n × Completion
  | [] => (self, done)
  | b :: bs =>
      let (self, done) := self.writeByte done addr b
      self.writeBytes done (addr + 1) bs

/-- `_cbWrite`. -/
def cbWrite (self : Plic n) (hart : Cpu c) (addr : Nat) (buf : List Byte) : Plic n × Cpu c :=
  let (self, done) := self.writeBytes ⟨none, 0#32⟩ addr buf
  self.completeInterrupts hart done.context done.irq

end Plic

/-- `plic_interrupt`. -/
def plicInterrupt (self : Plic n) (hart : Cpu c) (irq : Nat) : Plic n × Cpu c :=
  if irq = 0 ∨ n < irq then (self, hart)
  else
    let word := Plic.irqWord irq
    let self := self.touch word (plicInterruptWords n)
    let self :=
      { self with
        pending := setWord self.pending word
          (getWord self.pending word ||| Plic.irqMask irq) }
    self.processInterrupts hart

end RV640
