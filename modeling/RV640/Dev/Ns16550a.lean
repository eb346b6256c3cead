import RV640.Lib.Bits

set_option autoImplicit false

/-! # The UART (`dev/ns16550a.c`)

The registers and the input ring of the UART, and the operations that stay inside the device.
The operations that raise an interrupt or print are in `Machine.lean`.
-/

namespace RV640

open Bits

/-- `NS16550A_BUF_SIZE`. -/
def ns16550aBufSize : Nat := 256

/-- `Ns16550a.ringBuffer`. -/
structure RingBuffer where
  buf : Vector Byte ns16550aBufSize
  rdIdx : Nat
  wrIdx : Nat
  len : Nat
  deriving DecidableEq

/-- `Ns16550a`. -/
structure Ns16550a where
  ringBuffer : RingBuffer
  ier : Byte
  lcr : Byte
  deriving DecidableEq

/-- `ns16550a_init`. -/
def ns16550aInit : Ns16550a := ⟨⟨Vector.replicate _ 0#8, 0, 0, 0⟩, 0#8, 0#8⟩

/-- `ns16550_size`. -/
def ns16550aSize : Nat := 8

namespace Ns16550a

/-- `NS16550A_LCR_DLAB`, `NS16550A_IER_DR`, `NS16550A_IER_THRE`. -/
def lcrDlab : Byte := bit 7
def ierDr : Byte := bit 0
def ierThre : Byte := bit 1

/-- The interrupt condition of `_irq`. -/
def irqCondition (self : Ns16550a) : Bool :=
  (self.ier &&& ierDr != 0#8 && self.ringBuffer.len != 0) || self.ier &&& ierThre != 0#8

/-- `_incBufIdx`. -/
def incBufIdx (idx : Nat) : Nat := (idx + 1) % ns16550aBufSize

/-- `_popChar`. -/
def popChar (self : Ns16550a) : Ns16550a × Byte :=
  let ring := self.ringBuffer
  if ring.len = 0 then (self, 0#8)
  else
    ({ self with ringBuffer := { ring with rdIdx := incBufIdx ring.rdIdx, len := ring.len - 1 } },
      ring.buf[ring.rdIdx]?.getD 0#8)

/-- The divisor latch is banked over registers 0 and 1. -/
def dlab (self : Ns16550a) : Bool := self.lcr &&& lcrDlab != 0#8

/-- The Interrupt Status Register. -/
def interruptStatus (self : Ns16550a) : Byte :=
  if self.ringBuffer.len != 0 && self.ier &&& ierDr != 0#8 then 4#8 <<< 1
  else if self.ier &&& ierThre != 0#8 then 2#8 <<< 1
  else (1#8 <<< 1) ||| 1#8

/-- The Line Status Register: `TXE | THRE | DR`. -/
def lineStatus (self : Ns16550a) : Byte :=
  bit 6 ||| bit 5 ||| (if self.ringBuffer.len ≠ 0 then bit 0 else 0#8)

/-- One byte of `_cbRead`. A read of the divisor latch leaves the caller's byte as it was. -/
def readByte (self : Ns16550a) (addr : Nat) (old : Byte) : Ns16550a × Byte :=
  match addr with
  | 0 => if self.dlab then (self, old) else self.popChar
  | 1 => if self.dlab then (self, old) else (self, self.ier)
  | 2 => (self, self.interruptStatus)
  | 3 => (self, self.lcr)
  | 5 => (self, self.lineStatus)
  | _ => (self, 0#8)

/-- `_cbRead` into the caller's buffer. -/
def cbRead (self : Ns16550a) (addr : Nat) : List Byte → Ns16550a × List Byte
  | [] => (self, [])
  | b :: bs =>
      let (self, b) := self.readByte addr b
      let (self, bs) := self.cbRead (addr + 1) bs
      (self, b :: bs)

/-- The ring after `ns16550_push` stored a character. -/
def store (self : Ns16550a) (ch : Byte) : Ns16550a :=
  let ring := self.ringBuffer
  { self with
    ringBuffer :=
      { ring with
        buf := ring.buf.setIfInBounds ring.wrIdx ch
        wrIdx := incBufIdx ring.wrIdx
        len := ring.len + 1 } }

end Ns16550a

end RV640
