import RV640.Bus
import RV640.Memory
import RV640.Dev.Aclint
import RV640.Dev.Plic
import RV640.Dev.Ns16550a

set_option autoImplicit false

/-! # The machine: hart, bus and devices

The emulator's objects point at one another (the hart at the bus and the ACLINT, the devices at
the hart, the UART at the PLIC). Here they are the fields of one state, and the functions of the
source that follow a pointer are functions of that state.
-/

namespace RV640

open Bits

variable {c : Cfg}

/-- `PLIC_INTERRUPTS`. -/
@[reducible] def plicInterrupts : Nat := 1

/-- `NS16550A_IRQ`. -/
def ns16550aIrq : Nat := 1

/-- The callbacks of the four devices `main` registers. -/
inductive DevKind where
  | ram
  | aclint
  | plic
  | uart
  deriving DecidableEq, Repr

/-- `_vm`, with the characters given to `ui_putch`. -/
structure Machine (c : Cfg) where
  cpu : Cpu c
  bus : Bus c DevKind
  ram : Memory
  aclint : Aclint
  plic : Plic plicInterrupts
  uart : Ns16550a
  console : List Byte

/-- `RAM_BASE`, `ACLINT_BASE`, `PLIC_BASE` and `UART_BASE` of `main.c`. -/
def ramBase : Addr c := 0x80000000#_
def aclintBase : Addr c := 0x2000000#_
def plicBase : Addr c := 0xC000000#_
def uartBase : Addr c := 0x10000000#_

/-- The bus as `main` fills it, for a RAM of `ramSize` bytes. -/
def mainBus (c : Cfg) (ramSize : Nat) : Bus c DevKind :=
  { devices :=
      [⟨⟨BitVec.ofNat _ ramSize, .ram⟩, ramBase⟩,
        ⟨⟨BitVec.ofNat _ aclintSize, .aclint⟩, aclintBase⟩,
        ⟨⟨BitVec.ofNat _ plicSize, .plic⟩, plicBase⟩,
        ⟨⟨BitVec.ofNat _ ns16550aSize, .uart⟩, uartBase⟩]
    bound := Nat.le_refl 4
    reservation := (@busInit c DevKind).reservation }

/-- `ui_putch`. -/
def uiPutch (m : Machine c) (ch : Byte) : Machine c := { m with console := m.console ++ [ch] }

/-! ## UART operations that leave the device -/

namespace Ns16550a

/-- `_irq`. -/
def irq (m : Machine c) : Machine c :=
  if m.uart.irqCondition then
    let (plic, hart) := plicInterrupt m.plic m.cpu ns16550aIrq
    { m with plic := plic, cpu := hart }
  else m

/-- One byte of `_cbWrite`. -/
def writeByte (m : Machine c) (addr : Nat) (b : Byte) : Machine c :=
  match addr with
  | 0 => if m.uart.dlab then m else uiPutch m b
  | 1 => if m.uart.dlab then m else irq { m with uart := { m.uart with ier := b } }
  | 3 => { m with uart := { m.uart with lcr := b } }
  | _ => m

/-- `_cbWrite`. -/
def cbWrite (m : Machine c) (addr : Nat) : List Byte → Machine c
  | [] => m
  | b :: bs => cbWrite (writeByte m addr b) (addr + 1) bs

end Ns16550a

/-- `ns16550_push`. -/
def ns16550Push (m : Machine c) (ch : Byte) : Machine c × Bool :=
  if ns16550aBufSize ≤ m.uart.ringBuffer.len then (m, false)
  else (Ns16550a.irq { m with uart := m.uart.store ch }, true)

/-! ## Bus accesses -/

/-- `dev->cbRead(opaque, addr, buf, size)`, for a buffer that holds `buf` before the call. -/
def devRead (m : Machine c) (dev : DevKind) (addr : Nat) (buf : List Byte) :
    Machine c × List Byte :=
  match dev with
  | .ram => (m, memRead m.ram addr buf.length)
  | .aclint => (m, m.aclint.cbRead addr buf.length)
  | .plic =>
      let (plic, hart, bs) := m.plic.cbRead m.cpu addr buf.length
      ({ m with plic := plic, cpu := hart }, bs)
  | .uart =>
      let (uart, bs) := m.uart.cbRead addr buf
      ({ m with uart := uart }, bs)

/-- `dev->cbWrite(opaque, addr, buf, size)`. -/
def devWrite (m : Machine c) (dev : DevKind) (addr : Nat) (buf : List Byte) : Machine c :=
  match dev with
  | .ram => { m with ram := memWrite m.ram addr buf }
  | .aclint =>
      let (aclint, hart) := m.aclint.cbWrite m.cpu addr buf
      { m with aclint := aclint, cpu := hart }
  | .plic =>
      let (plic, hart) := m.plic.cbWrite m.cpu addr buf
      { m with plic := plic, cpu := hart }
  | .uart => Ns16550a.cbWrite m addr buf

/-- `bus_read` into a buffer that holds `buf`; `none` is the result `false`. -/
def busRead (m : Machine c) (addr : Addr c) (buf : List Byte) : Option (Machine c × List Byte) :=
  match findDevice m.bus addr buf.length with
  | none => none
  | some (d, devAddr) => some (devRead m d.dev.callbacks devAddr.toNat buf)

/-- `bus_write`; `none` is the result `false`. -/
def busWrite (m : Machine c) (addr : Addr c) (buf : List Byte) : Option (Machine c) :=
  match findDevice m.bus addr buf.length with
  | none => none
  | some (d, devAddr) =>
      let m := { m with bus := busWriteInvalidate m.bus addr buf.length }
      some (devWrite m d.dev.callbacks devAddr.toNat buf)

/-- `_readMem` into a variable that holds 0. -/
def readMem (m : Machine c) (addr : Addr c) (size : Nat) : Machine c × Word c :=
  if m.cpu.trap then (m, 0#_)
  else
    match busRead m addr (List.replicate size 0#8) with
    | some (m, bs) => (m, ofBytes bs)
    | none => ({ m with cpu := trap m.cpu .ldAf }, 0#_)

/-- `_writeMem`. -/
def writeMem (m : Machine c) (addr : Addr c) (buf : List Byte) : Machine c :=
  if m.cpu.trap then m
  else
    match busWrite m addr buf with
    | some m => m
    | none => { m with cpu := trap m.cpu .stAf }

end RV640
