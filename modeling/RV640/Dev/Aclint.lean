import RV640.Cpu.State

set_option autoImplicit false

/-! # The ACLINT (`dev/aclint.c`)

Machine timer and software interrupt of the one hart (`ACLINT_HARTS` is 1, so the arrays of the
source have one element). The device reaches the hart through its `harts` pointer: every
operation takes the hart and returns it.
-/

namespace RV640

open Bits

variable {c : Cfg}

/-- `Aclint`. `mmioWrites` counts the calls of `_cbWrite`; no function reads it, it is there to
say that a run leaves the device alone. -/
structure Aclint where
  msip : BitVec 32
  mtimecmp : BitVec 64
  mtime : BitVec 64
  pindingIrq : Bool
  mmioWrites : Nat
  deriving DecidableEq

/-- `aclint_init`. -/
def aclintInit : Aclint := ⟨0#32, 0#64, 0#64, false, 0⟩

/-- `aclint_size`. -/
def aclintSize : Nat := 0x10000

namespace Aclint

/-- `_updateMtimer`. -/
def updateMtimer (self : Aclint) (hart : Cpu c) : Aclint × Cpu c :=
  if self.mtimecmp ≤ self.mtime then
    if self.pindingIrq then (self, hart)
    else ({ self with pindingIrq := true }, rvSetInterrupt hart .machineTmrInt)
  else
    if self.pindingIrq then
      ({ self with pindingIrq := false }, rvClearInterrupt hart .machineTmrInt)
    else (self, hart)

/-- `_updateMswi`. -/
def updateMswi (self : Aclint) (hart : Cpu c) : Cpu c :=
  if self.msip != 0#32 then rvSetInterrupt hart .machineSwInt
  else rvClearInterrupt hart .machineSwInt

/-- One byte of `_cbRead`. -/
def readByte (self : Aclint) (addr : Nat) : Byte :=
  if addr < 4 then getByte self.msip addr
  else if 0x4000 ≤ addr ∧ addr < 0x4000 + 8 then getByte self.mtimecmp (addr - 0x4000)
  else if 0xBFF8 ≤ addr ∧ addr < 0xBFF8 + 8 then getByte self.mtime (addr - 0xBFF8)
  else 0#8

/-- `_cbRead`: the bytes of a read of `n` bytes at `addr`. -/
def cbRead (self : Aclint) (addr n : Nat) : List Byte :=
  (List.range n).map fun i => self.readByte (addr + i)

/-- One byte of `_cbWrite`. -/
def writeByte (self : Aclint) (addr : Nat) (b : Byte) : Aclint :=
  if addr < 4 then { self with msip := setByte self.msip addr b }
  else if 0x4000 ≤ addr ∧ addr < 0x4000 + 8 then
    { self with mtimecmp := setByte self.mtimecmp (addr - 0x4000) b }
  else if 0xBFF8 ≤ addr ∧ addr < 0xBFF8 + 8 then
    { self with mtime := setByte self.mtime (addr - 0xBFF8) b }
  else self

/-- The loop of `_cbWrite`. -/
def writeBytes (self : Aclint) (addr : Nat) : List Byte → Aclint
  | [] => self
  | b :: bs => (self.writeByte addr b).writeBytes (addr + 1) bs

/-- `_cbWrite`. -/
def cbWrite (self : Aclint) (hart : Cpu c) (addr : Nat) (buf : List Byte) : Aclint × Cpu c :=
  let self := self.writeBytes addr buf
  let (self, hart) := self.updateMtimer hart
  ({ self with mmioWrites := self.mmioWrites + 1 }, self.updateMswi hart)

end Aclint

/-- `aclint_tick`. `cycles` is an `unsigned int`. -/
def aclintTick (self : Aclint) (hart : Cpu c) (cycles : BitVec 32) : Aclint × Cpu c :=
  Aclint.updateMtimer { self with mtime := self.mtime + cycles.setWidth 64 } hart

/-- `aclint_mtimeRemains`. -/
def aclintMtimeRemains (self : Aclint) : BitVec 64 := self.mtimecmp - self.mtime

/-- `aclint_setMtimecmp`. -/
def aclintSetMtimecmp (self : Aclint) (hart : Cpu c) (val : BitVec 64) : Aclint × Cpu c :=
  Aclint.updateMtimer { self with mtimecmp := val } hart

end RV640
