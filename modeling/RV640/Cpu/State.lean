import RV640.Cpu.Types

set_option autoImplicit false

/-! # The hart (`cpu/rv.h`, `cpu/rv_internal.h`)

The state of the CPU without what it reaches through pointers (the bus and the ACLINT), and
the helpers every instruction is made of. The helpers that touch the bus are in
`Machine.lean`.
-/

namespace RV640

open Bits

variable {c : Cfg}

/-- `RV_Cpu.csr`. `mstatush` exists on RV32 only; no function touches it on RV64. -/
structure Csr (c : Cfg) where
  mhartid : Word c
  mip : Word c
  mie : Word c
  mscratch : Word c
  mstatus : Word c
  mstatush : Word c
  mtvec : Word c
  mcause : Word c
  mepc : Word c
  mtval : Word c
  menvcfg : Word c
  medeleg : Word c
  mideleg : Word c
  mcounteren : Word c
  sscratch : Word c
  stvec : Word c
  scause : Word c
  sepc : Word c
  stval : Word c
  senvcfg : Word c
  scounteren : Word c

/-- `ICACHE_LINE_SIZE`. -/
def icacheLineSize : Nat := 128

/-- `DCACHE_LINE_SIZE`. -/
def dcacheLineSize : Nat := 64

/-- `RV_Cpu.icache`: one line; `base = cpuAddrMax` says that it is empty. -/
structure Icache (c : Cfg) where
  base : Addr c
  line : Vector Byte icacheLineSize

/-- `RV_Cpu`. -/
structure Cpu (c : Cfg) where
  regs : Reg → Word c
  pc : Addr c
  csr : Csr c
  trap : Bool
  trapCause : Word c
  trapDelegate : Bool
  irq : Bool
  wfi : Bool
  icache : Icache c
  mode : PrivMode
  virtualSBI : Bool

/-- `_flushIcache`. -/
def flushIcache (self : Cpu c) : Cpu c :=
  { self with icache := { self.icache with base := cpuAddrMax } }

/-- `_pendingIRQ`. -/
def pendingIRQ (self : Cpu c) : Cpu c :=
  { self with irq := true, wfi := false }

/-- `rv_setInterrupt`. -/
def rvSetInterrupt (self : Cpu c) (n : IrqCause) : Cpu c :=
  pendingIRQ { self with csr := { self.csr with mip := self.csr.mip ||| n.mask } }

/-- `rv_clearInterrupt`. -/
def rvClearInterrupt (self : Cpu c) (n : IrqCause) : Cpu c :=
  { self with csr := { self.csr with mip := self.csr.mip &&& ~~~n.mask } }

/-- `_interrupt`. -/
def interrupt (self : Cpu c) (cause : IrqCause) (delegate : Bool) : Cpu c :=
  rvClearInterrupt
    { self with
      trap := true
      trapCause := BitVec.ofNat _ cause.toNat ||| cpuSignBit
      trapDelegate := delegate }
    cause

/-- The delegation that `_trap` latches: never for an M-mode call, never out of M-mode,
otherwise as `medeleg` says. -/
def trapDelegation (self : Cpu c) (cause : TrapCause) : Bool :=
  cause ≠ .callM && cause ≠ .doubleTrap && decide (self.mode ≤ .supervisor)
    && (self.csr.medeleg &&& bit cause.toNat != 0#_)

/-- `_trap`. -/
def trap (self : Cpu c) (cause : TrapCause) : Cpu c :=
  { self with
    trap := true
    trapCause := BitVec.ofNat _ cause.toNat
    trapDelegate := trapDelegation self cause }

/-- `_readReg`. -/
def readReg (self : Cpu c) (rd : Reg) : Word c := self.regs rd

/-- `_writeReg`. -/
def writeReg (self : Cpu c) (rd : Reg) (d : Word c) : Cpu c :=
  if rd = 0#5 || self.trap then self
  else { self with regs := Function.update self.regs rd d }

/-- `_readPC`. -/
def readPC (self : Cpu c) : Addr c := self.pc

/-- `_writePC`. -/
def writePC (self : Cpu c) (d : Addr c) : Cpu c :=
  if self.trap then self else { self with pc := d }

/-- The part of `_xret` that restores the interrupt enable of `mode`. -/
def xretRestoreIe (mstatus : Word c) (mode : PrivMode) : Word c :=
  if mode = .supervisor then
    (mstatus &&& ~~~mstatusSieMask)
      ||| (if mstatus &&& mstatusSpieMask != 0#_ then mstatusSieMask else 0#_)
      ||| mstatusSpieMask
  else
    (mstatus &&& ~~~mstatusMieMask)
      ||| (if mstatus &&& mstatusMpieMask != 0#_ then mstatusMieMask else 0#_)
      ||| mstatusMpieMask

/-- `_xret`: the return instruction of privilege level `mode`. `instSize` is subtracted from
the restored PC because the run loop adds it again. -/
def xret (self : Cpu c) (mode : PrivMode) (instSize : Int) : Cpu c :=
  if self.mode < mode then trap self .instIll
  else if self.mode = .supervisor && mode = .supervisor
      && (self.csr.mstatus &&& mstatusTsrMask != 0#_) then
    trap self .instIll
  else
    let mstatus := xretRestoreIe self.csr.mstatus mode
    let newMode := if mode = .supervisor then mstatusGetSpp mstatus else mstatusGetMpp mstatus
    let mstatus :=
      if mode = .supervisor then (mstatus &&& ~~~mstatusSppMask) ||| mstatusSpp .user
      else (mstatus &&& ~~~mstatusMppMask) ||| mstatusMpp .user
    let mstatus := if newMode ≤ .supervisor then mstatus &&& ~~~mstatusMprvMask else mstatus
    let self := { self with mode := newMode, csr := { self.csr with mstatus := mstatus } }
    let epc := if mode = .supervisor then self.csr.sepc else self.csr.mepc
    writePC self ((epc - BitVec.ofInt _ instSize).setWidth _)

end RV640
