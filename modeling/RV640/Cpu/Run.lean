import RV640.Cpu.Cext
import RV640.Sbi

set_option autoImplicit false

/-! # The run loop (`cpu/rv.c`)

Interrupt selection, instruction fetch, trap entry and one step of the hart.
-/

namespace RV640

open Bits

variable {c : Cfg}

/-! ## Interrupts -/

/-- `_processPendingMInterrupts`. -/
def processPendingMInterrupts (self : Cpu c) : Cpu c :=
  let interrupts := self.csr.mip &&& self.csr.mie
  match [IrqCause.machineExtInt, .machineSwInt, .machineTmrInt].find?
      fun i => interrupts &&& i.mask != 0#_ with
  | some i => interrupt self i false
  | none => self

/-- The bit of `mideleg` that delegates an interrupt. -/
def delegated (self : Cpu c) (i : IrqCause) : Bool := self.csr.mideleg &&& i.mask != 0#_

/-- The mode test of `_processPendingSInterrupts` for a delegated interrupt. -/
def delegatedIrqOpen (self : Cpu c) : Bool :=
  let sie := self.csr.mstatus &&& mstatusSieMask != 0#_
  decide (self.mode < .supervisor) || (self.mode = .supervisor && sie)
    || (self.mode = .machine && !sie)

/-- `_processPendingSInterrupts`. -/
def processPendingSInterrupts (self : Cpu c) : Cpu c :=
  let interrupts := self.csr.mip &&& self.csr.mie
  match [IrqCause.supervisorExtInt, .supervisorSwInt, .supervisorTmrInt, .ctrOvfInt].find?
      fun i => interrupts &&& i.mask != 0#_ && (!delegated self i || delegatedIrqOpen self) with
  | some i => interrupt self i (delegated self i)
  | none => self

/-- `_processPendingInterrupts`. -/
def processPendingInterrupts (self : Cpu c) : Cpu c :=
  if self.mode = .machine && self.csr.mstatus &&& mstatusMieMask == 0#_ then self
  else
    let self := if self.trap then self else processPendingMInterrupts self
    if self.trap then self else processPendingSInterrupts self

/-! ## Fetch -/

/-- The line buffer after a read of its whole length. -/
def icacheLine (bs : List Byte) : Vector Byte icacheLineSize := Vector.ofFn fun i => bs.getD i 0#8

/-- `_fetch`. -/
def fetch (m : Machine c) : Machine c × BitVec 32 :=
  let pc := readPC m.cpu
  if pc &&& 1#_ != 0#_ then ({ m with cpu := trap m.cpu .instAllign }, 0#32)
  else
    let offset := pc - m.cpu.icache.base
    if m.cpu.icache.base = cpuAddrMax || BitVec.ofNat _ (icacheLineSize - 4) < offset then
      match busRead m pc m.cpu.icache.line.toList with
      | some (m, bs) =>
          ({ m with cpu := { m.cpu with icache := ⟨pc, icacheLine bs⟩ } }, ofBytes (bs.take 4))
      | none =>
          match busRead m pc (List.replicate 4 0#8) with
          | some (m, bs) => (m, ofBytes bs)
          | none => ({ m with cpu := trap m.cpu .instAf }, 0#32)
    else (m, ofBytes ((m.cpu.icache.line.toList.drop offset.toNat).take 4))

/-! ## Trap entry -/

/-- `trapCause` names an interrupt. -/
def causeIsIrq (trapCause : Word c) : Bool := trapCause &&& cpuSignBit != 0#_

/-- The cause number without the interrupt bit. -/
def causeCode (trapCause : Word c) : Word c := trapCause &&& ~~~cpuSignBit

/-- `mstatus` on entry to M-mode: `MIE` to `MPIE`, `MIE` clear, the mode in `MPP`. -/
def mstatusEnterM (mstatus : Word c) (mode : PrivMode) : Word c :=
  let mstatus := (mstatus &&& ~~~(mstatusMpieMask ||| mstatusMieMask))
    ||| (if mstatus &&& mstatusMieMask != 0#_ then mstatusMpieMask else 0#_)
  (mstatus &&& ~~~mstatusMppMask) ||| mstatusMpp mode

/-- `mstatus` on entry to S-mode: `SIE` to `SPIE`, `SIE` clear, the mode in `SPP`. -/
def mstatusEnterS (mstatus : Word c) (mode : PrivMode) : Word c :=
  let mstatus := (mstatus &&& ~~~(mstatusSpieMask ||| mstatusSieMask))
    ||| (if mstatus &&& mstatusSieMask != 0#_ then mstatusSpieMask else 0#_)
  (mstatus &&& ~~~mstatusSppMask) ||| mstatusSpp mode

/-- The part of `_doTrap` that enters the destination mode. -/
def enterTrap (self : Cpu c) : Cpu c :=
  if self.trapDelegate then
    { self with
      trap := false
      wfi := false
      mode := .supervisor
      csr := { self.csr with
        scause := self.trapCause
        mstatus := mstatusEnterS self.csr.mstatus self.mode
        stval := 0#_
        sepc := (readPC self).setWidth _ } }
  else
    { self with
      trap := false
      wfi := false
      mode := .machine
      csr := { self.csr with
        mcause := self.trapCause
        mstatus := mstatusEnterM self.csr.mstatus self.mode
        mtval := 0#_
        mepc := (readPC self).setWidth _ } }

/-- The vector `_doTrap` jumps to. -/
def trapVector (self : Cpu c) : Word c :=
  let xtvec := if self.trapDelegate then self.csr.stvec else self.csr.mtvec
  let vec := xtvec &&& ~~~3#_
  if causeIsIrq self.trapCause && xtvec &&& 3#_ == 1#_ then vec + 4#_ * causeCode self.trapCause
  else vec

/-- The SBI handler a trap is given to. -/
inductive SbiHandler where
  | ecall
  | interrupt
  | exception
  deriving DecidableEq, Repr

/-- The branch `_doTrap` takes at its end: an SBI handler when the trap goes to M-mode under
virtual SBI, the trap vector otherwise. -/
def sbiHandler (self : Cpu c) : Option SbiHandler :=
  if (enterTrap self).mode = .machine && self.virtualSBI then
    if causeCode self.trapCause = BitVec.ofNat _ TrapCause.callS.toNat then some .ecall
    else if causeIsIrq self.trapCause then some .interrupt
    else some .exception
  else none

/-- `_doTrap`. -/
def doTrap (m : Machine c) : Machine c :=
  let entered := { m with cpu := enterTrap m.cpu }
  match sbiHandler m.cpu with
  | some .ecall =>
      let m := sbiHandleEcall entered
      { m with cpu := xret m.cpu .machine (-4) }
  | some .interrupt =>
      let m := sbiHandleInterrupt entered
      { m with cpu := xret m.cpu .machine 0 }
  | some .exception =>
      let m := sbiHandleException entered
      { m with cpu := xret m.cpu .machine 0 }
  | none => { m with cpu := writePC entered.cpu ((trapVector m.cpu).setWidth _) }

/-! ## One step -/

/-- The first part of `rv_run`: enter a latched trap, or look for an interrupt. The flag tells
that `rv_run` returns here. -/
def rvEnter (m : Machine c) : Machine c × Bool :=
  if m.cpu.trap then (doTrap m, false)
  else if m.cpu.irq then
    let hart := processPendingInterrupts m.cpu
    ({ m with cpu := hart }, hart.trap)
  else (m, false)

/-- `rv_run` up to the instruction: the word it is about to execute, or `none` when it returns
without executing one. -/
def rvFetch (m : Machine c) : Machine c × Option (BitVec 32) :=
  let (m, stop) := rvEnter m
  if stop then (m, none)
  else
    let (m, instr) := fetch m
    if m.cpu.trap then (m, none) else (m, some instr)

/-- The PC update at the end of `rv_run`. -/
def advancePC (m : Machine c) (instrSize : Nat) : Machine c :=
  { m with cpu := writePC m.cpu (readPC m.cpu + BitVec.ofNat _ instrSize) }

/-- The instruction of `rv_run`: compressed if it can be, and the PC update. -/
def rvExec (m : Machine c) (instr : BitVec 32) : Machine c :=
  match execCext m instr with
  | some m => advancePC m 2
  | none => advancePC (execInstr m instr) 4

/-- `rv_run`. -/
def rvRun (m : Machine c) : Machine c :=
  match rvFetch m with
  | (m, some instr) => rvExec m instr
  | (m, none) => m

/-! ## Reset -/

/-- `rv_init`, with hart id 0 as `main` passes it. -/
def rvInit (virtualSBI : Bool) : Cpu c :=
  { regs := fun _ => 0#_
    pc := 0#_
    csr := ⟨0#_, 0#_, 0#_, 0#_, 0#_, 0#_, 0#_, 0#_, 0#_, 0#_, 0#_, 0#_, 0#_, 0#_, 0#_, 0#_, 0#_,
      0#_, 0#_, 0#_, 0#_⟩
    trap := false
    trapCause := 0#_
    trapDelegate := false
    irq := false
    wfi := false
    icache := ⟨0#_, Vector.replicate _ 0#8⟩
    mode := .user
    virtualSBI := virtualSBI }

/-- `_vm` after the initialisation in `main`, up to the loading of the image: every object
initialised, the devices on `bus`, the RAM holding `ram`. -/
def vmInit (bus : Bus c DevKind) (ram : Memory) (virtualSBI : Bool) : Machine c :=
  { cpu := rvInit virtualSBI
    bus := bus
    ram := ram
    aclint := aclintInit
    plic := plicInit _
    uart := ns16550aInit
    console := [] }

/-- `rv_reset`. -/
def rvReset (m : Machine c) (mode : PrivMode) (start : Addr c) : Machine c :=
  let hart := flushIcache m.cpu
  let hart :=
    { hart with
      wfi := false
      csr := { hart.csr with
        mstatus := mstatusWrVal 0#_
        mstatush := if c.isRv64 then hart.csr.mstatush else mstatushWrVal 0#_
        menvcfg := menvcfgCbzeMask
        senvcfg := senvcfgCbzeMask }
      irq := false
      trap := false
      mode := mode }
  { m with
    bus := (busReservationCheckInvalidate m.bus 0#_ 0).1
    cpu := writePC hart start }

/-- The delegation words `sbi_startHart` installs. -/
def sbiMedeleg : Word c :=
  cpuUintMax &&& ~~~(bit TrapCause.callS.toNat ||| bit TrapCause.callM.toNat
    ||| bit TrapCause.doubleTrap.toNat)
def sbiMideleg : Word c :=
  cpuUintMax &&& ~~~(IrqCause.machineSwInt.mask ||| IrqCause.machineTmrInt.mask
    ||| IrqCause.machineExtInt.mask)

/-- `sbi_startHart`. -/
def sbiStartHart (m : Machine c) (entryPoint : Addr c) (a1 : Word c) : Machine c :=
  let m := rvReset m .supervisor entryPoint
  let hart := rvPokeRx (rvPokeRx m.cpu regA0 m.cpu.csr.mhartid) regA1 a1
  { m with
    cpu := { hart with
      csr := { hart.csr with
        medeleg := sbiMedeleg
        mideleg := sbiMideleg
        mcounteren := counterenWrMask } } }

/-- `_vm` when the main loop starts: every object initialised, the devices on `bus`, the image in
`ram`, and the hart either in M-mode at the entry point or started by the built-in SBI. -/
def vmStart (bus : Bus c DevKind) (ram : Memory) (noSBI : Bool) (entryPoint : Addr c)
    (dtbAddress : Word c) : Machine c :=
  let m := vmInit bus ram (!noSBI)
  if noSBI then
    let m := rvReset m .machine entryPoint
    { m with cpu := rvPokeRx (rvPokeRx m.cpu regA0 m.cpu.csr.mhartid) regA1 dtbAddress }
  else sbiStartHart m entryPoint dtbAddress

/-! ## Events of the main loop -/

/-- What the main loop of `main.c`, the input thread of the terminal and the devices do to the
machine between two instructions. -/
inductive Event where
  | run
  | tick (cycles : BitVec 32)
  | push (ch : Byte)
  | plicIrq (n : Nat)
  deriving DecidableEq

/-- One event. -/
def stepEvent (m : Machine c) : Event → Machine c
  | .run => rvRun m
  | .tick cycles =>
      let (aclint, hart) := aclintTick m.aclint m.cpu cycles
      { m with aclint := aclint, cpu := hart }
  | .push ch => (ns16550Push m ch).1
  | .plicIrq n =>
      let (plic, hart) := plicInterrupt m.plic m.cpu n
      { m with plic := plic, cpu := hart }

end RV640
