import RV640.Machine

set_option autoImplicit false

/-! # The built-in SBI (`sbi.c`)

When `virtualSBI` is set the emulator itself plays the M-mode firmware: it starts the hart in
S-mode and serves the traps that would go to M-mode.
-/

namespace RV640

open Bits

variable {c : Cfg}

/-- `SBI_Ret`. -/
structure SbiRet (c : Cfg) where
  error : Word c
  uvalue : Word c

/-- `SBI_SUCCESS`, `SBI_ERR_NOT_SUPPORTED`, `SBI_ERR_INVALID_PARAM`. -/
def sbiSuccess : Word c := 0#_
def sbiErrNotSupported : Word c := BitVec.ofInt _ (-2)
def sbiErrInvalidParam : Word c := BitVec.ofInt _ (-3)

/-- `SBI_EID`. -/
def sbiEidBase : Word c := 0x10#_
def sbiEidTimer : Word c := 0x54494D45#_
def sbiEidIpi : Word c := 0x735049#_
def sbiEidRfence : Word c := 0x52464E43#_
def sbiEidSysreset : Word c := 0x53525354#_
def sbiEidDbgcon : Word c := 0x4442434E#_
def sbiEidFwft : Word c := 0x46574654#_

/-- `CPU_REG_A0`, `CPU_REG_A1`, `CPU_REG_A6`, `CPU_REG_A7`. -/
def regA0 : Reg := 10#5
def regA1 : Reg := 11#5
def regA6 : Reg := 16#5
def regA7 : Reg := 17#5

/-- `rv_pokeRx`. -/
def rvPokeRx (self : Cpu c) (rx : Reg) (val : Word c) : Cpu c :=
  { self with regs := Function.update self.regs rx val }

/-- The ids the probe of `_handleBaseExt` answers 1 for. -/
def probedExtensions : List (Word c) :=
  [sbiEidBase, sbiEidTimer, sbiEidIpi, sbiEidRfence, sbiEidSysreset, sbiEidDbgcon, sbiEidFwft]

/-- `_handleBaseExt`. -/
def handleBaseExt (hart : Cpu c) (fid : Word c) : SbiRet c :=
  match fid.toNat with
  | 0 => ⟨sbiSuccess, 2#_ <<< 24⟩
  | 1 => ⟨sbiSuccess, 0#_⟩
  | 2 => ⟨sbiSuccess, 0x1000#_⟩
  | 3 => ⟨sbiSuccess, if hart.regs regA0 ∈ probedExtensions then 1#_ else 0#_⟩
  | 4 => ⟨sbiSuccess, 0#_⟩
  | 5 => ⟨sbiSuccess, 0x1442#_⟩
  | 6 => ⟨sbiSuccess, 0x640#_⟩
  | _ => ⟨sbiErrNotSupported, 0#_⟩

/-- The deadline a `set_timer` call passes: `a0`, with `a1` above it on RV32. -/
def setTimerArg (hart : Cpu c) : BitVec 64 :=
  if c.isRv64 then (hart.regs regA0).setWidth 64
  else (hart.regs regA0).setWidth 64 ||| ((hart.regs regA1).setWidth 64 <<< 32)

/-- Program the comparator of the hart's ACLINT. -/
def setMtimecmp (m : Machine c) (val : BitVec 64) : Machine c :=
  let (aclint, hart) := aclintSetMtimecmp m.aclint m.cpu val
  { m with aclint := aclint, cpu := hart }

/-- Replace `mie`, as the handlers do directly. -/
def pokeMie (self : Cpu c) (mie : Word c) : Cpu c :=
  { self with csr := { self.csr with mie := mie } }

/-- `_handleTimerExt`. -/
def handleTimerExt (m : Machine c) (fid : Word c) : Machine c × SbiRet c :=
  match fid.toNat with
  | 0 =>
      let time := setTimerArg m.cpu
      let m := setMtimecmp m time
      let mie :=
        if time = ~~~1#64 then m.cpu.csr.mie &&& ~~~IrqCause.machineTmrInt.mask
        else m.cpu.csr.mie ||| IrqCause.machineTmrInt.mask
      ({ m with cpu := pokeMie m.cpu mie }, ⟨sbiSuccess, 0#_⟩)
  | _ => (m, ⟨sbiErrNotSupported, 0#_⟩)

/-- The loop of `_handleDbgConExt` over the next `count` characters from `addr`; `false` when a
read failed. -/
def dbgConWrite (m : Machine c) (addr : Word c) : Nat → Machine c × Bool
  | 0 => (m, true)
  | count + 1 =>
      match busRead m (addr.setWidth _) [0#8] with
      | none => (m, false)
      | some (m, bs) => dbgConWrite (uiPutch m (bs.headD 0#8)) (addr + 1#_) count

/-- `_handleDbgConExt`. -/
def handleDbgConExt (m : Machine c) (fid : Word c) : Machine c × SbiRet c :=
  match fid.toNat with
  | 0 =>
      let nBytes := m.cpu.regs regA0
      let (m, ok) := dbgConWrite m (m.cpu.regs regA1) nBytes.toNat
      (m, ⟨if ok then sbiSuccess else sbiErrInvalidParam, nBytes⟩)
  | _ => (m, ⟨sbiErrNotSupported, 0#_⟩)

/-- The switch of `sbi_handleEcall` over the extension ids. -/
def sbiDispatch (m : Machine c) (eid fid : Word c) : Machine c × SbiRet c :=
  if eid = sbiEidBase then (m, handleBaseExt m.cpu fid)
  else if eid = sbiEidTimer then handleTimerExt m fid
  else if eid = sbiEidDbgcon then handleDbgConExt m fid
  else (m, ⟨sbiErrNotSupported, 0#_⟩)

/-- `sbi_handleEcall`. -/
def sbiHandleEcall (m : Machine c) : Machine c :=
  let (m, res) := sbiDispatch m (m.cpu.regs regA7) (m.cpu.regs regA6)
  { m with cpu := rvPokeRx (rvPokeRx m.cpu regA0 res.error) regA1 res.uvalue }

/-- `sbi_handleInterrupt`. The comparator is parked at `CPU_UINT_MAX`, which is
2³² - 1 on RV32. -/
def sbiHandleInterrupt (m : Machine c) : Machine c :=
  if m.cpu.csr.mcause &&& ~~~cpuSignBit = BitVec.ofNat _ IrqCause.machineTmrInt.toNat then
    let m := setMtimecmp m ((cpuUintMax : Word c).setWidth 64)
    let hart := pokeMie m.cpu (m.cpu.csr.mie &&& ~~~IrqCause.machineTmrInt.mask)
    { m with cpu := rvSetInterrupt hart .supervisorTmrInt }
  else m

/-- `sbi_handleException`: an error message and an assert. -/
def sbiHandleException (m : Machine c) : Machine c := m

end RV640
