import RV640.Cpu.State

set_option autoImplicit false

/-! # Control and status registers (`cpu/rv_csr.h`)

Reads and writes of CSRs by number. Reading the time CSRs follows the hart's pointer to the
ACLINT, so the current `mtime` is a parameter.
-/

namespace RV640

open Bits

variable {c : Cfg}

/-- `_writeMstatus`. -/
def writeMstatus (self : Cpu c) (val : Word c) : Cpu c :=
  let self :=
    if self.csr.mstatus &&& (mstatusMieMask ||| mstatusSieMask)
        != val &&& (mstatusMieMask ||| mstatusSieMask) then pendingIRQ self else self
  let mpp := mstatusGetMpp val
  let mpp := if mpp ≠ .user && mpp ≠ .supervisor then PrivMode.machine else mpp
  { self with csr := { self.csr with
      mstatus := (mstatusWrVal val &&& ~~~mstatusMppMask) ||| mstatusMpp mpp } }

/-- `_writeMie`. -/
def writeMie (self : Cpu c) (val : Word c) : Cpu c :=
  let newMie := (self.csr.mie &&& ~~~mieRwMask) ||| (val &&& mieRwMask)
  let self := if self.csr.mie != newMie then pendingIRQ self else self
  { self with csr := { self.csr with mie := newMie } }

/-- `_writeMip`. -/
def writeMip (self : Cpu c) (val : Word c) : Cpu c :=
  let newMip := (self.csr.mip &&& ~~~mipRwMask) ||| (val &&& mipRwMask)
  let self := if self.csr.mip != newMip then pendingIRQ self else self
  { self with csr := { self.csr with mip := newMip } }

/-- `_checkPrfCounterAccess`. -/
def checkPrfCounterAccess (self : Cpu c) (mask : Word c) : Bool :=
  if self.mode < .machine && self.csr.mcounteren &&& mask == 0#_ then false
  else if self.mode < .supervisor && self.csr.scounteren &&& mask == 0#_ then false
  else true

/-- `(RV_PrivMode)((csr >> 8) & 3)`: the lowest mode that may access a CSR. -/
def csrPrivMode (csr : BitVec 16) : PrivMode := PrivMode.ofBits (csr.extractLsb' 8 2)

/-- `MISA_EXT_BIT(letter)`. -/
def misaExtBit (letter : Char) : Word c := bit (letter.toNat - 'a'.toNat)

/-- `RV_MVENDORID`, `RV_MARCHID` and `RV_MIMPID`. -/
def rvMvendorid : Word c := 0#_
def rvMarchid : Word c := 0x1442#_
def rvMimpid : Word c := 0x640#_

/-- The value of the MISA register. -/
def misa : Word c :=
  (if c.isRv64 then cpuSignBit else (cpuSignBit : Word c) >>> 1)
    ||| misaExtBit 'a' ||| misaExtBit 'c' ||| misaExtBit 'i' ||| misaExtBit 'm'
    ||| misaExtBit 's' ||| misaExtBit 'u'

/-- The switch of `_readCSR`; `none` is the illegal instruction at its end. -/
def csrValue (self : Cpu c) (mtime : BitVec 64) (csr : BitVec 16) : Option (Word c) :=
  let counter (mask value : Word c) : Option (Word c) :=
    if checkPrfCounterAccess self mask then some value else none
  match csr with
  | 0x100#16 => some (self.csr.mstatus &&& ~~~sstatusWpriMask)
  | 0x104#16 => some (self.csr.mie &&& self.csr.mideleg &&& sieRwMask)
  | 0x105#16 => some self.csr.stvec
  | 0x106#16 => some self.csr.scounteren
  | 0x10A#16 => some self.csr.senvcfg
  | 0x140#16 => some self.csr.sscratch
  | 0x141#16 => some self.csr.sepc
  | 0x142#16 => some self.csr.scause
  | 0x143#16 => some self.csr.stval
  | 0x144#16 => some (self.csr.mip &&& self.csr.mideleg &&& sipRwMask)
  | 0x180#16 => some 0#_
  | 0x300#16 => some self.csr.mstatus
  | 0x301#16 => some misa
  | 0x302#16 => some self.csr.medeleg
  | 0x303#16 => some self.csr.mideleg
  | 0x304#16 => some self.csr.mie
  | 0x305#16 => some self.csr.mtvec
  | 0x306#16 => some self.csr.mcounteren
  | 0x30A#16 => some self.csr.menvcfg
  | 0x310#16 => if c.isRv64 then none else some self.csr.mstatush
  | 0x340#16 => some self.csr.mscratch
  | 0x341#16 => some self.csr.mepc
  | 0x342#16 => some self.csr.mcause
  | 0x343#16 => some self.csr.mtval
  | 0x344#16 => some self.csr.mip
  | 0xC00#16 => counter counterenCyMask 0#_
  | 0xC01#16 => counter counterenTmMask (mtime.setWidth _)
  | 0xC02#16 => counter counterenIrMask 0#_
  | 0xC80#16 => if c.isRv64 then none else counter counterenCyMask 0#_
  | 0xC81#16 => if c.isRv64 then none else counter counterenTmMask ((mtime >>> 32).setWidth _)
  | 0xC82#16 => if c.isRv64 then none else counter counterenIrMask 0#_
  | 0xF11#16 => some rvMvendorid
  | 0xF12#16 => some rvMarchid
  | 0xF13#16 => some rvMimpid
  | 0xF14#16 => some self.csr.mhartid
  | _ => none

/-- `_readCSR`. -/
def readCSR (self : Cpu c) (mtime : BitVec 64) (csr : BitVec 16) : Cpu c × Word c :=
  if self.trap then (self, 0#_)
  else if self.mode < csrPrivMode csr then (trap self .instIll, 0#_)
  else
    match csrValue self mtime csr with
    | some v => (self, v)
    | none => (trap self .instIll, 0#_)

/-- The switch of `_writeCSR`; `none` is the illegal instruction at its end. -/
def csrWritten (self : Cpu c) (csr : BitVec 16) (val : Word c) : Option (Cpu c) :=
  match csr with
  | 0x100#16 =>
      some (writeMstatus self
        ((val &&& ~~~sstatusWpriMask) ||| (self.csr.mstatus &&& sstatusWpriMask)))
  | 0x104#16 =>
      let mask := self.csr.mideleg &&& sieRwMask
      some (writeMie self ((val &&& mask) ||| (self.csr.mie &&& ~~~mask)))
  | 0x105#16 => some { self with csr := { self.csr with stvec := val } }
  | 0x106#16 => some { self with csr := { self.csr with scounteren := val &&& counterenWrMask } }
  | 0x10A#16 => some { self with csr := { self.csr with senvcfg := val } }
  | 0x140#16 => some { self with csr := { self.csr with sscratch := val } }
  | 0x141#16 => some { self with csr := { self.csr with sepc := val &&& ~~~1#_ } }
  | 0x143#16 => some { self with csr := { self.csr with stval := val } }
  | 0x144#16 =>
      let mask := self.csr.mideleg &&& sipRwMask
      some (writeMip self ((val &&& mask) ||| (self.csr.mip &&& ~~~mask)))
  | 0x300#16 => some (writeMstatus self val)
  | 0x301#16 => some self
  | 0x302#16 => some { self with csr := { self.csr with medeleg := val &&& medelegRwMask } }
  | 0x303#16 => some { self with csr := { self.csr with mideleg := val &&& midelegRwMask } }
  | 0x304#16 => some (writeMie self val)
  | 0x305#16 => some { self with csr := { self.csr with mtvec := val } }
  | 0x306#16 => some { self with csr := { self.csr with mcounteren := val &&& counterenWrMask } }
  | 0x30A#16 => some { self with csr := { self.csr with menvcfg := val } }
  | 0x310#16 =>
      if c.isRv64 then none
      else some { self with csr := { self.csr with mstatush := mstatushWrVal val } }
  | 0x340#16 => some { self with csr := { self.csr with mscratch := val } }
  | 0x341#16 => some { self with csr := { self.csr with mepc := val &&& ~~~1#_ } }
  | 0x343#16 => some { self with csr := { self.csr with mtval := val } }
  | 0x344#16 => some (writeMip self val)
  | _ => none

/-- `_writeCSR`. -/
def writeCSR (self : Cpu c) (csr : BitVec 16) (val : Word c) : Cpu c :=
  if self.trap then self
  else if self.mode < csrPrivMode csr then trap self .instIll
  else
    match csrWritten self csr val with
    | some self => self
    | none => trap self .instIll

end RV640
