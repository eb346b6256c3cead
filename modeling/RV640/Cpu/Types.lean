import RV640.Lib.Bits

set_option autoImplicit false

/-! # Words, modes, causes and CSR masks (`cpu/rv_types.h`)

The emulator is compiled for one of three targets: RV32, RV64, and RV64 with 32-bit physical
addresses (`CONFIG_RV64_32BIT_ADDR`). A `Cfg` names the target; everything that the source
writes over `cpu_word_t` and `cpu_addr_t` is written over `Word c` and `Addr c`.
-/

namespace RV640

open Bits

/-- The compile-time target. -/
inductive Cfg where
  | rv32
  | rv64
  | rv64Addr32
  deriving DecidableEq, Repr

/-- Bits of `cpu_word_t`. -/
@[reducible] def Cfg.xlen : Cfg → Nat
  | .rv32 => 32
  | .rv64 => 64
  | .rv64Addr32 => 64

/-- Bits of `cpu_addr_t` and `cpu_size_t`. -/
@[reducible] def Cfg.alen : Cfg → Nat
  | .rv32 => 32
  | .rv64 => 64
  | .rv64Addr32 => 32

/-- `CONFIG_RV64` is defined. -/
def Cfg.isRv64 : Cfg → Bool
  | .rv32 => false
  | .rv64 => true
  | .rv64Addr32 => true

/-- `cpu_word_t`. -/
abbrev Word (c : Cfg) := BitVec c.xlen

/-- `cpu_addr_t`, and `cpu_size_t` of the same width. -/
abbrev Addr (c : Cfg) := BitVec c.alen

/-- A register number as the decoders cut it out of an instruction. -/
abbrev Reg := BitVec 5

theorem Cfg.xlen_ge (c : Cfg) : 32 ≤ c.xlen := by cases c <;> decide

theorem Cfg.xlen_le (c : Cfg) : c.xlen ≤ 64 := by cases c <;> decide

theorem Cfg.alen_ge (c : Cfg) : 32 ≤ c.alen := by cases c <;> decide

theorem Cfg.alen_le_xlen (c : Cfg) : c.alen ≤ c.xlen := by cases c <;> decide

theorem Cfg.xlen_of_rv64 {c : Cfg} (h : c.isRv64 = true) : c.xlen = 64 := by
  cases c
  · cases h
  · rfl
  · rfl

/-- `sizeof(cpu_word_t)`. -/
def Cfg.wordBytes (c : Cfg) : Nat := c.xlen / 8

variable {c : Cfg}

/-- `CPU_SIGN_BIT`. -/
def cpuSignBit : Word c := bit (c.xlen - 1)

/-- `CPU_UINT_MAX`. -/
def cpuUintMax : Word c := ~~~0#_

/-- `CPU_ADDR_MAX`. -/
def cpuAddrMax : Addr c := ~~~0#_

/-- `CPU_SHIFT_MASK`. -/
def cpuShiftMask (c : Cfg) : Nat := c.xlen - 1

/-! ## Privilege modes and causes -/

/-- `RV_PrivMode`. -/
inductive PrivMode where
  | user
  | supervisor
  | reserved
  | machine
  deriving DecidableEq, Repr

def PrivMode.toNat : PrivMode → Nat
  | .user => 0
  | .supervisor => 1
  | .reserved => 2
  | .machine => 3

/-- The cast `(RV_PrivMode)(bits & 3)`. -/
def PrivMode.ofBits (b : BitVec 2) : PrivMode :=
  match b with
  | 0#2 => .user
  | 1#2 => .supervisor
  | 2#2 => .reserved
  | _ => .machine

instance : LT PrivMode := ⟨fun a b => a.toNat < b.toNat⟩
instance : LE PrivMode := ⟨fun a b => a.toNat ≤ b.toNat⟩
instance (a b : PrivMode) : Decidable (a < b) := inferInstanceAs (Decidable (a.toNat < b.toNat))
instance (a b : PrivMode) : Decidable (a ≤ b) := inferInstanceAs (Decidable (a.toNat ≤ b.toNat))

/-- `RV_TrapCause`, without the causes nothing in the emulator raises or tests. -/
inductive TrapCause where
  | instAllign
  | instAf
  | instIll
  | breakpoint
  | ldAllign
  | ldAf
  | stAllign
  | stAf
  | callU
  | callS
  | callM
  | doubleTrap
  deriving DecidableEq, Repr

def TrapCause.toNat : TrapCause → Nat
  | .instAllign => 0
  | .instAf => 1
  | .instIll => 2
  | .breakpoint => 3
  | .ldAllign => 4
  | .ldAf => 5
  | .stAllign => 6
  | .stAf => 7
  | .callU => 8
  | .callS => 9
  | .callM => 11
  | .doubleTrap => 16

theorem TrapCause.toNat_lt (t : TrapCause) : t.toNat < 31 := by cases t <;> decide

/-- `RV_IrqCause`. -/
inductive IrqCause where
  | supervisorSwInt
  | machineSwInt
  | supervisorTmrInt
  | machineTmrInt
  | supervisorExtInt
  | machineExtInt
  | ctrOvfInt
  deriving DecidableEq, Repr

def IrqCause.toNat : IrqCause → Nat
  | .supervisorSwInt => 1
  | .machineSwInt => 3
  | .supervisorTmrInt => 5
  | .machineTmrInt => 7
  | .supervisorExtInt => 9
  | .machineExtInt => 11
  | .ctrOvfInt => 13

theorem IrqCause.toNat_lt (i : IrqCause) : i.toNat < 31 := by cases i <;> decide

theorem IrqCause.toNat_lt_xlen (i : IrqCause) (c : Cfg) : i.toNat < c.xlen - 1 := by
  have h1 := i.toNat_lt
  have h2 := c.xlen_ge
  omega

theorem IrqCause.toNat_inj {i j : IrqCause} (h : i.toNat = j.toNat) : i = j := by
  cases i <;> cases j <;> first | rfl | cases h

/-- `(cpu_word_t)1 << cause`. -/
def IrqCause.mask (i : IrqCause) : Word c := bit i.toNat

/-! ## Interrupt and delegation masks -/

/-- `~(cpu_word_t)0xFFFF`: the platform interrupts. -/
def platformIrqs : Word c := ~~~0xFFFF#_

/-- `MIP_RW_MASK`. -/
def mipRwMask : Word c :=
  IrqCause.supervisorSwInt.mask ||| IrqCause.machineSwInt.mask
    ||| IrqCause.supervisorTmrInt.mask ||| IrqCause.machineTmrInt.mask
    ||| IrqCause.supervisorExtInt.mask ||| IrqCause.machineExtInt.mask
    ||| IrqCause.ctrOvfInt.mask

/-- `MIE_RW_MASK`. -/
def mieRwMask : Word c :=
  IrqCause.supervisorSwInt.mask ||| IrqCause.machineSwInt.mask
    ||| IrqCause.supervisorTmrInt.mask ||| IrqCause.machineTmrInt.mask
    ||| IrqCause.supervisorExtInt.mask ||| IrqCause.machineExtInt.mask
    ||| IrqCause.ctrOvfInt.mask ||| platformIrqs

/-- `SIP_RW_MASK`. -/
def sipRwMask : Word c :=
  IrqCause.supervisorSwInt.mask ||| IrqCause.supervisorTmrInt.mask
    ||| IrqCause.supervisorExtInt.mask ||| IrqCause.ctrOvfInt.mask

/-- `SIE_RW_MASK`. -/
def sieRwMask : Word c :=
  IrqCause.supervisorSwInt.mask ||| IrqCause.supervisorTmrInt.mask
    ||| IrqCause.supervisorExtInt.mask ||| IrqCause.ctrOvfInt.mask ||| platformIrqs

/-- `MEDELEG_RW_MASK`. The last two bits are `TRAP_SW_CHECK` and `TRAP_HW_ERR`, the three
before them the page faults. `TRAP_LD_ALLIGN` is not in the list. -/
def medelegRwMask : Word c :=
  bit 0 ||| bit 1 ||| bit 2 ||| bit 3 ||| bit 5 ||| bit 6 ||| bit 7 ||| bit 8 ||| bit 9
    ||| bit 12 ||| bit 13 ||| bit 15 ||| bit 18 ||| bit 19

/-- `MIDELEG_RW_MASK`. -/
def midelegRwMask : Word c :=
  IrqCause.supervisorSwInt.mask ||| IrqCause.supervisorTmrInt.mask
    ||| IrqCause.supervisorExtInt.mask ||| IrqCause.ctrOvfInt.mask

/-! ## `mstatus` and its views -/

def mstatusUbeMask : Word c := bit 6
def mstatusVsMask : Word c := bit 9 ||| bit 10
def mstatusFsMask : Word c := bit 13 ||| bit 14
def mstatusXsMask : Word c := bit 15 ||| bit 16
def mstatusSieMask : Word c := bit 1
def mstatusMieMask : Word c := bit 3
def mstatusSpieMask : Word c := bit 5
def mstatusMpieMask : Word c := bit 7
def mstatusSppMask : Word c := bit 8
def mstatusMppMask : Word c := bit 11 ||| bit 12
def mstatusMprvMask : Word c := bit 17
def mstatusTwMask : Word c := bit 21
def mstatusTsrMask : Word c := bit 22

/-- `MSTATUS_WPRI_MASK`. -/
def mstatusWpriMask : Word c :=
  if c.isRv64 then
    bit 0 ||| bit 2 ||| bit 4 ||| (0x7F#_ <<< 25) ||| bit 40 ||| (0x1F#_ <<< 43)
      ||| (0x7FFF#_ <<< 48)
  else
    bit 0 ||| bit 2 ||| bit 4 ||| (0x3F#_ <<< 25)

/-- `MSTATUS_SD_MASK`. -/
def mstatusSdMask : Word c := if c.isRv64 then bit 63 else bit 31

def mstatusSbeMask : Word c := bit 36
def mstatusMbeMask : Word c := bit 37
def mstatusUxlMask : Word c := bit 32 ||| bit 33
def mstatusUxl64 : Word c := bit 33
def mstatusSxlMask : Word c := bit 34 ||| bit 35
def mstatusSxl64 : Word c := bit 35

/-- `MSTATUS_WR_VAL(val)`. -/
def mstatusWrVal (val : Word c) : Word c :=
  if c.isRv64 then
    (val &&& ~~~(mstatusWpriMask ||| mstatusUbeMask ||| mstatusSbeMask ||| mstatusMbeMask
      ||| mstatusVsMask ||| mstatusFsMask ||| mstatusXsMask ||| mstatusSdMask
      ||| mstatusUxlMask ||| mstatusSxlMask)) ||| mstatusUxl64 ||| mstatusSxl64
  else
    val &&& ~~~(mstatusWpriMask ||| mstatusUbeMask ||| mstatusVsMask ||| mstatusFsMask
      ||| mstatusXsMask ||| mstatusSdMask)

/-- `MSTATUSH_WR_VAL(val)`, on RV32 only. -/
def mstatushWrVal (val : Word c) : Word c :=
  val &&& ~~~((0xF#_ ||| bit 8 ||| (0x1F#_ <<< 11) ||| (0xFFFF#_ <<< 16)) ||| bit 4 ||| bit 5)

/-- `MSTATUS_SPP(mode)`. -/
def mstatusSpp (mode : PrivMode) : Word c := (BitVec.ofNat _ mode.toNat &&& 1#_) <<< 8

/-- `MSTATUS_GET_SPP(mstatus)`. -/
def mstatusGetSpp (mstatus : Word c) : PrivMode :=
  PrivMode.ofBits (((mstatus >>> 8) &&& 1#_).setWidth 2)

/-- `MSTATUS_MPP(mode)`. -/
def mstatusMpp (mode : PrivMode) : Word c := (BitVec.ofNat _ mode.toNat &&& 3#_) <<< 11

/-- `MSTATUS_GET_MPP(mstatus)`. -/
def mstatusGetMpp (mstatus : Word c) : PrivMode :=
  PrivMode.ofBits (((mstatus >>> 11) &&& 3#_).setWidth 2)

/-- `SSTATUS_WPRI_MASK`. -/
def sstatusWpriMask : Word c :=
  if c.isRv64 then
    bit 0 ||| (7#_ <<< 2) ||| bit 7 ||| (3#_ <<< 11) ||| bit 17 ||| (7#_ <<< 20)
      ||| (0x7F#_ <<< 25) ||| (0x1FFFFFFF#_ <<< 34)
  else
    bit 0 ||| (7#_ <<< 2) ||| bit 7 ||| (3#_ <<< 11) ||| bit 17 ||| (7#_ <<< 20)
      ||| (0x3F#_ <<< 25)

/-- `MENVCFG_CBZE_MASK`. -/
def menvcfgCbzeMask : Word c := bit 7

/-- `SENVCFG_CBZE_MASK`. -/
def senvcfgCbzeMask : Word c := bit 7

def counterenCyMask : Word c := bit 0
def counterenTmMask : Word c := bit 1
def counterenIrMask : Word c := bit 2

/-- `COUNTEREN_WR_MASK`. -/
def counterenWrMask : Word c := counterenCyMask ||| counterenTmMask ||| counterenIrMask

end RV640
