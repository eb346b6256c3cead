import RV640.Fdt.Write
import RV640.Load
import RV640.MainLoop

set_option autoImplicit false

/-! # The device tree of the machine (`device_tree.c`)

Every function makes its calls of libfdt in order and returns `false` at the first that fails; the
caller gives the buffer up then, so `none` stands for it. The phandles are drawn in the order of the
source.
-/

namespace RV640

open Bits Bytes

variable {c : Cfg}

/-- `DeviceTree`. -/
structure DeviceTree (c : Cfg) where
  buf : HostBuf
  nextPhandle : BitVec 32
  inSOC : Bool
  uart0Phandle : BitVec 32
  intcPhandle : BitVec 32
  plicPhandle : BitVec 32
  memAddr : Addr c
  memSize : Addr c

/-! ## Strings -/

/-- The digits of `%x`. A word has at most 16. -/
def hexDigits (n : Nat) : List Byte :=
  let digits := ((List.range 15).reverse.map fun i => n / 16 ^ (i + 1) % 16).dropWhile (· == 0)
  (digits ++ [n % 16]).map fun d => BitVec.ofNat 8 (if d < 10 then 48 + d else 87 + d)

/-- The name that `_beginAddressedNode` prints into its buffer of 64 characters. -/
def addressedName (type : String) (addr : Addr c) : CString :=
  cstrOfBytes (((cstr type).chars ++ [64#8] ++ hexDigits addr.toNat).take 63)

/-! ## Calls of libfdt -/

/-- `cpu_to_fdt32` of the elements of an array. -/
def fdt32Array (ws : List (BitVec 32)) : List Byte := ws.flatMap (beBytes 4)

/-- `fdt_property_u32`. -/
def propertyU32 (name : String) (val : BitVec 32) : FdtCall :=
  .property (cstr name) (fdt32Array [val])

/-- `fdt_property_string`. -/
def propertyString (name str : String) : FdtCall := .property (cstr name) (cstr str).bytes

/-- `fdt_property(fdt, name, NULL, 0)`. -/
def propertyEmpty (name : String) : FdtCall := .property (cstr name) []

/-- `_beginAddressedNode`. -/
def beginAddressedNode (type : String) (addr : Addr c) : FdtCall :=
  .beginNode (addressedName type addr)

/-- The words `_writeReg` writes. -/
def regCells (c : Cfg) (addr size : Addr c) : List (BitVec 32) :=
  match c with
  | .rv32 => [addr.setWidth 32, size.setWidth 32]
  | .rv64 =>
      [(addr >>> 32).setWidth 32, addr.setWidth 32, (size >>> 32).setWidth 32, size.setWidth 32]
  | .rv64Addr32 => [0#32, addr.setWidth 32, 0#32, size.setWidth 32]

/-- `_writeReg`. -/
def writeReg' (addr size : Addr c) : FdtCall :=
  .property (cstr "reg") (fdt32Array (regCells c addr size))

/-- `FDT_CHECKED_RET_FALSE` on one call after the other. -/
def fdtChecked (assumePerfect : Bool) (self : DeviceTree c) : List FdtCall → Option (DeviceTree c)
  | [] => some self
  | call :: calls =>
      match call.run assumePerfect self.buf with
      | (buf, none) => fdtChecked assumePerfect { self with buf := buf } calls
      | (_, some _) => none

/-- `X_CELLS`, `BASE_ISA`. -/
def xCells (c : Cfg) : BitVec 32 := if c.isRv64 then 2#32 else 1#32
def baseIsa (c : Cfg) : String := if c.isRv64 then "rv64i" else "rv32i"

/-- `isaExtensions`, every string with its 0. -/
def isaExtensions : List Byte :=
  ["i", "m", "a", "c", "zaamo", "zicboz", "zifencei", "zicsr", "zabha"].flatMap
    fun s => (cstr s).bytes

/-! ## Building the tree -/

/-- The calls of `dt_init` behind the reserve map. -/
def dtInitCalls (c : Cfg) (intcPhandle : BitVec 32) : List FdtCall :=
  [.beginNode (cstr ""),
    propertyU32 "#address-cells" (xCells c),
    propertyU32 "#size-cells" (xCells c),
    propertyString "compatible" "rv640",
    propertyString "model" "RV640",
    .beginNode (cstr "cpus"),
    propertyU32 "#address-cells" 1#32,
    propertyU32 "#size-cells" 0#32,
    propertyU32 "timebase-frequency" (aclintFreqency.setWidth 32),
    beginAddressedNode (c := c) "cpu" 0#_,
    propertyString "device_type" "cpu",
    propertyU32 "reg" 0#32,
    propertyString "status" "okay",
    propertyString "compatible" "riscv",
    propertyU32 "i-cache-block-size" (BitVec.ofNat 32 icacheLineSize),
    propertyU32 "i-cache-sets" 1#32,
    propertyString "riscv,isa-base" (baseIsa c),
    .property (cstr "riscv,isa-extensions") isaExtensions,
    propertyU32 "riscv,cboz-block-size" (BitVec.ofNat 32 dcacheLineSize),
    .beginNode (cstr "interrupt-controller"),
    propertyU32 "phandle" intcPhandle,
    propertyU32 "#interrupt-cells" 1#32,
    propertyEmpty "interrupt-controller",
    propertyString "compatible" "riscv,cpu-intc",
    .endNode,
    .endNode,
    .endNode,
    .beginNode (cstr "soc"),
    propertyU32 "#address-cells" (xCells c),
    propertyU32 "#size-cells" (xCells c),
    propertyString "compatible" "simple-bus",
    propertyEmpty "ranges"]

/-- The size of the buffer of `dt_init`. -/
def dtBufsize : Nat := 2048

/-- `dt_init`, for what `malloc` returns. -/
def dtInit (assumePerfect : Bool) (malloc : Option HostBuf) : Option (DeviceTree c) :=
  match malloc with
  | none => none
  | some buf =>
      match fdtCreate buf dtBufsize with
      | (_, some _) => none
      | (buf, none) =>
          match fdtFinishReservemap assumePerfect buf with
          | (_, some _) => none
          | (buf, none) =>
              let self : DeviceTree c := ⟨buf, 1#32, false, 0#32, 1#32, 0#32, 0#_, 0#_⟩
              (fdtChecked assumePerfect self (dtInitCalls c self.intcPhandle)).map
                fun self => { self with inSOC := true }

/-- `dt_addMemeory`. -/
def dtAddMemeory (self : DeviceTree c) (addr size : Addr c) : Option (DeviceTree c) :=
  if self.inSOC then some { self with memAddr := addr, memSize := size } else none

/-- The calls of `dt_addAclint`. -/
def dtAclintCalls (intcPhandle : BitVec 32) (addr size : Addr c) : List FdtCall :=
  [beginAddressedNode "clint" addr,
    propertyString "compatible" "riscv,clint0",
    writeReg' addr size,
    .property (cstr "interrupts-extended") (fdt32Array [intcPhandle, 3#32, intcPhandle, 7#32]),
    .endNode]

/-- `dt_addAclint`. -/
def dtAddAclint (assumePerfect : Bool) (self : DeviceTree c) (addr size : Addr c) :
    Option (DeviceTree c) :=
  if self.inSOC then fdtChecked assumePerfect self (dtAclintCalls self.intcPhandle addr size)
  else none

/-- The calls of `dt_addPlic`. -/
def dtPlicCalls (intcPhandle plicPhandle : BitVec 32) (addr size : Addr c) (irqs : BitVec 32) :
    List FdtCall :=
  [beginAddressedNode "interrupt-controller" addr,
    propertyU32 "phandle" plicPhandle,
    propertyU32 "riscv,ndev" 1#32,
    propertyEmpty "interrupt-controller",
    propertyU32 "#interrupt-cells" irqs,
    propertyU32 "#address-cells" 0#32,
    propertyString "compatible" "sifive,plic-1.0.0",
    writeReg' addr size,
    .property (cstr "interrupts-extended") (fdt32Array [intcPhandle, 11#32, intcPhandle, 9#32]),
    .endNode]

/-- `dt_addPlic`. -/
def dtAddPlic (assumePerfect : Bool) (self : DeviceTree c) (addr size : Addr c)
    (irqs : BitVec 32) : Option (DeviceTree c) :=
  if self.inSOC then
    let phandle := self.nextPhandle + 1#32
    fdtChecked assumePerfect { self with nextPhandle := phandle, plicPhandle := phandle }
      (dtPlicCalls self.intcPhandle phandle addr size irqs)
  else none

/-- The calls of `dt_addNs16550a`. The first UART gets a phandle; the interrupt is named when there
is one and a PLIC was added before. -/
def dtNs16550aCalls (newPhandle : Option (BitVec 32)) (plicPhandle : BitVec 32) (addr size : Addr c)
    (irq : BitVec 32) : List FdtCall :=
  [beginAddressedNode "serial" addr]
    ++ (match newPhandle with
      | some phandle => [propertyU32 "phandle" phandle]
      | none => [])
    ++ [propertyString "compatible" "ns16550a"]
    ++ (if irq != 0#32 && plicPhandle != 0#32 then
          [propertyU32 "interrupts" irq, propertyU32 "interrupt-parent" plicPhandle]
        else [])
    ++ [writeReg' addr size,
      propertyU32 "reg-shift" 0#32,
      propertyU32 "reg-io-width" 1#32,
      propertyU32 "clock-frequency" 1843200#32,
      propertyU32 "current-speed" 115200#32,
      propertyString "status" "okay",
      .endNode]

/-- `dt_addNs16550a`. -/
def dtAddNs16550a (assumePerfect : Bool) (self : DeviceTree c) (addr size : Addr c)
    (irq : BitVec 32) : Option (DeviceTree c) :=
  if self.inSOC then
    if self.uart0Phandle = 0#32 then
      let phandle := self.nextPhandle + 1#32
      fdtChecked assumePerfect { self with nextPhandle := phandle, uart0Phandle := phandle }
        (dtNs16550aCalls (some phandle) self.plicPhandle addr size irq)
    else fdtChecked assumePerfect self (dtNs16550aCalls none self.plicPhandle addr size irq)
  else none

/-- The calls of `dt_finish`. -/
def dtFinishCalls (memAddr memSize : Addr c) (uart0Phandle : BitVec 32) : List FdtCall :=
  [.endNode,
    beginAddressedNode "memory" memAddr,
    propertyString "device_type" "memory",
    writeReg' memAddr memSize,
    .endNode,
    .beginNode (cstr "chosen"),
    if uart0Phandle != 0#32 then propertyU32 "stdout-path" uart0Phandle
    else propertyString "bootargs" "console=ttyS0,115200",
    .endNode,
    .endNode]

/-- `dt_finish`. -/
def dtFinish (assumePerfect : Bool) (self : DeviceTree c) : Option (DeviceTree c) :=
  if self.inSOC then
    (fdtChecked assumePerfect { self with inSOC := false }
        (dtFinishCalls self.memAddr self.memSize self.uart0Phandle)).bind fun self =>
      match fdtFinish assumePerfect self.buf with
      | (buf, err) => if err = 0#32 then some { self with buf := buf } else none
  else none

/-- `dt_data` and `dt_size`: the blob. -/
def dtBlob (self : DeviceTree c) : List Byte :=
  self.buf.read 0 (fdtGetHeader self.buf .totalsize).toNat

/-- The first part of `_buildDeviceTree`: the blob for a RAM of `memSize` bytes. -/
def machineBlob (c : Cfg) (assumePerfect : Bool) (malloc : Option HostBuf) (memSize : Addr c) :
    Option (List Byte) := do
  let dt ← dtInit (c := c) assumePerfect malloc
  let dt ← dtAddMemeory dt ramBase memSize
  let dt ← dtAddAclint assumePerfect dt aclintBase (BitVec.ofNat _ aclintSize)
  let dt ← dtAddPlic assumePerfect dt plicBase (BitVec.ofNat _ plicSize)
    (BitVec.ofNat 32 plicInterrupts)
  let dt ← dtAddNs16550a assumePerfect dt uartBase (BitVec.ofNat _ ns16550aSize)
    (BitVec.ofNat 32 ns16550aIrq)
  let dt ← dtFinish assumePerfect dt
  pure (dtBlob dt)

end RV640
