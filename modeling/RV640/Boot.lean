import RV640.Cpu.Run
import RV640.DeviceTree

set_option autoImplicit false

/-! # From the command line to the main loop (`main.c`)

`main` on the Linux build: the options, the machine, the device tree, the image and the start of the
hart. Every failure ends the program, so `none` stands for it. What the host gives is a parameter.
-/

namespace RV640

open Bits

variable {c : Cfg}

/-! ## Options -/

/-- What `getopt_long` returns, with the argument; a number is what `strtoul` makes of it. -/
inductive Arg where
  | kernel (file : String)
  | bin (file : String)
  | swap (location : String)
  | swapFiles (n : Nat)
  | noSbi
  | memSize (n : Nat)
  | unknown
  deriving DecidableEq

/-- `_opts`. -/
structure Opts where
  kernelFile : Option String
  binFile : Option String
  swapLocation : Option String
  nSwapFiles : Nat
  noSBI : Bool
  memSizeMb : Nat
  deriving DecidableEq

/-- `_opts` before the first argument. -/
def optsInit : Opts := ⟨none, none, none, 0, false, 0⟩

/-- One round of the loop of `_parseArgs`. The two swap options are known to the DOS build only, and
a number is converted to an `unsigned int`. -/
def parseArg (dos : Bool) (uintBits : Nat) (opts : Opts) : Arg → Option Opts
  | .kernel file => some { opts with kernelFile := some file }
  | .bin file => some { opts with binFile := some file }
  | .swap location => if dos then some { opts with swapLocation := some location } else none
  | .swapFiles n => if dos then some { opts with nSwapFiles := n % 2 ^ uintBits } else none
  | .noSbi => some { opts with noSBI := true }
  | .memSize n => some { opts with memSizeMb := n % 2 ^ uintBits }
  | .unknown => none

/-- The loop of `_parseArgs`. -/
def parseArgLoop (dos : Bool) (uintBits : Nat) (opts : Opts) : List Arg → Option Opts
  | [] => some opts
  | arg :: args =>
      match parseArg dos uintBits opts arg with
      | none => none
      | some opts => parseArgLoop dos uintBits opts args

/-- The checks of `_parseArgs` behind the loop. -/
def checkOpts (dos : Bool) (opts : Opts) : Option Opts :=
  if opts.kernelFile.isSome && opts.binFile.isSome then none
  else if opts.kernelFile.isNone && opts.binFile.isNone then none
  else if opts.memSizeMb < 1 || 1024 < opts.memSizeMb then none
  else if dos then
    if opts.swapLocation.isNone then none
    else
      let opts := if opts.nSwapFiles = 0 then { opts with nSwapFiles := 1 } else opts
      if opts.nSwapFiles ≠ 1 ∧ opts.nSwapFiles ≠ 2 ∧ opts.nSwapFiles ≠ 4 ∧ opts.nSwapFiles ≠ 8 then
        none
      else some opts
  else some opts

/-- `_parseArgs`. -/
def parseArgs (dos : Bool) (uintBits : Nat) (args : List Arg) : Option Opts :=
  (parseArgLoop dos uintBits optsInit args).bind (checkOpts dos)

/-! ## The machine -/

/-- The calls of `bus_register`, for a RAM of `memSize` bytes. -/
def registerDevices (c : Cfg) (memSize : Nat) : Option (Bus c DevKind) := do
  let bus ← busRegister busInit ramBase ⟨BitVec.ofNat _ memSize, .ram⟩
  let bus ← busRegister bus aclintBase ⟨BitVec.ofNat _ aclintSize, .aclint⟩
  let bus ← busRegister bus plicBase ⟨BitVec.ofNat _ plicSize, .plic⟩
  busRegister bus uartBase ⟨BitVec.ofNat _ ns16550aSize, .uart⟩

/-- What the host gives `main`: the block for the RAM and the buffer for the device tree, when they
are allocated, and the files. -/
structure HostEnv where
  ram : Option Memory
  dtb : Option HostBuf
  file : String → LoadEnv

/-- `_loadLinuxImage` or `_loadBin`, as the options say. -/
def loadOption (env : HostEnv) (opts : Opts) : Load c :=
  match opts.kernelFile with
  | some file => loadLinuxImage (env.file file) ramBase
  | none => loadBin (env.file (opts.binFile.getD "")) ramBase

/-- The start of the hart: in M-mode, or by the built-in SBI. -/
def startHart (m : Machine c) (noSBI : Bool) (entryPoint dtbAddress : Addr c) : Machine c :=
  if noSBI then
    let m := rvReset m .machine entryPoint
    { m with
      cpu := rvPokeRx (rvPokeRx m.cpu regA0 m.cpu.csr.mhartid) regA1 (dtbAddress.setWidth _) }
  else sbiStartHart m entryPoint (dtbAddress.setWidth _)

/-- `main` up to the main loop. -/
def boot (c : Cfg) (uintBits : Nat) (assumePerfect : Bool) (args : List Arg) (env : HostEnv) :
    Option (Machine c) := do
  let opts ← parseArgs false uintBits args
  let memSize := opts.memSizeMb * 1024 * 1024
  let ram ← env.ram
  let bus ← registerDevices c memSize
  let m := vmInit bus ram (!opts.noSBI)
  let blob ← machineBlob c assumePerfect env.dtb (BitVec.ofNat _ memSize)
  let (m, dtbAddress) := buildDeviceTree m memSize blob
  if dtbAddress = 0#_ then none
  else
    let load := loadOption env opts
    if load.entry = 0#_ then none
    else
      some (startHart { m with ram := memWrites m.ram load.writes } opts.noSBI load.entry
        dtbAddress)

end RV640
