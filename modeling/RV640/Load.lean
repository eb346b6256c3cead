import RV640.Machine

set_option autoImplicit false

/-! # Loading an image (`main.c`)

`main` places the device tree blob at the top of RAM and then copies the kernel or binary image in,
chunk by chunk to the end of the file. The loaders read nothing back from RAM, so a loader is the
list of the `mem_write` calls it makes, with what it returns. The blob itself is the work of libfdt;
only its size matters here.
-/

namespace RV640

open Bits

variable {c : Cfg}

/-! ## The device tree blob -/

/-- `ALIGN_DOWN(mem_size + RAM_BASE - dtbSize, sizeof(cpu_addr_t))`. -/
def dtbAddress (c : Cfg) (memSize dtbSize : Nat) : Addr c :=
  (BitVec.ofNat _ memSize + ramBase - BitVec.ofNat _ dtbSize)
    &&& ~~~(BitVec.ofNat _ (c.alen / 8) - 1#_)

/-- The end of `_buildDeviceTree`, once libfdt has built the blob. The result of `bus_write` is not
looked at. -/
def buildDeviceTree (m : Machine c) (memSize : Nat) (blob : List Byte) : Machine c × Addr c :=
  let dtbAddress := dtbAddress c memSize blob.length
  ((busWrite m dtbAddress blob).getD m, dtbAddress)

/-! ## Files -/

/-- `FILE`: what is left to read, and the end-of-file indicator. -/
structure HostFile where
  rest : List Byte
  eof : Bool

/-- `fread(buf, 1, n, f)`: the next `min n remaining` bytes. A short read sets the indicator. -/
def fread (f : HostFile) (n : Nat) : List Byte × HostFile :=
  (f.rest.take n, ⟨f.rest.drop n, f.eof || decide (f.rest.length < n)⟩)

/-- What the host gives a loader: the bytes of the file, if it opens, and whether the buffer is
allocated. -/
structure LoadEnv where
  file : Option (List Byte)
  alloc : Bool

/-! ## The loaders -/

/-- `512 * sizeof(cpu_word_t)`. -/
def bufSize (c : Cfg) : Nat := 512 * (c.xlen / 8)

theorem bufSize_pos (c : Cfg) : 0 < bufSize c := by cases c <;> decide

/-- A call of a loader: the arguments of `mem_write`, in order, and the entry point. -/
structure Load (c : Cfg) where
  writes : List (Addr c × List Byte)
  entry : Addr c

/-- `return 0` before anything is written. -/
def Load.fail : Load c := ⟨[], 0#_⟩

/-- `while(!feof(f))`: one chunk after the other to `ptr`. -/
def loadLoop (f : HostFile) (ptr : Addr c) : List (Addr c × List Byte) :=
  if f.eof then []
  else
    let r := fread f (bufSize c)
    (ptr, r.1) :: loadLoop r.2 (ptr + BitVec.ofNat _ r.1.length)
termination_by if f.eof then 0 else f.rest.length + 1
decreasing_by
  rename_i heof
  have hpos := bufSize_pos c
  rw [if_neg heof]
  simp only [fread, List.length_drop]
  -- a short read sets the indicator, any other one takes bytes off the file
  split
  · omega
  · rename_i h
    simp only [Bool.or_eq_true, decide_eq_true_eq, not_or] at h
    omega

/-- `((uint64_t *)buf)[1]`. -/
def textOffset (buf : List Byte) : BitVec 64 := ofBytes ((buf.drop 8).take 8)

/-- `((uint64_t *)buf)[6]`. -/
def magic1 (buf : List Byte) : BitVec 64 := ofBytes ((buf.drop 48).take 8)

/-- The bytes of `((uint32_t *)buf)[14]`. -/
def magic2 (buf : List Byte) : List Byte := (buf.drop 56).take 4

/-- The test of the two magic numbers: `0x5643534952` and `"RSC\x05"`. -/
def isLinuxImage (buf : List Byte) : Bool :=
  magic1 buf == 0x5643534952#64 && magic2 buf == [0x52#8, 0x53#8, 0x43#8, 0x05#8]

/-- `_loadLinuxImage`. -/
def loadLinuxImage (env : LoadEnv) (memBase : Addr c) : Load c :=
  match env.file with
  | none => .fail
  | some file =>
      if env.alloc then
        let (buf, f) := fread ⟨file, false⟩ (bufSize c)
        if buf.length < bufSize c then .fail
        else if isLinuxImage buf then
          let textPtr : Addr c := (textOffset buf).setWidth _
          { writes := (textPtr, buf) :: loadLoop f (textPtr + BitVec.ofNat _ buf.length)
            entry := (textOffset buf + memBase.setWidth 64).setWidth _ }
        else .fail
      else .fail

/-- `_loadBin`. -/
def loadBin (env : LoadEnv) (memBase : Addr c) : Load c :=
  match env.file with
  | none => .fail
  | some file => if env.alloc then ⟨loadLoop ⟨file, false⟩ 0#_, memBase⟩ else .fail

/-- What `main` loads: `--kernel` or `--bin`. -/
inductive ImageKind where
  | kernel
  | bin
  deriving DecidableEq

/-- The choice of `main`. -/
def loadImage (kind : ImageKind) (env : LoadEnv) : Load c :=
  match kind with
  | .kernel => loadLinuxImage env ramBase
  | .bin => loadBin env ramBase

/-- The RAM after the calls of `mem_write`. -/
def memWrites (self : Memory) (writes : List (Addr c × List Byte)) : Memory :=
  writes.foldl (fun ram w => memWrite ram w.1.toNat w.2) self

end RV640
