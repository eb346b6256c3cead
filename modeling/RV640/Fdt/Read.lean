import RV640.Fdt.Write

set_option autoImplicit false

/-! # Reading a device tree (`libfdt/fdt.c`, `fdt_ro.c`)

The checks of the header and the walk over the structure block. The walk finds the calls that a
tree was written with.
-/

namespace RV640

open Bits Bytes

/-- `check_off_`. -/
def fdtCheckOff (hdrsize totalsize off : BitVec 32) : Bool := hdrsize ≤ off && off ≤ totalsize

/-- `check_block_`. -/
def fdtCheckBlock (hdrsize totalsize base size : BitVec 32) : Bool :=
  fdtCheckOff hdrsize totalsize base && !(base + size < base)
    && fdtCheckOff hdrsize totalsize (base + size)

/-- `fdt_header_size_`. -/
def fdtHeaderSize (version : BitVec 32) : BitVec 32 :=
  if version ≤ 1#32 then 28#32
  else if version ≤ 2#32 then 32#32
  else if version ≤ 16#32 then 36#32
  else 40#32

/-- `fdt_check_header` without assumptions, for a buffer that is aligned to 8 bytes. -/
def fdtCheckHeader (fdt : HostBuf) : Option FdtErr :=
  let version := fdtGetHeader fdt .version
  let totalsize := fdtGetHeader fdt .totalsize
  let hdrsize := fdtHeaderSize version
  if fdtGetHeader fdt .magic ≠ fdtMagic then some .badMagic
  else if version < fdtFirstSupportedVersion
      || fdtLastSupportedVersion < fdtGetHeader fdt .lastCompVersion then some .badVersion
  else if version < fdtGetHeader fdt .lastCompVersion then some .badVersion
  else if totalsize < hdrsize || 0x7fffffff#32 < totalsize then some .truncated
  else if fdtGetHeader fdt .offMemRsvmap % 8#32 != 0#32 then some .alignment
  else if fdtGetHeader fdt .offDtStruct % 4#32 != 0#32 then some .alignment
  else if !fdtCheckOff hdrsize totalsize (fdtGetHeader fdt .offMemRsvmap) then some .truncated
  else if version < 17#32 then
    if !fdtCheckOff hdrsize totalsize (fdtGetHeader fdt .offDtStruct) then some .truncated
    else if !fdtCheckBlock hdrsize totalsize (fdtGetHeader fdt .offDtStrings)
        (fdtGetHeader fdt .sizeDtStrings) then some .truncated
    else none
  else if !fdtCheckBlock hdrsize totalsize (fdtGetHeader fdt .offDtStruct)
      (fdtGetHeader fdt .sizeDtStruct) then some .truncated
  else if !fdtCheckBlock hdrsize totalsize (fdtGetHeader fdt .offDtStrings)
      (fdtGetHeader fdt .sizeDtStrings) then some .truncated
  else none

/-- `memchr(s, 0, len)`: the string at `p`, when it ends within `len` bytes. -/
def stringWithin (fdt : HostBuf) (p : Nat) : Nat → Option CString
  | 0 => none
  | len + 1 =>
      if h : fdt.data p = 0#8 then some ⟨[], List.not_mem_nil⟩
      else
        (stringWithin fdt (p + 1) len).map fun s =>
          ⟨fdt.data p :: s.chars,
            fun hm => (List.mem_cons.mp hm).elim (fun e => h e.symm) s.nonzero⟩

/-- `fdt_get_string` on a complete tree of a version from 17 on, without assumptions. -/
def fdtGetString (fdt : HostBuf) (stroffset : BitVec 32) : Option CString :=
  let totalsize := fdtGetHeader fdt .totalsize
  let absoffset := stroffset + fdtGetHeader fdt .offDtStrings
  let size := fdtGetHeader fdt .sizeDtStrings
  if totalsize ≤ absoffset || stroffset.slt 0#32 || size ≤ stroffset then none
  else
    let len := totalsize - absoffset
    stringWithin fdt absoffset.toNat
      (if size - stroffset < len then size - stroffset else len).toNat

/-- What stands at an offset: `struct fdt_node_header`, `struct fdt_property` or a tag alone. -/
def fdtTokenAt (fdt : HostBuf) (tag offset : BitVec 32) : Option FdtCall :=
  let p := (fdtGetHeader fdt .offDtStruct).toNat + offset.toNat
  if tag = fdtBeginNodeTag then
    (stringWithin fdt (p + 4) (fdtGetHeader fdt .sizeDtStruct).toNat).map .beginNode
  else if tag = fdtPropTag then
    (fdtGetString fdt (fdt32Ld fdt (p + 8))).map fun name =>
      .property name (fdt.read (p + 12) (fdt32Ld fdt (p + 4)).toNat)
  else some .endNode

/-- The walk over the structure block up to `FDT_END`. -/
def fdtWalk (assumePerfect : Bool) (fdt : HostBuf) : Nat → BitVec 32 → Option (List FdtCall)
  | 0, _ => none
  | fuel + 1, offset =>
      let (tag, nextoffset) := fdtNextTag assumePerfect fdt offset
      if tag = fdtEndTag then if nextoffset.slt 0#32 then none else some []
      else if tag = fdtNopTag then fdtWalk assumePerfect fdt fuel nextoffset
      else
        match fdtTokenAt fdt tag offset with
        | none => none
        | some t => (fdtWalk assumePerfect fdt fuel nextoffset).map (t :: ·)

/-- All of the structure block. -/
def fdtTokens (assumePerfect : Bool) (fdt : HostBuf) : Option (List FdtCall) :=
  fdtWalk assumePerfect fdt (fdtGetHeader fdt .sizeDtStruct).toNat 0#32

end RV640
