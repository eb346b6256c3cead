import RV640.Fdt.Blob

set_option autoImplicit false

/-! # Writing a device tree in sequence (`libfdt/fdt_sw.c`)

The structure block grows upwards behind the header and the reserve map, the strings block downwards
from the end of the buffer, and `fdt_finish` moves the two together. A function returns the buffer,
also when it fails, and its error; `none` is the result 0.
-/

namespace RV640

open Bits Bytes

/-! ## States of the writer -/

/-- `fdt_sw_probe_`. -/
def fdtSwProbe (assumePerfect : Bool) (fdt : HostBuf) : Option FdtErr :=
  if assumePerfect then none
  else if fdtGetHeader fdt .magic = fdtMagic then some .badState
  else if fdtGetHeader fdt .magic ≠ fdtSwMagic then some .badMagic
  else none

/-- `fdt_sw_probe_memrsv_`. -/
def fdtSwProbeMemrsv (assumePerfect : Bool) (fdt : HostBuf) : Option FdtErr :=
  match fdtSwProbe assumePerfect fdt with
  | some err => some err
  | none =>
      if !assumePerfect && fdtGetHeader fdt .offDtStrings != 0#32 then some .badState else none

/-- `fdt_sw_probe_struct_`. -/
def fdtSwProbeStruct (assumePerfect : Bool) (fdt : HostBuf) : Option FdtErr :=
  match fdtSwProbe assumePerfect fdt with
  | some err => some err
  | none =>
      if !assumePerfect && fdtGetHeader fdt .offDtStrings != fdtGetHeader fdt .totalsize then
        some .badState
      else none

/-! ## Creation -/

/-- The size of the header, aligned to that of an entry of the reserve map. -/
def fdtHdrsize : Nat := 48

/-- `FDT_CREATE_FLAG_NO_NAME_DEDUP`, the only flag. -/
def fdtCreateFlagNoNameDedup : BitVec 32 := 1#32

/-- `fdt_create_with_flags`. -/
def fdtCreateWithFlags (buf : HostBuf) (bufsize : Nat) (flags : BitVec 32) :
    HostBuf × Option FdtErr :=
  if bufsize < fdtHdrsize then (buf, some .noSpace)
  else if flags &&& ~~~fdtCreateFlagNoNameDedup != 0#32 then (buf, some .badFlags)
  else
    let fdt := buf.write 0 (List.replicate bufsize 0#8)
    let fdt := fdtSetHeader fdt .magic fdtSwMagic
    let fdt := fdtSetHeader fdt .version fdtLastSupportedVersion
    let fdt := fdtSetHeader fdt .lastCompVersion flags
    let fdt := fdtSetHeader fdt .totalsize (BitVec.ofNat 32 bufsize)
    let fdt := fdtSetHeader fdt .offMemRsvmap (BitVec.ofNat 32 fdtHdrsize)
    let fdt := fdtSetHeader fdt .offDtStruct (fdtGetHeader fdt .offMemRsvmap)
    (fdtSetHeader fdt .offDtStrings 0#32, none)

/-- `fdt_create`. -/
def fdtCreate (buf : HostBuf) (bufsize : Nat) : HostBuf × Option FdtErr :=
  fdtCreateWithFlags buf bufsize 0#32

/-- `fdt_add_reservemap_entry`. -/
def fdtAddReservemapEntry (assumePerfect : Bool) (fdt : HostBuf) (addr size : BitVec 64) :
    HostBuf × Option FdtErr :=
  match fdtSwProbeMemrsv assumePerfect fdt with
  | some err => (fdt, some err)
  | none =>
      let offset := (fdtGetHeader fdt .offDtStruct).toNat
      if (fdtGetHeader fdt .totalsize).toNat < offset + 16 then (fdt, some .noSpace)
      else
        let fdt := (fdt.write offset (beBytes 8 addr)).write (offset + 8) (beBytes 8 size)
        (fdtSetHeader fdt .offDtStruct (BitVec.ofNat 32 (offset + 16)), none)

/-- `fdt_finish_reservemap`. -/
def fdtFinishReservemap (assumePerfect : Bool) (fdt : HostBuf) : HostBuf × Option FdtErr :=
  match fdtAddReservemapEntry assumePerfect fdt 0#64 0#64 with
  | (fdt, some err) => (fdt, some err)
  | (fdt, none) => (fdtSetHeader fdt .offDtStrings (fdtGetHeader fdt .totalsize), none)

/-! ## Nodes -/

/-- `fdt_grab_space_`; `none` is `NULL`. The sum of the two sizes does not wrap in a `size_t`. -/
def fdtGrabSpace (fdt : HostBuf) (len : Nat) : Option (HostBuf × Nat) :=
  let offset := fdtGetHeader fdt .sizeDtStruct
  let spaceleft := fdtGetHeader fdt .totalsize - fdtGetHeader fdt .offDtStruct
    - fdtGetHeader fdt .sizeDtStrings
  if spaceleft.toNat < offset.toNat + len then none
  else
    some (fdtSetHeader fdt .sizeDtStruct (BitVec.ofNat 32 (offset.toNat + len)),
      (fdtGetHeader fdt .offDtStruct).toNat + offset.toNat)

/-- `fdt_begin_node`. -/
def fdtBeginNode (assumePerfect : Bool) (fdt : HostBuf) (name : CString) :
    HostBuf × Option FdtErr :=
  match fdtSwProbeStruct assumePerfect fdt with
  | some err => (fdt, some err)
  | none =>
      let namelen := name.length + 1
      match fdtGrabSpace fdt (4 + fdtTagAlign namelen) with
      | none => (fdt, some .noSpace)
      | some (fdt, nh) => ((fdt32St fdt nh fdtBeginNodeTag).write (nh + 4) name.bytes, none)

/-- `fdt_end_node`. -/
def fdtEndNode (assumePerfect : Bool) (fdt : HostBuf) : HostBuf × Option FdtErr :=
  match fdtSwProbeStruct assumePerfect fdt with
  | some err => (fdt, some err)
  | none =>
      match fdtGrabSpace fdt 4 with
      | none => (fdt, some .noSpace)
      | some (fdt, en) => (fdt32St fdt en fdtEndNodeTag, none)

/-! ## Properties -/

/-- `fdt_add_string_`: the offset from the end of the buffer, 0 when there is no room. The test is
one of `unsigned int`: a string that is longer than the buffer passes it, and is written from before
the buffer on. -/
def fdtAddString (fdt : HostBuf) (s : CString) : HostBuf × BitVec 32 :=
  let strtab := (fdtGetHeader fdt .totalsize).toNat
  let strtabsize := fdtGetHeader fdt .sizeDtStrings
  let len := BitVec.ofNat 32 (s.length + 1)
  let offset := strtabsize + len
  let structTop := fdtGetHeader fdt .offDtStruct + fdtGetHeader fdt .sizeDtStruct
  if fdtGetHeader fdt .totalsize - offset < structTop then (fdt, 0#32)
  else
    (fdtSetHeader (fdt.writeBefore strtab offset.toNat s.bytes) .sizeDtStrings (strtabsize + len),
      -offset)

/-- `fdt_del_last_string_`. -/
def fdtDelLastString (fdt : HostBuf) (s : CString) : HostBuf :=
  fdtSetHeader fdt .sizeDtStrings
    (fdtGetHeader fdt .sizeDtStrings - BitVec.ofNat 32 (s.length + 1))

/-- `fdt_find_add_string_`, with `allocated`. -/
def fdtFindAddString (fdt : HostBuf) (s : CString) : HostBuf × BitVec 32 × Bool :=
  let strtab := (fdtGetHeader fdt .totalsize).toNat
  let strtabsize := (fdtGetHeader fdt .sizeDtStrings).toNat
  match fdtFindString fdt (strtab - strtabsize) strtabsize s with
  | some p => (fdt, BitVec.ofNat 32 p - BitVec.ofNat 32 strtabsize, false)
  | none =>
      let (fdt, nameoff) := fdtAddString fdt s
      (fdt, nameoff, true)

/-- The choice of `fdt_property_placeholder`: names are shared unless the flag forbids it. -/
def fdtNameoff (fdt : HostBuf) (name : CString) : HostBuf × BitVec 32 × Bool :=
  if fdtGetHeader fdt .lastCompVersion &&& fdtCreateFlagNoNameDedup != 0#32 then
    let (fdt, nameoff) := fdtAddString fdt name
    (fdt, nameoff, true)
  else fdtFindAddString fdt name

/-- `fdt_property_placeholder`, with `*valp`. -/
def fdtPropertyPlaceholder (assumePerfect : Bool) (fdt : HostBuf) (name : CString) (len : Nat) :
    HostBuf × Option FdtErr × Nat :=
  match fdtSwProbeStruct assumePerfect fdt with
  | some err => (fdt, some err, 0)
  | none =>
      let (fdt, nameoff, allocated) := fdtNameoff fdt name
      if nameoff = 0#32 then (fdt, some .noSpace, 0)
      else
        match fdtGrabSpace fdt (12 + fdtTagAlign len) with
        | none => (if allocated then fdtDelLastString fdt name else fdt, some .noSpace, 0)
        | some (fdt, prop) =>
            let fdt := fdt32St fdt prop fdtPropTag
            let fdt := fdt32St fdt (prop + 8) nameoff
            (fdt32St fdt (prop + 4) (BitVec.ofNat 32 len), none, prop + 12)

/-- `fdt_property`. -/
def fdtProperty (assumePerfect : Bool) (fdt : HostBuf) (name : CString) (val : List Byte) :
    HostBuf × Option FdtErr :=
  match fdtPropertyPlaceholder assumePerfect fdt name val.length with
  | (fdt, some err, _) => (fdt, some err)
  | (fdt, none, ptr) => (fdt.write ptr val, none)

/-! ## Calls -/

/-- The calls between `fdt_finish_reservemap` and `fdt_finish`. -/
inductive FdtCall where
  | beginNode (name : CString)
  | property (name : CString) (val : List Byte)
  | endNode
  deriving DecidableEq

/-- One call. -/
def FdtCall.run (assumePerfect : Bool) (fdt : HostBuf) : FdtCall → HostBuf × Option FdtErr
  | beginNode name => fdtBeginNode assumePerfect fdt name
  | property name val => fdtProperty assumePerfect fdt name val
  | endNode => fdtEndNode assumePerfect fdt

/-! ## The end -/

/-- The loop of `fdt_finish` over the structure block, with the `nextoffset` it ends with. Every tag
takes space, so the size of the block is fuel enough. -/
def fdtCorrectOffsets (assumePerfect : Bool) : Nat → HostBuf → BitVec 32 → HostBuf × BitVec 32
  | 0, fdt, _ => (fdt, FdtErr.badStructure.code)
  | fuel + 1, fdt, offset =>
      let (tag, nextoffset) := fdtNextTag assumePerfect fdt offset
      if tag = fdtEndTag then (fdt, nextoffset)
      else
        let fdt :=
          if tag = fdtPropTag then
            let prop := (fdtGetHeader fdt .offDtStruct).toNat + offset.toNat
            fdt32St fdt (prop + 8) (fdt32Ld fdt (prop + 8) + fdtGetHeader fdt .sizeDtStrings)
          else fdt
        fdtCorrectOffsets assumePerfect fuel fdt nextoffset

/-- `fdt_finish`; the error of the walk is the number it ends with. -/
def fdtFinish (assumePerfect : Bool) (fdt : HostBuf) : HostBuf × BitVec 32 :=
  match fdtSwProbeStruct assumePerfect fdt with
  | some err => (fdt, err.code)
  | none =>
      match fdtGrabSpace fdt 4 with
      | none => (fdt, FdtErr.noSpace.code)
      | some (fdt, fin) =>
          let fdt := fdt32St fdt fin fdtEndTag
          let oldstroffset := fdtGetHeader fdt .totalsize - fdtGetHeader fdt .sizeDtStrings
          let newstroffset := fdtGetHeader fdt .offDtStruct + fdtGetHeader fdt .sizeDtStruct
          let fdt := fdt.write newstroffset.toNat
            (fdt.read oldstroffset.toNat (fdtGetHeader fdt .sizeDtStrings).toNat)
          let fdt := fdtSetHeader fdt .offDtStrings newstroffset
          let (fdt, nextoffset) :=
            fdtCorrectOffsets assumePerfect (fdtGetHeader fdt .sizeDtStruct).toNat fdt 0#32
          if nextoffset.slt 0#32 then (fdt, nextoffset)
          else
            let fdt :=
              fdtSetHeader fdt .totalsize (newstroffset + fdtGetHeader fdt .sizeDtStrings)
            let fdt := fdtSetHeader fdt .lastCompVersion fdtLastCompatibleVersion
            (fdtSetHeader fdt .magic fdtMagic, 0#32)

end RV640
