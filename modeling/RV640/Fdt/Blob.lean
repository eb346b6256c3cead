import RV640.Lib.BigEndian

set_option autoImplicit false

/-! # A flattened device tree in a buffer (`libfdt/fdt.h`, `fdt.c`)

The buffer is host memory from the pointer `fdt` on; a pointer into it is its distance from there.
The header is ten words at its start, highest byte first. `int` and `unsigned int` are words of 32
bits. `assumePerfect` is the switch `FDT_ASSUME_MASK` of the build: off on Linux, all set on DOS.
-/

namespace RV640

open Bits Bytes

/-- Host memory from a pointer on. -/
structure HostBuf where
  data : Nat → Byte

/-- `memcpy` out of a buffer. -/
def HostBuf.read (buf : HostBuf) (p n : Nat) : List Byte := readAt buf.data p n

/-- `memcpy` into a buffer. -/
def HostBuf.write (buf : HostBuf) (p : Nat) (bs : List Byte) : HostBuf := ⟨writeAt buf.data p bs⟩

/-- `memcpy` to `n` bytes before the position `p`. What lands before the pointer is in memory that
the buffer does not have. -/
def HostBuf.writeBefore (buf : HostBuf) (p n : Nat) (bs : List Byte) : HostBuf :=
  buf.write (p - n) (bs.drop (n - p))

/-- A string without its terminating 0. -/
structure CString where
  chars : List Byte
  nonzero : 0#8 ∉ chars
  deriving DecidableEq

/-- The bytes of a string in memory. -/
def CString.bytes (s : CString) : List Byte := s.chars ++ [0#8]

/-- `strlen`. -/
def CString.length (s : CString) : Nat := s.chars.length

@[simp] theorem CString.bytes_length (s : CString) : s.bytes.length = s.length + 1 := by
  simp [CString.bytes, CString.length]

/-- The string at the start of some bytes. -/
def cstrOfBytes (bs : List Byte) : CString :=
  ⟨bs.takeWhile (· != 0#8), fun h => by
    have := List.all_eq_true.mp List.all_takeWhile _ h
    simp at this⟩

/-- A string literal. -/
def cstr (s : String) : CString := cstrOfBytes (s.toList.map fun ch => BitVec.ofNat 8 ch.toNat)

/-- `FDT_TAGALIGN`. -/
def fdtTagAlign (x : Nat) : Nat := (x + 3) / 4 * 4

/-- `FDT_ERR_*`, as far as the functions here return them. -/
inductive FdtErr where
  | noSpace | badState | truncated | badMagic | badVersion | badStructure | badFlags | alignment
  deriving DecidableEq, Repr

/-- The value that is returned for an error. -/
def FdtErr.code : FdtErr → BitVec 32
  | noSpace => -3#32
  | badState => -7#32
  | truncated => -8#32
  | badMagic => -9#32
  | badVersion => -10#32
  | badStructure => -11#32
  | badFlags => -18#32
  | alignment => -19#32

/-! ## The header -/

/-- The fields of `struct fdt_header`. -/
inductive FdtField where
  | magic | totalsize | offDtStruct | offDtStrings | offMemRsvmap | version | lastCompVersion
  | bootCpuidPhys | sizeDtStrings | sizeDtStruct
  deriving DecidableEq, Repr

/-- Where a field stands. -/
def FdtField.offset : FdtField → Nat
  | magic => 0
  | totalsize => 4
  | offDtStruct => 8
  | offDtStrings => 12
  | offMemRsvmap => 16
  | version => 20
  | lastCompVersion => 24
  | bootCpuidPhys => 28
  | sizeDtStrings => 32
  | sizeDtStruct => 36

/-- `fdt32_to_cpu(*p)`. -/
def fdt32Ld (fdt : HostBuf) (p : Nat) : BitVec 32 := ldBe 4 fdt.data p

/-- `*p = cpu_to_fdt32(val)`. -/
def fdt32St (fdt : HostBuf) (p : Nat) (val : BitVec 32) : HostBuf := ⟨stBe 4 fdt.data p val⟩

/-- `fdt_get_header(fdt, field)`. -/
def fdtGetHeader (fdt : HostBuf) (field : FdtField) : BitVec 32 := fdt32Ld fdt field.offset

/-- `fdt_set_<field>(fdt, val)`. -/
def fdtSetHeader (fdt : HostBuf) (field : FdtField) (val : BitVec 32) : HostBuf :=
  fdt32St fdt field.offset val

/-- `FDT_MAGIC`, `FDT_SW_MAGIC`. -/
def fdtMagic : BitVec 32 := 0xd00dfeed#32
def fdtSwMagic : BitVec 32 := ~~~fdtMagic

/-- `FDT_FIRST_SUPPORTED_VERSION`, `FDT_LAST_COMPATIBLE_VERSION`, `FDT_LAST_SUPPORTED_VERSION`. -/
def fdtFirstSupportedVersion : BitVec 32 := 0x02#32
def fdtLastCompatibleVersion : BitVec 32 := 0x10#32
def fdtLastSupportedVersion : BitVec 32 := 0x11#32

/-! ## The structure block -/

/-- `FDT_BEGIN_NODE`, `FDT_END_NODE`, `FDT_PROP`, `FDT_NOP`, `FDT_END`. -/
def fdtBeginNodeTag : BitVec 32 := 1#32
def fdtEndNodeTag : BitVec 32 := 2#32
def fdtPropTag : BitVec 32 := 3#32
def fdtNopTag : BitVec 32 := 4#32
def fdtEndTag : BitVec 32 := 9#32

/-- `fdt_offset_ptr`; `none` is `NULL`. -/
def fdtOffsetPtr (assumePerfect : Bool) (fdt : HostBuf) (offset len : BitVec 32) : Option Nat :=
  let absoffset := offset + fdtGetHeader fdt .offDtStruct
  if offset.slt 0#32 then none
  else if !assumePerfect && (absoffset < offset || absoffset + len < absoffset
      || fdtGetHeader fdt .totalsize < absoffset + len) then none
  else if (assumePerfect || 0x11#32 ≤ fdtGetHeader fdt .version)
      && (offset + len < offset || fdtGetHeader fdt .sizeDtStruct < offset + len) then none
  else some ((fdtGetHeader fdt .offDtStruct).toNat + offset.toNat)

/-- The loop over the name of a node: the offset behind the terminating 0. The name is shorter than
the structure block, whose size is the fuel. -/
def fdtSkipName (assumePerfect : Bool) (fdt : HostBuf) : Nat → BitVec 32 → Option (BitVec 32)
  | 0, _ => none
  | fuel + 1, offset =>
      match fdtOffsetPtr assumePerfect fdt offset 1#32 with
      | none => none
      | some p =>
          if fdt.data p = 0#8 then some (offset + 1#32)
          else fdtSkipName assumePerfect fdt fuel (offset + 1#32)

/-- `FDT_TAGALIGN` of an `int`. -/
def fdtTagAlignInt (x : BitVec 32) : BitVec 32 := (x + 4#32 - 1#32) &&& ~~~(4#32 - 1#32)

/-- The end of `fdt_next_tag`, for a tag from `startoffset` to `offset`. -/
def fdtTagEnd (assumePerfect : Bool) (fdt : HostBuf) (tag startoffset offset : BitVec 32) :
    BitVec 32 × BitVec 32 :=
  match fdtOffsetPtr assumePerfect fdt startoffset (offset - startoffset) with
  | none => (fdtEndTag, FdtErr.badStructure.code)
  | some _ => (tag, fdtTagAlignInt offset)

/-- `fdt_next_tag`: the tag at `startoffset` and the next offset or the negative error. -/
def fdtNextTag (assumePerfect : Bool) (fdt : HostBuf) (startoffset : BitVec 32) :
    BitVec 32 × BitVec 32 :=
  match fdtOffsetPtr assumePerfect fdt startoffset 4#32 with
  | none => (fdtEndTag, FdtErr.truncated.code)
  | some tagp =>
      let tag := fdt32Ld fdt tagp
      let offset := startoffset + 4#32
      if tag = fdtBeginNodeTag then
        match fdtSkipName assumePerfect fdt (fdtGetHeader fdt .sizeDtStruct).toNat offset with
        | none => (fdtEndTag, FdtErr.badStructure.code)
        | some offset => fdtTagEnd assumePerfect fdt tag startoffset offset
      else if tag = fdtPropTag then
        match fdtOffsetPtr assumePerfect fdt offset 4#32 with
        | none => (fdtEndTag, FdtErr.badStructure.code)
        | some lenp =>
            let len := fdt32Ld fdt lenp
            let sum := len + offset
            if !assumePerfect && (0x7fffffff#32 ≤ sum || sum < offset) then
              (fdtEndTag, FdtErr.badStructure.code)
            else
              -- the header of a property has three words
              let offset := offset + 8#32 + len
              let offset :=
                if !assumePerfect && fdtGetHeader fdt .version < 0x10#32 && 8#32 ≤ len
                    && (offset - len) % 8#32 != 0#32 then offset + 4#32
                else offset
              fdtTagEnd assumePerfect fdt tag startoffset offset
      else if tag = fdtEndTag || tag = fdtEndNodeTag || tag = fdtNopTag then
        fdtTagEnd assumePerfect fdt tag startoffset offset
      else (fdtEndTag, FdtErr.badStructure.code)

/-! ## The strings block -/

/-- `fdt_find_string_(strtab, tabsize, s)`: the index of the first place that holds the string and
its terminating 0. -/
def fdtFindString (fdt : HostBuf) (strtab tabsize : Nat) (s : CString) : Option Nat :=
  (List.range (tabsize - s.length)).find? fun i =>
    fdt.read (strtab + i) s.length = s.chars && fdt.data (strtab + i + s.length) = 0#8

end RV640
