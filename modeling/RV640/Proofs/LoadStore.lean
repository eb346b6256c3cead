import RV640.Lib.LittleEndian
import RV640.Proofs.ControlTransfer
import RV640.Proofs.DecoderExact

set_option autoImplicit false

/-! # A load after a store

What a load of RAM returns, byte by byte, after a store of any size: the bytes the store wrote where
the two ranges overlap, and the bytes that were there before it elsewhere. Neither access needs to
be aligned, and the address is a register plus the offset of the instruction.
-/

namespace RV640

open Bits Riscv

variable {c : Cfg}

/-! ## Addresses and bytes -/

/-- The address of a load or store, by the specification. -/
def effectiveAddr (s : Cpu c) (rs1 : RegNo) (imm : BitVec 12) : Addr c :=
  (readReg s rs1).setWidth _ + BitVec.ofInt _ imm.toInt

/-- The bytes that the `funct3` of a load or store names; bit 2 of a load is its signedness. -/
def storeSize (funct3 : BitVec 3) : Nat := 1 <<< funct3.toNat
def loadSize (funct3 : BitVec 3) : Nat := 1 <<< (funct3 &&& 3#3).toNat

/-- The byte of RAM at an address. -/
def ramByte (m : Machine c) (addr : Nat) : Byte := m.ram.data (addr - 0x80000000)

/-- The byte at an address after the `size` low bytes of `x` were stored at `a`. -/
def storedByte {w : Nat} (m : Machine c) (a size : Nat) (x : BitVec w) (addr : Nat) : Byte :=
  if a ≤ addr ∧ addr < a + size then getByte x (addr - a) else ramByte m addr

/-- The word of a load: its bytes, lowest first, extended from their own width. -/
def loadedWord (c : Cfg) (signed : Bool) (bs : List Byte) : Word c :=
  let x : BitVec (8 * bs.length) := ofBytes bs
  if signed then x.signExtend _ else x.setWidth _

/-- The decoded offset is added in the width of a register, and the sum is cut to an address. -/
theorem memAddr_place (m : Machine c) (rs1 : RegNo) (imm : BitVec 12) :
    memAddr m (place imm 0) rs1 = effectiveAddr m.cpu rs1 imm := by
  have hoffset : Bits.signExtend ((place imm 0 : BitVec 32).setWidth c.alen) 11
      = BitVec.ofInt c.alen imm.toInt :=
    signExtend_bytes imm (by decide) (Nat.lt_of_lt_of_le (by decide) c.alen_ge)
  rw [memAddr, hoffset, BitVec.setWidth_add _ _ c.alen_le_xlen,
    BitVec.setWidth_setWidth_of_le _ c.alen_le_xlen, BitVec.setWidth_eq]
  rfl

/-- A nonempty range of bytes, as a load extends it. -/
theorem loadedWord_eq (signed : Bool) {bs : List Byte} (hpos : 0 < bs.length)
    (hw : bs.length ≤ c.wordBytes) :
    (if signed then signExtend (ofBytes bs : Word c) (bs.length * 8 - 1) else ofBytes bs)
      = loadedWord c signed bs := by
  have hbits : 8 * bs.length ≤ c.xlen := by
    have : c.wordBytes * 8 = c.xlen := by cases c <;> rfl
    omega
  cases signed with
  | true => exact signExtend_ofBytes hpos hbits
  | false => exact (setWidth_ofBytes (Nat.le_refl _)).symm

/-- The bytes a read of RAM returns. -/
theorem memRead_ramByte (m : Machine c) {addr : Addr c} (h : 0x80000000 ≤ addr.toNat) (size : Nat) :
    memRead m.ram (ramOffset addr) size
      = (List.range size).map fun k => ramByte m (addr.toNat + k) := by
  unfold memRead
  apply List.map_congr_left
  intro k _
  unfold ramByte ramOffset
  refine congrArg m.ram.data ?_
  omega

theorem one_shiftLeft_pos (k : Nat) : 0 < 1 <<< k := by
  rw [Nat.one_shiftLeft]
  exact Nat.two_pow_pos k

/-! ## The two instructions -/

/-- The bytes of RAM after a store. -/
theorem ramByte_store {w : Nat} {m m1 : Machine c} (a : Addr c) (size : Nat) (x : BitVec w)
    (ha : 0x80000000 ≤ a.toNat) (hram : m1.ram = memWrite m.ram (ramOffset a) (toBytes size x))
    {addr : Nat} (haddr : 0x80000000 ≤ addr) :
    ramByte m1 addr = storedByte m a.toNat size x addr := by
  have hrange : (ramOffset a ≤ addr - 0x80000000
      ∧ addr - 0x80000000 < ramOffset a + (toBytes size x).length)
        ↔ (a.toNat ≤ addr ∧ addr < a.toNat + size) := by
    rw [toBytes_length]
    unfold ramOffset
    omega
  simp only [ramByte, hram, memWrite_data, storedByte]
  by_cases h : a.toNat ≤ addr ∧ addr < a.toNat + size
  · have hoff : addr - 0x80000000 - ramOffset a = addr - a.toNat := by
      unfold ramOffset
      omega
    rw [if_pos (hrange.mpr h), if_pos h, hoff, toBytes_getElem?, if_pos (by omega),
      Option.getD_some]
  · rw [if_neg (mt hrange.mp h), if_neg h]

section

variable {ramSize : Nat} {m : Machine c} (hdev : MainDevices ramSize m.bus)
  (hsz : ramSize ≤ ramSizeMax) (ht : m.cpu.trap = false)
include hdev hsz ht

/-- A store to RAM. -/
theorem execInstr_store (funct3 : BitVec 3) (rs1 rs2 : RegNo) (imm : BitVec 12)
    (hsize : storeSize funct3 ≤ c.wordBytes)
    (hin : InRam ramSize (effectiveAddr m.cpu rs1 imm) (storeSize funct3)) :
    execInstr m (Base.store funct3 rs1 rs2 imm).encode = { m with
      bus := busWriteInvalidate m.bus (effectiveAddr m.cpu rs1 imm) (storeSize funct3)
      ram := memWrite m.ram (ramOffset (effectiveAddr m.cpu rs1 imm))
        (toBytes (storeSize funct3) (readReg m.cpu rs2)) } := by
  have hbuf : InRam ramSize (effectiveAddr m.cpu rs1 imm)
      (toBytes (storeSize funct3) (readReg m.cpu rs2)).length := by
    rw [toBytes_length]
    exact hin
  have hwrite := writeMem_inRam hdev hsz ht hbuf
  rw [toBytes_length, ← memAddr_place] at hwrite
  have hnot : ¬ c.wordBytes < 1 <<< funct3.toNat := Nat.not_lt.mpr hsize
  rw [execInstr_encode, execBase, doSTORE, if_neg hnot, ← memAddr_place]
  exact hwrite

/-- A load from RAM. -/
theorem execInstr_load (funct3 : BitVec 3) (rd rs1 : RegNo) (imm : BitVec 12)
    (hsize : loadSize funct3 ≤ c.wordBytes)
    (hin : InRam ramSize (effectiveAddr m.cpu rs1 imm) (loadSize funct3)) :
    execInstr m (Base.load funct3 rd rs1 imm).encode = { m with
      cpu := writeReg m.cpu rd (loadedWord c (funct3 &&& 4#3 == 0#3)
        ((List.range (loadSize funct3)).map fun k =>
          ramByte m ((effectiveAddr m.cpu rs1 imm).toNat + k))) } := by
  have hread := readMem_inRam hdev hsz ht hin
  have hbytes := memRead_ramByte m hin.1 (loadSize funct3)
  have hlen : (memRead m.ram (ramOffset (effectiveAddr m.cpu rs1 imm)) (loadSize funct3)).length
      = loadSize funct3 := by
    rw [memRead, List.length_map, List.length_range]
  have hword := loadedWord_eq (c := c) (funct3 &&& 4#3 == 0#3)
    (by rw [hlen]; exact one_shiftLeft_pos _) (by rw [hlen]; exact hsize)
  rw [hlen] at hword
  have hnot : ¬ c.wordBytes < 1 <<< (funct3 &&& 3#3).toNat := Nat.not_lt.mpr hsize
  rw [← hbytes, ← hword, execInstr_encode, execBase, doLOAD, if_neg hnot]
  rw [← memAddr_place] at hread ⊢
  simp only [memAddr, loadSize] at hread
  simp only [hread]
  rfl

end

/-! ## One after the other -/

/-- The state that a store leaves: the bytes of RAM and nothing else that a program can see. -/
structure Stored (ramSize : Nat) (m m1 : Machine c) (byte : Nat → Byte) : Prop where
  bytes : ∀ addr, 0x80000000 ≤ addr → ramByte m1 addr = byte addr
  rest : m1 = { m with bus := m1.bus, ram := m1.ram }
  devices : MainDevices ramSize m1.bus

/-- The state that a load leaves. -/
def Loaded (m2 m3 : Machine c) (rd : RegNo) (x : Word c) : Prop :=
  m3 = { m2 with cpu := writeReg m2.cpu rd x }

/-- A store of any size to RAM, and a load of any size from bytes of RAM that nobody has written
since: both complete, and the load returns the stored bytes where the ranges overlap and the old
ones elsewhere. -/
theorem load_after_store {ramSize : Nat} (hsz : ramSize ≤ ramSizeMax) (m : Machine c)
    (hdev : MainDevices ramSize m.bus) (ht : m.cpu.trap = false) (funct3 : BitVec 3)
    (rs1 rs2 : RegNo) (imm : BitVec 12) (hsize : storeSize funct3 ≤ c.wordBytes)
    (hin : InRam ramSize (effectiveAddr m.cpu rs1 imm) (storeSize funct3)) :
    let m1 := execInstr m (Base.store funct3 rs1 rs2 imm).encode
    let byte := storedByte m (effectiveAddr m.cpu rs1 imm).toNat (storeSize funct3)
      (readReg m.cpu rs2)
    Stored ramSize m m1 byte ∧
      ∀ (m2 : Machine c) (funct3' : BitVec 3) (rd rs1' : RegNo) (imm' : BitVec 12),
        let b := effectiveAddr m2.cpu rs1' imm'
        MainDevices ramSize m2.bus → m2.cpu.trap = false → loadSize funct3' ≤ c.wordBytes →
        InRam ramSize b (loadSize funct3') →
        (∀ k, k < loadSize funct3' → ramByte m2 (b.toNat + k) = ramByte m1 (b.toNat + k)) →
        Loaded m2 (execInstr m2 (Base.load funct3' rd rs1' imm').encode) rd
          (loadedWord c (funct3' &&& 4#3 == 0#3)
            ((List.range (loadSize funct3')).map fun k => byte (b.toNat + k))) := by
  intro m1 byte
  have hm1 : m1 = { m with
      bus := busWriteInvalidate m.bus (effectiveAddr m.cpu rs1 imm) (storeSize funct3)
      ram := memWrite m.ram (ramOffset (effectiveAddr m.cpu rs1 imm))
        (toBytes (storeSize funct3) (readReg m.cpu rs2)) } :=
    execInstr_store hdev hsz ht funct3 rs1 rs2 imm hsize hin
  have hbytes : ∀ addr, 0x80000000 ≤ addr → ramByte m1 addr = byte addr := by
    intro addr haddr
    exact ramByte_store _ _ _ hin.1 (by rw [hm1]) haddr
  constructor
  · refine ⟨hbytes, ?_, ?_⟩
    · rw [hm1]
    · rw [hm1, MainDevices, busWriteInvalidate_devices]
      exact hdev
  · intro m2 funct3' rd rs1' imm' b hdev2 ht2 hsize2 hin2 hsame
    -- the load reads the bytes that the store has left
    have hlist : ((List.range (loadSize funct3')).map fun k => ramByte m2 (b.toNat + k))
        = (List.range (loadSize funct3')).map fun k => byte (b.toNat + k) := by
      apply List.map_congr_left
      intro k hk
      have hb := hin2.1
      rw [hsame k (List.mem_range.mp hk), hbytes _ (by omega)]
    rw [Loaded, execInstr_load hdev2 hsz ht2 funct3' rd rs1' imm' hsize2 hin2, hlist]

/-- A 64-bit machine of 1 MB with a pointer into RAM in x5 and a value in x6. -/
def loadStoreMachine : Machine .rv64 :=
  let m := vmInit (mainBus .rv64 0x100000) ⟨fun _ => 0xF0#8⟩ false
  { m with cpu := { m.cpu with
      regs := fun r =>
        if r = 5#5 then 0x80000004#64 else if r = 6#5 then 0x11223344#64 else 0#64 } }

/-- `sw x6, -3(x5)` and `lh x7, 0(x5)`: the last byte of the store, and the byte behind it. -/
theorem load_after_store_overlap :
    let m1 := execInstr loadStoreMachine (Base.store 2#3 5#5 6#5 (-3#12)).encode
    Stored 0x100000 loadStoreMachine m1 (storedByte loadStoreMachine 0x80000001 4 0x11223344#64)
      ∧ Loaded m1 (execInstr m1 (Base.load 1#3 7#5 5#5 0#12).encode) 7#5 0xFFFFFFFFFFFFF011#64 := by
  intro m1
  have h := @load_after_store .rv64 0x100000 (by decide) loadStoreMachine rfl rfl 2#3 5#5 6#5
    (-3#12) (by decide) (by decide +kernel)
  have ht1 : m1.cpu.trap = false := congrArg (fun m : Machine .rv64 => m.cpu.trap) h.1.rest
  have hvalue : loadedWord .rv64 true ((List.range 2).map fun k =>
      storedByte loadStoreMachine 0x80000001 4 0x11223344#64 (0x80000004 + k))
      = 0xFFFFFFFFFFFFF011#64 := by decide +kernel
  have hload := h.2 m1 1#3 7#5 5#5 0#12 h.1.devices ht1 (by decide) (by decide +kernel)
    fun _ _ => rfl
  refine ⟨h.1, ?_⟩
  rw [← hvalue]
  exact hload

end RV640
