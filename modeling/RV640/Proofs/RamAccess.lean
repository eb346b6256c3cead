import RV640.Proofs.BusDecode

set_option autoImplicit false

/-! # Accesses to the RAM of `main`

`main` registers the RAM first, at `0x80000000`, with at most 1024 MB. Such a RAM ends below 2³²,
so no access that lies in it wraps, and the bus hands it to the RAM at its offset.
-/

namespace RV640

open Bits

variable {c : Cfg}

/-- The largest RAM `main` accepts, `-m 1024`. -/
def ramSizeMax : Nat := 1024 * 1024 * 1024

/-- The bus has the devices of `main`. The reservation is left open. -/
def MainDevices (ramSize : Nat) (bus : Bus c DevKind) : Prop :=
  bus.devices = (mainBus c ramSize).devices

/-- The range `[addr, addr + size)` lies in RAM. -/
def InRam (ramSize : Nat) (addr : Addr c) (size : Nat) : Prop :=
  0x80000000 ≤ addr.toNat ∧ addr.toNat + size ≤ 0x80000000 + ramSize

instance (ramSize : Nat) (addr : Addr c) (size : Nat) : Decidable (InRam ramSize addr size) := by
  unfold InRam
  infer_instance

/-- The offset of an address in RAM. -/
def ramOffset (addr : Addr c) : Nat := addr.toNat - 0x80000000

/-- The RAM as a bus device. -/
def ramDevice (c : Cfg) (ramSize : Nat) : BusDevice c DevKind :=
  ⟨⟨BitVec.ofNat _ ramSize, .ram⟩, ramBase⟩

section

variable {ramSize : Nat}

theorem two_pow_32_le_alen (c : Cfg) : 2 ^ 32 ≤ 2 ^ c.alen :=
  Nat.pow_le_pow_right (by decide) c.alen_ge

/-- The base of RAM, in any address width. -/
theorem ramBase_toNat : (ramBase : Addr c).toNat = 0x80000000 := by
  have h := two_pow_32_le_alen c
  simp only [ramBase, BitVec.toNat_ofNat]
  exact Nat.mod_eq_of_lt (by omega)

theorem ramDevice_size (hsz : ramSize ≤ ramSizeMax) :
    (ramDevice c ramSize).dev.size.toNat = ramSize := by
  have h := two_pow_32_le_alen c
  unfold ramSizeMax at hsz
  simp only [ramDevice, BitVec.toNat_ofNat]
  exact Nat.mod_eq_of_lt (by omega)

/-- No range in RAM wraps. -/
theorem InRam.lt (hsz : ramSize ≤ ramSizeMax) {addr : Addr c} {size : Nat}
    (h : InRam ramSize addr size) : addr.toNat + size < 2 ^ c.alen := by
  have hw := two_pow_32_le_alen c
  unfold ramSizeMax at hsz
  have := h.2
  omega

theorem ramDevice_includes (hsz : ramSize ≤ ramSizeMax) (addr : Addr c) (size : Nat)
    (hlt : addr.toNat + size < 2 ^ c.alen) :
    includes (ramDevice c ramSize).base (ramDevice c ramSize).dev.size addr (cpuSize size) = true ↔
      InRam ramSize addr size := by
  have hd :
      (ramDevice c ramSize).base.toNat + (ramDevice c ramSize).dev.size.toNat < 2 ^ c.alen := by
    have hw := two_pow_32_le_alen c
    rw [ramDevice_size hsz, show (ramDevice c ramSize).base = ramBase from rfl, ramBase_toNat]
    unfold ramSizeMax at hsz
    omega
  rw [includes_iff_contains _ hd addr size hlt, BusDevice.Contains, ramDevice_size hsz,
    show (ramDevice c ramSize).base = ramBase from rfl, ramBase_toNat]
  rfl

variable {bus : Bus c DevKind}

/-- The bus finds the RAM for a range in RAM. -/
theorem findDevice_inRam (hdev : MainDevices ramSize bus) (hsz : ramSize ≤ ramSizeMax)
    {addr : Addr c} {size : Nat} (h : InRam ramSize addr size) :
    findDevice bus addr size = some (ramDevice c ramSize, addr - ramBase) := by
  have hinc := (ramDevice_includes hsz addr size (h.lt hsz)).mpr h
  unfold findDevice
  rw [hdev, show (mainBus c ramSize).devices = ramDevice c ramSize
    :: (mainBus c ramSize).devices.tail from rfl, List.find?_cons, hinc]
  rfl

theorem ramOffset_eq {addr : Addr c} (h : 0x80000000 ≤ addr.toNat) :
    (addr - ramBase).toNat = ramOffset addr := by
  have hle : (ramBase : Addr c) ≤ addr := by
    rw [BitVec.le_def, ramBase_toNat]
    exact h
  rw [BitVec.toNat_sub_of_le hle, ramBase_toNat]
  rfl

/-- A range that starts in RAM and does not wrap is found only in RAM: the other devices lie
below it. -/
theorem findDevice_from_ram (hdev : MainDevices ramSize bus) (hsz : ramSize ≤ ramSizeMax)
    {addr : Addr c} {size : Nat} (hlo : 0x80000000 ≤ addr.toNat)
    (hlt : addr.toNat + size < 2 ^ c.alen) :
    (findDevice bus addr size).isSome = true ↔ InRam ramSize addr size := by
  constructor
  · intro h
    obtain ⟨⟨d, devAddr⟩, hfind⟩ := Option.isSome_iff_exists.mp h
    obtain ⟨hmem, hinc, -⟩ := findDevice_some hfind
    rw [hdev] at hmem
    simp only [mainBus, List.mem_cons, List.not_mem_nil, or_false] at hmem
    have hw := two_pow_32_le_alen c
    rcases hmem with rfl | rfl | rfl | rfl
    · exact (ramDevice_includes hsz addr size hlt).mp hinc
    all_goals
      -- the device ends below the RAM
      simp only [includes, cpuSize, Bool.and_eq_true, decide_eq_true_eq, BitVec.le_def,
        BitVec.toNat_add, BitVec.toNat_ofNat, Nat.add_mod_mod, Nat.mod_add_mod,
        Nat.mod_eq_of_lt hlt, aclintBase, plicBase, uartBase, aclintSize, plicSize,
        ns16550aSize] at hinc
      have hend := hinc.2
      rw [Nat.mod_eq_of_lt (by omega)] at hend
      omega
  · intro h
    rw [findDevice_inRam hdev hsz h]
    rfl

/-! ## The bus calls -/

variable {m : Machine c}

/-- `bus_read` of a range in RAM. -/
theorem busRead_inRam (hdev : MainDevices ramSize m.bus) (hsz : ramSize ≤ ramSizeMax)
    (addr : Addr c) (buf : List Byte) (h : InRam ramSize addr buf.length) :
    busRead m addr buf = some (m, memRead m.ram (ramOffset addr) buf.length) := by
  simp only [busRead, findDevice_inRam hdev hsz h, devRead, ramDevice, ramOffset_eq h.1]

/-- `bus_write` of a range in RAM. -/
theorem busWrite_inRam (hdev : MainDevices ramSize m.bus) (hsz : ramSize ≤ ramSizeMax)
    {addr : Addr c} {buf : List Byte} (h : InRam ramSize addr buf.length) :
    busWrite m addr buf = some { m with
      bus := busWriteInvalidate m.bus addr buf.length
      ram := memWrite m.ram (ramOffset addr) buf } := by
  simp only [busWrite, findDevice_inRam hdev hsz h, devWrite, ramDevice, ramOffset_eq h.1]

/-- `_writeMem` to a range in RAM. -/
theorem writeMem_inRam (hdev : MainDevices ramSize m.bus) (hsz : ramSize ≤ ramSizeMax)
    (htrap : m.cpu.trap = false) {addr : Addr c} {buf : List Byte}
    (h : InRam ramSize addr buf.length) :
    writeMem m addr buf = { m with
      bus := busWriteInvalidate m.bus addr buf.length
      ram := memWrite m.ram (ramOffset addr) buf } := by
  simp only [writeMem, htrap, busWrite_inRam hdev hsz h, Bool.false_eq_true, if_false]

/-- `_readMem` of a range in RAM. -/
theorem readMem_inRam (hdev : MainDevices ramSize m.bus) (hsz : ramSize ≤ ramSizeMax)
    (htrap : m.cpu.trap = false) {addr : Addr c} {size : Nat} (h : InRam ramSize addr size) :
    readMem m addr size = (m, ofBytes (memRead m.ram (ramOffset addr) size)) := by
  have hlen : InRam ramSize addr (List.replicate size 0#8).length := by
    rw [List.length_replicate]
    exact h
  simp only [readMem, htrap, busRead_inRam hdev hsz addr _ hlen, List.length_replicate,
    Bool.false_eq_true, if_false]

end

end RV640
