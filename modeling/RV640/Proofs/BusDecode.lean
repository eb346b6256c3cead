import RV640.Cpu.Run

set_option autoImplicit false

/-! # Address decoding of the bus

`_includes` adds machine words. When `addr + size` stays below 2^w the test is the containment
of integer ranges; when it wraps, the test can accept a range that runs off the end of the
address space, and the device is handed an offset far beyond its size.
-/

namespace RV640

open Bits

variable {c : Cfg} {δ : Type}

/-! ## Ranges over the integers -/

/-- The range `[addr, addr + size)` lies in the device, over the integers. -/
def BusDevice.Contains (d : BusDevice c δ) (addr : Addr c) (size : Nat) : Prop :=
  d.base.toNat ≤ addr.toNat ∧ addr.toNat + size ≤ d.base.toNat + d.dev.size.toNat

instance (d : BusDevice c δ) (addr : Addr c) (size : Nat) : Decidable (d.Contains addr size) := by
  unfold BusDevice.Contains
  infer_instance

/-- Every registered device ends below 2^w. -/
def Bus.Fits (bus : Bus c δ) : Prop :=
  ∀ d ∈ bus.devices, d.base.toNat + d.dev.size.toNat < 2 ^ c.alen

instance (bus : Bus c δ) : Decidable bus.Fits := by
  unfold Bus.Fits
  infer_instance

/-- What `_includes` compares, for a device that ends below 2^w. -/
theorem includes_iff (d : BusDevice c δ) (hd : d.base.toNat + d.dev.size.toNat < 2 ^ c.alen)
    (addr : Addr c) (size : Nat) :
    includes d.base d.dev.size addr (cpuSize size) = true ↔
      d.base.toNat ≤ addr.toNat
        ∧ (addr.toNat + size) % 2 ^ c.alen ≤ d.base.toNat + d.dev.size.toNat := by
  simp only [includes, cpuSize, Bool.and_eq_true, decide_eq_true_eq, BitVec.le_def,
    BitVec.toNat_add, BitVec.toNat_ofNat, Nat.add_mod_mod, Nat.mod_eq_of_lt hd]

/-- Without a wrap the test of `_includes` is containment. -/
theorem includes_iff_contains (d : BusDevice c δ)
    (hd : d.base.toNat + d.dev.size.toNat < 2 ^ c.alen) (addr : Addr c) (size : Nat)
    (h : addr.toNat + size < 2 ^ c.alen) :
    includes d.base d.dev.size addr (cpuSize size) = true ↔ d.Contains addr size := by
  rw [includes_iff d hd, Nat.mod_eq_of_lt h]
  rfl

/-- What `_includes` compares, for any device: both sums wrap. -/
def BusDevice.Accepts (d : BusDevice c δ) (addr : Addr c) (size : Nat) : Prop :=
  d.base.toNat ≤ addr.toNat
    ∧ (addr.toNat + size) % 2 ^ c.alen ≤ (d.base.toNat + d.dev.size.toNat) % 2 ^ c.alen

instance (d : BusDevice c δ) (addr : Addr c) (size : Nat) : Decidable (d.Accepts addr size) := by
  unfold BusDevice.Accepts
  infer_instance

theorem includes_iff_accepts (d : BusDevice c δ) (addr : Addr c) (size : Nat) :
    includes d.base d.dev.size addr (cpuSize size) = true ↔ d.Accepts addr size := by
  simp only [includes, cpuSize, Bool.and_eq_true, decide_eq_true_eq, BitVec.le_def,
    BitVec.toNat_add, BitVec.toNat_ofNat, Nat.add_mod_mod, BusDevice.Accepts]

theorem findDevice_some {bus : Bus c δ} {addr : Addr c} {size : Nat} {d : BusDevice c δ}
    {devAddr : Addr c} (h : findDevice bus addr size = some (d, devAddr)) :
    d ∈ bus.devices ∧ includes d.base d.dev.size addr (cpuSize size) = true
      ∧ devAddr = addr - d.base := by
  simp only [findDevice, Option.map_eq_some_iff, Prod.mk.injEq] at h
  obtain ⟨d', hfind, rfl, rfl⟩ := h
  have hinc := List.find?_some hfind
  exact ⟨List.mem_of_find?_eq_some hfind, hinc, rfl⟩

theorem findDevice_eq_none {bus : Bus c δ} {addr : Addr c} {size : Nat} :
    findDevice bus addr size = none ↔
      ∀ d ∈ bus.devices, includes d.base d.dev.size addr (cpuSize size) = false := by
  simp [findDevice]

theorem findDevice_eq_none_iff {bus : Bus c δ} {addr : Addr c} {size : Nat} :
    findDevice bus addr size = none ↔ ∀ d ∈ bus.devices, ¬ d.Accepts addr size := by
  rw [findDevice_eq_none]
  constructor
  · intro h d hd hacc
    have hinc := (includes_iff_accepts d addr size).mpr hacc
    rw [h d hd] at hinc
    cases hinc
  · intro h d hd
    rw [← Bool.not_eq_true, includes_iff_accepts]
    exact h d hd

/-- The range lies in one device, over the integers. -/
def Bus.Inside (bus : Bus c δ) (addr : Addr c) (size : Nat) : Prop :=
  ∃ d ∈ bus.devices, d.Contains addr size

instance (bus : Bus c δ) (addr : Addr c) (size : Nat) : Decidable (bus.Inside addr size) := by
  unfold Bus.Inside
  infer_instance

/-- An offset within a device that contains the range. -/
theorem BusDevice.Contains.offset {d : BusDevice c δ} {addr : Addr c} {size : Nat}
    (h : d.Contains addr size) :
    (addr - d.base).toNat + size ≤ d.dev.size.toNat := by
  obtain ⟨hlo, hhi⟩ := h
  have hle : d.base ≤ addr := BitVec.le_def.mpr hlo
  rw [BitVec.toNat_sub_of_le hle]
  omega

theorem busWriteInvalidate_devices (bus : Bus c DevKind) (addr : Addr c) (size : Nat) :
    (busWriteInvalidate bus addr size).devices = bus.devices := by
  unfold busWriteInvalidate
  split <;> rfl

theorem busReservationCheckInvalidate_devices (bus : Bus c DevKind) (addr : Addr c) (size : Nat) :
    (busReservationCheckInvalidate bus addr size).1.devices = bus.devices := by
  unfold busReservationCheckInvalidate
  split <;> rfl

/-! ## Safe accesses -/

/-- The bus forwards the access only to a device that contains it, at an offset where it fits. -/
def AccessContained (bus : Bus c δ) (addr : Addr c) (size : Nat) : Prop :=
  ∀ d devAddr, findDevice bus addr size = some (d, devAddr) →
    d.Contains addr size ∧ devAddr.toNat + size ≤ d.dev.size.toNat

/-- The access wraps nowhere, or hits no device: every device starts above the address or ends
below the wrapped end of the range. -/
def NoWrappedHit (bus : Bus c δ) (addr : Addr c) (size : Nat) : Prop :=
  addr.toNat + size < 2 ^ c.alen ∨
    ∀ d ∈ bus.devices, addr.toNat < d.base.toNat ∨
      d.base.toNat + d.dev.size.toNat < (addr.toNat + size) % 2 ^ c.alen

theorem accessContained_of_noWrappedHit {bus : Bus c δ} (hfit : bus.Fits) {addr : Addr c}
    {size : Nat} (h : NoWrappedHit bus addr size) : AccessContained bus addr size := by
  intro d devAddr hfind
  obtain ⟨hmem, hinc, rfl⟩ := findDevice_some hfind
  have hd := hfit d hmem
  rcases h with hlt | hall
  · have hcont := (includes_iff_contains d hd addr size hlt).mp hinc
    exact ⟨hcont, hcont.offset⟩
  · obtain ⟨hlo, hhi⟩ := (includes_iff d hd addr size).mp hinc
    rcases hall d hmem with h1 | h1 <;> omega

theorem noWrappedHit_of_accessContained {bus : Bus c δ} (hfit : bus.Fits) {addr : Addr c}
    {size : Nat} (h : AccessContained bus addr size) : NoWrappedHit bus addr size := by
  by_cases hlt : addr.toNat + size < 2 ^ c.alen
  · exact Or.inl hlt
  · refine Or.inr ?_
    -- a wrapped range is contained in no device, so no device may be found
    have hnone : findDevice bus addr size = none := by
      cases hf : findDevice bus addr size with
      | none => rfl
      | some p =>
          obtain ⟨d, devAddr⟩ := p
          have hd := hfit d (findDevice_some hf).1
          have hhi := (h d devAddr hf).1.2
          omega
    intro d hmem
    have hinc := findDevice_eq_none.mp hnone d hmem
    by_contra hcon
    have htrue := (includes_iff d (hfit d hmem) addr size).mpr (by omega)
    rw [htrue] at hinc
    cases hinc

/-- `m` and `m'` have the same RAM from offset `limit` on. -/
def RamSameFrom (limit : Nat) (m m' : Machine c) : Prop :=
  ∀ i, limit ≤ i → m'.ram.data i = m.ram.data i

/-- What an access of `size` bytes at `addr` may do to RAM: the asserts of `mem_read` and
`mem_write` hold when it reaches them, a read returns bytes of RAM only, and a write changes no
byte beyond the device. -/
structure RamAccessSafe (m : Machine c) (addr : Addr c) (size : Nat) : Prop where
  asserts : ∀ d devAddr, findDevice m.bus addr size = some (d, devAddr) →
    d.dev.callbacks = .ram → memAsserts d.dev.size.toNat devAddr.toNat size
  read : ∀ d devAddr, findDevice m.bus addr size = some (d, devAddr) →
    d.dev.callbacks = .ram → ∀ m' : Machine c, m'.bus = m.bus →
    (∀ i, i < d.dev.size.toNat → m'.ram.data i = m.ram.data i) →
    ∀ buf : List Byte, buf.length = size →
      (busRead m' addr buf).map Prod.snd = (busRead m addr buf).map Prod.snd
  write : ∀ d devAddr, findDevice m.bus addr size = some (d, devAddr) →
    d.dev.callbacks = .ram → ∀ buf : List Byte, buf.length = size →
    ∀ m', busWrite m addr buf = some m' → RamSameFrom d.dev.size.toNat m m'

theorem ramAccessSafe_of_contained {m : Machine c} {addr : Addr c} {size : Nat}
    (hsize : 1 ≤ size) (h : AccessContained m.bus addr size) : RamAccessSafe m addr size where
  asserts := by
    intro d devAddr hfind _
    have hoff := (h d devAddr hfind).2
    exact ⟨by omega, by omega⟩
  read := by
    intro d devAddr hfind hram m' hbus hsame buf hlen
    have hoff := (h d devAddr hfind).2
    subst hlen
    simp only [busRead, hbus, hfind, hram, devRead, Option.map_some, Option.some.injEq, memRead]
    apply List.map_congr_left
    intro i hi
    exact hsame _ (by have := List.mem_range.mp hi; omega)
  write := by
    intro d devAddr hfind hram buf hlen m' hwrite i hi
    have hoff := (h d devAddr hfind).2
    subst hlen
    simp only [busWrite, hfind, hram, devWrite, Option.some.injEq] at hwrite
    subst hwrite
    exact memWrite_frame _ _ _ _ (Or.inr (by omega))

/-- **Bus decoding is exact up to the wrap-around.** For devices that end below 2^w, an access
reaches only a device that contains it, and leaves everything beyond the RAM alone, exactly when
it does not wrap around into a device. -/
theorem access_safe_iff (m : Machine c) (hfit : m.bus.Fits) (addr : Addr c) (size : Nat)
    (hsize : 1 ≤ size) :
    AccessContained m.bus addr size ∧ RamAccessSafe m addr size ↔
      NoWrappedHit m.bus addr size := by
  constructor
  · rintro ⟨hcont, -⟩
    exact noWrappedHit_of_accessContained hfit hcont
  · intro h
    have hcont := accessContained_of_noWrappedHit hfit h
    exact ⟨hcont, ramAccessSafe_of_contained hsize hcont⟩

/-- A machine as `main` builds it on RV32 with 32 MB, before anything ran. -/
def mainMachine32 : Machine .rv32 := vmInit (mainBus .rv32 0x2000000) ⟨fun _ => 0#8⟩ true

/-- The first word of RAM is a safe access. -/
theorem access_safe_iff_lw :
    AccessContained mainMachine32.bus 0x80000100#32 4 ∧ RamAccessSafe mainMachine32 0x80000100#32 4
      ↔ NoWrappedHit mainMachine32.bus 0x80000100#32 4 :=
  access_safe_iff mainMachine32 (by decide) 0x80000100#32 4 (by decide)

/-- A load of 4 bytes at `0xFFFFFFFE` reaches the RAM of a 32 MB machine at offset
`0x7FFFFFFE`. -/
theorem wrapped_load_leaves_ram :
    mainMachine32.bus.Fits ∧
      ¬ (AccessContained mainMachine32.bus 0xFFFFFFFE#32 4
        ∧ RamAccessSafe mainMachine32 0xFFFFFFFE#32 4) := by
  refine ⟨by decide, ?_⟩
  rintro ⟨hcont, -⟩
  have h := (hcont ⟨⟨0x2000000#32, .ram⟩, 0x80000000#32⟩ 0x7FFFFFFE#32 (by rfl)).1.2
  exact absurd h (by decide)

end RV640
