import RV640.Cpu.Types

set_option autoImplicit false

/-! # The bus (`bus.c`, `dev/device.h`)

Address decoding and the LR/SC reservation. A registered device is its base, its size and the
token `δ` that stands for its callbacks; what the callbacks do is in `Machine.lean`.
-/

namespace RV640

variable {c : Cfg} {δ : Type}

/-- `Device`: the size the bus decodes and the callbacks it forwards to. -/
structure Device (c : Cfg) (δ : Type) where
  size : Addr c
  callbacks : δ

/-- `struct _busDevice`. -/
structure BusDevice (c : Cfg) (δ : Type) where
  dev : Device c δ
  base : Addr c

/-- `Bus.reservation`. -/
structure Reservation (c : Cfg) where
  addr : Addr c
  size : Nat
  valid : Bool
  deriving DecidableEq

/-- `BUS_MAX_DEVICES`. -/
def busMaxDevices : Nat := 4

/-- `Bus`. The slots of `devices` are filled in order and never emptied, so the list of the
filled ones is the array. -/
structure Bus (c : Cfg) (δ : Type) where
  devices : List (BusDevice c δ)
  bound : devices.length ≤ busMaxDevices
  reservation : Reservation c

/-- `_includes`. All four words are added in `cpu_addr_t` arithmetic. -/
def includes (base size a s : Addr c) : Bool := decide (base ≤ a) && decide (a + s ≤ base + size)

/-- The conversion of a `size_t` argument to the `cpu_size_t` parameter of `_includes`. -/
def cpuSize (size : Nat) : Addr c := BitVec.ofNat _ size

/-- `_findDevice`: the first device that includes the range, and the address within it. -/
def findDevice (self : Bus c δ) (addr : Addr c) (size : Nat) : Option (BusDevice c δ × Addr c) :=
  (self.devices.find? fun d => includes d.base d.dev.size addr (cpuSize size)).map
    fun d => (d, addr - d.base)

/-- `bus_init`. -/
def busInit : Bus c δ :=
  { devices := [], bound := Nat.zero_le _, reservation := ⟨0#_, 0, false⟩ }

/-- `bus_register`; `none` when all slots are taken. -/
def busRegister (self : Bus c δ) (base : Addr c) (dev : Device c δ) : Option (Bus c δ) :=
  if h : self.devices.length < busMaxDevices then
    some { self with
      devices := self.devices ++ [⟨dev, base⟩]
      bound := by simp only [List.length_append, List.length_singleton]; omega }
  else none

/-- `bus_reservationCreate`. -/
def busReservationCreate (self : Bus c δ) (addr : Addr c) (size : Nat) : Bus c δ :=
  { self with reservation := ⟨addr, size, true⟩ }

/-- `bus_reservationCheckInvalidate`. -/
def busReservationCheckInvalidate (self : Bus c δ) (addr : Addr c) (size : Nat) :
    Bus c δ × Bool :=
  if self.reservation.valid then
    ({ self with reservation := { self.reservation with valid := false } },
      includes self.reservation.addr (cpuSize self.reservation.size) addr (cpuSize size))
  else (self, false)

/-- The reservation test of `bus_write`. -/
def busWriteInvalidate (self : Bus c δ) (addr : Addr c) (size : Nat) : Bus c δ :=
  if self.reservation.valid
      && includes self.reservation.addr (cpuSize self.reservation.size) addr (cpuSize size) then
    { self with reservation := { self.reservation with valid := false } }
  else self

end RV640
