import RV640.Isa.Terminal
import RV640.Proofs.LoadStore
import RV640.Proofs.UartFifo

set_option autoImplicit false

/-! # The UART from the hart

A load or store of one byte at a register of the UART, on the bus of `main`. With the divisor latch
off, the registers that a program polls are those of the architecture's terminal: the ring of the
device is the input, and what is written to the transmitter goes to the console.
-/

namespace RV640

open Bits Riscv

variable {c : Cfg} {ramSize : Nat} {m : Machine c}

/-! ## The bus -/

/-- The UART as a bus device. -/
def uartDevice (c : Cfg) : BusDevice c DevKind := ⟨⟨BitVec.ofNat _ ns16550aSize, .uart⟩, uartBase⟩

theorem uartBase_toNat : (uartBase : Addr c).toNat = 0x10000000 := by cases c <;> rfl

/-- The bus finds the UART for a byte of its registers. -/
theorem findDevice_uart {bus : Bus c DevKind} (hdev : MainDevices ramSize bus) {addr : Addr c}
    {reg : Nat} (hreg : reg < ns16550aSize) (haddr : addr.toNat = 0x10000000 + reg) :
    findDevice bus addr 1 = some (uartDevice c, addr - uartBase) := by
  have hw := two_pow_32_le_alen c
  unfold ns16550aSize at hreg
  have hend : (addr + cpuSize 1).toNat = 0x10000000 + reg + 1 := by
    rw [cpuSize, BitVec.toNat_add, BitVec.toNat_ofNat, Nat.add_mod_mod, haddr]
    exact Nat.mod_eq_of_lt (by omega)
  have hram : includes ramBase (BitVec.ofNat _ ramSize) addr (cpuSize 1) = false := by
    have hlt : ¬(ramBase : Addr c) ≤ addr := by
      rw [BitVec.le_def, ramBase_toNat, haddr]
      omega
    simp [includes, hlt]
  -- the two devices below the UART end before it
  have hbelow : ∀ base size : Nat, base + size ≤ 0x10000000 →
      includes (BitVec.ofNat c.alen base) (BitVec.ofNat _ size) addr (cpuSize 1) = false := by
    intro base size hlt
    have hle : ¬addr + cpuSize 1 ≤ BitVec.ofNat c.alen base + BitVec.ofNat _ size := by
      rw [BitVec.le_def, hend, ← BitVec.ofNat_add, BitVec.toNat_ofNat, Nat.mod_eq_of_lt (by omega)]
      omega
    simp [includes, hle]
  have huart : includes uartBase (BitVec.ofNat _ ns16550aSize) addr (cpuSize 1) = true := by
    have hlo : (uartBase : Addr c) ≤ addr := by
      rw [BitVec.le_def, uartBase_toNat, haddr]
      omega
    have hhi : addr + cpuSize 1 ≤ uartBase + BitVec.ofNat _ ns16550aSize := by
      rw [BitVec.le_def, hend, uartBase, ← BitVec.ofNat_add, BitVec.toNat_ofNat,
        Nat.mod_eq_of_lt (by unfold ns16550aSize; omega)]
      unfold ns16550aSize
      omega
    simp [includes, hlo, hhi]
  have haclint := hbelow 0x2000000 aclintSize (by decide)
  have hplic := hbelow 0xC000000 plicSize (by decide)
  unfold findDevice
  rw [hdev]
  simp only [mainBus, List.find?_cons, hram, aclintBase, plicBase, haclint, hplic, huart,
    Option.map_some]
  rfl

theorem uartOffset {addr : Addr c} {reg : Nat} (haddr : addr.toNat = 0x10000000 + reg) :
    (addr - uartBase).toNat = reg := by
  have hle : (uartBase : Addr c) ≤ addr := by
    rw [BitVec.le_def, uartBase_toNat, haddr]
    omega
  rw [BitVec.toNat_sub_of_le hle, uartBase_toNat, haddr]
  omega

section

variable (hdev : MainDevices ramSize m.bus) (ht : m.cpu.trap = false) {addr : Addr c} {reg : Nat}
  (hreg : reg < ns16550aSize) (haddr : addr.toNat = 0x10000000 + reg)
include hdev ht hreg haddr

theorem readMem_uart : readMem m addr 1
    = ({ m with uart := (m.uart.readByte reg 0#8).1 },
      ofBytes [(m.uart.readByte reg 0#8).2]) := by
  have hfind : findDevice m.bus addr [0#8].length = _ := findDevice_uart hdev hreg haddr
  simp only [readMem, ht, Bool.false_eq_true, if_false, busRead, List.replicate_one, hfind,
    devRead, uartDevice, uartOffset haddr]
  rfl

theorem writeMem_uart (b : Byte) : writeMem m addr [b]
    = Ns16550a.writeByte { m with bus := busWriteInvalidate m.bus addr 1 } reg b := by
  have hfind : findDevice m.bus addr [b].length = _ := findDevice_uart hdev hreg haddr
  simp only [writeMem, ht, Bool.false_eq_true, if_false, busWrite, hfind, devWrite, uartDevice,
    uartOffset haddr]
  rfl

end

/-! ## The two instructions -/

section

variable (hdev : MainDevices ramSize m.bus) (ht : m.cpu.trap = false) (rs1 : RegNo)
  (imm : BitVec 12)
include hdev ht

/-- A load of one byte of the UART. -/
theorem execBase_load_uart (size : Nat) {funct3 : BitVec 3} (rd : RegNo) {reg : Nat}
    (hsize : accessSize funct3 = 1) (hreg : reg < ns16550aSize)
    (haddr : (effectiveAddr m.cpu rs1 imm).toNat = 0x10000000 + reg) :
    execBase m size (.load funct3 rd rs1 imm) = { m with
      uart := (m.uart.readByte reg 0#8).1
      cpu := writeReg m.cpu rd
        (extended (funct3 &&& 4#3 == 0#3) [(m.uart.readByte reg 0#8).2]) } := by
  have hsize : 1 <<< (funct3 &&& 3#3).toNat = 1 := hsize
  have hfit : ¬c.wordBytes < 1 := by cases c <;> decide
  have hread := readMem_uart hdev ht hreg haddr
  have hword := loadedWord_eq (c := c) (funct3 &&& 4#3 == 0#3)
    (show 0 < [(m.uart.readByte reg 0#8).2].length from Nat.one_pos)
    (Nat.not_lt.mp hfit)
  rw [← memAddr_place, memAddr] at hread
  rw [execBase, doLOAD, hsize, if_neg hfit]
  simp only [hread]
  exact congrArg (fun x => { m with
    uart := (m.uart.readByte reg 0#8).1, cpu := writeReg m.cpu rd x }) hword

/-- A store of one byte to the transmitter. -/
theorem execBase_store_uart (size : Nat) (rs2 : RegNo) (hdlab : m.uart.dlab = false)
    (haddr : (effectiveAddr m.cpu rs1 imm).toNat = 0x10000000) :
    execBase m size (.store 0#3 rs1 rs2 imm) =
      uiPutch { m with bus := busWriteInvalidate m.bus (effectiveAddr m.cpu rs1 imm) 1 }
        ((readReg m.cpu rs2).setWidth 8) := by
  have hfit : ¬c.wordBytes < 1 <<< (0#3).toNat := by cases c <;> decide
  have hbyte : toBytes 1 (readReg m.cpu rs2) = [(readReg m.cpu rs2).setWidth 8] := by
    have hx := c.xlen_ge
    rw [BitVec.setWidth_eq_extractLsb' (by omega)]
    rfl
  have hwrite := writeMem_uart hdev ht (show 0 < ns16550aSize by decide) haddr
    ((readReg m.cpu rs2).setWidth 8)
  rw [Ns16550a.writeByte, if_neg (by simp [hdlab]), ← hbyte, ← memAddr_place] at hwrite
  rw [execBase, doSTORE, if_neg hfit, ← memAddr_place]
  exact hwrite

end

/-! ## The registers -/

/-- The ring is in order and holds `input`, and the divisor latch is off. -/
structure UartHolds (uart : Ns16550a) (input : List Byte) : Prop where
  ok : uart.ringBuffer.ring.Ok
  queued : uart.queued = input
  latch : uart.dlab = false

/-- A read of a register that the terminal has. -/
theorem UartHolds.read {self : Ns16550a} {input rest : List Byte} {reg : Nat} {x : Byte}
    (h : UartHolds self input) (hread : uartRead reg input = some (x, rest)) :
    reg < ns16550aSize ∧ (self.readByte reg 0#8).2 = x
      ∧ UartHolds (self.readByte reg 0#8).1 rest := by
  have hlen : input.length = self.ringBuffer.len := by
    rw [← h.queued]
    exact RingQueue.contents_length _
  unfold uartRead at hread
  split at hread
  · -- the receiver
    obtain ⟨rfl, rfl⟩ := Prod.mk.inj (Option.some.inj hread)
    have hpos : self.ringBuffer.len ≠ 0 := by
      rw [← hlen]
      simp
    obtain ⟨hring, hbyte⟩ := self.popChar_ring hpos
    have hpop : self.readByte 0 0#8 = self.popChar := by
      simp only [Ns16550a.readByte, h.latch, Bool.false_eq_true, if_false]
    have hcontents := RingQueue.contents_pop h.ok (Nat.pos_of_ne_zero hpos)
    have hqueued : self.ringBuffer.ring.contents = _ := h.queued
    rw [hqueued] at hcontents
    obtain ⟨hfirst, hrest⟩ := List.cons.inj hcontents
    rw [hpop]
    refine ⟨by decide, hbyte.trans hfirst.symm, ?_, ?_, ?_⟩
    · rw [hring]
      exact h.ok.pop (Nat.pos_of_ne_zero hpos)
    · rw [Ns16550a.queued, hring, ← hrest]
    · rw [Ns16550a.popChar, if_neg hpos]
      exact h.latch
  · -- the line status of an empty ring
    obtain ⟨rfl, rfl⟩ := Prod.mk.inj (Option.some.inj hread)
    have hzero : self.ringBuffer.len = 0 := hlen.symm
    refine ⟨by decide, ?_, h⟩
    simp only [Ns16550a.readByte, Ns16550a.lineStatus, hzero, ne_eq, not_true_eq_false, if_false]
    decide
  · obtain ⟨rfl, rfl⟩ := Prod.mk.inj (Option.some.inj hread)
    have hpos : self.ringBuffer.len ≠ 0 := by
      rw [← hlen]
      simp
    refine ⟨by decide, ?_, h⟩
    simp only [Ns16550a.readByte, Ns16550a.lineStatus, if_pos hpos]
    decide
  · cases hread

/-- A character that is typed. -/
theorem UartHolds.key {input : List Byte} (h : UartHolds m.uart input) (ch : Byte) :
    UartHolds (ns16550Push m ch).1.uart
      (if input.length < ns16550aBufSize then input ++ [ch] else input) := by
  have hsim := push_simulates m ch h.ok
  have hitems : (m.uart.fifo h.ok).items = input := h.queued
  refine ⟨hsim.ok, ?_, ?_⟩
  · rw [show (ns16550Push m ch).1.uart = (uartStep m (.push ch)).uart from rfl, hsim.queued]
    simp only [Fifo.step, Fifo.itemsAfter, hitems]
  · unfold ns16550Push
    split
    · exact h.latch
    · rw [Ns16550a.irq_uart]
      exact h.latch

end RV640
