import RV640.Proofs.ArchState
import RV640.Proofs.IsaResult

set_option autoImplicit false

/-! # An instruction of the architecture

A machine shows the state of an architectural hart when its PC, registers and RAM are those of the
hart and its line holds no byte that differs from memory without being stale. The handlers of
`rv_instr.h`, called with the fields of an instruction, lead to a machine that shows the state after
the instruction.
-/

namespace RV640

open Bits Riscv

variable {c : Cfg} {ramSize : Nat} {m : Machine c} {s s' : Hart c.xlen c.alen}

/-! ## The relation -/

/-- The instruction set of the target, with RAM as memory. -/
def platform (c : Cfg) (ramSize : Nat) : Platform := ⟨c.isRv64, 0x80000000, ramSize⟩

/-- No interrupt can be taken: none is enabled, or the hart is in M-mode with `MIE` clear. -/
def IrqsMasked (hart : Cpu c) : Prop :=
  hart.csr.mie = 0#_ ∨ (hart.mode = .machine ∧ hart.csr.mstatus &&& mstatusMieMask = 0#_)

/-- The address is in RAM. -/
def RamAddr (ramSize i : Nat) : Prop := 0x80000000 ≤ i ∧ i < 0x80000000 + ramSize

/-- The line is a part of some copy of RAM that is older than the memory only in stale bytes. -/
def LineFresh (ramSize : Nat) (icache : Icache c) (s : Hart c.xlen c.alen) : Prop :=
  ∃ filled : Memory, LineMatches ramSize icache filled ∧
    ∀ i, RamAddr ramSize i → s.stale i = false → filled.data (i - 0x80000000) = s.mem i

/-- The machine shows the state of the hart, and is between two instructions. -/
structure Shows (ramSize : Nat) (m : Machine c) (s : Hart c.xlen c.alen) : Prop where
  devices : MainDevices ramSize m.bus
  running : m.cpu.trap = false
  masked : IrqsMasked m.cpu
  pc : m.cpu.pc = s.pc
  regs : m.cpu.regs = s.regs.val
  mem : ∀ i, RamAddr ramSize i → ramByte m i = s.mem i
  line : LineFresh ramSize m.cpu.icache s

theorem IrqsMasked.congr {hart hart' : Cpu c} (h : IrqsMasked hart)
    (hmie : hart'.csr.mie = hart.csr.mie) (hmode : hart'.mode = hart.mode)
    (hmstatus : hart'.csr.mstatus = hart.csr.mstatus) : IrqsMasked hart' := by
  unfold IrqsMasked at h ⊢
  rw [hmie, hmode, hmstatus]
  exact h

/-- Memory that is not stale and not written stays as it was. -/
theorem LineFresh.mono {icache : Icache c} (h : LineFresh ramSize icache s)
    (hkeep : ∀ i, s'.stale i = false → s.stale i = false ∧ s'.mem i = s.mem i) :
    LineFresh ramSize icache s' := by
  obtain ⟨filled, hline, hfresh⟩ := h
  refine ⟨filled, hline, ?_⟩
  intro i hi hstale
  obtain ⟨hold, hmem⟩ := hkeep i hstale
  rw [hmem]
  exact hfresh i hi hold

/-- An empty line holds no byte. -/
theorem LineFresh.of_empty {icache : Icache c} (hempty : icache.base = cpuAddrMax)
    (hmem : ∀ i, RamAddr ramSize i → ramByte m i = s.mem i) : LineFresh ramSize icache s := by
  refine ⟨m.ram, ?_, fun i hi _ => hmem i hi⟩
  intro hne
  exact absurd hempty hne

/-! ## Effects -/

/-- At most the PC, the registers, the line, the bus and RAM have changed. -/
structure Untouched (m m' : Machine c) : Prop where
  cpu : m'.cpu = { m.cpu with pc := m'.cpu.pc, regs := m'.cpu.regs, icache := m'.cpu.icache }
  aclint : m'.aclint = m.aclint
  plic : m'.plic = m.plic
  uart : m'.uart = m.uart
  console : m'.console = m.console

theorem Untouched.trans {m1 m2 m3 : Machine c} (h : Untouched m1 m2) (h' : Untouched m2 m3) :
    Untouched m1 m3 where
  cpu := by rw [h'.cpu, h.cpu]
  aclint := h'.aclint.trans h.aclint
  plic := h'.plic.trans h.plic
  uart := h'.uart.trans h.uart
  console := h'.console.trans h.console

/-- From `m` the hart came to a machine that shows `s'`, and touched nothing else. -/
structure Leads (ramSize : Nat) (m m' : Machine c) (s' : Hart c.xlen c.alen) : Prop
    extends Shows ramSize m' s' where
  frame : Untouched m m'

theorem Leads.trans {m1 m2 m3 : Machine c} {s2 s3 : Hart c.xlen c.alen}
    (h : Leads ramSize m1 m2 s2) (h' : Leads ramSize m2 m3 s3) : Leads ramSize m1 m3 s3 :=
  ⟨h'.toShows, h.frame.trans h'.frame⟩

/-- `_writeReg` is the write of the register file. -/
theorem writeReg_regFile {hart : Cpu c} (ht : hart.trap = false) {r : RegFile c.xlen}
    (hregs : hart.regs = r.val) (rd : RegNo) (x : Word c) :
    writeReg hart rd x = { hart with regs := (r.set rd x).val } := by
  by_cases hrd : rd = x0
  · subst hrd
    rw [writeReg_x0, RegFile.set_x0, ← hregs]
  · have hcond : (rd = 0#5 || hart.trap) = false := by simp [ht, hrd]
    have hset : (r.set rd x).val = Function.update hart.regs rd x := by
      funext i
      rw [hregs]
      by_cases hi : i = rd
      · subst hi
        simp [RegFile.set, hrd]
      · simp [RegFile.set, hi]
    simp only [writeReg, hcond, Bool.false_eq_true, if_false, hset]

namespace Shows

variable (h : Shows ramSize m s)
include h

theorem readReg (r : Reg) : RV640.readReg m.cpu r = s.regs.val r := by
  rw [RV640.readReg, h.regs]

/-- The end of an instruction that leaves the PC to the run loop. -/
theorem next (size : Nat) : Leads ramSize m (advancePC m size) (s.next size) := by
  have hadv : advancePC m size
      = { m with cpu := { m.cpu with pc := s.pc + BitVec.ofNat _ size } } := by
    simp only [advancePC, writePC, h.running, Bool.false_eq_true, if_false, readPC, h.pc]
  rw [hadv]
  exact ⟨⟨h.devices, h.running, h.masked, rfl, h.regs, h.mem, h.line⟩, rfl, rfl, rfl, rfl, rfl⟩

/-- A result in a register. -/
theorem write (rd : RegNo) (x : Word c) (size : Nat) :
    Leads ramSize m (advancePC { m with cpu := writeReg m.cpu rd x } size)
      (s.write rd x size) := by
  rw [writeReg_regFile h.running h.regs]
  have hreg : Leads ramSize m { m with cpu := { m.cpu with regs := (s.regs.set rd x).val } }
      { s with regs := s.regs.set rd x } :=
    ⟨⟨h.devices, h.running, h.masked, h.pc, rfl, h.mem, h.line⟩, rfl, rfl, rfl, rfl, rfl⟩
  exact hreg.trans (hreg.toShows.next size)

/-- A jump. -/
theorem jump (rd : RegNo) (target : Addr c) (size : Nat) :
    Leads ramSize m (jumped m rd target size) (s.jump rd target size) := by
  unfold jumped
  rw [writeReg_regFile h.running h.regs, h.pc]
  exact ⟨⟨h.devices, h.running, h.masked, rfl, rfl, h.mem, h.line⟩, rfl, rfl, rfl, rfl, rfl⟩

/-- A store, with a new reservation. -/
theorem store {w : Nat} {a : Addr c} {n : Nat} (x : BitVec w) (ha : InRam ramSize a n) :
    Leads ramSize m
      { m with
        bus := busWriteInvalidate m.bus a n, ram := memWrite m.ram (ramOffset a) (toBytes n x) }
      (s.store a.toNat (toBytes n x)) := by
  refine ⟨⟨?_, h.running, h.masked, h.pc, h.regs, ?_, h.line.mono ?_⟩, rfl, rfl, rfl, rfl, rfl⟩
  · rw [MainDevices, busWriteInvalidate_devices]
    exact h.devices
  · intro i hi
    rw [ramByte_store a n x ha.1 rfl hi.1]
    simp only [storedByte, Hart.store, Bytes.writeAt, toBytes_getElem?]
    by_cases hle : a.toNat ≤ i
    · by_cases hlt : i < a.toNat + n
      · rw [if_pos ⟨hle, hlt⟩, if_pos hle, if_pos (by omega), Option.getD_some]
      · rw [if_neg (by omega), if_pos hle, if_neg (by omega), Option.getD_none, h.mem i hi]
    · rw [if_neg (by omega), if_neg hle, h.mem i hi]
  · intro i hstale
    simp only [Hart.store, Bool.or_eq_false_iff, decide_eq_false_iff_not, toBytes_length] at hstale
    refine ⟨hstale.1, Bytes.writeAt_outside _ _ _ ?_⟩
    rw [toBytes_length]
    omega

/-- A flush of the line. The bytes that are not stale are those of memory, and so are all. -/
theorem flush (stale : Nat → Bool) :
    Leads ramSize m { m with cpu := flushIcache m.cpu } { s with stale := stale } :=
  ⟨⟨h.devices, h.running, h.masked, h.pc, h.regs, h.mem, LineFresh.of_empty (m := m) rfl h.mem⟩,
    rfl, rfl, rfl, rfl, rfl⟩

end Shows

theorem Leads.next {m1 : Machine c} (h : Leads ramSize m m1 s) (size : Nat) :
    Leads ramSize m (advancePC m1 size) (s.next size) := h.trans (h.toShows.next size)

theorem Leads.write {m1 : Machine c} (h : Leads ramSize m m1 s) (rd : RegNo) (x : Word c)
    (size : Nat) :
    Leads ramSize m (advancePC { m1 with cpu := writeReg m1.cpu rd x } size) (s.write rd x size) :=
  h.trans (h.toShows.write rd x size)

/-! ## The sizes of accesses -/

theorem accessSize_le (funct3 : BitVec 3) (h : c.isRv64 = true ∨ funct3 &&& 3#3 ≠ 3#3) :
    accessSize funct3 ≤ c.wordBytes := by
  have hall : ∀ f : BitVec 3, accessSize f ≤ 8 ∧ (f &&& 3#3 ≠ 3#3 → accessSize f ≤ 4) := by
    decide
  obtain ⟨h8, h4⟩ := hall funct3
  rcases h with hrv | hf
  · have : c.wordBytes = 8 := by rw [Cfg.wordBytes, Cfg.xlen_of_rv64 hrv]
    omega
  · have hc : 4 ≤ c.wordBytes := by cases c <;> decide
    have := h4 hf
    omega

/-- The loads there are fit a register. -/
theorem legal_load {funct3 : BitVec 3} {rd rs1 : RegNo} {imm : BitVec 12}
    (h : (MemOp.load funct3 rd rs1 imm).legal c.isRv64 = true) :
    accessSize funct3 ≤ c.wordBytes := by
  apply accessSize_le
  have hall : ∀ (rv64 : Bool) (f : BitVec 3),
      ([0#3, 1#3, 2#3, 4#3, 5#3].contains f || rv64 && [3#3, 6#3].contains f) = true →
        rv64 = true ∨ f &&& 3#3 ≠ 3#3 := by decide
  exact hall _ _ h

/-- The stores and atomics there are fit a register, and their size is all of `funct3`. -/
theorem width_of_legal {funct3 : BitVec 3}
    (h : ([0#3, 1#3, 2#3].contains funct3 || c.isRv64 && funct3 == 3#3) = true) :
    accessSize funct3 ≤ c.wordBytes ∧ storeSize funct3 = accessSize funct3 := by
  have hall : ∀ (rv64 : Bool) (f : BitVec 3),
      ([0#3, 1#3, 2#3].contains f || rv64 && f == 3#3) = true →
        (rv64 = true ∨ f &&& 3#3 ≠ 3#3) ∧ f &&& 3#3 = f := by decide
  obtain ⟨hw, hf⟩ := hall _ _ h
  refine ⟨accessSize_le funct3 hw, ?_⟩
  rw [storeSize, accessSize, hf]

/-! ## Instructions -/

section Exec

variable (hsz : ramSize ≤ ramSizeMax) (h : Shows ramSize m s)
include h

/-- The address of a load or store. -/
theorem Shows.addr (rs1 : RegNo) (imm : BitVec 12) :
    effectiveAddr m.cpu rs1 imm = s.addr rs1 imm := by
  rw [effectiveAddr, h.readReg]
  rfl

/-- The bytes of a range in RAM. -/
theorem Shows.bytes {a : Addr c} {n : Nat} (ha : InRam ramSize a n) :
    ((List.range n).map fun k => ramByte m (a.toNat + k)) = Bytes.readAt s.mem a.toNat n := by
  unfold Bytes.readAt
  apply List.map_congr_left
  intro k hk
  have hlo := ha.1
  have hhi := ha.2
  have := List.mem_range.mp hk
  exact h.mem _ ⟨by omega, by omega⟩

include hsz

/-- A base instruction. -/
theorem Shows.execBase {size : Nat} (b : Base)
    (hexec : b.exec (platform c ramSize) size s = some s')
    (hsllw : ∀ rd rs1 rs2, b = .op32 0#7 1#3 rd rs1 rs2 → (s.regs.val rs2).getLsbD 5 = false) :
    Leads ramSize m (advancePC (RV640.execBase m size b) size) s' := by
  have hx := c.xlen_ge
  cases b with
  | load funct3 rd rs1 imm =>
      simp only [Base.exec] at hexec
      split at hexec
      · rename_i hcond
        obtain ⟨hlegal, hin⟩ := hcond
        obtain rfl := Option.some.inj hexec
        rw [← h.addr] at hin
        have hload := execInstr_load h.devices hsz h.running funct3 rd rs1 imm
          (legal_load hlegal) hin
        rw [execInstr_encode, show loadSize funct3 = accessSize funct3 from rfl, h.bytes hin,
          h.addr] at hload
        have hexec : RV640.execBase m size (.load funct3 rd rs1 imm) = _ := hload
        rw [hexec]
        exact h.write rd _ size
      · cases hexec
  | store funct3 rs1 rs2 imm =>
      simp only [Base.exec] at hexec
      split at hexec
      · rename_i hcond
        obtain ⟨hlegal, hin⟩ := hcond
        obtain rfl := Option.some.inj hexec
        obtain ⟨hle, hsize⟩ := width_of_legal hlegal
        rw [← hsize] at hle hin ⊢
        rw [← h.addr] at hin
        have hstore := execInstr_store h.devices hsz h.running funct3 rs1 rs2 imm hle hin
        rw [execInstr_encode, h.readReg] at hstore
        have hexec : RV640.execBase m size (.store funct3 rs1 rs2 imm) = _ := hstore
        rw [hexec, ← h.addr]
        exact (h.store _ hin).next size
      · cases hexec
  | opImm funct3 rd rs1 imm =>
      obtain ⟨x, hres, rfl⟩ := Option.map_eq_some_iff.mp hexec
      rw [← h.readReg] at hres
      simp only [RV640.execBase, doOPIMM_result m.cpu funct3 imm rd rs1 hres]
      exact h.write rd x size
  | opImm32 funct3 rd rs1 imm =>
      simp only [Base.exec] at hexec
      split at hexec
      · rename_i hcond
        obtain ⟨hrv, hword⟩ := hcond
        obtain ⟨x, hres, rfl⟩ := Option.map_eq_some_iff.mp hexec
        rw [← h.readReg] at hres
        simp only [RV640.execBase, if_pos (show c.isRv64 = true from hrv),
          doOPIMM32_result m.cpu funct3 imm rd rs1 hword hres]
        exact h.write rd _ size
      · cases hexec
  | op funct7 funct3 rd rs1 rs2 =>
      obtain ⟨x, hres, rfl⟩ := Option.map_eq_some_iff.mp hexec
      rw [← h.readReg, ← h.readReg] at hres
      simp only [RV640.execBase, doOP_result m.cpu funct7 funct3 rd rs1 rs2 hres]
      exact h.write rd x size
  | op32 funct7 funct3 rd rs1 rs2 =>
      simp only [Base.exec] at hexec
      split at hexec
      · rename_i hcond
        obtain ⟨hrv, hword⟩ := hcond
        obtain ⟨x, hres, rfl⟩ := Option.map_eq_some_iff.mp hexec
        rw [← h.readReg, ← h.readReg] at hres
        have hbit : funct7 = 0#7 → funct3 = 1#3 → (RV640.readReg m.cpu rs2).getLsbD 5 = false := by
          rintro rfl rfl
          rw [h.readReg]
          exact hsllw rd rs1 rs2 rfl
        simp only [RV640.execBase, if_pos (show c.isRv64 = true from hrv),
          doOP32_result hrv m.cpu funct7 funct3 rd rs1 rs2 hword hbit hres]
        exact h.write rd _ size
      · cases hexec
  | lui rd imm =>
      obtain rfl := Option.some.inj hexec
      simp only [RV640.execBase, doLUI, upperImm_place]
      exact h.write rd _ size
  | jal rd imm =>
      obtain rfl := Option.some.inj hexec
      have hjump := doJAL_advance h.running (place imm 1) rd size
      rw [signExtend_halfwords imm (by decide) (by decide) (by omega), target_offset, h.pc] at hjump
      simp only [RV640.execBase, hjump]
      exact h.jump rd _ size
  | jalr rd rs1 imm =>
      obtain rfl := Option.some.inj hexec
      have hjump := doJALR_advance h.running (place imm 0) rd rs1 size
      rw [signExtend_bytes imm (by decide) (by omega), h.readReg] at hjump
      simp only [RV640.execBase, hjump]
      exact h.jump rd _ size
  | branch funct3 rs1 rs2 imm =>
      obtain ⟨taken, hres, rfl⟩ := Option.map_eq_some_iff.mp hexec
      rw [← branchTaken_result, ← h.readReg, ← h.readReg] at hres
      cases taken with
      | true =>
          have hjump := doBRANCH_advance h.running funct3 (place imm 1) rs1 rs2 hres size
          rw [signExtend_halfwords imm (by decide) (by decide) (by omega), target_offset, h.pc]
            at hjump
          have hjumped := h.jump x0 (s.pc + BitVec.ofInt _ (2 * imm.toInt)) size
          rw [Hart.jump, RegFile.set_x0] at hjumped
          simp only [RV640.execBase, hjump, if_true]
          exact hjumped
      | false =>
          have hseq : doBRANCH m.cpu funct3 (place imm 1) rs1 rs2 size = m.cpu := by
            simp only [doBRANCH, hres]
          simp only [RV640.execBase, hseq, Bool.false_eq_true, if_false]
          exact h.next size
  | ebreak => cases hexec

/-- A read-modify-write atomic. -/
theorem Shows.amo {size : Nat} (op : AmoOp) (funct3 : BitVec 3) (aqrl : BitVec 2)
    (rd rs1 rs2 : RegNo)
    (hexec : (Instr.amo op funct3 aqrl rd rs1 rs2).exec (platform c ramSize) size s = some s') :
    Leads ramSize m (advancePC (doAMO m funct3 op.funct5 rd rs1 rs2) size) s' := by
  simp only [Instr.exec] at hexec
  split at hexec
  · rename_i hcond
    obtain ⟨hlegal, hal, hin⟩ := hcond
    obtain rfl := Option.some.inj hexec
    obtain ⟨hle, hsize⟩ := width_of_legal hlegal
    have haddr : amoAddr m rs1 = (s.regs.val rs1).setWidth c.alen := by rw [amoAddr, h.readReg]
    have hamo : amoSize c funct3 = accessSize funct3 := by
      rw [← hsize] at hle ⊢
      exact Nat.min_eq_left hle
    have hbits : 8 * accessSize funct3 ≤ c.xlen := by
      have : c.wordBytes * 8 = c.xlen := by cases c <;> rfl
      omega
    rw [← haddr] at hal hin ⊢
    have hmask : (amoAddr m rs1).toNat &&& (amoSize c funct3 - 1) = 0 := by
      rw [amoAddr_aligned_iff m funct3 rs1 (by rw [hsize]; exact hle), hsize]
      exact hal
    -- the value in memory and the operand, at the width of the access
    have hold : amoOldVal m funct3 rs1 = (ofBytes (Bytes.readAt s.mem (amoAddr m rs1).toNat
        (accessSize funct3)) : BitVec (8 * accessSize funct3)).signExtend c.xlen := by
      rw [amoOldVal_eq m funct3 rs1 hin.1, hamo, ramValue, h.bytes hin]
    have hx : amoRs2Val m funct3 rs2
        = ((s.regs.val rs2).setWidth (8 * accessSize funct3)).signExtend c.xlen := by
      rw [amoRs2Val_eq, hamo, h.readReg]
    have hrmw := doRMW_inRam h.devices hsz h.running funct3 op.funct5 rd rs1 rs2 hmask
      (by rw [hamo]; exact hin) (amoOp_eq op (amoOldVal m funct3 rs1) (amoRs2Val m funct3 rs2))
    have hresult : ∀ {n : Nat} (old x : BitVec n), amoResult op old x = op.result old x := by
      intro n old x
      cases op with
      | amoadd => exact add_eq_ofInt old x
      | _ => rfl
    -- the handler computes on sign extended copies, and the store cuts the result
    rw [hamo, hold, hx, ← toBytes_setWidth, amoResult_narrow hbits, hresult] at hrmw
    rw [hrmw]
    exact (h.store _ hin).write rd _ size
  · cases hexec

end Exec

/-! ## The word -/

theorem rvExec_word (m : Machine c) {w : BitVec 32} (hq : w.extractLsb' 0 2 = 3#2) :
    rvExec m w = advancePC (execInstr m w) 4 := by
  have hcext : execCext m w = none := by
    unfold execCext
    simp only [hq, if_true]
  simp only [rvExec, hcext]

theorem quadrant_instr (i : Instr) : i.encode.extractLsb' 0 2 = 3#2 := by
  cases i with
  | base b => exact quadrant_encode b
  | auipc | fence | fenceI | amo =>
      simp (disch := decide) [Instr.encode, encodeI, encodeR, encodeU, BitVec.extractLsb'_or,
        extractLsb'_place_of_ge]

/-- The word holds the instruction, in `size` bytes. -/
def InWord (rv64 : Bool) (w : BitVec 32) (i : Instr) (size : Nat) : Prop :=
  size = 4 ∧ w = i.encode ∨ size = 2 ∧ ∃ b, i = .base b ∧ expand rv64 (w.setWidth 16) = some b

/-- **An instruction.** From a machine that shows a state, the end of `rv_run` leads to one that
shows the state after the instruction, and touches nothing else. -/
theorem Shows.exec (hsz : ramSize ≤ ramSizeMax) (h : Shows ramSize m s) {w : BitVec 32}
    {i : Instr} {size : Nat} (hword : InWord c.isRv64 w i size)
    (hexec : i.exec (platform c ramSize) size s = some s')
    (hsllw : ∀ rd rs1 rs2, i = .base (.op32 0#7 1#3 rd rs1 rs2) →
      (s.regs.val rs2).getLsbD 5 = false) :
    Leads ramSize m (rvExec m w) s' := by
  rcases hword with ⟨rfl, rfl⟩ | ⟨rfl, b, rfl, hb⟩
  · rw [rvExec_word m (quadrant_instr i)]
    cases i with
    | base b =>
        have hstep := h.execBase hsz b hexec fun rd rs1 rs2 hb => hsllw rd rs1 rs2 (by rw [hb])
        simp only [Instr.encode, execInstr_encode]
        exact hstep
    | auipc rd imm =>
        obtain ⟨hop, hrd, himm⟩ := decode_encodeU rd opAuipc imm
        obtain rfl := Option.some.inj hexec
        have hauipc : execInstr m (encodeU imm rd opAuipc)
            = { m with
                cpu := writeReg m.cpu rd
                  (s.pc.setWidth _ + BitVec.ofInt _ (imm.toInt * 2 ^ 12)) } := by
          simp only [execInstr, hop, hrd, himm]
          show ({ m with cpu := doAUIPC m.cpu (place imm 12) rd } : Machine c) = _
          rw [doAUIPC, upperImm_place, readPC, h.pc]
        rw [Instr.encode, hauipc]
        exact h.write rd _ 4
    | fence rd rs1 imm =>
        obtain ⟨hop, -, hf, -, -⟩ := decode_encodeI rs1 0#3 rd opMiscMem imm
        obtain rfl := Option.some.inj hexec
        have hfence : execInstr m (encodeI imm rs1 0#3 rd opMiscMem)
            = { m with cpu := flushIcache m.cpu } := by
          simp only [execInstr, hop, hf]
          rfl
        rw [Instr.encode, hfence]
        exact (h.flush s.stale).next 4
    | fenceI rd rs1 imm =>
        obtain ⟨hop, -, hf, -, -⟩ := decode_encodeI rs1 1#3 rd opMiscMem imm
        obtain rfl := Option.some.inj hexec
        have hfence : execInstr m (encodeI imm rs1 1#3 rd opMiscMem)
            = { m with cpu := flushIcache m.cpu } := by
          simp only [execInstr, hop, hf]
          rfl
        rw [Instr.encode, hfence]
        exact (h.flush fun _ => false).next 4
    | amo op funct3 aqrl rd rs1 rs2 =>
        rw [Instr.encode, execInstr_encodeAmo]
        exact h.amo hsz op funct3 aqrl rd rs1 rs2 hexec
  · rw [rvExec_half hb]
    exact h.execBase hsz b hexec fun rd rs1 rs2 hb => hsllw rd rs1 rs2 (by rw [hb])

end RV640
