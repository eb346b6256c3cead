import RV640.Proofs.DecoderExact
import RV640.Proofs.RunLoop

set_option autoImplicit false

/-! # Runs inside the arrays of the PLIC

A completion of an id from 4 on makes `_completeInterrupts` write past the arrays of a context, and
past the last context lies `harts`. From then on the pointer to the hart may be another one, and
nothing is known of the program. This file says, of the state before an event, whether the event
does that: what the instruction stores, and where.
-/

namespace RV640

open Bits Plic

variable {c : Cfg}

/-! ## The write of an instruction -/

/-- The write of `_doSTORE`: none where the size does not fit a register. -/
def storeWrite (m : Machine c) (funct3 : BitVec 3) (simm : BitVec 32) (rs1 rs2 : Reg) :
    Option (Addr c × List Byte) :=
  if c.wordBytes < 1 <<< funct3.toNat then none
  else some (memAddr m simm rs1, toBytes (1 <<< funct3.toNat) (readReg m.cpu rs2))

/-- What an atomic writes over `data`: none for a load-reserved, an illegal encoding and a
store-conditional without its reservation. -/
def amoData (bus : Bus c DevKind) (funct5 : BitVec 5) (addr : Addr c) (size : Nat)
    (rs2Val data : Word c) : Option (Word c) :=
  if funct5 = 3#5 then
    if (busReservationCheckInvalidate bus addr size).2 then some rs2Val else none
  else amoOp funct5 rs2Val data

/-- What an atomic reads, extended. -/
def amoRead (m : Machine c) (funct3 : BitVec 3) (rs1 : Reg) : Word c :=
  signExtend (readMem m (amoAddr m rs1) (amoSize c funct3)).2 (amoSize c funct3 * 8 - 1)

/-- The write of `_doAMO`: none at a misaligned address. -/
def amoWrite (m : Machine c) (funct3 : BitVec 3) (funct5 : BitVec 5) (rs1 rs2 : Reg) :
    Option (Addr c × List Byte) :=
  if (amoAddr m rs1).toNat &&& (amoSize c funct3 - 1) ≠ 0 then none
  else
    (amoData m.bus funct5 (amoAddr m rs1) (amoSize c funct3) (amoRs2Val m funct3 rs2)
      (amoRead m funct3 rs1)).map fun data => (amoAddr m rs1, toBytes (amoSize c funct3) data)

/-- The write of a compressed instruction: C.SW, C.SD, C.SWSP and C.SDSP have one. -/
def halfWrite (m : Machine c) (instr : BitVec 32) (q : BitVec 2) (funct3 : BitVec 3) :
    Option (Addr c × List Byte) :=
  match q, funct3 with
  | 0#2, 6#3 => storeWrite m 2#3 (cextWordOffset instr) (cextReg instr 7) (cextReg instr 2)
  | 0#2, 7#3 =>
      if c.isRv64 then
        storeWrite m 3#3 (cextDoubleOffset instr) (cextReg instr 7) (cextReg instr 2)
      else none
  | 2#2, 6#3 =>
      storeWrite m 2#3 (((instr >>> 7) &&& (0xF#32 <<< 2)) ||| ((instr >>> 1) &&& (3#32 <<< 6))) 2#5
        (cextFullReg instr 2)
  | 2#2, 7#3 =>
      if c.isRv64 then
        storeWrite m 3#3 (((instr >>> 7) &&& (7#32 <<< 3)) ||| ((instr >>> 1) &&& (7#32 <<< 6))) 2#5
          (cextFullReg instr 2)
      else none
  | _, _ => none

/-- The bytes an instruction stores, and where. CBO.ZERO is left out: it stores zeros. -/
def instrWrite (m : Machine c) (w : BitVec 32) : Option (Addr c × List Byte) :=
  if w.extractLsb' 0 2 = 3#2 then
    match opcode w with
    | 8#5 => storeWrite m (decodeFunct3 w) (decodeSimm w) (decodeRs1 w) (decodeRs2 w)
    | 11#5 => amoWrite m (decodeFunct3 w) (decodeFunct5 w) (decodeRs1 w) (decodeRs2 w)
    | _ => none
  else halfWrite m (w &&& 0xFFFF#32) (w.extractLsb' 0 2) (w.extractLsb' 13 3)

/-! ## Large completions -/

/-- The write reaches the PLIC and completes an id from 4 on. -/
def writeCompletes (m : Machine c) : Option (Addr c × List Byte) → Bool
  | none => false
  | some (addr, buf) =>
      match findDevice m.bus addr buf.length with
      | none => false
      | some (d, devAddr) => decide (d.dev.callbacks = .plic)
          && (PlicOp.write devAddr.toNat buf).largeCompletion plicInterrupts

/-- The instruction completes an id from 4 on. With a trap latched nothing is stored. -/
def instrCompletes (m : Machine c) (w : BitVec 32) : Bool :=
  !m.cpu.trap && writeCompletes m (instrWrite m w)

/-- The event is a call of `rv_run` whose instruction completes an id from 4 on. -/
def eventCompletes (m : Machine c) : Event → Bool
  | .run =>
      match rvFetch m with
      | (m1, some w) => instrCompletes m1 w
      | (_, none) => false
  | _ => false

/-- No event of the run from `m` completes an id from 4 on. -/
abbrev SmallCompletions (m : Machine c) (es : List Event) : Prop :=
  Run.Along stepEvent (fun m e => eventCompletes m e = false) m es

/-! ## The effect on the PLIC -/

/-- From `m` to `m'` the PLIC leaves its arrays exactly when `large`; the claims stay small. -/
def PlicStays (large : Bool) (m m' : Machine c) : Prop :=
  m.plic.SmallClaims → m'.plic.oob = (m.plic.oob || large) ∧ m'.plic.SmallClaims

namespace PlicStays

variable {large : Bool} {m m1 m' : Machine c}

theorem of_eq (h : m'.plic = m.plic) : PlicStays false m m' := by
  intro hs
  rw [h, Bool.or_false]
  exact ⟨rfl, hs⟩

theorem trans (h : PlicStays false m m1) (h' : PlicStays large m1 m') : PlicStays large m m' := by
  intro hs
  obtain ⟨hoob, hs1⟩ := h hs
  obtain ⟨hoob', hs'⟩ := h' hs1
  rw [Bool.or_false] at hoob
  exact ⟨hoob ▸ hoob', hs'⟩

theorem of_step (op : PlicOp) (hart : Cpu c)
    (h : m'.plic = (plicStep (m.plic, hart) op).1) : PlicStays (op.largeCompletion 1) m m' := by
  intro hs
  rw [h]
  exact plicStep_one (m.plic, hart) hs op

end PlicStays

/-! ### Devices -/

theorem Ns16550a.irq_plic (m : Machine c) : PlicStays false m (Ns16550a.irq m) := by
  unfold Ns16550a.irq
  split
  · exact .of_step (.interrupt ns16550aIrq) m.cpu rfl
  · exact .of_eq rfl

theorem Ns16550a.writeByte_plic (m : Machine c) (addr : Nat) (b : Byte) :
    PlicStays false m (Ns16550a.writeByte m addr b) := by
  unfold Ns16550a.writeByte
  split
  · split
    · exact .of_eq rfl
    · exact .of_eq rfl
  · split
    · exact .of_eq rfl
    · have hier : PlicStays false m { m with uart := { m.uart with ier := b } } := .of_eq rfl
      exact hier.trans (Ns16550a.irq_plic _)
  · exact .of_eq rfl
  · exact .of_eq rfl

theorem Ns16550a.cbWrite_plic (m : Machine c) (addr : Nat) (buf : List Byte) :
    PlicStays false m (Ns16550a.cbWrite m addr buf) := by
  induction buf generalizing m addr with
  | nil => exact .of_eq rfl
  | cons b bs ih => exact (Ns16550a.writeByte_plic m addr b).trans (ih _ _)

theorem ns16550Push_plic (m : Machine c) (ch : Byte) : PlicStays false m (ns16550Push m ch).1 := by
  unfold ns16550Push
  split
  · exact .of_eq rfl
  · have hstore : PlicStays false m { m with uart := m.uart.store ch } := .of_eq rfl
    exact hstore.trans (Ns16550a.irq_plic _)

theorem devRead_plic (m : Machine c) (dev : DevKind) (addr : Nat) (buf : List Byte) :
    PlicStays false m (devRead m dev addr buf).1 := by
  cases dev with
  | ram => exact .of_eq rfl
  | aclint => exact .of_eq rfl
  | plic => exact .of_step (.read addr buf.length) m.cpu rfl
  | uart => exact .of_eq rfl

/-- A write leaves the arrays when it completes a large id at the PLIC. -/
theorem devWrite_plic (m : Machine c) (dev : DevKind) (addr : Nat) (buf : List Byte) :
    PlicStays (decide (dev = .plic) && (PlicOp.write addr buf).largeCompletion 1) m
      (devWrite m dev addr buf) := by
  cases dev with
  | ram => exact .of_eq rfl
  | aclint => exact .of_eq rfl
  | plic => exact .of_step (.write addr buf) m.cpu rfl
  | uart => exact Ns16550a.cbWrite_plic m addr buf

/-! ### The bus -/

theorem busRead_plic {m m' : Machine c} {addr : Addr c} {buf bs : List Byte}
    (h : busRead m addr buf = some (m', bs)) : PlicStays false m m' := by
  obtain ⟨d, devAddr, -, hr⟩ := busRead_some h
  rw [show m' = (devRead m d.dev.callbacks devAddr.toNat buf).1 from congrArg Prod.fst hr.symm]
  exact devRead_plic _ _ _ _

theorem readMem_plic (m : Machine c) (addr : Addr c) (size : Nat) :
    PlicStays false m (readMem m addr size).1 := by
  unfold readMem
  split
  · exact .of_eq rfl
  · split
    · exact busRead_plic ‹_›
    · exact .of_eq rfl

theorem writeMem_plic (m : Machine c) (addr : Addr c) (buf : List Byte) :
    PlicStays (!m.cpu.trap && writeCompletes m (some (addr, buf))) m (writeMem m addr buf) := by
  unfold writeMem
  cases ht : m.cpu.trap with
  | true => exact .of_eq rfl
  | false =>
      simp only [Bool.false_eq_true, if_false, Bool.not_false, Bool.true_and, writeCompletes,
        busWrite]
      cases findDevice m.bus addr buf.length with
      | none => exact .of_eq rfl
      | some r =>
          -- the reservation goes first, then the device sees the bytes
          exact (PlicStays.of_eq rfl).trans (devWrite_plic
            { m with bus := busWriteInvalidate m.bus addr buf.length } _ _ _)

/-! ### Instructions -/

theorem Plic.completionOf_zeros (n : Nat) (k : Option (Fin plicContexts)) (addr count : Nat) :
    (completionOf n ⟨k, 0#32⟩ addr (List.replicate count 0#8)).irq = 0#32 := by
  induction count generalizing k addr with
  | zero => rfl
  | succ count ih =>
      -- a zero in the word to be completed leaves it 0
      rw [List.replicate_succ, completionOf]
      split
      · rw [show setByte (0#32) _ 0#8 = 0#32 by simp [setByte]]
        exact ih _ _
      · exact ih _ _

/-- Zeros complete no large id. -/
theorem writeCompletes_zeros (m : Machine c) (addr : Addr c) (count : Nat) :
    writeCompletes m (some (addr, List.replicate count 0#8)) = false := by
  simp only [writeCompletes]
  split
  · rfl
  · simp [PlicOp.largeCompletion, Plic.completionOf_zeros]

section Handlers

variable (m : Machine c)

theorem doMISCMEM_plic (funct3 : BitVec 3) (iimm : BitVec 32) (rd rs1 : Reg) :
    PlicStays false m (doMISCMEM m funct3 iimm rd rs1) := by
  unfold doMISCMEM
  split
  · exact .of_eq rfl
  · exact .of_eq rfl
  · split
    · split
      · split
        · exact .of_eq rfl
        · split
          · exact .of_eq rfl
          · -- CBO.ZERO
            have h := writeMem_plic m ((readReg m.cpu rs1
              &&& (~~~BitVec.ofNat _ (dcacheLineSize - 1) : Addr c).setWidth _).setWidth _)
              (List.replicate dcacheLineSize 0#8)
            rw [writeCompletes_zeros, Bool.and_false] at h
            exact h
      · exact .of_eq rfl
    · exact .of_eq rfl
  · exact .of_eq rfl

theorem doLOAD_plic (funct3 : BitVec 3) (iimm : BitVec 32) (rd rs1 : Reg) :
    PlicStays false m (doLOAD m funct3 iimm rd rs1) := by
  simp only [doLOAD]
  split
  · exact .of_eq rfl
  · exact (readMem_plic m _ _).trans (.of_eq rfl)

theorem doSTORE_plic (funct3 : BitVec 3) (simm : BitVec 32) (rs1 rs2 : Reg) :
    PlicStays (!m.cpu.trap && writeCompletes m (storeWrite m funct3 simm rs1 rs2)) m
      (doSTORE m funct3 simm rs1 rs2) := by
  simp only [doSTORE, storeWrite]
  split
  · rw [writeCompletes, Bool.and_false]
    exact .of_eq rfl
  · exact writeMem_plic m _ _

/-- What the switch of `_doAMO` asks to be written. -/
theorem amoSwitch_data {m : Machine c} (ht : m.cpu.trap = false) (funct5 : BitVec 5) (rs2 : Reg)
    (addr : Addr c) (size : Nat) (rs2Val data : Word c) :
    let r := amoSwitch m funct5 rs2 addr size rs2Val data
    (if !r.1.cpu.trap && r.2.needWrite then some r.2.data else none)
      = amoData m.bus funct5 addr size rs2Val data := by
  unfold amoSwitch amoData
  split
  · split
    · rfl
    · simp [amoOp]
  · cases hok : (busReservationCheckInvalidate m.bus addr size).2 with
    | false => simp [hok]
    | true => simp [hok, ht]
  · rename_i hlr hsc
    rw [if_neg hsc]
    cases hop : amoOp funct5 rs2Val data with
    | none => rfl
    | some res => simp [ht]

/-- `_doAMO` on an aligned address, with what it reads. -/
theorem doAMO_reads {funct3 : BitVec 3} {rs1 : Reg}
    (hal : (amoAddr m rs1).toNat &&& (amoSize c funct3 - 1) = 0) (funct5 : BitVec 5)
    (rd rs2 : Reg) : doAMO m funct3 funct5 rd rs1 rs2
      = amoTail (amoSwitch (readMem m (amoAddr m rs1) (amoSize c funct3)).1 funct5 rs2
          (amoAddr m rs1) (amoSize c funct3) (amoRs2Val m funct3 rs2) (amoRead m funct3 rs1))
        rd (amoAddr m rs1) (amoSize c funct3) := by
  unfold amoAddr at hal
  simp only [doAMO, hal, ne_eq, not_true_eq_false, if_false]
  rfl

theorem amoSwitch_keeps (funct5 : BitVec 5) (rs2 : Reg) (addr : Addr c) (size : Nat)
    (rs2Val data : Word c) :
    let m1 := (amoSwitch m funct5 rs2 addr size rs2Val data).1
    m1.plic = m.plic ∧ m1.bus.devices = m.bus.devices
      ∧ (m.cpu.trap = true → m1.cpu.trap = true) := by
  unfold amoSwitch
  split
  · split
    · exact ⟨rfl, rfl, fun _ => rfl⟩
    · exact ⟨rfl, rfl, id⟩
  · exact ⟨rfl, busReservationCheckInvalidate_devices _ _ _, id⟩
  · split
    · exact ⟨rfl, rfl, id⟩
    · exact ⟨rfl, rfl, fun _ => rfl⟩

theorem writeCompletes_congr {m m' : Machine c} (h : m'.bus.devices = m.bus.devices)
    (write : Option (Addr c × List Byte)) : writeCompletes m' write = writeCompletes m write := by
  cases write with
  | none => rfl
  | some w => simp only [writeCompletes, findDevice_congr h]

theorem writeCompletes_unmapped {m : Machine c} {addr : Addr c} {size : Nat}
    (hu : Unmapped m addr size) (data : Option (Word c)) :
    writeCompletes m (data.map fun d => (addr, toBytes size d)) = false := by
  cases data with
  | none => rfl
  | some d =>
      rw [Unmapped] at hu
      simp only [Option.map_some, writeCompletes, toBytes_length, hu]

theorem readMem_bus (addr : Addr c) (size : Nat) : (readMem m addr size).1.bus = m.bus := by
  unfold readMem
  split
  · rfl
  · split
    · exact (busRead_frame ‹_›).bus
    · rfl

/-- A read keeps a latched trap, and latches none at a device. -/
theorem readMem_traps (addr : Addr c) (size : Nat) :
    (m.cpu.trap = true → (readMem m addr size).1.cpu.trap = true)
      ∧ (m.cpu.trap = false → ¬ Unmapped m addr size →
        (readMem m addr size).1.cpu.trap = false) := by
  constructor
  · intro ht
    unfold readMem
    rw [if_pos ht]
    exact ht
  · intro ht hu
    exact (readMem_keeps_mapped ht hu).1

/-- The end of `_doAMO`. -/
theorem amoTail_plic (r : Machine c × AmoResult c) (rd : Reg) (addr : Addr c) (size : Nat) :
    PlicStays (writeCompletes r.1
      ((if !r.1.cpu.trap && r.2.needWrite then some r.2.data else none).map
        fun data => (addr, toBytes size data))) r.1 (amoTail r rd addr size) := by
  have hreg : PlicStays false r.1 { r.1 with cpu := writeReg r.1.cpu rd r.2.rdVal } := .of_eq rfl
  have hw : PlicStays (!r.1.cpu.trap && writeCompletes r.1 (some (addr, toBytes size r.2.data)))
      { r.1 with cpu := writeReg r.1.cpu rd r.2.rdVal }
      (writeMem { r.1 with cpu := writeReg r.1.cpu rd r.2.rdVal } addr
        (toBytes size r.2.data)) := by
    have h := writeMem_plic { r.1 with cpu := writeReg r.1.cpu rd r.2.rdVal } addr
      (toBytes size r.2.data)
    rw [writeReg_trap] at h
    exact h
  -- `rd` is written before the memory
  simp only [amoTail]
  cases r.2.needWrite with
  | false =>
      rw [Bool.and_false]
      exact hreg
  | true =>
      rw [Bool.and_true]
      cases ht : r.1.cpu.trap with
      | true =>
          rw [ht] at hw
          exact hreg.trans hw
      | false =>
          rw [ht] at hw
          exact hreg.trans hw

theorem doAMO_plic (funct3 : BitVec 3) (funct5 : BitVec 5) (rd rs1 rs2 : Reg) :
    PlicStays (!m.cpu.trap && writeCompletes m (amoWrite m funct3 funct5 rs1 rs2)) m
      (doAMO m funct3 funct5 rd rs1 rs2) := by
  by_cases hal : (amoAddr m rs1).toNat &&& (amoSize c funct3 - 1) = 0
  · rw [doAMO_reads m hal]
    have hread := readMem_plic m (amoAddr m rs1) (amoSize c funct3)
    have hbus := readMem_bus m (amoAddr m rs1) (amoSize c funct3)
    have hkeeps := readMem_traps m (amoAddr m rs1) (amoSize c funct3)
    generalize (readMem m (amoAddr m rs1) (amoSize c funct3)).1 = m1
      at hread hbus hkeeps ⊢
    obtain ⟨hplic, hdev, htrap⟩ := amoSwitch_keeps m1 funct5 rs2 (amoAddr m rs1)
      (amoSize c funct3) (amoRs2Val m funct3 rs2) (amoRead m funct3 rs1)
    have htail := amoTail_plic (amoSwitch m1 funct5 rs2 (amoAddr m rs1) (amoSize c funct3)
      (amoRs2Val m funct3 rs2) (amoRead m funct3 rs1)) rd (amoAddr m rs1) (amoSize c funct3)
    have hstays := (hread.trans (.of_eq hplic)).trans htail
    rw [writeCompletes_congr hdev, writeCompletes_congr (congrArg Bus.devices hbus)] at hstays
    have hwrite : amoWrite m funct3 funct5 rs1 rs2 = (amoData m.bus funct5 (amoAddr m rs1)
        (amoSize c funct3) (amoRs2Val m funct3 rs2) (amoRead m funct3 rs1)).map
          fun data => (amoAddr m rs1, toBytes (amoSize c funct3) data) := by
      unfold amoWrite
      rw [if_neg (not_not_intro hal)]
    rw [hwrite]
    cases ht : m.cpu.trap with
    | true =>
        -- nothing is read and nothing is written
        rw [htrap (hkeeps.1 ht)] at hstays
        exact hstays
    | false =>
        rw [Bool.not_false, Bool.true_and]
        by_cases hu : Unmapped m (amoAddr m rs1) (amoSize c funct3)
        · -- the read traps, and the write would have reached no device
          rw [writeCompletes_unmapped hu] at hstays ⊢
          exact hstays
        · rw [amoSwitch_data (hkeeps.2 ht hu), hbus] at hstays
          exact hstays
  · have hnone : amoWrite m funct3 funct5 rs1 rs2 = none := by
      unfold amoWrite
      rw [if_pos hal]
    rw [hnone, doAMO_misaligned funct3 funct5 rd rs1 rs2 hal, writeCompletes, Bool.and_false]
    exact .of_eq rfl

/-! ### The jump tables -/

/-- Of the 32-bit instructions only stores and atomics store. -/
theorem instrCompletes_word {w : BitVec 32} (hq : w.extractLsb' 0 2 = 3#2) (h8 : opcode w ≠ 8#5)
    (h11 : opcode w ≠ 11#5) : instrCompletes m w = false := by
  have hnone : instrWrite m w = none := by
    unfold instrWrite
    rw [if_pos hq]
    split
    · exact absurd ‹_› h8
    · exact absurd ‹_› h11
    · rfl
  rw [instrCompletes, hnone, writeCompletes, Bool.and_false]

theorem execInstr_plic {w : BitVec 32} (hq : w.extractLsb' 0 2 = 3#2) :
    PlicStays (instrCompletes m w) m (execInstr m w) := by
  by_cases h8 : opcode w = 8#5
  · simp only [instrCompletes, instrWrite, if_pos hq, execInstr, h8]
    exact doSTORE_plic m _ _ _ _
  · by_cases h11 : opcode w = 11#5
    · simp only [instrCompletes, instrWrite, if_pos hq, execInstr, h11]
      exact doAMO_plic m _ _ _ _ _
    · rw [instrCompletes_word m hq h8 h11]
      simp only [execInstr]
      split
      · exact doLOAD_plic m _ _ _ _
      · exact doMISCMEM_plic m _ _ _ _
      · exact .of_eq rfl
      · exact .of_eq rfl
      · exact .of_eq rfl
      · exact absurd ‹_› h8
      · exact absurd ‹_› h11
      all_goals exact .of_eq rfl

theorem decodeCextQ1_4_plic (instr : BitVec 32) : (decodeCextQ1_4 m instr).plic = m.plic := by
  simp only [decodeCextQ1_4]
  split
  · rfl
  · rfl
  · split
    · split
      · split <;> rfl
      · rfl
    · split <;> rfl
  · rfl

theorem decodeCextQ2_4_plic (instr : BitVec 32) : (decodeCextQ2_4 m instr).plic = m.plic := by
  simp only [decodeCextQ2_4]
  split
  · split
    · split <;> rfl
    · split <;> rfl
  · split
    · split <;> rfl
    · split <;> rfl

theorem cextTable_plic (instr : BitVec 32) (q : BitVec 2) (funct3 : BitVec 3) :
    PlicStays (!m.cpu.trap && writeCompletes m (halfWrite m instr q funct3)) m
      (cextTable m instr q funct3) := by
  have hnone : ∀ {m' : Machine c}, PlicStays false m m' →
      PlicStays (!m.cpu.trap && writeCompletes m none) m m' := by
    intro m' h
    rwa [writeCompletes, Bool.and_false]
  unfold cextTable
  split
  · simp only [decodeCextQ0_0]
    split <;> exact hnone (.of_eq rfl)
  · exact hnone (doLOAD_plic m _ _ _ _)
  · unfold decodeCextQ0_3
    split
    · exact hnone (doLOAD_plic m _ _ _ _)
    · exact hnone (.of_eq rfl)
  · exact doSTORE_plic m _ _ _ _
  · simp only [decodeCextQ0_7, halfWrite]
    split
    · exact doSTORE_plic m _ _ _ _
    · exact hnone (.of_eq rfl)
  · simp only [decodeCextQ1_0]
    split
    · split <;> exact hnone (.of_eq rfl)
    · exact hnone (.of_eq rfl)
  · simp only [decodeCextQ1_1]
    split
    · split <;> exact hnone (.of_eq rfl)
    · exact hnone (.of_eq rfl)
  · simp only [decodeCextQ1_2]
    split <;> exact hnone (.of_eq rfl)
  · simp only [decodeCextQ1_3]
    split
    · split
      · split <;> exact hnone (.of_eq rfl)
      · split <;> exact hnone (.of_eq rfl)
    · exact hnone (.of_eq rfl)
  · exact hnone (.of_eq (decodeCextQ1_4_plic m instr))
  · exact hnone (.of_eq rfl)
  · exact hnone (.of_eq rfl)
  · exact hnone (.of_eq rfl)
  · simp only [decodeCextQ2_0]
    split <;> exact hnone (.of_eq rfl)
  · simp only [decodeCextQ2_2]
    split
    · exact hnone (doLOAD_plic m _ _ _ _)
    · exact hnone (.of_eq rfl)
  · simp only [decodeCextQ2_3]
    split
    · split
      · exact hnone (doLOAD_plic m _ _ _ _)
      · exact hnone (.of_eq rfl)
    · exact hnone (.of_eq rfl)
  · exact hnone (.of_eq (decodeCextQ2_4_plic m instr))
  · exact doSTORE_plic m _ _ _ _
  · simp only [decodeCextQ2_7, halfWrite]
    split
    · exact doSTORE_plic m _ _ _ _
    · exact hnone (.of_eq rfl)
  · -- the entries without an instruction
    have hill : halfWrite m instr q funct3 = none := by
      unfold halfWrite
      split <;> first | rfl | (exfalso; simp_all)
    rw [hill]
    exact hnone (.of_eq rfl)

end Handlers

/-- **The instruction of `rv_run` leaves the arrays exactly when it completes a large id.** -/
theorem rvExec_plic (m : Machine c) (w : BitVec 32) :
    PlicStays (instrCompletes m w) m (rvExec m w) := by
  -- the two low bits tell the 32-bit instructions from the compressed ones
  unfold rvExec execCext
  by_cases hq : w.extractLsb' 0 2 = 3#2
  · simp only [if_pos hq]
    exact execInstr_plic m hq
  · simp only [if_neg hq]
    have h := cextTable_plic m (w &&& 0xFFFF#32) (w.extractLsb' 0 2) (w.extractLsb' 13 3)
    rw [instrCompletes, instrWrite, if_neg hq]
    exact h

/-! ### The run loop -/

theorem dbgConWrite_plic (m : Machine c) (addr : Word c) (count : Nat) :
    PlicStays false m (dbgConWrite m addr count).1 := by
  induction count generalizing m addr with
  | zero => exact .of_eq rfl
  | succ count ih =>
      unfold dbgConWrite
      split
      · exact .of_eq rfl
      · rename_i m1 bs hr
        have hput : PlicStays false m1 (uiPutch m1 (bs.headD 0#8)) := .of_eq rfl
        exact ((busRead_plic hr).trans hput).trans (ih _ _)

theorem sbiHandleEcall_plic (m : Machine c) : PlicStays false m (sbiHandleEcall m) := by
  have hd : PlicStays false m (sbiDispatch m (m.cpu.regs regA7) (m.cpu.regs regA6)).1 := by
    unfold sbiDispatch
    split
    · exact .of_eq rfl
    · split
      · unfold handleTimerExt
        split <;> exact .of_eq rfl
      · split
        · unfold handleDbgConExt
          split
          · exact dbgConWrite_plic m _ _
          · exact .of_eq rfl
        · exact .of_eq rfl
  exact hd.trans (.of_eq rfl)

theorem sbiHandleInterrupt_plic (m : Machine c) : (sbiHandleInterrupt m).plic = m.plic := by
  unfold sbiHandleInterrupt
  split <;> rfl

theorem doTrap_plic (m : Machine c) : PlicStays false m (doTrap m) := by
  have hentered : PlicStays false m { m with cpu := enterTrap m.cpu } := .of_eq rfl
  simp only [doTrap]
  split
  · exact (hentered.trans (sbiHandleEcall_plic _)).trans (.of_eq rfl)
  · exact (hentered.trans (.of_eq (sbiHandleInterrupt_plic _))).trans (.of_eq rfl)
  · exact .of_eq rfl
  · exact .of_eq rfl

theorem fetch_plic (m : Machine c) : PlicStays false m (fetch m).1 := by
  have hf := fetch_fetches m
  generalize fetch m = r at hf ⊢
  cases hf with
  | misaligned _ => exact .of_eq rfl
  | hit _ _ => exact .of_eq rfl
  | fill _ _ hline => exact (busRead_plic hline).trans (.of_eq rfl)
  | word _ _ _ hword => exact busRead_plic hword
  | fault _ _ _ _ => exact .of_eq rfl

theorem rvFetch_plic (m : Machine c) : PlicStays false m (rvFetch m).1 := by
  have hent : PlicStays false m (rvEnter m).1 := by
    have he := rvEnter_enters m
    generalize rvEnter m = r at he ⊢
    cases he with
    | trapped _ => exact doTrap_plic m
    | searched _ _ => exact .of_eq rfl
    | idle _ _ => exact .of_eq rfl
  exact rvFetch_keeps hent fun m1 h1 => h1.trans (fetch_plic m1)

/-- One event. -/
theorem stepEvent_plic (m : Machine c) (e : Event) :
    PlicStays (eventCompletes m e) m (stepEvent m e) := by
  cases e with
  | run =>
      have hf := rvFetch_plic m
      show PlicStays _ m (rvRun m)
      simp only [eventCompletes, rvRun]
      cases hr : rvFetch m with
      | mk m1 o =>
          rw [hr] at hf
          cases o with
          | none => exact hf
          | some w => exact hf.trans (rvExec_plic m1 w)
  | tick cycles => exact .of_eq rfl
  | push ch => exact ns16550Push_plic m ch
  | plicIrq n => exact .of_step (.interrupt n) m.cpu rfl

/-! ## Runs -/

/-- The PLIC never left its arrays, and the claims it caches are small. -/
structure PlicSafe (m : Machine c) : Prop where
  inside : m.plic.oob = false
  small : m.plic.SmallClaims

theorem PlicSafe.of_init {m : Machine c} (h : m.plic = plicInit _) : PlicSafe m := by
  refine ⟨by rw [h]; rfl, ?_⟩
  rw [h]
  intro j
  simp [plicInit]

theorem PlicStays.safe {m m' : Machine c} (h : PlicStays false m m') (hm : PlicSafe m) :
    PlicSafe m' := by
  obtain ⟨hoob, hsmall⟩ := h hm.small
  exact ⟨by rw [hoob, hm.inside]; rfl, hsmall⟩

/-- An event keeps the PLIC inside its arrays exactly when it completes no large id. -/
theorem PlicSafe.event_iff {m : Machine c} (hm : PlicSafe m) (e : Event) :
    PlicSafe (stepEvent m e) ↔ eventCompletes m e = false := by
  obtain ⟨hoob, hsmall⟩ := stepEvent_plic m e hm.small
  rw [hm.inside, Bool.false_or] at hoob
  rw [← hoob]
  exact ⟨PlicSafe.inside, fun h => ⟨h, hsmall⟩⟩

/-- **A run that completes no large id stays inside the arrays of the PLIC.** -/
theorem PlicSafe.run {m : Machine c} (hm : PlicSafe m) {es : List Event}
    (h : SmallCompletions m es) : PlicSafe (Run.run stepEvent m es) :=
  Run.invariant (fun _ e hs he => (hs.event_iff e).mpr he) es m hm h

/-- Devices complete nothing. -/
theorem PlicSafe.devices {m : Machine c} (hm : PlicSafe m) {ds : List Event}
    (hds : ∀ e ∈ ds, e ≠ .run) : PlicSafe (Run.run stepEvent m ds) := by
  induction ds generalizing m with
  | nil => exact hm
  | cons e ds ih =>
      have he : eventCompletes m e = false := by
        cases e with
        | run => exact absurd rfl (hds .run List.mem_cons_self)
        | tick | push | plicIrq => rfl
      exact ih ((hm.event_iff e).mpr he) fun e' h => hds e' (List.mem_cons_of_mem e h)

/-- An instruction that completes no large id. -/
theorem PlicSafe.exec {m : Machine c} (hm : PlicSafe m) {w : BitVec 32}
    (h : instrCompletes m w = false) : PlicSafe (rvExec m w) := by
  have hstays := rvExec_plic m w
  rw [h] at hstays
  exact hstays.safe hm

end RV640
