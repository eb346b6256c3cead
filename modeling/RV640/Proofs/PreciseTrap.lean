import RV640.Proofs.BusDecode
import RV640.Proofs.Modes
import RV640.Proofs.QuietRead

set_option autoImplicit false

/-! # Precise traps

An instruction that raises a trap should leave no other trace. The handlers keep this by checking
before they act, or by writing through helpers that do nothing once a trap is latched. `_doAMO`
does neither: its switch runs after a failed read and touches the reservation, and it decodes
`funct5` only after the read.
-/

namespace RV640

open Bits

variable {c : Cfg}

/-- The instruction of `rv_run`, before the PC update. -/
def execOne (m : Machine c) (instr : BitVec 32) : Machine c :=
  (execCext m instr).getD (execInstr m instr)

/-- `m'` is `m` up to the three fields that latch a trap. -/
def SameButTrap (m m' : Machine c) : Prop :=
  m' = { m with cpu := { m.cpu with
    trap := m'.cpu.trap, trapCause := m'.cpu.trapCause, trapDelegate := m'.cpu.trapDelegate } }

/-- If a trap is latched in `m'`, nothing else happened since `m`. -/
def Precise (m m' : Machine c) : Prop := m'.cpu.trap = true → SameButTrap m m'

/-! ## Instructions that stay inside the hart -/

/-- A handler entered with no trap latched raises one and does nothing else, or raises none. -/
def Outcome (s s' : Cpu c) : Prop := s'.trap = false ∨ ∃ cause, s' = trap s cause

theorem Outcome.precise {m : Machine c} {s' : Cpu c} (h : Outcome m.cpu s') :
    Precise m { m with cpu := s' } := by
  intro htrap
  obtain hf | ⟨cause, rfl⟩ := h
  · exact absurd htrap (by rw [hf]; decide)
  · rfl

theorem writeReg_of_trap {s : Cpu c} (h : s.trap = true) (rd : Reg) (d : Word c) :
    writeReg s rd d = s := by
  simp [writeReg, h]

theorem outcome_ill (s : Cpu c) : Outcome s (doILL s) := Or.inr ⟨.instIll, rfl⟩

section Handlers

variable {s : Cpu c} (h : s.trap = false)
include h

theorem outcome_writeReg (rd : Reg) (d : Word c) : Outcome s (writeReg s rd d) :=
  Or.inl (by rw [writeReg_trap, h])

theorem outcome_writePC (d : Addr c) : Outcome s (writePC s d) :=
  Or.inl (by rw [writePC_trap, h])

theorem doOPIMM_outcome (funct3 : BitVec 3) (iimm : BitVec 32) (rd rs1 : Reg) :
    Outcome s (doOPIMM s funct3 iimm rd rs1) := by
  unfold doOPIMM
  split
  · split
    · exact outcome_writeReg h rd _
    · exact outcome_ill s
  · exact outcome_writeReg h rd _
  · exact outcome_writeReg h rd _
  · exact outcome_writeReg h rd _
  · split
    · exact outcome_writeReg h rd _
    · exact outcome_writeReg h rd _
    · exact outcome_ill s
  · exact outcome_writeReg h rd _
  · exact outcome_writeReg h rd _
  · exact outcome_writeReg h rd _

theorem doOP_outcome (funct3 : BitVec 3) (funct7 : BitVec 7) (rd rs1 rs2 : Reg) :
    Outcome s (doOP s funct3 funct7 rd rs1 rs2) := by
  unfold doOP
  split <;> first | exact outcome_writeReg h rd _ | exact outcome_ill s

theorem doOPIMM32_outcome (funct3 : BitVec 3) (iimm : BitVec 32) (rd rs1 : Reg) :
    Outcome s (doOPIMM32 s funct3 iimm rd rs1) := by
  unfold doOPIMM32
  split
  · exact outcome_writeReg h rd _
  · split
    · exact outcome_writeReg h rd _
    · exact outcome_ill s
  · split
    · exact outcome_writeReg h rd _
    · exact outcome_writeReg h rd _
    · exact outcome_ill s
  · exact outcome_ill s

theorem doOP32_outcome (funct3 : BitVec 3) (funct7 : BitVec 7) (rd rs1 rs2 : Reg) :
    Outcome s (doOP32 s funct3 funct7 rd rs1 rs2) := by
  unfold doOP32
  split <;> first | exact outcome_writeReg h rd _ | exact outcome_ill s

theorem doLUI_outcome (uimm : BitVec 32) (rd : Reg) : Outcome s (doLUI s uimm rd) :=
  outcome_writeReg h rd _

theorem doAUIPC_outcome (uimm : BitVec 32) (rd : Reg) : Outcome s (doAUIPC s uimm rd) :=
  outcome_writeReg h rd _

theorem doJAL_outcome (jimm : BitVec 32) (rd : Reg) (size : Int) :
    Outcome s (doJAL s jimm rd size) :=
  Or.inl (by simp only [doJAL, writePC_trap, writeReg_trap, h])

theorem doJALR_outcome (funct3 : BitVec 3) (iimm : BitVec 32) (rd rs1 : Reg) (size : Int) :
    Outcome s (doJALR s funct3 iimm rd rs1 size) := by
  unfold doJALR
  split
  · exact Or.inl (by simp only [writePC_trap, writeReg_trap, h])
  · exact outcome_ill s

theorem doBRANCH_outcome (funct3 : BitVec 3) (bimm : BitVec 32) (rs1 rs2 : Reg) (size : Int) :
    Outcome s (doBRANCH s funct3 bimm rs1 rs2 size) := by
  unfold doBRANCH
  split
  · exact outcome_writePC h _
  · exact Or.inl h
  · exact outcome_ill s

theorem xret_outcome (mode : PrivMode) (instSize : Int) : Outcome s (xret s mode instSize) := by
  simp only [xret]
  split
  · exact Or.inr ⟨_, rfl⟩
  · split
    · exact Or.inr ⟨_, rfl⟩
    · exact Or.inl (by simp only [writePC_trap, h])

/-- A CSR read either leaves the hart as it is or raises a trap. -/
theorem readCSR_outcome (mtime : BitVec 64) (csr : BitVec 16) :
    (readCSR s mtime csr).1 = s ∨ ∃ cause, (readCSR s mtime csr).1 = trap s cause := by
  unfold readCSR
  rw [h]
  simp only [Bool.false_eq_true, if_false]
  split
  · exact Or.inr ⟨_, rfl⟩
  · split
    · exact Or.inl rfl
    · exact Or.inr ⟨_, rfl⟩

end Handlers

theorem writeCSR_outcome {s : Cpu c} (h : s.trap = false) (csr : BitVec 16) (val : Word c) :
    Outcome s (writeCSR s csr val) := by
  unfold writeCSR
  rw [h]
  simp only [Bool.false_eq_true, if_false]
  split
  · exact Or.inr ⟨_, rfl⟩
  · split
    · rename_i hw
      exact Or.inl ((csrWritten_trap hw).trans h)
    · exact Or.inr ⟨_, rfl⟩

theorem writeCSR_of_trap {s : Cpu c} (h : s.trap = true) (csr : BitVec 16) (val : Word c) :
    writeCSR s csr val = s := by
  simp [writeCSR, h]

/-- The six CSR instructions: read, perhaps write, perhaps write the register. A step after a trap
does nothing. -/
theorem csrOp_outcome {s : Cpu c} (h : s.trap = false) (mtime : BitVec 64) (csr : BitVec 16)
    (doWrite doReg : Prop) [Decidable doWrite] [Decidable doReg] (val : Word c) (rd : Reg)
    (old : Word c) :
    Outcome s
      (if doReg then
        writeReg (if doWrite then writeCSR (readCSR s mtime csr).1 csr val
          else (readCSR s mtime csr).1) rd old
       else if doWrite then writeCSR (readCSR s mtime csr).1 csr val
          else (readCSR s mtime csr).1) := by
  have hreg : ∀ s' : Cpu c, Outcome s s' →
      Outcome s (if doReg then writeReg s' rd old else s') := by
    intro s' hs'
    split
    · obtain hf | ⟨cause, rfl⟩ := hs'
      · exact Or.inl (by rw [writeReg_trap, hf])
      · exact Or.inr ⟨cause, writeReg_of_trap rfl rd old⟩
    · exact hs'
  apply hreg
  obtain hread | ⟨cause, hread⟩ := readCSR_outcome h mtime csr
  · rw [hread]
    split
    · exact writeCSR_outcome h csr val
    · exact Or.inl h
  · rw [hread]
    split
    · exact Or.inr ⟨cause, writeCSR_of_trap rfl csr val⟩
    · exact Or.inr ⟨cause, rfl⟩

theorem doSYSTEM_outcome {s : Cpu c} (h : s.trap = false) (mtime : BitVec 64) (funct3 : BitVec 3)
    (iimm : BitVec 32) (rd rs1 : Reg) (size : Int) :
    Outcome s (doSYSTEM s mtime funct3 iimm rd rs1 size) := by
  simp only [doSYSTEM]
  split
  · split
    · exact Or.inr ⟨_, rfl⟩
    · exact Or.inr ⟨_, rfl⟩
    · exact xret_outcome h _ _
    · split
      · exact Or.inr ⟨_, rfl⟩
      · exact Or.inl h
    · exact xret_outcome h _ _
    · exact outcome_ill s
  · simpa using csrOp_outcome h mtime (iimm.setWidth 16) True (rd ≠ 0#5) _ rd _
  · simpa using csrOp_outcome h mtime (iimm.setWidth 16) (rs1 ≠ 0#5) True _ rd _
  · simpa using csrOp_outcome h mtime (iimm.setWidth 16) (rs1 ≠ 0#5) True _ rd _
  · simpa using csrOp_outcome h mtime (iimm.setWidth 16) True (rd ≠ 0#5) _ rd _
  · simpa using csrOp_outcome h mtime (iimm.setWidth 16) (rs1 ≠ 0#5) True _ rd _
  · simpa using csrOp_outcome h mtime (iimm.setWidth 16) (rs1 ≠ 0#5) True _ rd _
  · exact outcome_ill s

/-! ## Instructions that reach the bus -/

/-- No device includes the range. -/
def Unmapped (m : Machine c) (addr : Addr c) (size : Nat) : Prop :=
  findDevice m.bus addr size = none

instance (m : Machine c) (addr : Addr c) (size : Nat) : Decidable (Unmapped m addr size) := by
  unfold Unmapped
  infer_instance

theorem findDevice_congr {bus bus' : Bus c DevKind} (h : bus'.devices = bus.devices)
    (addr : Addr c) (size : Nat) : findDevice bus' addr size = findDevice bus addr size := by
  unfold findDevice
  rw [h]

/-- A failed read latches its trap and does nothing else. -/
theorem readMem_unmapped {m : Machine c} (h : m.cpu.trap = false) {addr : Addr c} {size : Nat}
    (hu : Unmapped m addr size) :
    readMem m addr size = ({ m with cpu := trap m.cpu .ldAf }, 0#_) := by
  unfold Unmapped at hu
  simp [readMem, h, busRead, hu]

/-- A read that reaches a device is the device's read. -/
theorem readMem_mapped {m : Machine c} (h : m.cpu.trap = false) {addr : Addr c} {size : Nat}
    {d : BusDevice c DevKind} {devAddr : Addr c}
    (hd : findDevice m.bus addr size = some (d, devAddr)) :
    (readMem m addr size).1
      = (devRead m d.dev.callbacks devAddr.toNat (List.replicate size 0#8)).1 := by
  simp [readMem, h, busRead, hd]

theorem writeMem_unmapped {m : Machine c} (h : m.cpu.trap = false) {addr : Addr c}
    {buf : List Byte} (hu : Unmapped m addr buf.length) :
    writeMem m addr buf = { m with cpu := trap m.cpu .stAf } := by
  unfold Unmapped at hu
  simp [writeMem, h, busWrite, hu]

theorem writeMem_mapped {m : Machine c} (h : m.cpu.trap = false) {addr : Addr c}
    {buf : List Byte} (hm : ¬ Unmapped m addr buf.length) :
    (writeMem m addr buf).cpu.trap = false := by
  obtain ⟨⟨d, devAddr⟩, hd⟩ := Option.ne_none_iff_exists'.mp hm
  simp only [writeMem, h, busWrite, hd, Bool.false_eq_true, if_false]
  rw [(devWrite_irqFrame _ _ _ _).1.trap, h]

theorem writeMem_of_trap {m : Machine c} (h : m.cpu.trap = true) (addr : Addr c)
    (buf : List Byte) : writeMem m addr buf = m := by
  simp [writeMem, h]

theorem writeMem_precise {m : Machine c} (h : m.cpu.trap = false) (addr : Addr c)
    (buf : List Byte) : Precise m (writeMem m addr buf) := by
  by_cases hu : Unmapped m addr buf.length
  · rw [writeMem_unmapped h hu]
    exact fun _ => rfl
  · intro htrap
    rw [writeMem_mapped h hu] at htrap
    cases htrap

theorem ill_precise (m : Machine c) : Precise m { m with cpu := doILL m.cpu } :=
  (outcome_ill m.cpu).precise

theorem doMISCMEM_precise {m : Machine c} (h : m.cpu.trap = false) (funct3 : BitVec 3)
    (iimm : BitVec 32) (rd rs1 : Reg) : Precise m (doMISCMEM m funct3 iimm rd rs1) := by
  have hflush : Outcome m.cpu (flushIcache m.cpu) := Or.inl h
  have htrap : ∀ cause, Outcome m.cpu (trap m.cpu cause) := fun cause => Or.inr ⟨cause, rfl⟩
  unfold doMISCMEM
  split
  · exact hflush.precise
  · exact hflush.precise
  · split
    · split
      · split
        · exact (htrap _).precise
        · split
          · exact (htrap _).precise
          · exact writeMem_precise h _ _
      · exact ill_precise m
    · exact ill_precise m
  · exact ill_precise m

theorem doSTORE_precise {m : Machine c} (h : m.cpu.trap = false) (funct3 : BitVec 3)
    (simm : BitVec 32) (rs1 rs2 : Reg) : Precise m (doSTORE m funct3 simm rs1 rs2) := by
  simp only [doSTORE]
  split
  · exact ill_precise m
  · exact writeMem_precise h _ _

theorem doLOAD_precise {m : Machine c} (h : m.cpu.trap = false) (funct3 : BitVec 3)
    (iimm : BitVec 32) (rd rs1 : Reg) : Precise m (doLOAD m funct3 iimm rd rs1) := by
  simp only [doLOAD]
  split
  · exact ill_precise m
  · generalize hsize : 1 <<< (funct3 &&& 3#3).toNat = size
    generalize ((readReg m.cpu rs1 + _).setWidth _ : Addr c) = addr
    cases hd : findDevice m.bus addr size with
    | none =>
        rw [readMem_unmapped h hd]
        intro _
        simp only [writeReg_of_trap (s := trap m.cpu .ldAf) rfl]
        rfl
    | some p =>
        obtain ⟨d, devAddr⟩ := p
        intro htrap
        simp only [writeReg_trap, readMem_mapped h hd, (devRead_frame _ _ _ _).cpu.trap, h] at htrap
        cases htrap

/-! ## Atomics -/

/-- `funct5` of the read-modify-write operations. -/
def rmwFunct5 : List (BitVec 5) := [0#5, 1#5, 4#5, 8#5, 12#5, 16#5, 20#5, 24#5, 28#5]

/-- A read that reaches no device, or that its device does not notice. -/
def QuietRead (m : Machine c) (addr : Addr c) (size : Nat) : Prop :=
  match findDevice m.bus addr size with
  | none => True
  | some (d, devAddr) => QuietDevRead m d.dev.callbacks devAddr.toNat size

/-- When an atomic is precise. A load-reserved or store-conditional must reach a device, unless
its effect on the reservation is nil; an illegal encoding must read nothing that has an effect. -/
def AmoPrecise (m : Machine c) (funct3 : BitVec 3) (funct5 : BitVec 5) (rs1 rs2 : Reg) : Prop :=
  let addr : Addr c := (readReg m.cpu rs1).setWidth _
  let size := amoSize c funct3
  addr.toNat &&& (size - 1) = 0 →
    if funct5 = 2#5 ∧ rs2 = 0#5 then
      ¬ Unmapped m addr size ∨ m.bus.reservation = ⟨addr, size, true⟩
    else if funct5 = 3#5 then
      ¬ Unmapped m addr size ∨ m.bus.reservation.valid = false
    else funct5 ∈ rmwFunct5 ∨ QuietRead m addr size

theorem amoSize_ne_zero (c : Cfg) (funct3 : BitVec 3) : amoSize c funct3 ≠ 0 := by
  have h1 : 0 < 1 <<< funct3.toNat := by
    rw [Nat.one_shiftLeft]
    exact Nat.two_pow_pos _
  have h2 : 0 < c.wordBytes := by cases c <;> decide
  unfold amoSize
  omega

/-- The end of `_doAMO`: write the register, then memory. -/
def amoTail (r : Machine c × AmoResult c) (rd : Reg) (addr : Addr c) (size : Nat) : Machine c :=
  let m := { r.1 with cpu := writeReg r.1.cpu rd r.2.rdVal }
  if r.2.needWrite then writeMem m addr (toBytes size r.2.data) else m

/-- `_doAMO` on an aligned address: a read, the switch, the writes. -/
theorem doAMO_aligned (m : Machine c) (funct3 : BitVec 3) (funct5 : BitVec 5) (rd rs1 rs2 : Reg)
    (h : ((readReg m.cpu rs1).setWidth _ : Addr c).toNat &&& (amoSize c funct3 - 1) = 0) :
    ∃ rs2Val data : Word c, doAMO m funct3 funct5 rd rs1 rs2
      = amoTail (amoSwitch (readMem m ((readReg m.cpu rs1).setWidth _) (amoSize c funct3)).1 funct5
          rs2 ((readReg m.cpu rs1).setWidth _) (amoSize c funct3) rs2Val data)
        rd ((readReg m.cpu rs1).setWidth _) (amoSize c funct3) := by
  simp only [doAMO, h, ne_eq, not_true_eq_false, if_false]
  exact ⟨_, _, rfl⟩

theorem amoTail_of_trap {r : Machine c × AmoResult c} (h : r.1.cpu.trap = true) (rd : Reg)
    (addr : Addr c) (size : Nat) : amoTail r rd addr size = r.1 := by
  simp only [amoTail, writeReg_of_trap h]
  split
  · exact writeMem_of_trap h _ _
  · rfl

theorem amoTail_mapped {r : Machine c × AmoResult c} (h : r.1.cpu.trap = false) (rd : Reg)
    {addr : Addr c} {size : Nat} (hm : ¬ Unmapped r.1 addr size) :
    (amoTail r rd addr size).cpu.trap = false := by
  have hreg : (writeReg r.1.cpu rd r.2.rdVal).trap = false := by rw [writeReg_trap, h]
  simp only [amoTail]
  split
  · refine writeMem_mapped hreg ?_
    rw [toBytes_length]
    exact hm
  · exact hreg

section Switch

variable (m : Machine c) (rs2 : Reg) (addr : Addr c) (size : Nat) (rs2Val data : Word c)

/-- The switch for an operation that reads, computes and writes. -/
theorem amoSwitch_of_op {funct5 : BitVec 5} {res : Word c}
    (h : amoOp funct5 rs2Val data = some res) :
    amoSwitch m funct5 rs2 addr size rs2Val data = (m, ⟨data, res, true⟩) := by
  unfold amoSwitch
  split
  · cases h
  · cases h
  · rw [h]

theorem amoOp_rmw {funct5 : BitVec 5} (h : funct5 ∈ rmwFunct5) :
    ∃ res, amoOp funct5 rs2Val data = some res := by
  simp only [rmwFunct5, List.mem_cons, List.not_mem_nil, or_false] at h
  rcases h with rfl | rfl | rfl | rfl | rfl | rfl | rfl | rfl | rfl <;> exact ⟨_, rfl⟩

theorem amoSwitch_rmw {funct5 : BitVec 5} (h : funct5 ∈ rmwFunct5) :
    ∃ res, amoSwitch m funct5 rs2 addr size rs2Val data = (m, ⟨data, res, true⟩) := by
  obtain ⟨res, hres⟩ := amoOp_rmw rs2Val data h
  exact ⟨res, amoSwitch_of_op m rs2 addr size rs2Val data hres⟩

/-- The encodings the switch finds illegal. -/
theorem amoSwitch_ill {funct5 : BitVec 5} (hlr : ¬ (funct5 = 2#5 ∧ rs2 = 0#5))
    (hsc : funct5 ≠ 3#5) (hrmw : funct5 ∉ rmwFunct5) :
    amoSwitch m funct5 rs2 addr size rs2Val data
      = ({ m with cpu := doILL m.cpu }, ⟨0#_, data, true⟩) := by
  have hnone : amoOp funct5 rs2Val data = none := by
    unfold amoOp
    split <;> first | exact absurd (by decide) hrmw | rfl
  unfold amoSwitch
  split
  · rw [if_pos (fun h0 => hlr ⟨rfl, h0⟩)]
  · exact absurd rfl hsc
  · rw [hnone]

end Switch

/-- A trap on top of a state `m1` that a device read reached from `m` shows what the read did. -/
theorem sameButTrap_ill_iff {S : List IrqCause} {m m1 : Machine c}
    (hf : IrqFrame S m.cpu m1.cpu) :
    SameButTrap m { m1 with cpu := doILL m1.cpu } ↔ m1 = m := by
  constructor
  · intro h
    have hirq : m1.cpu.irq = m.cpu.irq := congrArg (fun x => x.cpu.irq) h
    have hwfi : m1.cpu.wfi = m.cpu.wfi := congrArg (fun x => x.cpu.wfi) h
    have hmip : m1.cpu.csr.mip = m.cpu.csr.mip := congrArg (fun x => x.cpu.csr.mip) h
    have hcpu : m1.cpu = m.cpu := by
      rw [hf.rest, hirq, hwfi, hmip]
    have hrest : m1 = { m with cpu := m1.cpu } := congrArg (fun x => { x with cpu := m1.cpu }) h
    rw [hrest, hcpu]
  · rintro rfl
    rfl

/-- After a failed read, a trace is left exactly when the bus changed. -/
theorem sameButTrap_bus_iff (m : Machine c) (bus : Bus c DevKind) (cause : TrapCause) :
    SameButTrap m { m with cpu := trap m.cpu cause, bus := bus } ↔ bus = m.bus := by
  constructor
  · exact congrArg Machine.bus
  · rintro rfl
    rfl

theorem reservationCreate_eq_self_iff (bus : Bus c DevKind) (addr : Addr c) (size : Nat) :
    busReservationCreate bus addr size = bus ↔ bus.reservation = ⟨addr, size, true⟩ := by
  constructor
  · exact fun h => (congrArg Bus.reservation h).symm
  · intro h
    unfold busReservationCreate
    rw [← h]

theorem reservationCheckInvalidate_eq_self_iff (bus : Bus c DevKind) (addr : Addr c)
    (size : Nat) :
    (busReservationCheckInvalidate bus addr size).1 = bus ↔ bus.reservation.valid = false := by
  unfold busReservationCheckInvalidate
  constructor
  · intro h
    by_contra hv
    rw [if_pos (by simpa using hv)] at h
    have hvalid := congrArg (fun b => b.reservation.valid) h
    exact hv hvalid.symm
  · intro hv
    rw [if_neg (by simp [hv])]

/-- **Atomics.** An aligned or misaligned atomic is precise exactly when `AmoPrecise` says so. -/
theorem doAMO_precise_iff {m : Machine c} (h : m.cpu.trap = false) (funct3 : BitVec 3)
    (funct5 : BitVec 5) (rd rs1 rs2 : Reg) :
    Precise m (doAMO m funct3 funct5 rd rs1 rs2) ↔ AmoPrecise m funct3 funct5 rs1 rs2 := by
  by_cases hal : ((readReg m.cpu rs1).setWidth _ : Addr c).toNat &&& (amoSize c funct3 - 1) = 0
  swap
  · refine iff_of_true ?_ (fun hal' => absurd hal' hal)
    rw [doAMO, if_pos hal]
    exact fun _ => rfl
  obtain ⟨rs2Val, data, heq⟩ := doAMO_aligned m funct3 funct5 rd rs1 rs2 hal
  rw [heq]
  simp only [AmoPrecise, forall_prop_of_true hal]
  have hsize := amoSize_ne_zero c funct3
  generalize ((readReg m.cpu rs1).setWidth _ : Addr c) = addr
  generalize amoSize c funct3 = size at hsize
  cases hd : findDevice m.bus addr size with
  | none =>
      -- the read has trapped: the rest of `_doAMO` may only touch the reservation
      have hu : Unmapped m addr size := hd
      have hquiet : QuietRead m addr size := by simp only [QuietRead, hd]
      rw [readMem_unmapped h hd]
      by_cases hlr : funct5 = 2#5 ∧ rs2 = 0#5
      · obtain ⟨rfl, rfl⟩ := hlr
        rw [amoTail_of_trap rfl]
        simp only [and_self, if_true, hu, not_true_eq_false, false_or]
        rw [← reservationCreate_eq_self_iff, ← sameButTrap_bus_iff m _ .ldAf]
        exact forall_prop_of_true rfl
      · rw [if_neg hlr]
        by_cases hsc : funct5 = 3#5
        · subst hsc
          rw [amoTail_of_trap rfl]
          simp only [if_true, hu, not_true_eq_false, false_or]
          rw [← reservationCheckInvalidate_eq_self_iff m.bus addr size,
            ← sameButTrap_bus_iff m _ .ldAf]
          exact forall_prop_of_true rfl
        · rw [if_neg hsc]
          refine iff_of_true ?_ (Or.inr hquiet)
          by_cases hrmw : funct5 ∈ rmwFunct5
          · obtain ⟨res, hres⟩ := amoSwitch_rmw { m with cpu := trap m.cpu .ldAf } rs2 addr size
              rs2Val data hrmw
            rw [hres, amoTail_of_trap rfl]
            exact fun _ => rfl
          · rw [amoSwitch_ill _ _ _ _ _ _ hlr hsc hrmw, amoTail_of_trap rfl]
            exact fun _ => rfl
  | some p =>
      -- the read has reached a device: a later trap can only be an illegal encoding
      obtain ⟨d, devAddr⟩ := p
      have hm : ¬ Unmapped m addr size := by simp [Unmapped, hd]
      have hread := readMem_mapped h hd
      have hframe := devRead_frame m d.dev.callbacks devAddr.toNat (List.replicate size 0#8)
      rw [← hread] at hframe
      generalize hm1 : (readMem m addr size).1 = m1 at hframe hread
      have h1 : m1.cpu.trap = false := hframe.cpu.trap.trans h
      have hmapped : ∀ bus : Bus c DevKind, bus.devices = m.bus.devices →
          findDevice bus addr size ≠ none := by
        intro bus hbus
        rw [findDevice_congr hbus, hd]
        exact Option.some_ne_none _
      have hno : ∀ r : Machine c × AmoResult c, r.1.cpu.trap = false →
          r.1.bus.devices = m.bus.devices → Precise m (amoTail r rd addr size) := by
        intro r hr hbus htrap
        rw [amoTail_mapped hr rd (hmapped _ hbus)] at htrap
        cases htrap
      by_cases hlr : funct5 = 2#5 ∧ rs2 = 0#5
      · obtain ⟨rfl, rfl⟩ := hlr
        refine iff_of_true (hno _ h1 ?_) ?_
        · show m1.bus.devices = m.bus.devices
          rw [hframe.bus]
        · simp only [and_self, if_true]
          exact Or.inl hm
      · rw [if_neg hlr]
        by_cases hsc : funct5 = 3#5
        · subst hsc
          refine iff_of_true (hno _ h1 ?_) ?_
          · exact (busReservationCheckInvalidate_devices m1.bus addr size).trans
              (congrArg Bus.devices hframe.bus)
          · simp only [if_true]
            exact Or.inl hm
        · rw [if_neg hsc]
          by_cases hrmw : funct5 ∈ rmwFunct5
          · obtain ⟨res, hres⟩ := amoSwitch_rmw m1 rs2 addr size rs2Val data hrmw
            rw [hres]
            exact iff_of_true (hno _ h1 (congrArg Bus.devices hframe.bus)) (Or.inl hrmw)
          · rw [amoSwitch_ill _ _ _ _ _ _ hlr hsc hrmw, amoTail_of_trap rfl]
            simp only [hrmw, false_or, QuietRead, hd]
            rw [← devRead_eq_self_iff m _ _ hsize, ← hread, ← sameButTrap_ill_iff hframe.cpu]
            exact forall_prop_of_true rfl

/-! ## The jump tables -/

section Tables

variable {m : Machine c} (h : m.cpu.trap = false) (instr : BitVec 32)
include h

/-- A 32-bit instruction that is not an atomic. -/
theorem execInstr_precise (hop : opcode instr ≠ 11#5) : Precise m (execInstr m instr) := by
  simp only [execInstr]
  split
  · exact doLOAD_precise h _ _ _ _
  · exact doMISCMEM_precise h _ _ _ _
  · exact (doOPIMM_outcome h _ _ _ _).precise
  · exact (doAUIPC_outcome h _ _).precise
  · split
    · exact (doOPIMM32_outcome h _ _ _ _).precise
    · exact ill_precise m
  · exact doSTORE_precise h _ _ _ _
  · rename_i hop'
    exact absurd hop' hop
  · exact (doOP_outcome h _ _ _ _ _).precise
  · exact (doLUI_outcome h _ _).precise
  · split
    · exact (doOP32_outcome h _ _ _ _ _).precise
    · exact ill_precise m
  · exact (doBRANCH_outcome h _ _ _ _ _).precise
  · exact (doJALR_outcome h _ _ _ _ _).precise
  · exact (doJAL_outcome h _ _ _).precise
  · exact (doSYSTEM_outcome h _ _ _ _ _ _).precise
  · exact ill_precise m

theorem nop_precise : Precise m (cextNop m) := by
  intro htrap
  rw [cextNop, h] at htrap
  cases htrap

theorem decodeCextQ1_4_precise : Precise m (decodeCextQ1_4 m instr) := by
  simp only [decodeCextQ1_4]
  split
  · exact (doOPIMM_outcome h _ _ _ _).precise
  · exact (doOPIMM_outcome h _ _ _ _).precise
  · split
    · split
      · split
        · exact (doOP32_outcome h _ _ _ _ _).precise
        · exact ill_precise m
        · exact ill_precise m
        · exact (doOP32_outcome h _ _ _ _ _).precise
      · exact ill_precise m
    · split <;> exact (doOP_outcome h _ _ _ _ _).precise
  · exact (doOPIMM_outcome h _ _ _ _).precise

theorem decodeCextQ2_4_precise : Precise m (decodeCextQ2_4 m instr) := by
  simp only [decodeCextQ2_4]
  split
  · split
    · split
      · exact (doOP_outcome h _ _ _ _ _).precise
      · exact nop_precise h
    · split
      · exact (doJALR_outcome h _ _ _ _ _).precise
      · exact (doSYSTEM_outcome h _ _ _ _ _ _).precise
  · split
    · split
      · exact (doOP_outcome h _ _ _ _ _).precise
      · exact nop_precise h
    · split
      · exact (doJALR_outcome h _ _ _ _ _).precise
      · exact ill_precise m

/-- Every compressed instruction is precise: none is an atomic. -/
theorem cextTable_precise (q : BitVec 2) (funct3 : BitVec 3) :
    Precise m (cextTable m instr q funct3) := by
  have hill := ill_precise m
  have hnop := nop_precise h
  unfold cextTable
  split
  · simp only [decodeCextQ0_0]
    split
    · exact (doOPIMM_outcome h _ _ _ _).precise
    · exact hill
  · exact doLOAD_precise h _ _ _ _
  · unfold decodeCextQ0_3
    split
    · exact doLOAD_precise h _ _ _ _
    · exact hill
  · exact doSTORE_precise h _ _ _ _
  · unfold decodeCextQ0_7
    split
    · exact doSTORE_precise h _ _ _ _
    · exact hill
  · simp only [decodeCextQ1_0]
    split
    · split
      · exact (doOPIMM_outcome h _ _ _ _).precise
      · exact hnop
    · exact hnop
  · simp only [decodeCextQ1_1]
    split
    · split
      · exact (doOPIMM32_outcome h _ _ _ _).precise
      · exact hill
    · exact (doJAL_outcome h _ _ _).precise
  · simp only [decodeCextQ1_2]
    split
    · exact (doOPIMM_outcome h _ _ _ _).precise
    · exact hnop
  · simp only [decodeCextQ1_3]
    split
    · split
      · split
        · exact (doOPIMM_outcome h _ _ _ _).precise
        · exact hill
      · split
        · exact (doLUI_outcome h _ _).precise
        · exact hill
    · exact hnop
  · exact decodeCextQ1_4_precise h instr
  · exact (doJAL_outcome h _ _ _).precise
  · exact (doBRANCH_outcome h _ _ _ _ _).precise
  · exact (doBRANCH_outcome h _ _ _ _ _).precise
  · simp only [decodeCextQ2_0]
    split
    · exact (doOPIMM_outcome h _ _ _ _).precise
    · exact hnop
  · simp only [decodeCextQ2_2]
    split
    · exact doLOAD_precise h _ _ _ _
    · exact hill
  · simp only [decodeCextQ2_3]
    split
    · split
      · exact doLOAD_precise h _ _ _ _
      · exact hill
    · exact hill
  · exact decodeCextQ2_4_precise h instr
  · exact doSTORE_precise h _ _ _ _
  · unfold decodeCextQ2_7
    split
    · exact doSTORE_precise h _ _ _ _
    · exact hill
  · exact hill

end Tables

/-- The word is no atomic, or an atomic that meets `AmoPrecise`. -/
def PreciseWhen (m : Machine c) (instr : BitVec 32) : Prop :=
  instr.extractLsb' 0 2 = 3#2 → opcode instr = 11#5 →
    AmoPrecise m (decodeFunct3 instr) (decodeFunct5 instr) (decodeRs1 instr) (decodeRs2 instr)

end RV640
