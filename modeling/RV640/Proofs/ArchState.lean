import RV640.Proofs.Compressed
import RV640.Proofs.SbiCalls
import RV640.Proofs.WellFormed

set_option autoImplicit false

/-! # The PC, and runs of the machine

A jump writes its target less the size of the instruction, and the run loop adds the size again.
Both are even, so the PC is even in between as well. With what `WellFormed.lean` says of the rest of
the state this is an invariant of every run, and a fetch never finds an odd PC. Once the PLIC has
left its arrays (`oob`), the invariant of the model says nothing of the program.
-/

namespace RV640

open Bits

variable {c : Cfg}

/-- The architectural state is well formed. -/
structure WellFormed (s : Cpu c) : Prop extends ArchWf s where
  pc : IsEven s.pc

theorem WellFormed.of_irqFrame {S : List IrqCause} {s s' : Cpu c} (h : WellFormed s)
    (hf : IrqFrame S s s') : WellFormed s' :=
  ⟨h.toArchWf.of_irqFrame hf, by rw [hf.pc]; exact h.pc⟩

/-! ## Writes of the PC -/

/-- The sizes that reach a return: of an instruction, and what `_doTrap` passes. -/
def IsSize (size : Int) : Prop := size = 2 ∨ size = 4 ∨ size = 0 ∨ size = -4

theorem IsSize.even {size : Int} (h : IsSize size) :
    IsEven (BitVec.ofInt c.xlen size) ∧ IsEven (BitVec.ofInt c.alen size) := by
  have hall : ∀ size ∈ [(2 : Int), 4, 0, -4], (BitVec.ofInt c.xlen size).getLsbD 0 = false
      ∧ (BitVec.ofInt c.alen size).getLsbD 0 = false := by cases c <;> decide
  refine hall size ?_
  rcases h with rfl | rfl | rfl | rfl <;> decide

theorem writePC_even {s : Cpu c} (h : IsEven s.pc) {d : Addr c} (hd : IsEven d) :
    IsEven (writePC s d).pc := by
  unfold writePC
  split
  · exact h
  · exact hd

/-- A return goes to an `epc` register. -/
theorem xret_even {s : Cpu c} (h : WellFormed s) (mode : PrivMode) {size : Int} (hs : IsSize size) :
    IsEven (xret s mode size).pc := by
  have hsize := (@IsSize.even c size hs).1
  simp only [xret]
  split
  · exact h.pc
  · split
    · exact h.pc
    · refine writePC_even ?_ ?_
      · exact h.pc
      split
      · exact (h.sepc.sub hsize).setWidth _
      · exact (h.mepc.sub hsize).setWidth _

/-! ## Calls -/

theorem writeCSR_pc (s : Cpu c) (csr : BitVec 16) (val : Word c) :
    (writeCSR s csr val).pc = s.pc :=
  writeCSR_keeps Cpu.pc rfl fun _ hw => by rw [csrWritten_rest hw]

theorem readCSR_pc (s : Cpu c) (mtime : BitVec 64) (csr : BitVec 16) :
    (readCSR s mtime csr).1.pc = s.pc := by
  unfold readCSR
  split
  · rfl
  · split
    · rfl
    · split <;> rfl

/-- A SYSTEM instruction that is no return leaves the PC. -/
theorem doSYSTEM_even {s : Cpu c} (h : WellFormed s) (mtime : BitVec 64) (funct3 : BitVec 3)
    (iimm : BitVec 32) (rd rs1 : Reg) {size : Int} (hs : IsSize size) :
    IsEven (doSYSTEM s mtime funct3 iimm rd rs1 size).pc := by
  simp only [doSYSTEM]
  split
  · split
    · exact h.pc
    · exact h.pc
    · exact xret_even h _ hs
    · split
      · exact h.pc
      · exact h.pc
    · exact xret_even h _ hs
    · exact h.pc
  -- the CSR instructions, and the unused encoding
  all_goals
    first
    | exact h.pc
    | simp only [apply_ite Cpu.pc, writeReg_pc, writeCSR_pc, readCSR_pc, ite_self]
      exact h.pc

theorem doMISCMEM_pc (m : Machine c) (funct3 : BitVec 3) (iimm : BitVec 32) (rd rs1 : Reg) :
    (doMISCMEM m funct3 iimm rd rs1).cpu.pc = m.cpu.pc := by
  unfold doMISCMEM
  split
  · rfl
  · rfl
  · split
    · split
      · split
        · rfl
        · split
          · rfl
          · exact writeMem_pc m _ _
      · rfl
    · rfl
  · rfl

theorem amoSwitch_pc (m : Machine c) (funct5 : BitVec 5) (rs2 : Reg) (addr : Addr c) (size : Nat)
    (rs2Val data : Word c) :
    (amoSwitch m funct5 rs2 addr size rs2Val data).1.cpu.pc = m.cpu.pc := by
  unfold amoSwitch
  split
  · split <;> rfl
  · rfl
  · split <;> rfl

theorem doAMO_pc (m : Machine c) (funct3 : BitVec 3) (funct5 : BitVec 5) (rd rs1 rs2 : Reg) :
    (doAMO m funct3 funct5 rd rs1 rs2).cpu.pc = m.cpu.pc := by
  simp only [doAMO]
  split
  · rfl
  · generalize hsw : amoSwitch _ _ _ _ _ _ _ = sw
    have hpc : sw.1.cpu.pc = m.cpu.pc := by
      rw [← hsw, amoSwitch_pc, readMem_pc]
    split
    · rw [writeMem_pc, writeReg_pc, hpc]
    · rw [writeReg_pc, hpc]

theorem doJAL_even {s : Cpu c} (h : IsEven s.pc) {jimm : BitVec 32} (hj : IsEven jimm) (rd : Reg)
    {size : Int} (hs : IsSize size) : IsEven (doJAL s jimm rd size).pc := by
  have hx := c.xlen_ge
  have himm : IsEven (signExtend (jimm.setWidth c.xlen) 20) :=
    (hj.setWidth _).signExtend (by omega) (by decide)
  have hsize := (@IsSize.even c size hs).1
  refine writePC_even ?_ ?_
  · rw [writeReg_pc]
    exact h
  · exact (((h.setWidth _).add himm).sub hsize).setWidth _

theorem doJALR_even {s : Cpu c} (h : IsEven s.pc) (funct3 : BitVec 3) (iimm : BitVec 32)
    (rd rs1 : Reg) {size : Int} (hs : IsSize size) :
    IsEven (doJALR s funct3 iimm rd rs1 size).pc := by
  have hone : (1#c.xlen).getLsbD 0 = true := by cases c <;> decide
  have hsize := (@IsSize.even c size hs).2
  unfold doJALR
  split
  · refine writePC_even ?_ ?_
    · rw [writeReg_pc]
      exact h
    · exact ((IsEven.clear _ hone).setWidth _).sub hsize
  · exact h

theorem doBRANCH_even {s : Cpu c} (h : IsEven s.pc) (funct3 : BitVec 3) {bimm : BitVec 32}
    (hb : IsEven bimm) (rs1 rs2 : Reg) {size : Int} (hs : IsSize size) :
    IsEven (doBRANCH s funct3 bimm rs1 rs2 size).pc := by
  have hx := c.xlen_ge
  have himm : IsEven (signExtend (bimm.setWidth c.xlen) 12) :=
    (hb.setWidth _).signExtend (by omega) (by decide)
  have hsize := (@IsSize.even c size hs).1
  unfold doBRANCH
  split
  · exact writePC_even h ((((h.setWidth _).add himm).sub hsize).setWidth _)
  · exact h
  · exact h

/-- Every handler keeps the PC even. -/
theorem Call.exec_even {m : Machine c} (h : WellFormed m.cpu) {k : Call} {w : BitVec 32}
    (hk : k.Fits w) {size : Int} (hs : IsSize size) : IsEven (k.exec m size).cpu.pc := by
  have hpc : ∀ {pc : Addr c}, pc = m.cpu.pc → IsEven pc := by
    rintro pc rfl
    exact h.pc
  cases k with
  | opImm funct3 iimm rd rs1 => exact hpc (doOPIMM_pc _ _ _ _ _)
  | opImm32 funct3 iimm rd rs1 => exact hpc (doOPIMM32_pc _ _ _ _ _)
  | op funct3 funct7 rd rs1 rs2 => exact hpc (doOP_pc _ _ _ _ _ _)
  | op32 funct3 funct7 rd rs1 rs2 => exact hpc (doOP32_pc _ _ _ _ _ _)
  | lui uimm rd => exact hpc (writeReg_pc _ _ _)
  | auipc uimm rd => exact hpc (writeReg_pc _ _ _)
  | jal jimm rd => exact doJAL_even h.pc hk rd hs
  | jalr funct3 iimm rd rs1 => exact doJALR_even h.pc funct3 iimm rd rs1 hs
  | branch funct3 bimm rs1 rs2 => exact doBRANCH_even h.pc funct3 hk rs1 rs2 hs
  | system funct3 iimm rd rs1 => exact doSYSTEM_even h _ funct3 iimm rd rs1 hs
  | load funct3 iimm rd rs1 => exact hpc (doLOAD_pc _ _ _ _ _)
  | store funct3 simm rs1 rs2 => exact hpc (doSTORE_pc _ _ _ _ _)
  | miscMem funct3 iimm rd rs1 => exact hpc (doMISCMEM_pc _ _ _ _ _)
  | amo funct3 funct5 rd rs1 rs2 => exact hpc (doAMO_pc _ _ _ _ _ _)
  | nop => exact h.pc
  | ill => exact h.pc

/-- An instruction and its PC update. -/
theorem rvExec_wellFormed {m : Machine c} (h : WellFormed m.cpu) (w : BitVec 32) :
    WellFormed (rvExec m w).cpu := by
  refine ⟨rvExec_archWf h.toArchWf w, ?_⟩
  obtain ⟨k, size, hsize, hk, hexec, -⟩ := rvExec_call m m w
  have hs : IsSize (size : Int) := by
    unfold IsSize
    omega
  have heven : IsEven (BitVec.ofNat c.alen size) := by
    have h24 : (2#c.alen).getLsbD 0 = false ∧ (4#c.alen).getLsbD 0 = false := by
      cases c <;> decide
    rcases hsize with rfl | rfl
    · exact h24.1
    · exact h24.2
  have hcall := Call.exec_even h hk hs
  rw [hexec]
  exact writePC_even hcall (hcall.add heven)

/-! ## Handlers and trap entry -/

namespace WellFormed

variable {s : Cpu c}

theorem pokeRx (h : WellFormed s) {rx : Reg} (hrx : rx ≠ 0#5) (val : Word c) :
    WellFormed (rvPokeRx s rx val) where
  x0 := (Function.update_of_ne hrx.symm _ _).trans h.x0
  mode := h.mode
  mstatus := h.mstatus
  mstatush := h.mstatush
  mepc := h.mepc
  sepc := h.sepc
  mideleg := h.mideleg
  mie := h.mie
  mip := h.mip
  pc := h.pc

/-- The handlers set or clear MTIE. -/
theorem pokeMie (h : WellFormed s) {mie : Word c}
    (hmie : ∀ k, k ≠ IrqCause.machineTmrInt.toNat → mie.getLsbD k = s.csr.mie.getLsbD k) :
    WellFormed (RV640.pokeMie s mie) := by
  have hwf : mie &&& ~~~mieRwMask = 0#_ := by
    rw [and_not_eq_zero_iff]
    intro k hk
    have hne : k ≠ IrqCause.machineTmrInt.toNat := by
      rintro rfl
      have hset : (mieRwMask : Word c).getLsbD IrqCause.machineTmrInt.toNat = true := by
        cases c <;> decide
      rw [hset] at hk
      cases hk
    rw [hmie k hne]
    exact (and_not_eq_zero_iff _ _).mp h.mie k hk
  exact ⟨⟨h.x0, h.mode, h.mstatus, h.mstatush, h.mepc, h.sepc, h.mideleg, hwf, h.mip⟩, h.pc⟩

end WellFormed

theorem handleTimerExt_wellFormed {m : Machine c} (h : WellFormed m.cpu) (fid : Word c) :
    WellFormed (handleTimerExt m fid).1.cpu := by
  simp only [handleTimerExt]
  split
  · refine (h.of_irqFrame (setMtimecmp_frame m (setTimerArg m.cpu))).pokeMie ?_
    intro k hk
    split
    · exact clearMtie_other _ k hk
    · exact setMtie_other _ k hk
  · exact h

theorem sbiHandleEcall_wellFormed {m : Machine c} (h : WellFormed m.cpu) :
    WellFormed (sbiHandleEcall m).cpu := by
  have hd : WellFormed (sbiDispatch m (m.cpu.regs regA7) (m.cpu.regs regA6)).1.cpu := by
    unfold sbiDispatch
    split
    · exact h
    · split
      · exact handleTimerExt_wellFormed h _
      · split
        · simp only [handleDbgConExt]
          split
          · exact h.of_irqFrame (dbgConWrite_frame m _ _).cpu
          · exact h
        · exact h
  exact (hd.pokeRx (by decide) _).pokeRx (by decide) _

theorem sbiHandleInterrupt_wellFormed {m : Machine c} (h : WellFormed m.cpu) :
    WellFormed (sbiHandleInterrupt m).cpu := by
  simp only [sbiHandleInterrupt]
  split
  · have hset := h.of_irqFrame (setMtimecmp_frame m ((cpuUintMax : Word c).setWidth 64))
    exact (hset.pokeMie (clearMtie_other _)).of_irqFrame (rvSetInterrupt_frame _ .supervisorTmrInt)
  · exact h

theorem WellFormed.xret {s : Cpu c} (h : WellFormed s) (mode : PrivMode) {size : Int}
    (hs : IsSize size) : WellFormed (xret s mode size) :=
  ⟨h.toArchWf.xret mode size, xret_even h mode hs⟩

theorem WellFormed.enterTrap {s : Cpu c} (h : WellFormed s) : WellFormed (enterTrap s) := by
  refine ⟨h.toArchWf.enterTrap h.pc, ?_⟩
  unfold RV640.enterTrap
  split
  · exact h.pc
  · exact h.pc

/-- Both entries of a vector table are aligned. -/
theorem trapVector_even (s : Cpu c) : IsEven (trapVector s) := by
  have hthree : (3#c.xlen).getLsbD 0 = true := by cases c <;> decide
  have hvec : ∀ x : Word c, IsEven (x &&& ~~~3#_) := fun x => IsEven.clear x hthree
  have hfour : ∀ x : Word c, IsEven (4#_ * x) := by
    intro x
    have hshift : 4#_ * x = x <<< 2 := by
      rw [BitVec.mul_comm, BitVec.shiftLeft_eq_mul_twoPow]
      congr 1
      cases c <;> decide
    rw [hshift]
    exact IsEven.shiftLeft x (by decide)
  simp only [trapVector]
  generalize (if s.trapDelegate then s.csr.stvec else s.csr.mtvec) = xtvec
  split
  · exact (hvec _).add (hfour _)
  · exact hvec _

theorem doTrap_wellFormed {m : Machine c} (h : WellFormed m.cpu) : WellFormed (doTrap m).cpu := by
  have hent : WellFormed (enterTrap m.cpu) := h.enterTrap
  simp only [doTrap]
  split
  · exact (sbiHandleEcall_wellFormed (m := { m with cpu := enterTrap m.cpu }) hent).xret _
      (by unfold IsSize; decide)
  · exact (sbiHandleInterrupt_wellFormed (m := { m with cpu := enterTrap m.cpu }) hent).xret _
      (by unfold IsSize; decide)
  · exact hent.xret _ (by unfold IsSize; decide)
  · exact ⟨hent.toArchWf.writePC _, writePC_even hent.pc ((trapVector_even m.cpu).setWidth _)⟩

theorem processPendingInterrupts_pc (s : Cpu c) : (processPendingInterrupts s).pc = s.pc :=
  processPendingInterrupts_invariant (P := fun t => t.pc = s.pc) rfl fun _ _ _ ht => ht

theorem rvEnter_wellFormed {m : Machine c} (h : WellFormed m.cpu) :
    WellFormed (rvEnter m).1.cpu := by
  have he := rvEnter_enters m
  generalize rvEnter m = r at he ⊢
  cases he with
  | trapped _ => exact doTrap_wellFormed h
  | searched _ _ =>
      refine ⟨h.toArchWf.processPendingInterrupts, ?_⟩
      show IsEven (processPendingInterrupts m.cpu).pc
      rw [processPendingInterrupts_pc]
      exact h.pc
  | idle _ _ => exact h

/-- `_doTrap` leaves no trap latched. -/
theorem doTrap_trap (m : Machine c) : (doTrap m).cpu.trap = false := by
  have henter : (enterTrap m.cpu).trap = false := by
    unfold enterTrap
    split <;> rfl
  -- an SBI handler runs in M-mode, from where MRET does not trap
  have hmret : ∀ (m' : Machine c) (size : Int), HandlerFrame { m with cpu := enterTrap m.cpu } m' →
      (enterTrap m.cpu).mode = .machine → (xret m'.cpu .machine size).trap = false := by
    intro m' size hf hmode
    have hm : m'.cpu.mode = .machine := by
      rw [hf.cpu]
      exact hmode
    have ht : m'.cpu.trap = false := by
      rw [hf.cpu]
      exact henter
    obtain ⟨mstatus, -, he⟩ := xret_machine hm size
    rw [he, writePC_trap]
    exact ht
  have hmode : ∀ handler, sbiHandler m.cpu = some handler → (enterTrap m.cpu).mode = .machine := by
    intro handler hh
    unfold sbiHandler at hh
    split at hh
    · rename_i hcond
      simpa using (Bool.and_eq_true_iff.mp hcond).1
    · cases hh
  simp only [doTrap]
  split
  · rename_i hh
    exact hmret _ _ (sbiHandleEcall_handlerFrame _) (hmode _ hh)
  · rename_i hh
    exact hmret _ _ (sbiHandleInterrupt_handlerFrame _) (hmode _ hh)
  · rename_i hh
    exact hmret _ _ (HandlerFrame.refl _) (hmode _ hh)
  · rw [writePC_trap]
    exact henter

theorem rvEnter_trap {m : Machine c} (h : (rvEnter m).2 = false) :
    (rvEnter m).1.cpu.trap = false := by
  have he := rvEnter_enters m
  generalize rvEnter m = r at he h ⊢
  cases he with
  | trapped _ => exact doTrap_trap m
  | searched _ _ => exact h
  | idle hclear _ => exact hclear

/-! ## Fetch -/

theorem fetch_wellFormed {m : Machine c} (h : WellFormed m.cpu) : WellFormed (fetch m).1.cpu := by
  have hcache : ∀ {s : Cpu c} (icache : Icache c), WellFormed s → WellFormed { s with icache } :=
    fun _ hs => ⟨hs.toArchWf.congr rfl rfl rfl, hs.pc⟩
  have hf := fetch_fetches m
  generalize fetch m = r at hf ⊢
  cases hf with
  | misaligned _ => exact ⟨h.toArchWf.trap _, h.pc⟩
  | hit _ _ => exact h
  | fill _ _ hline => exact hcache _ (h.of_irqFrame (busRead_frame hline).cpu)
  | word _ _ _ hword => exact h.of_irqFrame (busRead_frame hword).cpu
  | fault _ _ _ _ => exact ⟨h.toArchWf.trap _, h.pc⟩

/-- From an even PC a fetch raises an access fault or nothing. -/
theorem fetch_cause {m : Machine c} (h : IsEven m.cpu.pc) (ht : m.cpu.trap = false)
    (htrap : (fetch m).1.cpu.trap = true) :
    (fetch m).1.cpu.trapCause = BitVec.ofNat _ TrapCause.instAf.toNat := by
  have hclear : ∀ {m1 : Machine c} {addr : Addr c} {buf bs : List Byte},
      busRead m addr buf = some (m1, bs) → m1.cpu.trap = false := fun hr => by
    rw [(busRead_frame hr).cpu.trap, ht]
  have hf := fetch_fetches m
  generalize fetch m = r at hf htrap ⊢
  cases hf with
  | misaligned hodd => exact absurd h.and_one hodd
  | hit _ _ =>
      rw [ht] at htrap
      cases htrap
  | fill _ _ hline => exact absurd ((hclear hline).symm.trans htrap) (by decide)
  | word _ _ _ hword => exact absurd ((hclear hword).symm.trans htrap) (by decide)
  | fault _ _ _ _ => rfl

/-! ## Runs -/

theorem rvFetch_wellFormed {m : Machine c} (h : WellFormed m.cpu) :
    WellFormed (rvFetch m).1.cpu :=
  rvFetch_keeps (I := fun m => WellFormed m.cpu) (rvEnter_wellFormed h)
    fun _ h1 => fetch_wellFormed h1

theorem rvRun_wellFormed {m : Machine c} (h : WellFormed m.cpu) : WellFormed (rvRun m).cpu :=
  rvRun_keeps (I := fun m => WellFormed m.cpu) (rvFetch_wellFormed h)
    fun _ instr h1 => rvExec_wellFormed h1 instr

theorem stepEvent_wellFormed (m : Machine c) (e : Event) (h : WellFormed m.cpu) :
    WellFormed (stepEvent m e).cpu :=
  stepEvent_keeps (I := fun m => WellFormed m.cpu) e (rvRun_wellFormed h)
    fun _ hf _ => h.of_irqFrame hf

/-- A machine at the start of a run: `rv_init` and then `rv_reset` or `sbi_startHart`, or what
`main` does, with an even entry point. -/
inductive Booted : Machine c → Prop
  | reset (m : Machine c) (virtualSBI : Bool) {mode : PrivMode} {start : Addr c}
      (hmode : mode ≠ .reserved) (hstart : IsEven start) :
      Booted (rvReset { m with cpu := rvInit virtualSBI } mode start)
  | startHart (m : Machine c) (virtualSBI : Bool) {entryPoint : Addr c} (a1 : Word c)
      (hentry : IsEven entryPoint) :
      Booted (sbiStartHart { m with cpu := rvInit virtualSBI } entryPoint a1)
  | vmStart (bus : Bus c DevKind) (ram : Memory) (noSBI : Bool) {entryPoint : Addr c}
      (dtbAddress : Word c) (hentry : IsEven entryPoint) :
      Booted (vmStart bus ram noSBI entryPoint dtbAddress)

theorem rvReset_wellFormed (m : Machine c) (virtualSBI : Bool) {mode : PrivMode} {start : Addr c}
    (hmode : mode ≠ .reserved) (hstart : IsEven start) :
    WellFormed (rvReset { m with cpu := rvInit virtualSBI } mode start).cpu := by
  have hms : MstatusWf (mstatusWrVal 0#_ : Word c) := by
    refine ⟨?_, ?_⟩
    · cases c <;> decide
    · cases c <;> decide
  have hmh :
      (if c.isRv64 then 0#_ else mstatushWrVal 0#_ : Word c) &&& mstatushEndianMask = 0#_ := by
    cases c <;> decide
  have hzero : IsEven (0#c.xlen) := by
    unfold IsEven
    simp
  have hpc : ∀ {s : Cpu c} {d : Addr c}, s.trap = false → IsEven d → IsEven (writePC s d).pc := by
    intro s d ht hd
    rw [writePC, if_neg (by simp [ht])]
    exact hd
  simp only [rvReset]
  refine ⟨ArchWf.writePC ?_ _, hpc rfl hstart⟩
  exact ⟨rfl, hmode, hms, hmh, hzero, hzero, BitVec.zero_and, BitVec.zero_and, BitVec.zero_and⟩

theorem sbiStartHart_wellFormed (m : Machine c) (virtualSBI : Bool) {entryPoint : Addr c}
    (a1 : Word c) (hentry : IsEven entryPoint) :
    WellFormed (sbiStartHart { m with cpu := rvInit virtualSBI } entryPoint a1).cpu := by
  have h := rvReset_wellFormed m virtualSBI (by decide : PrivMode.supervisor ≠ .reserved) hentry
  have hpoke := (h.pokeRx (by decide : regA0 ≠ 0#5)
    (rvReset { m with cpu := rvInit virtualSBI } .supervisor entryPoint).cpu.csr.mhartid).pokeRx
    (by decide : regA1 ≠ 0#5) a1
  have hdeleg : (sbiMideleg : Word c) &&& machineIrqMask = 0#_ := by cases c <;> decide
  exact ⟨⟨hpoke.x0, hpoke.mode, hpoke.mstatus, hpoke.mstatush, hpoke.mepc, hpoke.sepc, hdeleg,
    hpoke.mie, hpoke.mip⟩, hpoke.pc⟩

theorem Booted.wellFormed {m : Machine c} (h : Booted m) : WellFormed m.cpu := by
  cases h with
  | reset m virtualSBI hmode hstart => exact rvReset_wellFormed m virtualSBI hmode hstart
  | startHart m virtualSBI a1 hentry => exact sbiStartHart_wellFormed m virtualSBI a1 hentry
  | vmStart bus ram noSBI dtbAddress hentry =>
      cases noSBI with
      | true =>
          have h := rvReset_wellFormed (vmInit bus ram false) false
            (by decide : PrivMode.machine ≠ .reserved) hentry
          exact (h.pokeRx (by decide) _).pokeRx (by decide) _
      | false => exact sbiStartHart_wellFormed (vmInit bus ram true) true dtbAddress hentry

theorem run_wellFormed {start : Machine c} (h : WellFormed start.cpu) (es : List Event) :
    WellFormed (Run.run stepEvent start es).cpu :=
  Run.invariant_all (I := fun m : Machine c => WellFormed m.cpu) stepEvent_wellFormed es start h

/-- What holds of the architectural state, register by register. -/
structure ArchState (s : Cpu c) : Prop where
  x0 : s.regs 0#5 = 0#_
  pc : s.pc &&& 1#_ = 0#_
  mepc : s.csr.mepc &&& 1#_ = 0#_
  sepc : s.csr.sepc &&& 1#_ = 0#_
  mode : s.mode = .user ∨ s.mode = .supervisor ∨ s.mode = .machine
  mpp : mstatusGetMpp s.csr.mstatus = .user ∨ mstatusGetMpp s.csr.mstatus = .supervisor
    ∨ mstatusGetMpp s.csr.mstatus = .machine
  wpri : s.csr.mstatus &&& mstatusWpriMask = 0#_
  endianness : s.csr.mstatus &&& (mstatusUbeMask ||| mstatusSbeMask ||| mstatusMbeMask) = 0#_
    ∧ s.csr.mstatush &&& mstatushEndianMask = 0#_
  extensions : s.csr.mstatus &&& (mstatusFsMask ||| mstatusVsMask ||| mstatusXsMask) = 0#_
  sd : s.csr.mstatus &&& mstatusSdMask = 0#_
  uxl : c.isRv64 = true → s.csr.mstatus &&& mstatusUxlMask = mstatusUxl64
  sxl : c.isRv64 = true → s.csr.mstatus &&& mstatusSxlMask = mstatusSxl64
  mideleg : s.csr.mideleg &&& machineIrqMask = 0#_
  mie : s.csr.mie &&& ~~~mieRwMask = 0#_
  mip : s.csr.mip &&& ~~~mipRwMask = 0#_

theorem WellFormed.archState {s : Cpu c} (h : WellFormed s) : ArchState s := by
  have hmode : ∀ {p : PrivMode}, p ≠ .reserved → p = .user ∨ p = .supervisor ∨ p = .machine := by
    intro p
    cases p <;> decide
  -- a field of `mstatus` inside the fixed bits
  have hfield : ∀ field : Word c, mstatusFixedMask &&& field = field →
      s.csr.mstatus &&& field = mstatusFixed &&& field :=
    fun field => and_eq_of_and_eq h.mstatus.fixed
  refine ⟨h.x0, h.pc.and_one, h.mepc.and_one, h.sepc.and_one, hmode h.mode, hmode h.mstatus.mpp,
    ?_, ⟨?_, h.mstatush⟩, ?_, ?_, ?_, ?_, h.mideleg, h.mie, h.mip⟩
  · rw [hfield _ (by cases c <;> decide)]
    cases c <;> decide
  · rw [hfield _ (by cases c <;> decide)]
    cases c <;> decide
  · rw [hfield _ (by cases c <;> decide)]
    cases c <;> decide
  · rw [hfield _ (by cases c <;> decide)]
    cases c <;> decide
  · rw [hfield _ (by cases c <;> decide)]
    cases c <;> decide
  · rw [hfield _ (by cases c <;> decide)]
    cases c <;> decide

end RV640
