import RV640.Proofs.Calls
import RV640.Proofs.Compressed
import RV640.Proofs.Modes

set_option autoImplicit false

/-! # One instruction from two states

Two harts are alike when they agree on the registers, the PC and the trap flag, whatever their CSRs
hold. An instruction that is no SYSTEM instruction does the same to both, and of the CSRs it changes
the pending bits of the devices at most.
-/

namespace RV640

open Bits

variable {c : Cfg}

/-! ## The CSRs under an access -/

/-- Only pending bits of devices were changed. -/
structure DeviceCsr (a b : Csr c) : Prop where
  rest : b = { a with mip := b.mip }
  mip : ∀ k, (∀ i ∈ deviceIrqs, k ≠ i.toNat) → b.mip.getLsbD k = a.mip.getLsbD k

namespace DeviceCsr

variable {a b d : Csr c}

protected theorem refl (a : Csr c) : DeviceCsr a a := ⟨rfl, fun _ _ => rfl⟩

protected theorem trans (h : DeviceCsr a b) (h' : DeviceCsr b d) : DeviceCsr a d where
  rest := by
    rw [h'.rest, h.rest]
  mip := by
    intro k hk
    rw [h'.mip k hk, h.mip k hk]

theorem of_irqFrame {S : List IrqCause} {s s' : Cpu c} (h : IrqFrame S s s')
    (hS : ∀ i ∈ S, i ∈ deviceIrqs) : DeviceCsr s.csr s'.csr where
  rest := congrArg Cpu.csr h.rest
  mip := (h.mono hS).mip

end DeviceCsr

theorem IrqFrame.regs {S : List IrqCause} {s s' : Cpu c} (h : IrqFrame S s s') :
    s'.regs = s.regs := by rw [h.rest]

theorem extIrqs_device : ∀ i ∈ extIrqs, i ∈ deviceIrqs := fun _ hi => List.mem_append_right _ hi

/-! ## Two harts that agree outside their CSRs -/

/-- The harts agree on the registers, the PC and the trap flag. -/
structure Alike (s s' : Cpu c) : Prop where
  regs : s'.regs = s.regs
  pc : s'.pc = s.pc
  trap : s'.trap = s.trap

/-- From `s` to `t` and from `s'` to `t'` the same was done, and to no CSR more than a device
does. -/
structure SameEffect (s s' t t' : Cpu c) : Prop where
  csr : DeviceCsr s.csr t.csr
  alike : Alike t t'

theorem SameEffect.trans {s s' t t' u u' : Cpu c} (h : SameEffect s s' t t')
    (h' : SameEffect t t' u u') : SameEffect s s' u u' := ⟨h.csr.trans h'.csr, h'.alike⟩

namespace Alike

variable {s s' : Cpu c} (h : Alike s s')
include h

theorem readReg (r : Reg) : readReg s' r = readReg s r := congrFun h.regs r

theorem readPC : readPC s' = readPC s := h.pc

theorem same : SameEffect s s' s s' := ⟨DeviceCsr.refl _, h⟩

theorem fault (cause : TrapCause) : SameEffect s s' (RV640.trap s cause) (RV640.trap s' cause) :=
  ⟨DeviceCsr.refl _, h.regs, h.pc, rfl⟩

theorem ill : SameEffect s s' (doILL s) (doILL s') := h.fault .instIll

theorem writeReg (rd : Reg) (d : Word c) :
    SameEffect s s' (writeReg s rd d) (writeReg s' rd d) := by
  refine ⟨?_, ?_, ?_, ?_⟩
  · rw [writeReg_csr]
    exact DeviceCsr.refl _
  · unfold RV640.writeReg
    rw [h.trap]
    split
    · exact h.regs
    · exact congrArg (Function.update · rd d) h.regs
  · rw [writeReg_pc, writeReg_pc, h.pc]
  · rw [writeReg_trap, writeReg_trap, h.trap]

theorem writePC (d : Addr c) : SameEffect s s' (writePC s d) (writePC s' d) := by
  refine ⟨?_, ?_, ?_, ?_⟩
  · rw [writePC_csr]
    exact DeviceCsr.refl _
  · rw [writePC_regs, writePC_regs, h.regs]
  · unfold RV640.writePC
    rw [h.trap]
    split
    · exact h.pc
    · rfl
  · rw [writePC_trap, writePC_trap, h.trap]

/-! ### Instructions that stay inside the hart -/

theorem doOPIMM (funct3 : BitVec 3) (iimm : BitVec 32) (rd rs1 : Reg) :
    SameEffect s s' (doOPIMM s funct3 iimm rd rs1) (doOPIMM s' funct3 iimm rd rs1) := by
  simp only [RV640.doOPIMM, h.readReg]
  split
  case h_1 | h_5 => split <;> first | exact h.writeReg _ _ | exact h.ill
  all_goals exact h.writeReg _ _

theorem doOPIMM32 (funct3 : BitVec 3) (iimm : BitVec 32) (rd rs1 : Reg) :
    SameEffect s s' (doOPIMM32 s funct3 iimm rd rs1) (doOPIMM32 s' funct3 iimm rd rs1) := by
  simp only [RV640.doOPIMM32, h.readReg]
  split
  case h_2 | h_3 => split <;> first | exact h.writeReg _ _ | exact h.ill
  all_goals first | exact h.writeReg _ _ | exact h.ill

theorem doOP (funct3 : BitVec 3) (funct7 : BitVec 7) (rd rs1 rs2 : Reg) :
    SameEffect s s' (doOP s funct3 funct7 rd rs1 rs2) (doOP s' funct3 funct7 rd rs1 rs2) := by
  simp only [RV640.doOP, h.readReg]
  split <;> first | exact h.writeReg _ _ | exact h.ill

theorem doOP32 (funct3 : BitVec 3) (funct7 : BitVec 7) (rd rs1 rs2 : Reg) :
    SameEffect s s' (doOP32 s funct3 funct7 rd rs1 rs2) (doOP32 s' funct3 funct7 rd rs1 rs2) := by
  simp only [RV640.doOP32, h.readReg]
  split <;> first | exact h.writeReg _ _ | exact h.ill

theorem doAUIPC (uimm : BitVec 32) (rd : Reg) :
    SameEffect s s' (doAUIPC s uimm rd) (doAUIPC s' uimm rd) := by
  simp only [RV640.doAUIPC, h.readPC]
  exact h.writeReg _ _

theorem doJAL (jimm : BitVec 32) (rd : Reg) (size : Int) :
    SameEffect s s' (doJAL s jimm rd size) (doJAL s' jimm rd size) := by
  simp only [RV640.doJAL, h.readPC]
  exact (h.writeReg _ _).trans ((h.writeReg _ _).alike.writePC _)

theorem doJALR (funct3 : BitVec 3) (iimm : BitVec 32) (rd rs1 : Reg) (size : Int) :
    SameEffect s s' (doJALR s funct3 iimm rd rs1 size) (doJALR s' funct3 iimm rd rs1 size) := by
  simp only [RV640.doJALR, h.readReg, h.readPC]
  split
  · exact (h.writeReg _ _).trans ((h.writeReg _ _).alike.writePC _)
  · exact h.ill

theorem doBRANCH (funct3 : BitVec 3) (bimm : BitVec 32) (rs1 rs2 : Reg) (size : Int) :
    SameEffect s s' (doBRANCH s funct3 bimm rs1 rs2 size)
      (doBRANCH s' funct3 bimm rs1 rs2 size) := by
  simp only [RV640.doBRANCH, h.readReg, h.readPC]
  split
  · exact h.writePC _
  · exact h.same
  · exact h.ill

end Alike

/-! ## Instructions that reach the bus -/

/-- The machines agree on everything outside the harts' CSRs. -/
structure AlikeMachines (m m' : Machine c) : Prop where
  cpu : Alike m.cpu m'.cpu
  bus : m'.bus = m.bus
  ram : m'.ram = m.ram
  aclint : m'.aclint = m.aclint
  plic : m'.plic = m.plic
  uart : m'.uart = m.uart

/-- The bytes a read delivers are the devices' alone. -/
theorem devRead_bytes {m m' : Machine c} (h : AlikeMachines m m') (dev : DevKind) (addr : Nat)
    (buf : List Byte) : (devRead m' dev addr buf).2 = (devRead m dev addr buf).2 := by
  cases dev with
  | ram => exact congrArg (memRead · addr buf.length) h.ram
  | aclint => exact congrArg (Aclint.cbRead · addr buf.length) h.aclint
  | plic =>
      simp only [devRead, Plic.cbRead]
      rw [h.plic]
  | uart =>
      simp only [devRead]
      rw [h.uart]

theorem readMem_effect {m m' : Machine c} (h : AlikeMachines m m') (addr : Addr c) (size : Nat) :
    SameEffect m.cpu m'.cpu (readMem m addr size).1.cpu (readMem m' addr size).1.cpu
      ∧ (readMem m' addr size).2 = (readMem m addr size).2
      ∧ (readMem m' addr size).1.bus = (readMem m addr size).1.bus := by
  simp only [readMem, busRead, h.cpu.trap, h.bus]
  split
  · exact ⟨h.cpu.same, rfl, h.bus⟩
  · cases findDevice m.bus addr (List.replicate size 0#8).length with
    | none => exact ⟨h.cpu.fault _, rfl, rfl⟩
    | some p =>
        have hf := devRead_frame m p.1.dev.callbacks p.2.toNat (List.replicate size 0#8)
        have hf' := devRead_frame m' p.1.dev.callbacks p.2.toNat (List.replicate size 0#8)
        refine ⟨⟨.of_irqFrame hf.cpu extIrqs_device, ?_, ?_, ?_⟩, ?_, ?_⟩
        · rw [hf'.cpu.regs, hf.cpu.regs, h.cpu.regs]
        · rw [hf'.cpu.pc, hf.cpu.pc, h.cpu.pc]
        · rw [hf'.cpu.trap, hf.cpu.trap, h.cpu.trap]
        · exact congrArg ofBytes (devRead_bytes h _ _ _)
        · rw [hf'.bus, hf.bus, h.bus]

theorem writeMem_csr (m : Machine c) (addr : Addr c) (buf : List Byte) :
    DeviceCsr m.cpu.csr (writeMem m addr buf).cpu.csr := by
  rcases writeMem_cpu m addr buf with he | hf
  · rw [he]
    exact DeviceCsr.refl _
  · exact DeviceCsr.of_irqFrame hf fun _ hi => hi

theorem writeMem_regs (m : Machine c) (addr : Addr c) (buf : List Byte) :
    (writeMem m addr buf).cpu.regs = m.cpu.regs := by
  rcases writeMem_cpu m addr buf with he | hf
  · rw [he]
    rfl
  · exact hf.regs

theorem amoSwitch_effect {m m' : Machine c} (h : Alike m.cpu m'.cpu) (hbus : m'.bus = m.bus)
    (funct5 : BitVec 5) (rs2 : Reg) (addr : Addr c) (size : Nat) (rs2Val data : Word c) :
    SameEffect m.cpu m'.cpu (amoSwitch m funct5 rs2 addr size rs2Val data).1.cpu
        (amoSwitch m' funct5 rs2 addr size rs2Val data).1.cpu
      ∧ (amoSwitch m' funct5 rs2 addr size rs2Val data).2
        = (amoSwitch m funct5 rs2 addr size rs2Val data).2 := by
  simp only [amoSwitch, hbus]
  split
  · split
    · exact ⟨h.ill, rfl⟩
    · exact ⟨h.same, rfl⟩
  · exact ⟨h.same, rfl⟩
  · split
    · exact ⟨h.same, rfl⟩
    · exact ⟨h.ill, rfl⟩

/-- From `m` to `n` no CSR was changed by more than a device does, and `n'` has the registers of
`n`. -/
structure SameRegs (m n n' : Machine c) : Prop where
  csr : DeviceCsr m.cpu.csr n.cpu.csr
  regs : n'.cpu.regs = n.cpu.regs

theorem SameEffect.sameRegs {m m' n n' : Machine c} (h : SameEffect m.cpu m'.cpu n.cpu n'.cpu) :
    SameRegs m n n' := ⟨h.csr, h.alike.regs⟩

section Bus

variable {m m' : Machine c} (h : AlikeMachines m m')
include h

theorem doLOAD_effect (funct3 : BitVec 3) (iimm : BitVec 32) (rd rs1 : Reg) :
    SameRegs m (doLOAD m funct3 iimm rd rs1) (doLOAD m' funct3 iimm rd rs1) := by
  simp only [doLOAD, h.cpu.readReg]
  split
  · exact SameEffect.sameRegs h.cpu.ill
  · obtain ⟨heff, hdata, -⟩ := readMem_effect h
      (BitVec.setWidth c.alen (readReg m.cpu rs1
        + BitVec.setWidth c.xlen (signExtend (BitVec.setWidth c.alen iimm) 11)))
      (1 <<< (funct3 &&& 3#3).toNat)
    rw [hdata]
    exact SameEffect.sameRegs (heff.trans (heff.alike.writeReg _ _))

theorem doSTORE_effect (funct3 : BitVec 3) (simm : BitVec 32) (rs1 rs2 : Reg) :
    SameRegs m (doSTORE m funct3 simm rs1 rs2) (doSTORE m' funct3 simm rs1 rs2) := by
  simp only [doSTORE]
  split
  · exact SameEffect.sameRegs h.cpu.ill
  · refine ⟨writeMem_csr _ _ _, ?_⟩
    rw [writeMem_regs, writeMem_regs, h.cpu.regs]

/-- The checks of CBO.ZERO read CSRs; no register depends on them. -/
theorem doMISCMEM_effect (funct3 : BitVec 3) (iimm : BitVec 32) (rd rs1 : Reg) :
    SameRegs m (doMISCMEM m funct3 iimm rd rs1) (doMISCMEM m' funct3 iimm rd rs1) := by
  have hregs : ∀ m : Machine c, (doMISCMEM m funct3 iimm rd rs1).cpu.regs = m.cpu.regs := by
    intro m
    unfold doMISCMEM
    split
    · rfl
    · rfl
    · split
      · split
        · split
          · rfl
          · split
            · rfl
            · exact writeMem_regs _ _ _
        · rfl
      · rfl
    · rfl
  refine ⟨?_, ?_⟩
  · unfold doMISCMEM
    split
    · exact DeviceCsr.refl _
    · exact DeviceCsr.refl _
    · split
      · split
        · split
          · exact DeviceCsr.refl _
          · split
            · exact DeviceCsr.refl _
            · exact writeMem_csr _ _ _
        · exact DeviceCsr.refl _
      · exact DeviceCsr.refl _
    · exact DeviceCsr.refl _
  · rw [hregs, hregs, h.cpu.regs]

theorem doAMO_effect (funct3 : BitVec 3) (funct5 : BitVec 5) (rd rs1 rs2 : Reg) :
    SameRegs m (doAMO m funct3 funct5 rd rs1 rs2) (doAMO m' funct3 funct5 rd rs1 rs2) := by
  simp only [doAMO, h.cpu.readReg]
  split
  · exact SameEffect.sameRegs (h.cpu.fault _)
  · generalize (BitVec.setWidth c.alen (readReg m.cpu rs1)) = addr
    obtain ⟨hread, hdata, hbus⟩ := readMem_effect h addr (amoSize c funct3)
    rw [hdata]
    generalize readMem m addr (amoSize c funct3) = r at hread hbus
    generalize readMem m' addr (amoSize c funct3) = r' at hread hbus
    generalize hsw : amoSwitch r.1 funct5 rs2 _ _ _ _ = sw
    generalize hsw' : amoSwitch r'.1 funct5 rs2 _ _ _ _ = sw'
    have hswitch : SameEffect r.1.cpu r'.1.cpu sw.1.cpu sw'.1.cpu ∧ sw'.2 = sw.2 := by
      rw [← hsw, ← hsw']
      exact amoSwitch_effect hread.alike hbus funct5 rs2 _ _ _ _
    rw [hswitch.2]
    have heff := (hread.trans hswitch.1).trans (hswitch.1.alike.writeReg rd sw.2.rdVal)
    split
    · refine ⟨heff.csr.trans
        (writeMem_csr { sw.1 with cpu := writeReg sw.1.cpu rd sw.2.rdVal } _ _), ?_⟩
      rw [writeMem_regs, writeMem_regs]
      exact heff.alike.regs
    · exact SameEffect.sameRegs heff

end Bus

/-- The call of a SYSTEM instruction. -/
def Call.isSystem : Call → Bool
  | .system _ _ _ _ => true
  | _ => false

/-- **A call that is no SYSTEM instruction does the same from both states.** -/
theorem Call.exec_sameRegs {m m' : Machine c} (h : AlikeMachines m m') {k : Call}
    (hk : k.isSystem = false) (size : Int) : SameRegs m (k.exec m size) (k.exec m' size) := by
  cases k with
  | opImm funct3 iimm rd rs1 => exact SameEffect.sameRegs (h.cpu.doOPIMM funct3 iimm rd rs1)
  | opImm32 funct3 iimm rd rs1 => exact SameEffect.sameRegs (h.cpu.doOPIMM32 funct3 iimm rd rs1)
  | op funct3 funct7 rd rs1 rs2 => exact SameEffect.sameRegs (h.cpu.doOP funct3 funct7 rd rs1 rs2)
  | op32 funct3 funct7 rd rs1 rs2 =>
      exact SameEffect.sameRegs (h.cpu.doOP32 funct3 funct7 rd rs1 rs2)
  | lui uimm rd => exact SameEffect.sameRegs (h.cpu.writeReg rd (upperImm uimm))
  | auipc uimm rd => exact SameEffect.sameRegs (h.cpu.doAUIPC uimm rd)
  | jal jimm rd => exact SameEffect.sameRegs (h.cpu.doJAL jimm rd size)
  | jalr funct3 iimm rd rs1 => exact SameEffect.sameRegs (h.cpu.doJALR funct3 iimm rd rs1 size)
  | branch funct3 bimm rs1 rs2 =>
      exact SameEffect.sameRegs (h.cpu.doBRANCH funct3 bimm rs1 rs2 size)
  | system funct3 iimm rd rs1 => cases hk
  | load funct3 iimm rd rs1 => exact doLOAD_effect h funct3 iimm rd rs1
  | store funct3 simm rs1 rs2 => exact doSTORE_effect h funct3 simm rs1 rs2
  | miscMem funct3 iimm rd rs1 => exact doMISCMEM_effect h funct3 iimm rd rs1
  | amo funct3 funct5 rd rs1 rs2 => exact doAMO_effect h funct3 funct5 rd rs1 rs2
  | nop => exact SameEffect.sameRegs h.cpu.same
  | ill => exact SameEffect.sameRegs h.cpu.ill

end RV640
