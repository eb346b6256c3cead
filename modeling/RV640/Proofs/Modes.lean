import RV640.Proofs.Frames
import RV640.Proofs.Micro

set_option autoImplicit false

/-! # Traps and modes along an instruction

Which helpers latch a trap. An instruction changes the mode by a return only, and a return goes no
higher than where it comes from.
-/

namespace RV640

open Bits

variable {c : Cfg}

/-! ## The trap flag -/

@[simp] theorem writeReg_trap (s : Cpu c) (rd : Reg) (d : Word c) :
    (writeReg s rd d).trap = s.trap := by
  unfold writeReg
  split <;> rfl

@[simp] theorem writePC_trap (s : Cpu c) (d : Addr c) : (writePC s d).trap = s.trap := by
  unfold writePC
  split <;> rfl

theorem writeMstatus_rest (s : Cpu c) (val : Word c) : writeMstatus s val =
    { s with
      csr := (writeMstatus s val).csr
      irq := (writeMstatus s val).irq
      wfi := (writeMstatus s val).wfi } := by
  simp only [writeMstatus]
  split <;> rfl

theorem writeMie_rest (s : Cpu c) (val : Word c) : writeMie s val =
    { s with
      csr := (writeMie s val).csr
      irq := (writeMie s val).irq
      wfi := (writeMie s val).wfi } := by
  simp only [writeMie]
  split <;> rfl

theorem writeMip_rest (s : Cpu c) (val : Word c) : writeMip s val =
    { s with
      csr := (writeMip s val).csr
      irq := (writeMip s val).irq
      wfi := (writeMip s val).wfi } := by
  simp only [writeMip]
  split <;> rfl

/-- A CSR that is written changes the CSRs, and what `_pendingIRQ` sets. -/
theorem csrWritten_rest {s s' : Cpu c} {csr : BitVec 16} {val : Word c}
    (h : csrWritten s csr val = some s') :
    s' = { s with csr := s'.csr, irq := s'.irq, wfi := s'.wfi } := by
  unfold csrWritten at h
  split at h
  all_goals first
    | (obtain rfl := Option.some.inj h
       first
         | exact writeMstatus_rest s _
         | exact writeMie_rest s _
         | exact writeMip_rest s _
         | rfl)
    | (split at h
       · cases h
       · obtain rfl := Option.some.inj h
         rfl)
    | cases h

/-- No CSR that is written latches a trap. -/
theorem csrWritten_trap {s s' : Cpu c} {csr : BitVec 16} {val : Word c}
    (h : csrWritten s csr val = some s') : s'.trap = s.trap := by
  rw [csrWritten_rest h]

/-- `_writeCSR` writes the CSR or traps. -/
theorem writeCSR_keeps {β : Type} (F : Cpu c → β) {s : Cpu c} {csr : BitVec 16} {val : Word c}
    (hill : F (trap s .instIll) = F s)
    (hw : ∀ s', csrWritten s csr val = some s' → F s' = F s) : F (writeCSR s csr val) = F s := by
  unfold writeCSR
  split
  · rfl
  · split
    · exact hill
    · split
      · rename_i hs
        exact hw _ hs
      · exact hill

/-! ## The other fields -/

theorem writeReg_csr (s : Cpu c) (rd : Reg) (d : Word c) : (writeReg s rd d).csr = s.csr := by
  unfold writeReg
  split <;> rfl

theorem writePC_csr (s : Cpu c) (d : Addr c) : (writePC s d).csr = s.csr := by
  unfold writePC
  split <;> rfl

theorem writePC_regs (s : Cpu c) (d : Addr c) : (writePC s d).regs = s.regs := by
  unfold writePC
  split <;> rfl

/-! ## The mode -/

/-- The mode SPP can hold. -/
theorem mstatusGetSpp_cases (mstatus : Word c) :
    mstatusGetSpp mstatus = .user ∨ mstatusGetSpp mstatus = .supervisor := by
  have hx := c.xlen_ge
  have h : ∀ b : BitVec 2, b.getLsbD 1 = false →
      PrivMode.ofBits b = .user ∨ PrivMode.ofBits b = .supervisor := by decide
  apply h
  simp

@[simp] theorem writeReg_mode (s : Cpu c) (rd : Reg) (d : Word c) :
    (writeReg s rd d).mode = s.mode := by
  unfold writeReg
  split <;> rfl

@[simp] theorem writePC_mode (s : Cpu c) (d : Addr c) : (writePC s d).mode = s.mode := by
  unfold writePC
  split <;> rfl

theorem IrqFrame.mode {S : List IrqCause} {s s' : Cpu c} (h : IrqFrame S s s') :
    s'.mode = s.mode := by rw [h.rest]

/-- A return changes the mode, `mstatus` and the PC, or traps. -/
theorem xret_rest (s : Cpu c) (mode : PrivMode) (size : Int) : xret s mode size =
    { s with
      mode := (xret s mode size).mode
      pc := (xret s mode size).pc
      csr := { s.csr with mstatus := (xret s mode size).csr.mstatus }
      trap := (xret s mode size).trap
      trapCause := (xret s mode size).trapCause
      trapDelegate := (xret s mode size).trapDelegate } := by
  simp only [xret]
  split
  · rfl
  · split
    · rfl
    · by_cases ht : s.trap = true
      · simp only [writePC, if_pos ht]
      · simp only [writePC, if_neg ht]

/-- SRET goes to the mode in SPP, or traps. -/
theorem sret_mode (s : Cpu c) (size : Int) :
    (xret s .supervisor size).mode = s.mode
      ∨ (xret s .supervisor size).mode = .user ∨ (xret s .supervisor size).mode = .supervisor := by
  simp only [xret]
  split
  · exact Or.inl rfl
  · split
    · exact Or.inl rfl
    · right
      simp only [writePC_mode, if_true]
      exact mstatusGetSpp_cases _

/-- MRET below M-mode traps. -/
theorem mret_of_ne_machine {s : Cpu c} (h : s.mode ≠ .machine) (size : Int) :
    xret s .machine size = trap s .instIll := by
  have hlt : s.mode < .machine := by
    revert h
    cases s.mode <;> decide
  rw [xret, if_pos hlt]

theorem csrWritten_mode {s s' : Cpu c} {csr : BitVec 16} {val : Word c}
    (h : csrWritten s csr val = some s') : s'.mode = s.mode := by
  rw [csrWritten_rest h]

@[simp] theorem writeCSR_mode (s : Cpu c) (csr : BitVec 16) (val : Word c) :
    (writeCSR s csr val).mode = s.mode :=
  writeCSR_keeps Cpu.mode rfl fun _ => csrWritten_mode

/-- The mode is what it was, or U, or S. -/
theorem CpuMicro.mode_cases {w : BitVec 32} {s s' : Cpu c} (h : CpuMicro w s s')
    (hm : s.mode ≠ .machine) : s'.mode = s.mode ∨ s'.mode = .user ∨ s'.mode = .supervisor := by
  cases h with
  | writeReg rd d => exact Or.inl (writeReg_mode s rd d)
  | writePC d => exact Or.inl (writePC_mode s d)
  | fault cause _ => exact Or.inl rfl
  | ecall _ => exact Or.inl rfl
  | writeCSR csr _ val => exact Or.inl (writeCSR_mode s csr val)
  | sret size => exact sret_mode s size
  | mret size =>
      rw [mret_of_ne_machine hm]
      exact Or.inl rfl
  | wfi => exact Or.inl rfl
  | flushIcache => exact Or.inl rfl

/-- Of the hart, an effect is one of the helpers, or interrupts of devices. -/
theorem Micro.cpu_cases {w : BitVec 32} {m m' : Machine c} (h : Micro w m m') :
    CpuMicro w m.cpu m'.cpu ∨ IrqFrame deviceIrqs m.cpu m'.cpu := by
  have hfault : TrapCause.ldAf.IsFault ∧ TrapCause.stAf.IsFault := by simp [TrapCause.IsFault]
  cases h with
  | cpu h => exact Or.inl h
  | readMem addr size =>
      rcases readMem_cpu m addr size with he | hf
      · rw [he]
        exact Or.inl (.fault _ hfault.1)
      · exact Or.inr hf
  | writeMem addr buf =>
      rcases writeMem_cpu m addr buf with he | hf
      · rw [he]
        exact Or.inl (.fault _ hfault.2)
      · exact Or.inr hf
  | reserve addr size => exact Or.inr (IrqFrame.refl _ _)
  | checkReserve addr size => exact Or.inr (IrqFrame.refl _ _)

/-- Below M-mode the mode of the machine is what it was, or U, or S. -/
theorem Micro.mode_cases {w : BitVec 32} {m m' : Machine c} (h : Micro w m m')
    (hm : m.cpu.mode ≠ .machine) :
    m'.cpu.mode = m.cpu.mode ∨ m'.cpu.mode = .user ∨ m'.cpu.mode = .supervisor := by
  rcases h.cpu_cases with hc | hf
  · exact hc.mode_cases hm
  · exact Or.inl hf.mode

theorem Micro.mode_ne_machine {w : BitVec 32} {m m' : Machine c} (h : Micro w m m')
    (hm : m.cpu.mode ≠ .machine) : m'.cpu.mode ≠ .machine := by
  obtain he | he | he := h.mode_cases hm
  · rw [he]
    exact hm
  · rw [he]
    decide
  · rw [he]
    decide

/-- What the effects keep below M-mode, an instruction keeps there. -/
theorem Micros.keeps_below {I : Machine c → Prop} {w : BitVec 32} {m m' : Machine c}
    (hs : Micros w m m') (hm : m.cpu.mode ≠ .machine)
    (hstep : ∀ a b, Micro w a b → a.cpu.mode ≠ .machine → I a → I b) (h : I m) : I m' := by
  have hboth : I m' ∧ m'.cpu.mode ≠ .machine :=
    Run.invariant_star (I := fun a => I a ∧ a.cpu.mode ≠ .machine)
      (fun a b hab ha => ⟨hstep a b hab ha.2 ha.1, hab.mode_ne_machine ha.2⟩) hs ⟨h, hm⟩
  exact hboth.1

/-! ## Pending interrupts -/

/-- `_processPendingInterrupts` latches one interrupt after the other, at most two. -/
theorem processPendingInterrupts_invariant {P : Cpu c → Prop} {s : Cpu c} (hs : P s)
    (hirq : ∀ t i delegate, P t → P (interrupt t i delegate)) :
    P (processPendingInterrupts s) := by
  have hM : ∀ t, P t → P (processPendingMInterrupts t) := by
    intro t ht
    simp only [processPendingMInterrupts]
    split
    · exact hirq t _ _ ht
    · exact ht
  have hS : ∀ t, P t → P (processPendingSInterrupts t) := by
    intro t ht
    simp only [processPendingSInterrupts]
    split
    · exact hirq t _ _ ht
    · exact ht
  have hfirst : P (if s.trap then s else processPendingMInterrupts s) := by
    split
    · exact hs
    · exact hM s hs
  simp only [processPendingInterrupts]
  generalize (if s.trap then s else processPendingMInterrupts s) = t at hfirst
  split
  · exact hs
  · split
    · exact hfirst
    · exact hS t hfirst

end RV640
