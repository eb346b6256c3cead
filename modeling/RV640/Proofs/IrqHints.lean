import RV640.Proofs.RunLoop
import RV640.Proofs.Modes

set_option autoImplicit false

/-! # The flags of a hart that waits

`irq` says that an interrupt may be pending, `wfi` that the hart sleeps. `_pendingIRQ` sets the one
and clears the other, wherever an interrupt is raised or enabled. What every part of the emulator
does to the two is one of two things: it calls `_pendingIRQ` last, or it leaves them and adds
nothing to the pending interrupts. Only WFI is different.
-/

namespace RV640

open Bits Relation

variable {c : Cfg}

/-- From `s` to `s'` the `irq` flag was set, or it stayed and no interrupt became pending; and the
hart was woken, or `wfi` stayed and no interrupt became pending and enabled. -/
structure HintFrame (s s' : Cpu c) : Prop where
  irq : s'.irq = true
    ∨ s'.irq = s.irq ∧ ∀ k, s'.csr.mip.getLsbD k = true → s.csr.mip.getLsbD k = true
  wfi : s'.wfi = false
    ∨ s'.wfi = s.wfi ∧ ∀ k, (s'.csr.mip &&& s'.csr.mie).getLsbD k = true →
      (s.csr.mip &&& s.csr.mie).getLsbD k = true

namespace HintFrame

variable {s s' s'' : Cpu c}

protected theorem refl (s : Cpu c) : HintFrame s s :=
  ⟨Or.inr ⟨rfl, fun _ => id⟩, Or.inr ⟨rfl, fun _ => id⟩⟩

protected theorem trans (h : HintFrame s s') (h' : HintFrame s' s'') : HintFrame s s'' where
  irq := by
    rcases h'.irq with hset | ⟨heq', hsub'⟩
    · exact Or.inl hset
    · rcases h.irq with hset | ⟨heq, hsub⟩
      · exact Or.inl (heq'.trans hset)
      · exact Or.inr ⟨heq'.trans heq, fun k hk => hsub k (hsub' k hk)⟩
  wfi := by
    rcases h'.wfi with hclear | ⟨heq', hsub'⟩
    · exact Or.inl hclear
    · rcases h.wfi with hclear | ⟨heq, hsub⟩
      · exact Or.inl (heq'.trans hclear)
      · exact Or.inr ⟨heq'.trans heq, fun k hk => hsub k (hsub' k hk)⟩

/-- A hart that is awake is not put to sleep. -/
theorem awake (h : HintFrame s s') (hs : s.wfi = false) : s'.wfi = false := by
  rcases h.wfi with hclear | ⟨heq, -⟩
  · exact hclear
  · rw [heq, hs]

/-- `_pendingIRQ` was the last to touch the flags. -/
theorem of_pending (hirq : s'.irq = true) (hwfi : s'.wfi = false) : HintFrame s s' :=
  ⟨Or.inl hirq, Or.inl hwfi⟩

/-- Neither the flags nor what they are about changed. -/
theorem of_same (hirq : s'.irq = s.irq) (hwfi : s'.wfi = s.wfi) (hmip : s'.csr.mip = s.csr.mip)
    (hmie : s'.csr.mie = s.csr.mie) : HintFrame s s' := by
  refine ⟨Or.inr ⟨hirq, ?_⟩, Or.inr ⟨hwfi, ?_⟩⟩
  · rw [hmip]
    exact fun _ => id
  · rw [hmip, hmie]
    exact fun _ => id

/-- Pending interrupts were cleared. -/
theorem of_cleared (hirq : s'.irq = s.irq) (hwfi : s'.wfi = s.wfi)
    (hmip : ∀ k, s'.csr.mip.getLsbD k = true → s.csr.mip.getLsbD k = true)
    (hmie : s'.csr.mie = s.csr.mie) : HintFrame s s' := by
  refine ⟨Or.inr ⟨hirq, hmip⟩, Or.inr ⟨hwfi, ?_⟩⟩
  intro k hk
  rw [BitVec.getLsbD_and, Bool.and_eq_true, hmie] at hk
  rw [BitVec.getLsbD_and, Bool.and_eq_true]
  exact ⟨hmip k hk.1, hk.2⟩

/-- The hart woke up, or it was awake: its enables may have changed. -/
theorem of_awake (hirq : s'.irq = s.irq) (hmip : s'.csr.mip = s.csr.mip)
    (hwfi : s'.wfi = false) : HintFrame s s' := by
  refine ⟨Or.inr ⟨hirq, ?_⟩, Or.inl hwfi⟩
  rw [hmip]
  exact fun _ => id

end HintFrame

/-! ## Interrupts -/

theorem clear_le (mip : Word c) (i : IrqCause) (k : Nat)
    (h : (mip &&& ~~~i.mask).getLsbD k = true) : mip.getLsbD k = true := by
  rw [BitVec.getLsbD_and, Bool.and_eq_true] at h
  exact h.1

theorem rvSetInterrupt_hints (s : Cpu c) (i : IrqCause) : HintFrame s (rvSetInterrupt s i) :=
  .of_pending rfl rfl

theorem rvClearInterrupt_hints (s : Cpu c) (i : IrqCause) : HintFrame s (rvClearInterrupt s i) :=
  .of_cleared rfl rfl (clear_le s.csr.mip i) rfl

theorem IrqSteps.hints {S : List IrqCause} {s s' : Cpu c} (h : IrqSteps S s s') :
    HintFrame s s' := by
  refine Run.invariant_star ?_ h (HintFrame.refl s)
  intro a b hab ha
  cases hab with
  | raise i _ => exact ha.trans (rvSetInterrupt_hints a i)
  | clear i _ => exact ha.trans (rvClearInterrupt_hints a i)

theorem processPendingInterrupts_hints (s : Cpu c) : HintFrame s (processPendingInterrupts s) := by
  refine processPendingInterrupts_invariant (P := HintFrame s) (HintFrame.refl s) ?_
  intro t i delegate ht
  exact ht.trans (.of_cleared rfl rfl (clear_le t.csr.mip i) rfl)

/-! ## Instructions -/

/-- A CSR is written: `mie` and `mip` with `_pendingIRQ` when they change. -/
theorem csrWritten_hints {s s' : Cpu c} {csr : BitVec 16} {val : Word c}
    (h : csrWritten s csr val = some s') : HintFrame s s' := by
  have hmstatus : ∀ v, HintFrame s (writeMstatus s v) := by
    intro v
    simp only [writeMstatus]
    split
    · exact .of_pending rfl rfl
    · exact .of_same rfl rfl rfl rfl
  have hmie : ∀ v, HintFrame s (writeMie s v) := by
    intro v
    simp only [writeMie]
    split
    · exact .of_pending rfl rfl
    · rename_i hne
      exact .of_same rfl rfl rfl (by simpa using hne : s.csr.mie = _).symm
  have hmip : ∀ v, HintFrame s (writeMip s v) := by
    intro v
    simp only [writeMip]
    split
    · exact .of_pending rfl rfl
    · rename_i hne
      exact .of_same rfl rfl (by simpa using hne : s.csr.mip = _).symm rfl
  unfold csrWritten at h
  split at h
  all_goals first
    | (obtain rfl := Option.some.inj h
       first
         | exact hmstatus _
         | exact hmie _
         | exact hmip _
         | exact .of_same rfl rfl rfl rfl)
    | (split at h
       · cases h
       · obtain rfl := Option.some.inj h
         exact .of_same rfl rfl rfl rfl)
    | cases h

theorem trap_hints (s : Cpu c) (cause : TrapCause) : HintFrame s (trap s cause) :=
  .of_same rfl rfl rfl rfl

theorem writeCSR_hints (s : Cpu c) (csr : BitVec 16) (val : Word c) :
    HintFrame s (writeCSR s csr val) := by
  unfold writeCSR
  split
  · exact .refl s
  · split
    · exact trap_hints s _
    · split
      · rename_i hw
        exact csrWritten_hints hw
      · exact trap_hints s _

theorem writeReg_hints (s : Cpu c) (rd : Reg) (d : Word c) : HintFrame s (writeReg s rd d) := by
  unfold writeReg
  split
  · exact .refl s
  · exact .of_same rfl rfl rfl rfl

theorem writePC_hints (s : Cpu c) (d : Addr c) : HintFrame s (writePC s d) := by
  unfold writePC
  split
  · exact .refl s
  · exact .of_same rfl rfl rfl rfl

theorem xret_hints (s : Cpu c) (mode : PrivMode) (size : Int) :
    HintFrame s (xret s mode size) := by
  rw [xret_rest]
  exact .of_same rfl rfl rfl rfl

theorem CpuEffect.hints {w : BitVec 32} {s s' : Cpu c} (h : CpuEffect w s s') :
    HintFrame s s' := by
  cases h with
  | writeReg rd d => exact writeReg_hints s rd d
  | writePC d => exact writePC_hints s d
  | fault cause _ => exact trap_hints s cause
  | ecall _ => exact trap_hints s _
  | writeCSR csr _ val => exact writeCSR_hints s csr val
  | sret size => exact xret_hints s _ size
  | mret size => exact xret_hints s _ size
  | flushIcache => exact .of_same rfl rfl rfl rfl

theorem Effect.hints {w : BitVec 32} {m m' : Machine c} (h : Effect w m m') :
    HintFrame m.cpu m'.cpu := by
  cases h with
  | cpu h => exact h.hints
  | readMem addr size =>
      rcases readMem_steps m addr size with he | hs
      · rw [he]
        exact trap_hints m.cpu _
      · exact hs.hints
  | writeMem addr buf =>
      rcases writeMem_steps m addr buf with he | hs
      · rw [he]
        exact trap_hints m.cpu _
      · exact hs.hints
  | reserve addr size => exact .refl _
  | checkReserve addr size => exact .refl _

/-- An instruction that is no WFI. -/
theorem rvExec_hints (m : Machine c) {w : BitVec 32} (h : ¬ isWfi w) :
    HintFrame m.cpu (rvExec m w).cpu :=
  Run.invariant_star (I := fun a => HintFrame m.cpu a.cpu) (fun _ _ hab ha => ha.trans hab.hints)
    (rvExec_effects m w h) (HintFrame.refl m.cpu)

/-! ## Trap entry and fetch -/

theorem rvPokeRx_hints (s : Cpu c) (rx : Reg) (val : Word c) :
    HintFrame s (rvPokeRx s rx val) :=
  .of_same rfl rfl rfl rfl

theorem setMtimecmp_hints (m : Machine c) (val : BitVec 64) :
    HintFrame m.cpu (setMtimecmp m val).cpu :=
  (Aclint.updateMtimer_steps { m.aclint with mtimecmp := val } m.cpu).hints

theorem dbgConWrite_hints (m : Machine c) (addr : Word c) (count : Nat) :
    HintFrame m.cpu (dbgConWrite m addr count).1.cpu := by
  induction count generalizing m addr with
  | zero => exact .refl _
  | succ count ih =>
      unfold dbgConWrite
      split
      · exact .refl _
      · rename_i m1 bs hr
        exact (busRead_steps hr).hints.trans (ih (uiPutch m1 (bs.headD 0#8)) (addr + 1#_))

/-- `_handleTimerExt` writes `mie` itself. The hart it does so for is in a trap, and awake. -/
theorem handleTimerExt_hints (m : Machine c) (fid : Word c) (h : m.cpu.wfi = false) :
    HintFrame m.cpu (handleTimerExt m fid).1.cpu := by
  simp only [handleTimerExt]
  split
  · have htimer := setMtimecmp_hints m (setTimerArg m.cpu)
    exact htimer.trans (.of_awake rfl rfl (htimer.awake h))
  · exact .refl _

theorem sbiDispatch_hints (m : Machine c) (eid fid : Word c) (h : m.cpu.wfi = false) :
    HintFrame m.cpu (sbiDispatch m eid fid).1.cpu := by
  unfold sbiDispatch
  split
  · exact .refl _
  · split
    · exact handleTimerExt_hints m fid h
    · split
      · simp only [handleDbgConExt]
        split
        · exact dbgConWrite_hints m _ _
        · exact .refl _
      · exact .refl _

theorem sbiHandleEcall_hints (m : Machine c) (h : m.cpu.wfi = false) :
    HintFrame m.cpu (sbiHandleEcall m).cpu :=
  (sbiDispatch_hints m (m.cpu.regs regA7) (m.cpu.regs regA6) h).trans
    ((rvPokeRx_hints _ regA0 _).trans (rvPokeRx_hints _ regA1 _))

theorem sbiHandleInterrupt_hints (m : Machine c) (h : m.cpu.wfi = false) :
    HintFrame m.cpu (sbiHandleInterrupt m).cpu := by
  simp only [sbiHandleInterrupt]
  split
  · have htimer := setMtimecmp_hints m ((cpuUintMax : Word c).setWidth 64)
    generalize setMtimecmp m ((cpuUintMax : Word c).setWidth 64) = m1 at htimer ⊢
    have hmie : HintFrame m1.cpu
        (pokeMie m1.cpu (m1.cpu.csr.mie &&& ~~~IrqCause.machineTmrInt.mask)) :=
      .of_awake rfl rfl (htimer.awake h)
    exact (htimer.trans hmie).trans (rvSetInterrupt_hints _ .supervisorTmrInt)
  · exact .refl _

theorem enterTrap_hints (s : Cpu c) :
    HintFrame s (enterTrap s) ∧ (enterTrap s).wfi = false := by
  unfold enterTrap
  split
  · exact ⟨.of_awake rfl rfl rfl, rfl⟩
  · exact ⟨.of_awake rfl rfl rfl, rfl⟩

theorem doTrap_hints (m : Machine c) : HintFrame m.cpu (doTrap m).cpu := by
  obtain ⟨hent, hawake⟩ := enterTrap_hints m.cpu
  simp only [doTrap]
  split
  · exact hent.trans ((sbiHandleEcall_hints { m with cpu := enterTrap m.cpu } hawake).trans
      (xret_hints _ _ _))
  · exact hent.trans ((sbiHandleInterrupt_hints { m with cpu := enterTrap m.cpu } hawake).trans
      (xret_hints _ _ _))
  · exact hent.trans (xret_hints (enterTrap m.cpu) _ _)
  · exact hent.trans (writePC_hints (enterTrap m.cpu) _)

theorem rvEnter_hints (m : Machine c) : HintFrame m.cpu (rvEnter m).1.cpu := by
  have he := rvEnter_enters m
  generalize rvEnter m = r at he ⊢
  cases he with
  | trapped _ => exact doTrap_hints m
  | searched _ _ => exact processPendingInterrupts_hints m.cpu
  | idle _ _ => exact .refl _

theorem fetch_hints (m : Machine c) : HintFrame m.cpu (fetch m).1.cpu := by
  have hf := fetch_fetches m
  generalize fetch m = r at hf ⊢
  cases hf with
  | misaligned _ => exact trap_hints m.cpu _
  | hit _ _ => exact .refl _
  | fill _ _ hline => exact (busRead_steps hline).hints.trans (.of_same rfl rfl rfl rfl)
  | word _ _ _ hword => exact (busRead_steps hword).hints
  | fault _ _ _ _ => exact trap_hints m.cpu _

/-- `rv_run` up to the instruction. -/
theorem rvFetch_hints (m : Machine c) : HintFrame m.cpu (rvFetch m).1.cpu :=
  rvFetch_keeps (I := fun m1 => HintFrame m.cpu m1.cpu) (rvEnter_hints m)
    fun m1 h => h.trans (fetch_hints m1)

/-- The events that are no call of `rv_run`. -/
theorem deviceEvent_hints (m : Machine c) {e : Event} (he : e ≠ .run) :
    HintFrame m.cpu (stepEvent m e).cpu :=
  (deviceEvent_steps m he).hints

/-! ## The start of a run -/

/-- A machine at the start of a run: `rv_init` and one `rv_reset` or `sbi_startHart`, with devices
in any state, or what `main` does. -/
inductive Started : Machine c → Prop
  | reset (m : Machine c) (virtualSBI : Bool) (mode : PrivMode) (start : Addr c) :
      Started (rvReset { m with cpu := rvInit virtualSBI } mode start)
  | startHart (m : Machine c) (virtualSBI : Bool) (entryPoint : Addr c) (a1 : Word c) :
      Started (sbiStartHart { m with cpu := rvInit virtualSBI } entryPoint a1)
  | vmStart (bus : Bus c DevKind) (ram : Memory) (noSBI : Bool) (entryPoint : Addr c)
      (dtbAddress : Word c) : Started (vmStart bus ram noSBI entryPoint dtbAddress)

/-- Nothing is pending, and the hart is awake. -/
theorem rvReset_calm (m : Machine c) (virtualSBI : Bool) (mode : PrivMode) (start : Addr c) :
    (rvReset { m with cpu := rvInit virtualSBI } mode start).cpu.csr.mip = 0#_
      ∧ (rvReset { m with cpu := rvInit virtualSBI } mode start).cpu.wfi = false :=
  ⟨rfl, rfl⟩

theorem Started.calm {m : Machine c} (h : Started m) :
    m.cpu.csr.mip = 0#_ ∧ m.cpu.wfi = false := by
  cases h with
  | reset m virtualSBI mode start => exact rvReset_calm m virtualSBI mode start
  | startHart m virtualSBI entryPoint a1 =>
      exact rvReset_calm m virtualSBI .supervisor entryPoint
  | vmStart bus ram noSBI entryPoint dtbAddress =>
      cases noSBI with
      | true => exact rvReset_calm (RV640.vmInit bus ram false) false .machine entryPoint
      | false => exact rvReset_calm (RV640.vmInit bus ram true) true .supervisor entryPoint

end RV640
