import RV640.Proofs.IrqSelect
import RV640.Proofs.Modes
import RV640.Proofs.PlicBounds
import RV640.Proofs.TrapLevels

set_option autoImplicit false

/-! # Confinement under the built-in SBI

With `virtualSBI` set, the guest never runs in M-mode: every trap that would go there is served by a
handler of the emulator, which returns before the next instruction. The invariant says which traps
these are: an ECALL of S-mode, and the machine timer interrupt.
-/

namespace RV640

open Bits Relation

variable {c : Cfg}

/-! ## What stays as `sbi_startHart` left it -/

/-- The registers the confinement rests on. -/
structure SbiFixed (s : Cpu c) : Prop where
  virtualSBI : s.virtualSBI = true
  medeleg : s.csr.medeleg = sbiMedeleg
  mideleg : s.csr.mideleg = sbiMideleg
  mtvec : s.csr.mtvec = 0#_
  msie : s.csr.mie.getLsbD IrqCause.machineSwInt.toNat = false
  meie : s.csr.mie.getLsbD IrqCause.machineExtInt.toNat = false

/-- The hart is in U-mode or in S-mode. -/
def LowMode (s : Cpu c) : Prop := s.mode = .user ∨ s.mode = .supervisor

theorem SbiFixed.congr {s s' : Cpu c} (h : SbiFixed s) (hv : s'.virtualSBI = s.virtualSBI)
    (hmedeleg : s'.csr.medeleg = s.csr.medeleg) (hmideleg : s'.csr.mideleg = s.csr.mideleg)
    (hmtvec : s'.csr.mtvec = s.csr.mtvec) (hmie : s'.csr.mie = s.csr.mie) : SbiFixed s' where
  virtualSBI := hv.trans h.virtualSBI
  medeleg := hmedeleg.trans h.medeleg
  mideleg := hmideleg.trans h.mideleg
  mtvec := hmtvec.trans h.mtvec
  msie := by rw [hmie]; exact h.msie
  meie := by rw [hmie]; exact h.meie

theorem writePC_fixed {s : Cpu c} (h : SbiFixed s) (d : Addr c) : SbiFixed (writePC s d) := by
  unfold writePC
  split
  · exact h
  · exact h.congr rfl rfl rfl rfl rfl

theorem writePC_trapDelegate (s : Cpu c) (d : Addr c) :
    (writePC s d).trapDelegate = s.trapDelegate := by
  unfold writePC
  split <;> rfl

theorem IrqFrame.fixed {S : List IrqCause} {s s' : Cpu c} (h : IrqFrame S s s')
    (hs : SbiFixed s) : SbiFixed s' := by
  rw [h.rest]
  exact hs.congr rfl rfl rfl rfl rfl

theorem LowMode.ne_machine {s : Cpu c} (h : LowMode s) : s.mode ≠ .machine := by
  obtain h | h := h
  · rw [h]
    decide
  · rw [h]
    decide

theorem LowMode.le_supervisor {s : Cpu c} (h : LowMode s) : s.mode ≤ .supervisor := by
  obtain h | h := h
  · rw [h]
    decide
  · rw [h]
    decide

theorem getLsbD_sbiMedeleg (k : Nat) :
    (sbiMedeleg : Word c).getLsbD k
      = (decide (k < c.xlen) && !(decide (k = 9) || decide (k = 11) || decide (k = 16))) := by
  by_cases hk : k < c.xlen
  · simp [sbiMedeleg, cpuUintMax, TrapCause.toNat, hk, Bool.and_assoc]
  · simp [sbiMedeleg, cpuUintMax, hk]

theorem getLsbD_sbiMideleg (k : Nat) :
    (sbiMideleg : Word c).getLsbD k
      = (decide (k < c.xlen) && !(decide (k = 3) || decide (k = 7) || decide (k = 11))) := by
  by_cases hk : k < c.xlen
  · simp [sbiMideleg, cpuUintMax, IrqCause.mask, IrqCause.toNat, hk, Bool.and_assoc]
  · simp [sbiMideleg, cpuUintMax, hk]

/-! ## Delegation -/

/-- Every exception but a call of S-mode or M-mode is delegated. -/
theorem trapDelegation_of_fixed {s : Cpu c} (hs : SbiFixed s) (hl : LowMode s) {cause : TrapCause}
    (h9 : cause ≠ .callS) (h11 : cause ≠ .callM) (h16 : cause ≠ .doubleTrap) :
    trapDelegation s cause = true := by
  have hx := c.xlen_ge
  have hlt := cause.toNat_lt
  have hbit : (s.csr.medeleg &&& bit cause.toNat != 0#_) = true := by
    rw [and_bit_bne_zero, hs.medeleg, getLsbD_sbiMedeleg, decide_eq_true (by omega), Bool.true_and]
    revert h9 h11 h16
    cases cause <;> decide
  simp [trapDelegation, h11, h16, hl.le_supervisor, hbit]

theorem trapDelegation_callS {s : Cpu c} (hs : SbiFixed s) : trapDelegation s .callS = false := by
  have hbit : (s.csr.medeleg &&& bit TrapCause.callS.toNat != 0#_) = false := by
    rw [and_bit_bne_zero, hs.medeleg, getLsbD_sbiMedeleg]
    simp [TrapCause.toNat]
  simp only [trapDelegation, hbit, Bool.and_false]

/-- A latched trap goes to S-mode. -/
def LatchedLow (s : Cpu c) : Prop := s.trap = true → s.trapDelegate = true

/-- The guest's state, with nothing latched for M-mode. -/
structure Guest (s : Cpu c) : Prop where
  fixed : SbiFixed s
  low : LowMode s
  latched : LatchedLow s

theorem Guest.fault {s : Cpu c} (h : Guest s) {cause : TrapCause} (h9 : cause ≠ .callS)
    (h11 : cause ≠ .callM) (h16 : cause ≠ .doubleTrap) : Guest (trap s cause) where
  fixed := h.fixed.congr rfl rfl rfl rfl rfl
  low := h.low
  latched := fun _ => trapDelegation_of_fixed h.fixed h.low h9 h11 h16

theorem IrqFrame.guest {S : List IrqCause} {s s' : Cpu c} (h : IrqFrame S s s') (hs : Guest s) :
    Guest s' where
  fixed := h.fixed hs.fixed
  low := by
    unfold LowMode
    rw [h.mode]
    exact hs.low
  latched := by
    unfold LatchedLow
    rw [h.trap, h.trapDelegate]
    exact hs.latched

/-! ## CSR writes -/

theorem writeMstatus_fixed {s : Cpu c} (h : SbiFixed s) (val : Word c) :
    SbiFixed (writeMstatus s val) := by
  simp only [writeMstatus]
  split <;> exact h.congr rfl rfl rfl rfl rfl

theorem writeMip_fixed {s : Cpu c} (h : SbiFixed s) (val : Word c) : SbiFixed (writeMip s val) := by
  simp only [writeMip]
  split <;> exact h.congr rfl rfl rfl rfl rfl

theorem writeMie_mie (s : Cpu c) (val : Word c) :
    (writeMie s val).csr.mie = (s.csr.mie &&& ~~~mieRwMask) ||| (val &&& mieRwMask) := by
  simp only [writeMie]

/-- A write of `sie` reaches no machine-level enable. -/
theorem writeSie_fixed {s : Cpu c} (h : SbiFixed s) (val : Word c) :
    SbiFixed (writeMie s ((val &&& (s.csr.mideleg &&& sieRwMask))
      ||| (s.csr.mie &&& ~~~(s.csr.mideleg &&& sieRwMask)))) := by
  have hbit : ∀ k, (sbiMideleg : Word c).getLsbD k = false → s.csr.mie.getLsbD k = false →
      (writeMie s ((val &&& (s.csr.mideleg &&& sieRwMask))
        ||| (s.csr.mie &&& ~~~(s.csr.mideleg &&& sieRwMask)))).csr.mie.getLsbD k = false := by
    intro k hd hk
    rw [writeMie_mie, h.mideleg]
    simp only [BitVec.getLsbD_or, BitVec.getLsbD_and, hd, hk, Bool.false_and, Bool.and_false,
      Bool.or_false]
  have h3 := hbit IrqCause.machineSwInt.toNat (by rw [getLsbD_sbiMideleg]; simp [IrqCause.toNat])
    h.msie
  have h11 := hbit IrqCause.machineExtInt.toNat (by rw [getLsbD_sbiMideleg]; simp [IrqCause.toNat])
    h.meie
  simp only [writeMie] at h3 h11 ⊢
  split <;> exact ⟨h.virtualSBI, h.medeleg, h.mideleg, h.mtvec, h3, h11⟩

/-- No CSR of the low modes holds what the confinement rests on. -/
theorem csrWritten_fixed {s s' : Cpu c} {csr : BitVec 16} {val : Word c}
    (hw : csrWritten s csr val = some s') (hs : SbiFixed s) (hlow : csrPrivMode csr ≤ .supervisor) :
    SbiFixed s' := by
  unfold csrWritten at hw
  split at hw
  case h_1 =>
    obtain rfl := Option.some.inj hw
    exact writeMstatus_fixed hs _
  case h_2 =>
    obtain rfl := Option.some.inj hw
    exact writeSie_fixed hs val
  case h_9 =>
    obtain rfl := Option.some.inj hw
    exact writeMip_fixed hs _
  case h_3 | h_4 | h_5 | h_6 | h_7 | h_8 =>
    obtain rfl := Option.some.inj hw
    exact hs.congr rfl rfl rfl rfl rfl
  case h_23 => cases hw
  -- the rest are M-mode registers
  all_goals exact absurd hlow (by decide)

theorem writeCSR_guest {s : Cpu c} (h : Guest s) (csr : BitVec 16) (val : Word c) :
    Guest (writeCSR s csr val) := by
  have hill : Guest (trap s .instIll) := h.fault (by decide) (by decide) (by decide)
  unfold writeCSR
  split
  · exact h
  · rename_i htrap
    split
    · exact hill
    · rename_i hpriv
      split
      · rename_i s' hw
        have hlow : csrPrivMode csr ≤ .supervisor := by
          have hle := h.low.le_supervisor
          revert hpriv hle
          cases s.mode <;> cases csrPrivMode csr <;> decide
        refine ⟨csrWritten_fixed hw h.fixed hlow, ?_, ?_⟩
        · unfold LowMode
          rw [csrWritten_mode hw]
          exact h.low
        · intro ht
          rw [csrWritten_trap hw] at ht
          exact absurd ht htrap
      · exact hill

/-! ## Instructions -/

theorem xret_guest {s : Cpu c} (h : Guest s) (size : Int) : Guest (xret s .supervisor size) := by
  have hill : Guest (trap s .instIll) := h.fault (by decide) (by decide) (by decide)
  have hmode := sret_mode s size
  have hlow : LowMode (xret s .supervisor size) := by
    obtain he | he | he := hmode
    · unfold LowMode
      rw [he]
      exact h.low
    · exact Or.inl he
    · exact Or.inr he
  simp only [xret] at hlow ⊢
  split at hlow
  · rename_i hlt
    rw [if_pos hlt]
    exact hill
  · rename_i hlt
    rw [if_neg hlt]
    split at hlow
    · rename_i htsr
      rw [if_pos htsr]
      exact hill
    · rename_i htsr
      rw [if_neg htsr]
      refine ⟨writePC_fixed ?_ _, hlow, ?_⟩
      · exact h.fixed.congr rfl rfl rfl rfl rfl
      · unfold LatchedLow
        rw [writePC_trap, writePC_trapDelegate]
        exact h.latched

theorem CpuMicro.guest {w : BitVec 32} {s s' : Cpu c} (hm : CpuMicro w s s') (hw : ¬ isEcall w)
    (h : Guest s) : Guest s' := by
  cases hm with
  | writeReg rd d =>
      unfold RV640.writeReg
      split
      · exact h
      · exact ⟨h.fixed.congr rfl rfl rfl rfl rfl, h.low, h.latched⟩
  | writePC d =>
      refine ⟨writePC_fixed h.fixed d, ?_, ?_⟩
      · unfold LowMode
        rw [writePC_mode]
        exact h.low
      · unfold LatchedLow
        rw [writePC_trap, writePC_trapDelegate]
        exact h.latched
  | fault cause hf => exact h.fault hf.2.1 hf.2.2.1 hf.2.2.2
  | ecall he => exact absurd he hw
  | writeCSR csr _ val => exact writeCSR_guest h csr val
  | sret size => exact xret_guest h size
  | mret size =>
      rw [mret_of_ne_machine h.low.ne_machine]
      exact h.fault (by decide) (by decide) (by decide)
  | wfi => exact ⟨h.fixed.congr rfl rfl rfl rfl rfl, h.low, h.latched⟩
  | flushIcache => exact ⟨h.fixed.congr rfl rfl rfl rfl rfl, h.low, h.latched⟩

theorem Micro.guest {w : BitVec 32} {m m' : Machine c} (hm : Micro w m m') (hw : ¬ isEcall w)
    (h : Guest m.cpu) : Guest m'.cpu := by
  rcases hm.cpu_cases with hc | hf
  · exact hc.guest hw h
  · exact hf.guest h

/-- An instruction other than ECALL latches nothing for M-mode. -/
theorem rvExec_guest {m : Machine c} {w : BitVec 32} (hw : ¬ isEcall w) (h : Guest m.cpu) :
    Guest (rvExec m w).cpu :=
  Run.invariant_star (I := fun m => Guest m.cpu) (fun _ _ hm h => hm.guest hw h)
    (rvExec_micros m w) h

/-- ECALL latches the call of its mode and nothing else. -/
theorem rvExec_ecall {m : Machine c} {w : BitVec 32} (hw : isEcall w) :
    rvExec m w = { m with cpu := trap m.cpu (ecallCause m.cpu.mode) } := by
  obtain ⟨hq, hop, hf, hi⟩ := hw
  unfold rvExec execCext
  simp only [if_pos hq, execInstr, hop, doSYSTEM, hf, hi]
  rfl

/-! ## Between two calls of `rv_run` -/

/-- What a latched trap can be: one for S-mode, the machine timer interrupt, or an ECALL that the
last instruction, executed in S-mode, raised. -/
def LatchedOk (ran : Option (PrivMode × BitVec 32)) (s : Cpu c) : Prop :=
  s.trap = true →
    s.trapDelegate = true
      ∨ (s.trapDelegate = false ∧ s.trapCause = irqCauseWord .machineTmrInt)
      ∨ (s.trapDelegate = false ∧ s.trapCause = trapCauseWord .callS
          ∧ ∃ w, ran = some (.supervisor, w) ∧ isEcall w)

/-- The invariant of the confinement. -/
structure Confined (ran : Option (PrivMode × BitVec 32)) (s : Cpu c) : Prop where
  fixed : SbiFixed s
  low : LowMode s
  latched : LatchedOk ran s

theorem Guest.confined {s : Cpu c} (h : Guest s) (ran : Option (PrivMode × BitVec 32)) :
    Confined ran s :=
  ⟨h.fixed, h.low, fun ht => Or.inl (h.latched ht)⟩

theorem Confined.guest {ran : Option (PrivMode × BitVec 32)} {s : Cpu c} (h : Confined ran s)
    (ht : s.trap = false) : Guest s :=
  ⟨h.fixed, h.low, fun ht' => by rw [ht] at ht'; cases ht'⟩

theorem IrqFrame.confined {S : List IrqCause} {ran : Option (PrivMode × BitVec 32)} {s s' : Cpu c}
    (h : IrqFrame S s s') (hs : Confined ran s) : Confined ran s' where
  fixed := h.fixed hs.fixed
  low := by
    unfold LowMode
    rw [h.mode]
    exact hs.low
  latched := by
    unfold LatchedOk
    rw [h.trap, h.trapDelegate, h.trapCause]
    exact hs.latched

theorem interrupt_fixed {s : Cpu c} (h : SbiFixed s) (i : IrqCause) (delegate : Bool) :
    SbiFixed (interrupt s i delegate) := h.congr rfl rfl rfl rfl rfl

/-- The interrupts the guest can be interrupted by. -/
theorem codeSelect_of_fixed {s : Cpu c} (hs : SbiFixed s) (hl : LowMode s) :
    codeSelect s = none
      ∨ (codeSelect s = some (.machineTmrInt, false) ∧ irqPending s .machineTmrInt = true)
      ∨ ∃ i ∈ sIrqs, codeSelect s = some (i, true) := by
  have hx := c.xlen_ge
  have hoff : irqsOff s = false := by
    simp [irqsOff, hl.ne_machine]
  have hmei : irqPending s .machineExtInt = false := by
    simp only [irqPending, BitVec.getLsbD_and, hs.meie, Bool.and_false]
  have hmsi : irqPending s .machineSwInt = false := by
    simp only [irqPending, BitVec.getLsbD_and, hs.msie, Bool.and_false]
  have hdel : ∀ i ∈ sIrqs, delegated s i = true := by
    intro i hi
    have hbit : delegated s i = s.csr.mideleg.getLsbD i.toNat := and_bit_bne_zero _ _
    have hlt := i.toNat_lt
    rw [hbit, hs.mideleg, getLsbD_sbiMideleg, decide_eq_true (by omega)]
    revert hi
    cases i <;> decide
  simp only [codeSelect, hoff, Bool.false_eq_true, if_false]
  cases hm : mIrqs.find? (irqPending s) with
  | some i =>
      have hmem := List.mem_of_find?_eq_some hm
      have hp := List.find?_some hm
      simp only [mIrqs, List.mem_cons, List.not_mem_nil, or_false] at hmem
      obtain rfl | rfl | rfl := hmem
      · rw [hmei] at hp
        cases hp
      · rw [hmsi] at hp
        cases hp
      · exact Or.inr (Or.inl ⟨rfl, hp⟩)
  | none =>
      cases hf : sIrqs.find? fun i => irqPending s i && (!delegated s i || delegatedIrqOpen s) with
      | none => exact Or.inl rfl
      | some i =>
          refine Or.inr (Or.inr ⟨i, List.mem_of_find?_eq_some hf, ?_⟩)
          simp only [Option.map_some, hdel i (List.mem_of_find?_eq_some hf)]

theorem processPendingInterrupts_confined {s : Cpu c} (h : Guest s) (ht : s.trap = false)
    (ran : Option (PrivMode × BitVec 32)) : Confined ran (processPendingInterrupts s) := by
  rw [processPendingInterrupts_eq ht]
  obtain he | ⟨he, -⟩ | ⟨i, -, he⟩ := codeSelect_of_fixed h.fixed h.low
  · rw [he]
    exact h.confined ran
  · rw [he]
    exact ⟨interrupt_fixed h.fixed _ _, h.low, fun _ => Or.inr (Or.inl ⟨rfl, rfl⟩)⟩
  · rw [he]
    exact ⟨interrupt_fixed h.fixed _ _, h.low, fun _ => Or.inl rfl⟩

/-! ## Trap entry and the handlers -/

/-- The mode that MRET returns to is the one trap entry saved. -/
theorem mret_from_enter (mstatus : Word c) (p : PrivMode) :
    mstatusGetMpp (xretRestoreIe (mstatusEnterM mstatus p) .machine) = p :=
  TrapLevel.savedMode_push (l := .machine) mstatus (fun h => nomatch h)

/-- The state a handler works on: in M-mode, with no trap latched, entered from mode `p`. -/
structure InHandler (p : PrivMode) (s : Cpu c) : Prop where
  fixed : SbiFixed s
  mode : s.mode = .machine
  trap : s.trap = false
  mstatus : ∃ mstatus, s.csr.mstatus = mstatusEnterM mstatus p

theorem IrqFrame.inHandler {S : List IrqCause} {p : PrivMode} {s s' : Cpu c}
    (h : IrqFrame S s s') (hs : InHandler p s) : InHandler p s' where
  fixed := h.fixed hs.fixed
  mode := h.mode.trans hs.mode
  trap := h.trap.trans hs.trap
  mstatus := by
    rw [h.rest]
    exact hs.mstatus

theorem setMtimecmp_frame (m : Machine c) (val : BitVec 64) :
    IrqFrame [.machineTmrInt] m.cpu (setMtimecmp m val).cpu :=
  Aclint.updateMtimer_frame _ m.cpu

/-- The handlers change MTIE in `mie`, and no other bit. -/
theorem pokeMie_inHandler {p : PrivMode} {s : Cpu c} (h : InHandler p s) {mie : Word c}
    (hmie : ∀ k, k ≠ IrqCause.machineTmrInt.toNat → mie.getLsbD k = s.csr.mie.getLsbD k) :
    InHandler p (pokeMie s mie) where
  fixed :=
    { virtualSBI := h.fixed.virtualSBI
      medeleg := h.fixed.medeleg
      mideleg := h.fixed.mideleg
      mtvec := h.fixed.mtvec
      msie := (hmie _ (by decide)).trans h.fixed.msie
      meie := (hmie _ (by decide)).trans h.fixed.meie }
  mode := h.mode
  trap := h.trap
  mstatus := h.mstatus

theorem setMtie_other (mie : Word c) (k : Nat) (hk : k ≠ IrqCause.machineTmrInt.toNat) :
    (mie ||| IrqCause.machineTmrInt.mask).getLsbD k = mie.getLsbD k := by
  simp [IrqCause.mask, hk]

theorem clearMtie_other (mie : Word c) (k : Nat) (hk : k ≠ IrqCause.machineTmrInt.toNat) :
    (mie &&& ~~~IrqCause.machineTmrInt.mask).getLsbD k = mie.getLsbD k := by
  by_cases hkw : k < c.xlen
  · simp [IrqCause.mask, hk, hkw]
  · simp [BitVec.getLsbD_of_ge _ k (by omega : c.xlen ≤ k)]

theorem pokeRx_inHandler {p : PrivMode} {s : Cpu c} (h : InHandler p s) (rx : Reg)
    (val : Word c) : InHandler p (rvPokeRx s rx val) :=
  ⟨h.fixed.congr rfl rfl rfl rfl rfl, h.mode, h.trap, h.mstatus⟩

theorem dbgConWrite_frame (m : Machine c) (addr : Word c) (count : Nat) :
    IoFrame m (dbgConWrite m addr count).1 := by
  induction count generalizing m addr with
  | zero => exact IoFrame.refl m
  | succ count ih =>
      unfold dbgConWrite
      split
      · exact IoFrame.refl m
      · rename_i m1 bs hr
        have hput : IoFrame m1 (uiPutch m1 (bs.headD 0#8)) := ⟨IrqFrame.refl _ _, rfl, rfl⟩
        exact ((busRead_frame hr).trans hput).trans (ih _ _)

theorem handleTimerExt_inHandler {p : PrivMode} {m : Machine c} (h : InHandler p m.cpu)
    (fid : Word c) : InHandler p (handleTimerExt m fid).1.cpu := by
  simp only [handleTimerExt]
  split
  · have hset := (setMtimecmp_frame m (setTimerArg m.cpu)).inHandler h
    refine pokeMie_inHandler hset ?_
    intro k hk
    split
    · exact clearMtie_other _ k hk
    · exact setMtie_other _ k hk
  · exact h

theorem sbiHandleEcall_inHandler {p : PrivMode} {m : Machine c} (h : InHandler p m.cpu) :
    InHandler p (sbiHandleEcall m).cpu := by
  have hd : InHandler p (sbiDispatch m (m.cpu.regs regA7) (m.cpu.regs regA6)).1.cpu := by
    unfold sbiDispatch
    split
    · exact h
    · split
      · exact handleTimerExt_inHandler h _
      · split
        · simp only [handleDbgConExt]
          split
          · exact (dbgConWrite_frame m _ _).cpu.inHandler h
          · exact h
        · exact h
  exact pokeRx_inHandler (pokeRx_inHandler hd _ _) _ _

theorem sbiHandleInterrupt_inHandler {p : PrivMode} {m : Machine c} (h : InHandler p m.cpu) :
    InHandler p (sbiHandleInterrupt m).cpu := by
  simp only [sbiHandleInterrupt]
  split
  · have hset := (setMtimecmp_frame m ((cpuUintMax : Word c).setWidth 64)).inHandler h
    have hpoke := pokeMie_inHandler hset (clearMtie_other _)
    exact (rvSetInterrupt_frame _ .supervisorTmrInt).inHandler hpoke
  · exact h

/-- The return from a handler restores the mode it was entered from. -/
theorem mret_inHandler {p : PrivMode} {s : Cpu c} (h : InHandler p s) (size : Int) :
    SbiFixed (xret s .machine size) ∧ (xret s .machine size).mode = p
      ∧ (xret s .machine size).trap = false := by
  obtain ⟨mstatus, hms⟩ := h.mstatus
  have hlt : ¬ s.mode < .machine := by
    rw [h.mode]
    decide
  have htsr : ¬ ((s.mode = .supervisor && PrivMode.machine = .supervisor
      && (mstatusEnterM mstatus p &&& mstatusTsrMask != 0#_)) = true) := by
    simp
  simp only [xret, if_neg hlt, if_neg htsr, hms, writePC_trap, writePC_mode]
  refine ⟨writePC_fixed ?_ _, mret_from_enter mstatus p, h.trap⟩
  exact h.fixed.congr rfl rfl rfl rfl rfl

theorem enterTrap_inHandler {s : Cpu c} (hs : SbiFixed s) (hd : s.trapDelegate = false) :
    InHandler s.mode (enterTrap s) := by
  simp only [enterTrap, hd, Bool.false_eq_true, if_false]
  exact ⟨hs.congr rfl rfl rfl rfl rfl, rfl, rfl, ⟨s.csr.mstatus, rfl⟩⟩

theorem enterTrap_delegated {s : Cpu c} (hs : SbiFixed s) (hd : s.trapDelegate = true) :
    SbiFixed (enterTrap s) ∧ (enterTrap s).mode = .supervisor ∧ (enterTrap s).trap = false := by
  simp only [enterTrap, hd, if_true]
  exact ⟨hs.congr rfl rfl rfl rfl rfl, trivial, trivial⟩

/-- The handler of each latched trap. -/
theorem sbiHandler_delegated {s : Cpu c} (hd : s.trapDelegate = true) : sbiHandler s = none := by
  simp [sbiHandler, enterTrap, hd]

theorem sbiHandler_timer {s : Cpu c} (hs : SbiFixed s) (hd : s.trapDelegate = false)
    (hc : s.trapCause = irqCauseWord .machineTmrInt) : sbiHandler s = some .interrupt := by
  have hne : (BitVec.ofNat c.xlen IrqCause.machineTmrInt.toNat)
      ≠ BitVec.ofNat _ TrapCause.callS.toNat := by
    intro h
    exact absurd (ofNat_small_inj (by decide) (by decide) h) (by decide)
  have hmode : (enterTrap s).mode = .machine := (enterTrap_inHandler hs hd).mode
  simp only [sbiHandler, hmode, hs.virtualSBI, hc, causeCode_irqCauseWord, causeIsIrq_irqCauseWord,
    if_neg hne, decide_true, Bool.and_self, if_true]

theorem sbiHandler_call {s : Cpu c} (hs : SbiFixed s) (hd : s.trapDelegate = false)
    (hc : s.trapCause = trapCauseWord .callS) : sbiHandler s = some .ecall := by
  have hmode : (enterTrap s).mode = .machine := (enterTrap_inHandler hs hd).mode
  simp only [sbiHandler, hmode, hs.virtualSBI, hc, causeCode_trapCauseWord, decide_true,
    Bool.and_self, if_true]

theorem guest_of_clear {s : Cpu c} (hs : SbiFixed s) (hl : LowMode s) (ht : s.trap = false) :
    Guest s :=
  ⟨hs, hl, fun h => by rw [ht] at h; cases h⟩

/-- **Trap entry under the built-in SBI ends in the guest, with no trap latched.** -/
theorem doTrap_guest {ran : Option (PrivMode × BitVec 32)} {m : Machine c}
    (h : Confined ran m.cpu) (ht : m.cpu.trap = true) :
    Guest (doTrap m).cpu ∧ (doTrap m).cpu.trap = false := by
  obtain hd | ⟨hd, hc⟩ | ⟨hd, hc, -⟩ := h.latched ht
  · obtain ⟨hfix, hmode, htrap⟩ := enterTrap_delegated h.fixed hd
    simp only [doTrap, sbiHandler_delegated hd]
    have hclear : (writePC (enterTrap m.cpu) ((trapVector m.cpu).setWidth _)).trap = false := by
      rw [writePC_trap, htrap]
    refine ⟨guest_of_clear (writePC_fixed hfix _) (Or.inr ?_) hclear, hclear⟩
    rw [writePC_mode, hmode]
  · simp only [doTrap, sbiHandler_timer h.fixed hd hc]
    obtain ⟨hfix, hmode, htrap⟩ :=
      mret_inHandler (sbiHandleInterrupt_inHandler (m := { m with cpu := enterTrap m.cpu })
        (enterTrap_inHandler h.fixed hd)) 0
    refine ⟨guest_of_clear hfix ?_ htrap, htrap⟩
    unfold LowMode
    rw [hmode]
    exact h.low
  · simp only [doTrap, sbiHandler_call h.fixed hd hc]
    obtain ⟨hfix, hmode, htrap⟩ :=
      mret_inHandler (sbiHandleEcall_inHandler (m := { m with cpu := enterTrap m.cpu })
        (enterTrap_inHandler h.fixed hd)) (-4)
    refine ⟨guest_of_clear hfix ?_ htrap, htrap⟩
    unfold LowMode
    rw [hmode]
    exact h.low

/-! ## One call of `rv_run` -/

theorem fetch_guest {m : Machine c} (h : Guest m.cpu) : Guest (fetch m).1.cpu := by
  have hf := fetch_fetches m
  generalize fetch m = r at hf ⊢
  cases hf with
  | misaligned _ => exact h.fault (by decide) (by decide) (by decide)
  | hit _ _ => exact h
  | fill _ _ hline =>
      have hg := (busRead_frame hline).cpu.guest h
      exact ⟨hg.fixed.congr rfl rfl rfl rfl rfl, hg.low, hg.latched⟩
  | word _ _ _ hword => exact (busRead_frame hword).cpu.guest h
  | fault _ _ _ _ => exact h.fault (by decide) (by decide) (by decide)

/-- Up to the instruction: what is latched when none is executed goes to S-mode or is the timer
interrupt, and an instruction is executed by the guest with nothing latched. -/
theorem rvFetch_confined {ran : Option (PrivMode × BitVec 32)} {m : Machine c}
    (h : Confined ran m.cpu) :
    ((rvFetch m).2 = none → Confined none (rvFetch m).1.cpu)
      ∧ ∀ w, (rvFetch m).2 = some w → Guest (rvFetch m).1.cpu ∧ (rvFetch m).1.cpu.trap = false := by
  -- what `_fetch` does from a state of the guest
  have hfetch : ∀ m1 : Machine c, Guest m1.cpu →
      let r := if (fetch m1).1.cpu.trap then ((fetch m1).1, none)
        else ((fetch m1).1, some (fetch m1).2)
      (r.2 = none → Confined none r.1.cpu)
        ∧ ∀ w, r.2 = some w → Guest r.1.cpu ∧ r.1.cpu.trap = false := by
    intro m1 h1
    have hg := fetch_guest h1
    by_cases ht : (fetch m1).1.cpu.trap = true
    · simp only [ht, if_true]
      exact ⟨fun _ => hg.confined none, fun w hw => by cases hw⟩
    · simp only [if_neg ht]
      exact ⟨fun hn => (by cases hn), fun w _ => ⟨hg, Bool.eq_false_iff.mpr ht⟩⟩
  unfold rvFetch
  have he := rvEnter_enters m
  generalize rvEnter m = r at he ⊢
  cases he with
  | trapped htrap =>
      simp only [Bool.false_eq_true, if_false]
      exact hfetch _ (doTrap_guest h htrap).1
  | searched hclear _ =>
      have hp := processPendingInterrupts_confined (h.guest hclear) hclear none
      by_cases hs : (processPendingInterrupts m.cpu).trap = true
      · simp only [hs, if_true]
        exact ⟨fun _ => hp, fun w hw => by cases hw⟩
      · simp only [if_neg hs]
        exact hfetch _ (hp.guest (Bool.eq_false_iff.mpr hs))
  | idle hclear _ =>
      simp only [Bool.false_eq_true, if_false]
      exact hfetch m (h.guest hclear)

/-- The instruction of a call of `rv_run`, with the mode it is executed in. -/
def executed (m : Machine c) : Option (PrivMode × BitVec 32) :=
  (rvFetch m).2.map fun w => ((rvFetch m).1.cpu.mode, w)

theorem rvRun_confined {ran : Option (PrivMode × BitVec 32)} {m : Machine c}
    (h : Confined ran m.cpu) : Confined (executed m) (rvRun m).cpu := by
  obtain ⟨hnone, hsome⟩ := rvFetch_confined h
  unfold executed rvRun
  cases hf : rvFetch m with
  | mk m1 o =>
      rw [hf] at hnone hsome
      cases o with
      | none => exact hnone rfl
      | some w =>
          obtain ⟨hg, ht⟩ := hsome w rfl
          show Confined (some (m1.cpu.mode, w)) (rvExec m1 w).cpu
          by_cases hw : isEcall w
          · rw [rvExec_ecall hw]
            obtain hm | hm := hg.low
            · rw [hm]
              exact (hg.fault (by decide) (by decide) (by decide)).confined _
            · rw [hm]
              refine ⟨hg.fixed.congr rfl rfl rfl rfl rfl, hg.low, fun _ => Or.inr (Or.inr ?_)⟩
              exact ⟨trapDelegation_callS hg.fixed, rfl, w, rfl, hw⟩
          · exact (rvExec_guest hw hg).confined _

/-! ## Runs -/

/-- The machine, with what the last call of `rv_run` executed. -/
structure Traced (c : Cfg) where
  m : Machine c
  ran : Option (PrivMode × BitVec 32)

/-- One event. -/
def tracedStep (t : Traced c) (e : Event) : Traced c :=
  ⟨stepEvent t.m e, match e with
    | .run => executed t.m
    | _ => t.ran⟩

theorem tracedStep_confined (t : Traced c) (e : Event) (h : Confined t.ran t.m.cpu) :
    Confined (tracedStep t e).ran (tracedStep t e).m.cpu := by
  cases e with
  | run => exact rvRun_confined h
  | tick cycles => exact (Aclint.updateMtimer_frame _ t.m.cpu).confined h
  | push ch => exact (ns16550Push_frame t.m ch).cpu.confined h
  | plicIrq n => exact (plicInterrupt_frame t.m.plic t.m.cpu n).confined h

/-- The machine as `main` starts it with the built-in SBI. -/
def sbiStart (bus : Bus c DevKind) (ram : Memory) (entryPoint : Addr c) (dtbAddress : Word c) :
    Machine c := vmStart bus ram false entryPoint dtbAddress

theorem sbiStart_confined (bus : Bus c DevKind) (ram : Memory) (entryPoint : Addr c)
    (dtbAddress : Word c) (ran : Option (PrivMode × BitVec 32)) :
    Confined ran (sbiStart bus ram entryPoint dtbAddress).cpu := by
  have htrap : (sbiStart bus ram entryPoint dtbAddress).cpu.trap = false := by
    simp [sbiStart, vmStart, sbiStartHart, rvReset, vmInit, rvInit, rvPokeRx, flushIcache, writePC]
  refine (guest_of_clear ?_ (Or.inr ?_) htrap).confined ran
  · constructor <;>
      simp [sbiStart, vmStart, sbiStartHart, rvReset, vmInit, rvInit, rvPokeRx, flushIcache,
        writePC]
  · simp [sbiStart, vmStart, sbiStartHart, rvReset, vmInit, rvInit, rvPokeRx, flushIcache, writePC]

/-- The handler that the next call of `rv_run` enters. -/
def entersHandler (s : Cpu c) : Option SbiHandler := if s.trap then sbiHandler s else none

/-- What holds in every state between two calls of `rv_run`, for a machine started in `start`. -/
structure SbiConfinement (start : Machine c) (t : Traced c) : Prop where
  mode : t.m.cpu.mode = .user ∨ t.m.cpu.mode = .supervisor
  medeleg : t.m.cpu.csr.medeleg = start.cpu.csr.medeleg
  mideleg : t.m.cpu.csr.mideleg = start.cpu.csr.mideleg
  mtvec : t.m.cpu.csr.mtvec = start.cpu.csr.mtvec
  mie : t.m.cpu.csr.mie &&& (IrqCause.machineSwInt.mask ||| IrqCause.machineExtInt.mask) = 0#_
  /-- The ECALL handler is entered for an exception that an ECALL executed in S-mode raised. -/
  ecall : entersHandler t.m.cpu = some .ecall →
    causeIsIrq t.m.cpu.trapCause = false ∧ ∃ w, t.ran = some (.supervisor, w) ∧ isEcall w
  /-- The interrupt handler is entered for the machine timer interrupt, and recognises it. -/
  interrupt : entersHandler t.m.cpu = some .interrupt →
    t.m.cpu.trapCause = irqCauseWord .machineTmrInt
      ∧ causeCode (enterTrap t.m.cpu).csr.mcause = BitVec.ofNat _ IrqCause.machineTmrInt.toNat
  exception : entersHandler t.m.cpu ≠ some .exception

theorem enterTrap_mcause {s : Cpu c} (hd : s.trapDelegate = false) :
    (enterTrap s).csr.mcause = s.trapCause := by
  simp [enterTrap, hd]

/-- The handlers of a confined hart. -/
theorem entersHandler_cases {ran : Option (PrivMode × BitVec 32)} {s : Cpu c}
    (h : Confined ran s) :
    entersHandler s = none
      ∨ (entersHandler s = some .interrupt ∧ s.trapDelegate = false
          ∧ s.trapCause = irqCauseWord .machineTmrInt)
      ∨ (entersHandler s = some .ecall ∧ s.trapCause = trapCauseWord .callS
          ∧ ∃ w, ran = some (.supervisor, w) ∧ isEcall w) := by
  unfold entersHandler
  by_cases ht : s.trap = true
  · rw [if_pos ht]
    obtain hd | ⟨hd, hc⟩ | ⟨hd, hc, hw⟩ := h.latched ht
    · exact Or.inl (sbiHandler_delegated hd)
    · exact Or.inr (Or.inl ⟨sbiHandler_timer h.fixed hd hc, hd, hc⟩)
    · exact Or.inr (Or.inr ⟨sbiHandler_call h.fixed hd hc, hc, hw⟩)
  · rw [if_neg ht]
    exact Or.inl rfl

theorem Confined.sbiConfinement {start : Machine c} {t : Traced c}
    (hstart : Confined none start.cpu) (h : Confined t.ran t.m.cpu) : SbiConfinement start t where
  mode := h.low
  medeleg := h.fixed.medeleg.trans hstart.fixed.medeleg.symm
  mideleg := h.fixed.mideleg.trans hstart.fixed.mideleg.symm
  mtvec := h.fixed.mtvec.trans hstart.fixed.mtvec.symm
  mie := by
    have h3 := (and_bit_eq_zero t.m.cpu.csr.mie _).mpr h.fixed.msie
    have h11 := (and_bit_eq_zero t.m.cpu.csr.mie _).mpr h.fixed.meie
    rw [BitVec.and_or_distrib_left]
    simp only [IrqCause.mask, h3, h11, BitVec.or_zero]
  ecall := by
    intro he
    obtain h0 | ⟨h0, -⟩ | ⟨-, hc, hw⟩ := entersHandler_cases h
    · rw [h0] at he
      cases he
    · rw [h0] at he
      cases he
    · exact ⟨by rw [hc, causeIsIrq_trapCauseWord], hw⟩
  interrupt := by
    intro he
    obtain h0 | ⟨-, hd, hc⟩ | ⟨h0, -⟩ := entersHandler_cases h
    · rw [h0] at he
      cases he
    · exact ⟨hc, by rw [enterTrap_mcause hd, hc, causeCode_irqCauseWord]⟩
    · rw [h0] at he
      cases he
  exception := by
    obtain h0 | ⟨h0, -⟩ | ⟨h0, -⟩ := entersHandler_cases h <;> rw [h0] <;> decide

/-- The machine is in the program's control, and the guest is confined. -/
structure Contained (start : Machine c) (t : Traced c) : Prop where
  inside : t.m.plic.oob = false
  confined : SbiConfinement start t

theorem sbiStart_plicSafe (bus : Bus c DevKind) (ram : Memory) (entryPoint : Addr c)
    (dtbAddress : Word c) : PlicSafe (sbiStart bus ram entryPoint dtbAddress) := .of_init rfl

/-- **Confinement.** Whatever the guest is and whatever happens around it, between two calls of
`rv_run` the guest is in U-mode or S-mode with its delegation untouched, and only an ECALL of S-mode
and the machine timer interrupt enter a handler, with the hart that the devices drive still the
one of the run: all of this exactly when no event of the run completes an id from 4 on. -/
theorem sbi_confinement_iff (bus : Bus c DevKind) (ram : Memory) (entryPoint : Addr c)
    (dtbAddress : Word c) (es : List Event) :
    let start := sbiStart bus ram entryPoint dtbAddress
    (∀ pre, pre <+: es → Contained start (Run.run tracedStep ⟨start, none⟩ pre)) ↔
      Run.Along tracedStep (fun t e => eventCompletes t.m e = false) ⟨start, none⟩ es := by
  intro start
  have hstart : Confined none start.cpu := sbiStart_confined bus ram entryPoint dtbAddress none
  have hsafe : PlicSafe start := sbiStart_plicSafe bus ram entryPoint dtbAddress
  have hcontained : ∀ t : Traced c, Confined t.ran t.m.cpu →
      (Contained start t ↔ t.m.plic.oob = false) :=
    fun t ht => ⟨Contained.inside, fun h => ⟨h, Confined.sbiConfinement hstart ht⟩⟩
  -- confinement holds along every run of the model, so the arrays alone decide
  refine Run.prefixes_iff_along
    (K := fun t : Traced c => Confined t.ran t.m.cpu ∧ t.m.plic.SmallClaims) ?_ ?_ es _
    ⟨hstart, hsafe.small⟩ ((hcontained _ hstart).mpr hsafe.inside)
  · rintro t e ⟨ht, hsmall⟩ -
    exact ⟨tracedStep_confined t e ht, (stepEvent_plic t.m e hsmall).2⟩
  · rintro t e ⟨ht, hsmall⟩ hI
    rw [hcontained _ (tracedStep_confined t e ht)]
    show (stepEvent t.m e).plic.oob = false ↔ _
    rw [(stepEvent_plic t.m e hsmall).1, hI.inside, Bool.false_or]

/-- A guest that lets the UART interrupt S-mode with priority 9, sets the threshold of its context
to 8, completes id 7 there and makes an SBI call. -/
def completionProgram : List (BitVec 32) :=
  [0x100002B7#32, 0x00100313#32, 0x006280A3#32, 0x0C0002B7#32, 0x00900313#32, 0x0062A223#32,
    0x0C0023B7#32, 0x00200313#32, 0x0863A023#32, 0x0C2013B7#32, 0x00800313#32, 0x0063A023#32,
    0x00700313#32, 0x0063A223#32, 0x00000073#32]

/-- A 64-bit machine of 1 MB with that guest. -/
def completionStart : Machine .rv64 :=
  sbiStart (mainBus .rv64 0x100000)
    ⟨fun i => getByte (completionProgram.getD (i / 4) 0#32) (i % 4)⟩ 0x80000000#64 0#64

/-- The guest up to the completion, with a character that arrives just before it. -/
def beforeCompletion : List Event := List.replicate 13 .run ++ [.push 0x61#8]

/-- The completion clears a bit past the arrays, in the pointer to the hart; the character that
arrives after the ECALL is notified through that pointer. -/
theorem completion_not_contained :
    ¬ ∀ pre, pre <+: beforeCompletion ++ [.run, .run, .push 0x62#8] →
      Contained completionStart (Run.run tracedStep ⟨completionStart, none⟩ pre) := by
  intro h
  have hinside := (h _ (List.prefix_refl _)).inside
  revert hinside
  decide +kernel

end RV640
