import RV640.Proofs.Confinement
import RV640.Proofs.TimerLatch

set_option autoImplicit false

/-! # Timer delivery through the built-in SBI

`set_timer` programs the comparator, the machine timer interrupt is taken by the emulator's handler,
which parks the comparator at `CPU_UINT_MAX` and passes the interrupt on. Under confinement the
latch of the ACLINT and MTIP agree, except between taking the interrupt and handling it. On RV32 the
parking place is 2³² - 1: an interrupt handled later than that leaves the latch set.
-/

namespace RV640

open Bits Relation

variable {c : Cfg}

/-- MTIE. -/
def mtie (s : Cpu c) : Bool := s.csr.mie.getLsbD IrqCause.machineTmrInt.toNat

/-- The machine timer interrupt has been taken and not yet handled. -/
def MtiLatched (s : Cpu c) : Prop :=
  s.trap = true ∧ s.trapDelegate = false ∧ s.trapCause = irqCauseWord .machineTmrInt

/-- MTIP and the latch agree. -/
def Synced (m : Machine c) : Prop := mtip m.cpu = m.aclint.pindingIrq

/-- MTIP and the latch agree unless the interrupt is on its way to the handler. -/
structure TimerSync (m : Machine c) : Prop where
  latched : mtip m.cpu = true → m.aclint.pindingIrq = true
  synced : ¬ MtiLatched m.cpu → Synced m

theorem Synced.timerSync {m : Machine c} (h : Synced m) : TimerSync m :=
  ⟨fun hm => h ▸ hm, fun _ => h⟩

theorem Synced.congr {m m' : Machine c} (h : Synced m) (hm : mtip m'.cpu = mtip m.cpu)
    (ha : m'.aclint = m.aclint) : Synced m' := by
  unfold Synced
  rw [hm, ha]
  exact h

theorem Guest.not_mtiLatched {s : Cpu c} (h : Guest s) : ¬ MtiLatched s := by
  rintro ⟨ht, hd, -⟩
  rw [h.latched ht] at hd
  cases hd

/-! ## Steps without a write to the ACLINT -/

/-- No write reached the ACLINT, or the count of writes tells. -/
def AclintFrame (m m' : Machine c) : Prop :=
  m.aclint.mmioWrites ≤ m'.aclint.mmioWrites ∧
    (m'.aclint.mmioWrites = m.aclint.mmioWrites →
      m'.aclint = m.aclint ∧ mtip m'.cpu = mtip m.cpu)

namespace AclintFrame

variable {m m' m'' : Machine c}

protected theorem of_eq (ha : m'.aclint = m.aclint) (hm : mtip m'.cpu = mtip m.cpu) :
    AclintFrame m m' := ⟨by rw [ha], fun _ => ⟨ha, hm⟩⟩

protected theorem refl (m : Machine c) : AclintFrame m m := AclintFrame.of_eq rfl rfl

protected theorem trans (h : AclintFrame m m') (h' : AclintFrame m' m'') : AclintFrame m m'' := by
  refine ⟨le_trans h.1 h'.1, ?_⟩
  intro heq
  have h1 := h.1
  have h2 := h'.1
  obtain ⟨ha', hm'⟩ := h'.2 (by omega)
  obtain ⟨ha, hm⟩ := h.2 (by omega)
  exact ⟨ha'.trans ha, hm'.trans hm⟩

end AclintFrame

theorem IoFrame.aclintFrame {m m' : Machine c} (h : IoFrame m m') : AclintFrame m m' :=
  AclintFrame.of_eq h.aclint (h.cpu.mtip (by decide))

theorem Aclint.writeByte_mmioWrites (self : Aclint) (addr : Nat) (b : Byte) :
    (self.writeByte addr b).mmioWrites = self.mmioWrites := by
  unfold Aclint.writeByte
  split
  · rfl
  · split
    · rfl
    · split <;> rfl

theorem Aclint.writeBytes_mmioWrites (self : Aclint) (addr : Nat) (bs : List Byte) :
    (self.writeBytes addr bs).mmioWrites = self.mmioWrites := by
  induction bs generalizing self addr with
  | nil => rfl
  | cons b bs ih => exact (ih _ _).trans (Aclint.writeByte_mmioWrites self addr b)

theorem Aclint.updateMtimer_mmioWrites (self : Aclint) (hart : Cpu c) :
    (self.updateMtimer hart).1.mmioWrites = self.mmioWrites := by
  rw [Aclint.updateMtimer_registers]

/-- A write to the ACLINT is counted. -/
theorem devWrite_aclintFrame (m : Machine c) (dev : DevKind) (addr : Nat) (buf : List Byte) :
    AclintFrame m (devWrite m dev addr buf) := by
  by_cases hdev : dev = .aclint
  · subst hdev
    have hn : (devWrite m .aclint addr buf).aclint.mmioWrites = m.aclint.mmioWrites + 1 := by
      show ((m.aclint.writeBytes addr buf).updateMtimer m.cpu).1.mmioWrites + 1 = _
      rw [Aclint.updateMtimer_mmioWrites, Aclint.writeBytes_mmioWrites]
    exact ⟨by omega, fun heq => by omega⟩
  · exact (devWrite_frame m hdev addr buf).aclintFrame

theorem readMem_aclintFrame (m : Machine c) (addr : Addr c) (size : Nat) :
    AclintFrame m (readMem m addr size).1 := by
  unfold readMem
  split
  · exact AclintFrame.refl m
  · split
    · rename_i hr
      exact (busRead_frame hr).aclintFrame
    · exact AclintFrame.of_eq rfl rfl

theorem writeMem_aclintFrame (m : Machine c) (addr : Addr c) (buf : List Byte) :
    AclintFrame m (writeMem m addr buf) := by
  unfold writeMem busWrite
  split
  · exact AclintFrame.refl m
  · cases findDevice m.bus addr buf.length with
    | none => exact AclintFrame.of_eq rfl rfl
    | some p =>
        have hbus : AclintFrame m { m with bus := busWriteInvalidate m.bus addr buf.length } :=
          AclintFrame.of_eq rfl rfl
        exact hbus.trans (devWrite_aclintFrame _ _ _ _)

theorem Micro.aclintFrame {w : BitVec 32} {m m' : Machine c} (h : Micro w m m')
    (hm : m.cpu.mode ≠ .machine) : AclintFrame m m' := by
  cases h with
  | cpu h => exact AclintFrame.of_eq rfl (h.mtip fun hw => hm hw.2)
  | readMem addr size => exact readMem_aclintFrame m addr size
  | writeMem addr buf => exact writeMem_aclintFrame m addr buf
  | reserve addr size => exact AclintFrame.of_eq rfl rfl
  | checkReserve addr size => exact AclintFrame.of_eq rfl rfl

theorem rvExec_aclintFrame (m : Machine c) (w : BitVec 32) (hm : m.cpu.mode ≠ .machine) :
    AclintFrame m (rvExec m w) :=
  Micros.keeps_below (I := AclintFrame m) (rvExec_micros m w) hm
    (fun _ _ hab ha hI => hI.trans (hab.aclintFrame ha)) (AclintFrame.refl m)

theorem fetch_aclintFrame (m : Machine c) : AclintFrame m (fetch m).1 := by
  have hf := fetch_fetches m
  generalize fetch m = r at hf ⊢
  cases hf with
  | misaligned _ => exact AclintFrame.of_eq rfl rfl
  | hit _ _ => exact AclintFrame.refl m
  | fill _ _ hline => exact (busRead_frame hline).aclintFrame.trans (AclintFrame.of_eq rfl rfl)
  | word _ _ _ hword => exact (busRead_frame hword).aclintFrame
  | fault _ _ _ _ => exact AclintFrame.of_eq rfl rfl

/-! ## A call of `rv_run`, after its first part -/

/-- The instruction that follows leaves the timer alone, and latches no timer interrupt. -/
theorem rvRun_after_enter {m : Machine c}
    (hg : (rvEnter m).2 = false → Guest (rvEnter m).1.cpu) :
    AclintFrame (rvEnter m).1 (rvRun m)
      ∧ (MtiLatched (rvRun m).cpu ↔ MtiLatched (rvEnter m).1.cpu) := by
  unfold rvRun rvFetch
  cases hs : rvEnter m with
  | mk m1 stop =>
      rw [hs] at hg
      cases stop with
      | true => exact ⟨AclintFrame.refl _, Iff.rfl⟩
      | false =>
          have h1 : Guest m1.cpu := hg rfl
          have hfetch := fetch_aclintFrame m1
          have h2 := fetch_guest h1
          simp only [Bool.false_eq_true, if_false]
          by_cases ht : (fetch m1).1.cpu.trap = true
          · simp only [ht, if_true]
            exact ⟨hfetch, iff_of_false h2.not_mtiLatched h1.not_mtiLatched⟩
          · simp only [if_neg ht]
            refine ⟨hfetch.trans (rvExec_aclintFrame _ _ h2.low.ne_machine), ?_⟩
            refine iff_of_false ?_ h1.not_mtiLatched
            by_cases hw : isEcall (fetch m1).2
            · rw [rvExec_ecall hw]
              exact fun hl => absurd hl.2.2 (trapCauseWord_ne_irqCauseWord _ _)
            · exact (rvExec_guest hw h2).not_mtiLatched

/-! ## The handlers -/

theorem sbiHandleEcall_other {m : Machine c}
    (h : m.cpu.regs regA7 ≠ sbiEidTimer ∨ m.cpu.regs regA6 ≠ 0#_) :
    (sbiHandleEcall m).aclint = m.aclint ∧ mtip (sbiHandleEcall m).cpu = mtip m.cpu := by
  have hd : (sbiDispatch m (m.cpu.regs regA7) (m.cpu.regs regA6)).1.aclint = m.aclint
      ∧ mtip (sbiDispatch m (m.cpu.regs regA7) (m.cpu.regs regA6)).1.cpu = mtip m.cpu := by
    unfold sbiDispatch
    split
    · exact ⟨rfl, rfl⟩
    · split
      · rename_i htimer
        have hfid : (m.cpu.regs regA6).toNat ≠ 0 := by
          intro h0
          exact h.resolve_left (not_not.mpr htimer) (BitVec.eq_of_toNat_eq (by simpa using h0))
        unfold handleTimerExt
        split
        · rename_i h0
          exact absurd h0 hfid
        · exact ⟨rfl, rfl⟩
      · split
        · unfold handleDbgConExt
          split
          · have hf := dbgConWrite_frame m (m.cpu.regs regA1) (m.cpu.regs regA0).toNat
            exact ⟨hf.aclint, hf.cpu.mtip (by decide)⟩
          · exact ⟨rfl, rfl⟩
        · exact ⟨rfl, rfl⟩
  exact hd

theorem sbiEidTimer_ne_base : (sbiEidTimer : Word c) ≠ sbiEidBase := by cases c <;> decide

/-- `set_timer` programs the comparator and MTIE. -/
theorem sbiHandleEcall_setTimer {m : Machine c} (h7 : m.cpu.regs regA7 = sbiEidTimer)
    (h6 : m.cpu.regs regA6 = 0#_) :
    (sbiHandleEcall m).aclint = (setMtimecmp m (setTimerArg m.cpu)).aclint
      ∧ mtip (sbiHandleEcall m).cpu = mtip (setMtimecmp m (setTimerArg m.cpu)).cpu
      ∧ (setTimerArg m.cpu ≠ ~~~1#64 → mtie (sbiHandleEcall m).cpu = true) := by
  have hx := c.xlen_ge
  have h7x : (7 : Nat) < c.xlen := by omega
  unfold sbiHandleEcall sbiDispatch
  simp only [h7, h6, if_neg sbiEidTimer_ne_base, if_true, handleTimerExt, BitVec.toNat_ofNat,
    Nat.zero_mod]
  refine ⟨trivial, rfl, ?_⟩
  intro hne
  rw [if_neg hne]
  simp [mtie, rvPokeRx, pokeMie, IrqCause.mask, IrqCause.toNat, h7x]

/-- `sbi_handleInterrupt`, when it is given the machine timer interrupt. -/
theorem sbiHandleInterrupt_timer {m : Machine c}
    (h : m.cpu.csr.mcause = irqCauseWord .machineTmrInt) :
    (sbiHandleInterrupt m).aclint = (setMtimecmp m ((cpuUintMax : Word c).setWidth 64)).aclint
      ∧ mtip (sbiHandleInterrupt m).cpu
        = mtip (setMtimecmp m ((cpuUintMax : Word c).setWidth 64)).cpu := by
  have hcode : m.cpu.csr.mcause &&& ~~~cpuSignBit
      = BitVec.ofNat _ IrqCause.machineTmrInt.toNat := by
    rw [h]
    exact causeCode_irqCauseWord _
  simp only [sbiHandleInterrupt, if_pos hcode]
  exact ⟨trivial, (rvSetInterrupt_frame _ .supervisorTmrInt).mtip (by decide)⟩

theorem enterTrap_regs (s : Cpu c) : (enterTrap s).regs = s.regs := by
  unfold enterTrap
  split <;> rfl

/-- The state the handlers of `_doTrap` are called in. -/
def entered (m : Machine c) : Machine c := { m with cpu := enterTrap m.cpu }

theorem doTrap_ecall {m : Machine c} (h : sbiHandler m.cpu = some .ecall) :
    (doTrap m).aclint = (sbiHandleEcall (entered m)).aclint
      ∧ mtip (doTrap m).cpu = mtip (sbiHandleEcall (entered m)).cpu
      ∧ mtie (doTrap m).cpu = mtie (sbiHandleEcall (entered m)).cpu := by
  simp only [doTrap, h]
  refine ⟨rfl, xret_mtip _ _ _, ?_⟩
  unfold mtie
  rw [xret_rest]
  rfl

theorem doTrap_interrupt {m : Machine c} (h : sbiHandler m.cpu = some .interrupt) :
    (doTrap m).aclint = (sbiHandleInterrupt (entered m)).aclint
      ∧ mtip (doTrap m).cpu = mtip (sbiHandleInterrupt (entered m)).cpu := by
  simp only [doTrap, h]
  exact ⟨rfl, xret_mtip _ _ _⟩

theorem doTrap_none {m : Machine c} (h : sbiHandler m.cpu = none) :
    (doTrap m).aclint = m.aclint ∧ mtip (doTrap m).cpu = mtip m.cpu := by
  have hpc : ∀ (s : Cpu c) (d : Addr c), mtip (writePC s d) = mtip s := by
    intro s d
    unfold writePC
    split <;> rfl
  simp only [doTrap, h]
  exact ⟨trivial, (hpc _ _).trans (enterTrap_mtip m.cpu)⟩

/-! ## Programming the comparator -/

/-- From a synced state `_updateMtimer` leaves latch and MTIP telling whether the deadline has
passed. -/
theorem Aclint.updateMtimer_synced (self : Aclint) (hart : Cpu c)
    (h : mtip hart = self.pindingIrq) :
    (self.updateMtimer hart).1
        = { self with pindingIrq := decide (self.mtimecmp ≤ self.mtime) }
      ∧ mtip (self.updateMtimer hart).2 = decide (self.mtimecmp ≤ self.mtime) := by
  refine ⟨self.updateMtimer_registers hart, ?_⟩
  rw [self.updateMtimer_mtip hart, h]
  by_cases hle : self.mtimecmp ≤ self.mtime
  · rw [if_pos hle, decide_eq_true hle, Bool.not_or_self]
  · rw [if_neg hle, decide_eq_false hle, Bool.not_and_self]

/-- A deadline that has not passed clears latch and MTIP, whatever they were. -/
theorem Aclint.updateMtimer_future (self : Aclint) (hart : Cpu c)
    (h : mtip hart = true → self.pindingIrq = true) (hlt : ¬ self.mtimecmp ≤ self.mtime) :
    (self.updateMtimer hart).1 = { self with pindingIrq := false }
      ∧ mtip (self.updateMtimer hart).2 = false := by
  have hreg := self.updateMtimer_registers hart
  rw [decide_eq_false hlt] at hreg
  refine ⟨hreg, ?_⟩
  rw [self.updateMtimer_mtip hart, if_neg hlt]
  cases hm : mtip hart with
  | false => rw [Bool.and_false]
  | true =>
      rw [h hm]
      rfl

theorem setMtimecmp_synced {m : Machine c} (h : Synced m) (val : BitVec 64) :
    (setMtimecmp m val).aclint
        = { m.aclint with mtimecmp := val, pindingIrq := decide (val ≤ m.aclint.mtime) }
      ∧ mtip (setMtimecmp m val).cpu = decide (val ≤ m.aclint.mtime) :=
  Aclint.updateMtimer_synced { m.aclint with mtimecmp := val } _ h

/-- Where `sbi_handleInterrupt` parks the comparator. -/
def parkedTime (c : Cfg) : BitVec 64 := (cpuUintMax : Word c).setWidth 64

theorem parkedTime_le_iff (t : BitVec 64) : parkedTime c ≤ t ↔ 2 ^ c.xlen - 1 ≤ t.toNat := by
  have hp : (parkedTime c).toNat = 2 ^ c.xlen - 1 := by cases c <;> decide
  rw [BitVec.le_def, hp]

/-! ## Entering the handlers -/

/-- The deadline of the `set_timer` call the next call of `rv_run` handles. -/
def setTimerCall (m : Machine c) : Option (BitVec 64) :=
  if entersHandler m.cpu = some .ecall ∧ m.cpu.regs regA7 = sbiEidTimer
      ∧ m.cpu.regs regA6 = 0#_ then
    some (setTimerArg m.cpu)
  else none

theorem sbiHandler_of_enters {s : Cpu c} {hd : SbiHandler} (h : entersHandler s = some hd) :
    s.trap = true ∧ sbiHandler s = some hd := by
  unfold entersHandler at h
  split at h
  · rename_i ht
    exact ⟨ht, h⟩
  · cases h

/-- A `set_timer` call programs its deadline. -/
theorem doTrap_setTimer {m : Machine c} (h : Synced m) {t : BitVec 64}
    (ht : setTimerCall m = some t) :
    (doTrap m).aclint
        = { m.aclint with mtimecmp := t, pindingIrq := decide (t ≤ m.aclint.mtime) }
      ∧ mtip (doTrap m).cpu = decide (t ≤ m.aclint.mtime)
      ∧ (t ≠ ~~~1#64 → mtie (doTrap m).cpu = true) := by
  unfold setTimerCall at ht
  split at ht
  · rename_i hcall
    obtain ⟨henter, h7, h6⟩ := hcall
    obtain rfl := Option.some.inj ht
    obtain ⟨ha, hm, hie⟩ := doTrap_ecall (sbiHandler_of_enters henter).2
    have hregs : (entered m).cpu.regs = m.cpu.regs := enterTrap_regs m.cpu
    have harg : setTimerArg (entered m).cpu = setTimerArg m.cpu := by
      simp only [setTimerArg, hregs]
    obtain ⟨ha', hm', hie'⟩ :=
      sbiHandleEcall_setTimer (m := entered m) (by rw [hregs, h7]) (by rw [hregs, h6])
    have hsync : Synced (entered m) := Synced.congr h (enterTrap_mtip m.cpu) rfl
    obtain ⟨ha'', hm''⟩ := setMtimecmp_synced hsync (setTimerArg (entered m).cpu)
    rw [harg] at ha' hm' hie' ha'' hm''
    exact ⟨ha.trans (ha'.trans ha''), hm.trans (hm'.trans hm''),
      fun hne => hie.trans (hie' hne)⟩
  · cases ht

/-- Any other call leaves the timer alone. -/
theorem doTrap_otherCall {m : Machine c} (h : entersHandler m.cpu = some .ecall)
    (hn : setTimerCall m = none) :
    (doTrap m).aclint = m.aclint ∧ mtip (doTrap m).cpu = mtip m.cpu := by
  have hregs : (entered m).cpu.regs = m.cpu.regs := enterTrap_regs m.cpu
  have hother : (entered m).cpu.regs regA7 ≠ sbiEidTimer ∨ (entered m).cpu.regs regA6 ≠ 0#_ := by
    rw [hregs, ← not_and_or]
    rintro ⟨h7, h6⟩
    rw [setTimerCall, if_pos ⟨h, h7, h6⟩] at hn
    cases hn
  obtain ⟨ha, hm, -⟩ := doTrap_ecall (sbiHandler_of_enters h).2
  obtain ⟨ha', hm'⟩ := sbiHandleEcall_other hother
  exact ⟨ha.trans ha', hm.trans (hm'.trans (enterTrap_mtip m.cpu))⟩

/-- The machine timer interrupt parks the comparator. -/
theorem doTrap_parks {m : Machine c} (h : MtiLatched m.cpu)
    (hi : entersHandler m.cpu = some .interrupt) :
    (doTrap m).aclint
        = { m.aclint with
            mtimecmp := parkedTime c, pindingIrq := decide (parkedTime c ≤ m.aclint.mtime) }
      ∧ mtip (doTrap m).cpu = mtip (setMtimecmp (entered m) (parkedTime c)).cpu := by
  obtain ⟨ha, hm⟩ := doTrap_interrupt (sbiHandler_of_enters hi).2
  have hcause : (entered m).cpu.csr.mcause = irqCauseWord .machineTmrInt := by
    rw [← h.2.2]
    exact enterTrap_mcause h.2.1
  obtain ⟨ha', hm'⟩ := sbiHandleInterrupt_timer hcause
  exact ⟨ha.trans (ha'.trans (Aclint.updateMtimer_registers _ _)), hm.trans hm'⟩

/-- Parked in time, latch and MTIP are clear. -/
theorem doTrap_parked {m : Machine c} (h : MtiLatched m.cpu) (hl : TimerLatched m)
    (hi : entersHandler m.cpu = some .interrupt) (hlt : m.aclint.mtime.toNat < 2 ^ c.xlen - 1) :
    (doTrap m).aclint.pindingIrq = false ∧ mtip (doTrap m).cpu = false := by
  have hnle : ¬ parkedTime c ≤ m.aclint.mtime := by
    rw [parkedTime_le_iff]
    omega
  obtain ⟨ha, hm⟩ := doTrap_parks h hi
  have hlatched : mtip (entered m).cpu = true → m.aclint.pindingIrq = true := by
    intro hmt
    exact hl ((enterTrap_mtip m.cpu).symm.trans hmt)
  have hfut := Aclint.updateMtimer_future { m.aclint with mtimecmp := parkedTime c }
    (entered m).cpu hlatched hnle
  refine ⟨?_, hm.trans hfut.2⟩
  rw [ha]
  exact decide_eq_false hnle

theorem entersHandler_mtiLatched {ran : Option (PrivMode × BitVec 32)} {m : Machine c}
    (h : Confined ran m.cpu) (hi : entersHandler m.cpu = some .interrupt) :
    MtiLatched m.cpu := by
  obtain hn | ⟨-, hd, hc⟩ | ⟨he, -⟩ := entersHandler_cases h
  · rw [hi] at hn
    cases hn
  · exact ⟨(sbiHandler_of_enters hi).1, hd, hc⟩
  · rw [hi] at he
    cases he

theorem not_mtiLatched_of_ne {ran : Option (PrivMode × BitVec 32)} {m : Machine c}
    (h : Confined ran m.cpu) (hi : entersHandler m.cpu ≠ some .interrupt) :
    ¬ MtiLatched m.cpu := by
  rintro ⟨ht, hd, hc⟩
  apply hi
  rw [entersHandler, if_pos ht]
  exact sbiHandler_timer h.fixed hd hc

/-! ## The first part of a call of `rv_run` -/

theorem rvEnter_guest {ran : Option (PrivMode × BitVec 32)} {m : Machine c}
    (h : Confined ran m.cpu) (hs : (rvEnter m).2 = false) : Guest (rvEnter m).1.cpu := by
  have he := rvEnter_enters m
  generalize rvEnter m = r at he hs ⊢
  cases he with
  | trapped htrap => exact (doTrap_guest h htrap).1
  | searched hclear _ =>
      exact (processPendingInterrupts_confined (h.guest hclear) hclear none).guest hs
  | idle hclear _ => exact h.guest hclear

theorem interrupt_mtip_self (s : Cpu c) (delegate : Bool) :
    mtip (interrupt s .machineTmrInt delegate) = false := by
  simp [mtip, interrupt, rvClearInterrupt, IrqCause.mask, IrqCause.toNat]

theorem interrupt_mtip_ne (s : Cpu c) {i : IrqCause} (hi : i ≠ .machineTmrInt)
    (delegate : Bool) : mtip (interrupt s i delegate) = mtip s := by
  have hni : IrqCause.machineTmrInt ∉ [i] := by
    rw [List.mem_singleton]
    exact hi.symm
  exact (rvClearInterrupt_frame _ i).mtip hni

/-- Without a handler to enter, the timer is left alone, or its interrupt is taken. -/
theorem rvEnter_quiet {ran : Option (PrivMode × BitVec 32)} {m : Machine c}
    (h : Confined ran m.cpu) (hn : entersHandler m.cpu = none) :
    (rvEnter m).1.aclint = m.aclint
      ∧ ((mtip (rvEnter m).1.cpu = mtip m.cpu ∧ ¬ MtiLatched (rvEnter m).1.cpu)
        ∨ (mtip m.cpu = true ∧ mtip (rvEnter m).1.cpu = false
          ∧ MtiLatched (rvEnter m).1.cpu)) := by
  unfold entersHandler at hn
  have he := rvEnter_enters m
  generalize rvEnter m = r at he ⊢
  cases he with
  | trapped htrap =>
      rw [if_pos htrap] at hn
      obtain ⟨ha, hm⟩ := doTrap_none hn
      exact ⟨ha, Or.inl ⟨hm, (doTrap_guest h htrap).1.not_mtiLatched⟩⟩
  | searched hclear _ =>
      refine ⟨rfl, ?_⟩
      show (mtip (processPendingInterrupts m.cpu) = _
          ∧ ¬ MtiLatched (processPendingInterrupts m.cpu))
        ∨ (_ ∧ mtip (processPendingInterrupts m.cpu) = false
          ∧ MtiLatched (processPendingInterrupts m.cpu))
      rw [processPendingInterrupts_eq hclear]
      obtain he | ⟨he, hp⟩ | ⟨i, hmem, he⟩ := codeSelect_of_fixed h.fixed h.low
      · -- nothing to take
        rw [he]
        exact Or.inl ⟨rfl, (h.guest hclear).not_mtiLatched⟩
      · -- the timer interrupt, for M-mode
        rw [he]
        refine Or.inr ⟨?_, interrupt_mtip_self m.cpu false, rfl, rfl, rfl⟩
        rw [irqPending, BitVec.getLsbD_and, Bool.and_eq_true] at hp
        exact hp.1
      · -- a delegated one
        rw [he]
        refine Or.inl ⟨interrupt_mtip_ne m.cpu ?_ true, ?_⟩
        · rintro rfl
          exact absurd hmem (by decide)
        · rintro ⟨-, hd, -⟩
          cases hd
  | idle hclear _ => exact ⟨rfl, Or.inl ⟨rfl, (h.guest hclear).not_mtiLatched⟩⟩

theorem rvEnter_handler {m : Machine c} {hd : SbiHandler} (h : entersHandler m.cpu = some hd) :
    rvEnter m = (doTrap m, false) := by
  rw [rvEnter, if_pos (sbiHandler_of_enters h).1]

/-- Up to the instruction, a call of `rv_run` keeps the agreement of latch and MTIP, when the
interrupt is handled in time. -/
theorem rvEnter_timerSync {ran : Option (PrivMode × BitVec 32)} {m : Machine c}
    (h : Confined ran m.cpu) (hs : TimerSync m)
    (hlt : entersHandler m.cpu = some .interrupt → m.aclint.mtime.toNat < 2 ^ c.xlen - 1) :
    TimerSync (rvEnter m).1 ∧ (rvEnter m).1.aclint.mmioWrites = m.aclint.mmioWrites := by
  obtain hn | ⟨hi, -⟩ | ⟨he, -⟩ := entersHandler_cases h
  · obtain ⟨ha, hquiet⟩ := rvEnter_quiet h hn
    refine ⟨?_, by rw [ha]⟩
    have hsync : Synced m := hs.synced (not_mtiLatched_of_ne h (by rw [hn]; decide))
    obtain ⟨hm, -⟩ | ⟨-, hm, hl⟩ := hquiet
    · exact (hsync.congr hm ha).timerSync
    · exact ⟨fun hmt => (by rw [hm] at hmt; cases hmt), fun hnl => absurd hl hnl⟩
  · have hl := entersHandler_mtiLatched h hi
    rw [rvEnter_handler hi]
    obtain ⟨hp, hm⟩ := doTrap_parked hl hs.latched hi (hlt hi)
    refine ⟨Synced.timerSync (hm.trans hp.symm), ?_⟩
    rw [(doTrap_parks hl hi).1]
  · have hsync : Synced m := hs.synced (not_mtiLatched_of_ne h (by rw [he]; decide))
    rw [rvEnter_handler he]
    cases hcall : setTimerCall m with
    | none =>
        obtain ⟨ha, hm⟩ := doTrap_otherCall he hcall
        exact ⟨(hsync.congr hm ha).timerSync, by rw [ha]⟩
    | some t =>
        obtain ⟨ha, hm, -⟩ := doTrap_setTimer hsync hcall
        refine ⟨Synced.timerSync ?_, by rw [ha]⟩
        show mtip (doTrap m).cpu = (doTrap m).aclint.pindingIrq
        rw [hm, ha]

/-! ## Events -/

/-- No write of the event reaches the ACLINT. -/
def NoMmio (m : Machine c) (e : Event) : Prop :=
  (stepEvent m e).aclint.mmioWrites = m.aclint.mmioWrites

/-- A machine timer interrupt is handled before `mtime` reaches the parking place. -/
def HandledInTime (m : Machine c) : Event → Prop
  | .run => entersHandler m.cpu = some .interrupt → m.aclint.mtime.toNat < 2 ^ c.xlen - 1
  | _ => True

instance (m : Machine c) (e : Event) : Decidable (NoMmio m e) := by
  unfold NoMmio
  infer_instance

instance (m : Machine c) : (e : Event) → Decidable (HandledInTime m e)
  | .run => inferInstanceAs (Decidable (_ → _))
  | .tick _ => isTrue trivial
  | .push _ => isTrue trivial
  | .plicIrq _ => isTrue trivial

/-- The state of the timer between two calls of `rv_run`. -/
structure TimerInv (m : Machine c) : Prop where
  confined : ∃ ran, Confined ran m.cpu
  sync : TimerSync m

theorem IrqFrame.mtiLatched_iff {S : List IrqCause} {s s' : Cpu c} (h : IrqFrame S s s') :
    MtiLatched s' ↔ MtiLatched s := by
  unfold MtiLatched
  rw [h.trap, h.trapDelegate, h.trapCause]

theorem TimerSync.congr {m m' : Machine c} (h : TimerSync m) (hm : mtip m'.cpu = mtip m.cpu)
    (ha : m'.aclint = m.aclint) (hl : MtiLatched m'.cpu ↔ MtiLatched m.cpu) : TimerSync m' where
  latched := by
    rw [hm, ha]
    exact h.latched
  synced := by
    rw [hl]
    exact fun hn => (h.synced hn).congr hm ha

/-- A call of `rv_run` without a write to the ACLINT leaves the timer as its first part does. -/
theorem rvRun_timer {ran : Option (PrivMode × BitVec 32)} {m : Machine c}
    (h : Confined ran m.cpu) (hw : NoMmio m .run)
    (henter : (rvEnter m).1.aclint.mmioWrites = m.aclint.mmioWrites) :
    (rvRun m).aclint = (rvEnter m).1.aclint
      ∧ mtip (rvRun m).cpu = mtip (rvEnter m).1.cpu
      ∧ (MtiLatched (rvRun m).cpu ↔ MtiLatched (rvEnter m).1.cpu) := by
  obtain ⟨hframe, hl⟩ := rvRun_after_enter (rvEnter_guest h)
  have hw' : (rvRun m).aclint.mmioWrites = m.aclint.mmioWrites := hw
  obtain ⟨ha, hm⟩ := hframe.2 (hw'.trans henter.symm)
  exact ⟨ha, hm, hl⟩

theorem stepEvent_confined {m : Machine c} (h : ∃ ran, Confined ran m.cpu) (e : Event) :
    ∃ ran, Confined ran (stepEvent m e).cpu := by
  obtain ⟨ran, hc⟩ := h
  exact ⟨_, tracedStep_confined ⟨m, ran⟩ e hc⟩

/-- Every event keeps the invariant. -/
theorem stepEvent_timerInv {m : Machine c} (h : TimerInv m) {e : Event} (hw : NoMmio m e)
    (hlt : HandledInTime m e) : TimerInv (stepEvent m e) := by
  refine ⟨stepEvent_confined h.confined e, ?_⟩
  cases e with
  | run =>
      obtain ⟨ran, hc⟩ := h.confined
      obtain ⟨hs, henter⟩ := rvEnter_timerSync hc h.sync hlt
      obtain ⟨ha, hm, hl⟩ := rvRun_timer hc hw henter
      exact hs.congr hm ha hl
  | tick cycles =>
      have hl := (Aclint.updateMtimer_frame
        { m.aclint with mtime := m.aclint.mtime + cycles.setWidth 64 } m.cpu).mtiLatched_iff
      refine ⟨Aclint.updateMtimer_latched _ m.cpu h.sync.latched, fun hn => ?_⟩
      have hsync : Synced m := h.sync.synced fun hm => hn (hl.mpr hm)
      obtain ⟨ha, hm⟩ := Aclint.updateMtimer_synced
        { m.aclint with mtime := m.aclint.mtime + cycles.setWidth 64 } _ hsync
      refine Eq.trans hm ?_
      exact (congrArg Aclint.pindingIrq ha).symm
  | push ch =>
      have hf := ns16550Push_frame m ch
      exact h.sync.congr (hf.cpu.mtip (by decide)) hf.aclint hf.cpu.mtiLatched_iff
  | plicIrq n =>
      have hf := plicInterrupt_frame m.plic m.cpu n
      exact h.sync.congr (hf.mtip (by decide)) rfl hf.mtiLatched_iff

/-! ## Waiting for a deadline -/

/-- The deadline `t` is programmed and has not passed. -/
structure Armed (t : BitVec 64) (m : Machine c) : Prop where
  mtimecmp : m.aclint.mtimecmp = t
  latch : m.aclint.pindingIrq = false
  mtip : mtip m.cpu = false
  notLatched : ¬ MtiLatched m.cpu

theorem Armed.congr {t : BitVec 64} {m m' : Machine c} (h : Armed t m)
    (hm : RV640.mtip m'.cpu = RV640.mtip m.cpu) (ha : m'.aclint = m.aclint)
    (hl : MtiLatched m'.cpu ↔ MtiLatched m.cpu) : Armed t m' where
  mtimecmp := by rw [ha, h.mtimecmp]
  latch := by rw [ha, h.latch]
  mtip := by rw [hm, h.mtip]
  notLatched := by
    rw [hl]
    exact h.notLatched

/-- A tick tells whether the deadline has passed. -/
theorem Armed.tick {t : BitVec 64} {m : Machine c} (h : Armed t m) (cycles : BitVec 32) :
    (stepEvent m (.tick cycles)).aclint.mtimecmp = t
      ∧ (stepEvent m (.tick cycles)).aclint.pindingIrq
        = decide (t ≤ (stepEvent m (.tick cycles)).aclint.mtime)
      ∧ RV640.mtip (stepEvent m (.tick cycles)).cpu
        = decide (t ≤ (stepEvent m (.tick cycles)).aclint.mtime) := by
  have hsync : RV640.mtip m.cpu = m.aclint.pindingIrq := h.mtip.trans h.latch.symm
  obtain ⟨ha, hm⟩ := Aclint.updateMtimer_synced
    { m.aclint with mtime := m.aclint.mtime + cycles.setWidth 64 } _ hsync
  have ha' : (stepEvent m (.tick cycles)).aclint = _ := ha
  have hm' : RV640.mtip (stepEvent m (.tick cycles)).cpu = _ := hm
  rw [ha', hm']
  exact ⟨h.mtimecmp, by rw [← h.mtimecmp], by rw [← h.mtimecmp]⟩

/-- Until it passes, or another deadline is set, it stays programmed. -/
theorem Armed.step {t : BitVec 64} {m : Machine c} (h : Armed t m)
    (hc : ∃ ran, Confined ran m.cpu) {e : Event} (hw : NoMmio m e)
    (hcall : e = .run → setTimerCall m = none) (hlt : (stepEvent m e).aclint.mtime < t) :
    Armed t (stepEvent m e) := by
  cases e with
  | run =>
      obtain ⟨ran, hc⟩ := hc
      have henter : Armed t (rvEnter m).1
          ∧ (rvEnter m).1.aclint.mmioWrites = m.aclint.mmioWrites := by
        obtain hn | ⟨hi, -⟩ | ⟨he, -⟩ := entersHandler_cases hc
        · obtain ⟨ha, ⟨hm, hl⟩ | ⟨hm, -⟩⟩ := rvEnter_quiet hc hn
          · exact ⟨h.congr hm ha (iff_of_false hl h.notLatched), by rw [ha]⟩
          · rw [h.mtip] at hm
            cases hm
        · exact absurd (entersHandler_mtiLatched hc hi) h.notLatched
        · obtain ⟨ha, hm⟩ := doTrap_otherCall he (hcall rfl)
          have hg := (doTrap_guest hc (sbiHandler_of_enters he).1).1
          rw [rvEnter_handler he]
          exact ⟨h.congr hm ha (iff_of_false hg.not_mtiLatched h.notLatched), by rw [ha]⟩
      obtain ⟨ha, hm, hl⟩ := rvRun_timer hc hw henter.2
      exact henter.1.congr hm ha hl
  | tick cycles =>
      obtain ⟨ht, hp, hm⟩ := h.tick cycles
      rw [decide_eq_false (BitVec.not_le.mpr hlt)] at hp hm
      refine ⟨ht, hp, hm, ?_⟩
      have hl := (Aclint.updateMtimer_frame
        { m.aclint with mtime := m.aclint.mtime + cycles.setWidth 64 } m.cpu).mtiLatched_iff
      exact fun hml => h.notLatched (hl.mp hml)
  | push ch =>
      have hf := ns16550Push_frame m ch
      exact h.congr (hf.cpu.mtip (by decide)) hf.aclint hf.cpu.mtiLatched_iff
  | plicIrq n =>
      have hf := plicInterrupt_frame m.plic m.cpu n
      exact h.congr (hf.mtip (by decide)) rfl hf.mtiLatched_iff

/-! ## Timer delivery -/

/-- An event before the deadline `t`, other than a call that sets another one. -/
def Before (t : BitVec 64) (m : Machine c) (e : Event) : Prop :=
  NoMmio m e ∧ (e = .run → setTimerCall m = none) ∧ (stepEvent m e).aclint.mtime < t

/-- What the SBI promises about the timer, in a state between two calls of `rv_run`. The deadlines
`~~~0` and `~~~1` cancel. -/
structure TimerDelivery (m : Machine c) : Prop where
  /-- A deadline that has passed is delivered by the call that sets it. -/
  passed : ∀ t, setTimerCall m = some t → t ≠ ~~~0#64 → t ≠ ~~~1#64 → t ≤ m.aclint.mtime →
    mtip (doTrap m).cpu = true ∧ mtie (doTrap m).cpu = true
  /-- A deadline to come is delivered by the first tick that reaches it. -/
  awaited : ∀ t, setTimerCall m = some t → t ≠ ~~~0#64 → t ≠ ~~~1#64 → m.aclint.mtime < t →
    mtip (doTrap m).cpu = false ∧
      (NoMmio m .run → ∀ es, Run.Along stepEvent (Before t) (rvRun m) es →
        mtip (Run.run stepEvent (rvRun m) es).cpu = false ∧
          ∀ cycles, let m' := stepEvent (Run.run stepEvent (rvRun m) es) (.tick cycles)
            t ≤ m'.aclint.mtime → mtip m'.cpu = true)
  /-- A handled interrupt leaves the comparator ahead of the time. -/
  parked : entersHandler m.cpu = some .interrupt → m.aclint.mtime < ~~~0#64 →
    (doTrap m).aclint.mtime < (doTrap m).aclint.mtimecmp ∧ (doTrap m).aclint.pindingIrq = false

theorem Armed.run {t : BitVec 64} {m : Machine c} (h : Armed t m)
    (hc : ∃ ran, Confined ran m.cpu) (es : List Event)
    (hes : Run.Along stepEvent (Before t) m es) : Armed t (Run.run stepEvent m es) :=
  (Run.invariant (I := fun m : Machine c => (∃ ran, Confined ran m.cpu) ∧ Armed t m)
    (fun _ e hi hb => ⟨stepEvent_confined hi.1 e, hi.2.step hi.1 hb.1 hb.2.1 hb.2.2⟩)
    es m ⟨hc, h⟩ hes).2

theorem entersHandler_of_setTimer {m : Machine c} {t : BitVec 64} (ht : setTimerCall m = some t) :
    entersHandler m.cpu = some .ecall := by
  unfold setTimerCall at ht
  split at ht
  · rename_i hcall
    exact hcall.1
  · cases ht

theorem TimerInv.synced_of_setTimer {m : Machine c} (h : TimerInv m) {t : BitVec 64}
    (ht : setTimerCall m = some t) : Synced m := by
  obtain ⟨ran, hc⟩ := h.confined
  refine h.sync.synced (not_mtiLatched_of_ne hc ?_)
  rw [entersHandler_of_setTimer ht]
  decide

theorem sbiStart_timerInv (bus : Bus c DevKind) (ram : Memory) (entryPoint : Addr c)
    (dtbAddress : Word c) : TimerInv (sbiStart bus ram entryPoint dtbAddress) where
  confined := ⟨none, sbiStart_confined bus ram entryPoint dtbAddress none⟩
  sync := by
    have hm : mtip (sbiStart bus ram entryPoint dtbAddress).cpu = false := by
      simp [mtip, sbiStart, vmStart, sbiStartHart, rvReset, vmInit, rvInit, rvPokeRx, flushIcache,
        writePC]
    exact Synced.timerSync hm

/-- The call that sets a deadline to come arms it. -/
theorem TimerInv.armed {m : Machine c} (h : TimerInv m) {t : BitVec 64}
    (ht : setTimerCall m = some t) (hlt : m.aclint.mtime < t) :
    mtip (doTrap m).cpu = false ∧ (NoMmio m .run → Armed t (rvRun m)) := by
  obtain ⟨ran, hc⟩ := h.confined
  have he := entersHandler_of_setTimer ht
  obtain ⟨ha, hm, -⟩ := doTrap_setTimer (h.synced_of_setTimer ht) ht
  rw [decide_eq_false (BitVec.not_le.mpr hlt)] at ha hm
  refine ⟨hm, fun hw => ?_⟩
  have hg := (doTrap_guest hc (sbiHandler_of_enters he).1).1
  have hrun := rvRun_timer hc hw
  rw [rvEnter_handler he] at hrun
  obtain ⟨ha', hm', hl'⟩ := hrun (by rw [ha])
  have hdo : Armed t (doTrap m) :=
    ⟨by rw [ha], by rw [ha], hm, hg.not_mtiLatched⟩
  exact hdo.congr hm' ha' hl'

/-- A handled interrupt leaves the comparator ahead of the time exactly when it is handled before
the parking place. -/
theorem TimerInv.parked_iff {m : Machine c} (h : TimerInv m)
    (hi : entersHandler m.cpu = some .interrupt) :
    ((doTrap m).aclint.mtime < (doTrap m).aclint.mtimecmp ∧ (doTrap m).aclint.pindingIrq = false)
      ↔ m.aclint.mtime.toNat < 2 ^ c.xlen - 1 := by
  obtain ⟨ran, hc⟩ := h.confined
  obtain ⟨ha, -⟩ := doTrap_parks (entersHandler_mtiLatched hc hi) hi
  rw [ha, decide_eq_false_iff_not, ← BitVec.not_le, and_self, parkedTime_le_iff, Nat.not_le]

/-- A guest that calls `set_timer(0)`: `lui a7, 0x54495`, `addi a7, a7, -699`, `ecall`, `j .`. -/
def setTimerGuest : Memory :=
  ⟨fun i => [0xB7#8, 0x58#8, 0x49#8, 0x54#8, 0x93#8, 0x88#8, 0x58#8, 0xD4#8, 0x73#8, 0x00#8, 0x00#8,
    0x00#8, 0x6F#8, 0x00#8, 0x00#8, 0x00#8].getD i 0#8⟩

/-- The guest under the built-in SBI on RV32. -/
def lateMachine : Machine .rv32 :=
  sbiStart (mainBus .rv32 0x2000000) setTimerGuest 0x80000000#32 0#32

/-- The time passes 2³² in two ticks, and the guest latches its call. -/
def lateCall : List Event := [.tick 0x80000000#32, .tick 0x80000000#32, .run, .run, .run]

end RV640
