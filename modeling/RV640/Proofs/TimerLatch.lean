import RV640.Proofs.Modes
import RV640.Proofs.RunLoop

set_option autoImplicit false

/-! # The timer interrupt at the ACLINT

That a deadline has passed is kept twice: in the ACLINT's `pindingIrq` and in `mip`. The hart clears
its copy when it takes the interrupt, without telling the device. The invariant that survives is one
implication: a pending bit has its latch set. As everywhere, nothing is claimed of the program once
the PLIC has left its arrays (`oob`).
-/

namespace RV640

open Bits Relation

variable {c : Cfg}

/-- MTIP. -/
def mtip (s : Cpu c) : Bool := s.csr.mip.getLsbD IrqCause.machineTmrInt.toNat

/-- A pending machine timer interrupt is latched in the ACLINT. -/
def TimerLatched (m : Machine c) : Prop := mtip m.cpu = true → m.aclint.pindingIrq = true

/-! ## The device -/

theorem IrqFrame.mtip {S : List IrqCause} {s s' : Cpu c} (h : IrqFrame S s s')
    (hS : .machineTmrInt ∉ S) : mtip s' = mtip s := h.pending _ hS

/-- `_updateMtimer` keeps the registers. -/
theorem Aclint.updateMtimer_registers (self : Aclint) (hart : Cpu c) :
    (self.updateMtimer hart).1
      = { self with pindingIrq := decide (self.mtimecmp ≤ self.mtime) } := by
  unfold Aclint.updateMtimer
  by_cases hle : self.mtimecmp ≤ self.mtime
  · rw [if_pos hle, decide_eq_true hle]
    split
    · rename_i hp
      rw [← hp]
    · rfl
  · rw [if_neg hle, decide_eq_false hle]
    split
    · rfl
    · rename_i hp
      rw [← Bool.eq_false_iff.mpr hp]

theorem Aclint.updateMtimer_mtimecmp (self : Aclint) (hart : Cpu c) :
    (self.updateMtimer hart).1.mtimecmp = self.mtimecmp := by
  rw [Aclint.updateMtimer_registers]

theorem Aclint.updateMtimer_mtime (self : Aclint) (hart : Cpu c) :
    (self.updateMtimer hart).1.mtime = self.mtime := by
  rw [Aclint.updateMtimer_registers]

/-- `_updateMtimer` raises MTIP only when the latch was clear. -/
theorem Aclint.updateMtimer_mtip (self : Aclint) (hart : Cpu c) :
    mtip (self.updateMtimer hart).2
      = if self.mtimecmp ≤ self.mtime then !self.pindingIrq || mtip hart
        else !self.pindingIrq && mtip hart := by
  unfold Aclint.updateMtimer
  by_cases hle : self.mtimecmp ≤ self.mtime
  · rw [if_pos hle, if_pos hle]
    cases self.pindingIrq with
    | true => rfl
    | false => exact rvSetInterrupt_pending hart _
  · rw [if_neg hle, if_neg hle]
    cases self.pindingIrq with
    | true => exact rvClearInterrupt_pending hart _
    | false => rfl

/-- After `_updateMtimer` a pending bit has its latch set, if it had before. -/
theorem Aclint.updateMtimer_latched (self : Aclint) (hart : Cpu c)
    (h : mtip hart = true → self.pindingIrq = true) :
    mtip (self.updateMtimer hart).2 = true → (self.updateMtimer hart).1.pindingIrq = true := by
  rw [Aclint.updateMtimer_mtip, Aclint.updateMtimer_registers]
  split
  · rename_i hle
    intro _
    exact decide_eq_true hle
  · intro hm
    simp only [Bool.and_eq_true, Bool.not_eq_true'] at hm
    rw [h hm.2] at hm
    exact absurd hm.1 (by decide)

theorem Aclint.writeByte_pindingIrq (self : Aclint) (addr : Nat) (b : Byte) :
    (self.writeByte addr b).pindingIrq = self.pindingIrq := by
  unfold Aclint.writeByte
  split
  · rfl
  · split
    · rfl
    · split <;> rfl

theorem Aclint.writeBytes_pindingIrq (self : Aclint) (addr : Nat) (bs : List Byte) :
    (self.writeBytes addr bs).pindingIrq = self.pindingIrq := by
  induction bs generalizing self addr with
  | nil => rfl
  | cons b bs ih => exact (ih _ _).trans (Aclint.writeByte_pindingIrq self addr b)

/-- `_updateMswi` after `_updateMtimer` does not touch MTIP. -/
theorem Aclint.cbWrite_mtip (self : Aclint) (hart : Cpu c) (addr : Nat) (buf : List Byte) :
    mtip (self.cbWrite hart addr buf).2
      = mtip ((self.writeBytes addr buf).updateMtimer hart).2 :=
  (Aclint.updateMswi_frame _ _).mtip (by decide)

/-! ## Operations that program the deadline -/

/-- What programs `mtimecmp`: the call, or a write to the device's registers. -/
inductive TimerOp where
  | setMtimecmp (val : BitVec 64)
  | mmioWrite (addr : Nat) (buf : List Byte)
  deriving DecidableEq

/-- The operation on the machine. -/
def TimerOp.apply (m : Machine c) : TimerOp → Machine c
  | .setMtimecmp val => RV640.setMtimecmp m val
  | .mmioWrite addr buf => devWrite m .aclint addr buf

/-- The registers as the operation programs them, before it looks at the deadline. -/
def TimerOp.registers (a : Aclint) : TimerOp → Aclint
  | .setMtimecmp val => { a with mtimecmp := val }
  | .mmioWrite addr buf => a.writeBytes addr buf

/-- MTIP tells whether the deadline has passed. -/
def MtipCorrect (m : Machine c) : Prop :=
  (m.aclint.mtimecmp ≤ m.aclint.mtime → mtip m.cpu = true)
    ∧ (m.aclint.mtime < m.aclint.mtimecmp → mtip m.cpu = false)

/-- The operation programs a deadline that has passed while the latch is still set for an interrupt
the hart has already taken. -/
def StaleLatch (m : Machine c) (op : TimerOp) : Prop :=
  m.aclint.pindingIrq = true ∧ mtip m.cpu = false
    ∧ (op.registers m.aclint).mtimecmp ≤ (op.registers m.aclint).mtime

theorem TimerOp.registers_pindingIrq (a : Aclint) (op : TimerOp) :
    (op.registers a).pindingIrq = a.pindingIrq := by
  cases op with
  | setMtimecmp val => rfl
  | mmioWrite addr buf => exact Aclint.writeBytes_pindingIrq a addr buf

/-- Every operation programs the registers and then runs `_updateMtimer`. -/
theorem TimerOp.apply_spec (m : Machine c) (op : TimerOp) :
    (op.apply m).aclint.mtimecmp = (op.registers m.aclint).mtimecmp
      ∧ (op.apply m).aclint.mtime = (op.registers m.aclint).mtime
      ∧ (op.apply m).aclint.pindingIrq = ((op.registers m.aclint).updateMtimer m.cpu).1.pindingIrq
      ∧ mtip (op.apply m).cpu = mtip ((op.registers m.aclint).updateMtimer m.cpu).2 := by
  cases op with
  | setMtimecmp val =>
      exact ⟨Aclint.updateMtimer_mtimecmp _ _, Aclint.updateMtimer_mtime _ _, rfl, rfl⟩
  | mmioWrite addr buf =>
      exact ⟨Aclint.updateMtimer_mtimecmp _ _, Aclint.updateMtimer_mtime _ _, rfl,
        Aclint.cbWrite_mtip m.aclint m.cpu addr buf⟩

instance (m : Machine c) : Decidable (MtipCorrect m) := by
  unfold MtipCorrect
  infer_instance

/-- A programming operation keeps the invariant. -/
theorem TimerOp.apply_latched (m : Machine c) (op : TimerOp) (h : TimerLatched m) :
    TimerLatched (op.apply m) := by
  obtain ⟨-, -, hp, hm⟩ := op.apply_spec m
  unfold TimerLatched
  rw [hp, hm]
  apply Aclint.updateMtimer_latched
  rw [op.registers_pindingIrq]
  exact h

/-- Under the invariant, an operation leaves MTIP right exactly when the latch is not stale. -/
theorem TimerOp.mtipCorrect_iff (m : Machine c) (op : TimerOp) (h : TimerLatched m) :
    MtipCorrect (op.apply m) ↔ ¬ StaleLatch m op := by
  obtain ⟨hcmp, htime, -, hm⟩ := op.apply_spec m
  unfold MtipCorrect StaleLatch
  rw [hcmp, htime, hm, Aclint.updateMtimer_mtip, op.registers_pindingIrq]
  by_cases hle : (op.registers m.aclint).mtimecmp ≤ (op.registers m.aclint).mtime
  · have hlt : ¬ (op.registers m.aclint).mtime < (op.registers m.aclint).mtimecmp := by
      rw [BitVec.not_lt]
      exact hle
    simp only [hle, hlt, if_true, forall_const, false_imp_iff, and_true]
    cases m.aclint.pindingIrq <;> cases mtip m.cpu <;> simp
  · have hlt : (op.registers m.aclint).mtime < (op.registers m.aclint).mtimecmp :=
      BitVec.not_le.mp hle
    simp only [hle, hlt, if_false, false_imp_iff, true_and, forall_const, and_false,
      not_false_eq_true, iff_true]
    cases hp : m.aclint.pindingIrq with
    | true => rfl
    | false =>
        rw [Bool.not_false, Bool.true_and, Bool.eq_false_iff]
        intro hmt
        have hpin := h hmt
        rw [hp] at hpin
        cases hpin

/-! ## The hart -/

/-- The CSR number of `mip`. -/
def csrMip : BitVec 16 := 0x344#16

theorem writeMstatus_mtip (s : Cpu c) (val : Word c) : mtip (writeMstatus s val) = mtip s := by
  simp only [writeMstatus]
  split <;> rfl

theorem writeMie_mtip (s : Cpu c) (val : Word c) : mtip (writeMie s val) = mtip s := by
  simp only [writeMie]
  split <;> rfl

/-- A write of `sip` leaves MTIP alone. -/
theorem writeSip_mtip (s : Cpu c) (val : Word c) :
    mtip (writeMip s ((val &&& (s.csr.mideleg &&& sipRwMask))
      ||| (s.csr.mip &&& ~~~(s.csr.mideleg &&& sipRwMask)))) = mtip s := by
  have hx := c.xlen_ge
  have h7 : (7 : Nat) < c.xlen := by omega
  have hmip : ∀ self : Cpu c, ∀ v, (writeMip self v).csr.mip
      = (self.csr.mip &&& ~~~mipRwMask) ||| (v &&& mipRwMask) := by
    intro self v
    simp only [writeMip]
  unfold mtip
  rw [hmip]
  simp [mipRwMask, sipRwMask, IrqCause.mask, IrqCause.toNat, h7]

theorem csrWritten_mtip {s s' : Cpu c} {csr : BitVec 16} {val : Word c}
    (h : csrWritten s csr val = some s') (hne : csr ≠ csrMip) : mtip s' = mtip s := by
  unfold csrWritten at h
  split at h
  case h_1 | h_10 =>
    obtain rfl := Option.some.inj h
    exact writeMstatus_mtip s _
  case h_2 | h_14 =>
    obtain rfl := Option.some.inj h
    exact writeMie_mtip s _
  case h_9 =>
    obtain rfl := Option.some.inj h
    exact writeSip_mtip s val
  case h_22 => exact absurd rfl hne
  all_goals first
    | (obtain rfl := Option.some.inj h
       rfl)
    | (split at h
       · cases h
       · obtain rfl := Option.some.inj h
         rfl)
    | cases h

theorem writeCSR_mtip (s : Cpu c) {csr : BitVec 16} (hne : csr ≠ csrMip) (val : Word c) :
    mtip (writeCSR s csr val) = mtip s :=
  writeCSR_keeps mtip rfl fun _ hw => csrWritten_mtip hw hne

theorem xret_mtip (s : Cpu c) (mode : PrivMode) (size : Int) :
    mtip (xret s mode size) = mtip s := by
  rw [xret_rest]
  rfl

/-- Below M-mode a write of `mip` traps. -/
theorem writeCSR_mip_mtip {s : Cpu c} (hm : s.mode ≠ .machine) (val : Word c) :
    mtip (writeCSR s csrMip val) = mtip s := by
  have hlt : s.mode < csrPrivMode csrMip := by
    revert hm
    cases s.mode <;> decide
  unfold writeCSR
  rw [if_pos hlt]
  split <;> rfl

/-- The word writes `mip` when executed in state `s`. -/
def WritesMip (s : Cpu c) (w : BitVec 32) : Prop := WritesCsr w csrMip ∧ s.mode = .machine

instance (s : Cpu c) (w : BitVec 32) : Decidable (WritesMip s w) := by
  unfold WritesMip
  infer_instance

theorem CpuMicro.mtip {w : BitVec 32} {s s' : Cpu c} (h : CpuMicro w s s')
    (hw : ¬ WritesMip s w) : mtip s' = mtip s := by
  cases h with
  | writeReg rd d =>
      unfold RV640.writeReg
      split <;> rfl
  | writePC d =>
      unfold RV640.writePC
      split <;> rfl
  | fault cause _ => rfl
  | ecall _ => rfl
  | writeCSR csr hcsr val =>
      by_cases hne : csr = csrMip
      · subst hne
        exact writeCSR_mip_mtip (fun hm => hw ⟨hcsr, hm⟩) val
      · exact writeCSR_mtip s hne val
  | sret size => exact xret_mtip s _ size
  | mret size => exact xret_mtip s _ size
  | wfi => rfl
  | flushIcache => rfl

/-- Taking an interrupt can only clear MTIP. -/
theorem interrupt_mtip_le (s : Cpu c) (i : IrqCause) (delegate : Bool) :
    mtip (interrupt s i delegate) = true → mtip s = true := by
  unfold mtip interrupt rvClearInterrupt
  simp only [BitVec.getLsbD_and, Bool.and_eq_true]
  exact fun h => h.1

theorem processPendingInterrupts_mtip_le (s : Cpu c) :
    mtip (processPendingInterrupts s) = true → mtip s = true :=
  processPendingInterrupts_invariant (P := fun t => mtip t = true → mtip s = true) id
    fun t i delegate ht h => ht (interrupt_mtip_le t i delegate h)

theorem enterTrap_mtip (s : Cpu c) : mtip (enterTrap s) = mtip s := by
  unfold enterTrap
  split <;> rfl

/-! ## Actions

The emulator as a relation between states, one primitive action at a time: the finest interleaving
there is. Every run of the main loop is a sequence of actions.
-/

/-- One action of the emulator. -/
inductive Act (m : Machine c) : Machine c → Prop
  | instr {w : BitVec 32} {m' : Machine c} (h : Micro w m m') (hw : ¬ WritesMip m.cpu w) : Act m m'
  | busRead {addr : Addr c} {buf bs : List Byte} {m' : Machine c}
      (h : busRead m addr buf = some (m', bs)) : Act m m'
  | fillIcache (icache : Icache c) : Act m { m with cpu := { m.cpu with icache := icache } }
  | takeIrq : Act m { m with cpu := processPendingInterrupts m.cpu }
  | enterTrap : Act m { m with cpu := enterTrap m.cpu }
  | pokeRx (rx : Reg) (val : Word c) : Act m { m with cpu := rvPokeRx m.cpu rx val }
  | pokeMie (mie : Word c) : Act m { m with cpu := pokeMie m.cpu mie }
  | raiseSti : Act m { m with cpu := rvSetInterrupt m.cpu .supervisorTmrInt }
  | putch (ch : Byte) : Act m (uiPutch m ch)
  | program (op : TimerOp) : Act m (op.apply m)
  | tick (cycles : BitVec 32) : Act m (stepEvent m (.tick cycles))
  | push (ch : Byte) : Act m (stepEvent m (.push ch))
  | plicIrq (n : Nat) : Act m (stepEvent m (.plicIrq n))

/-- Some actions, one after the other. -/
abbrev Acts : Machine c → Machine c → Prop := ReflTransGen Act

theorem TimerLatched.congr {m m' : Machine c} (h : TimerLatched m) (hm : mtip m'.cpu = mtip m.cpu)
    (ha : m'.aclint = m.aclint) : TimerLatched m' := by
  unfold TimerLatched
  rw [hm, ha]
  exact h

theorem IoFrame.latched {m m' : Machine c} (h : IoFrame m m') (hl : TimerLatched m) :
    TimerLatched m' := hl.congr (h.cpu.mtip (by decide)) h.aclint

theorem devWrite_latched (m : Machine c) (dev : DevKind) (addr : Nat) (buf : List Byte)
    (h : TimerLatched m) : TimerLatched (devWrite m dev addr buf) := by
  by_cases hdev : dev = .aclint
  · subst hdev
    exact TimerOp.apply_latched m (.mmioWrite addr buf) h
  · exact (devWrite_frame m hdev addr buf).latched h

theorem readMem_latched (m : Machine c) (addr : Addr c) (size : Nat) (h : TimerLatched m) :
    TimerLatched (readMem m addr size).1 := by
  unfold readMem
  split
  · exact h
  · split
    · rename_i hr
      exact (busRead_frame hr).latched h
    · exact h

theorem writeMem_latched (m : Machine c) (addr : Addr c) (buf : List Byte) (h : TimerLatched m) :
    TimerLatched (writeMem m addr buf) := by
  unfold writeMem RV640.busWrite
  split
  · exact h
  · cases findDevice m.bus addr buf.length with
    | none => exact h
    | some p => exact devWrite_latched _ _ _ _ h

theorem Micro.latched {w : BitVec 32} {m m' : Machine c} (h : Micro w m m')
    (hw : ¬ WritesMip m.cpu w) (hl : TimerLatched m) : TimerLatched m' := by
  cases h with
  | cpu h => exact hl.congr (h.mtip hw) rfl
  | readMem addr size => exact readMem_latched m addr size hl
  | writeMem addr buf => exact writeMem_latched m addr buf hl
  | reserve addr size => exact hl
  | checkReserve addr size => exact hl

/-- **Every action keeps the invariant.** -/
theorem Act.latched {m m' : Machine c} (h : Act m m') (hl : TimerLatched m) : TimerLatched m' := by
  cases h with
  | instr h hw => exact h.latched hw hl
  | busRead h => exact (busRead_frame h).latched hl
  | fillIcache icache => exact hl
  | takeIrq => exact fun hm => hl (processPendingInterrupts_mtip_le m.cpu hm)
  | enterTrap => exact hl.congr (enterTrap_mtip m.cpu) rfl
  | pokeRx rx val => exact hl
  | pokeMie mie => exact hl
  | raiseSti => exact hl.congr ((rvSetInterrupt_frame m.cpu _).mtip (by decide)) rfl
  | putch ch => exact hl
  | program op => exact op.apply_latched m hl
  | tick cycles => exact Aclint.updateMtimer_latched _ m.cpu hl
  | push ch => exact (ns16550Push_frame m ch).latched hl
  | plicIrq n => exact hl.congr ((plicInterrupt_frame m.plic m.cpu n).mtip (by decide)) rfl

/-! ## Runs are actions -/

/-- Some effects of an instruction that does not write `mip`. -/
theorem Micros.acts {w : BitVec 32} {m m' : Machine c} (h : Micros w m m')
    (hw : ¬ WritesMip m.cpu w) : Acts m m' := by
  by_cases hcsr : WritesCsr w csrMip
  · -- the write traps: the instruction never leaves the modes below M
    have hm : m.cpu.mode ≠ .machine := fun hm => hw ⟨hcsr, hm⟩
    exact Micros.keeps_below (I := Acts m) h hm
      (fun _ _ hab ha hI => hI.tail (.instr hab fun hwm => ha hwm.2)) .refl
  · induction h with
    | refl => exact .refl
    | tail _ hbc ih => exact ih.tail (.instr hbc fun hwm => hcsr hwm.1)

theorem acts_fault (m : Machine c) {cause : TrapCause} (h : cause.IsFault) :
    Acts m { m with cpu := trap m.cpu cause } :=
  .single (.instr (w := 0#32) (.cpu (.fault cause h)) fun hw => absurd hw.1 (by decide))

theorem acts_mret (m : Machine c) (size : Int) :
    Acts m { m with cpu := xret m.cpu .machine size } :=
  .single (.instr (w := 0#32) (.cpu (.mret size)) fun hw => absurd hw.1 (by decide))

theorem acts_writePC (m : Machine c) (d : Addr c) :
    Acts m { m with cpu := writePC m.cpu d } :=
  .single (.instr (w := 0#32) (.cpu (.writePC d)) fun hw => absurd hw.1 (by decide))

theorem dbgConWrite_acts (m : Machine c) (addr : Word c) (count : Nat) :
    Acts m (dbgConWrite m addr count).1 := by
  induction count generalizing m addr with
  | zero => exact .refl
  | succ count ih =>
      unfold dbgConWrite
      split
      · exact .refl
      · rename_i hr
        exact ((ReflTransGen.single (Act.busRead hr)).tail (.putch _)).trans (ih _ _)

theorem sbiDispatch_acts (m : Machine c) (eid fid : Word c) :
    Acts m (sbiDispatch m eid fid).1 := by
  unfold sbiDispatch
  split
  · exact .refl
  · split
    · simp only [handleTimerExt]
      split
      · exact (ReflTransGen.single (Act.program (.setMtimecmp (setTimerArg m.cpu)))).tail
          (.pokeMie _)
      · exact .refl
    · split
      · simp only [handleDbgConExt]
        split
        · exact dbgConWrite_acts m _ _
        · exact .refl
      · exact .refl

theorem sbiHandleEcall_acts (m : Machine c) : Acts m (sbiHandleEcall m) :=
  ((sbiDispatch_acts m _ _).tail (.pokeRx regA0 _)).tail (.pokeRx regA1 _)

theorem sbiHandleInterrupt_acts (m : Machine c) : Acts m (sbiHandleInterrupt m) := by
  simp only [sbiHandleInterrupt]
  split
  · exact ((ReflTransGen.single (Act.program (.setMtimecmp _))).tail (.pokeMie _)).tail .raiseSti
  · exact .refl

theorem doTrap_acts (m : Machine c) : Acts m (doTrap m) := by
  have henter : Acts m { m with cpu := enterTrap m.cpu } := .single .enterTrap
  simp only [doTrap]
  split
  · exact (henter.trans (sbiHandleEcall_acts _)).trans (acts_mret _ _)
  · exact (henter.trans (sbiHandleInterrupt_acts _)).trans (acts_mret _ _)
  · exact henter.trans (acts_mret _ _)
  · exact henter.trans (acts_writePC _ _)

theorem rvEnter_acts (m : Machine c) : Acts m (rvEnter m).1 := by
  have he := rvEnter_enters m
  generalize rvEnter m = r at he ⊢
  cases he with
  | trapped _ => exact doTrap_acts m
  | searched _ _ => exact .single .takeIrq
  | idle _ _ => exact .refl

theorem fetch_acts (m : Machine c) : Acts m (fetch m).1 := by
  have hf := fetch_fetches m
  generalize fetch m = r at hf ⊢
  cases hf with
  | misaligned _ => exact acts_fault m (by simp [TrapCause.IsFault])
  | hit _ _ => exact .refl
  | fill _ _ hline => exact (ReflTransGen.single (Act.busRead hline)).tail (.fillIcache _)
  | word _ _ _ hword => exact .single (.busRead hword)
  | fault _ _ _ _ => exact acts_fault m (by simp [TrapCause.IsFault])

theorem rvFetch_acts (m : Machine c) : Acts m (rvFetch m).1 :=
  rvFetch_keeps (rvEnter_acts m) fun m1 h1 => h1.trans (fetch_acts m1)

/-- The hart does not write `mip` by a CSR instruction in this step. -/
def NoMipWrite (m : Machine c) : Event → Bool
  | .run =>
      match rvFetch m with
      | (m, some w) => !decide (WritesMip m.cpu w)
      | (_, none) => true
  | _ => true

theorem stepEvent_acts (m : Machine c) (e : Event) (h : NoMipWrite m e = true) :
    Acts m (stepEvent m e) := by
  cases e with
  | run =>
      show Acts m (rvRun m)
      unfold rvRun
      cases hf : rvFetch m with
      | mk m1 o =>
          have hacts := rvFetch_acts m
          rw [hf] at hacts
          cases o with
          | none => exact hacts
          | some w =>
              simp only [NoMipWrite, hf, Bool.not_eq_true', decide_eq_false_iff_not] at h
              exact hacts.trans ((rvExec_micros m1 w).acts h)
  | tick cycles => exact .single (.tick cycles)
  | push ch => exact .single (.push ch)
  | plicIrq n => exact .single (.plicIrq n)

/-! ## Runs -/

/-- What happens to the timer: the events of the main loop, and operations on the ACLINT. -/
inductive TimerEvent where
  | event (e : Event)
  | program (op : TimerOp)
  | mmioRead (addr size : Nat)
  deriving DecidableEq

/-- One of them. -/
def timerStep (m : Machine c) : TimerEvent → Machine c
  | .event e => stepEvent m e
  | .program op => op.apply m
  | .mmioRead addr size => (devRead m .aclint addr (List.replicate size 0#8)).1

/-- `NoMipWrite` for all of them. -/
def TimerEvent.NoMipWrite (m : Machine c) : TimerEvent → Bool
  | .event e => RV640.NoMipWrite m e
  | _ => true

theorem timerStep_acts (m : Machine c) (e : TimerEvent) (h : e.NoMipWrite m = true) :
    Acts m (timerStep m e) := by
  cases e with
  | event e => exact stepEvent_acts m e h
  | program op => exact .single (.program op)
  | mmioRead addr size => exact .refl

theorem vmStart_latched (bus : Bus c DevKind) (ram : Memory) (noSBI : Bool) (entryPoint : Addr c)
    (dtbAddress : Word c) : TimerLatched (vmStart bus ram noSBI entryPoint dtbAddress) := by
  intro h
  have hmip : (vmStart bus ram noSBI entryPoint dtbAddress).cpu.csr.mip = 0#_ := by
    unfold vmStart
    cases noSBI <;> simp [sbiStartHart, rvReset, vmInit, rvInit, rvPokeRx, flushIcache, writePC]
  rw [mtip, hmip] at h
  simp at h

/-- An M-mode guest that enables its timer interrupt: `li t0, 0x80`, `csrs mie, t0`,
`csrsi mstatus, 8`. -/
def timerGuest : Memory :=
  ⟨fun i => [0x93#8, 0x02#8, 0x00#8, 0x08#8, 0x73#8, 0xA0#8, 0x42#8, 0x30#8, 0x73#8, 0x60#8, 0x04#8,
    0x30#8].getD i 0#8⟩

/-- The guest without SBI on RV64. -/
def timerMachine : Machine .rv64 :=
  vmStart (mainBus .rv64 0x2000000) timerGuest true 0x80000000#64 0#64

/-- The guest runs, the deadline 0 passes, and the interrupt is taken. -/
def timerTaken : List TimerEvent :=
  [.event .run, .event .run, .event .run, .event (.tick 100), .event .run]

end RV640
