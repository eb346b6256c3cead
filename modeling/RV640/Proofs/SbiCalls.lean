import RV640.Proofs.SbiFrame
import RV640.Proofs.TimerDelivery

set_option autoImplicit false

/-! # The built-in SBI is transparent

To the supervisor an ECALL is a function call: it comes back behind the ECALL with the result in
`a0` and `a1`. The emulator gets there by entering M-mode, running the handler and returning with an
emulated MRET, which rewrites `mstatus` twice. The machine timer interrupt takes the same way, and
comes back to the instruction it interrupted with the supervisor timer interrupt pending.
-/

namespace RV640

open Bits

variable {c : Cfg}

/-! ## What the supervisor sees of the CSRs -/

/-- The supervisor-visible state. -/
structure SupervisorView (c : Cfg) where
  sstatus : Word c
  sie : Word c
  stvec : Word c
  sscratch : Word c
  sepc : Word c
  scause : Word c
  stval : Word c
  senvcfg : Word c
  scounteren : Word c
  medeleg : Word c
  mideleg : Word c

/-- The views of `mstatus` and `mie` are those of `_readCSR`. -/
def supervisorView (s : Cpu c) : SupervisorView c :=
  { sstatus := s.csr.mstatus &&& ~~~sstatusWpriMask
    sie := s.csr.mie &&& s.csr.mideleg &&& sieRwMask
    stvec := s.csr.stvec
    sscratch := s.csr.sscratch
    sepc := s.csr.sepc
    scause := s.csr.scause
    stval := s.csr.stval
    senvcfg := s.csr.senvcfg
    scounteren := s.csr.scounteren
    medeleg := s.csr.medeleg
    mideleg := s.csr.mideleg }

/-- The bits of `mstatus` that trap entry to M-mode and MRET rewrite: MIE, MPIE, MPP and MPRV. -/
def machineStatusBits : List Nat := [3, 7, 11, 12, 17]

theorem sstatusWpri_machine {k : Nat} (h : k ∈ machineStatusBits) :
    (sstatusWpriMask : Word c).getLsbD k = true := by
  have hall : ∀ k ∈ machineStatusBits, (sstatusWpriMask : Word c).getLsbD k = true := by
    cases c <;> decide
  exact hall k h

/-- Words that agree outside the M-mode bits have the same `sstatus`. -/
theorem sstatus_congr {x y : Word c}
    (h : ∀ k, k ∉ machineStatusBits → x.getLsbD k = y.getLsbD k) :
    x &&& ~~~sstatusWpriMask = y &&& ~~~sstatusWpriMask := by
  apply BitVec.eq_of_getLsbD_eq
  intro k hk
  simp only [BitVec.getLsbD_and, BitVec.getLsbD_not, hk, decide_true, Bool.true_and]
  by_cases hm : k ∈ machineStatusBits
  · simp [sstatusWpri_machine hm]
  · rw [h k hm]

/-- The M-mode bits are the fields of the M-mode level, and MPRV. -/
theorem not_machineStatusBits {k : Nat} (h : k ∉ machineStatusBits) :
    k ∉ TrapLevel.machine.pp ∧ k ≠ TrapLevel.machine.ie ∧ k ≠ TrapLevel.machine.pie ∧ k ≠ 17 := by
  simp only [machineStatusBits, List.mem_cons, List.not_mem_nil, or_false, not_or] at h
  obtain ⟨h3, h7, h11, h12, h17⟩ := h
  exact ⟨by simp [TrapLevel.pp, h11, h12], h3, h7, h17⟩

theorem mstatusEnterM_other (mstatus : Word c) (mode : PrivMode) {k : Nat}
    (h : k ∉ machineStatusBits) :
    (mstatusEnterM mstatus mode).getLsbD k = mstatus.getLsbD k := by
  obtain ⟨hpp, hie, hpie, -⟩ := not_machineStatusBits h
  by_cases hk : k < c.xlen
  · have hpush := TrapLevel.getLsbD_push .machine mstatus mode hk hpp
    rw [if_neg hie, if_neg hpie] at hpush
    exact hpush
  · rw [BitVec.getLsbD_of_ge _ k (by omega), BitVec.getLsbD_of_ge _ k (by omega)]

theorem popped_other (mstatus : Word c) {k : Nat} (h : k ∉ machineStatusBits) :
    (TrapLevel.machine.popped mstatus).getLsbD k = mstatus.getLsbD k := by
  obtain ⟨hpp, hie, hpie, h17⟩ := not_machineStatusBits h
  by_cases hk : k < c.xlen
  · rw [TrapLevel.getLsbD_popped .machine mstatus hk hpp h17, if_neg hie, if_neg hpie]
  · rw [BitVec.getLsbD_of_ge _ k (by omega), BitVec.getLsbD_of_ge _ k (by omega)]

/-- MRET in M-mode, spelled out. -/
theorem xret_machine {s : Cpu c} (hm : s.mode = .machine) (size : Int) :
    ∃ mstatus : Word c, (∀ k, k ∉ machineStatusBits → mstatus.getLsbD k = s.csr.mstatus.getLsbD k) ∧
      xret s .machine size = writePC
        { s with
          mode := mstatusGetMpp (xretRestoreIe s.csr.mstatus .machine)
          csr := { s.csr with mstatus := mstatus } }
        ((s.csr.mepc - BitVec.ofInt _ size).setWidth _) :=
  ⟨TrapLevel.machine.popped s.csr.mstatus, fun _ hk => popped_other _ hk,
    xret_level .machine hm (fun h => nomatch h) size⟩

/-! ## In M-mode and back -/

/-- From `s` to `s'` the hart went through M-mode: the M-mode trap registers, the M-mode bits of
`mstatus`, MTIE and pending bits may have changed, no other CSR. -/
structure MachineFrame (s s' : Cpu c) : Prop where
  csr : s'.csr = { s.csr with
    mip := s'.csr.mip
    mie := s'.csr.mie
    mstatus := s'.csr.mstatus
    mcause := s'.csr.mcause
    mtval := s'.csr.mtval
    mepc := s'.csr.mepc }
  mie : ∀ k, k ≠ IrqCause.machineTmrInt.toNat → s'.csr.mie.getLsbD k = s.csr.mie.getLsbD k
  mstatus : ∀ k, k ∉ machineStatusBits → s'.csr.mstatus.getLsbD k = s.csr.mstatus.getLsbD k

namespace MachineFrame

variable {s s' s'' : Cpu c}

protected theorem trans (h : MachineFrame s s') (h' : MachineFrame s' s'') :
    MachineFrame s s'' where
  csr := by rw [h'.csr, h.csr]
  mie := fun k hk => (h'.mie k hk).trans (h.mie k hk)
  mstatus := fun k hk => (h'.mstatus k hk).trans (h.mstatus k hk)

theorem of_irqFrame {S : List IrqCause} (h : IrqFrame S s s') : MachineFrame s s' where
  csr := by rw [h.rest]
  mie := fun k _ => by rw [h.rest]
  mstatus := fun k _ => by rw [h.rest]

theorem of_handlerFrame {m m' : Machine c} (h : HandlerFrame m m') :
    MachineFrame m.cpu m'.cpu where
  csr := by rw [h.cpu]
  mie := h.mie
  mstatus := fun k _ => by rw [h.cpu]

/-- Trap entry to M-mode. -/
theorem enterTrap (hd : s.trapDelegate = false) : MachineFrame s (RV640.enterTrap s) := by
  simp only [RV640.enterTrap, hd, Bool.false_eq_true, if_false]
  exact ⟨rfl, fun _ _ => rfl, fun k hk => mstatusEnterM_other _ _ hk⟩

/-- MRET. -/
theorem xret (hm : s.mode = .machine) (size : Int) :
    MachineFrame s (RV640.xret s .machine size) := by
  obtain ⟨mstatus, hms, heq⟩ := xret_machine hm size
  have hcsr : (RV640.xret s .machine size).csr = { s.csr with mstatus := mstatus } := by
    rw [heq, writePC_csr]
  refine ⟨?_, ?_, ?_⟩
  · rw [hcsr]
  · intro k _
    rw [hcsr]
  · intro k hk
    rw [hcsr]
    exact hms k hk

/-- The supervisor sees nothing of it. -/
theorem supervisorView (h : MachineFrame s s') :
    RV640.supervisorView s' = RV640.supervisorView s := by
  have hsstatus := sstatus_congr h.mstatus
  have hsie : s'.csr.mie &&& s'.csr.mideleg &&& sieRwMask
      = s.csr.mie &&& s.csr.mideleg &&& sieRwMask := by
    have hmideleg : s'.csr.mideleg = s.csr.mideleg := by rw [h.csr]
    have hx := c.xlen_ge
    apply BitVec.eq_of_getLsbD_eq
    intro k hk
    simp only [BitVec.getLsbD_and, hmideleg]
    by_cases h7 : k = IrqCause.machineTmrInt.toNat
    · have hmask : (sieRwMask : Word c).getLsbD k = false := by
        subst h7
        cases c <;> decide
      rw [hmask, Bool.and_false, Bool.and_false]
    · rw [h.mie k h7]
  have hfields : RV640.supervisorView s' = { RV640.supervisorView s with
      sstatus := s'.csr.mstatus &&& ~~~sstatusWpriMask
      sie := s'.csr.mie &&& s'.csr.mideleg &&& sieRwMask } := by
    unfold RV640.supervisorView
    rw [h.csr]
  rw [hfields, hsstatus, hsie]
  rfl

end MachineFrame

theorem ns16550Push_ram (m : Machine c) (ch : Byte) : (ns16550Push m ch).1.ram = m.ram := by
  unfold ns16550Push
  split
  · rfl
  · unfold Ns16550a.irq
    split <;> rfl

/-- The main loop between two calls of `rv_run`: only the devices' interrupts change. -/
theorem deviceEvents_frame (ds : List Event) (hds : ∀ e ∈ ds, e ≠ .run) (m : Machine c) :
    IrqFrame deviceIrqs m.cpu (Run.run stepEvent m ds).cpu ∧
      (Run.run stepEvent m ds).bus = m.bus ∧ (Run.run stepEvent m ds).ram = m.ram := by
  induction ds generalizing m with
  | nil => exact ⟨IrqFrame.refl _ _, rfl, rfl⟩
  | cons e ds ih =>
      obtain ⟨hc, hb, hr⟩ := ih (fun e' he' => hds e' (List.mem_cons_of_mem _ he')) (stepEvent m e)
      have he := hds e List.mem_cons_self
      obtain ⟨hcpu, hbus⟩ := deviceEvent_frame m he
      have hram : (stepEvent m e).ram = m.ram := by
        cases e with
        | run => exact absurd rfl he
        | tick cycles => rfl
        | push ch => exact ns16550Push_ram m ch
        | plicIrq n => rfl
      exact ⟨hcpu.trans hc, hb.trans hbus, hr.trans hram⟩

/-- `mepc` holds the PC, and the return adds 4 to it. -/
theorem epc_next (pc : Addr c) :
    (((pc.setWidth _ : Word c) - BitVec.ofInt _ (-4)).setWidth _ : Addr c) = pc + 4#_ := by
  have hneg : (BitVec.ofInt c.xlen (-4)) = -(4#c.xlen) := BitVec.ofInt_neg
  rw [hneg, BitVec.sub_neg, BitVec.setWidth_add _ _ c.alen_le_xlen,
    BitVec.setWidth_setWidth_of_le _ c.alen_le_xlen, BitVec.setWidth_eq,
    BitVec.setWidth_ofNat_of_le c.alen_le_xlen]

theorem epc_same (pc : Addr c) :
    (((pc.setWidth _ : Word c) - BitVec.ofInt _ 0).setWidth _ : Addr c) = pc := by
  rw [BitVec.ofInt_ofNat, BitVec.sub_zero, BitVec.setWidth_setWidth_of_le _ c.alen_le_xlen,
    BitVec.setWidth_eq]

/-! ## The way through M-mode -/

/-- A trap to M-mode whose handler is `h`, and the return from it. -/
structure ThroughMachine (size : Int) (m h m' : Machine c) : Prop where
  handler : HandlerFrame (entered m) h
  leave : m' = { h with cpu := xret h.cpu .machine size }

namespace ThroughMachine

variable {size : Int} {m h m' : Machine c}

/-- What comes back: the mode, the PC that `size` selects, memory, and the supervisor's view. -/
theorem spec (ht : ThroughMachine size m h m') (hs : SbiFixed m.cpu)
    (hd : m.cpu.trapDelegate = false) :
    m'.cpu.mode = m.cpu.mode ∧ m'.cpu.trap = false ∧
      m'.cpu.pc = ((m.cpu.pc.setWidth _ : Word c) - BitVec.ofInt _ size).setWidth _ ∧
      m'.cpu.regs = h.cpu.regs ∧ m'.cpu.icache = m.cpu.icache ∧ m'.bus = m.bus ∧ m'.ram = m.ram ∧
      m'.cpu.csr.mip = h.cpu.csr.mip ∧ supervisorView m'.cpu = supervisorView m.cpu := by
  obtain ⟨hf, rfl⟩ := ht
  have henter : InHandler m.cpu.mode (entered m).cpu := enterTrap_inHandler hs hd
  -- the handler works in the state trap entry left
  have hin : InHandler m.cpu.mode h.cpu := by
    have hfix : SbiFixed h.cpu := by
      have hmie := hf.mie
      rw [hf.cpu]
      exact
        { virtualSBI := henter.fixed.virtualSBI
          medeleg := henter.fixed.medeleg
          mideleg := henter.fixed.mideleg
          mtvec := henter.fixed.mtvec
          msie := (hmie _ (by decide)).trans henter.fixed.msie
          meie := (hmie _ (by decide)).trans henter.fixed.meie }
    refine ⟨hfix, ?_, ?_, ?_⟩
    · rw [hf.cpu]
      exact henter.mode
    · rw [hf.cpu]
      exact henter.trap
    · obtain ⟨mstatus, hms⟩ := henter.mstatus
      exact ⟨mstatus, by rw [hf.cpu]; exact hms⟩
  obtain ⟨-, hmode, htrap⟩ := mret_inHandler hin size
  obtain ⟨mstatus, -, hret⟩ := xret_machine hin.mode size
  have hmepc : h.cpu.csr.mepc = m.cpu.pc.setWidth _ := by
    rw [hf.cpu]
    simp only [entered, enterTrap, hd, Bool.false_eq_true, if_false, readPC]
  have hview : MachineFrame m.cpu (xret h.cpu .machine size) :=
    ((MachineFrame.enterTrap hd).trans (.of_handlerFrame hf)).trans (.xret hin.mode size)
  have hicache : h.cpu.icache = m.cpu.icache := by
    rw [hf.storeFrame.icache]
    exact enterTrap_icache m.cpu
  refine ⟨hmode, htrap, ?_, ?_, ?_, hf.bus, hf.ram, ?_, hview.supervisorView⟩
  · simp only [hret, writePC, hin.trap, Bool.false_eq_true, if_false, hmepc]
  · simp only [hret, writePC, hin.trap, Bool.false_eq_true, if_false]
  · rw [xret_icache, hicache]
  · simp only [hret, writePC_csr]

end ThroughMachine

/-! ## Calls -/

/-- The SBI result of the call that the registers of a state describe. -/
def sbiResult (m : Machine c) : SbiRet c :=
  (sbiDispatch (entered m) (m.cpu.regs regA7) (m.cpu.regs regA6)).2

/-- After `_doTrap` the call that `m` was executing has come back. -/
structure CallTransparent (m m' : Machine c) (res : SbiRet c) : Prop where
  mode : m'.cpu.mode = .supervisor
  trap : m'.cpu.trap = false
  pc : m'.cpu.pc = m.cpu.pc + 4#_
  error : m'.cpu.regs regA0 = res.error
  value : m'.cpu.regs regA1 = res.uvalue
  regs : ∀ r, r ≠ regA0 → r ≠ regA1 → m'.cpu.regs r = m.cpu.regs r
  ram : m'.ram = m.ram
  reservation : m'.bus.reservation = m.bus.reservation
  icache : m'.cpu.icache = m.cpu.icache
  supervisor : supervisorView m'.cpu = supervisorView m.cpu

theorem doTrap_call {m : Machine c} (hs : SbiFixed m.cpu) (hd : m.cpu.trapDelegate = false)
    (hc : m.cpu.trapCause = trapCauseWord .callS) (hmode : m.cpu.mode = .supervisor) :
    CallTransparent m (doTrap m) (sbiResult m) := by
  have hleave : doTrap m = { sbiHandleEcall (entered m) with
      cpu := xret (sbiHandleEcall (entered m)).cpu .machine (-4) } := by
    simp only [doTrap, sbiHandler_call hs hd hc, entered]
  have hframe := sbiHandleEcall_handlerFrame (entered m)
  obtain ⟨hm, ht, hpc, hregs, hic, hbus, hram, -, hview⟩ :=
    ThroughMachine.spec ⟨hframe, hleave⟩ hs hd
  have hentered : (entered m).cpu.regs = m.cpu.regs := enterTrap_regs m.cpu
  have ha0 : (sbiHandleEcall (entered m)).cpu.regs regA0 = (sbiResult m).error := by
    have hne : regA0 ≠ regA1 := by decide
    simp only [sbiHandleEcall, rvPokeRx, Function.update_of_ne hne, Function.update_self, hentered,
      sbiResult]
  have ha1 : (sbiHandleEcall (entered m)).cpu.regs regA1 = (sbiResult m).uvalue := by
    simp only [sbiHandleEcall, rvPokeRx, Function.update_self, hentered, sbiResult]
  exact
    { mode := hm.trans hmode
      trap := ht
      pc := by rw [hpc, epc_next]
      error := by rw [hregs, ha0]
      value := by rw [hregs, ha1]
      regs := by
        intro r h0 h1
        rw [hregs, hframe.regs r h0 h1, hentered]
      ram := hram
      reservation := by rw [hbus]
      icache := hic
      supervisor := hview }

/-- The transparency of a call is not affected by what the devices did before. -/
theorem CallTransparent.of_frame {S : List IrqCause} {m1 m m' : Machine c} {res : SbiRet c}
    (h : CallTransparent m m' res) (hc : IrqFrame S m1.cpu m.cpu) (hbus : m.bus = m1.bus)
    (hram : m.ram = m1.ram) : CallTransparent m1 m' res where
  mode := h.mode
  trap := h.trap
  pc := by rw [h.pc, hc.pc]
  error := h.error
  value := h.value
  regs := by
    intro r h0 h1
    rw [h.regs r h0 h1, hc.rest]
  ram := h.ram.trans hram
  reservation := by rw [h.reservation, hbus]
  icache := by rw [h.icache, hc.rest]
  supervisor := h.supervisor.trans (MachineFrame.of_irqFrame hc).supervisorView

/-- The errors an SBI call returns. -/
theorem sbiResult_error (m : Machine c) :
    (sbiResult m).error ∈ [sbiSuccess, sbiErrNotSupported, sbiErrInvalidParam] := by
  unfold sbiResult sbiDispatch
  split
  · unfold handleBaseExt
    split <;> simp
  · split
    · simp only [handleTimerExt]
      split <;> simp
    · split
      · simp only [handleDbgConExt]
        split
        · split <;> simp
        · simp
      · simp

/-! ## The timer interrupt -/

/-- The latch of the ACLINT is set only after the deadline. -/
def LatchPassed (m : Machine c) : Prop :=
  m.aclint.pindingIrq = true → m.aclint.mtimecmp ≤ m.aclint.mtime

theorem LatchPassed.congr {m m' : Machine c} (h : LatchPassed m) (ha : m'.aclint = m.aclint) :
    LatchPassed m' := by
  unfold LatchPassed
  rw [ha]
  exact h

theorem Aclint.updateMtimer_passed (self : Aclint) (hart : Cpu c) :
    (self.updateMtimer hart).1.pindingIrq = true →
      (self.updateMtimer hart).1.mtimecmp ≤ (self.updateMtimer hart).1.mtime := by
  rw [Aclint.updateMtimer_registers]
  exact of_decide_eq_true

theorem TimerOp.apply_passed (m : Machine c) (op : TimerOp) : LatchPassed (op.apply m) := by
  obtain ⟨hcmp, htime, hp, -⟩ := op.apply_spec m
  unfold LatchPassed
  rw [hcmp, htime, hp, Aclint.updateMtimer_registers]
  exact of_decide_eq_true

theorem writeMem_passed (m : Machine c) (addr : Addr c) (buf : List Byte) (h : LatchPassed m) :
    LatchPassed (writeMem m addr buf) := by
  unfold writeMem RV640.busWrite
  split
  · exact h
  · cases findDevice m.bus addr buf.length with
    | none => exact h
    | some p =>
        by_cases hdev : p.1.dev.callbacks = .aclint
        · simp only [hdev]
          exact TimerOp.apply_passed _ (.mmioWrite p.2.toNat buf)
        · exact h.congr (devWrite_frame _ hdev _ _).aclint

/-- Every action keeps it. -/
theorem Act.passed {m m' : Machine c} (h : Act m m') (hl : LatchPassed m) : LatchPassed m' := by
  cases h with
  | instr h _ =>
      cases h with
      | cpu _ => exact hl
      | readMem addr size =>
          unfold RV640.readMem
          split
          · exact hl
          · split
            · rename_i hr
              exact hl.congr (busRead_frame hr).aclint
            · exact hl
      | writeMem addr buf => exact writeMem_passed m addr buf hl
      | reserve addr size => exact hl
      | checkReserve addr size => exact hl
  | busRead h => exact hl.congr (busRead_frame h).aclint
  | program op => exact op.apply_passed m
  | tick cycles => exact Aclint.updateMtimer_passed _ m.cpu
  | push ch => exact hl.congr (ns16550Push_frame m ch).aclint
  | _ => exact hl

/-- The machine, and the cycles ticked since the last call of `rv_run`. -/
structure Ticked (c : Cfg) where
  m : Machine c
  since : Nat

/-- One event. -/
def tickedStep (t : Ticked c) (e : Event) : Ticked c :=
  ⟨stepEvent t.m e, match e with
    | .run => 0
    | .tick cycles => t.since + cycles.toNat
    | _ => t.since⟩

/-- Between two calls of `rv_run`, `main` ticks 100 cycles, and a tenth of a second at 10 MHz when
the hart waits: far from the 2³² - 1 cycles at which the comparator is parked on RV32. -/
def ShortTicks (t : Ticked c) : Event → Prop
  | .tick cycles => t.since + cycles.toNat < 2 ^ 32 - 1
  | _ => True

instance (t : Ticked c) : (e : Event) → Decidable (ShortTicks t e)
  | .run => isTrue trivial
  | .tick _ => inferInstanceAs (Decidable (_ < _))
  | .push _ => isTrue trivial
  | .plicIrq _ => isTrue trivial

/-- A timer interrupt on its way to the handler is still latched in the ACLINT, or `mtime` has
wrapped since. -/
structure TickInv (t : Ticked c) : Prop where
  confined : ∃ ran, Confined ran t.m.cpu
  latched : TimerLatched t.m
  passed : LatchPassed t.m
  short : t.since < 2 ^ 32 - 1
  onItsWay : MtiLatched t.m.cpu → t.m.aclint.pindingIrq = true ∨ t.m.aclint.mtime.toNat ≤ t.since

theorem noMipWrite_of_confined {m : Machine c} (h : ∃ ran, Confined ran m.cpu) (e : Event) :
    NoMipWrite m e = true := by
  obtain ⟨ran, hc⟩ := h
  cases e with
  | run =>
      simp only [NoMipWrite]
      split
      · rename_i m1 w hf
        have hg := (rvFetch_confined hc).2 w (by rw [hf])
        rw [hf] at hg
        simp only [Bool.not_eq_true', decide_eq_false_iff_not]
        exact fun hw => hg.1.low.ne_machine hw.2
      · rfl
  | _ => rfl

/-- The state of the timer that every event keeps. -/
structure TimerOk (m : Machine c) : Prop where
  confined : ∃ ran, Confined ran m.cpu
  latched : TimerLatched m
  passed : LatchPassed m

theorem TimerOk.step {m : Machine c} (h : TimerOk m) (e : Event) : TimerOk (stepEvent m e) := by
  have hacts := stepEvent_acts m e (noMipWrite_of_confined h.confined e)
  exact ⟨stepEvent_confined h.confined e,
    Run.invariant_star (fun _ _ ha hl => ha.latched hl) hacts h.latched,
    Run.invariant_star (fun _ _ ha hp => ha.passed hp) hacts h.passed⟩

/-- What a wrap of `mtime` leaves is less than what was ticked. -/
theorem wrapped_le {t cmp cycles : BitVec 64} (h : cmp ≤ t) (hlt : ¬ cmp ≤ t + cycles) :
    (t + cycles).toNat ≤ cycles.toNat := by
  rw [BitVec.not_le, BitVec.lt_def] at hlt
  rw [BitVec.le_def] at h
  have ht := t.isLt
  rw [BitVec.toNat_add] at hlt ⊢
  have hmod := Nat.mod_add_div (t.toNat + cycles.toNat) (2 ^ 64)
  have hge : 1 ≤ (t.toNat + cycles.toNat) / 2 ^ 64 := by
    by_contra hzero
    have h0 : (t.toNat + cycles.toNat) / 2 ^ 64 = 0 := by omega
    rw [h0] at hmod
    omega
  omega

theorem tick_mtime_le (t cycles : BitVec 64) : (t + cycles).toNat ≤ t.toNat + cycles.toNat := by
  rw [BitVec.toNat_add]
  exact Nat.mod_le _ _

/-- A timer interrupt is latched for the hart only while MTIP is pending, and so the ACLINT has it
latched too. -/
theorem rvRun_pindingIrq {m : Machine c} {ran : Option (PrivMode × BitVec 32)}
    (hc : Confined ran m.cpu) (hl : TimerLatched m) (hmti : MtiLatched (rvRun m).cpu) :
    (rvRun m).aclint.pindingIrq = true := by
  have henter := (rvRun_after_enter (rvEnter_guest hc)).2.mp hmti
  obtain hn | ⟨hi, -⟩ | ⟨hi, -⟩ := entersHandler_cases hc
  · obtain ⟨ha, ⟨-, hno⟩ | ⟨hpend, -, -⟩⟩ := rvEnter_quiet hc hn
    · exact absurd henter hno
    · -- the interrupt was taken in this call, and MTIP was pending
      have hstop : (rvEnter m).2 = true := by
        by_contra hgo
        exact (rvEnter_guest hc (Bool.eq_false_iff.mpr hgo)).not_mtiLatched henter
      rw [rvRun_of_stop hstop, ha]
      exact hl hpend
  all_goals
    rw [rvEnter_handler hi] at henter
    exact absurd henter (doTrap_guest hc (sbiHandler_of_enters hi).1).1.not_mtiLatched

theorem TickInv.step {t : Ticked c} (h : TickInv t) {e : Event} (he : ShortTicks t e) :
    TickInv (tickedStep t e) := by
  have hok := TimerOk.step ⟨h.confined, h.latched, h.passed⟩ e
  refine ⟨hok.confined, hok.latched, hok.passed, ?_, ?_⟩
  · cases e with
    | run => exact Nat.zero_lt_of_ne_zero (by decide)
    | tick cycles => exact he
    | push ch => exact h.short
    | plicIrq n => exact h.short
  · cases e with
    | run =>
        intro hmti
        obtain ⟨ran, hc⟩ := h.confined
        exact Or.inl (rvRun_pindingIrq hc h.latched hmti)
    | tick cycles =>
        intro hmti
        have hmti' : MtiLatched t.m.cpu :=
          (Aclint.updateMtimer_frame
            { t.m.aclint with mtime := t.m.aclint.mtime + cycles.setWidth 64 }
            t.m.cpu).mtiLatched_iff.mp hmti
        show (aclintTick t.m.aclint t.m.cpu cycles).1.pindingIrq = true
          ∨ (aclintTick t.m.aclint t.m.cpu cycles).1.mtime.toNat ≤ t.since + cycles.toNat
        have hwide : (cycles.setWidth 64).toNat = cycles.toNat := by
          rw [BitVec.toNat_setWidth, Nat.mod_eq_of_lt (by have := cycles.isLt; omega)]
        rw [aclintTick, Aclint.updateMtimer_registers]
        rcases h.onItsWay hmti' with hp | hle
        · by_cases hcmp : t.m.aclint.mtimecmp ≤ t.m.aclint.mtime + cycles.setWidth 64
          · exact Or.inl (decide_eq_true hcmp)
          · have hwrap := wrapped_le (h.passed hp) hcmp
            rw [hwide] at hwrap
            exact Or.inr (Nat.le_trans hwrap (Nat.le_add_left _ _))
        · have hadd := tick_mtime_le t.m.aclint.mtime (cycles.setWidth 64)
          rw [hwide] at hadd
          exact Or.inr (by show (t.m.aclint.mtime + cycles.setWidth 64).toNat ≤ _; omega)
    | push ch =>
        intro hmti
        have hf := ns16550Push_frame t.m ch
        have hway := h.onItsWay (hf.cpu.mtiLatched_iff.mp hmti)
        show (ns16550Push t.m ch).1.aclint.pindingIrq = true ∨ _
        rw [hf.aclint]
        refine hway.imp_right fun hle => ?_
        show (ns16550Push t.m ch).1.aclint.mtime.toNat ≤ t.since
        rw [hf.aclint]
        exact hle
    | plicIrq n =>
        intro hmti
        exact h.onItsWay ((plicInterrupt_frame t.m.plic t.m.cpu n).mtiLatched_iff.mp hmti)

/-- After `_doTrap` the hart is back where the timer interrupted it in `m`. Of the pending bits,
STIP is set, MTIP may have been cleared, and the others are as they were. -/
structure IrqTransparent (m m' : Machine c) : Prop where
  low : LowMode m.cpu
  mode : m'.cpu.mode = m.cpu.mode
  trap : m'.cpu.trap = false
  pc : m'.cpu.pc = m.cpu.pc
  regs : m'.cpu.regs = m.cpu.regs
  supervisor : supervisorView m'.cpu = supervisorView m.cpu
  stip : m'.cpu.csr.mip.getLsbD IrqCause.supervisorTmrInt.toNat = true
  mtip : mtip m'.cpu = true → mtip m.cpu = true
  pending : ∀ k, k ≠ IrqCause.supervisorTmrInt.toNat → k ≠ IrqCause.machineTmrInt.toNat →
    m'.cpu.csr.mip.getLsbD k = m.cpu.csr.mip.getLsbD k

theorem enterTrap_mip (s : Cpu c) : (enterTrap s).csr.mip = s.csr.mip := by
  unfold enterTrap
  split <;> rfl

/-- The handler of the timer interrupt. -/
theorem sbiHandleInterrupt_spec {m : Machine c}
    (hcause : m.cpu.csr.mcause = irqCauseWord .machineTmrInt) :
    (sbiHandleInterrupt m).cpu.regs = m.cpu.regs ∧
      (sbiHandleInterrupt m).cpu.csr.mip.getLsbD IrqCause.supervisorTmrInt.toNat = true ∧
      ∀ k, k ≠ IrqCause.supervisorTmrInt.toNat → k ≠ IrqCause.machineTmrInt.toNat →
        (sbiHandleInterrupt m).cpu.csr.mip.getLsbD k = m.cpu.csr.mip.getLsbD k := by
  have hcode : m.cpu.csr.mcause &&& ~~~cpuSignBit
      = BitVec.ofNat _ IrqCause.machineTmrInt.toNat := by
    rw [hcause]
    exact causeCode_irqCauseWord .machineTmrInt
  have hset := setMtimecmp_frame m ((cpuUintMax : Word c).setWidth 64)
  have hti := rvSetInterrupt_frame (pokeMie (setMtimecmp m ((cpuUintMax : Word c).setWidth 64)).cpu
    ((setMtimecmp m ((cpuUintMax : Word c).setWidth 64)).cpu.csr.mie
      &&& ~~~IrqCause.machineTmrInt.mask)) .supervisorTmrInt
  simp only [sbiHandleInterrupt, if_pos hcode]
  refine ⟨?_, rvSetInterrupt_pending _ _, ?_⟩
  · rw [hti.rest]
    show (setMtimecmp m _).cpu.regs = _
    rw [hset.rest]
  · intro k h5 h7
    rw [hti.mip k fun i hi => by rw [List.mem_singleton.mp hi]; exact h5]
    exact hset.mip k fun i hi => by rw [List.mem_singleton.mp hi]; exact h7

theorem TickInv.transparent {t : Ticked c} (h : TickInv t)
    (hi : entersHandler t.m.cpu = some .interrupt) : IrqTransparent t.m (doTrap t.m) := by
  obtain ⟨ran, hc⟩ := h.confined
  have hmti := entersHandler_mtiLatched hc hi
  have hhandler := (sbiHandler_of_enters hi).2
  have hleave : doTrap t.m = { sbiHandleInterrupt (entered t.m) with
      cpu := xret (sbiHandleInterrupt (entered t.m)).cpu .machine 0 } := by
    simp only [doTrap, hhandler, entered]
  obtain ⟨hm, ht, hpc, hregs, -, -, -, hmip, hview⟩ :=
    ThroughMachine.spec ⟨sbiHandleInterrupt_handlerFrame (entered t.m), hleave⟩ hc.fixed hmti.2.1
  have hcause : (entered t.m).cpu.csr.mcause = irqCauseWord .machineTmrInt := by
    rw [← hmti.2.2]
    exact enterTrap_mcause hmti.2.1
  obtain ⟨hregs', hstip, hpend⟩ := sbiHandleInterrupt_spec hcause
  refine ⟨hc.low, hm, ht, ?_, ?_, hview, ?_, ?_, ?_⟩
  · rw [hpc, epc_same]
  · rw [hregs, hregs']
    exact enterTrap_regs t.m.cpu
  · rw [hmip]
    exact hstip
  · intro hafter
    -- parking the comparator raises MTIP only past the parking place with the latch clear
    rw [(doTrap_parks hmti hi).2] at hafter
    have hup := Aclint.updateMtimer_mtip { t.m.aclint with mtimecmp := parkedTime c }
      (entered t.m).cpu
    have hsame : mtip (entered t.m).cpu = mtip t.m.cpu := enterTrap_mtip t.m.cpu
    have hafter' : mtip (Aclint.updateMtimer { t.m.aclint with mtimecmp := parkedTime c }
        (entered t.m).cpu).2 = true := hafter
    rw [hup, hsame] at hafter'
    rcases h.onItsWay hmti with hp | hle
    · simp only [hp, Bool.not_true, Bool.false_or, Bool.false_and] at hafter'
      split at hafter'
      · exact hafter'
      · cases hafter'
    · have hnle : ¬ parkedTime c ≤ t.m.aclint.mtime := by
        rw [parkedTime_le_iff]
        have hx := Nat.pow_le_pow_right (show 0 < 2 by decide) c.xlen_ge
        have := h.short
        omega
      rw [if_neg hnle] at hafter'
      exact (Bool.and_eq_true_iff.mp hafter').2
  · intro k h5 h7
    rw [hmip, hpend k h5 h7]
    show (enterTrap t.m.cpu).csr.mip.getLsbD k = _
    rw [enterTrap_mip]

/-! ## Runs -/

theorem run_ticked (t : Ticked c) (es : List Event) :
    (Run.run tickedStep t es).m = Run.run stepEvent t.m es := by
  induction es generalizing t with
  | nil => rfl
  | cons e es ih => exact ih _

theorem run_confined {m : Machine c} (h : ∃ ran, Confined ran m.cpu) (es : List Event) :
    ∃ ran, Confined ran (Run.run stepEvent m es).cpu :=
  Run.invariant_all (I := fun m : Machine c => ∃ ran, Confined ran m.cpu)
    (fun _ e hs => stepEvent_confined hs e) es m h

theorem sbiStart_tickInv (bus : Bus c DevKind) (ram : Memory) (entryPoint : Addr c)
    (dtbAddress : Word c) : TickInv ⟨sbiStart bus ram entryPoint dtbAddress, 0⟩ where
  confined := ⟨none, sbiStart_confined bus ram entryPoint dtbAddress none⟩
  latched := vmStart_latched bus ram false entryPoint dtbAddress
  passed := fun h => by cases h
  short := Nat.zero_lt_of_ne_zero (by decide)
  onItsWay := by
    intro h
    have ht : (sbiStart bus ram entryPoint dtbAddress).cpu.trap = false := by
      simp [sbiStart, vmStart, sbiStartHart, rvReset, vmInit, rvInit, rvPokeRx, flushIcache,
        writePC]
    have h1 := h.1
    rw [ht] at h1
    cases h1

/-- An ECALL of S-mode, executed in `m1` and latched in `m2`, has come back as soon as `_doTrap`
serves it, with the hart that the devices drive still the one of the run. -/
structure CallServed (m1 m2 : Machine c) : Prop where
  inside : (doTrap m2).plic.oob = false
  latched : m2.cpu.trap = true
  transparent : CallTransparent m1 (doTrap m2) (sbiResult m2)
  known : (sbiResult m2).error ∈ [sbiSuccess, sbiErrNotSupported, sbiErrInvalidParam]

/-- In the state that the run reaches an ECALL of S-mode comes back, whatever the devices do before
`_doTrap` serves it, and so does the machine timer interrupt. -/
structure SbiTransparent (start : Machine c) (es : List Event) : Prop where
  call : ∀ (m1 : Machine c) (w : BitVec 32) (ds : List Event),
    rvFetch (Run.run stepEvent start es) = (m1, some w) → isEcall w → m1.cpu.mode = .supervisor →
      (∀ e ∈ ds, e ≠ .run) →
        CallServed m1 (Run.run stepEvent (rvRun (Run.run stepEvent start es)) ds)
  timer : Run.Along tickedStep ShortTicks ⟨start, 0⟩ es →
    entersHandler (Run.run stepEvent start es).cpu = some .interrupt →
      (doTrap (Run.run stepEvent start es)).plic.oob = false
        ∧ IrqTransparent (Run.run stepEvent start es) (doTrap (Run.run stepEvent start es))

/-- What the ECALL latched aside, its caller is the state it was executed in. -/
theorem callTransparent_of_latched {m1 m2 : Machine c} {r : SbiRet c}
    (h : CallTransparent { m1 with cpu := trap m1.cpu .callS } m2 r) : CallTransparent m1 m2 r where
  mode := h.mode
  trap := h.trap
  pc := h.pc
  error := h.error
  value := h.value
  regs := h.regs
  ram := h.ram
  reservation := h.reservation
  icache := h.icache
  supervisor := h.supervisor

/-- **One call**, from a confined hart that drives its own devices. -/
theorem callServed {m m1 : Machine c} {ran : Option (PrivMode × BitVec 32)}
    (hc : Confined ran m.cpu) (hsafe : PlicSafe m) {w : BitVec 32}
    (hf : rvFetch m = (m1, some w)) (hw : isEcall w) (hmode : m1.cpu.mode = .supervisor)
    {ds : List Event} (hds : ∀ e ∈ ds, e ≠ .run) :
    CallServed m1 (Run.run stepEvent (rvRun m) ds) := by
  obtain ⟨hg, -⟩ := (rvFetch_confined hc).2 w (congrArg Prod.snd hf)
  have hfetched := (rvFetch_plic m).safe hsafe
  rw [hf] at hg hfetched
  have hrun : rvRun m = { m1 with cpu := trap m1.cpu .callS } := by
    simp only [rvRun, hf, rvExec_ecall hw, hmode, ecallCause]
  -- the ECALL only latches its trap
  have hsafe1 : PlicSafe (rvRun m) := by
    have hlatch : PlicStays false m1 { m1 with cpu := trap m1.cpu .callS } := .of_eq rfl
    rw [hrun]
    exact hlatch.safe hfetched
  -- what the devices do until `_doTrap` changes `mip` and what wakes the hart
  obtain ⟨hframe, hbus, hram⟩ := deviceEvents_frame ds hds (rvRun m)
  have hdevices := hsafe1.devices hds
  generalize Run.run stepEvent (rvRun m) ds = m2 at hframe hbus hram hdevices ⊢
  rw [hrun] at hframe hbus hram
  have hcall := doTrap_call (hframe.fixed (hg.fixed.congr rfl rfl rfl rfl rfl))
    (hframe.trapDelegate.trans (trapDelegation_callS hg.fixed)) hframe.trapCause
    (hframe.mode.trans hmode)
  exact
    { inside := ((doTrap_plic m2).safe hdevices).inside
      latched := hframe.trap
      transparent := callTransparent_of_latched (hcall.of_frame hframe hbus hram)
      known := sbiResult_error m2 }

/-- **The built-in SBI is transparent** in every state that a run from `sbi_startHart` reaches,
if the run completes no id from 4 on. -/
theorem sbi_transparent (bus : Bus c DevKind) (ram : Memory) (entryPoint : Addr c)
    (dtbAddress : Word c) (es : List Event)
    (hes : SmallCompletions (sbiStart bus ram entryPoint dtbAddress) es) :
    SbiTransparent (sbiStart bus ram entryPoint dtbAddress) es := by
  have hsafe := (sbiStart_plicSafe bus ram entryPoint dtbAddress).run hes
  constructor
  · intro m1 w ds hf hw hmode hds
    obtain ⟨ran, hc⟩ := run_confined ⟨none, sbiStart_confined bus ram entryPoint dtbAddress none⟩ es
    exact callServed hc hsafe hf hw hmode hds
  · intro hticks hi
    have hinv : TickInv (Run.run tickedStep ⟨sbiStart bus ram entryPoint dtbAddress, 0⟩ es) :=
      Run.invariant (fun t e ht he => ht.step he) es _
        (sbiStart_tickInv bus ram entryPoint dtbAddress) hticks
    have hm := run_ticked (⟨sbiStart bus ram entryPoint dtbAddress, 0⟩ : Ticked c) es
    have ht := hinv.transparent
    rw [hm] at ht
    exact ⟨((doTrap_plic _).safe hsafe).inside, ht hi⟩

/-- A guest that asks for the timer at time 50 and then spins: `lui` and `addi` of the extension id
in `a7`, `addi a0, x0, 50`, `ecall`, `jal x0, 0`. -/
def timerProgram : List (BitVec 32) :=
  [0x544958B7#32, 0xD4588893#32, 0x03200513#32, 0x00000073#32, 0x0000006F#32]

/-- A 64-bit machine of 1 MB with that guest. -/
def timerStart : Machine .rv64 :=
  sbiStart (mainBus .rv64 0x100000)
    ⟨fun i => getByte (timerProgram.getD (i / 4) 0#32) (i % 4)⟩ 0x80000000#64 0#64

/-- The guest up to its call, and on to the timer interrupt. -/
def untilCall : List Event := List.replicate 3 .run
def untilTimer : List Event := List.replicate 5 .run ++ [.tick 100#32, .run]

theorem rvFetch_word {m : Machine c} {w : BitVec 32} (h : (rvFetch m).2 = some w) :
    rvFetch m = ((rvFetch m).1, some w) := by
  rw [← h]

/-- The call comes back, with a tick in between, and so does the timer interrupt it asked for. -/
theorem sbi_transparent_timer :
    let caller := (rvFetch (Run.run stepEvent timerStart untilCall)).1
    let latched := Run.run stepEvent (rvRun (Run.run stepEvent timerStart untilCall)) [.tick 10#32]
    let interrupted := Run.run stepEvent timerStart untilTimer
    caller.cpu.regs regA7 = sbiEidTimer
      ∧ CallTransparent caller (doTrap latched) (sbiResult latched)
      ∧ entersHandler interrupted.cpu = some .interrupt
      ∧ IrqTransparent interrupted (doTrap interrupted) := by
  have hcall := (sbi_transparent (mainBus .rv64 0x100000) timerStart.ram 0x80000000#64 0#64
    untilCall (by decide +kernel)).call
  have htimer := (sbi_transparent (mainBus .rv64 0x100000) timerStart.ram 0x80000000#64 0#64
    untilTimer (by decide +kernel)).timer
  have hinterrupt : entersHandler (Run.run stepEvent timerStart untilTimer).cpu
      = some .interrupt := by decide +kernel
  refine ⟨by decide +kernel, ?_, hinterrupt, ?_⟩
  · exact (hcall _ 0x73#32 [.tick 10#32] (rvFetch_word (by decide +kernel)) (by decide)
      (by decide +kernel) (by decide)).transparent
  · exact (htimer (by decide +kernel) hinterrupt).2

/-- After a completion of id 7 the ECALL of the guest comes back through a hart that the devices no
longer point at. -/
theorem completion_not_transparent :
    ¬ SbiTransparent completionStart (beforeCompletion ++ [.run]) := by
  intro h
  have hfetch : (rvFetch (Run.run stepEvent completionStart (beforeCompletion ++ [.run]))).2
      = some 0x73#32 := by
    decide +kernel
  have hserved := h.call _ 0x73#32 [.push 0x62#8] (rvFetch_word hfetch) (by decide)
    (by decide +kernel) (by decide)
  have hinside := hserved.inside
  revert hinside
  decide +kernel

end RV640
