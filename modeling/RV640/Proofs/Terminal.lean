import RV640.Proofs.IsaRun
import RV640.Proofs.SbiProbe
import RV640.Proofs.UartAccess

set_option autoImplicit false

/-! # A program at the terminal

The emulator with its UART and the built-in SBI is the architecture at a terminal: what a program
prints through either is the console, and what it reads is what was typed. An ECALL is latched by
one call of `rv_run` and served by the next, so between the two the machine is one call behind.
-/

namespace RV640

open Bits Riscv

variable {c : Cfg} {ramSize : Nat} {m : Machine c} {sbi : Bool} {s s' : Station c.xlen c.alen}

/-! ## The relation -/

/-- The target with the UART of `main` and, where it is asked for, the built-in SBI. -/
def board (c : Cfg) (ramSize : Nat) (sbi : Bool) : Board :=
  { platform c ramSize with uart := 0x10000000, queue := ns16550aBufSize, firmware := sbi }

/-- The hart runs in S-mode, under the built-in SBI. -/
structure Served (hart : Cpu c) : Prop where
  fixed : SbiFixed hart
  mode : hart.mode = .supervisor

/-- The machine shows the hart and what is at the terminal. -/
structure Ready (ramSize : Nat) (sbi : Bool) (m : Machine c) (s : Station c.xlen c.alen) : Prop
    extends Shows ramSize m s.hart where
  uart : UartHolds m.uart s.input
  console : m.console = s.output
  served : sbi = true → Served m.cpu

/-- An ECALL of S-mode is latched. -/
structure Calling (hart : Cpu c) : Prop where
  trap : hart.trap = true
  cause : hart.trapCause = trapCauseWord .callS
  delegate : hart.trapDelegate = false

/-- The machine without its latched trap. -/
def quiet (m : Machine c) : Machine c := { m with cpu := { m.cpu with trap := false } }

/-- The machine shows the station, or the one before an ECALL that it has latched. -/
structure Attached (ramSize : Nat) (sbi : Bool) (m : Machine c) (s : Station c.xlen c.alen) :
    Prop where
  wf : WellFormed m.cpu
  shown : Ready ramSize sbi m s ∨ ∃ before, Calling m.cpu ∧ Ready ramSize sbi (quiet m) before ∧
    before.call (board c ramSize sbi) = some s

theorem quiet_eq (h : m.cpu.trap = false) : quiet m = m := by
  unfold quiet
  rw [← h]

theorem Served.congr {hart hart' : Cpu c} (h : Served hart)
    (hv : hart'.virtualSBI = hart.virtualSBI) (hcsr : hart'.csr = hart.csr)
    (hmode : hart'.mode = hart.mode) : Served hart' := by
  refine ⟨h.fixed.congr hv ?_ ?_ ?_ ?_, hmode.trans h.mode⟩ <;> rw [hcsr]

/-- No interrupt is enabled under the built-in SBI. -/
theorem Ready.mie (h : Ready ramSize true m s) : m.cpu.csr.mie = 0#_ := by
  rcases h.masked with hmie | ⟨hmode, -⟩
  · exact hmie
  · rw [(h.served rfl).mode] at hmode
    cases hmode

/-- The timer has not been touched, and the hart has not gone to sleep. -/
structure Steady (m m' : Machine c) : Prop where
  aclint : m'.aclint = m.aclint
  awake : m.cpu.wfi = false → m'.cpu.wfi = false

protected theorem Steady.refl (m : Machine c) : Steady m m := ⟨rfl, fun h => h⟩

protected theorem Steady.trans {m1 m2 m3 : Machine c} (h : Steady m1 m2) (h' : Steady m2 m3) :
    Steady m1 m3 :=
  ⟨h'.aclint.trans h.aclint, fun hw => h'.awake (h.awake hw)⟩

theorem Untouched.steady {m m' : Machine c} (h : Untouched m m') : Steady m m' := by
  refine ⟨h.aclint, ?_⟩
  intro hawake
  rw [h.cpu]
  exact hawake

theorem writePC_wfi (s : Cpu c) (d : Addr c) : (writePC s d).wfi = s.wfi := by
  unfold writePC
  split <;> rfl

/-! ## Instructions -/

/-- An instruction that stays in the hart and in RAM. -/
theorem Ready.leads {m' : Machine c} {hart : Hart c.xlen c.alen} (h : Ready ramSize sbi m s)
    (hl : Leads ramSize m m' hart) : Ready ramSize sbi m' { s with hart := hart } where
  toShows := hl.toShows
  uart := by
    rw [hl.frame.uart]
    exact h.uart
  console := by
    rw [hl.frame.console]
    exact h.console
  served := fun hsbi => (h.served hsbi).congr (by rw [hl.frame.cpu]) (by rw [hl.frame.cpu])
    (by rw [hl.frame.cpu])

/-- A base instruction, in either form. -/
theorem rvExec_base {w : BitVec 32} {b : Base} {size : Nat}
    (hword : InWord c.isRv64 w (.base b) size) :
    rvExec m w = advancePC (execBase m size b) size := by
  rcases hword with ⟨rfl, rfl⟩ | ⟨rfl, b', hb, hexpand⟩
  · rw [rvExec_word m (quadrant_instr _)]
    simp only [Instr.encode, execInstr_encode]
    rfl
  · obtain rfl := Instr.base.inj hb
    exact rvExec_half hexpand

/-- An access of the UART. -/
theorem Ready.io (h : Ready ramSize sbi m s) {w : BitVec 32} {i : Instr} {size : Nat}
    (hword : InWord c.isRv64 w i size) (hio : s.io (board c ramSize sbi) size i = some s') :
    Ready ramSize sbi (rvExec m w) s' ∧ Steady m (rvExec m w) := by
  simp only [Station.io] at hio
  split at hio
  · rename_i funct3 rd rs1 imm
    split at hio
    · rename_i hcond
      obtain ⟨hsize, hle⟩ := hcond
      obtain ⟨reg, haddr⟩ := Nat.exists_eq_add_of_le hle
      obtain ⟨⟨x, rest⟩, hread, rfl⟩ := Option.map_eq_some_iff.mp hio
      have hoff : (s.hart.addr rs1 imm).toNat - (board c ramSize sbi).uart = reg := by
        rw [haddr, Nat.add_sub_cancel_left]
      rw [hoff] at hread
      obtain ⟨hreg, hbyte, hholds⟩ := h.uart.read hread
      have hexec := execBase_load_uart h.devices h.running rs1 imm size rd hsize hreg
        ((congrArg BitVec.toNat (h.toShows.addr rs1 imm)).trans haddr)
      -- the register is read first, and then the result is written
      have hread : Ready ramSize sbi
          { m with uart := (m.uart.readByte reg 0#8).1 } { s with input := rest } :=
        ⟨⟨h.devices, h.running, h.masked, h.pc, h.regs, h.mem, h.line⟩, hholds, h.console,
          h.served⟩
      rw [rvExec_base hword, hexec, ← hbyte]
      have hwrite := hread.toShows.write rd (extended (funct3 &&& 4#3 == 0#3)
        [(m.uart.readByte reg 0#8).2]) size
      have hsteady : Steady m { m with uart := (m.uart.readByte reg 0#8).1 } := ⟨rfl, fun h => h⟩
      exact ⟨hread.leads hwrite, hsteady.trans hwrite.frame.steady⟩
    · cases hio
  · rename_i rs1 rs2 imm
    split at hio
    · rename_i haddr
      obtain rfl := Option.some.inj hio
      have haddr : (s.hart.addr rs1 imm).toNat = 0x10000000 := haddr
      rw [← h.toShows.addr] at haddr
      have hexec := execBase_store_uart h.devices h.running rs1 imm size rs2 h.uart.latch haddr
      have hput : Ready ramSize sbi
          (uiPutch { m with bus := busWriteInvalidate m.bus (effectiveAddr m.cpu rs1 imm) 1 }
            ((s.hart.regs.val rs2).setWidth 8))
          { s with output := s.output ++ [(s.hart.regs.val rs2).setWidth 8] } := by
        refine ⟨⟨?_, h.running, h.masked, h.pc, h.regs, h.mem, h.line⟩, h.uart, ?_, h.served⟩
        · rw [MainDevices, uiPutch, busWriteInvalidate_devices]
          exact h.devices
        · rw [uiPutch, h.console]
      rw [rvExec_base hword, hexec, h.toShows.readReg]
      have hnext := hput.toShows.next size
      have hsteady : Steady m
          (uiPutch { m with bus := busWriteInvalidate m.bus (effectiveAddr m.cpu rs1 imm) 1 }
            ((s.hart.regs.val rs2).setWidth 8)) := ⟨rfl, fun h => h⟩
      exact ⟨hput.leads hnext, hsteady.trans hnext.frame.steady⟩
    · cases hio
  · cases hio

/-- An instruction. -/
theorem Ready.exec (hsz : ramSize ≤ ramSizeMax) (h : Ready ramSize sbi m s) {w : BitVec 32}
    {i : Instr} {size : Nat} (hword : InWord c.isRv64 w i size)
    (hexec : s.exec (board c ramSize sbi) size i = some s') (hreg : Regular ramSize s.hart i) :
    Ready ramSize sbi (rvExec m w) s' ∧ Steady m (rvExec m w) := by
  unfold Station.exec at hexec
  split at hexec
  · rename_i hart hplain
    obtain rfl := Option.some.inj hexec
    have hleads := h.toShows.exec hsz hword hplain hreg.sllw
    exact ⟨h.leads hleads, hleads.frame.steady⟩
  · exact h.io hword hexec

/-- An ECALL is latched. -/
theorem Ready.ecall (h : Ready ramSize true m s) :
    Calling (rvExec m 0x73#32).cpu ∧ Ready ramSize true (quiet (rvExec m 0x73#32)) s
      ∧ Steady m (rvExec m 0x73#32) := by
  have hw : isEcall 0x73#32 := by decide
  obtain ⟨hfix, hmode⟩ := h.served rfl
  have hdel := trapDelegation_callS hfix
  rw [rvExec_ecall hw, hmode]
  refine ⟨⟨rfl, rfl, hdel⟩, ?_, rfl, fun h => h⟩
  exact ⟨⟨h.devices, rfl, h.masked, h.pc, h.regs, h.mem, h.line⟩, h.uart, h.console,
    fun _ => ⟨hfix.congr rfl rfl rfl rfl rfl, hmode⟩⟩

/-- What `rv_run` does with the word at the PC. -/
theorem Ready.rvRun (h : Ready ramSize sbi m s) (hwf : WellFormed m.cpu)
    (hsz : ramSize ≤ ramSizeMax) (hin : InRam ramSize s.hart.pc 4) :
    ∃ m1 copy, rvRun m = rvExec m1 (ofBytes (memRead copy (ramOffset s.hart.pc) 4)) ∧
      Ready ramSize sbi m1 s ∧ Steady m m1 ∧ CopyFresh ramSize copy s.hart := by
  have heven : readPC m.cpu &&& 1#_ = 0#_ := hwf.pc.and_one
  obtain ⟨m1, copy, hfetch, hm1, hcopy⟩ := h.toShows.fetch hsz heven hin
  refine ⟨m1, copy, ?_, h.leads hm1, hm1.frame.steady, hcopy⟩
  unfold RV640.rvRun rvFetch
  simp only [h.toShows.rvEnter, hfetch, hm1.running, Bool.false_eq_true, if_false]

/-- A step of the station. -/
theorem Ready.step (hsz : ramSize ≤ ramSizeMax) (h : Ready ramSize sbi m s)
    (hwf : WellFormed m.cpu) {i : Option Instr} (hstep : s.Step (board c ramSize sbi) i s')
    (hreg : ∀ j, i = some j → Regular ramSize s.hart j) :
    Attached ramSize sbi (RV640.rvRun m) s' ∧ Steady m (RV640.rvRun m) := by
  have hwf' : WellFormed (RV640.rvRun m).cpu := rvRun_wellFormed hwf
  cases i with
  | some i =>
      obtain ⟨size, hat, hexec⟩ := hstep
      have hreg := hreg i rfl
      obtain ⟨m1, copy, hrun, hm1, hsteady, hcopy⟩ := h.rvRun hwf hsz hreg.fetch
      obtain ⟨hready, hexec⟩ := hm1.exec hsz (inWord_of_atPC hcopy hat) hexec hreg
      rw [hrun] at hwf' ⊢
      exact ⟨⟨hwf', Or.inl hready⟩, hsteady.trans hexec⟩
  | none =>
      obtain ⟨hfresh, hword, hcall⟩ := hstep
      cases sbi with
      | false => cases hcall
      | true =>
          obtain ⟨m1, copy, hrun, hm1, hsteady, hcopy⟩ := h.rvRun hwf hsz hfresh.1
          rw [hcopy.read hfresh, hword] at hrun
          obtain ⟨hcalling, hready, hlatch⟩ := hm1.ecall
          rw [hrun] at hwf' ⊢
          exact ⟨⟨hwf', Or.inr ⟨s, hcalling, hready, hcall⟩⟩, hsteady.trans hlatch⟩

/-! ## Calls -/

/-- The loop of `_handleDbgConExt` over a range of RAM. -/
theorem dbgConWrite_ram (hsz : ramSize ≤ ramSizeMax) (hdev : MainDevices ramSize m.bus)
    (addr : Word c) (count : Nat) (hlo : 0x80000000 ≤ addr.toNat)
    (hhi : addr.toNat + count ≤ 0x80000000 + ramSize) :
    dbgConWrite m addr count
      = ({ m with console := m.console ++ Bytes.readAt (ramByte m) addr.toNat count }, true) := by
  induction count generalizing m addr with
  | zero =>
      rw [Bytes.readAt_zero, List.append_nil]
      rfl
  | succ count ih =>
      have hx := Nat.pow_le_pow_right (show 0 < 2 by decide) c.xlen_ge
      have hw := two_pow_32_le_alen c
      unfold ramSizeMax at hsz
      have haddr : (addr.setWidth c.alen).toNat = addr.toNat := by
        rw [BitVec.toNat_setWidth]
        exact Nat.mod_eq_of_lt (by omega)
      have hnext : (addr + 1#_).toNat = addr.toNat + 1 := by
        rw [BitVec.toNat_add, BitVec.toNat_ofNat, Nat.add_mod_mod]
        exact Nat.mod_eq_of_lt (by omega)
      have hin : InRam ramSize (addr.setWidth c.alen) [0#8].length := by
        rw [InRam, haddr]
        exact ⟨hlo, by simp only [List.length_singleton]; omega⟩
      have hread := busRead_inRam hdev hsz _ _ hin
      rw [memRead_ramByte m hin.1, haddr] at hread
      have hput := ih (m := uiPutch m (ramByte m addr.toNat)) hdev (addr + 1#_) (by omega)
        (by omega)
      rw [hnext] at hput
      rw [dbgConWrite, hread]
      refine hput.trans ?_
      rw [Nat.add_comm count 1, Bytes.readAt_add, ← List.append_assoc]
      rfl

/-- The dispatch of a call, in a machine with the registers and the memory of the hart. -/
theorem sbiDispatch_called (hsz : ramSize ≤ ramSizeMax) {hart : Hart c.xlen c.alen}
    (hdev : MainDevices ramSize m.bus) (hregs : m.cpu.regs = hart.regs.val)
    (hmem : ∀ i, RamAddr ramSize i → ramByte m i = hart.mem i) {r : Word c × List Byte}
    (hcalled : hart.called (platform c ramSize) = some r) :
    sbiDispatch m (m.cpu.regs regA7) (m.cpu.regs regA6)
      = ({ m with console := m.console ++ r.2 }, ⟨sbiSuccess, r.1⟩) := by
  have hx := c.xlen_ge
  have hpow := Nat.pow_le_pow_right (show 0 < 2 by decide) hx
  have hid : ∀ {x : Word c} {n : Nat}, x.toNat = n → x = BitVec.ofNat _ n := by
    rintro x n rfl
    rw [BitVec.ofNat_toNat, BitVec.setWidth_eq]
  simp only [Hart.called, ← hregs] at hcalled
  split at hcalled
  · -- the probe for an extension
    rename_i hcond
    obtain ⟨heid, hfid, hext⟩ := hcond
    obtain rfl := Option.some.inj hcalled
    have hprobed : m.cpu.regs regA0 ∈ probedExtensions (c := c) := by
      simp only [extensionIds, List.mem_cons, List.not_mem_nil, or_false] at hext
      rcases hext with h | h | h <;> rw [show m.cpu.regs regA0 = _ from hid h] <;>
        simp [probedExtensions, sbiEidBase, sbiEidTimer, sbiEidDbgcon]
    rw [sbiDispatch, if_pos (show m.cpu.regs regA7 = sbiEidBase from hid heid), List.append_nil]
    simp only [handleBaseExt, show (m.cpu.regs regA6).toNat = 3 from hfid, if_pos hprobed]
  · split at hcalled
    · -- a write to the debug console
      rename_i hcond
      obtain ⟨heid, hfid, -, hlo, hhi⟩ := hcond
      obtain rfl := Option.some.inj hcalled
      have hconsole : m.cpu.regs regA7 = sbiEidDbgcon := hid heid
      have hbase : (sbiEidDbgcon : Word c) ≠ sbiEidBase :=
        ofNat_word_ne (by decide) (by decide) (by decide)
      have htimer : (sbiEidDbgcon : Word c) ≠ sbiEidTimer :=
        ofNat_word_ne (by decide) (by decide) (by decide)
      have hwrite := dbgConWrite_ram hsz hdev (m.cpu.regs regA1) (m.cpu.regs regA0).toNat hlo hhi
      have hbytes : Bytes.readAt (ramByte m) (m.cpu.regs regA1).toNat (m.cpu.regs regA0).toNat
          = Bytes.readAt hart.mem (m.cpu.regs regA1).toNat (m.cpu.regs regA0).toNat := by
        apply Bytes.readAt_congr
        intro i hi
        have hlo : 0x80000000 ≤ (m.cpu.regs regA1).toNat := hlo
        have hhi : (m.cpu.regs regA1).toNat + (m.cpu.regs regA0).toNat ≤ 0x80000000 + ramSize :=
          hhi
        exact hmem _ ⟨by omega, by omega⟩
      rw [sbiDispatch, hconsole, if_neg hbase, if_neg htimer, if_pos rfl]
      simp only [handleDbgConExt, show (m.cpu.regs regA6).toNat = 0 from hfid, hwrite, hbytes,
        if_true]
      rfl
    · cases hcalled

/-- A latched call comes back with what the firmware of the architecture returns and prints. -/
theorem Ready.called (hsz : ramSize ≤ ramSizeMax) (h : Ready ramSize sbi (quiet m) s)
    (hcalling : Calling m.cpu) (hcall : s.call (board c ramSize sbi) = some s') :
    Ready ramSize sbi (doTrap m) s' ∧ Steady m (doTrap m) := by
  unfold Station.call at hcall
  split at hcall
  · rename_i hsbi
    obtain rfl : sbi = true := hsbi
    obtain ⟨r, hcalled, rfl⟩ := Option.map_eq_some_iff.mp hcall
    obtain ⟨hfix, hmode⟩ := h.served rfl
    have hfix : SbiFixed m.cpu := hfix.congr rfl rfl rfl rfl rfl
    have hregs : m.cpu.regs = s.hart.regs.val := h.regs
    have hentered : (entered m).cpu.regs = m.cpu.regs := enterTrap_regs m.cpu
    have hdispatch := sbiDispatch_called (m := entered m) hsz h.devices (hentered.trans hregs)
      h.mem hcalled
    have hecall : sbiHandleEcall (entered m) = { entered m with
        cpu := rvPokeRx (rvPokeRx (entered m).cpu regA0 0#_) regA1 r.1
        console := m.console ++ r.2 } := by
      simp only [sbiHandleEcall, hdispatch]
      rfl
    have hleave : doTrap m = { sbiHandleEcall (entered m) with
        cpu := xret (sbiHandleEcall (entered m)).cpu .machine (-4) } := by
      simp only [doTrap, sbiHandler_call hfix hcalling.delegate hcalling.cause, entered]
    -- what the way through M-mode leaves
    obtain ⟨hm, ht, hpc, hrx, hic, hbus, hram, -, -⟩ :=
      ThroughMachine.spec ⟨sbiHandleEcall_handlerFrame (entered m), hleave⟩ hfix hcalling.delegate
    have hin : (sbiHandleEcall (entered m)).cpu.mode = .machine :=
      (sbiHandleEcall_inHandler (enterTrap_inHandler hfix hcalling.delegate)).mode
    obtain ⟨mstatus, -, hret⟩ := xret_machine hin (-4)
    have hmie : (doTrap m).cpu.csr.mie = 0#_ := by
      have hmie : m.cpu.csr.mie = 0#_ := h.mie
      rw [hleave, hret, hecall, ← hmie]
      simp only [writePC_csr, rvPokeRx, entered, enterTrap, hcalling.delegate, Bool.false_eq_true,
        if_false]
    have hsteady : Steady m (doTrap m) := by
      rw [hleave, hret, hecall]
      refine ⟨rfl, fun _ => ?_⟩
      rw [writePC_wfi]
      simp only [rvPokeRx, entered, enterTrap, hcalling.delegate, Bool.false_eq_true, if_false]
    refine ⟨⟨⟨?_, ht, Or.inl hmie, ?_, ?_, ?_, ?_⟩, ?_, ?_, ?_⟩, hsteady⟩
    · rw [MainDevices, hbus]
      exact h.devices
    · rw [hpc, epc_next, show m.cpu.pc = s.hart.pc from h.pc]
      rfl
    · rw [hrx, hecall]
      funext i
      simp only [rvPokeRx, hentered, hregs, RegFile.set, Function.update_apply]
      by_cases h1 : i = regA1
      · subst h1
        rfl
      · by_cases h0 : i = regA0
        · subst h0
          rfl
        · rw [if_neg h1, if_neg h0, if_neg (fun hi => h1 hi.1), if_neg (fun hi => h0 hi.1)]
    · intro i hi
      rw [ramByte, hram]
      exact h.mem i hi
    · rw [hic]
      exact h.line
    · rw [hleave, hecall]
      exact h.uart
    · rw [hleave, hecall, ← h.console]
      rfl
    · intro _
      have hconfined : Confined (some (.supervisor, 0x73#32)) m.cpu :=
        ⟨hfix, Or.inr hmode, fun _ => Or.inr (Or.inr ⟨hcalling.delegate, hcalling.cause,
          0x73#32, rfl, by decide⟩)⟩
      exact ⟨(doTrap_guest hconfined hcalling.trap).1.fixed, hm.trans hmode⟩
  · cases hcall

/-! ## Runs -/

/-- The next call of `rv_run` starts where nothing is latched. -/
theorem Attached.settle (hsz : ramSize ≤ ramSizeMax) (h : Attached ramSize sbi m s) :
    ∃ m1, rvRun m = rvRun m1 ∧ Ready ramSize sbi m1 s ∧ WellFormed m1.cpu ∧ Steady m m1 := by
  obtain ⟨hwf, hready | ⟨before, hcalling, hready, hcall⟩⟩ := h
  · exact ⟨m, rfl, hready, hwf, .refl m⟩
  · obtain ⟨hcalled, hsteady⟩ := hready.called hsz hcalling hcall
    refine ⟨doTrap m, ?_, hcalled, doTrap_wellFormed hwf, hsteady⟩
    have henter : rvEnter m = (doTrap m, false) := by rw [rvEnter, if_pos hcalling.trap]
    unfold RV640.rvRun rvFetch
    rw [henter, hcalled.toShows.rvEnter]

/-- One call of `rv_run`. -/
theorem Attached.step (hsz : ramSize ≤ ramSizeMax) (h : Attached ramSize sbi m s)
    {i : Option Instr} (hstep : s.Step (board c ramSize sbi) i s')
    (hreg : ∀ j, i = some j → Regular ramSize s.hart j) :
    Attached ramSize sbi (rvRun m) s' ∧ Steady m (rvRun m) := by
  obtain ⟨m1, hrun, hready, hwf, hsteady⟩ := h.settle hsz
  obtain ⟨hattached, hstep⟩ := hready.step hsz hwf hstep hreg
  rw [hrun]
  exact ⟨hattached, hsteady.trans hstep⟩

/-- What happens at the terminal in an event of the main loop. The timer and the interrupt lines are
not seen. -/
def happening : Event → Option Happening
  | .run => some .step
  | .push ch => some (.key ch)
  | .tick _ => none
  | .plicIrq _ => none

theorem ns16550Push_console (m : Machine c) (ch : Byte) :
    (ns16550Push m ch).1.console = m.console := by
  unfold ns16550Push
  split
  · rfl
  · unfold Ns16550a.irq
    split <;> rfl

/-- The interrupts that the devices raise between two instructions are not seen. -/
theorem Ready.irqs {m' : Machine c} (h : Ready ramSize sbi (quiet m) s)
    (hcpu : IrqFrame deviceIrqs m.cpu m'.cpu) (hbus : m'.bus = m.bus) (hram : m'.ram = m.ram)
    (huart : UartHolds m'.uart s'.input) (hconsole : m'.console = s'.output)
    (hhart : s'.hart = s.hart) : Ready ramSize sbi (quiet m') s' := by
  have hrest := hcpu.rest
  refine ⟨⟨?_, rfl, ?_, ?_, ?_, ?_, ?_⟩, huart, hconsole, ?_⟩
  · rw [MainDevices, quiet, hbus]
    exact h.devices
  · refine h.masked.congr ?_ ?_ ?_ <;> simp only [quiet] <;> rw [hrest]
  · rw [hhart, ← h.pc]
    simp only [quiet]
    rw [hrest]
  · rw [hhart, ← h.regs]
    simp only [quiet]
    rw [hrest]
  · intro i hi
    rw [hhart, ← h.mem i hi, ramByte, ramByte, quiet, hram]
    rfl
  · simp only [quiet, hhart]
    rw [hrest]
    exact h.line
  · intro hsbi
    obtain ⟨hfix, hmode⟩ := h.served hsbi
    have hfix : SbiFixed m.cpu := hfix.congr rfl rfl rfl rfl rfl
    exact ⟨(hcpu.fixed hfix).congr rfl rfl rfl rfl rfl, hcpu.mode.trans hmode⟩

/-- A key. -/
theorem Ready.push (h : Ready ramSize sbi (quiet m) s) (ch : Byte) :
    Ready ramSize sbi (quiet (stepEvent m (.push ch)))
      (s.key (board c ramSize sbi).queue ch) := by
  obtain ⟨hcpu, hbus⟩ := deviceEvent_frame m (e := .push ch) (fun he => nomatch he)
  have hram : (stepEvent m (.push ch)).ram = m.ram := ns16550Push_ram m ch
  have huart : UartHolds (stepEvent m (.push ch)).uart
      (if s.input.length < (board c ramSize sbi).queue then s.input ++ [ch] else s.input) :=
    UartHolds.key (m := m) h.uart ch
  have hconsole : (stepEvent m (.push ch)).console = s.output :=
    (ns16550Push_console m ch).trans h.console
  unfold Station.key
  split
  · rename_i hlt
    rw [if_pos hlt] at huart
    exact h.irqs hcpu hbus hram huart hconsole rfl
  · rename_i hlt
    rw [if_neg hlt] at huart
    exact h.irqs hcpu hbus hram huart hconsole rfl

/-- What the devices do to a machine with nothing latched, and to the call before it, they do to
every machine that is attached. -/
theorem Attached.device {m' : Machine c} {f : Station c.xlen c.alen → Station c.xlen c.alen}
    (h : Attached ramSize sbi m s) (hwf : WellFormed m'.cpu)
    (hcpu : IrqFrame deviceIrqs m.cpu m'.cpu)
    (hready : ∀ t, Ready ramSize sbi (quiet m) t → Ready ramSize sbi (quiet m') (f t))
    (hcalls : ∀ t t', t.call (board c ramSize sbi) = some t' →
      (f t).call (board c ramSize sbi) = some (f t')) :
    Attached ramSize sbi m' (f s) := by
  refine ⟨hwf, ?_⟩
  rcases h.shown with h | ⟨before, hcalling, h, hcall⟩
  · have hrun : m'.cpu.trap = false := hcpu.trap.trans h.running
    rw [← quiet_eq h.running] at h
    rw [← quiet_eq hrun]
    exact Or.inl (hready s h)
  · refine Or.inr ⟨f before, ⟨?_, ?_, ?_⟩, hready before h, hcalls before s hcall⟩
    · exact hcpu.trap.trans hcalling.trap
    · exact hcpu.trapCause.trans hcalling.cause
    · exact hcpu.trapDelegate.trans hcalling.delegate

/-- A key. -/
theorem Attached.push (h : Attached ramSize sbi m s) (ch : Byte) :
    Attached ramSize sbi (stepEvent m (.push ch)) (s.key (board c ramSize sbi).queue ch) := by
  obtain ⟨hcpu, -⟩ := deviceEvent_frame m (e := .push ch) (fun he => nomatch he)
  exact h.device (f := fun t => t.key (board c ramSize sbi).queue ch)
    (stepEvent_wellFormed m _ h.wf) hcpu (fun t ht => ht.push ch)
    fun t t' ht => Station.call_key ht _ ch

/-- An event that the terminal has no part in. -/
theorem Attached.unseen (h : Attached ramSize sbi m s) {e : Event} (he : happening e = none) :
    Attached ramSize sbi (stepEvent m e) s := by
  have hwf := stepEvent_wellFormed m e h.wf
  cases e with
  | run => cases he
  | push ch => cases he
  | tick cycles =>
      obtain ⟨hcpu, hbus⟩ := deviceEvent_frame m (e := .tick cycles) (fun he => nomatch he)
      exact h.device (f := id) hwf hcpu
        (fun t ht => ht.irqs hcpu hbus rfl ht.uart ht.console rfl) fun t t' ht => ht
  | plicIrq n =>
      obtain ⟨hcpu, hbus⟩ := deviceEvent_frame m (e := .plicIrq n) (fun he => nomatch he)
      exact h.device (f := id) hwf hcpu
        (fun t ht => ht.irqs hcpu hbus rfl ht.uart ht.console rfl) fun t t' ht => ht

/-- The console is at most one call behind. -/
theorem Attached.console (h : Attached ramSize sbi m s) :
    m.console <+: s.output ∧ (m.cpu.trap = false → m.console = s.output) := by
  rcases h.shown with hready | ⟨before, hcalling, hready, hcall⟩
  · rw [hready.console]
    exact ⟨List.prefix_rfl, fun _ => rfl⟩
  · constructor
    · unfold Station.call at hcall
      split at hcall
      · obtain ⟨r, -, rfl⟩ := Option.map_eq_some_iff.mp hcall
        rw [show m.console = before.output from hready.console]
        exact List.prefix_append _ _
      · cases hcall
    · intro ht
      rw [hcalling.trap] at ht
      cases ht

/-- A run of the main loop. -/
theorem Attached.run (hsz : ramSize ≤ ramSizeMax) (h : Attached ramSize sbi m s) {es : List Event}
    (hsession : Session (board c ramSize sbi) (Regular ramSize) (es.filterMap happening) s s') :
    Attached ramSize sbi (Run.run stepEvent m es) s' := by
  induction es generalizing m s with
  | nil =>
      cases hsession with
      | nil s => exact h
  | cons e es ih =>
      rw [Run.run_cons]
      cases he : happening e with
      | none =>
          rw [List.filterMap_cons_none he] at hsession
          exact ih (h.unseen he) hsession
      | some k =>
          rw [List.filterMap_cons_some he] at hsession
          cases e with
          | run =>
              obtain rfl := Option.some.inj he
              cases hsession with
              | step step cond rest => exact ih (h.step hsz step cond).1 rest
          | push ch =>
              obtain rfl := Option.some.inj he
              cases hsession with
              | key ch rest => exact ih (h.push ch) rest
          | tick cycles => cases he
          | plicIrq n => cases he

/-- **The emulator at its terminal is the architecture at a terminal.** As long as the architecture
describes what a program does, a machine that is attached to a station stays so in every run of the
main loop: keys come between any two instructions, also between an ECALL and its service, and the
timer and the interrupt lines are not seen. -/
theorem terminal_refinement (hsz : ramSize ≤ ramSizeMax) (h : Attached ramSize sbi m s)
    (es : List Event) (later : List Happening)
    (hsession : Session (board c ramSize sbi) (Regular ramSize)
      (es.filterMap happening ++ later) s s') :
    ∃ s1, Session (board c ramSize sbi) (Regular ramSize) (es.filterMap happening) s s1 ∧
      Session (board c ramSize sbi) (Regular ramSize) later s1 s' ∧
      Attached ramSize sbi (Run.run stepEvent m es) s1 := by
  obtain ⟨s1, hfirst, hlater⟩ := hsession.split
  exact ⟨s1, hfirst, hlater, h.run hsz hfirst⟩

/-! ## The start -/

/-- Nothing is typed and nothing is printed when the main loop starts. -/
theorem vmStart_attached (ram : Memory) (noSBI : Bool) {entryPoint : Addr c} (dtbAddress : Word c)
    (heven : IsEven entryPoint) :
    Attached ramSize (!noSBI) (vmStart (mainBus c ramSize) ram noSBI entryPoint dtbAddress)
      ⟨startState ram entryPoint dtbAddress, [], []⟩ := by
  obtain ⟨hshows, hwf⟩ := @vmStart_follows c ramSize ram noSBI entryPoint dtbAddress heven
  have huart : UartHolds ns16550aInit [] := ⟨ns16550aInit_ok, rfl, rfl⟩
  refine ⟨hwf, Or.inl ?_⟩
  cases noSBI with
  | true => exact ⟨hshows, huart, rfl, fun hsbi => nomatch hsbi⟩
  | false =>
      have hconfined := sbiStart_confined (mainBus c ramSize) ram entryPoint dtbAddress none
      refine ⟨hshows, huart, rfl, fun _ => ⟨hconfined.fixed, ?_⟩⟩
      simp [vmStart, sbiStartHart, rvReset, vmInit, rvInit, rvPokeRx, flushIcache, writePC]

/-- `lui x5, 0x10000`, `lbu x6, 0(x5)` and `sb x6, 0(x5)`: a character that is read and printed.
Then the probe for the base extension: `c.li x17, 16`, `c.li x16, 3`, `c.li x10, 16`, `ecall`. -/
def echoProgram : Memory :=
  ⟨fun i => [0xB7#8, 0x02#8, 0x00#8, 0x10#8, 0x03#8, 0xC3#8, 0x02#8, 0x00#8, 0x23#8, 0x80#8, 0x62#8,
    0x00#8, 0xC1#8, 0x48#8, 0x0D#8, 0x48#8, 0x41#8, 0x45#8, 0x73#8].getD i 0#8⟩

def echoStart : Hart 32 32 := startState (c := .rv32) echoProgram 0x80000000#32 0#32

/-- The hart behind the store, and at the ECALL. -/
def echoPrinted : Hart 32 32 :=
  ((echoStart.write 5#5 0x10000000#32 4).write 6#5 65#32 4).next 4

def echoCalls : Hart 32 32 :=
  ((echoPrinted.write 17#5 16#32 2).write 16#5 3#32 2).write 10#5 16#32 2

def echoEnd : Station 32 32 where
  hart := { echoCalls.next 4 with regs := (echoCalls.regs.set 10#5 0#32).set 11#5 1#32 }
  input := [66#8]
  output := [65#8]

theorem echo_session : Session (board .rv32 0x100000 true) (Regular (c := .rv32) 0x100000)
    [.key 65#8, .step, .step, .step, .step, .step, .step, .step, .key 66#8]
    ⟨echoStart, [], []⟩ echoEnd := by
  have hlui : echoStart.Step (platform .rv32 0x100000) (.base (.lui 5#5 0x10000#20))
      (echoStart.write 5#5 0x10000000#32 4) :=
    ⟨4, ⟨⟨by decide, fun _ _ => rfl⟩, Or.inl ⟨rfl, by decide +kernel⟩⟩, rfl⟩
  have hlbu : Station.Step (board .rv32 0x100000 true)
      ⟨echoStart.write 5#5 0x10000000#32 4, [65#8], []⟩ (some (.base (.load 4#3 6#5 5#5 0#12)))
      ⟨(echoStart.write 5#5 0x10000000#32 4).write 6#5 65#32 4, [], []⟩ :=
    ⟨4, ⟨⟨by decide, fun _ _ => rfl⟩, Or.inl ⟨rfl, by decide +kernel⟩⟩, rfl⟩
  have hsb : Station.Step (board .rv32 0x100000 true)
      ⟨(echoStart.write 5#5 0x10000000#32 4).write 6#5 65#32 4, [], []⟩
      (some (.base (.store 0#3 5#5 6#5 0#12))) ⟨echoPrinted, [], [65#8]⟩ :=
    ⟨4, ⟨⟨by decide, fun _ _ => rfl⟩, Or.inl ⟨rfl, by decide +kernel⟩⟩, rfl⟩
  have ha7 : echoPrinted.Step (platform .rv32 0x100000) (.base (.addi 17#5 0#5 16#12))
      (echoPrinted.write 17#5 16#32 2) :=
    ⟨2, ⟨⟨by decide, fun _ _ => rfl⟩, Or.inr ⟨rfl, _, rfl, by decide +kernel⟩⟩, rfl⟩
  have ha6 : (echoPrinted.write 17#5 16#32 2).Step (platform .rv32 0x100000)
      (.base (.addi 16#5 0#5 3#12)) ((echoPrinted.write 17#5 16#32 2).write 16#5 3#32 2) :=
    ⟨2, ⟨⟨by decide, fun _ _ => rfl⟩, Or.inr ⟨rfl, _, rfl, by decide +kernel⟩⟩, rfl⟩
  have ha0 : ((echoPrinted.write 17#5 16#32 2).write 16#5 3#32 2).Step (platform .rv32 0x100000)
      (.base (.addi 10#5 0#5 16#12)) echoCalls :=
    ⟨2, ⟨⟨by decide, fun _ _ => rfl⟩, Or.inr ⟨rfl, _, rfl, by decide +kernel⟩⟩, rfl⟩
  have hecall : Station.Step (board .rv32 0x100000 true) ⟨echoCalls, [], [65#8]⟩ none
      { echoEnd with input := [] } :=
    ⟨⟨by decide, fun _ _ => rfl⟩, by decide +kernel, rfl⟩
  exact .key _ (.step (.of_hart hlui) (.base (by decide) (fun _ _ _ h => Base.noConfusion h))
    (.step hlbu (.base (by decide) (fun _ _ _ h => Base.noConfusion h))
    (.step hsb (.base (by decide) (fun _ _ _ h => Base.noConfusion h))
    (.step (.of_hart ha7) (.base (by decide) (fun _ _ _ h => Base.noConfusion h))
    (.step (.of_hart ha6) (.base (by decide) (fun _ _ _ h => Base.noConfusion h))
    (.step (.of_hart ha0) (.base (by decide) (fun _ _ _ h => Base.noConfusion h))
    (.step hecall (fun j hj => nomatch hj) (.key _ (.nil _)))))))))

/-- The echo, with a key between the ECALL and its service. -/
theorem terminal_refinement_echo :
    let m : Machine .rv32 := vmStart (mainBus .rv32 0x100000) echoProgram false 0x80000000#32 0#32
    Attached 0x100000 true (Run.run stepEvent m [.push 65#8, .run, .tick 1000, .run, .run, .run,
      .plicIrq 1, .run, .run, .run, .push 66#8]) echoEnd := by
  intro m
  have hstart : Attached 0x100000 true m ⟨echoStart, [], []⟩ :=
    @vmStart_attached .rv32 0x100000 echoProgram false 0x80000000#32 0#32 rfl
  obtain ⟨s1, -, hlater, hattached⟩ := terminal_refinement (by decide) hstart
    [.push 65#8, .run, .tick 1000, .run, .run, .run, .plicIrq 1, .run, .run, .run, .push 66#8]
    [] echo_session
  cases hlater with
  | nil s => exact hattached

section Boot

variable {uintBits : Nat} {args : List Arg} {opts : Opts} {env : HostEnv}

/-- **The image talks.** An accepted command line starts a machine that is attached to a station
with the hart at the image. What the emulator has printed after any run of the main loop is what the
program has, but for a call that is latched. -/
theorem image_talks (c : Cfg) (assumePerfect : Bool) {ram : Memory} {buf : HostBuf}
    (hopts : parseArgs false uintBits args = some opts) (hram : env.ram = some ram)
    (hdtb : env.dtb = some buf) {file : List Byte}
    (hacc : Accepted c (imageFile opts).1 (env.file (imageFile opts).2) file)
    (hfits : (imageOffset c (imageFile opts).1 file).toNat + file.length
      ≤ dtbOffset c opts.memSize (blobSize c))
    (heven : IsEven (imageOffset c (imageFile opts).1 file)) :
    ∃ (m : Machine c) (s : Hart c.xlen c.alen), boot c uintBits assumePerfect args env = some m ∧
      s.pc.toNat = 0x80000000 + (imageOffset c (imageFile opts).1 file).toNat ∧
      Bytes.readAt s.mem s.pc.toNat file.length = file ∧ (∀ i, s.stale i = false) ∧
      ∀ (es : List Event) (s' : Station c.xlen c.alen),
        Session (board c opts.memSize (!opts.noSBI)) (Regular opts.memSize)
            (es.filterMap happening) ⟨s, [], []⟩ s' →
          (Run.run stepEvent m es).console <+: s'.output ∧
            ((Run.run stepEvent m es).cpu.trap = false →
              (Run.run stepEvent m es).console = s'.output) := by
  obtain ⟨loaded, entryPoint, dtbAddress, hboot, hmax, heven, hentry, hfile⟩ :=
    image_started c assumePerfect hopts hram hdtb hacc hfits heven
  have hstart := @vmStart_attached c opts.memSize loaded opts.noSBI entryPoint dtbAddress heven
  refine ⟨_, _, hboot, hentry, hfile, fun _ => rfl, ?_⟩
  intro es s' hsession
  exact (hstart.run hmax hsession).console

/-- The first three words of the echo: `lui x5, 0x10000`, `lbu x6, 0(x5)` and `sb x6, 0(x5)`. -/
def echoImage : List Byte :=
  [0xB7#8, 0x02#8, 0x00#8, 0x10#8, 0x03#8, 0xC3#8, 0x02#8, 0x00#8, 0x23#8, 0x80#8, 0x62#8, 0x00#8]

theorem echoImage_session {s : Hart 32 32} (hpc : s.pc.toNat = 0x80000000)
    (hfile : Bytes.readAt s.mem s.pc.toNat 12 = echoImage) (hstale : ∀ i, s.stale i = false)
    (ch : Byte) :
    ∃ s', Session (board .rv32 0x100000 true) (Regular (c := .rv32) 0x100000)
        [.key ch, .step, .step, .step] ⟨s, [], []⟩ s' ∧ s'.output = [ch] := by
  rw [hpc] at hfile
  let s1 := s.write 5#5 0x10000000#32 4
  let s2 := s1.write 6#5 (extended false [ch]) 4
  have hpc1 : s1.pc.toNat = 0x80000000 + 4 * 1 := by
    rw [show s1.pc = s.pc + 4#32 from rfl, BitVec.toNat_add, hpc]
    rfl
  have hpc2 : s2.pc.toNat = 0x80000000 + 4 * 2 := by
    rw [show s2.pc = s1.pc + 4#32 from rfl, BitVec.toNat_add, hpc1]
    rfl
  obtain ⟨hlui, hin⟩ := image_word (i := .base (.lui 5#5 0x10000#20)) echoImage 0 hfile hstale
    (by decide) (by decide) hpc (by decide)
  obtain ⟨hlbu, hin1⟩ := image_word (s := s1) (i := .base (.load 4#3 6#5 5#5 0#12)) echoImage 1
    hfile hstale (by decide) (by decide) hpc1 (by decide)
  obtain ⟨hsb, hin2⟩ := image_word (s := s2) (i := .base (.store 0#3 5#5 6#5 0#12)) echoImage 2
    hfile hstale (by decide) (by decide) hpc2 (by decide)
  have hlui : s.Step (platform .rv32 0x100000) (.base (.lui 5#5 0x10000#20)) s1 := ⟨4, hlui, rfl⟩
  have hlbu : Station.Step (board .rv32 0x100000 true) ⟨s1, [ch], []⟩
      (some (.base (.load 4#3 6#5 5#5 0#12))) ⟨s2, [], []⟩ := by
    have haddr : (s1.addr 5#5 0#12).toNat = 0x10000000 := by
      simp [s1, Hart.addr, Hart.write, RegFile.set, x0]
    -- the address is outside RAM
    have hout : (Instr.base (.load 4#3 6#5 5#5 0#12)).exec (platform .rv32 0x100000) 4 s1
        = none := by
      simp only [Instr.exec, Base.exec, haddr]
      exact if_neg (fun h => absurd h.2 (by decide))
    refine ⟨4, hlbu, ?_⟩
    simp only [Station.exec, board, hout, Station.io, haddr]
    rfl
  have hsb : Station.Step (board .rv32 0x100000 true) ⟨s2, [], []⟩
      (some (.base (.store 0#3 5#5 6#5 0#12))) ⟨s2.next 4, [], [ch]⟩ := by
    have hchar : (s2.regs.val 6#5).setWidth 8 = ch := by
      simp [s2, Hart.write, RegFile.set, x0, extended, ofBytes]
    refine ⟨4, hsb, ?_⟩
    show some (⟨s2.next 4, [], [] ++ [(s2.regs.val 6#5).setWidth 8]⟩ : Station 32 32) = _
    rw [hchar]
    rfl
  have hprinted := Session.step hsb (Regular.base hin2 (fun _ _ _ h => Base.noConfusion h)) (.nil _)
  have hread := Session.step hlbu (Regular.base hin1 (fun _ _ _ h => Base.noConfusion h)) hprinted
  exact ⟨_, .key _ (.step (.of_hart hlui) (.base hin (fun _ _ _ h => Base.noConfusion h)) hread),
    rfl⟩

/-- The image that echoes a key, with a timer tick between its instructions. -/
theorem image_talks_sample :
    ∃ m : Machine .rv32,
      boot .rv32 32 false [.bin "a.bin", .memSize 1]
        { sampleEnv with file := fun _ => ⟨some echoImage, true⟩ } = some m ∧
      ∀ ch : Byte,
        let m' := Run.run stepEvent m [.push ch, .run, .tick 1000#32, .run, .run]
        m'.console <+: [ch] ∧ (m'.cpu.trap = false → m'.console = [ch]) := by
  obtain ⟨m, s, hboot, hpc, hfile, hstale, htalks⟩ := @image_talks 32 [.bin "a.bin", .memSize 1]
    ⟨none, some "a.bin", none, 0, false, 1⟩
    { sampleEnv with file := fun _ => ⟨some echoImage, true⟩ } .rv32 false
    ⟨fun _ => 0xAA#8⟩ ⟨fun _ => 0x55#8⟩ (by decide) rfl rfl echoImage
    ⟨rfl, rfl, (fun hk => by cases hk), by unfold imageOffset imageFile; decide⟩ (by decide) rfl
  refine ⟨m, hboot, ?_⟩
  intro ch
  obtain ⟨s', hsession, hout⟩ := echoImage_session hpc hfile hstale ch
  rw [← hout]
  exact htalks [.push ch, .run, .tick 1000#32, .run, .run] s' hsession

end Boot

end RV640
