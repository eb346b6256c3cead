import RV640.Proofs.ArchState

set_option autoImplicit false

/-! # Saving and restoring a CSR

`_readCSR` and `_writeCSR` are two switches over the CSR numbers. Where both have a case, writing a
CSR the value just read leaves the hart as it was: what the legalisation of a write enforces already
holds of the stored word, and a view of another register replaces the bits it shows by themselves.
Three numbers have a case in the first switch only. Of states in which the PLIC has left its arrays
(`oob`) nothing is claimed.
-/

namespace RV640

open Bits

variable {c : Cfg}

/-! ## What the hart stores -/

/-- The stored words are what a write leaves: a mode in MPP, and no bit outside the masks. -/
structure CsrWf (s : Cpu c) : Prop where
  mode : s.mode ≠ .reserved
  mstatus : MstatusWf s.csr.mstatus
  mstatush : mstatushWrVal s.csr.mstatush = s.csr.mstatush
  medeleg : s.csr.medeleg &&& medelegRwMask = s.csr.medeleg
  mideleg : s.csr.mideleg &&& midelegRwMask = s.csr.mideleg
  mcounteren : s.csr.mcounteren &&& counterenWrMask = s.csr.mcounteren
  scounteren : s.csr.scounteren &&& counterenWrMask = s.csr.scounteren

/-- The registers that are written under a mask, `mstatus` apart. -/
def maskedCsrs (csr : Csr c) : List (Word c) :=
  [csr.mstatush, csr.medeleg, csr.mideleg, csr.mcounteren, csr.scounteren]

namespace CsrWf

variable {s s' : Cpu c}

theorem of_masked (h : CsrWf s) (hmode : s'.mode ≠ .reserved) (hmstatus : MstatusWf s'.csr.mstatus)
    (hcsr : maskedCsrs s'.csr = maskedCsrs s.csr) : CsrWf s' := by
  simp only [maskedCsrs, List.cons.injEq, and_true] at hcsr
  obtain ⟨h1, h2, h3, h4, h5⟩ := hcsr
  refine ⟨hmode, hmstatus, ?_, ?_, ?_, ?_, ?_⟩
  · rw [h1]
    exact h.mstatush
  · rw [h2]
    exact h.medeleg
  · rw [h3]
    exact h.mideleg
  · rw [h4]
    exact h.mcounteren
  · rw [h5]
    exact h.scounteren

/-- Nothing but other registers changed. -/
theorem congr (h : CsrWf s) (hmode : s'.mode = s.mode) (hmstatus : s'.csr.mstatus = s.csr.mstatus)
    (hcsr : maskedCsrs s'.csr = maskedCsrs s.csr) : CsrWf s' :=
  h.of_masked (hmode ▸ h.mode) (hmstatus ▸ h.mstatus) hcsr

theorem of_irqFrame {S : List IrqCause} (h : CsrWf s) (hf : IrqFrame S s s') : CsrWf s' := by
  rw [hf.rest]
  exact h.congr rfl rfl rfl

theorem csrWritten (h : CsrWf s) {csr : BitVec 16} {val : Word c}
    (hw : csrWritten s csr val = some s') : CsrWf s' := by
  have hmask : ∀ mask : Word c, val &&& mask &&& mask = val &&& mask := by
    intro mask
    rw [BitVec.and_assoc, BitVec.and_self]
  have hms : ∀ val : Word c, CsrWf (writeMstatus s val) := by
    intro val
    have hwf := writeMstatus_mstatusWf s val
    rw [writeMstatus_rest, writeMstatus_csr]
    exact h.of_masked h.mode hwf rfl
  have hmie : ∀ val : Word c, CsrWf (writeMie s val) := by
    intro val
    simp only [writeMie]
    split <;> exact h.congr rfl rfl rfl
  have hmip : ∀ val : Word c, CsrWf (writeMip s val) := by
    intro val
    simp only [writeMip]
    split <;> exact h.congr rfl rfl rfl
  unfold RV640.csrWritten at hw
  split at hw
  case h_1 | h_10 => exact Option.some.inj hw ▸ hms _
  case h_2 | h_14 => exact Option.some.inj hw ▸ hmie _
  case h_9 | h_22 => exact Option.some.inj hw ▸ hmip _
  case h_4 =>
    obtain rfl := Option.some.inj hw
    exact ⟨h.mode, h.mstatus, h.mstatush, h.medeleg, h.mideleg, h.mcounteren, hmask _⟩
  case h_12 =>
    obtain rfl := Option.some.inj hw
    exact ⟨h.mode, h.mstatus, h.mstatush, hmask _, h.mideleg, h.mcounteren, h.scounteren⟩
  case h_13 =>
    obtain rfl := Option.some.inj hw
    exact ⟨h.mode, h.mstatus, h.mstatush, h.medeleg, hmask _, h.mcounteren, h.scounteren⟩
  case h_16 =>
    obtain rfl := Option.some.inj hw
    exact ⟨h.mode, h.mstatus, h.mstatush, h.medeleg, h.mideleg, hmask _, h.scounteren⟩
  case h_18 =>
    split at hw
    · cases hw
    · obtain rfl := Option.some.inj hw
      exact ⟨h.mode, h.mstatus, hmask _, h.medeleg, h.mideleg, h.mcounteren, h.scounteren⟩
  case h_23 => cases hw
  -- a register that is stored as it is
  all_goals
    obtain rfl := Option.some.inj hw
    exact h.congr rfl rfl rfl

theorem writeCSR (h : CsrWf s) (csr : BitVec 16) (val : Word c) : CsrWf (writeCSR s csr val) := by
  unfold RV640.writeCSR
  split
  · exact h
  · split
    · exact h.congr rfl rfl rfl
    · split
      · rename_i hw
        exact h.csrWritten hw
      · exact h.congr rfl rfl rfl

theorem writePC (h : CsrWf s) (d : Addr c) : CsrWf (writePC s d) := by
  unfold RV640.writePC
  split <;> exact h.congr rfl rfl rfl

theorem xret (h : CsrWf s) (mode : PrivMode) (size : Int) : CsrWf (xret s mode size) := by
  obtain ⟨hmode, hmstatus⟩ := xret_mstatusWf h.mode h.mstatus mode size
  rw [xret_rest]
  exact h.of_masked hmode hmstatus rfl

theorem enterTrap (h : CsrWf s) : CsrWf (enterTrap s) := by
  have hmodes : PrivMode.supervisor ≠ .reserved ∧ PrivMode.machine ≠ .reserved := by decide
  unfold RV640.enterTrap
  split
  · exact h.of_masked hmodes.1 (h.mstatus.enterS _) rfl
  · exact h.of_masked hmodes.2 (h.mstatus.enterM h.mode) rfl

theorem of_handlerFrame {m m' : Machine c} (h : CsrWf m.cpu) (hf : HandlerFrame m m') :
    CsrWf m'.cpu := by
  rw [hf.cpu]
  exact h.congr rfl rfl rfl

end CsrWf

/-! ## Runs -/

theorem CpuMicro.csrWf {w : BitVec 32} {s s' : Cpu c} (hm : CpuMicro w s s') (h : CsrWf s) :
    CsrWf s' := by
  cases hm with
  | writeReg rd d =>
      unfold RV640.writeReg
      split <;> exact h.congr rfl rfl rfl
  | writePC d => exact h.writePC d
  | fault cause _ => exact h.congr rfl rfl rfl
  | ecall _ => exact h.congr rfl rfl rfl
  | writeCSR csr _ val => exact h.writeCSR csr val
  | sret size => exact h.xret .supervisor size
  | mret size => exact h.xret .machine size
  | wfi => exact h.congr rfl rfl rfl
  | flushIcache => exact h.congr rfl rfl rfl

theorem Micro.csrWf {w : BitVec 32} {m m' : Machine c} (hm : Micro w m m') (h : CsrWf m.cpu) :
    CsrWf m'.cpu := by
  rcases hm.cpu_cases with hc | hf
  · exact hc.csrWf h
  · exact h.of_irqFrame hf

theorem doTrap_csrWf {m : Machine c} (h : CsrWf m.cpu) : CsrWf (doTrap m).cpu := by
  have hent : CsrWf (enterTrap m.cpu) := h.enterTrap
  simp only [doTrap]
  split
  · exact (hent.of_handlerFrame (m := { m with cpu := enterTrap m.cpu })
      (sbiHandleEcall_handlerFrame _)).xret _ _
  · exact (hent.of_handlerFrame (m := { m with cpu := enterTrap m.cpu })
      (sbiHandleInterrupt_handlerFrame _)).xret _ _
  · exact hent.xret _ _
  · exact hent.writePC _

theorem rvEnter_csrWf {m : Machine c} (h : CsrWf m.cpu) : CsrWf (rvEnter m).1.cpu := by
  have he := rvEnter_enters m
  generalize rvEnter m = r at he ⊢
  cases he with
  | trapped _ => exact doTrap_csrWf h
  | searched _ _ =>
      refine processPendingInterrupts_invariant h ?_
      intro t i d ht
      exact ht.congr rfl rfl rfl
  | idle _ _ => exact h

theorem fetch_csrWf {m : Machine c} (h : CsrWf m.cpu) : CsrWf (fetch m).1.cpu := by
  have hf := fetch_fetches m
  generalize fetch m = r at hf ⊢
  cases hf with
  | misaligned _ => exact h.congr rfl rfl rfl
  | hit _ _ => exact h
  | fill _ _ hline => exact (h.of_irqFrame (busRead_frame hline).cpu).congr rfl rfl rfl
  | word _ _ _ hword => exact h.of_irqFrame (busRead_frame hword).cpu
  | fault _ _ _ _ => exact h.congr rfl rfl rfl

theorem rvFetch_csrWf {m : Machine c} (h : CsrWf m.cpu) : CsrWf (rvFetch m).1.cpu :=
  rvFetch_keeps (I := fun m => CsrWf m.cpu) (rvEnter_csrWf h) fun _ h1 => fetch_csrWf h1

theorem rvExec_csrWf {m : Machine c} (h : CsrWf m.cpu) (w : BitVec 32) : CsrWf (rvExec m w).cpu :=
  Run.invariant_star (I := fun m : Machine c => CsrWf m.cpu) (fun _ _ hm => hm.csrWf)
    (rvExec_micros m w) h

theorem stepEvent_csrWf (m : Machine c) (e : Event) (h : CsrWf m.cpu) :
    CsrWf (stepEvent m e).cpu := by
  refine stepEvent_keeps (I := fun m => CsrWf m.cpu) e ?_ fun _ hf _ => h.of_irqFrame hf
  exact rvRun_keeps (I := fun m => CsrWf m.cpu) (rvFetch_csrWf h) fun _ w h1 => rvExec_csrWf h1 w

/-- A machine without the built-in SBI at the start of a run: after `rv_reset`, or as `main` starts
it. -/
inductive BareBooted : Machine c → Prop
  | reset (m : Machine c) {mode : PrivMode} (start : Addr c) (hmode : mode ≠ .reserved) :
      BareBooted (rvReset { m with cpu := rvInit false } mode start)
  | vmStart (bus : Bus c DevKind) (ram : Memory) (entryPoint : Addr c) (dtbAddress : Word c) :
      BareBooted (vmStart bus ram true entryPoint dtbAddress)

theorem rvReset_csrWf (m : Machine c) {mode : PrivMode} (start : Addr c)
    (hmode : mode ≠ .reserved) :
    CsrWf (rvReset { m with cpu := rvInit false } mode start).cpu := by
  have hms : MstatusWf (mstatusWrVal 0#_ : Word c) := by
    refine ⟨?_, ?_⟩
    · cases c <;> decide
    · cases c <;> decide
  have hmh : mstatushWrVal (if c.isRv64 then 0#_ else mstatushWrVal 0#_ : Word c)
      = if c.isRv64 then 0#_ else mstatushWrVal 0#_ := by
    cases c <;> decide
  simp only [rvReset]
  refine CsrWf.writePC ?_ start
  exact ⟨hmode, hms, hmh, BitVec.zero_and, BitVec.zero_and, BitVec.zero_and, BitVec.zero_and⟩

theorem BareBooted.csrWf {m : Machine c} (h : BareBooted m) : CsrWf m.cpu := by
  cases h with
  | reset m start hmode => exact rvReset_csrWf m start hmode
  | vmStart bus ram entryPoint dtbAddress =>
      have hreset := rvReset_csrWf (vmInit bus ram false) entryPoint
        (by decide : PrivMode.machine ≠ .reserved)
      exact hreset.congr rfl rfl rfl

/-! ## Writing back -/

/-- What a view of a register shows, put back into the rest. -/
theorem view_or_self (x mask : Word c) : (x &&& mask) &&& mask ||| x &&& ~~~mask = x :=
  calc (x &&& mask) &&& mask ||| x &&& ~~~mask = x &&& mask ||| x &&& ~~~mask := by
        rw [BitVec.and_assoc, BitVec.and_self]
    _ = x &&& ~~~mask ||| x &&& mask := BitVec.or_comm _ _
    _ = x := clear_or_self x mask

theorem writeMstatus_same {s : Cpu c} (h : MstatusWf s.csr.mstatus) :
    writeMstatus s s.csr.mstatus = s := by
  have hword : (mstatusWrVal s.csr.mstatus &&& ~~~mstatusMppMask)
      ||| mstatusMpp (mstatusGetMpp s.csr.mstatus) = s.csr.mstatus := by
    rw [h.wrVal, mstatusMpp_get, clear_or_self]
  simp only [writeMstatus, bne_self_eq_false, Bool.false_eq_true, if_false, h.legal, hword]

theorem writeMie_self (s : Cpu c) : writeMie s s.csr.mie = s := by
  simp only [writeMie, clear_or_self, bne_self_eq_false, Bool.false_eq_true, if_false]

theorem writeMip_self (s : Cpu c) : writeMip s s.csr.mip = s := by
  simp only [writeMip, clear_or_self, bne_self_eq_false, Bool.false_eq_true, if_false]

/-- Bit 0 of an even word. -/
theorem even_clear_one {x : Word c} (h : IsEven x) : x &&& ~~~1#_ = x := by
  have hself := clear_or_self x 1#_
  rwa [h.and_one, BitVec.or_zero] at hself

/-- The CSRs that `_readCSR` knows and `_writeCSR` does not: `scause`, `satp` and `mcause`. -/
def readOnlyByCode : List (BitVec 16) := [0x142#16, 0x180#16, 0x342#16]

/-- The two CSRs of which a write clears bit 0: `sepc` and `mepc`. -/
def epcCsrs : List (BitVec 16) := [0x141#16, 0x341#16]

/-- Writing back a value that was read. -/
theorem csrWritten_back {s : Cpu c} (h : CsrWf s) {mtime : BitVec 64} {csr : BitVec 16} {v : Word c}
    (hv : csrValue s mtime csr = some v) (hro : csr.extractLsb' 10 2 ≠ 3#2)
    (hknown : csr ∉ readOnlyByCode) (heven : csr ∈ epcCsrs → IsEven v) :
    csrWritten s csr v = some s := by
  unfold csrValue at hv
  split at hv
  case h_8 | h_11 | h_23 => exact absurd (by decide) hknown
  case h_26 | h_27 | h_28 | h_29 | h_30 | h_31 | h_32 | h_33 | h_34 | h_35 =>
    exact absurd (by decide) hro
  case h_36 => cases hv
  case h_20 =>
    -- `mstatush`, on RV32 only
    cases hrv : c.isRv64 with
    | true =>
        rw [hrv] at hv
        cases hv
    | false =>
        rw [hrv] at hv
        obtain rfl := Option.some.inj hv
        have hwrite : csrWritten s 0x310#16 s.csr.mstatush
            = some { s with csr := { s.csr with mstatush := mstatushWrVal s.csr.mstatush } } := by
          show (if c.isRv64 then none else _) = _
          rw [hrv]
          rfl
        rw [hwrite, h.mstatush]
  all_goals obtain rfl := Option.some.inj hv
  -- the views of `mstatus`, `mie` and `mip`, and these: the bits shown replace themselves
  case h_1 =>
    show some (writeMstatus s (_ &&& ~~~sstatusWpriMask ||| s.csr.mstatus &&& sstatusWpriMask)) = _
    rw [BitVec.and_assoc, BitVec.and_self, clear_or_self, writeMstatus_same h.mstatus]
  case h_2 =>
    show some (writeMie s (_ &&& (s.csr.mideleg &&& sieRwMask)
      ||| s.csr.mie &&& ~~~(s.csr.mideleg &&& sieRwMask))) = _
    rw [BitVec.and_assoc s.csr.mie, view_or_self, writeMie_self]
  case h_10 =>
    show some (writeMip s (_ &&& (s.csr.mideleg &&& sipRwMask)
      ||| s.csr.mip &&& ~~~(s.csr.mideleg &&& sipRwMask))) = _
    rw [BitVec.and_assoc s.csr.mip, view_or_self, writeMip_self]
  case h_12 => exact congrArg some (writeMstatus_same h.mstatus)
  case h_16 => exact congrArg some (writeMie_self s)
  case h_25 => exact congrArg some (writeMip_self s)
  -- a mask over what is stored
  case h_4 =>
    show some { s with csr := { s.csr with scounteren := s.csr.scounteren &&& _ } } = _
    rw [h.scounteren]
  case h_7 =>
    show some { s with csr := { s.csr with sepc := s.csr.sepc &&& _ } } = _
    rw [even_clear_one (heven (by decide))]
  case h_14 =>
    show some { s with csr := { s.csr with medeleg := s.csr.medeleg &&& _ } } = _
    rw [h.medeleg]
  case h_15 =>
    show some { s with csr := { s.csr with mideleg := s.csr.mideleg &&& _ } } = _
    rw [h.mideleg]
  case h_18 =>
    show some { s with csr := { s.csr with mcounteren := s.csr.mcounteren &&& _ } } = _
    rw [h.mcounteren]
  case h_22 =>
    show some { s with csr := { s.csr with mepc := s.csr.mepc &&& _ } } = _
    rw [even_clear_one (heven (by decide))]
  all_goals rfl

/-- What can be written can be read. -/
theorem csrValue_of_written {s s' : Cpu c} {csr : BitVec 16} {w : Word c}
    (hw : csrWritten s csr w = some s') (s1 : Cpu c) (mtime : BitVec 64) :
    ∃ v, csrValue s1 mtime csr = some v := by
  unfold csrWritten at hw
  split at hw
  case h_18 =>
    split at hw
    · cases hw
    · rename_i hrv
      refine ⟨s1.csr.mstatush, ?_⟩
      show (if c.isRv64 then none else _) = _
      rw [if_neg hrv]
  case h_23 => cases hw
  all_goals exact ⟨_, rfl⟩

theorem written_known {s s' : Cpu c} {csr : BitVec 16} {w : Word c}
    (hw : csrWritten s csr w = some s') : csr ∉ readOnlyByCode := by
  intro hmem
  simp only [readOnlyByCode, List.mem_cons, List.not_mem_nil, or_false] at hmem
  rcases hmem with rfl | rfl | rfl <;> cases hw

/-- A written `epc` register reads even. -/
theorem written_epc_even {s s' : Cpu c} {csr : BitVec 16} {w : Word c}
    (hw : csrWritten s csr w = some s') (hepc : csr ∈ epcCsrs) {mtime : BitVec 64} {v : Word c}
    (hv : csrValue s' mtime csr = some v) : IsEven v := by
  have hone : (1#c.xlen).getLsbD 0 = true := by cases c <;> decide
  simp only [epcCsrs, List.mem_cons, List.not_mem_nil, or_false] at hepc
  rcases hepc with rfl | rfl
  · obtain rfl := Option.some.inj hw
    obtain rfl := Option.some.inj hv
    exact IsEven.clear w hone
  · obtain rfl := Option.some.inj hw
    obtain rfl := Option.some.inj hv
    exact IsEven.clear w hone

/-! ## Exactness -/

/-- Nothing but the irq hint and WFI changed. -/
def SameButHints (s s' : Cpu c) : Prop := s' = { s with irq := s'.irq, wfi := s'.wfi }

/-- The CSR keeps what is written back to it: the value `v` it had, and whatever it made of a value
that was written before. -/
structure SavesAndRestores (s : Cpu c) (mtime : BitVec 64) (csr : BitVec 16) (v : Word c) :
    Prop where
  restore : SameButHints s (writeCSR s csr v)
  again : ∀ w,
    let s1 := writeCSR s csr w
    let r := readCSR s1 mtime csr
    writeCSR r.1 csr r.2 = s1

section

variable {s : Cpu c} (ht : s.trap = false) {csr : BitVec 16}
include ht

/-- A read that is accepted. -/
theorem readCSR_accepted {mtime : BitVec 64} {v : Word c} (hr : readCSR s mtime csr = (s, v)) :
    ¬ s.mode < csrPrivMode csr ∧ csrValue s mtime csr = some v := by
  have hne : ∀ x : Word c, (trap s .instIll, x) ≠ (s, v) := by
    intro x he
    have htrap := congrArg (fun p => p.1.trap) he
    rw [ht] at htrap
    cases htrap
  unfold readCSR at hr
  rw [if_neg (by rw [ht]; decide)] at hr
  split at hr
  · exact absurd hr (hne _)
  · rename_i hmode
    refine ⟨hmode, ?_⟩
    split at hr
    · rename_i hv
      rw [hv]
      exact congrArg (fun p => some p.2) hr
    · exact absurd hr (hne _)

theorem readCSR_of_value (hmode : ¬ s.mode < csrPrivMode csr) {mtime : BitVec 64} {v : Word c}
    (hv : csrValue s mtime csr = some v) : readCSR s mtime csr = (s, v) := by
  simp only [readCSR, ht, Bool.false_eq_true, if_false, if_neg hmode, hv]

theorem writeCSR_of_written (hmode : ¬ s.mode < csrPrivMode csr) {w : Word c} {s' : Cpu c}
    (hw : csrWritten s csr w = some s') : writeCSR s csr w = s' := by
  simp only [writeCSR, ht, Bool.false_eq_true, if_false, if_neg hmode, hw]

theorem writeCSR_of_unknown (hmode : ¬ s.mode < csrPrivMode csr) {w : Word c}
    (hw : csrWritten s csr w = none) : writeCSR s csr w = trap s .instIll := by
  simp only [writeCSR, ht, Bool.false_eq_true, if_false, if_neg hmode, hw]

/-- Writing, reading and writing back. -/
theorem write_read_write (h : CsrWf s) (hmode : ¬ s.mode < csrPrivMode csr)
    (hro : csr.extractLsb' 10 2 ≠ 3#2) (mtime : BitVec 64) (w : Word c) :
    writeCSR (readCSR (writeCSR s csr w) mtime csr).1 csr
      (readCSR (writeCSR s csr w) mtime csr).2 = writeCSR s csr w := by
  cases hw : csrWritten s csr w with
  | none =>
      -- the trap is latched, and nothing happens from there on
      rw [writeCSR_of_unknown ht hmode hw]
      rfl
  | some s1 =>
      have ht1 : s1.trap = false := (csrWritten_trap hw).trans ht
      have hmode1 : ¬ s1.mode < csrPrivMode csr := by
        rw [csrWritten_mode hw]
        exact hmode
      obtain ⟨v, hv⟩ := csrValue_of_written hw s1 mtime
      have hback := csrWritten_back (h.csrWritten hw) hv hro (written_known hw)
        fun hepc => written_epc_even hw hepc hv
      rw [writeCSR_of_written ht hmode hw, readCSR_of_value ht1 hmode1 hv]
      exact writeCSR_of_written ht1 hmode1 hback

/-- Saving and restoring, in a state with legal CSRs. -/
theorem savesAndRestores_iff (h : CsrWf s) (hro : csr.extractLsb' 10 2 ≠ 3#2) {mtime : BitVec 64}
    {v : Word c} (hr : readCSR s mtime csr = (s, v)) :
    SavesAndRestores s mtime csr v ↔ csr ∉ readOnlyByCode ∧ (csr ∈ epcCsrs → IsEven v) := by
  obtain ⟨hmode, hv⟩ := readCSR_accepted ht hr
  have hone : (1#c.xlen).getLsbD 0 = true := by cases c <;> decide
  constructor
  · rintro ⟨hrestore, -⟩
    refine ⟨?_, ?_⟩
    · -- a number that is not written ends in a trap
      intro hmem
      have hw : csrWritten s csr v = none := by
        simp only [readOnlyByCode, List.mem_cons, List.not_mem_nil, or_false] at hmem
        rcases hmem with rfl | rfl | rfl <;> rfl
      rw [writeCSR_of_unknown ht hmode hw] at hrestore
      have htrap := congrArg Cpu.trap hrestore
      rw [show _ = s.trap from rfl, ht] at htrap
      cases htrap
    · -- what is stored has bit 0 clear, and it is `v`
      intro hepc
      simp only [epcCsrs, List.mem_cons, List.not_mem_nil, or_false] at hepc
      rcases hepc with rfl | rfl
      · obtain rfl := Option.some.inj hv
        rw [writeCSR_of_written ht hmode rfl] at hrestore
        have hsepc : s.csr.sepc &&& ~~~1#_ = s.csr.sepc := congrArg (fun t => t.csr.sepc) hrestore
        rw [← hsepc]
        exact IsEven.clear _ hone
      · obtain rfl := Option.some.inj hv
        rw [writeCSR_of_written ht hmode rfl] at hrestore
        have hmepc : s.csr.mepc &&& ~~~1#_ = s.csr.mepc := congrArg (fun t => t.csr.mepc) hrestore
        rw [← hmepc]
        exact IsEven.clear _ hone
  · rintro ⟨hknown, heven⟩
    refine ⟨?_, write_read_write ht h hmode hro mtime⟩
    rw [writeCSR_of_written ht hmode (csrWritten_back h hv hro hknown heven)]
    rfl

end

/-- `li t0, 0x80`, `csrs mie, t0`. -/
def mieGuest : Memory :=
  ⟨fun i => [0x93#8, 0x02#8, 0x00#8, 0x08#8, 0x73#8, 0xA0#8, 0x42#8, 0x30#8].getD i 0#8⟩

/-- The machine of `main` without the built-in SBI. -/
def bareMachine : Machine .rv64 :=
  vmStart (mainBus .rv64 0x2000000) mieGuest true 0x80000000#64 0#64

end RV640
