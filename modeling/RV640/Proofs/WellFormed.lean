import RV640.Lib.Fields
import RV640.Lib.Masks
import RV640.Proofs.Calls
import RV640.Proofs.SbiFrame
import RV640.Proofs.TrapLevels

set_option autoImplicit false

/-! # Well-formed architectural state

The CSRs are written through masks, the PC through helpers that subtract an instruction size the run
loop adds again. This file collects what all of them keep: `x0` is 0, the PC and the two `epc`
registers are even, the modes are among U, S and M, and the bits without a function are 0.
-/

namespace RV640

open Bits Relation

variable {c : Cfg}

/-! ## The fixed bits of `mstatus` -/

/-- The bits of `mstatus` that `MSTATUS_WR_VAL` overrides. -/
def mstatusFixedMask : Word c :=
  mstatusWpriMask ||| mstatusUbeMask ||| mstatusSbeMask ||| mstatusMbeMask ||| mstatusVsMask
    ||| mstatusFsMask ||| mstatusXsMask ||| mstatusSdMask ||| mstatusUxlMask ||| mstatusSxlMask

/-- Their value. On RV32 the two fields lie outside the word. -/
def mstatusFixed : Word c := mstatusUxl64 ||| mstatusSxl64

theorem mstatusWrVal_eq (val : Word c) :
    mstatusWrVal val = val &&& ~~~mstatusFixedMask ||| mstatusFixed := by
  cases c with
  | rv32 =>
      have hmask : (mstatusFixedMask : Word .rv32)
          = mstatusWpriMask ||| mstatusUbeMask ||| mstatusVsMask ||| mstatusFsMask
            ||| mstatusXsMask ||| mstatusSdMask := by decide
      have hval : (mstatusFixed : Word .rv32) = 0#32 := by decide
      rw [hmask, hval, BitVec.or_zero]
      rfl
  | rv64 => exact BitVec.or_assoc ..
  | rv64Addr32 => exact BitVec.or_assoc ..

/-- The MPP field is the mode it names. -/
theorem mstatusMpp_get (x : Word c) : mstatusMpp (mstatusGetMpp x) = x &&& mstatusMppMask := by
  have hfield : x &&& mstatusMppMask = place (x.extractLsb' 11 2) 11 := by
    have h := ushiftRight_and x mstatusMppMask 0 2 11 (by cases c <;> decide)
    rwa [BitVec.ushiftRight_zero] at h
  have hall : ∀ b : BitVec 2, (mstatusMpp (PrivMode.ofBits b) : Word c) = place b 11 := by
    cases c <;> decide
  rw [mstatusGetMpp_eq, hfield, hall]

/-- The word has the fixed bits, and a mode in MPP. -/
structure MstatusWf (x : Word c) : Prop where
  fixed : x &&& mstatusFixedMask = mstatusFixed
  mpp : mstatusGetMpp x ≠ .reserved

namespace MstatusWf

variable {x : Word c}

/-- An update that touches neither the fixed bits nor MPP. -/
theorem update (h : MstatusWf x) {a b : Word c}
    (ha : a &&& (mstatusFixedMask ||| mstatusMppMask) = 0#_)
    (hb : b &&& (mstatusFixedMask ||| mstatusMppMask) = 0#_) : MstatusWf (x &&& ~~~a ||| b) := by
  have hkeep := update_and x ha hb
  have hsub : ∀ sub : Word c, (mstatusFixedMask ||| mstatusMppMask) &&& sub = sub →
      (x &&& ~~~a ||| b) &&& sub = x &&& sub := by
    intro sub hs
    rw [and_eq_of_and_eq hkeep hs, BitVec.and_assoc, hs]
  refine ⟨?_, ?_⟩
  · rw [hsub _ (by cases c <;> decide)]
    exact h.fixed
  · rw [mstatusGetMpp_congr (hsub _ (by cases c <;> decide))]
    exact h.mpp

theorem clear (h : MstatusWf x) {a : Word c}
    (ha : a &&& (mstatusFixedMask ||| mstatusMppMask) = 0#_) : MstatusWf (x &&& ~~~a) := by
  have h' := h.update ha (BitVec.zero_and : 0#_ &&& (mstatusFixedMask ||| mstatusMppMask) = 0#_)
  rwa [BitVec.or_zero] at h'

/-- A mode in MPP, the rest as it was. -/
theorem setMpp (h : x &&& mstatusFixedMask = mstatusFixed) {p : PrivMode} (hp : p ≠ .reserved) :
    MstatusWf (x &&& ~~~mstatusMppMask ||| mstatusMpp p) := by
  have hset : (mstatusMpp p : Word c) &&& mstatusFixedMask = 0#_ := by
    cases c <;> cases p <;> decide
  have hmpp : (mstatusMppMask : Word c) &&& mstatusFixedMask = 0#_ := by cases c <;> decide
  refine ⟨?_, ?_⟩
  · rw [update_and _ hmpp hset, h]
  · rw [mstatusGetMpp_set]
    exact hp

/-- The word of `_writeMstatus`. -/
theorem written (val : Word c) {p : PrivMode} (hp : p ≠ .reserved) :
    MstatusWf (mstatusWrVal val &&& ~~~mstatusMppMask ||| mstatusMpp p) := by
  have hfixed : (mstatusFixed : Word c) &&& mstatusFixedMask = mstatusFixed := by
    cases c <;> decide
  refine setMpp ?_ hp
  rw [mstatusWrVal_eq, replace_and, hfixed]

/-- `MSTATUS_WR_VAL` has nothing to fix. -/
theorem wrVal (h : MstatusWf x) : mstatusWrVal x = x :=
  calc mstatusWrVal x = x &&& ~~~mstatusFixedMask ||| mstatusFixed := mstatusWrVal_eq x
    _ = x &&& ~~~mstatusFixedMask ||| x &&& mstatusFixedMask := by rw [h.fixed]
    _ = x := clear_or_self x mstatusFixedMask

/-- The mode that `_writeMstatus` keeps. -/
theorem legal (h : MstatusWf x) :
    (if mstatusGetMpp x ≠ .user && mstatusGetMpp x ≠ .supervisor then PrivMode.machine
      else mstatusGetMpp x) = mstatusGetMpp x := by
  have hne := h.mpp
  revert hne
  cases mstatusGetMpp x <;> decide

end MstatusWf

theorem writeMstatus_csr (s : Cpu c) (val : Word c) : (writeMstatus s val).csr =
    { s.csr with mstatus := (writeMstatus s val).csr.mstatus } := by
  simp only [writeMstatus]
  split <;> rfl

/-- `_writeMstatus` writes a mode to MPP, whatever it is given. -/
theorem writeMstatus_mstatusWf (s : Cpu c) (val : Word c) :
    MstatusWf (writeMstatus s val).csr.mstatus := by
  have hmpp : (if mstatusGetMpp val ≠ .user && mstatusGetMpp val ≠ .supervisor then
      PrivMode.machine else mstatusGetMpp val) ≠ .reserved := by
    cases mstatusGetMpp val <;> decide
  exact MstatusWf.written val hmpp

/-- A well-formed word is written as it is. -/
theorem writeMstatus_self (s : Cpu c) {x : Word c} (h : MstatusWf x) :
    (writeMstatus s x).csr.mstatus = x := by
  simp only [writeMstatus, h.legal, h.wrVal]
  rw [mstatusMpp_get, clear_or_self]

/-! ## What every helper keeps -/

/-- The machine-level interrupts, which `mideleg` cannot delegate. -/
def machineIrqMask : Word c :=
  IrqCause.machineSwInt.mask ||| IrqCause.machineTmrInt.mask ||| IrqCause.machineExtInt.mask

/-- The bits MBE and SBE of `mstatush`. -/
def mstatushEndianMask : Word c := bit 4 ||| bit 5

/-- The architectural state is well formed, apart from the PC. -/
structure ArchWf (s : Cpu c) : Prop where
  x0 : s.regs 0#5 = 0#_
  mode : s.mode ≠ .reserved
  mstatus : MstatusWf s.csr.mstatus
  mstatush : s.csr.mstatush &&& mstatushEndianMask = 0#_
  mepc : IsEven s.csr.mepc
  sepc : IsEven s.csr.sepc
  mideleg : s.csr.mideleg &&& machineIrqMask = 0#_
  mie : s.csr.mie &&& ~~~mieRwMask = 0#_
  mip : s.csr.mip &&& ~~~mipRwMask = 0#_

namespace ArchWf

variable {s s' : Cpu c}

/-- The registers, the mode and the CSRs decide. -/
theorem congr (h : ArchWf s) (hregs : s'.regs = s.regs) (hmode : s'.mode = s.mode)
    (hcsr : s'.csr = s.csr) : ArchWf s' := by
  refine ⟨?_, ?_, ?_, ?_, ?_, ?_, ?_, ?_, ?_⟩
  · rw [hregs]
    exact h.x0
  · rw [hmode]
    exact h.mode
  all_goals rw [hcsr]
  · exact h.mstatus
  · exact h.mstatush
  · exact h.mepc
  · exact h.sepc
  · exact h.mideleg
  · exact h.mie
  · exact h.mip

theorem trap (h : ArchWf s) (cause : TrapCause) : ArchWf (trap s cause) := h.congr rfl rfl rfl

theorem writeReg (h : ArchWf s) (rd : Reg) (d : Word c) : ArchWf (writeReg s rd d) := by
  unfold RV640.writeReg
  split
  · exact h
  · rename_i hrd
    have hne : (0#5 : Reg) ≠ rd := by
      rintro rfl
      exact hrd rfl
    refine ⟨?_, h.mode, h.mstatus, h.mstatush, h.mepc, h.sepc, h.mideleg, h.mie, h.mip⟩
    simp only [Function.update_of_ne hne]
    exact h.x0

theorem writePC (h : ArchWf s) (d : Addr c) : ArchWf (writePC s d) := by
  unfold RV640.writePC
  split
  · exact h
  · exact h.congr rfl rfl rfl

/-- A device raises and clears interrupts that `mip` has a bit for. -/
theorem of_irqFrame {S : List IrqCause} (h : ArchWf s) (hf : IrqFrame S s s') : ArchWf s' := by
  have hmip : s'.csr.mip &&& ~~~mipRwMask = 0#_ := by
    rw [and_not_eq_zero_iff]
    intro k hk
    have hne : ∀ i ∈ S, k ≠ i.toNat := by
      rintro i - rfl
      have hall : ∀ i : IrqCause, (mipRwMask : Word c).getLsbD i.toNat = true := by
        intro i
        cases c <;> cases i <;> decide
      rw [hall i] at hk
      cases hk
    rw [hf.mip k hne]
    exact (and_not_eq_zero_iff _ _).mp h.mip k hk
  have hrest := hf.rest
  generalize s'.csr.mip = mip at hmip hrest
  rw [hrest]
  exact ⟨h.x0, h.mode, h.mstatus, h.mstatush, h.mepc, h.sepc, h.mideleg, h.mie, hmip⟩

/-! ### CSR writes -/

theorem writeMstatus (h : ArchWf s) (val : Word c) : ArchWf (writeMstatus s val) := by
  have hwf := writeMstatus_mstatusWf s val
  rw [writeMstatus_rest, writeMstatus_csr]
  exact ⟨h.x0, h.mode, hwf, h.mstatush, h.mepc, h.sepc, h.mideleg, h.mie, h.mip⟩

theorem writeMie (h : ArchWf s) (val : Word c) : ArchWf (writeMie s val) := by
  have hmie := merge_and_not val h.mie
  simp only [RV640.writeMie]
  split
  · exact ⟨h.x0, h.mode, h.mstatus, h.mstatush, h.mepc, h.sepc, h.mideleg, hmie, h.mip⟩
  · exact ⟨h.x0, h.mode, h.mstatus, h.mstatush, h.mepc, h.sepc, h.mideleg, hmie, h.mip⟩

theorem writeMip (h : ArchWf s) (val : Word c) : ArchWf (writeMip s val) := by
  have hmip := merge_and_not val h.mip
  simp only [RV640.writeMip]
  split
  · exact ⟨h.x0, h.mode, h.mstatus, h.mstatush, h.mepc, h.sepc, h.mideleg, h.mie, hmip⟩
  · exact ⟨h.x0, h.mode, h.mstatus, h.mstatush, h.mepc, h.sepc, h.mideleg, h.mie, hmip⟩

theorem csrWritten (h : ArchWf s) {csr : BitVec 16} {val : Word c}
    (hw : csrWritten s csr val = some s') : ArchWf s' := by
  have hone : (1#c.xlen).getLsbD 0 = true := by cases c <;> decide
  unfold RV640.csrWritten at hw
  split at hw
  -- the S-level CSRs
  · exact Option.some.inj hw ▸ h.writeMstatus _
  · exact Option.some.inj hw ▸ h.writeMie _
  · obtain rfl := Option.some.inj hw
    exact ⟨h.x0, h.mode, h.mstatus, h.mstatush, h.mepc, h.sepc, h.mideleg, h.mie, h.mip⟩
  · obtain rfl := Option.some.inj hw
    exact ⟨h.x0, h.mode, h.mstatus, h.mstatush, h.mepc, h.sepc, h.mideleg, h.mie, h.mip⟩
  · obtain rfl := Option.some.inj hw
    exact ⟨h.x0, h.mode, h.mstatus, h.mstatush, h.mepc, h.sepc, h.mideleg, h.mie, h.mip⟩
  · obtain rfl := Option.some.inj hw
    exact ⟨h.x0, h.mode, h.mstatus, h.mstatush, h.mepc, h.sepc, h.mideleg, h.mie, h.mip⟩
  · obtain rfl := Option.some.inj hw
    exact ⟨h.x0, h.mode, h.mstatus, h.mstatush, h.mepc, IsEven.clear val hone, h.mideleg, h.mie,
      h.mip⟩
  · obtain rfl := Option.some.inj hw
    exact ⟨h.x0, h.mode, h.mstatus, h.mstatush, h.mepc, h.sepc, h.mideleg, h.mie, h.mip⟩
  · exact Option.some.inj hw ▸ h.writeMip _
  -- the M-level CSRs
  · exact Option.some.inj hw ▸ h.writeMstatus _
  · exact Option.some.inj hw ▸ h
  · obtain rfl := Option.some.inj hw
    exact ⟨h.x0, h.mode, h.mstatus, h.mstatush, h.mepc, h.sepc, h.mideleg, h.mie, h.mip⟩
  · obtain rfl := Option.some.inj hw
    have hdeleg : (val &&& midelegRwMask) &&& machineIrqMask = 0#_ := by
      have hmask : (midelegRwMask : Word c) &&& machineIrqMask = 0#_ := by cases c <;> decide
      rw [BitVec.and_assoc, hmask, BitVec.and_zero]
    exact ⟨h.x0, h.mode, h.mstatus, h.mstatush, h.mepc, h.sepc, hdeleg, h.mie, h.mip⟩
  · exact Option.some.inj hw ▸ h.writeMie _
  · obtain rfl := Option.some.inj hw
    exact ⟨h.x0, h.mode, h.mstatus, h.mstatush, h.mepc, h.sepc, h.mideleg, h.mie, h.mip⟩
  · obtain rfl := Option.some.inj hw
    exact ⟨h.x0, h.mode, h.mstatus, h.mstatush, h.mepc, h.sepc, h.mideleg, h.mie, h.mip⟩
  · obtain rfl := Option.some.inj hw
    exact ⟨h.x0, h.mode, h.mstatus, h.mstatush, h.mepc, h.sepc, h.mideleg, h.mie, h.mip⟩
  · split at hw
    · cases hw
    · rename_i hrv
      obtain rfl := Option.some.inj hw
      have hh : (mstatushWrVal val : Word c) &&& mstatushEndianMask = 0#_ := by
        rw [mstatushWrVal, BitVec.and_assoc]
        have hmask : ~~~((0xF#c.xlen ||| bit 8 ||| (0x1F#_ <<< 11) ||| (0xFFFF#_ <<< 16)) ||| bit 4
            ||| bit 5) &&& mstatushEndianMask = 0#c.xlen := by cases c <;> decide
        rw [hmask, BitVec.and_zero]
      exact ⟨h.x0, h.mode, h.mstatus, hh, h.mepc, h.sepc, h.mideleg, h.mie, h.mip⟩
  · obtain rfl := Option.some.inj hw
    exact ⟨h.x0, h.mode, h.mstatus, h.mstatush, h.mepc, h.sepc, h.mideleg, h.mie, h.mip⟩
  · obtain rfl := Option.some.inj hw
    exact ⟨h.x0, h.mode, h.mstatus, h.mstatush, IsEven.clear val hone, h.sepc, h.mideleg, h.mie,
      h.mip⟩
  · obtain rfl := Option.some.inj hw
    exact ⟨h.x0, h.mode, h.mstatus, h.mstatush, h.mepc, h.sepc, h.mideleg, h.mie, h.mip⟩
  · exact Option.some.inj hw ▸ h.writeMip _
  · cases hw

theorem writeCSR (h : ArchWf s) (csr : BitVec 16) (val : Word c) : ArchWf (writeCSR s csr val) := by
  unfold RV640.writeCSR
  split
  · exact h
  · split
    · exact h.trap _
    · split
      · rename_i hw
        exact h.csrWritten hw
      · exact h.trap _

end ArchWf

/-! ### Returns and trap entry -/

/-- The bits an update of `mstatus` must not touch. -/
def mstatusKeptMask : Word c := mstatusFixedMask ||| mstatusMppMask

namespace MstatusWf

variable {x : Word c}

theorem restoreIe (h : MstatusWf x) (mode : PrivMode) : MstatusWf (xretRestoreIe x mode) := by
  have hie : ∀ {ie pie : Word c}, ie &&& mstatusKeptMask = 0#_ → pie &&& mstatusKeptMask = 0#_ →
      ∀ b : Bool, MstatusWf ((x &&& ~~~ie) ||| (if b then ie else 0#_) ||| pie) := by
    intro ie pie hie hpie b
    have h1 := h.update hie (ite_and_eq_zero (b = true) hie)
    have h2 := h1.update (BitVec.zero_and : 0#_ &&& mstatusKeptMask = 0#_) hpie
    rwa [BitVec.not_zero, BitVec.and_allOnes] at h2
  unfold xretRestoreIe
  split
  · exact hie (by cases c <;> decide) (by cases c <;> decide) _
  · exact hie (by cases c <;> decide) (by cases c <;> decide) _

theorem enterM (h : MstatusWf x) {mode : PrivMode} (hm : mode ≠ .reserved) :
    MstatusWf (mstatusEnterM x mode) := by
  have hboth : ((mstatusMpieMask : Word c) ||| mstatusMieMask) &&& mstatusKeptMask = 0#_ := by
    cases c <;> decide
  have hmpie : (mstatusMpieMask : Word c) &&& mstatusKeptMask = 0#_ := by cases c <;> decide
  exact setMpp (h.update hboth (ite_and_eq_zero _ hmpie)).fixed hm

theorem enterS (h : MstatusWf x) (mode : PrivMode) : MstatusWf (mstatusEnterS x mode) := by
  have hboth : ((mstatusSpieMask : Word c) ||| mstatusSieMask) &&& mstatusKeptMask = 0#_ := by
    cases c <;> decide
  have hspie : (mstatusSpieMask : Word c) &&& mstatusKeptMask = 0#_ := by cases c <;> decide
  have hspp : (mstatusSppMask : Word c) &&& mstatusKeptMask = 0#_ := by cases c <;> decide
  have hmode : (mstatusSpp mode : Word c) &&& mstatusKeptMask = 0#_ := by
    cases c <;> cases mode <;> decide
  exact (h.update hboth (ite_and_eq_zero _ hspie)).update hspp hmode

end MstatusWf

/-- A return finds a mode in `mstatus` and leaves one there. -/
theorem xret_mstatusWf {s : Cpu c} (hs : s.mode ≠ .reserved) (h : MstatusWf s.csr.mstatus)
    (mode : PrivMode) (size : Int) :
    (xret s mode size).mode ≠ .reserved ∧ MstatusWf (xret s mode size).csr.mstatus := by
  have hie := h.restoreIe mode
  -- the mode the return goes to
  have hmode : (if mode = .supervisor then mstatusGetSpp (xretRestoreIe s.csr.mstatus mode)
      else mstatusGetMpp (xretRestoreIe s.csr.mstatus mode)) ≠ .reserved := by
    split
    · rcases mstatusGetSpp_cases (xretRestoreIe s.csr.mstatus mode) with he | he
      · rw [he]
        decide
      · rw [he]
        decide
    · exact hie.mpp
  have hpp : MstatusWf
      (if mode = .supervisor then
        (xretRestoreIe s.csr.mstatus mode &&& ~~~mstatusSppMask) ||| mstatusSpp .user
       else (xretRestoreIe s.csr.mstatus mode &&& ~~~mstatusMppMask) ||| mstatusMpp .user) := by
    split
    · exact hie.update (by cases c <;> decide) (by cases c <;> decide)
    · exact MstatusWf.setMpp hie.fixed (by decide)
  have hmprv : ∀ (p : PrivMode) {x : Word c}, MstatusWf x →
      MstatusWf (if p ≤ .supervisor then x &&& ~~~mstatusMprvMask else x) := by
    intro p x hx
    split
    · exact hx.clear (by cases c <;> decide)
    · exact hx
  simp only [xret]
  split
  · exact ⟨hs, h⟩
  · split
    · exact ⟨hs, h⟩
    · rw [writePC_mode, writePC_csr]
      exact ⟨hmode, hmprv _ hpp⟩

namespace ArchWf

variable {s s' : Cpu c}

/-- SRET and MRET, whatever they find. -/
theorem xret (h : ArchWf s) (mode : PrivMode) (size : Int) : ArchWf (xret s mode size) := by
  obtain ⟨hmode, hmstatus⟩ := xret_mstatusWf h.mode h.mstatus mode size
  rw [xret_rest]
  exact ⟨h.x0, hmode, hmstatus, h.mstatush, h.mepc, h.sepc, h.mideleg, h.mie, h.mip⟩

theorem enterTrap (h : ArchWf s) (hpc : IsEven s.pc) : ArchWf (enterTrap s) := by
  have hepc : IsEven ((readPC s).setWidth c.xlen) := hpc.setWidth _
  have hmodes : PrivMode.supervisor ≠ .reserved ∧ PrivMode.machine ≠ .reserved := by decide
  unfold RV640.enterTrap
  split
  · exact ⟨h.x0, hmodes.1, h.mstatus.enterS _, h.mstatush, h.mepc, hepc, h.mideleg, h.mie, h.mip⟩
  · exact ⟨h.x0, hmodes.2, h.mstatus.enterM h.mode, h.mstatush, hepc, h.sepc, h.mideleg, h.mie,
      h.mip⟩

theorem processPendingInterrupts (h : ArchWf s) : ArchWf (processPendingInterrupts s) := by
  apply processPendingInterrupts_invariant h
  intro t i d ht
  have hlatched : ArchWf { t with
      trap := true
      trapCause := BitVec.ofNat _ i.toNat ||| cpuSignBit
      trapDelegate := d } := ht.congr rfl rfl rfl
  exact hlatched.of_irqFrame (rvClearInterrupt_frame _ i)

end ArchWf

/-! ## Instructions -/

theorem CpuMicro.archWf {w : BitVec 32} {s s' : Cpu c} (hm : CpuMicro w s s') (h : ArchWf s) :
    ArchWf s' := by
  cases hm with
  | writeReg rd d => exact h.writeReg rd d
  | writePC d => exact h.writePC d
  | fault cause _ => exact h.trap cause
  | ecall _ => exact h.trap _
  | writeCSR csr _ val => exact h.writeCSR csr val
  | sret size => exact h.xret .supervisor size
  | mret size => exact h.xret .machine size
  | wfi => exact h.congr rfl rfl rfl
  | flushIcache => exact h.congr rfl rfl rfl

theorem Micro.archWf {w : BitVec 32} {m m' : Machine c} (hm : Micro w m m') (h : ArchWf m.cpu) :
    ArchWf m'.cpu := by
  rcases hm.cpu_cases with hc | hf
  · exact hc.archWf h
  · exact h.of_irqFrame hf

theorem rvExec_archWf {m : Machine c} (h : ArchWf m.cpu) (w : BitVec 32) :
    ArchWf (rvExec m w).cpu :=
  Run.invariant_star (I := fun m : Machine c => ArchWf m.cpu) (fun _ _ hm => hm.archWf)
    (rvExec_micros m w) h

end RV640
