import RV640.Proofs.ArchState
import RV640.Proofs.TwoRuns

set_option autoImplicit false

/-! # CSRs and privilege

The S-level CSRs `sstatus`, `sie` and `sip` are views of the machine's registers through masks, and
SRET rewrites `mstatus`. Below M-mode no instruction gets past these masks, and in U-mode no
instruction changes a CSR or shows one.
-/

namespace RV640

open Bits

variable {c : Cfg}

/-! ## `mstatus` through `sstatus` -/

/-- `_writeMstatus` of words that agree inside a mask around MPP. -/
theorem writeMstatus_congr (s : Cpu c) {x y mask : Word c}
    (hmpp : mask &&& mstatusMppMask = mstatusMppMask) (h : x &&& mask = y &&& mask) :
    (writeMstatus s x).csr.mstatus &&& mask = (writeMstatus s y).csr.mstatus &&& mask := by
  have hget : mstatusGetMpp x = mstatusGetMpp y := by
    apply mstatusGetMpp_congr
    rw [and_eq_of_and_eq h hmpp, BitVec.and_assoc, hmpp]
  simp only [writeMstatus, mstatusWrVal_eq, hget]
  exact replace_congr _ _ (replace_congr _ _ h)

/-- A write of `sstatus` keeps what `sstatus` does not show. -/
theorem writeSstatus_hidden {s : Cpu c} (h : MstatusWf s.csr.mstatus) (val : Word c) :
    (writeMstatus s ((val &&& ~~~sstatusWpriMask)
        ||| (s.csr.mstatus &&& sstatusWpriMask))).csr.mstatus &&& sstatusWpriMask
      = s.csr.mstatus &&& sstatusWpriMask := by
  have hmpp : (sstatusWpriMask : Word c) &&& mstatusMppMask = mstatusMppMask := by
    cases c <;> decide
  have hagree : ((val &&& ~~~sstatusWpriMask) ||| (s.csr.mstatus &&& sstatusWpriMask))
      &&& sstatusWpriMask = s.csr.mstatus &&& sstatusWpriMask := by
    rw [replace_and, BitVec.and_assoc, BitVec.and_self]
  calc (writeMstatus s ((val &&& ~~~sstatusWpriMask)
        ||| (s.csr.mstatus &&& sstatusWpriMask))).csr.mstatus &&& sstatusWpriMask
      = (writeMstatus s s.csr.mstatus).csr.mstatus &&& sstatusWpriMask :=
        writeMstatus_congr s hmpp hagree
    _ = s.csr.mstatus &&& sstatusWpriMask := by rw [writeMstatus_self s h]

/-- What SRET makes of `mstatus`, seen where `sstatus` shows nothing. -/
theorem sretMstatus_hidden (x : Word c) :
    ((xretRestoreIe x .supervisor &&& ~~~mstatusSppMask ||| mstatusSpp .user)
        &&& ~~~mstatusMprvMask) &&& sstatusWpriMask
      = x &&& sstatusWpriMask &&& ~~~mstatusMprvMask := by
  have hie : (mstatusSieMask : Word c) &&& sstatusWpriMask = 0#_ := by cases c <;> decide
  have hpie : (mstatusSpieMask : Word c) &&& sstatusWpriMask = 0#_ := by cases c <;> decide
  have hspp : (mstatusSppMask : Word c) &&& sstatusWpriMask = 0#_ := by cases c <;> decide
  have huser : (mstatusSpp .user : Word c) &&& sstatusWpriMask = 0#_ := by cases c <;> decide
  have hrestore : xretRestoreIe x .supervisor &&& sstatusWpriMask = x &&& sstatusWpriMask := by
    rw [xretRestoreIe, if_pos rfl, BitVec.or_assoc]
    refine update_and x hie ?_
    rw [BitVec.and_or_distrib_right, ite_and_eq_zero _ hie, hpie, BitVec.or_zero]
  calc ((xretRestoreIe x .supervisor &&& ~~~mstatusSppMask ||| mstatusSpp .user)
        &&& ~~~mstatusMprvMask) &&& sstatusWpriMask
      = (xretRestoreIe x .supervisor &&& ~~~mstatusSppMask ||| mstatusSpp .user)
          &&& sstatusWpriMask &&& ~~~mstatusMprvMask := by
        rw [BitVec.and_assoc, BitVec.and_comm (~~~mstatusMprvMask), ← BitVec.and_assoc]
    _ = x &&& sstatusWpriMask &&& ~~~mstatusMprvMask := by
        rw [update_and _ hspp huser, hrestore]

/-! ## What stays -/

/-- The word is SRET. -/
def isSret (w : BitVec 32) : Prop := Call.IsSystem w 0#3 0x102#32

/-- Between `a` and `b` an instruction `w` below M-mode was executed. -/
structure MachineCsrs (w : BitVec 32) (a b : Csr c) : Prop where
  mtvec : b.mtvec = a.mtvec
  mscratch : b.mscratch = a.mscratch
  mepc : b.mepc = a.mepc
  mcause : b.mcause = a.mcause
  mtval : b.mtval = a.mtval
  medeleg : b.medeleg = a.medeleg
  mideleg : b.mideleg = a.mideleg
  mcounteren : b.mcounteren = a.mcounteren
  menvcfg : b.menvcfg = a.menvcfg
  mhartid : b.mhartid = a.mhartid
  mstatush : b.mstatush = a.mstatush
  mie : b.mie &&& machineIrqMask = a.mie &&& machineIrqMask
  mstatus : b.mstatus &&& sstatusWpriMask = a.mstatus &&& sstatusWpriMask
    ∨ isSret w
      ∧ b.mstatus &&& sstatusWpriMask = a.mstatus &&& sstatusWpriMask &&& ~~~mstatusMprvMask

namespace MachineCsrs

variable {w : BitVec 32} {a b : Csr c}

protected theorem refl (a : Csr c) : MachineCsrs w a a :=
  ⟨rfl, rfl, rfl, rfl, rfl, rfl, rfl, rfl, rfl, rfl, rfl, rfl, Or.inl rfl⟩

theorem of_device (h : DeviceCsr a b) : MachineCsrs w a b := by
  rw [h.rest]
  exact ⟨rfl, rfl, rfl, rfl, rfl, rfl, rfl, rfl, rfl, rfl, rfl, rfl, Or.inl rfl⟩

end MachineCsrs

/-! ## CSR instructions -/

/-- A write of `sie` changes no machine-level interrupt. -/
theorem writeSie_hidden (s : Cpu c) (val : Word c) :
    (writeMie s ((val &&& (s.csr.mideleg &&& sieRwMask))
        ||| (s.csr.mie &&& ~~~(s.csr.mideleg &&& sieRwMask)))).csr.mie &&& machineIrqMask
      = s.csr.mie &&& machineIrqMask := by
  have hsie : (sieRwMask : Word c) &&& machineIrqMask = 0#_ := by cases c <;> decide
  have hmask : (s.csr.mideleg &&& sieRwMask) &&& machineIrqMask = 0#_ := by
    rw [BitVec.and_assoc, hsie, BitVec.and_zero]
  have hval : (val &&& (s.csr.mideleg &&& sieRwMask)) &&& machineIrqMask = 0#_ := by
    rw [BitVec.and_assoc, hmask, BitVec.and_zero]
  rw [writeMie_mie]
  apply merge_and
  rw [BitVec.or_comm]
  exact update_and _ hmask hval

/-- A write from below M-mode. -/
theorem csrWritten_machineCsrs {s t : Cpu c} {csr : BitVec 16} {val : Word c} (w : BitVec 32)
    (h : ArchWf s) (hmode : s.mode < .machine) (hpriv : ¬s.mode < csrPrivMode csr)
    (hw : csrWritten s csr val = some t) : MachineCsrs w s.csr t.csr := by
  have hsel : ∀ (p : Prop) [Decidable p] (u : Cpu c),
      (if p then pendingIRQ u else u).csr = u.csr := by
    intro p _ u
    split <;> rfl
  unfold csrWritten at hw
  split at hw
  -- the S-level CSRs
  · obtain rfl := Option.some.inj hw
    have hms := writeSstatus_hidden h.mstatus val
    generalize (val &&& ~~~sstatusWpriMask) ||| (s.csr.mstatus &&& sstatusWpriMask) = v at hms ⊢
    simp only [writeMstatus, hsel] at hms ⊢
    exact ⟨rfl, rfl, rfl, rfl, rfl, rfl, rfl, rfl, rfl, rfl, rfl, rfl, Or.inl hms⟩
  · obtain rfl := Option.some.inj hw
    have hmie := writeSie_hidden s val
    generalize (val &&& (s.csr.mideleg &&& sieRwMask))
      ||| (s.csr.mie &&& ~~~(s.csr.mideleg &&& sieRwMask)) = v at hmie ⊢
    simp only [writeMie, hsel] at hmie ⊢
    exact ⟨rfl, rfl, rfl, rfl, rfl, rfl, rfl, rfl, rfl, rfl, rfl, hmie, Or.inl rfl⟩
  case h_9 =>
    obtain rfl := Option.some.inj hw
    simp only [writeMip, hsel]
    exact ⟨rfl, rfl, rfl, rfl, rfl, rfl, rfl, rfl, rfl, rfl, rfl, rfl, Or.inl rfl⟩
  case h_3 | h_4 | h_5 | h_6 | h_7 | h_8 =>
    obtain rfl := Option.some.inj hw
    exact ⟨rfl, rfl, rfl, rfl, rfl, rfl, rfl, rfl, rfl, rfl, rfl, rfl, Or.inl rfl⟩
  -- the M-level CSRs are out of reach, and the rest does not exist
  all_goals first
    | exact absurd hmode hpriv
    | cases hw

/-- No CSR that is written belongs to U-mode. -/
theorem csrWritten_level {s t : Cpu c} {csr : BitVec 16} {val : Word c}
    (h : csrWritten s csr val = some t) : csrPrivMode csr ≠ .user := by
  unfold csrWritten at h
  split at h
  all_goals first
    | decide
    | cases h

/-- The counter-enable bits, one for each counter. -/
def counterMasks : List (Word c) := [counterenCyMask, counterenTmMask, counterenIrMask]

/-- A counter and the value it shows, for the CSRs of U-mode. -/
def userCsr (c : Cfg) (mtime : BitVec 64) (csr : BitVec 16) : Option (Word c × Word c) :=
  match csr with
  | 0xC00#16 => some (counterenCyMask, 0#_)
  | 0xC01#16 => some (counterenTmMask, mtime.setWidth _)
  | 0xC02#16 => some (counterenIrMask, 0#_)
  | 0xC80#16 => if c.isRv64 then none else some (counterenCyMask, 0#_)
  | 0xC81#16 => if c.isRv64 then none else some (counterenTmMask, (mtime >>> 32).setWidth _)
  | 0xC82#16 => if c.isRv64 then none else some (counterenIrMask, 0#_)
  | _ => none

theorem userCsr_mask {mtime : BitVec 64} {csr : BitVec 16} {p : Word c × Word c}
    (h : userCsr c mtime csr = some p) : p.1 ∈ counterMasks := by
  unfold userCsr at h
  split at h
  case h_1 | h_2 | h_3 =>
    obtain rfl := Option.some.inj h
    simp [counterMasks]
  case h_7 => cases h
  all_goals
    split at h
    · cases h
    · obtain rfl := Option.some.inj h
      simp [counterMasks]

/-- A CSR of U-mode shows a counter, after its counter-enable check, and nothing of the CSRs. -/
theorem csrValue_user (s : Cpu c) (mtime : BitVec 64) {csr : BitVec 16}
    (h : csrPrivMode csr = .user) :
    csrValue s mtime csr = (userCsr c mtime csr).bind
      fun p => if checkPrfCounterAccess s p.1 then some p.2 else none := by
  unfold csrValue userCsr
  split
  case h_36 => split <;> first | rfl | contradiction
  all_goals first
    | rfl
    | exact absurd h (by decide)
    | (split <;> rfl)

/-- The six CSR instructions: read, perhaps write what `write` makes of the old value, perhaps write
`rd`. -/
def csrOp (s : Cpu c) (mtime : BitVec 64) (csr : BitVec 16) (write : Option (Word c → Word c))
    (toReg : Bool) (rd : Reg) : Cpu c :=
  let (t, old) := readCSR s mtime csr
  let t :=
    match write with
    | some f => writeCSR t csr (f old)
    | none => t
  if toReg then writeReg t rd old else t

/-- A SYSTEM instruction that is not of the first group is the same CSR instruction from both
states, or illegal. -/
theorem doSYSTEM_csrOp {s s' : Cpu c} (hregs : s'.regs = s.regs) {funct3 : BitVec 3}
    (hf : funct3 ≠ 0#3) (mtime : BitVec 64) (iimm : BitVec 32) (rd rs1 : Reg) (size : Int) :
    (∃ write toReg,
        doSYSTEM s mtime funct3 iimm rd rs1 size
          = csrOp s mtime (iimm.setWidth 16) write toReg rd
        ∧ doSYSTEM s' mtime funct3 iimm rd rs1 size
          = csrOp s' mtime (iimm.setWidth 16) write toReg rd)
      ∨ doSYSTEM s mtime funct3 iimm rd rs1 size = doILL s := by
  have hread : readReg s' rs1 = readReg s rs1 := congrFun hregs rs1
  -- CSRRS, CSRRC and their immediate forms write when their source field is not 0
  have hopt : ∀ f : Word c → Word c, ∃ write : Option (Word c → Word c), ∀ u : Cpu c,
      (if rs1 ≠ 0#5 then
          writeCSR (readCSR u mtime (iimm.setWidth 16)).1 (iimm.setWidth 16)
            (f (readCSR u mtime (iimm.setWidth 16)).2)
        else (readCSR u mtime (iimm.setWidth 16)).1)
      = match write with
        | some f => writeCSR (readCSR u mtime (iimm.setWidth 16)).1 (iimm.setWidth 16)
            (f (readCSR u mtime (iimm.setWidth 16)).2)
        | none => (readCSR u mtime (iimm.setWidth 16)).1 := by
    intro f
    by_cases hrs : rs1 = 0#5
    · exact ⟨none, fun u => if_neg (not_not.mpr hrs)⟩
    · exact ⟨some f, fun u => if_pos hrs⟩
  have hbit : ∀ (x : BitVec 3), x = 0#3 ∨ x = 1#3 ∨ x = 2#3 ∨ x = 3#3 ∨ x = 4#3 ∨ x = 5#3
      ∨ x = 6#3 ∨ x = 7#3 := by decide
  rcases hbit funct3 with rfl | rfl | rfl | rfl | rfl | rfl | rfl | rfl
  · exact absurd rfl hf
  · refine Or.inl ⟨some fun _ => readReg s rs1, decide (rd ≠ 0#5), ?_, ?_⟩
    · simp only [doSYSTEM, csrOp, decide_eq_true_eq]
    · simp only [doSYSTEM, csrOp, decide_eq_true_eq, hread]
  · obtain ⟨write, hwrite⟩ := hopt fun old => old ||| readReg s rs1
    refine Or.inl ⟨write, true, ?_, ?_⟩
    · simp only [doSYSTEM, csrOp, hwrite, if_true]
    · simp only [doSYSTEM, csrOp, hread, hwrite, if_true]
  · obtain ⟨write, hwrite⟩ := hopt fun old => old &&& ~~~readReg s rs1
    refine Or.inl ⟨write, true, ?_, ?_⟩
    · simp only [doSYSTEM, csrOp, hwrite, if_true]
    · simp only [doSYSTEM, csrOp, hread, hwrite, if_true]
  · exact Or.inr rfl
  · refine Or.inl ⟨some fun _ => rs1.setWidth _, decide (rd ≠ 0#5), ?_, ?_⟩
    · simp only [doSYSTEM, csrOp, decide_eq_true_eq]
    · simp only [doSYSTEM, csrOp, decide_eq_true_eq]
  · obtain ⟨write, hwrite⟩ := hopt fun old => old ||| rs1.setWidth _
    refine Or.inl ⟨write, true, ?_, ?_⟩
    · simp only [doSYSTEM, csrOp, hwrite, if_true]
    · simp only [doSYSTEM, csrOp, hwrite, if_true]
  · obtain ⟨write, hwrite⟩ := hopt fun old => old &&& ~~~(rs1.setWidth _)
    refine Or.inl ⟨write, true, ?_, ?_⟩
    · simp only [doSYSTEM, csrOp, hwrite, if_true]
    · simp only [doSYSTEM, csrOp, hwrite, if_true]

theorem readCSR_completed {s : Cpu c} {mtime : BitVec 64} {csr : BitVec 16}
    (h : (readCSR s mtime csr).1.trap = false) :
    ¬s.mode < csrPrivMode csr ∧ ∃ old, csrValue s mtime csr = some old
      ∧ readCSR s mtime csr = (s, old) ∧ s.trap = false := by
  unfold readCSR at h ⊢
  split at h
  · rename_i ht
    exact absurd (ht.symm.trans h) (by decide)
  · rename_i ht
    rw [if_neg ht]
    split at h
    · cases h
    · rename_i hpriv
      rw [if_neg hpriv]
      cases hv : csrValue s mtime csr with
      | none =>
          rw [hv] at h
          cases h
      | some old => exact ⟨hpriv, old, rfl, rfl, Bool.eq_false_iff.mpr ht⟩

theorem writeCSR_completed {s : Cpu c} {csr : BitVec 16} {val : Word c}
    (h : (writeCSR s csr val).trap = false) :
    s.trap = false ∧ ∃ t, csrWritten s csr val = some t ∧ writeCSR s csr val = t := by
  unfold writeCSR at h ⊢
  split at h
  · rename_i ht
    exact absurd (ht.symm.trans h) (by decide)
  · rename_i ht
    rw [if_neg ht]
    split at h
    · cases h
    · rename_i hpriv
      rw [if_neg hpriv]
      cases hw : csrWritten s csr val with
      | none =>
          rw [hw] at h
          cases h
      | some t => exact ⟨Bool.eq_false_iff.mpr ht, t, rfl, rfl⟩

/-- A CSR instruction that completes had the privilege, and what it did. -/
theorem csrOp_completed {s : Cpu c} {mtime : BitVec 64} {csr : BitVec 16}
    {write : Option (Word c → Word c)} {toReg : Bool} {rd : Reg}
    (h : (csrOp s mtime csr write toReg rd).trap = false) :
    ¬s.mode < csrPrivMode csr ∧ ∃ old t, csrValue s mtime csr = some old
      ∧ (write = none ∧ t = s ∨ ∃ val, csrWritten s csr val = some t)
      ∧ csrOp s mtime csr write toReg rd = (if toReg then writeReg t rd old else t)
      ∧ s.trap = false := by
  have hend : ∀ {t : Cpu c} {old : Word c},
      (if toReg then writeReg t rd old else t).trap = false → t.trap = false := by
    intro t old ht
    split at ht
    · rwa [writeReg_trap] at ht
    · exact ht
  simp only [csrOp] at h ⊢
  have hstep := hend h
  cases write with
  | none =>
      obtain ⟨hpriv, old, hv, hr, ht⟩ := readCSR_completed hstep
      rw [hr]
      exact ⟨hpriv, old, s, hv, Or.inl ⟨rfl, rfl⟩, rfl, ht⟩
  | some f =>
      simp only at hstep ⊢
      obtain ⟨hread, t, hw, he⟩ := writeCSR_completed hstep
      obtain ⟨hpriv, old, hv, hr, ht⟩ := readCSR_completed hread
      rw [he]
      rw [hr] at hw ⊢
      exact ⟨hpriv, old, t, hv, Or.inr ⟨_, hw⟩, rfl, ht⟩

/-! ## SYSTEM instructions -/

/-- A completed SRET. -/
theorem sret_machineCsrs {s : Cpu c} {w : BitVec 32} {size : Int} (hw : isSret w)
    (h : (xret s .supervisor size).trap = false) :
    MachineCsrs w s.csr (xret s .supervisor size).csr := by
  have hle : mstatusGetSpp (xretRestoreIe s.csr.mstatus .supervisor) ≤ .supervisor := by
    rcases mstatusGetSpp_cases (xretRestoreIe s.csr.mstatus .supervisor) with he | he
    · rw [he]
      decide
    · rw [he]
      decide
  simp only [xret] at h ⊢
  split at h
  · cases h
  · rename_i hlow
    split at h
    · cases h
    · rename_i htsr
      rw [if_neg hlow, if_neg htsr, writePC_csr]
      simp only [if_true, if_pos hle]
      exact ⟨rfl, rfl, rfl, rfl, rfl, rfl, rfl, rfl, rfl, rfl, rfl, rfl,
        Or.inr ⟨hw, sretMstatus_hidden s.csr.mstatus⟩⟩

theorem doSYSTEM_machineCsrs {s : Cpu c} {w : BitVec 32} {funct3 : BitVec 3} {iimm : BitVec 32}
    (hs : ArchWf s) (hmode : s.mode < .machine)
    (hw : Call.IsSystem w funct3 iimm ∨ funct3 = 0#3 ∧ iimm = 1#32) (mtime : BitVec 64)
    (rd rs1 : Reg) (size : Int) (h : (doSYSTEM s mtime funct3 iimm rd rs1 size).trap = false) :
    MachineCsrs w s.csr (doSYSTEM s mtime funct3 iimm rd rs1 size).csr := by
  by_cases hf : funct3 = 0#3
  · subst hf
    simp only [doSYSTEM] at h ⊢
    split at h
    · cases h
    · cases h
    · refine sret_machineCsrs ?_ h
      rcases hw with hw | ⟨-, hne⟩
      · exact hw
      · exact absurd hne (by decide)
    · split at h
      · cases h
      · rename_i hwfi
        rw [if_neg hwfi]
        exact .refl _
    · have hne : s.mode ≠ .machine := by
        intro he
        rw [he] at hmode
        exact absurd hmode (by decide)
      rw [mret_of_ne_machine hne] at h
      cases h
    · cases h
  · rcases doSYSTEM_csrOp (rfl : s.regs = s.regs) hf mtime iimm rd rs1 size with
      ⟨write, toReg, he, -⟩ | hill
    · rw [he] at h ⊢
      obtain ⟨hpriv, old, t, -, hwrite, hend, -⟩ := csrOp_completed h
      have ht : MachineCsrs w s.csr t.csr := by
        rcases hwrite with ⟨-, rfl⟩ | ⟨val, hval⟩
        · exact .refl _
        · exact csrWritten_machineCsrs w hs hmode hpriv hval
      rw [hend]
      cases toReg with
      | false => exact ht
      | true =>
          rw [if_pos rfl, writeReg_csr]
          exact ht
    · rw [hill] at h
      cases h

/-- In U-mode the first group of SYSTEM instructions traps. -/
theorem doSYSTEM_user_zero {s : Cpu c} (hmode : s.mode = .user) (mtime : BitVec 64)
    (iimm : BitVec 32) (rd rs1 : Reg) (size : Int) :
    (doSYSTEM s mtime 0#3 iimm rd rs1 size).trap = true := by
  have hret : ∀ mode, PrivMode.user < mode → (xret s mode size).trap = true := by
    intro mode hlt
    rw [xret, hmode, if_pos hlt]
    rfl
  simp only [doSYSTEM]
  split
  · rfl
  · rfl
  · exact hret _ (by decide)
  · rw [if_pos (by simp [hmode])]
    rfl
  · exact hret _ (by decide)
  · rfl

/-- The counter-enable checks of `s` and of `s'` differ. -/
def CounterRefused (s s' : Cpu c) : Prop :=
  ∃ mask ∈ counterMasks, checkPrfCounterAccess s mask = true
    ∧ checkPrfCounterAccess s' mask = false

/-- A completed SYSTEM instruction of U-mode reads a counter. -/
theorem doSYSTEM_user {s s' : Cpu c} (h : Alike s s') (hmode : s.mode = .user)
    (hmode' : s'.mode = .user) (mtime : BitVec 64) (funct3 : BitVec 3) (iimm : BitVec 32)
    (rd rs1 : Reg) (size : Int) (hc : (doSYSTEM s mtime funct3 iimm rd rs1 size).trap = false) :
    (doSYSTEM s mtime funct3 iimm rd rs1 size).csr = s.csr
      ∧ ((doSYSTEM s' mtime funct3 iimm rd rs1 size).regs
          = (doSYSTEM s mtime funct3 iimm rd rs1 size).regs
        ∨ CounterRefused s s' ∧ (doSYSTEM s' mtime funct3 iimm rd rs1 size).trap = true) := by
  by_cases hf : funct3 = 0#3
  · subst hf
    rw [doSYSTEM_user_zero hmode] at hc
    cases hc
  · rcases doSYSTEM_csrOp h.regs hf mtime iimm rd rs1 size with ⟨write, toReg, he, he'⟩ | hill
    · rw [he] at hc
      rw [he, he']
      obtain ⟨hpriv, old, t, hv, hwrite, hend, ht⟩ := csrOp_completed hc
      have hlevel : csrPrivMode (iimm.setWidth 16) = .user := by
        rw [hmode] at hpriv
        revert hpriv
        cases csrPrivMode (iimm.setWidth 16) <;> decide
      -- no CSR of U-mode is written
      obtain ⟨rfl, rfl⟩ : write = none ∧ t = s := by
        rcases hwrite with hnone | ⟨val, hval⟩
        · exact hnone
        · exact absurd hlevel (csrWritten_level hval)
      have hpriv' : ¬s'.mode < csrPrivMode (iimm.setWidth 16) := by
        rw [hlevel, hmode']
        decide
      have ht' : ¬s'.trap = true := by
        rw [h.trap, ht]
        decide
      refine ⟨?_, ?_⟩
      · rw [hend]
        cases toReg with
        | false => rfl
        | true => exact writeReg_csr _ _ _
      · rw [csrValue_user _ _ hlevel] at hv
        rw [hend]
        simp only [csrOp, readCSR, if_neg ht', if_neg hpriv', csrValue_user s' _ hlevel]
        cases hu : userCsr c mtime (iimm.setWidth 16) with
        | none =>
            rw [hu] at hv
            cases hv
        | some p =>
            rw [hu] at hv
            simp only [Option.bind_some] at hv ⊢
            have hcheck : checkPrfCounterAccess t p.1 = true := by
              by_contra hno
              rw [if_neg hno] at hv
              cases hv
            rw [if_pos hcheck] at hv
            obtain rfl := Option.some.inj hv
            by_cases hcheck' : checkPrfCounterAccess s' p.1 = true
            · left
              rw [if_pos hcheck']
              cases toReg with
              | false => exact h.regs
              | true => exact (h.writeReg rd p.2).alike.regs
            · right
              rw [if_neg hcheck']
              refine ⟨⟨p.1, userCsr_mask hu, hcheck, Bool.eq_false_iff.mpr hcheck'⟩, ?_⟩
              cases toReg with
              | false => rfl
              | true => exact writeReg_trap _ _ _
    · rw [hill] at hc
      cases hc

/-! ## Instructions -/

/-- The machine with other CSRs. -/
def withCsr (m : Machine c) (csr : Csr c) : Machine c := { m with cpu := { m.cpu with csr := csr } }

theorem withCsr_alike (m : Machine c) (csr : Csr c) : AlikeMachines m (withCsr m csr) :=
  ⟨⟨rfl, rfl, rfl⟩, rfl, rfl, rfl, rfl, rfl⟩

@[simp] theorem advancePC_csr (m : Machine c) (size : Nat) :
    (advancePC m size).cpu.csr = m.cpu.csr := writePC_csr _ _

@[simp] theorem advancePC_regs (m : Machine c) (size : Nat) :
    (advancePC m size).cpu.regs = m.cpu.regs := writePC_regs _ _

@[simp] theorem advancePC_trap (m : Machine c) (size : Nat) :
    (advancePC m size).cpu.trap = m.cpu.trap := writePC_trap _ _

/-- What U-mode can change and see of the CSRs by an instruction `w`: the pending bits of devices,
and a counter it may read. -/
structure UserIsolated (m : Machine c) (w : BitVec 32) : Prop where
  csr : DeviceCsr m.cpu.csr (rvExec m w).cpu.csr
  regs : ∀ csr : Csr c, (rvExec (withCsr m csr) w).cpu.regs = (rvExec m w).cpu.regs
    ∨ CounterRefused m.cpu (withCsr m csr).cpu ∧ (rvExec (withCsr m csr) w).cpu.trap = true

theorem rvExec_machineCsrs {m : Machine c} (h : ArchWf m.cpu) (hmode : m.cpu.mode < .machine)
    {w : BitVec 32} (hc : (rvExec m w).cpu.trap = false) :
    MachineCsrs w m.cpu.csr (rvExec m w).cpu.csr := by
  obtain ⟨k, size, -, hk, he, -⟩ := rvExec_call m m w
  rw [he, advancePC_trap] at hc
  rw [he, advancePC_csr]
  cases hsys : k.isSystem with
  | false =>
      have halike : AlikeMachines m m := ⟨⟨rfl, rfl, rfl⟩, rfl, rfl, rfl, rfl, rfl⟩
      exact .of_device (Call.exec_sameRegs halike hsys size).csr
  | true =>
      cases k with
      | system funct3 iimm rd rs1 => exact doSYSTEM_machineCsrs h hmode hk _ rd rs1 size hc
      | _ => cases hsys

theorem rvExec_userIsolated {m : Machine c} (hmode : m.cpu.mode = .user) {w : BitVec 32}
    (hc : (rvExec m w).cpu.trap = false) : UserIsolated m w := by
  have hcall : ∀ csr : Csr c, DeviceCsr m.cpu.csr (rvExec m w).cpu.csr
      ∧ ((rvExec (withCsr m csr) w).cpu.regs = (rvExec m w).cpu.regs
        ∨ CounterRefused m.cpu (withCsr m csr).cpu
          ∧ (rvExec (withCsr m csr) w).cpu.trap = true) := by
    intro csr
    obtain ⟨k, size, -, -, he, he'⟩ := rvExec_call m (withCsr m csr) w
    rw [he, advancePC_trap] at hc
    rw [he, he', advancePC_csr, advancePC_regs, advancePC_regs, advancePC_trap]
    cases hsys : k.isSystem with
    | false =>
        have hsame := Call.exec_sameRegs (withCsr_alike m csr) hsys size
        exact ⟨hsame.csr, Or.inl hsame.regs⟩
    | true =>
        cases k with
        | system funct3 iimm rd rs1 =>
            obtain ⟨hcsr, hregs⟩ := doSYSTEM_user (withCsr_alike m csr).cpu hmode hmode
              m.aclint.mtime funct3 iimm rd rs1 size hc
            refine ⟨?_, hregs⟩
            have hkeep : (doSYSTEM m.cpu m.aclint.mtime funct3 iimm rd rs1 size).csr = m.cpu.csr :=
              hcsr
            simp only [Call.exec, hkeep]
            exact DeviceCsr.refl _
        | _ => cases hsys
  exact ⟨(hcall m.cpu.csr).1, fun csr => (hcall csr).2⟩

/-- A state that a run from `start` without a large completion reaches: between two events, or
inside `rv_run` before the instruction. -/
inductive Reached (start : Machine c) : Machine c → Prop
  | events (es : List Event) (h : SmallCompletions start es) :
      Reached start (Run.run stepEvent start es)
  | fetched (es : List Event) (h : SmallCompletions start es) :
      Reached start (rvFetch (Run.run stepEvent start es)).1

namespace Reached

variable {start m : Machine c} (h : Reached start m)
include h

theorem wellFormed (hs : Booted start) : WellFormed m.cpu := by
  cases h with
  | events es _ => exact run_wellFormed hs.wellFormed es
  | fetched es _ => exact rvFetch_wellFormed (run_wellFormed hs.wellFormed es)

theorem plicSafe (hp : start.plic = plicInit plicInterrupts) : PlicSafe m := by
  have hstart : PlicSafe start := .of_init hp
  cases h with
  | events es hes => exact hstart.run hes
  | fetched es hes => exact (rvFetch_plic _).safe (hstart.run hes)

end Reached

/-- The instruction `w` leaves what is above its mode alone: the CSRs of the machine, for U-mode all
CSRs, and the pointer through which devices reach the hart. -/
structure Isolated (m : Machine c) (w : BitVec 32) : Prop where
  inside : (rvExec m w).plic.oob = false
  mideleg : m.cpu.csr.mideleg &&& machineIrqMask = 0#_
  machine : MachineCsrs w m.cpu.csr (rvExec m w).cpu.csr
  user : m.cpu.mode = .user → UserIsolated m w

/-- **Below M-mode no instruction changes the machine's CSRs, and U-mode is cut off from all of
them,** exactly when the instruction does not complete an id from 4 on at the PLIC. -/
theorem csr_isolation_iff {start m : Machine c} (hs : Booted start)
    (hp : start.plic = plicInit plicInterrupts) (hm : Reached start m)
    (hmode : m.cpu.mode < .machine) (w : BitVec 32) (hc : (rvExec m w).cpu.trap = false) :
    Isolated m w ↔ instrCompletes m w = false := by
  have hsafe : PlicSafe m := hm.plicSafe hp
  constructor
  · -- a large completion shows in the arrays
    intro h
    have hoob := (rvExec_plic m w hsafe.small).1
    rwa [h.inside, hsafe.inside, Bool.false_or, eq_comm] at hoob
  · intro hw
    have hwf : ArchWf m.cpu := (hm.wellFormed hs).toArchWf
    exact
      { inside := (hsafe.exec hw).inside
        mideleg := hwf.mideleg
        machine := rvExec_machineCsrs hwf hmode hc
        user := fun hu => rvExec_userIsolated hu hc }

/-- A guest that lets U-mode read the counters, goes there by SRET and reads `time`. -/
def counterProgram : List (BitVec 32) :=
  [0x1063D073#32, 0x00000297#32, 0x01028293#32, 0x14129073#32, 0x10200073#32, 0xC0102373#32]

/-- A 64-bit machine of 1 MB with that guest. -/
def counterStart : Machine .rv64 :=
  sbiStart (mainBus .rv64 0x100000)
    ⟨fun i => getByte (counterProgram.getD (i / 4) 0#32) (i % 4)⟩ 0x80000000#64 0x222#64

theorem counterStart_booted : Booted counterStart := by
  have heven : IsEven (0x80000000#64 : Addr .rv64) := by
    unfold IsEven
    decide
  exact Booted.vmStart _ _ false _ heven

/-- `csrrs x5, sie, x11` in S-mode, and `csrrs x6, time, x0` in U-mode. -/
theorem csr_isolation_iff_sie :
    Isolated counterStart 0x1045A2F3#32 ∧
      (rvExec counterStart 0x1045A2F3#32).cpu.csr.mie ≠ counterStart.cpu.csr.mie ∧
      Isolated (Run.run stepEvent counterStart (List.replicate 5 .run)) 0xC0102373#32 := by
  have hstart := csr_isolation_iff counterStart_booted rfl
    (.events [] (by decide)) (by decide) 0x1045A2F3#32 (by decide)
  have huser := csr_isolation_iff counterStart_booted rfl
    (.events (List.replicate 5 .run) (by decide +kernel)) (by decide +kernel) 0xC0102373#32
    (by decide +kernel)
  exact ⟨hstart.mpr (by decide), by decide, huser.mpr (by decide +kernel)⟩

/-- The completion of id 7 in S-mode ends without a trap and clears a bit in the pointer to the
hart. -/
theorem completion_not_isolated :
    let m := Run.run stepEvent completionStart beforeCompletion
    m.cpu.mode = .supervisor ∧ (rvExec m 0x0063A223#32).cpu.trap = false
      ∧ ¬ Isolated m 0x0063A223#32 := by
  have hoob : (rvExec (Run.run stepEvent completionStart beforeCompletion)
      0x0063A223#32).plic.oob = true := by decide +kernel
  refine ⟨by decide +kernel, by decide +kernel, ?_⟩
  intro h
  have hinside := h.inside
  rw [hoob] at hinside
  cases hinside

end RV640
