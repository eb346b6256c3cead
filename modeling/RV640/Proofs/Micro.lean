import RV640.Lib.Run
import RV640.Cpu.Run

set_option autoImplicit false

/-! # What an instruction can do

Every instruction is a sequence of the same few primitive effects. An invariant that each of them
preserves is preserved by all instructions. The relation is indexed by the instruction word, since
two effects are tied to one: only an ECALL raises its exception, and only a CSR instruction writes
a CSR.
-/

namespace RV640

open Bits Relation

variable {c : Cfg}

/-- The word is an ECALL. -/
def isEcall (w : BitVec 32) : Prop :=
  w.extractLsb' 0 2 = 3#2 ∧ opcode w = 28#5 ∧ decodeFunct3 w = 0#3 ∧ decodeIimm w = 0#32

instance (w : BitVec 32) : Decidable (isEcall w) := by
  unfold isEcall
  infer_instance

/-- The word is a CSR instruction that writes `csr`: CSRRW and CSRRWI always do, the others when
their source field is not 0. -/
def WritesCsr (w : BitVec 32) (csr : BitVec 16) : Prop :=
  w.extractLsb' 0 2 = 3#2 ∧ opcode w = 28#5 ∧ csr = (decodeIimm w).setWidth 16 ∧
    (decodeFunct3 w ∈ [1#3, 5#3] ∨ decodeFunct3 w ∈ [2#3, 3#3, 6#3, 7#3] ∧ decodeRs1 w ≠ 0#5)

instance (w : BitVec 32) (csr : BitVec 16) : Decidable (WritesCsr w csr) := by
  unfold WritesCsr
  infer_instance

/-- The exceptions an instruction raises other than by ECALL. -/
def TrapCause.IsFault (cause : TrapCause) : Prop :=
  cause ≠ .callU ∧ cause ≠ .callS ∧ cause ≠ .callM ∧ cause ≠ .doubleTrap

/-- A primitive effect of instruction `w` on the hart. -/
inductive CpuMicro (w : BitVec 32) (s : Cpu c) : Cpu c → Prop
  | writeReg (rd : Reg) (d : Word c) : CpuMicro w s (writeReg s rd d)
  | writePC (d : Addr c) : CpuMicro w s (writePC s d)
  | fault (cause : TrapCause) (h : cause.IsFault) : CpuMicro w s (trap s cause)
  | ecall (h : isEcall w) : CpuMicro w s (trap s (ecallCause s.mode))
  | writeCSR (csr : BitVec 16) (h : WritesCsr w csr) (val : Word c) :
      CpuMicro w s (writeCSR s csr val)
  | sret (size : Int) : CpuMicro w s (xret s .supervisor size)
  | mret (size : Int) : CpuMicro w s (xret s .machine size)
  | wfi : CpuMicro w s { s with wfi := true }
  | flushIcache : CpuMicro w s (flushIcache s)

/-- A primitive effect of instruction `w` on the machine. -/
inductive Micro (w : BitVec 32) (m : Machine c) : Machine c → Prop
  | cpu {s : Cpu c} (h : CpuMicro w m.cpu s) : Micro w m { m with cpu := s }
  | readMem (addr : Addr c) (size : Nat) : Micro w m (readMem m addr size).1
  | writeMem (addr : Addr c) (buf : List Byte) : Micro w m (writeMem m addr buf)
  | reserve (addr : Addr c) (size : Nat) :
      Micro w m { m with bus := busReservationCreate m.bus addr size }
  | checkReserve (addr : Addr c) (size : Nat) :
      Micro w m { m with bus := (busReservationCheckInvalidate m.bus addr size).1 }

/-- Some effects of instruction `w`, one after the other. -/
abbrev Micros (w : BitVec 32) : Machine c → Machine c → Prop := ReflTransGen (Micro w)

/-! ## Effects other than WFI's -/

/-- The word is a WFI; its register fields are not decoded. -/
def isWfi (w : BitVec 32) : Prop :=
  w.extractLsb' 0 2 = 3#2 ∧ opcode w = 28#5 ∧ decodeFunct3 w = 0#3 ∧ decodeIimm w = 0x105#32

instance (w : BitVec 32) : Decidable (isWfi w) := by
  unfold isWfi
  infer_instance

/-- An effect on the hart that every instruction but WFI may have. -/
inductive CpuEffect (w : BitVec 32) (s : Cpu c) : Cpu c → Prop
  | writeReg (rd : Reg) (d : Word c) : CpuEffect w s (writeReg s rd d)
  | writePC (d : Addr c) : CpuEffect w s (writePC s d)
  | fault (cause : TrapCause) (h : cause.IsFault) : CpuEffect w s (trap s cause)
  | ecall (h : isEcall w) : CpuEffect w s (trap s (ecallCause s.mode))
  | writeCSR (csr : BitVec 16) (h : WritesCsr w csr) (val : Word c) :
      CpuEffect w s (writeCSR s csr val)
  | sret (size : Int) : CpuEffect w s (xret s .supervisor size)
  | mret (size : Int) : CpuEffect w s (xret s .machine size)
  | flushIcache : CpuEffect w s (flushIcache s)

theorem CpuEffect.micro {w : BitVec 32} {s s' : Cpu c} (h : CpuEffect w s s') :
    CpuMicro w s s' := by
  cases h with
  | writeReg rd d => exact .writeReg rd d
  | writePC d => exact .writePC d
  | fault cause h => exact .fault cause h
  | ecall h => exact .ecall h
  | writeCSR csr h val => exact .writeCSR csr h val
  | sret size => exact .sret size
  | mret size => exact .mret size
  | flushIcache => exact .flushIcache

/-- An effect on the machine that every instruction but WFI may have. -/
inductive Effect (w : BitVec 32) (m : Machine c) : Machine c → Prop
  | cpu {s : Cpu c} (h : CpuEffect w m.cpu s) : Effect w m { m with cpu := s }
  | readMem (addr : Addr c) (size : Nat) : Effect w m (readMem m addr size).1
  | writeMem (addr : Addr c) (buf : List Byte) : Effect w m (writeMem m addr buf)
  | reserve (addr : Addr c) (size : Nat) :
      Effect w m { m with bus := busReservationCreate m.bus addr size }
  | checkReserve (addr : Addr c) (size : Nat) :
      Effect w m { m with bus := (busReservationCheckInvalidate m.bus addr size).1 }

theorem Effect.micro {w : BitVec 32} {m m' : Machine c} (h : Effect w m m') : Micro w m m' := by
  cases h with
  | cpu h => exact .cpu h.micro
  | readMem addr size => exact .readMem addr size
  | writeMem addr buf => exact .writeMem addr buf
  | reserve addr size => exact .reserve addr size
  | checkReserve addr size => exact .checkReserve addr size

abbrev CpuEffects (w : BitVec 32) : Cpu c → Cpu c → Prop := ReflTransGen (CpuEffect w)
abbrev Effects (w : BitVec 32) : Machine c → Machine c → Prop := ReflTransGen (Effect w)

theorem CpuEffects.lift {w : BitVec 32} {m : Machine c} {s : Cpu c} (h : CpuEffects w m.cpu s) :
    Effects w m { m with cpu := s } := by
  induction h with
  | refl => exact .refl
  | tail _ hbc ih => exact ih.tail (.cpu hbc)

/-! ## Instructions that stay inside the hart -/

section Handlers

variable (w : BitVec 32) (s : Cpu c)

theorem ill_effects : CpuEffects w s (doILL s) :=
  .single (.fault .instIll (by simp [TrapCause.IsFault]))

theorem writeReg_effects (rd : Reg) (d : Word c) : CpuEffects w s (writeReg s rd d) :=
  .single (.writeReg rd d)

theorem writePC_effects (d : Addr c) : CpuEffects w s (writePC s d) := .single (.writePC d)

theorem doOPIMM_effects (funct3 : BitVec 3) (iimm : BitVec 32) (rd rs1 : Reg) :
    CpuEffects w s (doOPIMM s funct3 iimm rd rs1) := by
  unfold doOPIMM
  split
  · split
    · exact writeReg_effects w s rd _
    · exact ill_effects w s
  · exact writeReg_effects w s rd _
  · exact writeReg_effects w s rd _
  · exact writeReg_effects w s rd _
  · split
    · exact writeReg_effects w s rd _
    · exact writeReg_effects w s rd _
    · exact ill_effects w s
  · exact writeReg_effects w s rd _
  · exact writeReg_effects w s rd _
  · exact writeReg_effects w s rd _

theorem doOP_effects (funct3 : BitVec 3) (funct7 : BitVec 7) (rd rs1 rs2 : Reg) :
    CpuEffects w s (doOP s funct3 funct7 rd rs1 rs2) := by
  unfold doOP
  split <;> first | exact writeReg_effects w s rd _ | exact ill_effects w s

theorem doOPIMM32_effects (funct3 : BitVec 3) (iimm : BitVec 32) (rd rs1 : Reg) :
    CpuEffects w s (doOPIMM32 s funct3 iimm rd rs1) := by
  unfold doOPIMM32
  split
  · exact writeReg_effects w s rd _
  · split
    · exact writeReg_effects w s rd _
    · exact ill_effects w s
  · split
    · exact writeReg_effects w s rd _
    · exact writeReg_effects w s rd _
    · exact ill_effects w s
  · exact ill_effects w s

theorem doOP32_effects (funct3 : BitVec 3) (funct7 : BitVec 7) (rd rs1 rs2 : Reg) :
    CpuEffects w s (doOP32 s funct3 funct7 rd rs1 rs2) := by
  unfold doOP32
  split <;> first | exact writeReg_effects w s rd _ | exact ill_effects w s

theorem doJAL_effects (jimm : BitVec 32) (rd : Reg) (size : Int) :
    CpuEffects w s (doJAL s jimm rd size) :=
  (writeReg_effects w s rd _).tail (.writePC _)

theorem doJALR_effects (funct3 : BitVec 3) (iimm : BitVec 32) (rd rs1 : Reg) (size : Int) :
    CpuEffects w s (doJALR s funct3 iimm rd rs1 size) := by
  unfold doJALR
  split
  · exact (writeReg_effects w s rd _).tail (.writePC _)
  · exact ill_effects w s

theorem doBRANCH_effects (funct3 : BitVec 3) (bimm : BitVec 32) (rs1 rs2 : Reg) (size : Int) :
    CpuEffects w s (doBRANCH s funct3 bimm rs1 rs2 size) := by
  unfold doBRANCH
  split
  · exact writePC_effects w s _
  · exact .refl
  · exact ill_effects w s

theorem readCSR_effects (mtime : BitVec 64) (csr : BitVec 16) :
    CpuEffects w s (readCSR s mtime csr).1 := by
  unfold readCSR
  split
  · exact .refl
  · split
    · exact ill_effects w s
    · split
      · exact .refl
      · exact ill_effects w s

/-- The six CSR instructions: read, perhaps write, perhaps write the register. -/
theorem csrOp_effects (mtime : BitVec 64) (csr : BitVec 16) (doWrite doReg : Prop)
    [Decidable doWrite] [Decidable doReg] (hw : doWrite → WritesCsr w csr) (val : Word c) (rd : Reg)
    (old : Word c) :
    CpuEffects w s
      (if doReg then
        writeReg (if doWrite then writeCSR (readCSR s mtime csr).1 csr val
          else (readCSR s mtime csr).1) rd old
       else if doWrite then writeCSR (readCSR s mtime csr).1 csr val
          else (readCSR s mtime csr).1) := by
  have hwrite : CpuEffects w s (if doWrite then writeCSR (readCSR s mtime csr).1 csr val
      else (readCSR s mtime csr).1) := by
    split
    · rename_i hdo
      exact (readCSR_effects w s mtime csr).tail (.writeCSR csr (hw hdo) val)
    · exact readCSR_effects w s mtime csr
  split
  · exact hwrite.tail (.writeReg rd old)
  · exact hwrite

/-- `_doSYSTEM`, for the fields of a 32-bit SYSTEM instruction `w`. -/
theorem doSYSTEM_effects (mtime : BitVec 64) (rd : Reg) (size : Int)
    (hq : w.extractLsb' 0 2 = 3#2) (hop : opcode w = 28#5) (hwfi : ¬ isWfi w) :
    CpuEffects w s (doSYSTEM s mtime (decodeFunct3 w) (decodeIimm w) rd (decodeRs1 w) size) := by
  have hcsr : decodeFunct3 w ∈ [1#3, 5#3] ∨
      decodeFunct3 w ∈ [2#3, 3#3, 6#3, 7#3] ∧ decodeRs1 w ≠ 0#5 →
      WritesCsr w ((decodeIimm w).setWidth 16) := fun h => ⟨hq, hop, rfl, h⟩
  simp only [doSYSTEM]
  split
  · rename_i hf
    split
    · rename_i hi
      exact .single (.ecall ⟨hq, hop, hf, hi⟩)
    · exact .single (.fault _ (by simp [TrapCause.IsFault]))
    · exact .single (.sret size)
    · rename_i hi
      exact absurd ⟨hq, hop, hf, hi⟩ hwfi
    · exact .single (.mret size)
    · exact ill_effects w s
  · rename_i hf
    simpa using csrOp_effects w s mtime ((decodeIimm w).setWidth 16) True (rd ≠ 0#5)
      (fun _ => hcsr (Or.inl (by simp [hf]))) _ rd _
  · rename_i hf
    simpa using csrOp_effects w s mtime ((decodeIimm w).setWidth 16) (decodeRs1 w ≠ 0#5) True
      (fun h => hcsr (Or.inr ⟨by simp [hf], h⟩)) _ rd _
  · rename_i hf
    simpa using csrOp_effects w s mtime ((decodeIimm w).setWidth 16) (decodeRs1 w ≠ 0#5) True
      (fun h => hcsr (Or.inr ⟨by simp [hf], h⟩)) _ rd _
  · rename_i hf
    simpa using csrOp_effects w s mtime ((decodeIimm w).setWidth 16) True (rd ≠ 0#5)
      (fun _ => hcsr (Or.inl (by simp [hf]))) _ rd _
  · rename_i hf
    simpa using csrOp_effects w s mtime ((decodeIimm w).setWidth 16) (decodeRs1 w ≠ 0#5) True
      (fun h => hcsr (Or.inr ⟨by simp [hf], h⟩)) _ rd _
  · rename_i hf
    simpa using csrOp_effects w s mtime ((decodeIimm w).setWidth 16) (decodeRs1 w ≠ 0#5) True
      (fun h => hcsr (Or.inr ⟨by simp [hf], h⟩)) _ rd _
  · exact ill_effects w s

/-- C.EBREAK. -/
theorem ebreak_effects (mtime : BitVec 64) (rd rs1 : Reg) (size : Int) :
    CpuEffects w s (doSYSTEM s mtime 0#3 1#32 rd rs1 size) :=
  .single (.fault .breakpoint (by simp [TrapCause.IsFault]))

end Handlers

/-! ## Instructions that reach the bus -/

section Memory

variable (w : BitVec 32) (m : Machine c)

theorem ill_machine_effects : Effects w m { m with cpu := doILL m.cpu } :=
  (ill_effects w m.cpu).lift

theorem doMISCMEM_effects (funct3 : BitVec 3) (iimm : BitVec 32) (rd rs1 : Reg) :
    Effects w m (doMISCMEM m funct3 iimm rd rs1) := by
  have hflush : Effects w m { m with cpu := flushIcache m.cpu } := .single (.cpu .flushIcache)
  have hill := ill_machine_effects w m
  unfold doMISCMEM
  split
  · exact hflush
  · exact hflush
  · split
    · split
      · split
        · exact hill
        · split
          · exact hill
          · exact .single (.writeMem _ _)
      · exact hill
    · exact hill
  · exact hill

theorem doSTORE_effects (funct3 : BitVec 3) (simm : BitVec 32) (rs1 rs2 : Reg) :
    Effects w m (doSTORE m funct3 simm rs1 rs2) := by
  simp only [doSTORE]
  split
  · exact ill_machine_effects w m
  · exact .single (.writeMem _ _)

theorem doLOAD_effects (funct3 : BitVec 3) (iimm : BitVec 32) (rd rs1 : Reg) :
    Effects w m (doLOAD m funct3 iimm rd rs1) := by
  simp only [doLOAD]
  split
  · exact ill_machine_effects w m
  · exact (ReflTransGen.single (.readMem _ _)).tail (.cpu (.writeReg rd _))

theorem amoSwitch_effects (funct5 : BitVec 5) (rs2 : Reg) (addr : Addr c) (size : Nat)
    (rs2Val data : Word c) : Effects w m (amoSwitch m funct5 rs2 addr size rs2Val data).1 := by
  unfold amoSwitch
  split
  · split
    · exact ill_machine_effects w m
    · exact .single (.reserve addr size)
  · exact .single (.checkReserve addr size)
  · split
    · exact .refl
    · exact ill_machine_effects w m

theorem doAMO_effects (funct3 : BitVec 3) (funct5 : BitVec 5) (rd rs1 rs2 : Reg) :
    Effects w m (doAMO m funct3 funct5 rd rs1 rs2) := by
  simp only [doAMO]
  split
  · exact .single (.cpu (.fault .stAllign (by simp [TrapCause.IsFault])))
  · generalize hr : readMem m ((readReg m.cpu rs1).setWidth _) (amoSize c funct3) = r
    have hread : Effects w m r.1 := by
      rw [← hr]
      exact .single (.readMem _ _)
    generalize hsw : amoSwitch r.1 funct5 rs2 _ _ _ _ = sw
    have hswitch : Effects w m sw.1 := by
      rw [← hsw]
      exact hread.trans (amoSwitch_effects w r.1 funct5 rs2 _ _ _ _)
    have hreg := hswitch.tail (.cpu (.writeReg rd sw.2.rdVal))
    split
    · exact hreg.tail (.writeMem _ _)
    · exact hreg

end Memory

/-! ## The jump tables -/

theorem execInstr_effects (m : Machine c) (w : BitVec 32) (hq : w.extractLsb' 0 2 = 3#2)
    (hwfi : ¬ isWfi w) :
    Effects w m (execInstr m w) := by
  have hill := ill_machine_effects w m
  simp only [execInstr]
  split
  · exact doLOAD_effects w m _ _ _ _
  · exact doMISCMEM_effects w m _ _ _ _
  · exact (doOPIMM_effects w m.cpu _ _ _ _).lift
  · exact (writeReg_effects w m.cpu _ _).lift
  · split
    · exact (doOPIMM32_effects w m.cpu _ _ _ _).lift
    · exact hill
  · exact doSTORE_effects w m _ _ _ _
  · exact doAMO_effects w m _ _ _ _ _
  · exact (doOP_effects w m.cpu _ _ _ _ _).lift
  · exact (writeReg_effects w m.cpu _ _).lift
  · split
    · exact (doOP32_effects w m.cpu _ _ _ _ _).lift
    · exact hill
  · exact (doBRANCH_effects w m.cpu _ _ _ _ _).lift
  · exact (doJALR_effects w m.cpu _ _ _ _ _).lift
  · exact (doJAL_effects w m.cpu _ _ _).lift
  · rename_i hop
    exact (doSYSTEM_effects w m.cpu _ _ _ hq hop hwfi).lift
  · exact hill

section Compressed

variable (w : BitVec 32) (m : Machine c) (instr : BitVec 32)

theorem decodeCextQ1_4_effects : Effects w m (decodeCextQ1_4 m instr) := by
  have hill := ill_machine_effects w m
  simp only [decodeCextQ1_4]
  split
  · exact (doOPIMM_effects w m.cpu _ _ _ _).lift
  · exact (doOPIMM_effects w m.cpu _ _ _ _).lift
  · split
    · split
      · split
        · exact (doOP32_effects w m.cpu _ _ _ _ _).lift
        · exact hill
        · exact hill
        · exact (doOP32_effects w m.cpu _ _ _ _ _).lift
      · exact hill
    · split <;> exact (doOP_effects w m.cpu _ _ _ _ _).lift
  · exact (doOPIMM_effects w m.cpu _ _ _ _).lift

theorem decodeCextQ2_4_effects : Effects w m (decodeCextQ2_4 m instr) := by
  simp only [decodeCextQ2_4]
  split
  · split
    · split
      · exact (doOP_effects w m.cpu _ _ _ _ _).lift
      · exact .refl
    · split
      · exact (doJALR_effects w m.cpu _ _ _ _ _).lift
      · exact (ebreak_effects w m.cpu _ _ _ _).lift
  · split
    · split
      · exact (doOP_effects w m.cpu _ _ _ _ _).lift
      · exact .refl
    · split
      · exact (doJALR_effects w m.cpu _ _ _ _ _).lift
      · exact ill_machine_effects w m

theorem cextTable_effects (q : BitVec 2) (funct3 : BitVec 3) :
    Effects w m (cextTable m instr q funct3) := by
  have hill := ill_machine_effects w m
  unfold cextTable
  split
  · simp only [decodeCextQ0_0]
    split
    · exact (doOPIMM_effects w m.cpu _ _ _ _).lift
    · exact hill
  · exact doLOAD_effects w m _ _ _ _
  · unfold decodeCextQ0_3
    split
    · exact doLOAD_effects w m _ _ _ _
    · exact hill
  · exact doSTORE_effects w m _ _ _ _
  · unfold decodeCextQ0_7
    split
    · exact doSTORE_effects w m _ _ _ _
    · exact hill
  · simp only [decodeCextQ1_0]
    split
    · split
      · exact (doOPIMM_effects w m.cpu _ _ _ _).lift
      · exact .refl
    · exact .refl
  · simp only [decodeCextQ1_1]
    split
    · split
      · exact (doOPIMM32_effects w m.cpu _ _ _ _).lift
      · exact hill
    · exact (doJAL_effects w m.cpu _ _ _).lift
  · simp only [decodeCextQ1_2]
    split
    · exact (doOPIMM_effects w m.cpu _ _ _ _).lift
    · exact .refl
  · simp only [decodeCextQ1_3]
    split
    · split
      · split
        · exact (doOPIMM_effects w m.cpu _ _ _ _).lift
        · exact hill
      · split
        · exact (writeReg_effects w m.cpu _ _).lift
        · exact hill
    · exact .refl
  · exact decodeCextQ1_4_effects w m instr
  · exact (doJAL_effects w m.cpu _ _ _).lift
  · exact (doBRANCH_effects w m.cpu _ _ _ _ _).lift
  · exact (doBRANCH_effects w m.cpu _ _ _ _ _).lift
  · simp only [decodeCextQ2_0]
    split
    · exact (doOPIMM_effects w m.cpu _ _ _ _).lift
    · exact .refl
  · simp only [decodeCextQ2_2]
    split
    · exact doLOAD_effects w m _ _ _ _
    · exact hill
  · simp only [decodeCextQ2_3]
    split
    · split
      · exact doLOAD_effects w m _ _ _ _
      · exact hill
    · exact hill
  · exact decodeCextQ2_4_effects w m instr
  · exact doSTORE_effects w m _ _ _ _
  · unfold decodeCextQ2_7
    split
    · exact doSTORE_effects w m _ _ _ _
    · exact hill
  · exact hill

end Compressed

/-- The instruction of `rv_run` and its PC update, when it is no WFI. -/
theorem rvExec_effects (m : Machine c) (w : BitVec 32) (hwfi : ¬ isWfi w) :
    Effects w m (rvExec m w) := by
  unfold rvExec execCext
  by_cases hq : w.extractLsb' 0 2 = 3#2
  · simp only [if_pos hq]
    exact (execInstr_effects m w hq hwfi).tail (.cpu (.writePC _))
  · simp only [if_neg hq]
    exact (cextTable_effects w m _ _ _).tail (.cpu (.writePC _))

/-! ## WFI -/

/-- The test of `_doSYSTEM` in front of WFI. -/
def wfiIllegal (self : Cpu c) : Bool :=
  (self.mode < .machine && self.csr.mstatus &&& mstatusTwMask != 0#_) || self.mode = .user

/-- What WFI does to the hart. -/
def wfiHart (self : Cpu c) : Cpu c :=
  if wfiIllegal self then trap self .instIll else { self with wfi := true }

theorem rvExec_wfi (m : Machine c) {w : BitVec 32} (h : isWfi w) :
    rvExec m w = advancePC { m with cpu := wfiHart m.cpu } 4 := by
  obtain ⟨hq, hop, hf, hi⟩ := h
  simp only [rvExec, execCext, if_pos hq, execInstr, hop, doSYSTEM, hf, hi, wfiHart, wfiIllegal]
  rfl

/-- **The instruction of `rv_run` and its PC update are primitive effects.** -/
theorem rvExec_micros (m : Machine c) (w : BitVec 32) : Micros w m (rvExec m w) := by
  by_cases h : isWfi w
  · rw [rvExec_wfi m h, wfiHart]
    split
    · exact (ReflTransGen.single (.cpu (.fault _ (by simp [TrapCause.IsFault])))).tail
        (.cpu (.writePC _))
    · exact (ReflTransGen.single (.cpu .wfi)).tail (.cpu (.writePC _))
  · exact ReflTransGen.mono (fun _ _ he => he.micro) _ _ (rvExec_effects m w h)

end RV640
