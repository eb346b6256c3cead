import RV640.Isa.MemoryOp
import RV640.Proofs.Amo

set_option autoImplicit false

/-! # The causes of memory faults

`_readMem` and `_writeMem` choose the cause of an access fault, not the instruction. A load, a store
and CBO.ZERO call only one of them. An atomic reads first, so that a store-conditional and a
read-modify-write atomic of an address without a device end with the access fault of a load; and all
atomics share one alignment test, so that a misaligned load-reserved ends with the exception of a
store.
-/

namespace RV640

open Bits Riscv

variable {c : Cfg}

/-! ## What the specification asks for -/

/-- The range of memory an instruction accesses. -/
def opRange (m : Machine c) : MemOp → Addr c × Nat
  | .load funct3 _ rs1 imm => (effectiveAddr m.cpu rs1 imm, loadSize funct3)
  | .store funct3 rs1 _ imm => (effectiveAddr m.cpu rs1 imm, storeSize funct3)
  | .lr funct3 _ _ rs1 => (amoAddr m rs1, storeSize funct3)
  | .sc funct3 _ _ rs1 _ => (amoAddr m rs1, storeSize funct3)
  | .amo _ funct3 _ _ rs1 _ => (amoAddr m rs1, storeSize funct3)
  | .cboZero rs1 => (cboAddr m rs1, dcacheLineSize)

/-- The instruction may be executed: CBO.ZERO needs the permission of the modes above. -/
def Permitted (s : Cpu c) : MemOp → Prop
  | .cboZero _ =>
      (s.mode < .machine → s.csr.menvcfg &&& menvcfgCbzeMask ≠ 0#_)
        ∧ (s.mode < .supervisor → s.csr.senvcfg &&& senvcfgCbzeMask ≠ 0#_)
  | _ => True

/-- An exception is latched. -/
def Raises (s : Cpu c) (cause : TrapCause) : Prop :=
  s.trap = true ∧ s.trapCause = trapCauseWord cause

def accessFault (i : MemOp) : TrapCause := if i.isLoad then .ldAf else .stAf
def misaligned (i : MemOp) : TrapCause := if i.isLoad then .ldAllign else .stAllign

/-- The address is misaligned for an atomic. -/
def Misaligned (m : Machine c) (i : MemOp) : Prop :=
  i.isAtomic = true ∧ ¬ (opRange m i).2 ∣ (opRange m i).1.toNat

instance (m : Machine c) (i : MemOp) : Decidable (Misaligned m i) := by
  unfold Misaligned
  infer_instance

/-- The faults of an instruction that goes from `m` to `m'`, by its class. The alignment of an
atomic is looked at first. -/
structure FaultsByClass (m : Machine c) (i : MemOp) (m' : Machine c) : Prop where
  misaligned : Misaligned m i → Raises m'.cpu (misaligned i)
  outside : ¬ Misaligned m i → ¬ m.bus.Inside (opRange m i).1 (opRange m i).2 →
    Raises m'.cpu (accessFault i)

/-- When the emulator does it: a misaligned address is not that of a load-reserved; a range outside
every device is found outside, and is accessed by a load, a load-reserved, a store or CBO.ZERO. -/
def CauseWhen (m : Machine c) (i : MemOp) : Prop :=
  (Misaligned m i → i.isLoad = false)
    ∧ (¬ Misaligned m i → ¬ m.bus.Inside (opRange m i).1 (opRange m i).2 →
      (∀ d ∈ m.bus.devices, ¬ d.Accepts (opRange m i).1 (opRange m i).2)
        ∧ (i.isAtomic = true → i.isLoad = true))

/-! ## Exceptions -/

theorem raises_trap_iff (s : Cpu c) (cause cause' : TrapCause) :
    Raises (trap s cause) cause' ↔ cause = cause' := by
  constructor
  · rintro ⟨-, hc⟩
    have hnat : cause.toNat = cause'.toNat := ofNat_small_inj cause.toNat_lt cause'.toNat_lt hc
    cases cause <;> cases cause' <;> first | rfl | cases hnat
  · rintro rfl
    exact ⟨rfl, rfl⟩

theorem raises_advancePC (m : Machine c) (size : Nat) (cause : TrapCause) :
    Raises (advancePC m size).cpu cause ↔ Raises m.cpu cause := by
  unfold advancePC writePC
  split <;> exact Iff.rfl

theorem not_raises {s : Cpu c} (h : s.trap = false) (cause : TrapCause) : ¬ Raises s cause := by
  rintro ⟨ht, -⟩
  rw [h] at ht
  cases ht

/-- An instruction that only faults by accessing a range without a device. -/
structure Accesses (m m' : Machine c) (addr : Addr c) (size : Nat) (cause : TrapCause) : Prop where
  unmapped : Unmapped m addr size → m'.cpu = trap m.cpu cause
  mapped : ¬ Unmapped m addr size → m'.cpu.trap = false

section Handlers

variable {m : Machine c} (ht : m.cpu.trap = false)
include ht

theorem writeMem_accesses (addr : Addr c) (buf : List Byte) :
    Accesses m (writeMem m addr buf) addr buf.length .stAf where
  unmapped hu := by rw [writeMem_unmapped ht hu]
  mapped hm := writeMem_mapped ht hm

theorem doSTORE_accesses (funct3 : BitVec 3) (rs1 rs2 : RegNo) (imm : BitVec 12)
    (hsize : storeSize funct3 ≤ c.wordBytes) :
    Accesses m (doSTORE m funct3 (place imm 0) rs1 rs2) (effectiveAddr m.cpu rs1 imm)
      (storeSize funct3) .stAf := by
  have hnot : ¬ c.wordBytes < 1 <<< funct3.toNat := Nat.not_lt.mpr hsize
  have hw := writeMem_accesses ht (memAddr m (place imm 0) rs1)
    (toBytes (storeSize funct3) (readReg m.cpu rs2))
  rw [toBytes_length] at hw
  rw [doSTORE, if_neg hnot, ← memAddr_place]
  exact hw

theorem doLOAD_accesses (funct3 : BitVec 3) (rd rs1 : RegNo) (imm : BitVec 12)
    (hsize : loadSize funct3 ≤ c.wordBytes) :
    Accesses m (doLOAD m funct3 (place imm 0) rd rs1) (effectiveAddr m.cpu rs1 imm)
      (loadSize funct3) .ldAf := by
  have hnot : ¬ c.wordBytes < 1 <<< (funct3 &&& 3#3).toNat := Nat.not_lt.mpr hsize
  rw [← memAddr_place]
  constructor
  · intro hu
    have hread := readMem_unmapped ht hu
    simp only [memAddr, loadSize] at hread
    simp only [doLOAD, if_neg hnot, hread]
    exact writeReg_of_trap rfl rd _
  · exact doLOAD_mapped ht funct3 (place imm 0) rd rs1 hnot

theorem cboZero_accesses (rs1 : RegNo) (hp : Permitted m.cpu (.cboZero rs1)) :
    Accesses m (doMISCMEM m 2#3 (place 4#12 0) x0 rs1) (cboAddr m rs1) dcacheLineSize .stAf := by
  obtain ⟨hmachine, hsupervisor⟩ := hp
  have hw := writeMem_accesses ht (cboAddr m rs1) (List.replicate dcacheLineSize 0#8)
  rw [List.length_replicate] at hw
  have hexec : doMISCMEM m 2#3 (place 4#12 0) x0 rs1
      = writeMem m (cboAddr m rs1) (List.replicate dcacheLineSize 0#8) := by
    show (if _ then _ else _) = _
    rw [if_neg, if_neg]
    · rfl
    · simpa using hsupervisor
    · simpa using hmachine
  rw [hexec]
  exact hw

/-- An aligned atomic reads, whatever it does then. -/
theorem doAMO_accesses {funct5 : BitVec 5} {rs2 : RegNo} (funct3 : BitVec 3) (rd rs1 : RegNo)
    (hop : funct5 = 2#5 ∧ rs2 = x0 ∨ funct5 = 3#5 ∨ funct5 ∈ rmwFunct5)
    (hal : (amoAddr m rs1).toNat &&& (amoSize c funct3 - 1) = 0) :
    Accesses m (doAMO m funct3 funct5 rd rs1 rs2) (amoAddr m rs1) (amoSize c funct3) .ldAf := by
  obtain ⟨rs2Val, data, heq⟩ := doAMO_aligned m funct3 funct5 rd rs1 rs2 hal
  rw [heq]
  constructor
  · intro hu
    rw [amoAddr] at hu
    rw [readMem_unmapped ht hu]
    -- the switch runs on, and leaves the hart alone
    rcases hop with ⟨rfl, rfl⟩ | rfl | hrmw
    · rw [amoTail_of_trap rfl]
      rfl
    · rw [amoTail_of_trap rfl]
      rfl
    · obtain ⟨res, hres⟩ := amoSwitch_rmw { m with cpu := trap m.cpu .ldAf } rs2
        ((readReg m.cpu rs1).setWidth _) (amoSize c funct3) rs2Val data hrmw
      rw [hres, amoTail_of_trap rfl]
  · intro hm
    obtain ⟨h1, hm1⟩ := readMem_keeps_mapped ht hm
    exact amoTail_legal h1 hop rd hm1 rs2Val data

end Handlers

/-! ## The instructions -/

/-- The handler of an instruction. -/
def execMemOp (m : Machine c) : MemOp → Machine c
  | .load funct3 rd rs1 imm => doLOAD m funct3 (place imm 0) rd rs1
  | .store funct3 rs1 rs2 imm => doSTORE m funct3 (place imm 0) rs1 rs2
  | .lr funct3 _ rd rs1 => doAMO m funct3 2#5 rd rs1 x0
  | .sc funct3 _ rd rs1 rs2 => doAMO m funct3 3#5 rd rs1 rs2
  | .amo o funct3 _ rd rs1 rs2 => doAMO m funct3 o.funct5 rd rs1 rs2
  | .cboZero rs1 => doMISCMEM m 2#3 (place 4#12 0) x0 rs1

theorem execInstr_memOp (m : Machine c) (i : MemOp) : execInstr m i.encode = execMemOp m i := by
  cases i with
  | load funct3 rd rs1 imm => exact execInstr_encode m (.load funct3 rd rs1 imm)
  | store funct3 rs1 rs2 imm => exact execInstr_encode m (.store funct3 rs1 rs2 imm)
  | lr funct3 aqrl rd rs1 => exact execInstr_encodeAmo m 2#5 funct3 aqrl rd rs1 x0
  | sc funct3 aqrl rd rs1 rs2 => exact execInstr_encodeAmo m 3#5 funct3 aqrl rd rs1 rs2
  | amo o funct3 aqrl rd rs1 rs2 => exact execInstr_encodeAmo m o.funct5 funct3 aqrl rd rs1 rs2
  | cboZero rs1 =>
      obtain ⟨hop, hrd, hf, hrs1, himm⟩ := decode_encodeI rs1 2#3 x0 opMiscMem 4#12
      simp only [execInstr, MemOp.encode, hop, hrd, hf, hrs1, himm]
      rfl

theorem quadrant_memOp (i : MemOp) : i.encode.extractLsb' 0 2 = 3#2 := by
  cases i <;>
    simp (disch := decide) [MemOp.encode, encodeI, encodeS, encodeR, BitVec.extractLsb'_or,
      extractLsb'_place_of_ge]

/-- A step of `rv_run` on a memory instruction, of either size. -/
theorem rvExec_memOp (m : Machine c) {w : BitVec 32} {i : MemOp} (hi : i.Holds c.isRv64 w) :
    ∃ size, rvExec m w = advancePC (execMemOp m i) size := by
  rcases hi with ⟨rfl, -⟩ | hi
  · have hcext : execCext m i.encode = none := by
      unfold execCext
      simp only [quadrant_memOp, if_true]
    exact ⟨4, by simp only [rvExec, hcext, execInstr_memOp]⟩
  · obtain ⟨b, hb, hbase⟩ := Option.bind_eq_some_iff.mp hi
    have hexec : execBase m 2 b = execMemOp m i := by
      cases b <;> cases hbase <;> rfl
    exact ⟨2, by rw [rvExec_half hb, hexec]⟩

/-- The widths of a hart fit its registers. -/
theorem storeSize_le {funct3 : BitVec 3}
    (h : ([0#3, 1#3, 2#3].contains funct3 || c.isRv64 && funct3 == 3#3) = true) :
    storeSize funct3 ≤ c.wordBytes := by
  revert h
  revert funct3
  cases c <;> decide

theorem loadSize_le {funct3 : BitVec 3}
    (h : ([0#3, 1#3, 2#3, 4#3, 5#3].contains funct3
      || c.isRv64 && [3#3, 6#3].contains funct3) = true) :
    loadSize funct3 ≤ c.wordBytes := by
  revert h
  revert funct3
  cases c <;> decide

theorem wordSize_le {funct3 : BitVec 3}
    (h : (funct3 == 2#3 || c.isRv64 && funct3 == 3#3) = true) :
    storeSize funct3 ≤ c.wordBytes := by
  revert h
  revert funct3
  cases c <;> decide

/-- A misaligned atomic ends with one cause, whatever it is. -/
theorem execMemOp_misaligned {m : Machine c} {i : MemOp} (hlegal : i.legal c.isRv64 = true)
    (h : Misaligned m i) : execMemOp m i = { m with cpu := trap m.cpu .stAllign } := by
  obtain ⟨hatomic, hal⟩ := h
  cases i with
  | load | store | cboZero => cases hatomic
  | lr funct3 aqrl rd rs1 =>
      exact doAMO_misaligned funct3 2#5 rd rs1 x0
        (mt (amoAddr_aligned_iff m funct3 rs1 (wordSize_le hlegal)).mp hal)
  | sc funct3 aqrl rd rs1 rs2 =>
      exact doAMO_misaligned funct3 3#5 rd rs1 rs2
        (mt (amoAddr_aligned_iff m funct3 rs1 (wordSize_le hlegal)).mp hal)
  | amo o funct3 aqrl rd rs1 rs2 =>
      exact doAMO_misaligned funct3 o.funct5 rd rs1 rs2
        (mt (amoAddr_aligned_iff m funct3 rs1 (storeSize_le hlegal)).mp hal)

/-- An aligned one ends with the cause of the helper it calls first. -/
theorem execMemOp_accesses {m : Machine c} (ht : m.cpu.trap = false) {i : MemOp}
    (hlegal : i.legal c.isRv64 = true) (hp : Permitted m.cpu i) (hal : ¬ Misaligned m i) :
    Accesses m (execMemOp m i) (opRange m i).1 (opRange m i).2
      (if i.isLoad || i.isAtomic then .ldAf else .stAf) := by
  have hamo : ∀ {funct5 : BitVec 5} {rs2 : RegNo} (funct3 : BitVec 3) (rd rs1 : RegNo),
      (funct5 = 2#5 ∧ rs2 = x0 ∨ funct5 = 3#5 ∨ funct5 ∈ rmwFunct5) →
      storeSize funct3 ≤ c.wordBytes → storeSize funct3 ∣ (amoAddr m rs1).toNat →
      Accesses m (doAMO m funct3 funct5 rd rs1 rs2) (amoAddr m rs1) (storeSize funct3) .ldAf := by
    intro funct5 rs2 funct3 rd rs1 hop hsize hdvd
    have h := doAMO_accesses ht funct3 rd rs1 hop
      ((amoAddr_aligned_iff m funct3 rs1 hsize).mpr hdvd)
    rwa [amoSize, ← storeSize, Nat.min_eq_left hsize] at h
  have hdvd : i.isAtomic = true → (opRange m i).2 ∣ (opRange m i).1.toNat := by
    intro hatomic
    by_contra hn
    exact hal ⟨hatomic, hn⟩
  cases i with
  | load funct3 rd rs1 imm => exact doLOAD_accesses ht funct3 rd rs1 imm (loadSize_le hlegal)
  | store funct3 rs1 rs2 imm => exact doSTORE_accesses ht funct3 rs1 rs2 imm (storeSize_le hlegal)
  | lr funct3 aqrl rd rs1 =>
      exact hamo funct3 rd rs1 (Or.inl ⟨rfl, rfl⟩) (wordSize_le hlegal) (hdvd rfl)
  | sc funct3 aqrl rd rs1 rs2 =>
      exact hamo funct3 rd rs1 (Or.inr (Or.inl rfl)) (wordSize_le hlegal) (hdvd rfl)
  | amo o funct3 aqrl rd rs1 rs2 =>
      refine hamo funct3 rd rs1 (Or.inr (Or.inr ?_)) (storeSize_le hlegal) (hdvd rfl)
      exact (AmoOp.funct5_iff o.funct5).mp ⟨o, rfl⟩
  | cboZero rs1 => exact cboZero_accesses ht rs1 hp

/-! ## Exactness -/

/-- An access without a device, as the bus sees it, against one outside of every device. -/
theorem Accesses.outside_iff {m m' : Machine c} {addr : Addr c} {size : Nat} {cause : TrapCause}
    (h : Accesses m m' addr size cause) (cause' : TrapCause) :
    (¬ m.bus.Inside addr size → Raises m'.cpu cause') ↔
      (¬ m.bus.Inside addr size →
        (∀ d ∈ m.bus.devices, ¬ d.Accepts addr size) ∧ cause = cause') := by
  refine imp_congr_right fun _ => ?_
  rw [← findDevice_eq_none_iff]
  by_cases hu : Unmapped m addr size
  · rw [h.unmapped hu, raises_trap_iff]
    exact (and_iff_right hu).symm
  · exact iff_of_false (not_raises (h.mapped hu) cause') (fun hw => hu hw.1)

/-- **The causes of memory faults.** A memory instruction of either size faults by its class exactly
when `CauseWhen` holds. -/
theorem fault_cause_iff (m : Machine c) (ht : m.cpu.trap = false) (w : BitVec 32) (i : MemOp)
    (hi : i.Holds c.isRv64 w) (hp : Permitted m.cpu i) :
    FaultsByClass m i (rvExec m w) ↔ CauseWhen m i := by
  obtain ⟨size, hexec⟩ := rvExec_memOp m hi
  have hlegal := hi.legal
  have hraises : ∀ cause, Raises (rvExec m w).cpu cause ↔ Raises (execMemOp m i).cpu cause := by
    intro cause
    rw [hexec, raises_advancePC]
  -- alignment is tested first, and has one cause for every atomic
  have hmis : Misaligned m i →
      (Raises (rvExec m w).cpu (misaligned i) ↔ i.isLoad = false) := by
    intro h
    rw [hraises, execMemOp_misaligned hlegal h, raises_trap_iff, misaligned]
    cases i.isLoad <;> decide
  -- then the first access decides, a read for every atomic
  have hout : ¬ Misaligned m i →
      ((¬ m.bus.Inside (opRange m i).1 (opRange m i).2 →
          Raises (rvExec m w).cpu (accessFault i)) ↔
        (¬ m.bus.Inside (opRange m i).1 (opRange m i).2 →
          (∀ d ∈ m.bus.devices, ¬ d.Accepts (opRange m i).1 (opRange m i).2)
            ∧ (i.isAtomic = true → i.isLoad = true))) := by
    intro h
    have hcause : (if i.isLoad || i.isAtomic then TrapCause.ldAf else .stAf) = accessFault i
        ↔ (i.isAtomic = true → i.isLoad = true) := by
      rw [accessFault]
      cases i.isLoad <;> cases i.isAtomic <;> decide
    rw [hraises, (execMemOp_accesses ht hlegal hp h).outside_iff, hcause]
  constructor
  · rintro ⟨h1, h2⟩
    exact ⟨fun h => (hmis h).mp (h1 h), fun h => (hout h).mp (h2 h)⟩
  · rintro ⟨h1, h2⟩
    exact ⟨fun h => (hmis h).mpr (h1 h), fun h => (hout h).mpr (h2 h)⟩

/-- `c.lw x8, 0(x8)` at address 0 of the machine of `main`, which has no device there. -/
theorem fault_cause_iff_clw :
    FaultsByClass mainMachine32 (.load 2#3 8#5 8#5 0#12) (rvExec mainMachine32 0x4000#32)
      ↔ CauseWhen mainMachine32 (.load 2#3 8#5 8#5 0#12) :=
  fault_cause_iff mainMachine32 rfl 0x4000#32 _ (Or.inr (by decide)) trivial

/-- The machine of `main`, with `x1` at 1. -/
def oddMachine : Machine .rv32 :=
  { mainMachine32 with cpu := writeReg mainMachine32.cpu 1#5 1#32 }

/-- `amoadd.w x0, x0, (x0)` at address 0, which no device contains, raises the access fault of a
load, and `lr.w x0, (x1)` at address 1 the misaligned address of a store. -/
theorem atomic_fault_causes :
    (MemOp.amo .amoadd 2#3 0#2 0#5 0#5 0#5).Holds false 0x0000202F#32
      ∧ ¬ FaultsByClass oddMachine (.amo .amoadd 2#3 0#2 0#5 0#5 0#5)
        (rvExec oddMachine 0x0000202F#32)
      ∧ (MemOp.lr 2#3 0#2 0#5 1#5).Holds false 0x1000A02F#32
      ∧ ¬ FaultsByClass oddMachine (.lr 2#3 0#2 0#5 1#5) (rvExec oddMachine 0x1000A02F#32) := by
  refine ⟨Or.inl (by decide), ?_, Or.inl (by decide), ?_⟩
  · intro h
    have hraises := h.outside (by decide) (by decide)
    exact absurd hraises.2 (by decide)
  · intro h
    have hraises := h.misaligned (by decide)
    exact absurd hraises.2 (by decide)

end RV640
