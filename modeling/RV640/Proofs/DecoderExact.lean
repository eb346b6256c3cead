import RV640.Isa.Rv32
import RV640.Proofs.Decoding
import RV640.Proofs.Reservation

set_option autoImplicit false

/-! # The words an RV32 hart executes

`_execInstr` finds most illegal words illegal. It accepts some more: the immediate shifts compare
the upper half of their immediate with one bit less than RV32 asks for, LWU is a load like the
others, `_doAMO` cuts the width of an atomic to the register width where the loads and stores refuse
it and knows no width for which LR and SC do not exist, and the trap instructions do not look at
their register fields. `Superfluous` lists these words.
-/

namespace RV640

open Bits Riscv

variable {c : Cfg}

/-! ## Words from their fields -/

section Fields

variable {w : BitVec 32}

/-- The bits below a field and the field. -/
theorem field_or_low (w : BitVec 32) (s l : Nat) :
    (place (w.extractLsb' s l) s ||| place (w.extractLsb' 0 s) 0 : BitVec 32)
      = place (w.extractLsb' 0 (s + l)) 0 := by
  have h := place_or_place (n := 32) w 0 s l 0
  rwa [Nat.zero_add, BitVec.or_comm] at h

/-- All the bits. -/
theorem place_all (w : BitVec 32) : (place (w.extractLsb' 0 32) 0 : BitVec 32) = w := by
  rw [place_zero, BitVec.extractLsb'_eq_self]
  exact BitVec.setWidth_eq w

variable (hq : w.extractLsb' 0 2 = 3#2)
include hq

theorem quadrant_field : (3#32 : BitVec 32) = place (w.extractLsb' 0 2) 0 := by
  rw [hq]
  rfl

/-- An R-type word is made of its fields. -/
theorem encodeR_fields :
    encodeR (decodeFunct7 w) (decodeRs2 w) (decodeRs1 w) (decodeFunct3 w) (decodeRd w) (opcode w)
      = w := by
  simp only [encodeR, decodeFunct7, decodeRs2, decodeRs1, decodeFunct3, decodeRd, opcode,
    quadrant_field hq, BitVec.or_assoc, field_or_low]
  exact place_all w

/-- An I-type word is made of its fields. -/
theorem encodeI_fields :
    encodeI (w.extractLsb' 20 12) (decodeRs1 w) (decodeFunct3 w) (decodeRd w) (opcode w) = w := by
  simp only [encodeI, decodeRs1, decodeFunct3, decodeRd, opcode, quadrant_field hq,
    BitVec.or_assoc, field_or_low]
  exact place_all w

/-- A U-type word is made of its fields. -/
theorem encodeU_fields : encodeU (w.extractLsb' 12 20) (decodeRd w) (opcode w) = w := by
  simp only [encodeU, decodeRd, opcode, quadrant_field hq, BitVec.or_assoc, field_or_low]
  exact place_all w

/-- Every word has an S-type immediate. -/
theorem encodeS_fields : ∃ imm,
    encodeS imm (decodeRs2 w) (decodeRs1 w) (decodeFunct3 w) (opcode w) = w := by
  refine ⟨place (w.extractLsb' 25 7) 5 ||| place (w.extractLsb' 7 5) 0, ?_⟩
  simp (disch := decide) only [encodeS, decodeRs2, decodeRs1, decodeFunct3, opcode,
    BitVec.extractLsb'_or, extractLsb'_place, extractLsb'_place_of_le, extractLsb'_place_of_ge,
    BitVec.or_zero, BitVec.zero_or]
  simp only [quadrant_field hq, BitVec.or_assoc, field_or_low]
  exact place_all w

/-- Every word has a B-type offset. -/
theorem encodeB_fields : ∃ imm,
    encodeB imm (decodeRs2 w) (decodeRs1 w) (decodeFunct3 w) (opcode w) = w := by
  refine ⟨place (w.extractLsb' 31 1) 11 ||| place (w.extractLsb' 7 1) 10
    ||| place (w.extractLsb' 25 6) 4 ||| place (w.extractLsb' 8 4) 0, ?_⟩
  simp (disch := decide) only [encodeB, decodeRs2, decodeRs1, decodeFunct3, opcode,
    BitVec.extractLsb'_or, extractLsb'_place, extractLsb'_place_of_le, extractLsb'_place_of_ge,
    BitVec.or_zero, BitVec.zero_or]
  simp only [quadrant_field hq, BitVec.or_assoc, field_or_low]
  exact place_all w

/-- Every word has a J-type offset. -/
theorem encodeJ_fields : ∃ imm, encodeJ imm (decodeRd w) (opcode w) = w := by
  refine ⟨place (w.extractLsb' 31 1) 19 ||| place (w.extractLsb' 12 8) 11
    ||| place (w.extractLsb' 20 1) 10 ||| place (w.extractLsb' 21 10) 0, ?_⟩
  simp (disch := decide) only [encodeJ, decodeRd, opcode,
    BitVec.extractLsb'_or, extractLsb'_place, extractLsb'_place_of_le, extractLsb'_place_of_ge,
    BitVec.or_zero, BitVec.zero_or]
  simp only [quadrant_field hq, BitVec.or_assoc, field_or_low]
  exact place_all w

end Fields

/-! ## The legal words by their fields -/

/-- Bits 31:20. -/
def funct12 (w : BitVec 32) : BitVec 12 := w.extractLsb' 20 12

/-- The `funct12` of the trap instructions. -/
def systemFunct12 : List (BitVec 12) := [0#12, 1#12, 0x102#12, 0x105#12, 0x302#12]

/-- The fields of an instruction of RV32, opcode by opcode. -/
def Rv32Fields (w : BitVec 32) : Prop :=
  match opcode w with
  | 0#5 => decodeFunct3 w ∈ [0#3, 1#3, 2#3, 4#3, 5#3]
  | 3#5 =>
      decodeFunct3 w = 0#3 ∨ decodeFunct3 w = 1#3
        ∨ decodeFunct3 w = 2#3 ∧ funct12 w = 4#12 ∧ decodeRd w = 0#5
  | 4#5 =>
      (decodeFunct3 w = 1#3 → decodeFunct7 w = 0#7)
        ∧ (decodeFunct3 w = 5#3 → decodeFunct7 w = 0#7 ∨ decodeFunct7 w = 32#7)
  | 5#5 => True
  | 8#5 => decodeFunct3 w ∈ [0#3, 1#3, 2#3]
  | 11#5 =>
      decodeFunct3 w = 2#3 ∧ (decodeFunct5 w = 2#5 ∧ decodeRs2 w = 0#5 ∨ decodeFunct5 w = 3#5)
        ∨ decodeFunct3 w ∈ [0#3, 1#3, 2#3] ∧ decodeFunct5 w ∈ rmwFunct5
  | 12#5 =>
      decodeFunct7 w = 0#7 ∨ decodeFunct7 w = 1#7
        ∨ decodeFunct7 w = 32#7 ∧ (decodeFunct3 w = 0#3 ∨ decodeFunct3 w = 5#3)
  | 13#5 => True
  | 24#5 => decodeFunct3 w ≠ 2#3 ∧ decodeFunct3 w ≠ 3#3
  | 25#5 => decodeFunct3 w = 0#3
  | 27#5 => True
  | 28#5 =>
      decodeFunct3 w = 0#3 ∧ funct12 w ∈ systemFunct12 ∧ decodeRd w = 0#5 ∧ decodeRs1 w = 0#5
        ∨ decodeFunct3 w ≠ 0#3 ∧ decodeFunct3 w ≠ 4#3
  | _ => False

theorem funct12_encodeI (imm : BitVec 12) (rs1 : RegNo) (funct3 : BitVec 3) (rd : RegNo)
    (op : BitVec 5) : funct12 (encodeI imm rs1 funct3 rd op) = imm := by
  simp (disch := decide) [funct12, encodeI, BitVec.extractLsb'_or, extractLsb'_place,
    extractLsb'_place_of_le]

theorem decodeFunct5_eq (w : BitVec 32) : decodeFunct5 w = (decodeFunct7 w).extractLsb' 2 5 := by
  rw [decodeFunct7, extractLsb'_extractLsb' _ (by decide)]
  rfl

theorem extract_amoFunct7 (funct5 : BitVec 5) (aqrl : BitVec 2) :
    (amoFunct7 funct5 aqrl).extractLsb' 2 5 = funct5 := by
  simp (disch := decide) [amoFunct7, BitVec.extractLsb'_or, extractLsb'_place,
    extractLsb'_place_of_le]

/-- `funct7` of an atomic is its operation and its ordering bits. -/
theorem amoFunct7_fields (w : BitVec 32) :
    amoFunct7 (decodeFunct5 w) (w.extractLsb' 25 2) = decodeFunct7 w := by
  have h := place_or_place (n := 7) w 25 2 5 0
  rw [amoFunct7, BitVec.or_comm, decodeFunct5, decodeFunct7]
  refine h.trans ?_
  rw [place_zero]
  exact BitVec.setWidth_eq _

/-- An instruction has the fields of its opcode. -/
theorem rv32Fields_encode (i : Rv32) : Rv32Fields i.encode := by
  cases i with
  | lui rd imm =>
      obtain ⟨hop, -⟩ := decode_encodeU rd opLui imm
      simp only [Rv32Fields, Rv32.encode, hop]
      trivial
  | auipc rd imm =>
      obtain ⟨hop, -⟩ := decode_encodeU rd opAuipc imm
      simp only [Rv32Fields, Rv32.encode, hop]
      trivial
  | jal rd imm =>
      obtain ⟨hop, -⟩ := decode_encodeJ rd opJal imm
      simp only [Rv32Fields, Rv32.encode, hop]
      trivial
  | jalr rd rs1 imm =>
      obtain ⟨hop, -, hf, -⟩ := decode_encodeI rs1 0#3 rd opJalr imm
      simp only [Rv32Fields, Rv32.encode, hop]
      exact hf
  | branch o rs1 rs2 imm =>
      obtain ⟨hop, hf, -⟩ := decode_encodeB rs2 rs1 o.funct3 opBranch imm
      simp only [Rv32Fields, Rv32.encode, hop, hf]
      exact (BranchOp.funct3_iff _).mp ⟨o, rfl⟩
  | load o rd rs1 imm =>
      obtain ⟨hop, -, hf, -⟩ := decode_encodeI rs1 o.funct3 rd opLoad imm
      simp only [Rv32Fields, Rv32.encode, hop, hf]
      exact (LoadOp.funct3_iff _).mp ⟨o, rfl⟩
  | store width rs1 rs2 imm =>
      obtain ⟨hop, hf, -⟩ := decode_encodeS rs2 rs1 width.funct3 opStore imm
      simp only [Rv32Fields, Rv32.encode, hop, hf]
      exact (MemWidth.funct3_iff _).mp ⟨width, rfl⟩
  | opImm o rd rs1 imm =>
      obtain ⟨hop, -, hf, -⟩ := decode_encodeI rs1 o.funct3 rd opOpImm imm
      obtain ⟨h1, h5⟩ := (ImmOp.funct3_iff _).mp ⟨o, rfl⟩
      simp only [Rv32Fields, Rv32.encode, hop, hf]
      exact ⟨fun h => absurd h h1, fun h => absurd h h5⟩
  | shiftImm o rd rs1 shamt =>
      obtain ⟨hop, -, hf, -, -, hf7⟩ := decode_encodeR o.funct7 shamt rs1 o.funct3 rd opOpImm
      simp only [Rv32Fields, Rv32.encode, hop, hf, hf7]
      show (o.funct3 = 1#3 → o.funct7 = 0#7) ∧ (o.funct3 = 5#3 → _)
      cases o <;> decide
  | op o rd rs1 rs2 =>
      obtain ⟨hop, -, hf, -, -, hf7⟩ := decode_encodeR o.funct7 rs2 rs1 o.funct3 rd opOp
      simp only [Rv32Fields, Rv32.encode, hop, hf, hf7]
      show o.funct7 = 0#7 ∨ o.funct7 = 1#7 ∨ o.funct7 = 32#7 ∧ (o.funct3 = 0#3 ∨ o.funct3 = 5#3)
      cases o <;> simp [RegOp.funct7, RegOp.funct3]
  | fence rd rs1 imm =>
      obtain ⟨hop, -, hf, -⟩ := decode_encodeI rs1 0#3 rd opMiscMem imm
      simp only [Rv32Fields, Rv32.encode, hop]
      exact Or.inl hf
  | fenceI rd rs1 imm =>
      obtain ⟨hop, -, hf, -⟩ := decode_encodeI rs1 1#3 rd opMiscMem imm
      simp only [Rv32Fields, Rv32.encode, hop]
      exact Or.inr (Or.inl hf)
  | cboZero rs1 =>
      obtain ⟨hop, hrd, hf, -⟩ := decode_encodeI rs1 2#3 x0 opMiscMem 4#12
      simp only [Rv32Fields, Rv32.encode, hop]
      exact Or.inr (Or.inr ⟨hf, funct12_encodeI _ _ _ _ _, hrd⟩)
  | system o =>
      obtain ⟨hop, hrd, hf, hrs1, -⟩ := decode_encodeI x0 0#3 x0 opSystem o.funct12
      simp only [Rv32Fields, Rv32.encode, hop, funct12_encodeI]
      exact Or.inl ⟨hf, (SystemOp.funct12_iff _).mp ⟨o, rfl⟩, hrd, hrs1⟩
  | csr o rd src no =>
      obtain ⟨hop, -, hf, -⟩ := decode_encodeI src o.funct3 rd opSystem no
      simp only [Rv32Fields, Rv32.encode, hop, hf]
      exact Or.inr ((CsrOp.funct3_iff _).mp ⟨o, rfl⟩)
  | lr aqrl rd rs1 =>
      obtain ⟨hop, -, hf, -, hrs2, hf7⟩ := decode_encodeR (amoFunct7 2#5 aqrl) x0 rs1 2#3 rd opAmo
      simp only [Rv32Fields, Rv32.encode, hop, hf, hrs2, decodeFunct5_eq, hf7, extract_amoFunct7]
      exact Or.inl ⟨trivial, Or.inl ⟨trivial, trivial⟩⟩
  | sc aqrl rd rs1 rs2 =>
      obtain ⟨hop, -, hf, -, -, hf7⟩ := decode_encodeR (amoFunct7 3#5 aqrl) rs2 rs1 2#3 rd opAmo
      simp only [Rv32Fields, Rv32.encode, hop, hf, decodeFunct5_eq, hf7, extract_amoFunct7]
      exact Or.inl ⟨trivial, Or.inr trivial⟩
  | amo o width aqrl rd rs1 rs2 =>
      obtain ⟨hop, -, hf, -, -, hf7⟩ :=
        decode_encodeR (amoFunct7 o.funct5 aqrl) rs2 rs1 width.funct3 rd opAmo
      simp only [Rv32Fields, Rv32.encode, hop, hf, decodeFunct5_eq, hf7, extract_amoFunct7]
      exact Or.inr ⟨(MemWidth.funct3_iff _).mp ⟨width, rfl⟩, (AmoOp.funct5_iff _).mp ⟨o, rfl⟩⟩

/-- A word with the fields of an instruction is one. -/
theorem isRv32_of_fields {w : BitVec 32} (hq : w.extractLsb' 0 2 = 3#2) (h : Rv32Fields w) :
    IsRv32 w := by
  have hR := encodeR_fields hq
  have hI := encodeI_fields hq
  unfold Rv32Fields at h
  split at h
  · -- LOAD
    rename_i hop
    obtain ⟨o, ho⟩ := (LoadOp.funct3_iff _).mpr h
    rw [hop, ← ho] at hI
    exact ⟨.load o _ _ _, hI⟩
  · -- MISC-MEM
    rename_i hop
    rw [hop] at hI
    rcases h with hf | hf | ⟨hf, h12, hrd⟩
    · rw [hf] at hI
      exact ⟨.fence _ _ _, hI⟩
    · rw [hf] at hI
      exact ⟨.fenceI _ _ _, hI⟩
    · rw [hf, show w.extractLsb' 20 12 = 4#12 from h12, hrd] at hI
      exact ⟨.cboZero _, hI⟩
  · -- OP-IMM: the shifts have a `funct7`, the others an immediate
    rename_i hop
    rw [hop] at hI hR
    by_cases h1 : decodeFunct3 w = 1#3
    · rw [h1, h.1 h1] at hR
      exact ⟨.shiftImm .slli _ _ _, hR⟩
    · by_cases h5 : decodeFunct3 w = 5#3
      · rcases h.2 h5 with h7 | h7
        · rw [h5, h7] at hR
          exact ⟨.shiftImm .srli _ _ _, hR⟩
        · rw [h5, h7] at hR
          exact ⟨.shiftImm .srai _ _ _, hR⟩
      · obtain ⟨o, ho⟩ := (ImmOp.funct3_iff _).mpr ⟨h1, h5⟩
        rw [← ho] at hI
        exact ⟨.opImm o _ _ _, hI⟩
  · -- AUIPC
    rename_i hop
    have hU := encodeU_fields hq
    rw [hop] at hU
    exact ⟨.auipc _ _, hU⟩
  · -- STORE
    rename_i hop
    obtain ⟨imm, hS⟩ := encodeS_fields hq
    obtain ⟨width, hw⟩ := (MemWidth.funct3_iff _).mpr h
    rw [hop, ← hw] at hS
    exact ⟨.store width _ _ imm, hS⟩
  · -- AMO
    rename_i hop
    rw [hop, ← amoFunct7_fields] at hR
    rcases h with ⟨hf, ⟨h5, hrs2⟩ | h5⟩ | ⟨hf, h5⟩
    · rw [hf, h5, hrs2] at hR
      exact ⟨.lr _ _ _, hR⟩
    · rw [hf, h5] at hR
      exact ⟨.sc _ _ _ _, hR⟩
    · obtain ⟨width, hw⟩ := (MemWidth.funct3_iff _).mpr hf
      obtain ⟨o, ho⟩ := (AmoOp.funct5_iff _).mpr h5
      rw [← hw, ← ho] at hR
      exact ⟨.amo o width _ _ _ _, hR⟩
  · -- OP
    rename_i hop
    rw [hop] at hR
    rcases h with h7 | h7 | ⟨h7, hf | hf⟩
    · rw [h7] at hR
      exact ⟨.op (.base (decodeFunct3 w)) _ _ _, hR⟩
    · rw [h7] at hR
      exact ⟨.op (.mulDiv (decodeFunct3 w)) _ _ _, hR⟩
    · rw [h7, hf] at hR
      exact ⟨.op .sub _ _ _, hR⟩
    · rw [h7, hf] at hR
      exact ⟨.op .sra _ _ _, hR⟩
  · -- LUI
    rename_i hop
    have hU := encodeU_fields hq
    rw [hop] at hU
    exact ⟨.lui _ _, hU⟩
  · -- BRANCH
    rename_i hop
    obtain ⟨imm, hB⟩ := encodeB_fields hq
    obtain ⟨o, ho⟩ := (BranchOp.funct3_iff _).mpr h
    rw [hop, ← ho] at hB
    exact ⟨.branch o _ _ imm, hB⟩
  · -- JALR
    rename_i hop
    rw [hop, h] at hI
    exact ⟨.jalr _ _ _, hI⟩
  · -- JAL
    rename_i hop
    obtain ⟨imm, hJ⟩ := encodeJ_fields hq
    rw [hop] at hJ
    exact ⟨.jal _ imm, hJ⟩
  · -- SYSTEM
    rename_i hop
    rw [hop] at hI
    rcases h with ⟨hf, h12, hrd, hrs1⟩ | hf
    · obtain ⟨o, ho⟩ := (SystemOp.funct12_iff _).mpr h12
      rw [hf, hrd, hrs1, show w.extractLsb' 20 12 = o.funct12 from ho.symm] at hI
      exact ⟨.system o, hI⟩
    · obtain ⟨o, ho⟩ := (CsrOp.funct3_iff _).mpr hf
      rw [← ho] at hI
      exact ⟨.csr o _ _ _, hI⟩
  · exact h.elim

theorem isRv32_iff {w : BitVec 32} (hq : w.extractLsb' 0 2 = 3#2) : IsRv32 w ↔ Rv32Fields w := by
  constructor
  · rintro ⟨i, rfl⟩
    exact rv32Fields_encode i
  · exact isRv32_of_fields hq

/-! ## What the emulator finds illegal -/

/-- An illegal-instruction trap is latched. -/
def RaisesIll (s : Cpu c) : Prop :=
  s.trap = true ∧ s.trapCause = BitVec.ofNat _ TrapCause.instIll.toNat

theorem raisesIll_ill (s : Cpu c) : RaisesIll (doILL s) := ⟨rfl, rfl⟩

theorem not_raisesIll {s : Cpu c} (h : s.trap = false) : ¬ RaisesIll s := by
  rintro ⟨ht, -⟩
  rw [h] at ht
  cases ht

/-- Another exception is not an illegal instruction. -/
theorem not_raisesIll_trap (s : Cpu c) {cause : TrapCause} (h : cause ≠ .instIll) :
    ¬ RaisesIll (trap s cause) := by
  rintro ⟨-, hc⟩
  have hx := c.xlen_ge
  have hlt : ∀ t : TrapCause, t.toNat < 2 ^ c.xlen := by
    intro t
    have h31 := t.toNat_lt
    have hpow : 2 ^ 5 ≤ 2 ^ c.xlen := Nat.pow_le_pow_right (by decide) (by omega)
    omega
  have hn := congrArg BitVec.toNat hc
  simp only [trap, BitVec.toNat_ofNat, Nat.mod_eq_of_lt (hlt _)] at hn
  cases cause <;> first | exact h rfl | cases hn

theorem bv3_cases (f : BitVec 3) :
    f = 0#3 ∨ f = 1#3 ∨ f = 2#3 ∨ f = 3#3 ∨ f = 4#3 ∨ f = 5#3 ∨ f = 6#3 ∨ f = 7#3 := by
  revert f
  decide

theorem branchTaken_none_iff {n : Nat} (funct3 : BitVec 3) (x y : BitVec n) :
    branchTaken funct3 x y = none ↔ funct3 = 2#3 ∨ funct3 = 3#3 := by
  rcases bv3_cases funct3 with rfl | rfl | rfl | rfl | rfl | rfl | rfl | rfl <;>
    simp [branchTaken]

/-- A word that a field fills is known by the field. -/
theorem place_inj {k n : Nat} (hk : k ≤ n) {x y : BitVec k}
    (h : (place x 0 : BitVec n) = place y 0) : x = y := by
  have hx := congrArg (fun z : BitVec n => z.extractLsb' 0 k) h
  simpa only [extractLsb'_place (n := n) _ (show 0 + k ≤ n by omega)] using hx

section Handlers

variable {s : Cpu c} (h : s.trap = false)
include h

theorem not_raisesIll_writeReg (rd : Reg) (d : Word c) : ¬ RaisesIll (writeReg s rd d) :=
  not_raisesIll (by rw [writeReg_trap, h])

theorem not_raisesIll_writePC (d : Addr c) : ¬ RaisesIll (writePC s d) :=
  not_raisesIll (by rw [writePC_trap, h])

theorem doOPIMM_ill (funct3 : BitVec 3) (iimm : BitVec 32) (rd rs1 : Reg) :
    RaisesIll (doOPIMM s funct3 iimm rd rs1)
      ↔ funct3 = 1#3 ∧ iimm >>> 6 ≠ 0#32
        ∨ funct3 = 5#3 ∧ iimm >>> 6 ≠ 0#32 ∧ iimm >>> 6 ≠ 0x10#32 := by
  have hreg := not_raisesIll_writeReg h rd
  unfold doOPIMM
  split
  · split
    · exact iff_of_false (hreg _) (by simp [*])
    · rename_i hne
      exact iff_of_true (raisesIll_ill s) (Or.inl ⟨rfl, hne⟩)
  · exact iff_of_false (hreg _) (by simp)
  · exact iff_of_false (hreg _) (by simp)
  · exact iff_of_false (hreg _) (by simp)
  · split
    · exact iff_of_false (hreg _) (by simp [*])
    · exact iff_of_false (hreg _) (by simp [*])
    · rename_i h0 h16
      exact iff_of_true (raisesIll_ill s) (Or.inr ⟨rfl, h0, h16⟩)
  · exact iff_of_false (hreg _) (by simp)
  · exact iff_of_false (hreg _) (by simp)
  · rename_i h1 _ _ _ h5 _ _
    refine iff_of_false (hreg _) ?_
    rintro (⟨hf, -⟩ | ⟨hf, -⟩)
    · exact h1 hf
    · exact h5 hf

theorem doOP_ill (funct3 : BitVec 3) (funct7 : BitVec 7) (rd rs1 rs2 : Reg) :
    RaisesIll (doOP s funct3 funct7 rd rs1 rs2)
      ↔ ¬ (funct7 = 0#7 ∨ funct7 = 1#7 ∨ funct7 = 32#7 ∧ (funct3 = 0#3 ∨ funct3 = 5#3)) := by
  have hreg := not_raisesIll_writeReg h rd
  unfold doOP
  split
  case h_19 =>
    -- no case of the source is left over
    refine iff_of_true (raisesIll_ill s) ?_
    rcases bv3_cases funct3 with rfl | rfl | rfl | rfl | rfl | rfl | rfl | rfl <;> simp_all
  all_goals exact iff_of_false (hreg _) (by simp)

theorem doBRANCH_ill (funct3 : BitVec 3) (bimm : BitVec 32) (rs1 rs2 : Reg) (size : Int) :
    RaisesIll (doBRANCH s funct3 bimm rs1 rs2 size) ↔ ¬ (funct3 ≠ 2#3 ∧ funct3 ≠ 3#3) := by
  have hnone := branchTaken_none_iff funct3 (readReg s rs1) (readReg s rs2)
  unfold doBRANCH
  split
  · rename_i ht
    rw [ht] at hnone
    exact iff_of_false (not_raisesIll_writePC h _) (not_not.mpr (not_or.mp (mt hnone.mpr nofun)))
  · rename_i hf
    rw [hf] at hnone
    exact iff_of_false (not_raisesIll h) (not_not.mpr (not_or.mp (mt hnone.mpr nofun)))
  · rename_i hn
    exact iff_of_true (raisesIll_ill s) (mt not_or.mpr (not_not.mpr (hnone.mp hn)))

theorem doJALR_ill (funct3 : BitVec 3) (iimm : BitVec 32) (rd rs1 : Reg) (size : Int) :
    RaisesIll (doJALR s funct3 iimm rd rs1 size) ↔ funct3 ≠ 0#3 := by
  unfold doJALR
  split
  · have ht : ∀ d, (writeReg s rd d).trap = false := fun d => by rw [writeReg_trap, h]
    exact iff_of_false (not_raisesIll_writePC (ht _) _) (not_not.mpr rfl)
  · rename_i hne
    exact iff_of_true (raisesIll_ill s) hne

/-- In M-mode every return instruction is legal. -/
theorem xret_machine_trap (hm : s.mode = .machine) (mode : PrivMode) (size : Int) :
    (xret s mode size).trap = false := by
  have hlt : ¬ s.mode < mode := by
    rw [hm]
    cases mode <;> decide
  have hne : (s.mode = .supervisor) = False := by simp [hm]
  simp [xret, hlt, hne, writePC_trap, h]

/-- In M-mode, ECALL, EBREAK, SRET, WFI and MRET are all there is besides the CSR instructions. -/
theorem doSYSTEM_priv_ill (hm : s.mode = .machine) (mtime : BitVec 64) (imm : BitVec 12)
    (rd rs1 : Reg) (size : Int) :
    RaisesIll (doSYSTEM s mtime 0#3 (place imm 0) rd rs1 size) ↔ imm ∉ systemFunct12 := by
  by_cases hmem : imm ∈ systemFunct12
  · refine iff_of_false ?_ (not_not.mpr hmem)
    simp only [systemFunct12, List.mem_cons, List.not_mem_nil, or_false] at hmem
    -- ECALL, EBREAK, SRET, WFI and MRET
    rcases hmem with rfl | rfl | rfl | rfl | rfl
    · show ¬ RaisesIll (trap s (ecallCause s.mode))
      rw [hm]
      exact not_raisesIll_trap s (by decide)
    · exact not_raisesIll_trap s (by decide)
    · exact not_raisesIll (xret_machine_trap h hm _ _)
    · have hself : ¬ PrivMode.machine < PrivMode.machine := by decide
      show ¬ RaisesIll (if _ then _ else _)
      rw [if_neg (by simp [hm, hself])]
      exact not_raisesIll h
    · exact not_raisesIll (xret_machine_trap h hm _ _)
  · refine iff_of_true ?_ hmem
    simp only [systemFunct12, List.mem_cons, List.not_mem_nil, or_false, not_or] at hmem
    obtain ⟨h0, h1, h102, h105, h302⟩ := hmem
    -- every other immediate reaches the default
    have hne : ∀ k : BitVec 12, imm ≠ k → (place imm 0 : BitVec 32) ≠ place k 0 :=
      fun k hk he => hk (place_inj (by decide) he)
    simp only [doSYSTEM]
    split
    · exact absurd ‹_› (hne 0#12 h0)
    · exact absurd ‹_› (hne 1#12 h1)
    · exact absurd ‹_› (hne 0x102#12 h102)
    · exact absurd ‹_› (hne 0x105#12 h105)
    · exact absurd ‹_› (hne 0x302#12 h302)
    · exact raisesIll_ill s

/-- A CSR read that M-mode may do. -/
theorem readCSR_machine (hm : s.mode = .machine) {mtime : BitVec 64} {n : BitVec 16} {v : Word c}
    (hv : csrValue s mtime n = some v) : readCSR s mtime n = (s, v) := by
  have hlt : ¬ s.mode < csrPrivMode n := by
    rw [hm]
    cases csrPrivMode n <;> decide
  simp [readCSR, h, hlt, hv]

/-- A CSR write that M-mode may do. -/
theorem writeCSR_machine_trap (hm : s.mode = .machine) {n : BitVec 16} {v : Word c}
    (hw : (csrWritten s n v).isSome = true) : (writeCSR s n v).trap = false := by
  have hlt : ¬ s.mode < csrPrivMode n := by
    rw [hm]
    cases csrPrivMode n <;> decide
  obtain ⟨s', hs'⟩ := Option.isSome_iff_exists.mp hw
  simp [writeCSR, h, hlt, hs', csrWritten_trap hs']

/-- A CSR instruction whose accesses are accepted is legal. -/
theorem doSYSTEM_csr_ill (hm : s.mode = .machine) (mtime : BitVec 64) {funct3 : BitVec 3}
    (h0 : funct3 ≠ 0#3) (iimm : BitVec 32) (rd rs1 : Reg) (size : Int)
    (hread : funct3 ≠ 4#3 → (csrValue s mtime (iimm.setWidth 16)).isSome = true)
    (hwrite : funct3 ≠ 4#3 → funct3 = 1#3 ∨ funct3 = 5#3 ∨ rs1 ≠ 0#5 →
      ∀ v, (csrWritten s (iimm.setWidth 16) v).isSome = true) :
    RaisesIll (doSYSTEM s mtime funct3 iimm rd rs1 size) ↔ funct3 = 4#3 := by
  by_cases h4 : funct3 = 4#3
  · subst h4
    exact iff_of_true (raisesIll_ill s) rfl
  refine iff_of_false (not_raisesIll ?_) h4
  obtain ⟨v, hv⟩ := Option.isSome_iff_exists.mp (hread h4)
  have hr := readCSR_machine h hm hv
  have hset : (funct3 = 1#3 ∨ funct3 = 5#3 ∨ rs1 ≠ 0#5) →
      ∀ x, (writeCSR s (iimm.setWidth 16) x).trap = false :=
    fun hp x => writeCSR_machine_trap h hm (hwrite h4 hp x)
  have hkind : ∀ f : BitVec 3, f ≠ 0#3 → f ≠ 4#3 →
      (f = 1#3 ∨ f = 5#3) ∨ f = 2#3 ∨ f = 3#3 ∨ f = 6#3 ∨ f = 7#3 := by decide
  rcases hkind funct3 h0 h4 with hw | hc
  · -- CSRRW and CSRRWI write the CSR in any case, and read it unless `rd` is `x0`
    rcases hw with rfl | rfl
    all_goals
      simp only [doSYSTEM, hr]
      split
      · rw [writeReg_trap, hset (by simp)]
      · rw [hset (by simp)]
  · -- the others read it in any case, and write it unless their source is `x0`
    rcases hc with rfl | rfl | rfl | rfl
    all_goals
      simp only [doSYSTEM, hr, writeReg_trap]
      split
      · rename_i hrs1
        rw [hset (by simp [hrs1])]
      · exact h

end Handlers

/-! ## The access of an instruction -/

/-- The address of a load or store. -/
def memAddr (m : Machine c) (imm : BitVec 32) (rs1 : Reg) : Addr c :=
  (readReg m.cpu rs1 + (signExtend (imm.setWidth _) 11 : Addr c).setWidth _).setWidth _

/-- The address of a cache operation. -/
def cboAddr (m : Machine c) (rs1 : Reg) : Addr c :=
  (readReg m.cpu rs1 &&& (~~~BitVec.ofNat _ (dcacheLineSize - 1) : Addr c).setWidth _).setWidth _

/-- The range of memory that `_execInstr` accesses for a word in M-mode. -/
def accessRange (m : Machine c) (w : BitVec 32) : Option (Addr c × Nat) :=
  match opcode w with
  | 0#5 =>
      let size := 1 <<< (decodeFunct3 w &&& 3#3).toNat
      if c.wordBytes < size then none
      else some (memAddr m (decodeIimm w) (decodeRs1 w), size)
  | 3#5 =>
      if decodeFunct3 w = 2#3 ∧ funct12 w = 4#12 ∧ decodeRd w = 0#5 then
        some (cboAddr m (decodeRs1 w), dcacheLineSize)
      else none
  | 8#5 =>
      let size := 1 <<< (decodeFunct3 w).toNat
      if c.wordBytes < size then none
      else some (memAddr m (decodeSimm w) (decodeRs1 w), size)
  | 11#5 => some (amoAddr m (decodeRs1 w), amoSize c (decodeFunct3 w))
  | _ => none

/-- No memory access of the instruction faults or is misaligned. -/
def AccessOk (m : Machine c) (w : BitVec 32) : Prop :=
  ∀ addr size, accessRange m w = some (addr, size) →
    ¬ Unmapped m addr size ∧ (opcode w = 11#5 → addr.toNat &&& (size - 1) = 0)

/-- No CSR access of the instruction is refused. -/
def CsrOk (m : Machine c) (w : BitVec 32) : Prop :=
  opcode w = 28#5 → decodeFunct3 w ≠ 0#3 → decodeFunct3 w ≠ 4#3 →
    (csrValue m.cpu m.aclint.mtime ((decodeIimm w).setWidth 16)).isSome = true
      ∧ (decodeFunct3 w = 1#3 ∨ decodeFunct3 w = 5#3 ∨ decodeRs1 w ≠ 0#5 →
        ∀ v, (csrWritten m.cpu ((decodeIimm w).setWidth 16) v).isSome = true)

/-- A legal operation on mapped bytes completes. -/
theorem amoTail_legal {m1 : Machine c} (h1 : m1.cpu.trap = false) {funct5 : BitVec 5} {rs2 : Reg}
    (hop : funct5 = 2#5 ∧ rs2 = 0#5 ∨ funct5 = 3#5 ∨ funct5 ∈ rmwFunct5) (rd : Reg) {addr : Addr c}
    {size : Nat} (hm : ¬ Unmapped m1 addr size) (rs2Val data : Word c) :
    (amoTail (amoSwitch m1 funct5 rs2 addr size rs2Val data) rd addr size).cpu.trap = false := by
  have hmapped : ∀ bus : Bus c DevKind, bus.devices = m1.bus.devices →
      ¬ Unmapped { m1 with bus := bus } addr size := by
    intro bus hbus
    rw [Unmapped, findDevice_congr hbus]
    exact hm
  rcases hop with ⟨rfl, rfl⟩ | rfl | hrmw
  · exact amoTail_mapped h1 rd (hmapped _ rfl)
  · exact amoTail_mapped h1 rd (hmapped _ (busReservationCheckInvalidate_devices _ _ _))
  · obtain ⟨res, hres⟩ := amoSwitch_rmw m1 rs2 addr size rs2Val data hrmw
    rw [hres]
    exact amoTail_mapped h1 rd (hmapped m1.bus rfl)

section Memory

variable {m : Machine c} (h : m.cpu.trap = false)
include h

/-- A load of mapped bytes completes. -/
theorem doLOAD_mapped (funct3 : BitVec 3) (iimm : BitVec 32) (rd rs1 : Reg)
    (hsize : ¬ c.wordBytes < 1 <<< (funct3 &&& 3#3).toNat)
    (hm : ¬ Unmapped m (memAddr m iimm rs1) (1 <<< (funct3 &&& 3#3).toNat)) :
    (doLOAD m funct3 iimm rd rs1).cpu.trap = false := by
  obtain ⟨⟨d, devAddr⟩, hd⟩ := Option.ne_none_iff_exists'.mp hm
  rw [doLOAD, if_neg hsize, writeReg_trap]
  exact (congrArg (fun m : Machine c => m.cpu.trap) (readMem_mapped h hd)).trans
    ((devRead_frame _ _ _ _).cpu.trap.trans h)

theorem doLOAD_ill (funct3 : BitVec 3) (iimm : BitVec 32) (rd rs1 : Reg)
    (hok : ¬ c.wordBytes < 1 <<< (funct3 &&& 3#3).toNat →
      ¬ Unmapped m (memAddr m iimm rs1) (1 <<< (funct3 &&& 3#3).toNat)) :
    RaisesIll (doLOAD m funct3 iimm rd rs1).cpu
      ↔ c.wordBytes < 1 <<< (funct3 &&& 3#3).toNat := by
  by_cases hsize : c.wordBytes < 1 <<< (funct3 &&& 3#3).toNat
  · rw [doLOAD, if_pos hsize]
    exact iff_of_true (raisesIll_ill m.cpu) hsize
  · exact iff_of_false (not_raisesIll (doLOAD_mapped h funct3 iimm rd rs1 hsize (hok hsize))) hsize

theorem doSTORE_ill (funct3 : BitVec 3) (simm : BitVec 32) (rs1 rs2 : Reg)
    (hok : ¬ c.wordBytes < 1 <<< funct3.toNat →
      ¬ Unmapped m (memAddr m simm rs1) (1 <<< funct3.toNat)) :
    RaisesIll (doSTORE m funct3 simm rs1 rs2).cpu ↔ c.wordBytes < 1 <<< funct3.toNat := by
  simp only [doSTORE]
  split
  · rename_i hsize
    exact iff_of_true (raisesIll_ill m.cpu) hsize
  · rename_i hsize
    refine iff_of_false (not_raisesIll (writeMem_mapped h ?_)) hsize
    rw [toBytes_length]
    exact hok hsize

theorem doMISCMEM_ill (hm : m.cpu.mode = .machine) (funct3 : BitVec 3) (imm : BitVec 12)
    (rd rs1 : Reg)
    (hok : funct3 = 2#3 ∧ imm = 4#12 ∧ rd = 0#5 → ¬ Unmapped m (cboAddr m rs1) dcacheLineSize) :
    RaisesIll (doMISCMEM m funct3 (place imm 0) rd rs1).cpu
      ↔ ¬ (funct3 = 0#3 ∨ funct3 = 1#3 ∨ funct3 = 2#3 ∧ imm = 4#12 ∧ rd = 0#5) := by
  have hill : RaisesIll (doILL m.cpu) := raisesIll_ill m.cpu
  have hmode : ¬ m.cpu.mode < .machine ∧ ¬ m.cpu.mode < .supervisor := by
    rw [hm]
    decide
  unfold doMISCMEM
  split
  · exact iff_of_false (not_raisesIll h) (by simp)
  · exact iff_of_false (not_raisesIll h) (by simp)
  · -- CBO: only `cbo.zero`, and only with `rd` 0
    split
    · rename_i himm
      have himm : imm = 4#12 := place_inj (n := 32) (by decide) himm
      split
      · rename_i hrd
        have hmapped : ¬ Unmapped m (cboAddr m rs1)
            (List.replicate dcacheLineSize (0#8 : Byte)).length := by
          rw [List.length_replicate]
          exact hok ⟨rfl, himm, hrd⟩
        simp only [hmode, decide_false, Bool.false_and, Bool.false_eq_true, if_false]
        exact iff_of_false (not_raisesIll (writeMem_mapped h hmapped)) (by simp [himm, hrd])
      · rename_i hrd
        exact iff_of_true hill (by simp [hrd])
    · rename_i hne
      have himm : imm ≠ 4#12 := fun he => hne (by rw [he]; rfl)
      exact iff_of_true hill (by simp [himm])
  · rename_i h0 h1 h2
    refine iff_of_true hill ?_
    rintro (hf | hf | ⟨hf, -⟩)
    · exact h0 hf
    · exact h1 hf
    · exact h2 hf

/-- The read of an atomic of mapped bytes. -/
theorem readMem_keeps_mapped {addr : Addr c} {size : Nat} (hm : ¬ Unmapped m addr size) :
    (readMem m addr size).1.cpu.trap = false ∧ ¬ Unmapped (readMem m addr size).1 addr size := by
  obtain ⟨⟨d, devAddr⟩, hd⟩ := Option.ne_none_iff_exists'.mp hm
  have hframe := devRead_frame m d.dev.callbacks devAddr.toNat (List.replicate size 0#8)
  rw [← readMem_mapped h hd] at hframe
  refine ⟨hframe.cpu.trap.trans h, ?_⟩
  rw [Unmapped, findDevice_congr (congrArg Bus.devices hframe.bus)]
  exact hm

/-- An aligned atomic of mapped bytes is illegal by its operation only. -/
theorem doAMO_ill (funct3 : BitVec 3) (funct5 : BitVec 5) (rd rs1 rs2 : Reg)
    (hok : ¬ Unmapped m (amoAddr m rs1) (amoSize c funct3))
    (hal : (amoAddr m rs1).toNat &&& (amoSize c funct3 - 1) = 0) :
    RaisesIll (doAMO m funct3 funct5 rd rs1 rs2).cpu
      ↔ ¬ (funct5 = 2#5 ∧ rs2 = 0#5 ∨ funct5 = 3#5 ∨ funct5 ∈ rmwFunct5) := by
  obtain ⟨rs2Val, data, heq⟩ := doAMO_aligned m funct3 funct5 rd rs1 rs2 hal
  obtain ⟨h1, hm⟩ := readMem_keeps_mapped h hok
  rw [amoAddr] at h1 hm
  rw [heq]
  by_cases hop : funct5 = 2#5 ∧ rs2 = 0#5 ∨ funct5 = 3#5 ∨ funct5 ∈ rmwFunct5
  · exact iff_of_false (not_raisesIll (amoTail_legal h1 hop rd hm rs2Val data)) (not_not.mpr hop)
  · obtain ⟨hlr, hsc, hrmw⟩ : ¬ (funct5 = 2#5 ∧ rs2 = 0#5) ∧ funct5 ≠ 3#5 ∧ funct5 ∉ rmwFunct5 := by
      tauto
    rw [amoSwitch_ill _ _ _ _ _ _ hlr hsc hrmw, amoTail_of_trap rfl]
    exact iff_of_true (raisesIll_ill _) hop

end Memory

/-! ## Exactness -/

/-- The words that `_execInstr` executes although they encode no instruction of RV32: LWU, shifts
with bit 25 set, atomics of other widths, LR and SC of a byte or halfword, and trap instructions
that name a register. -/
def Superfluous (w : BitVec 32) : Prop :=
  match opcode w with
  | 0#5 => decodeFunct3 w = 6#3
  | 4#5 =>
      decodeFunct3 w = 1#3 ∧ decodeFunct7 w = 1#7
        ∨ decodeFunct3 w = 5#3 ∧ (decodeFunct7 w = 1#7 ∨ decodeFunct7 w = 33#7)
  | 11#5 =>
      decodeFunct3 w ≠ 2#3 ∧ (decodeFunct5 w = 2#5 ∧ decodeRs2 w = 0#5 ∨ decodeFunct5 w = 3#5)
        ∨ decodeFunct3 w ∉ [0#3, 1#3, 2#3] ∧ decodeFunct5 w ∈ rmwFunct5
  | 28#5 =>
      decodeFunct3 w = 0#3 ∧ funct12 w ∈ systemFunct12 ∧ (decodeRd w ≠ 0#5 ∨ decodeRs1 w ≠ 0#5)
  | _ => False

theorem decodeIimm_place (w : BitVec 32) : decodeIimm w = place (funct12 w) 0 := decodeIimm_eq w

/-- The part of the immediate that the shifts compare. -/
theorem decodeIimm_upper (w : BitVec 32) :
    decodeIimm w >>> 6 = place ((decodeFunct7 w).extractLsb' 1 6) 0 := by
  rw [decodeIimm_eq, decodeFunct7, extractLsb'_extractLsb' _ (by decide), place_zero, place_zero]
  apply BitVec.eq_of_getLsbD_eq
  intro i hi
  simp only [BitVec.getLsbD_ushiftRight, BitVec.getLsbD_setWidth, BitVec.getLsbD_extractLsb', hi,
    decide_true, Bool.true_and]
  rw [← Nat.add_assoc]
  by_cases h6 : i < 6
  · simp [h6, show 6 + i < 32 by omega, show 6 + i < 12 by omega]
  · simp [h6, show ¬ 6 + i < 12 by omega]

theorem shiftUpper_iff (w : BitVec 32) :
    (decodeIimm w >>> 6 = 0#32 ↔ decodeFunct7 w = 0#7 ∨ decodeFunct7 w = 1#7)
      ∧ (decodeIimm w >>> 6 = 0x10#32 ↔ decodeFunct7 w = 32#7 ∨ decodeFunct7 w = 33#7) := by
  have hcases : ∀ f : BitVec 7,
      (f.extractLsb' 1 6 = 0#6 ↔ f = 0#7 ∨ f = 1#7)
        ∧ (f.extractLsb' 1 6 = 0x10#6 ↔ f = 32#7 ∨ f = 33#7) := by decide
  have hinj : ∀ k : BitVec 6, decodeIimm w >>> 6 = place k 0
      ↔ (decodeFunct7 w).extractLsb' 1 6 = k := by
    intro k
    rw [decodeIimm_upper]
    exact ⟨place_inj (by decide), fun h => by rw [h]⟩
  exact ⟨(hinj 0#6).trans (hcases _).1, (hinj 0x10#6).trans (hcases _).2⟩

theorem not_superfluous {w : BitVec 32} (h0 : opcode w ≠ 0#5) (h4 : opcode w ≠ 4#5)
    (h11 : opcode w ≠ 11#5) (h28 : opcode w ≠ 28#5) : ¬ Superfluous w := by
  unfold Superfluous
  split
  · exact absurd ‹_› h0
  · exact absurd ‹_› h4
  · exact absurd ‹_› h11
  · exact absurd ‹_› h28
  · exact id

/-- LR and SC are no read-modify-write operations. -/
theorem lr_sc_not_rmw {funct5 : BitVec 5} {rs2 : Reg}
    (h : funct5 = 2#5 ∧ rs2 = 0#5 ∨ funct5 = 3#5) : funct5 ∉ rmwFunct5 := by
  rcases h with ⟨rfl, -⟩ | rfl <;> decide

/-- A disjunction, split by two conditions. -/
theorem not_or_split (A B P Q R : Prop) :
    ¬ (P ∨ Q ∨ R)
      ↔ ¬ ((A ∧ (P ∨ Q) ∨ B ∧ R) ∨ (¬ A ∧ (P ∨ Q) ∨ ¬ B ∧ R)) := by
  tauto

/-- The superfluous words are not legal. -/
theorem not_fields_and_superfluous (w : BitVec 32) : ¬ (Rv32Fields w ∧ Superfluous w) := by
  rintro ⟨hl, hs⟩
  have hf3 := bv3_cases (decodeFunct3 w)
  unfold Superfluous at hs
  split at hs
  · rename_i hop
    simp [Rv32Fields, hop, hs] at hl
  · rename_i hop
    simp only [Rv32Fields, hop] at hl
    rcases hs with ⟨hf, h7⟩ | ⟨hf, h7 | h7⟩
    all_goals simp [hf, h7] at hl
  · rename_i hop
    simp only [Rv32Fields, hop] at hl
    rcases hl with ⟨hf, h5⟩ | ⟨hf, h5⟩ <;> rcases hs with ⟨hf', h5'⟩ | ⟨hf', h5'⟩
    · exact hf' hf
    · exact lr_sc_not_rmw h5 h5'
    · exact lr_sc_not_rmw h5' h5
    · exact hf' hf
  · rename_i hop
    simp only [Rv32Fields, hop] at hl
    tauto
  · exact hs

/-- What `_execInstr` finds illegal on RV32. -/
theorem raisesIll_iff {m : Machine .rv32} (h : m.cpu.trap = false) (hm : m.cpu.mode = .machine)
    {w : BitVec 32} (hacc : AccessOk m w) (hcsr : CsrOk m w) :
    RaisesIll (execInstr m w).cpu ↔ ¬ (Rv32Fields w ∨ Superfluous w) := by
  unfold AccessOk accessRange at hacc
  unfold CsrOk at hcsr
  have hf3 := bv3_cases (decodeFunct3 w)
  have hother : ∀ k : BitVec 5, opcode w = k → k ∉ [0#5, 4#5, 11#5, 28#5] →
      (Rv32Fields w ∨ Superfluous w ↔ Rv32Fields w) := by
    rintro k rfl hk
    simp only [List.mem_cons, List.not_mem_nil, or_false, not_or] at hk
    exact or_iff_left (not_superfluous hk.1 hk.2.1 hk.2.2.1 hk.2.2.2)
  unfold execInstr
  split
  · -- LOAD: LWU passes the test of the width
    rename_i hop
    simp only [Rv32Fields, Superfluous, hop] at hacc ⊢
    rw [doLOAD_ill h]
    · rcases hf3 with hf | hf | hf | hf | hf | hf | hf | hf <;> rw [hf] <;> decide
    · intro hsize
      exact (hacc _ _ (by rw [if_neg hsize])).1
  · -- MISC-MEM
    rename_i hop
    rw [hother _ hop (by decide)]
    simp only [Rv32Fields, hop] at hacc ⊢
    rw [decodeIimm_place, doMISCMEM_ill h hm]
    intro hcbo
    exact (hacc _ _ (if_pos hcbo)).1
  · -- OP-IMM: the shifts compare the immediate from bit 6 on
    rename_i hop
    obtain ⟨h0, h16⟩ := shiftUpper_iff w
    simp only [Rv32Fields, Superfluous, hop]
    rw [doOPIMM_ill h, Ne, Ne, h0, h16]
    rcases hf3 with hf | hf | hf | hf | hf | hf | hf | hf <;> simp [hf]
    tauto
  · -- AUIPC
    rename_i hop
    rw [hother _ hop (by decide)]
    simp [Rv32Fields, hop, doAUIPC, not_raisesIll_writeReg h]
  · -- OP-IMM-32 is illegal on RV32
    rename_i hop
    rw [hother _ hop (by decide)]
    exact iff_of_true (raisesIll_ill _) (by simp [Rv32Fields, hop])
  · -- STORE
    rename_i hop
    rw [hother _ hop (by decide)]
    simp only [Rv32Fields, hop] at hacc ⊢
    rw [doSTORE_ill h]
    · rcases hf3 with hf | hf | hf | hf | hf | hf | hf | hf <;> rw [hf] <;> decide
    · intro hsize
      exact (hacc _ _ (by rw [if_neg hsize])).1
  · -- AMO: any width and operation of the switch
    rename_i hop
    simp only [Rv32Fields, Superfluous, hop] at hacc ⊢
    obtain ⟨hmap, hal⟩ := hacc _ _ rfl
    rw [doAMO_ill h _ _ _ _ _ hmap (hal trivial)]
    exact not_or_split _ _ _ _ _
  · -- OP
    rename_i hop
    rw [hother _ hop (by decide)]
    simp only [Rv32Fields, hop]
    exact doOP_ill h _ _ _ _ _
  · -- LUI
    rename_i hop
    rw [hother _ hop (by decide)]
    simp [Rv32Fields, hop, doLUI, not_raisesIll_writeReg h]
  · -- OP-32 is illegal on RV32
    rename_i hop
    rw [hother _ hop (by decide)]
    exact iff_of_true (raisesIll_ill _) (by simp [Rv32Fields, hop])
  · -- BRANCH
    rename_i hop
    rw [hother _ hop (by decide)]
    simp only [Rv32Fields, hop]
    exact doBRANCH_ill h _ _ _ _ _
  · -- JALR
    rename_i hop
    rw [hother _ hop (by decide)]
    simp only [Rv32Fields, hop]
    exact doJALR_ill h _ _ _ _ _
  · -- JAL
    rename_i hop
    rw [hother _ hop (by decide)]
    have ht : ∀ d, (writeReg m.cpu (decodeRd w) d).trap = false := fun d => by rw [writeReg_trap, h]
    simp [Rv32Fields, hop, doJAL, not_raisesIll_writePC (ht _)]
  · -- SYSTEM: the trap instructions are told by the immediate alone
    rename_i hop
    simp only [Rv32Fields, Superfluous, hop] at hcsr ⊢
    by_cases h0 : decodeFunct3 w = 0#3
    · rw [h0, decodeIimm_place, doSYSTEM_priv_ill h hm]
      by_cases hz : decodeRd w = 0#5 ∧ decodeRs1 w = 0#5
      · simp [hz]
      · simp [hz, not_and_or.mp hz]
    · have hc := hcsr trivial h0
      rw [doSYSTEM_csr_ill h hm _ h0 _ _ _ _ (fun h4 => (hc h4).1) fun h4 => (hc h4).2]
      simp [h0]
  · -- no entry in the jump table
    rename_i h0 h3 h4 h5 h6 h8 h11 h12 h13 h14 h24 h25 h27 h28
    rw [or_iff_left (not_superfluous h0 h4 h11 h28)]
    refine iff_of_true (raisesIll_ill _) ?_
    unfold Rv32Fields
    split <;> first | contradiction | exact id

/-- **Decoder exactness.** In M-mode, where no access of memory or of a CSR is refused, the
emulator finds illegal exactly the words that encode no instruction of RV32, but for the
superfluous ones. -/
theorem decoder_exact_iff (m : Machine .rv32) (h : m.cpu.trap = false)
    (hm : m.cpu.mode = .machine) (w : BitVec 32) (hq : w.extractLsb' 0 2 = 3#2)
    (hacc : AccessOk m w) (hcsr : CsrOk m w) :
    (RaisesIll (execInstr m w).cpu ↔ ¬ IsRv32 w) ↔ ¬ Superfluous w := by
  rw [raisesIll_iff h hm hacc hcsr, isRv32_iff hq]
  have hdisj := not_fields_and_superfluous w
  tauto

/-- The machine of `main` in M-mode. -/
def decoderMachine : Machine .rv32 :=
  { mainMachine32 with cpu := { mainMachine32.cpu with mode := .machine } }

/-- A word that accesses neither memory nor a CSR meets the conditions. -/
theorem access_csr_ok {m : Machine c} {w : BitVec 32} (hrange : accessRange m w = none)
    (hop : opcode w ≠ 28#5) : AccessOk m w ∧ CsrOk m w := by
  constructor
  · intro addr size h
    rw [hrange] at h
    cases h
  · intro h
    exact absurd h hop

/-- The same machine with the start of RAM in x2. -/
def decoderRam : Machine .rv32 :=
  { decoderMachine with cpu := writeReg decoderMachine.cpu 2#5 0x80000000#32 }

/-- `lw x1, 0(x2)` loads from RAM, and is an instruction of RV32. -/
theorem decoder_exact_iff_lw :
    accessRange decoderRam 0x00012083#32 = some (0x80000000#32, 4)
      ∧ AccessOk decoderRam 0x00012083#32
      ∧ (RaisesIll (execInstr decoderRam 0x00012083#32).cpu ↔ ¬ IsRv32 0x00012083#32) := by
  have hrange : accessRange decoderRam 0x00012083#32 = some (0x80000000#32, 4) := by decide
  have hacc : AccessOk decoderRam 0x00012083#32 := by
    intro addr size h
    rw [hrange] at h
    cases h
    exact ⟨by decide, fun hop => absurd hop (by decide)⟩
  have hlegal : ¬ Superfluous 0x00012083#32 := by
    intro h
    have hlwu : decodeFunct3 0x00012083#32 = 6#3 := h
    exact absurd hlwu (by decide)
  exact ⟨hrange, hacc, (decoder_exact_iff decoderRam rfl rfl 0x00012083#32 (by decide) hacc
    fun hop => absurd hop (by decide)).mpr hlegal⟩

/-- `slli x1, x1, 32` is no instruction of RV32, and is executed. -/
theorem six_bit_shift_accepted :
    decoderMachine.cpu.trap = false ∧ decoderMachine.cpu.mode = .machine
      ∧ (0x02009093#32).extractLsb' 0 2 = 3#2
      ∧ AccessOk decoderMachine 0x02009093#32 ∧ CsrOk decoderMachine 0x02009093#32
      ∧ ¬ (RaisesIll (execInstr decoderMachine 0x02009093#32).cpu ↔ ¬ IsRv32 0x02009093#32) := by
  obtain ⟨hacc, hcsr⟩ := access_csr_ok (m := decoderMachine) (w := 0x02009093#32) rfl (by decide)
  have hquad : (0x02009093#32).extractLsb' 0 2 = 3#2 := by decide
  have hsup : Superfluous 0x02009093#32 := Or.inl ⟨by decide, by decide⟩
  refine ⟨rfl, rfl, hquad, hacc, hcsr, ?_⟩
  rw [raisesIll_iff rfl rfl hacc hcsr, isRv32_iff hquad]
  intro h
  have hill := h.mpr fun hl => not_fields_and_superfluous _ ⟨hl, hsup⟩
  exact hill (Or.inr hsup)

end RV640
