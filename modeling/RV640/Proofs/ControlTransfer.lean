import RV640.Isa.Rv32
import RV640.Proofs.Compressed
import RV640.Proofs.Icache

set_option autoImplicit false

/-! # Jumps and branches

One step of `rv_run` on JAL, JALR and the conditional branches. The handlers write the target less
the size of the instruction, and the end of `rv_run` adds the size again. The PC has the width of
addresses, so in the build with 32-bit addresses its arithmetic wraps at 2³².
-/

namespace RV640

open Bits Riscv

variable {c : Cfg}

/-! ## Offsets -/

/-- A word of an integer, cut. -/
theorem setWidth_ofInt {w v : Nat} (h : v ≤ w) (i : Int) :
    (BitVec.ofInt w i).setWidth v = BitVec.ofInt v i := by
  apply BitVec.eq_of_toInt_eq
  rw [← BitVec.signExtend_eq_setWidth_of_le _ h, BitVec.signExtend, BitVec.toInt_ofInt,
    BitVec.toInt_ofInt, BitVec.toInt_ofInt]
  exact Int.bmod_bmod_of_dvd (Nat.pow_dvd_pow 2 h)

/-- An offset in halfwords, as the decoders place it and the handlers extend it. -/
theorem signExtend_halfwords {w k : Nat} (imm : BitVec k) (hk : 0 < k) (h32 : k + 1 ≤ 32)
    (hkw : k < w) :
    Bits.signExtend ((place imm 1 : BitVec 32).setWidth w) k
      = BitVec.ofInt w (2 * imm.toInt) := by
  have hplace : (place imm 1 : BitVec 32).setWidth w
      = ((place imm 1 : BitVec (k + 1)).setWidth w : BitVec w) := by
    rw [setWidth_place imm (by omega), setWidth_place imm (by omega)]
  have hdouble : (place imm 1 : BitVec (k + 1)) = BitVec.ofInt (k + 1) (2 * imm.toInt) := by
    have h := signExtend_shiftLeft (n := k + 1) (m := k) imm 1 (by omega)
    rw [BitVec.signExtend_eq] at h
    rw [← h, BitVec.shiftLeft_eq_mul_twoPow, BitVec.ofInt_mul, BitVec.mul_comm]
    congr 1
    apply BitVec.eq_of_toNat_eq
    simp [BitVec.toNat_twoPow]
  -- twice an integer of `k` bits fits `k + 1` bits
  have hlo := BitVec.le_two_mul_toInt (x := imm)
  have hhi := BitVec.two_mul_toInt_lt (x := imm)
  rw [hplace, signExtend_setWidth_field, hdouble, BitVec.signExtend]
  · rw [BitVec.toInt_ofInt_eq_self (by omega)]
    · rw [Nat.add_sub_cancel]
      omega
    · rw [Nat.add_sub_cancel]
      omega
  · exact hkw

/-- An offset in bytes. -/
theorem signExtend_bytes {w k : Nat} (imm : BitVec (k + 1)) (h32 : k + 1 ≤ 32) (hkw : k < w) :
    Bits.signExtend ((place imm 0 : BitVec 32).setWidth w) k = BitVec.ofInt w imm.toInt := by
  rw [setWidth_place imm (by omega), place_zero, signExtend_setWidth_field imm hkw]
  rfl

/-! ## The instructions -/

/-- The condition of a branch, on the values of its registers. -/
def branchHolds {n : Nat} (x y : BitVec n) : BranchOp → Bool
  | .beq => x = y
  | .bne => x ≠ y
  | .blt => x.toInt < y.toInt
  | .bge => y.toInt ≤ x.toInt
  | .bltu => x.toNat < y.toNat
  | .bgeu => y.toNat ≤ x.toNat

/-- JAL, JALR and the conditional branches. Offsets of JAL and of branches count halfwords. -/
inductive Transfer where
  | jal (rd : RegNo) (imm : BitVec 20)
  | jalr (rd rs1 : RegNo) (imm : BitVec 12)
  | branch (op : BranchOp) (rs1 rs2 : RegNo) (imm : BitVec 12)

/-- The instruction. -/
def Transfer.base : Transfer → Base
  | jal rd imm => .jal rd imm
  | jalr rd rs1 imm => .jalr rd rs1 imm
  | branch op rs1 rs2 imm => .branch op.funct3 rs1 rs2 imm

/-- The register that receives the return address. -/
def Transfer.link : Transfer → RegNo
  | jal rd _ => rd
  | jalr rd _ _ => rd
  | branch .. => x0

/-- The PC that the specification gives to the next instruction. -/
def transferTarget (s : Cpu c) : Transfer → Addr c
  | .jal _ imm => s.pc + BitVec.ofInt _ (2 * imm.toInt)
  | .jalr _ rs1 imm => ((readReg s rs1 + BitVec.ofInt _ imm.toInt) &&& ~~~1#_).setWidth _
  | .branch op rs1 rs2 imm =>
      if branchHolds (readReg s rs1) (readReg s rs2) op then s.pc + BitVec.ofInt _ (2 * imm.toInt)
      else s.pc + 4#_

/-- The source's condition is that of the instruction. -/
theorem branchTaken_funct3 {n : Nat} (op : BranchOp) (x y : BitVec n) :
    branchTaken op.funct3 x y = some (branchHolds x y op) := by
  cases op with
  | beq => rfl
  | bne =>
      show some (x != y) = some (decide (x ≠ y))
      by_cases h : x = y <;> simp [h]
  | blt => rfl
  | bge => rfl
  | bltu => rfl
  | bgeu => rfl

theorem target_offset (pc : Addr c) (i : Int) :
    (pc.setWidth c.xlen + BitVec.ofInt c.xlen i).setWidth c.alen = pc + BitVec.ofInt c.alen i := by
  rw [BitVec.setWidth_add _ _ c.alen_le_xlen, BitVec.setWidth_setWidth_of_le _ c.alen_le_xlen,
    BitVec.setWidth_eq, setWidth_ofInt c.alen_le_xlen]

/-- The step of a control transfer, from the state with the instruction fetched. -/
theorem rvExec_transfer {m : Machine c} (ht : m.cpu.trap = false) (t : Transfer) :
    rvExec m t.base.encode = jumped m t.link (transferTarget m.cpu t) 4 := by
  have hx := c.xlen_ge
  rw [rvExec_encode]
  cases t with
  | jal rd imm =>
      have h := doJAL_advance ht (place imm 1) rd 4
      rw [signExtend_halfwords imm (by decide) (by decide) (by omega), target_offset] at h
      exact h
  | jalr rd rs1 imm =>
      have h := doJALR_advance ht (place imm 0) rd rs1 4
      rw [signExtend_bytes imm (by decide) (by omega)] at h
      exact h
  | branch op rs1 rs2 imm =>
      have htaken := branchTaken_funct3 op (readReg m.cpu rs1) (readReg m.cpu rs2)
      by_cases hop : branchHolds (readReg m.cpu rs1) (readReg m.cpu rs2) op = true
      · rw [hop] at htaken
        have h := doBRANCH_advance ht op.funct3 (place imm 1) rs1 rs2 htaken 4
        rw [signExtend_halfwords imm (by decide) (by decide) (by omega), target_offset] at h
        rw [transferTarget, if_pos hop]
        exact h
      · -- not taken: the handler does nothing, and the run loop adds 4
        rw [Bool.not_eq_true] at hop
        rw [hop] at htaken
        have hseq : doBRANCH m.cpu op.funct3 (place imm 1) rs1 rs2 4 = m.cpu := by
          simp only [doBRANCH, htaken]
        rw [transferTarget, if_neg (by rw [hop]; decide)]
        simp only [Transfer.base, Transfer.link, execBase, hseq, advancePC, writePC, ht, jumped,
          writeReg_x0, readPC, Bool.false_eq_true, if_false]

/-! ## The fetch -/

/-- The machine after the bus reads that the fetch makes: none when the line holds the word. -/
def fetchRead (m : Machine c) : Machine c :=
  if fetchMisses m then
    match busRead m (readPC m.cpu) m.cpu.icache.line.toList with
    | some (m, _) => m
    | none =>
        match busRead m (readPC m.cpu) (List.replicate 4 0#8) with
        | some (m, _) => m
        | none => m
  else m

/-- A fetch whose reads have no effect: it does not read the PLIC or the UART. -/
def PlainFetch (m : Machine c) : Prop :=
  fetchMisses m = true → ∀ size d devAddr, size = icacheLineSize ∨ size = 4 →
    findDevice m.bus (readPC m.cpu) size = some (d, devAddr) →
      d.dev.callbacks = .ram ∨ d.dev.callbacks = .aclint

theorem busRead_plain {m m' : Machine c} {addr : Addr c} {buf bs : List Byte}
    (hplain : ∀ d devAddr, findDevice m.bus addr buf.length = some (d, devAddr) →
      d.dev.callbacks = .ram ∨ d.dev.callbacks = .aclint)
    (h : busRead m addr buf = some (m', bs)) : m' = m := by
  obtain ⟨d, devAddr, hd, hr⟩ := busRead_some h
  have hm : (devRead m d.dev.callbacks devAddr.toNat buf).1 = m' := by rw [hr]
  rw [← hm]
  rcases hplain d devAddr hd with hk | hk
  · rw [hk]
    rfl
  · rw [hk]
    rfl

theorem fetchRead_plain {m : Machine c} (h : PlainFetch m) : fetchRead m = m := by
  unfold fetchRead
  split
  · rename_i hmiss
    split
    · rename_i hr
      refine busRead_plain ?_ hr
      rw [Vector.length_toList]
      exact fun d devAddr => h hmiss _ d devAddr (Or.inl rfl)
    · split
      · rename_i hr
        exact busRead_plain (fun d devAddr => h hmiss _ d devAddr (Or.inr rfl)) hr
      · rfl
  · rfl

/-- The reads of a fetch raise or clear interrupts of the PLIC, and touch no register. -/
theorem fetchRead_frame (m : Machine c) : IoFrame m (fetchRead m) := by
  unfold fetchRead
  split
  · split
    · rename_i hr
      exact busRead_frame hr
    · split
      · rename_i hr
        exact busRead_frame hr
      · exact IoFrame.refl m
  · exact IoFrame.refl m

/-- A fetch that raises no trap only moves the line besides. -/
theorem fetch_eq {m : Machine c} (hf : (fetch m).1.cpu.trap = false) :
    (fetch m).1 = { fetchRead m with
      cpu := { (fetchRead m).cpu with icache := (fetch m).1.cpu.icache } } := by
  have h := fetch_fetches m
  generalize fetch m = r at h hf ⊢
  cases h with
  | misaligned _ => cases hf
  | hit _ hhit => simp only [fetchRead, hhit, Bool.false_eq_true, if_false]
  | fill _ hmiss hline => simp only [fetchRead, hmiss, if_true, hline]
  | word _ hmiss hline hword => simp only [fetchRead, hmiss, if_true, hline, hword]
  | fault _ _ _ _ => cases hf

/-- An interrupt search that latches nothing changes nothing. -/
theorem processPendingInterrupts_idle {s : Cpu c} (h : (processPendingInterrupts s).trap = false) :
    processPendingInterrupts s = s := by
  have hinv : processPendingInterrupts s = s ∨ (processPendingInterrupts s).trap = true :=
    processPendingInterrupts_invariant (P := fun t => t = s ∨ t.trap = true) (Or.inl rfl)
      fun t i delegate _ => Or.inr rfl
  rcases hinv with he | ht
  · exact he
  · rw [h] at ht
    cases ht

/-- With no trap or interrupt to take, `rv_run` fetches in the state it is called in. -/
theorem rvFetch_eq {m m1 : Machine c} {w : BitVec 32} (ht : m.cpu.trap = false)
    (h : rvFetch m = (m1, some w)) : m1 = (fetch m).1 ∧ m1.cpu.trap = false := by
  have henter : (rvEnter m).2 = false → (rvEnter m).1 = m := by
    have he := rvEnter_enters m
    generalize rvEnter m = r at he ⊢
    cases he with
    | trapped htrap =>
        rw [ht] at htrap
        cases htrap
    | searched _ _ =>
        intro hidle
        show { m with cpu := processPendingInterrupts m.cpu } = m
        rw [processPendingInterrupts_idle hidle]
    | idle _ _ => exact fun _ => rfl
  unfold rvFetch at h
  cases hstop : (rvEnter m).2 with
  | true =>
      simp only [hstop, if_true] at h
      cases h
  | false =>
      simp only [hstop, Bool.false_eq_true, if_false, henter hstop] at h
      cases hf : (fetch m).1.cpu.trap with
      | true =>
          simp only [hf, if_true] at h
          cases h
      | false =>
          simp only [hf, Bool.false_eq_true, if_false, Prod.mk.injEq] at h
          rw [← h.1]
          exact ⟨rfl, hf⟩

/-! ## The step -/

/-- `m'` is `m` but for the PC, the register `rd` (unless it is `x0`) and the instruction cache. -/
structure TransferredTo (m : Machine c) (rd : Reg) (link : Word c) (target : Addr c)
    (m' : Machine c) : Prop where
  pc : m'.cpu.pc = target
  regs : m'.cpu.regs = if rd = x0 then m.cpu.regs else Function.update m.cpu.regs rd link
  rest : m' = { m with cpu := { m.cpu with
    pc := m'.cpu.pc, regs := m'.cpu.regs, icache := m'.cpu.icache } }

theorem jumped_transferredTo {m : Machine c} (ht : m.cpu.trap = false) (rd : Reg)
    (target : Addr c) :
    TransferredTo m rd ((m.cpu.pc + 4#_).setWidth _) target (jumped m rd target 4) := by
  by_cases hrd : rd = x0
  · subst hrd
    exact ⟨rfl, rfl, rfl⟩
  · have hcond : ¬ (rd = 0#5 ∨ m.cpu.trap = true) := by
      rw [ht]
      rintro (h | h)
      · exact hrd h
      · cases h
    have hw : ∀ d, writeReg m.cpu rd d
        = { m.cpu with regs := Function.update m.cpu.regs rd d } := by
      intro d
      simp only [writeReg]
      exact if_neg (by simpa using hcond)
    constructor
    · rfl
    · rw [if_neg hrd]
      simp only [jumped, hw]
    · simp only [jumped, hw]

/-- The target is read off the PC and the registers. -/
theorem transferTarget_congr {s s' : Cpu c} (hpc : s.pc = s'.pc) (hregs : s.regs = s'.regs)
    (t : Transfer) : transferTarget s t = transferTarget s' t := by
  unfold transferTarget readReg
  rw [hpc, hregs]

/-- **Control transfer.** With no trap or interrupt to take and the instruction fetched, a step on
JAL, JALR or a conditional branch leaves the PC at the specified target, links `PC + 4` and changes
nothing else; when the fetch reads a register of the PLIC or the UART, nothing else than that read
does. -/
theorem control_transfer (m m1 : Machine c) (t : Transfer) (ht : m.cpu.trap = false)
    (hfetch : rvFetch m = (m1, some t.base.encode)) :
    TransferredTo (fetchRead m) t.link ((m.cpu.pc + 4#_).setWidth _) (transferTarget m.cpu t)
        (rvRun m)
      ∧ (fetchRead m).cpu.regs = m.cpu.regs
      ∧ (PlainFetch m → fetchRead m = m) := by
  obtain ⟨hm1, ht1⟩ := rvFetch_eq ht hfetch
  have hrun : rvRun m = jumped m1 t.link (transferTarget m1.cpu t) 4 := by
    rw [← rvExec_transfer ht1]
    unfold rvRun
    rw [hfetch]
  -- the fetch has moved the line, and its reads no register and not the PC
  have hframe := (fetchRead_frame m).cpu.rest
  have hregs : (fetchRead m).cpu.regs = m.cpu.regs := by rw [hframe]
  have hpc : (fetchRead m).cpu.pc = m.cpu.pc := by rw [hframe]
  have hm1' : m1 = { fetchRead m with
      cpu := { (fetchRead m).cpu with icache := m1.cpu.icache } } := by
    rw [hm1] at ht1 ⊢
    exact fetch_eq ht1
  have htarget : transferTarget m1.cpu t = transferTarget m.cpu t := by
    apply transferTarget_congr
    · rw [hm1']
      exact hpc
    · rw [hm1']
      exact hregs
  have hlink : m1.cpu.pc = m.cpu.pc := by
    rw [hm1']
    exact hpc
  refine ⟨?_, hregs, fetchRead_plain⟩
  rw [hrun, htarget, ← hlink]
  have hjump := jumped_transferredTo ht1 t.link (transferTarget m.cpu t)
  constructor
  · exact hjump.pc
  · rw [hjump.regs, hm1']
  · rw [hjump.rest, hm1']

/-- A 64-bit machine of 1 MB whose RAM starts with `jal ra, .+8`. -/
def jalMachine : Machine .rv64 :=
  rvReset (vmInit (mainBus .rv64 0x100000)
    ⟨fun i => if i = 0 then 0xEF#8 else if i = 2 then 0x80#8 else 0#8⟩ false)
    .machine 0x80000000#64

theorem jalMachine_fetch :
    rvFetch jalMachine = ((rvFetch jalMachine).1, some (Transfer.jal ra 4#20).base.encode) := by
  have h : (rvFetch jalMachine).2 = some (Transfer.jal ra 4#20).base.encode := by decide +kernel
  rw [← h]

theorem control_transfer_jal :
    jalMachine.cpu.trap = false
      ∧ TransferredTo (fetchRead jalMachine) ra ((jalMachine.cpu.pc + 4#64).setWidth 64)
        (transferTarget jalMachine.cpu (.jal ra 4#20)) (rvRun jalMachine)
      ∧ (fetchRead jalMachine).cpu.regs = jalMachine.cpu.regs
      ∧ (PlainFetch jalMachine → fetchRead jalMachine = jalMachine) :=
  ⟨rfl, control_transfer jalMachine _ (.jal ra 4#20) rfl jalMachine_fetch⟩

end RV640
