import RV640.Proofs.Compressed
import RV640.Proofs.TrapLevels

set_option autoImplicit false

/-! # Trap entry and return

A trap to either level and the return from it. What a handler finds saved is the interrupted
context, and what it returns to is that context again, up to the fields that the level itself owns.
-/

namespace RV640

open Bits

variable {c : Cfg}

/-! ## Entry -/

/-- Where a trap goes: the base of the vector table, or for an interrupt in vectored mode the entry
of its cause. -/
def trapTarget (l : TrapLevel) (s : Cpu c) : Word c :=
  let base := l.tvec s.csr &&& ~~~3#_
  if causeIsIrq s.trapCause ∧ l.tvec s.csr &&& 3#_ = 1#_ then base + 4#_ * causeCode s.trapCause
  else base

theorem trapVector_eq (s : Cpu c) : trapVector s = trapTarget (trapLevel s) s := by
  unfold trapVector trapTarget trapLevel
  cases s.trapDelegate with
  | false => simp only [TrapLevel.tvec, Bool.false_eq_true, if_false, Bool.and_eq_true, beq_iff_eq]
  | true => simp only [TrapLevel.tvec, if_true, Bool.and_eq_true, beq_iff_eq]

/-- `_doTrap` without the built-in SBI. -/
theorem doTrap_eq {m : Machine c} (hsbi : m.cpu.virtualSBI = false) : doTrap m = { m with
    cpu := { enterTrap m.cpu with pc := (trapTarget (trapLevel m.cpu) m.cpu).setWidth _ } } := by
  have hnone : sbiHandler m.cpu = none := by
    rw [sbiHandler, hsbi, Bool.and_false]
    rfl
  have htrap : (enterTrap m.cpu).trap = false := by
    unfold enterTrap
    split <;> rfl
  simp only [doTrap, hnone, writePC, htrap, Bool.false_eq_true, if_false, trapVector_eq]

/-- From `m` to `m'` the hart entered a trap at a level. -/
structure Entered (l : TrapLevel) (m m' : Machine c) : Prop where
  mode : m'.cpu.mode = l.mode
  ie : m'.cpu.csr.mstatus.getLsbD l.ie = false
  epc : l.epc m'.cpu.csr = m.cpu.pc.setWidth _
  cause : l.cause m'.cpu.csr = m.cpu.trapCause
  tval : l.tval m'.cpu.csr = 0#_
  pc : m'.cpu.pc = (trapTarget l m.cpu).setWidth _
  status : ∀ k, k ∉ l.ie :: l.pie :: l.pp →
    m'.cpu.csr.mstatus.getLsbD k = m.cpu.csr.mstatus.getLsbD k
  csrs : l.SameCsrs m.cpu.csr m'.cpu.csr
  rest : m' = { m with cpu := { m.cpu with
    trap := false
    wfi := false
    mode := m'.cpu.mode
    pc := m'.cpu.pc
    csr := m'.cpu.csr } }

theorem doTrap_entered {m : Machine c} (hsbi : m.cpu.virtualSBI = false) :
    Entered (trapLevel m.cpu) m (doTrap m) := by
  have hbits : ∀ {k}, k < c.xlen → k ∉ (trapLevel m.cpu).pp →
      (enterTrap m.cpu).csr.mstatus.getLsbD k = if k = (trapLevel m.cpu).ie then false
        else if k = (trapLevel m.cpu).pie then m.cpu.csr.mstatus.getLsbD (trapLevel m.cpu).ie
        else m.cpu.csr.mstatus.getLsbD k := by
    intro k hk hpp
    rw [enterTrap_mstatus, TrapLevel.getLsbD_push _ _ _ hk hpp]
  have hie : (trapLevel m.cpu).ie < c.xlen ∧ (trapLevel m.cpu).ie ∉ (trapLevel m.cpu).pp := by
    have hx := c.xlen_ge
    cases trapLevel m.cpu with
    | supervisor => exact ⟨by show 1 < _; omega, by decide⟩
    | machine => exact ⟨by show 3 < _; omega, by decide⟩
  rw [doTrap_eq hsbi]
  -- the bits of `mstatus` by the stack, all else by the two branches of the entry
  refine ⟨?_, ?_, ?_, ?_, ?_, rfl, ?_, ?_, ?_⟩
  case refine_2 => exact (hbits hie.1 hie.2).trans (if_pos rfl)
  case refine_6 =>
    intro k hk
    simp only [List.mem_cons, not_or] at hk
    by_cases hlt : k < c.xlen
    · exact (hbits hlt hk.2.2).trans (by rw [if_neg hk.1, if_neg hk.2.1])
    · rw [BitVec.getLsbD_of_ge _ k (by omega), BitVec.getLsbD_of_ge _ k (by omega)]
  all_goals
    cases hd : m.cpu.trapDelegate with
    | false => simp only [enterTrap, trapLevel, hd, Bool.false_eq_true, if_false] <;> rfl
    | true => simp only [enterTrap, trapLevel, hd, if_true] <;> rfl

/-! ## Return -/

/-- The return instruction of a level with `size` bytes, and the PC update of `rv_run` behind it. -/
def returnFrom (l : TrapLevel) (m : Machine c) (size : Nat) : Machine c :=
  advancePC { m with cpu := xret m.cpu l.mode size } size

/-- From `m` to `m'` the hart went through a handler of a level: the context is the same, except
for the trap registers of the level, xPIE, xPP and MPRV. -/
structure Resumed (l : TrapLevel) (m m' : Machine c) : Prop where
  status : ∀ k, k ∉ 17 :: l.pie :: l.pp →
    m'.cpu.csr.mstatus.getLsbD k = m.cpu.csr.mstatus.getLsbD k
  csrs : l.SameCsrs m.cpu.csr m'.cpu.csr
  rest : m' = { m with cpu := { m.cpu with trap := false, wfi := false, csr := m'.cpu.csr } }

/-- The size that `_xret` takes off is the one that `rv_run` adds. -/
theorem return_pc (pc : Addr c) (size : Nat) :
    ((pc.setWidth c.xlen - BitVec.ofInt c.xlen size).setWidth c.alen) + BitVec.ofNat _ size
      = pc := by
  rw [BitVec.ofInt_natCast, setWidth_sub_size, BitVec.sub_add_cancel,
    BitVec.setWidth_setWidth_of_le _ c.alen_le_xlen, BitVec.setWidth_eq]

theorem returnFrom_eq {m : Machine c} (l : TrapLevel) (hmode : m.cpu.mode = l.mode)
    (htrap : m.cpu.trap = false)
    (htsr : l = .supervisor → m.cpu.csr.mstatus &&& mstatusTsrMask = 0#_) {pc : Addr c}
    (hepc : l.epc m.cpu.csr = pc.setWidth _) (size : Nat) :
    returnFrom l m size = { m with cpu := { m.cpu with
      mode := l.savedMode m.cpu.csr.mstatus
      pc := pc
      csr := { m.cpu.csr with mstatus := l.popped m.cpu.csr.mstatus } } } := by
  rw [returnFrom, xret_level l hmode htsr, hepc]
  simp only [advancePC, writePC, readPC, htrap, Bool.false_eq_true, if_false, return_pc]

/-- A trap to either level without the built-in SBI, whatever its cause, and the return from that
level: the handler is entered as the specification says, and the return resumes the interrupted
context. A trap to S-mode comes from U-mode or S-mode, and SRET is not trapped there. -/
theorem trap_round_trip (m : Machine c) (hsbi : m.cpu.virtualSBI = false)
    (hdest : m.cpu.trapDelegate = true → (m.cpu.mode = .user ∨ m.cpu.mode = .supervisor)
      ∧ m.cpu.csr.mstatus &&& mstatusTsrMask = 0#_) :
    Entered (trapLevel m.cpu) m (doTrap m) ∧
      ∀ size, Resumed (trapLevel m.cpu) m (returnFrom (trapLevel m.cpu) (doTrap m) size) := by
  have hin := doTrap_entered hsbi
  refine ⟨hin, fun size => ?_⟩
  have hdel : trapLevel m.cpu = .supervisor → m.cpu.trapDelegate = true := by
    intro h
    by_contra hd
    rw [trapLevel, if_neg hd] at h
    cases h
  have hholds : (trapLevel m.cpu).Holds m.cpu.mode := fun h => (hdest (hdel h)).1
  have hx := c.xlen_ge
  -- TSR is no bit of the level, so it is still clear in the handler
  have htsr : trapLevel m.cpu = .supervisor →
      (doTrap m).cpu.csr.mstatus &&& mstatusTsrMask = 0#_ := by
    intro h
    have hbit := hin.status 22 (by rw [h]; decide)
    have hclear := (hdest (hdel h)).2
    rw [mstatusTsrMask, and_bit_eq_zero] at hclear ⊢
    rw [hbit, hclear]
  have hms : (doTrap m).cpu.csr.mstatus = (trapLevel m.cpu).push m.cpu.csr.mstatus m.cpu.mode := by
    rw [doTrap_eq hsbi]
    exact enterTrap_mstatus m.cpu
  have hret := returnFrom_eq (trapLevel m.cpu) hin.mode (by rw [hin.rest]) htsr hin.epc size
  rw [hms, TrapLevel.savedMode_push _ hholds] at hret
  generalize hl : trapLevel m.cpu = l at hin hret hms ⊢
  rw [hret]
  refine ⟨?_, ?_, ?_⟩
  · intro k hk
    simp only [List.mem_cons, not_or] at hk
    obtain ⟨h17, hpie, hpp⟩ := hk
    by_cases hlt : k < c.xlen
    · have hiepp : l.ie < c.xlen ∧ l.pie < c.xlen ∧ l.pie ∉ l.pp ∧ l.pie ≠ l.ie := by
        cases l with
        | supervisor => exact ⟨by show 1 < _; omega, by show 5 < _; omega, by decide, by decide⟩
        | machine => exact ⟨by show 3 < _; omega, by show 7 < _; omega, by decide, by decide⟩
      show (l.popped (l.push m.cpu.csr.mstatus m.cpu.mode)).getLsbD k = _
      rw [l.getLsbD_popped _ hlt hpp h17, l.getLsbD_push _ _ hiepp.2.1 hiepp.2.2.1,
        l.getLsbD_push _ _ hlt hpp, if_neg hiepp.2.2.2, if_pos rfl]
      -- xIE went to xPIE and comes back from there
      by_cases hie : k = l.ie
      · rw [if_pos hie, hie]
      · rw [if_neg hie, if_neg hpie, if_neg hie, if_neg hpie]
    · rw [BitVec.getLsbD_of_ge _ k (by omega), BitVec.getLsbD_of_ge _ k (by omega)]
  · have hcsrs := hin.csrs
    cases l with
    | supervisor =>
        simp only [TrapLevel.SameCsrs] at hcsrs ⊢
        rw [hcsrs]
    | machine =>
        simp only [TrapLevel.SameCsrs] at hcsrs ⊢
        rw [hcsrs]
  · rw [hin.rest]

/-- A 64-bit machine in U-mode with interrupts enabled and an exception latched for S-mode. -/
def userTrapMachine : Machine .rv64 :=
  let m := rvReset (vmInit (mainBus .rv64 0x100000) ⟨fun _ => 0#8⟩ false) .user 0x80001000#64
  { m with cpu := { m.cpu with
      trap := true
      trapCause := 2#64
      trapDelegate := true
      csr := { m.cpu.csr with mstatus := 2#64, stvec := 0x80002001#64 } } }

theorem trap_round_trip_user :
    Entered .supervisor userTrapMachine (doTrap userTrapMachine) ∧
      ∀ size, Resumed .supervisor userTrapMachine
        (returnFrom .supervisor (doTrap userTrapMachine) size) :=
  trap_round_trip userTrapMachine rfl (fun _ => ⟨Or.inl rfl, by decide⟩)

end RV640
