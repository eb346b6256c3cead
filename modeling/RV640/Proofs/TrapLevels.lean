import RV640.Cpu.Run
import RV640.Lib.Masks
import RV640.Lib.StatusStack

set_option autoImplicit false

/-! # The two trap levels

`_doTrap` and `_xret` rewrite the same word `mstatus` for two levels, each with its own fields. For
either level the entry pushes the interrupt enable and the mode, and the return pops them. The
lemmas of this file say which bits of `mstatus` that changes, with the level as a parameter.
-/

namespace RV640

open Bits

variable {c : Cfg}

/-! ## The two levels -/

/-- The level a trap goes to. -/
inductive TrapLevel where
  | supervisor
  | machine
  deriving DecidableEq, Repr

namespace TrapLevel

def mode : TrapLevel → PrivMode
  | supervisor => .supervisor
  | machine => .machine

/-- The bits of `mstatus` a level owns: xIE, xPIE and xPP. -/
def ie : TrapLevel → Nat
  | supervisor => 1
  | machine => 3

def pie : TrapLevel → Nat
  | supervisor => 5
  | machine => 7

def pp : TrapLevel → List Nat
  | supervisor => [8]
  | machine => [11, 12]

/-! The trap registers of a level. -/

def tvec (l : TrapLevel) (csr : Csr c) : Word c :=
  match l with
  | supervisor => csr.stvec
  | machine => csr.mtvec

def epc (l : TrapLevel) (csr : Csr c) : Word c :=
  match l with
  | supervisor => csr.sepc
  | machine => csr.mepc

def cause (l : TrapLevel) (csr : Csr c) : Word c :=
  match l with
  | supervisor => csr.scause
  | machine => csr.mcause

def tval (l : TrapLevel) (csr : Csr c) : Word c :=
  match l with
  | supervisor => csr.stval
  | machine => csr.mtval

/-- Outside `mstatus` only the trap registers of the level differ. -/
def SameCsrs (l : TrapLevel) (csr csr' : Csr c) : Prop :=
  match l with
  | supervisor => csr' = { csr with
      mstatus := csr'.mstatus
      scause := csr'.scause
      sepc := csr'.sepc
      stval := csr'.stval }
  | machine => csr' = { csr with
      mstatus := csr'.mstatus
      mcause := csr'.mcause
      mepc := csr'.mepc
      mtval := csr'.mtval }

/-- The mask and the value of the xPP field. -/
def ppMask : TrapLevel → Word c
  | supervisor => mstatusSppMask
  | machine => mstatusMppMask

def ppValue (l : TrapLevel) (p : PrivMode) : Word c :=
  match l with
  | supervisor => mstatusSpp p
  | machine => mstatusMpp p

def getPp (l : TrapLevel) (mstatus : Word c) : PrivMode :=
  match l with
  | supervisor => mstatusGetSpp mstatus
  | machine => mstatusGetMpp mstatus

/-- Trap entry to a level and return from it, on `mstatus`. -/
def push (l : TrapLevel) (mstatus : Word c) (p : PrivMode) : Word c :=
  setField (pushBit mstatus l.ie l.pie) l.ppMask (l.ppValue p)

def pop (l : TrapLevel) (mstatus : Word c) : Word c :=
  setField (popBit mstatus l.ie l.pie) l.ppMask (l.ppValue .user)

/-- The mode a return goes to. -/
def savedMode (l : TrapLevel) (mstatus : Word c) : PrivMode := l.getPp (popBit mstatus l.ie l.pie)

/-- A return to U-mode or S-mode also clears MPRV. -/
def popped (l : TrapLevel) (mstatus : Word c) : Word c :=
  if l.savedMode mstatus ≤ .supervisor then l.pop mstatus &&& ~~~mstatusMprvMask
  else l.pop mstatus

end TrapLevel

/-! ## The saved mode -/

theorem mstatusGetMpp_eq (x : Word c) : mstatusGetMpp x = PrivMode.ofBits (x.extractLsb' 11 2) := by
  have hx := c.xlen_ge
  have hbits : ((x >>> 11) &&& 3#_).setWidth 2 = x.extractLsb' 11 2 := by
    apply BitVec.eq_of_getLsbD_eq
    intro i hi
    have h3 : (3#c.xlen).getLsbD i = true := by
      have hall : ∀ i < 2, (3#c.xlen).getLsbD i = true := by cases c <;> decide
      exact hall i hi
    simp [hi, h3]
  rw [mstatusGetMpp, hbits]

/-- Words with the same MPP field. -/
theorem mstatusGetMpp_congr {x y : Word c} (h : x &&& mstatusMppMask = y &&& mstatusMppMask) :
    mstatusGetMpp x = mstatusGetMpp y := by
  have hx := c.xlen_ge
  rw [mstatusGetMpp_eq, mstatusGetMpp_eq]
  congr 1
  apply BitVec.eq_of_getLsbD_eq
  intro i hi
  have hbit := congrArg (fun v => v.getLsbD (11 + i)) h
  have hm : (mstatusMppMask : Word c).getLsbD (11 + i) = true := by
    have hall : ∀ i < 2, (mstatusMppMask : Word c).getLsbD (11 + i) = true := by
      cases c <;> decide
    exact hall i hi
  simpa [hi, hm] using hbit

/-- Reading MPP back. -/
theorem mstatusGetMpp_set (x : Word c) (p : PrivMode) :
    mstatusGetMpp (x &&& ~~~mstatusMppMask ||| mstatusMpp p) = p := by
  rw [mstatusGetMpp_congr (replace_and x (mstatusMpp p) mstatusMppMask)]
  cases c <;> cases p <;> decide

theorem mstatusGetSpp_eq (x : Word c) :
    mstatusGetSpp x = if x.getLsbD 8 then .supervisor else .user := by
  have hx := c.xlen_ge
  have hbits : (((x >>> 8) &&& 1#_).setWidth 2) = if x.getLsbD 8 then 1#2 else 0#2 := by
    apply BitVec.eq_of_getLsbD_eq
    intro i hi
    have hi : i = 0 ∨ i = 1 := by omega
    rcases hi with rfl | rfl
    · cases h : x.getLsbD 8 <;> simp [h, show 0 < c.xlen by omega]
    · cases h : x.getLsbD 8 <;> simp
  rw [mstatusGetSpp, hbits]
  split <;> rfl

namespace TrapLevel

variable (l : TrapLevel)

/-- The modes that xPP of a level can hold. -/
def Holds (l : TrapLevel) (p : PrivMode) : Prop := l = supervisor → p = .user ∨ p = .supervisor

theorem getPp_congr {x y : Word c} (h : x &&& l.ppMask = y &&& l.ppMask) :
    l.getPp x = l.getPp y := by
  cases l with
  | supervisor =>
      have hbit := congrArg (fun v => v.getLsbD 8) h
      have hmask : (mstatusSppMask : Word c).getLsbD 8 = true := by cases c <;> decide
      simp only [ppMask, BitVec.getLsbD_and, hmask, Bool.and_true] at hbit
      show mstatusGetSpp x = mstatusGetSpp y
      rw [mstatusGetSpp_eq, mstatusGetSpp_eq, hbit]
  | machine => exact mstatusGetMpp_congr h

/-- Reading xPP back. -/
theorem getPp_setField {l : TrapLevel} (x : Word c) {p : PrivMode} (hp : l.Holds p) :
    l.getPp (setField x l.ppMask (l.ppValue p)) = p := by
  cases l with
  | supervisor =>
      rw [setField,
        getPp_congr supervisor (replace_and x (ppValue supervisor p) (ppMask supervisor))]
      rcases hp rfl with rfl | rfl
      · cases c <;> decide
      · cases c <;> decide
  | machine => exact mstatusGetMpp_set x p

/-- What entry saves, return finds. -/
theorem savedMode_push {l : TrapLevel} (x : Word c) {p : PrivMode} (hp : l.Holds p) :
    l.savedMode (l.push x p) = p := by
  have hmask : (l.ppMask : Word c).getLsbD l.ie = false
      ∧ (l.ppMask : Word c).getLsbD l.pie = false := by
    cases l <;> cases c <;> decide
  have hne : l.ie ≠ l.pie := by cases l <;> decide
  rw [savedMode, getPp_congr l (popBit_and _ hne hmask.1 hmask.2)]
  exact getPp_setField _ hp

/-! ## The bits -/

theorem ppMask_other {k : Nat} (h : k ∉ l.pp) : (l.ppMask : Word c).getLsbD k = false := by
  cases l with
  | supervisor =>
      have h8 : k ≠ 8 := by simpa [pp] using h
      simp [ppMask, mstatusSppMask, h8]
  | machine =>
      have h11 : k ≠ 11 ∧ k ≠ 12 := by simpa [pp] using h
      simp [ppMask, mstatusMppMask, h11]

/-- The mode shifted into xPP sets no other bit. -/
theorem ppValue_other (p : PrivMode) {k : Nat} (h : k ∉ l.pp) :
    (l.ppValue p : Word c).getLsbD k = false := by
  have hall : ∀ k < 64, k ∉ l.pp → (l.ppValue p : Word c).getLsbD k = false := by
    cases l <;> cases c <;> cases p <;> decide
  by_cases hk : k < 64
  · exact hall k hk h
  · have := c.xlen_le
    exact BitVec.getLsbD_of_ge _ k (by omega)

/-- Entry to a level, bit by bit. -/
theorem getLsbD_push (x : Word c) (p : PrivMode) {k : Nat} (hk : k < c.xlen) (hpp : k ∉ l.pp) :
    (l.push x p).getLsbD k
      = if k = l.ie then false else if k = l.pie then x.getLsbD l.ie else x.getLsbD k := by
  have hne : l.ie ≠ l.pie := by cases l <;> decide
  rw [push, getLsbD_setField _ (l.ppMask_other hpp) (l.ppValue_other p hpp),
    getLsbD_pushBit x hne hk]

/-- Return from a level, bit by bit. -/
theorem getLsbD_popped (x : Word c) {k : Nat} (hk : k < c.xlen) (hpp : k ∉ l.pp) (h17 : k ≠ 17) :
    (l.popped x).getLsbD k
      = if k = l.ie then x.getLsbD l.pie else if k = l.pie then true else x.getLsbD k := by
  have hne : l.ie ≠ l.pie := by cases l <;> decide
  have hpop : (l.pop x).getLsbD k
      = if k = l.ie then x.getLsbD l.pie else if k = l.pie then true else x.getLsbD k := by
    rw [pop, getLsbD_setField _ (l.ppMask_other hpp) (l.ppValue_other .user hpp),
      getLsbD_popBit x hne hk]
  unfold popped
  split
  · have hmprv : (mstatusMprvMask : Word c).getLsbD k = false := by simp [mstatusMprvMask, h17]
    rw [BitVec.getLsbD_and, BitVec.getLsbD_not, hmprv, decide_eq_true hk, hpop]
    simp
  · exact hpop

end TrapLevel

/-! ## The source's functions, by level -/

/-- The level of a latched trap. -/
def trapLevel (s : Cpu c) : TrapLevel := if s.trapDelegate then .supervisor else .machine

theorem enterTrap_mstatus (s : Cpu c) :
    (enterTrap s).csr.mstatus = (trapLevel s).push s.csr.mstatus s.mode := by
  unfold enterTrap trapLevel
  cases s.trapDelegate <;> rfl

/-- `_xret` for the level the hart is at. -/
theorem xret_level {s : Cpu c} (l : TrapLevel) (hmode : s.mode = l.mode)
    (htsr : l = .supervisor → s.csr.mstatus &&& mstatusTsrMask = 0#_) (size : Int) :
    xret s l.mode size = writePC
      { s with
        mode := l.savedMode s.csr.mstatus
        csr := { s.csr with mstatus := l.popped s.csr.mstatus } }
      ((l.epc s.csr - BitVec.ofInt _ size).setWidth _) := by
  -- neither early return is taken: the mode is that of the level, and TSR is clear
  cases l with
  | supervisor =>
      have hlt : ¬ s.mode < .supervisor := by
        rw [hmode]
        decide
      have hbits : (s.csr.mstatus &&& mstatusTsrMask != 0#_) = false := by
        rw [htsr rfl]
        exact bne_self_eq_false _
      simp only [xret, TrapLevel.mode, if_neg hlt, hbits, Bool.and_false, Bool.false_eq_true,
        if_false, if_true]
      rfl
  | machine =>
      have hlt : ¬ s.mode < .machine := by
        rw [hmode]
        decide
      simp only [xret, TrapLevel.mode, if_neg hlt, reduceCtorEq, decide_false, Bool.and_false,
        Bool.false_and, Bool.false_eq_true, if_false]
      rfl

end RV640
