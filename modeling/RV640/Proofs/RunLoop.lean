import RV640.Proofs.Frames

set_option autoImplicit false

/-! # The steps of the run loop

What the parts of `rv_run` can do, once and for all, and the rules that make an invariant of
`rv_run` and of the main loop out of what its parts keep.
-/

namespace RV640

open Bits

variable {c : Cfg}

/-! ## Trap entry -/

/-- The ways through the first part of `rv_run`, with the machine and the flag it returns. -/
inductive Enters (m : Machine c) : Machine c × Bool → Prop
  | trapped (htrap : m.cpu.trap = true) : Enters m (doTrap m, false)
  | searched (hclear : m.cpu.trap = false) (hirq : m.cpu.irq = true) :
      Enters m ({ m with cpu := processPendingInterrupts m.cpu },
        (processPendingInterrupts m.cpu).trap)
  | idle (hclear : m.cpu.trap = false) (hirq : m.cpu.irq = false) : Enters m (m, false)

theorem rvEnter_enters (m : Machine c) : Enters m (rvEnter m) := by
  unfold rvEnter
  split
  · exact .trapped ‹_›
  · rename_i ht
    have hclear := Bool.eq_false_iff.mpr ht
    split
    · exact .searched hclear ‹_›
    · rename_i hi
      exact .idle hclear (Bool.eq_false_iff.mpr hi)

/-- `rv_run` ends where an interrupt is taken. -/
theorem rvRun_of_stop {m : Machine c} (h : (rvEnter m).2 = true) : rvRun m = (rvEnter m).1 := by
  unfold rvRun rvFetch
  simp only [h, if_true]

/-! ## Fetch -/

/-- `_fetch` does not use the line: it is empty, or the address is not in it. -/
def fetchMisses (m : Machine c) : Bool :=
  decide (m.cpu.icache.base = cpuAddrMax)
    || decide (BitVec.ofNat _ (icacheLineSize - 4) < readPC m.cpu - m.cpu.icache.base)

/-- The ways through `_fetch`, with the machine and the word it returns. -/
inductive Fetches (m : Machine c) : Machine c × BitVec 32 → Prop
  | misaligned (hodd : readPC m.cpu &&& 1#_ ≠ 0#_) :
      Fetches m ({ m with cpu := trap m.cpu .instAllign }, 0#32)
  | hit (heven : readPC m.cpu &&& 1#_ = 0#_) (hhit : fetchMisses m = false) :
      Fetches m (m, ofBytes
        ((m.cpu.icache.line.toList.drop (readPC m.cpu - m.cpu.icache.base).toNat).take 4))
  | fill (heven : readPC m.cpu &&& 1#_ = 0#_) (hmiss : fetchMisses m = true) {m1 : Machine c}
      {bs : List Byte}
      (hline : busRead m (readPC m.cpu) m.cpu.icache.line.toList = some (m1, bs)) :
      Fetches m ({ m1 with cpu := { m1.cpu with icache := ⟨readPC m.cpu, icacheLine bs⟩ } },
        ofBytes (bs.take 4))
  | word (heven : readPC m.cpu &&& 1#_ = 0#_) (hmiss : fetchMisses m = true)
      (hline : busRead m (readPC m.cpu) m.cpu.icache.line.toList = none) {m1 : Machine c}
      {bs : List Byte} (hword : busRead m (readPC m.cpu) (List.replicate 4 0#8) = some (m1, bs)) :
      Fetches m (m1, ofBytes bs)
  | fault (heven : readPC m.cpu &&& 1#_ = 0#_) (hmiss : fetchMisses m = true)
      (hline : busRead m (readPC m.cpu) m.cpu.icache.line.toList = none)
      (hword : busRead m (readPC m.cpu) (List.replicate 4 0#8) = none) :
      Fetches m ({ m with cpu := trap m.cpu .instAf }, 0#32)

/-- `_fetch` goes one of its ways. -/
theorem fetch_fetches (m : Machine c) : Fetches m (fetch m) := by
  simp only [fetch]
  split
  · rename_i hodd
    exact .misaligned (bne_iff_ne.mp hodd)
  · rename_i hodd
    have heven : readPC m.cpu &&& 1#_ = 0#_ := by simpa using hodd
    split
    · rename_i hmiss
      split
      · exact .fill heven hmiss ‹_›
      · split
        · exact .word heven hmiss ‹_› ‹_›
        · exact .fault heven hmiss ‹_› ‹_›
    · rename_i hhit
      exact .hit heven (Bool.eq_false_iff.mpr hhit)

/-! ## Rules -/

section Keeps

variable {I : Machine c → Prop} {m : Machine c}

/-- What trap entry and `_fetch` keep, `rv_run` keeps up to the instruction. -/
theorem rvFetch_keeps (hent : I (rvEnter m).1) (hfetch : ∀ m1, I m1 → I (fetch m1).1) :
    I (rvFetch m).1 := by
  simp only [rvFetch]
  split
  · exact hent
  · split
    · exact hfetch _ hent
    · exact hfetch _ hent

/-- What the instructions keep as well, `rv_run` keeps. -/
theorem rvRun_keeps (hfetch : I (rvFetch m).1) (hexec : ∀ m1 w, I m1 → I (rvExec m1 w)) :
    I (rvRun m) := by
  unfold rvRun
  split
  · rename_i m1 instr hf
    rw [hf] at hfetch
    exact hexec m1 instr hfetch
  · rename_i m1 hf
    rw [hf] at hfetch
    exact hfetch

/-- An event that is no call of `rv_run`: calls of devices. -/
theorem deviceEvent_steps (m : Machine c) {e : Event} (he : e ≠ .run) :
    IrqSteps deviceIrqs m.cpu (stepEvent m e).cpu := by
  cases e with
  | run => exact absurd rfl he
  | tick cycles =>
      have h := Aclint.updateMtimer_steps
        { m.aclint with mtime := m.aclint.mtime + cycles.setWidth 64 } m.cpu
      exact h.mono (by decide)
  | push ch => exact (ns16550Push_steps m ch).mono (by decide)
  | plicIrq n => exact (plicInterrupt_steps m.plic m.cpu n).mono (by decide)

/-- Only the devices' interrupts change. -/
theorem deviceEvent_frame (m : Machine c) {e : Event} (he : e ≠ .run) :
    IrqFrame deviceIrqs m.cpu (stepEvent m e).cpu ∧ (stepEvent m e).bus = m.bus := by
  refine ⟨(deviceEvent_steps m he).frame, ?_⟩
  cases e with
  | run => exact absurd rfl he
  | tick cycles => rfl
  | push ch => exact (ns16550Push_frame m ch).bus
  | plicIrq n => rfl

/-- What `rv_run` and the devices' interrupts keep, an event keeps. -/
theorem stepEvent_keeps (e : Event) (hrun : I (rvRun m))
    (hdev : ∀ m1 : Machine c, IrqFrame deviceIrqs m.cpu m1.cpu → m1.bus = m.bus → I m1) :
    I (stepEvent m e) := by
  by_cases he : e = .run
  · subst he
    exact hrun
  · have h := deviceEvent_frame m he
    exact hdev _ h.1 h.2

end Keeps

end RV640
