import RV640.Proofs.IrqHints

set_option autoImplicit false

/-! # The irq flag is a sound shortcut

`rv_run` looks for an interrupt only when `irq` is set, and nothing but a reset ever clears the
flag. `mie`, `mideleg`, the mode and the enables in `mstatus` change behind its back; what makes the
shortcut sound is that `mip` does not. Nothing is claimed of a state after the PLIC has left its
arrays (`oob`), since `mip` is then written through another pointer.
-/

namespace RV640

open Bits

variable {c : Cfg}

/-! ## The variant without the shortcut -/

/-- The first part of `rv_run`, without the test of `irq`. -/
def rvEnterAlways (m : Machine c) : Machine c × Bool :=
  if m.cpu.trap then (doTrap m, false)
  else
    let hart := processPendingInterrupts m.cpu
    ({ m with cpu := hart }, hart.trap)

/-- `rvFetch` on top of it. -/
def rvFetchAlways (m : Machine c) : Machine c × Option (BitVec 32) :=
  let (m, stop) := rvEnterAlways m
  if stop then (m, none)
  else
    let (m, instr) := fetch m
    if m.cpu.trap then (m, none) else (m, some instr)

/-- `rv_run` that always calls `_processPendingInterrupts` when no trap is latched. -/
def rvRunAlways (m : Machine c) : Machine c :=
  match rvFetchAlways m with
  | (m, some instr) => rvExec m instr
  | (m, none) => m

/-- The events, with that `rv_run`. -/
def stepEventAlways (m : Machine c) : Event → Machine c
  | .run => rvRunAlways m
  | e => stepEvent m e

/-! ## Nothing pending behind a clear flag -/

/-- With `irq` clear no interrupt is pending. -/
def IrqShows (s : Cpu c) : Prop := s.irq = false → s.csr.mip = 0#_

theorem HintFrame.irqShows {s s' : Cpu c} (h : HintFrame s s') (hs : IrqShows s) :
    IrqShows s' := by
  intro hclear
  rcases h.irq with hset | ⟨heq, hsub⟩
  · rw [hset] at hclear
    cases hclear
  · have hmip : s.csr.mip = 0#_ := hs (heq.symm.trans hclear)
    rw [eq_zero_iff]
    intro k _
    by_contra hk
    have hset := hsub k (Bool.not_eq_false _ ▸ hk)
    rw [hmip, BitVec.getLsbD_zero] at hset
    cases hset

/-- WFI does not touch what `irq` is about. -/
theorem rvExec_irqShows (m : Machine c) (w : BitVec 32) (h : IrqShows m.cpu) :
    IrqShows (rvExec m w).cpu := by
  by_cases hw : isWfi w
  · rw [rvExec_wfi m hw]
    have hwfi : IrqShows (wfiHart m.cpu) := by
      unfold wfiHart
      split
      · exact h
      · exact h
    exact (writePC_hints _ _).irqShows hwfi
  · exact (rvExec_hints m hw).irqShows h

theorem stepEvent_irqShows (m : Machine c) (e : Event) (h : IrqShows m.cpu) :
    IrqShows (stepEvent m e).cpu := by
  by_cases he : e = .run
  · subst he
    exact rvRun_keeps (I := fun m1 => IrqShows m1.cpu) ((rvFetch_hints m).irqShows h)
      rvExec_irqShows
  · exact (deviceEvent_hints m he).irqShows h

theorem Started.irqShows {m : Machine c} (h : Started m) : IrqShows m.cpu := fun _ => h.calm.1

/-! ## The shortcut -/

/-- With nothing pending no interrupt is taken, whatever is enabled. -/
theorem processPendingInterrupts_none {s : Cpu c} (h : s.csr.mip = 0#_) :
    processPendingInterrupts s = s := by
  have hm : processPendingMInterrupts s = s := by simp [processPendingMInterrupts, h]
  have hs : processPendingSInterrupts s = s := by simp [processPendingSInterrupts, h]
  simp only [processPendingInterrupts, hm, ite_self, hs]

theorem rvEnterAlways_eq {m : Machine c} (h : IrqShows m.cpu) : rvEnterAlways m = rvEnter m := by
  unfold rvEnterAlways rvEnter
  split
  · rfl
  · rename_i htrap
    split
    · rfl
    · rename_i hirq
      rw [processPendingInterrupts_none (h (Bool.eq_false_iff.mpr hirq))]
      exact congrArg (Prod.mk m) (Bool.eq_false_iff.mpr htrap)

theorem stepEventAlways_eq {m : Machine c} (h : IrqShows m.cpu) (e : Event) :
    stepEventAlways m e = stepEvent m e := by
  cases e with
  | run =>
      have hfetch : rvFetchAlways m = rvFetch m := by
        unfold rvFetchAlways
        rw [rvEnterAlways_eq h]
        rfl
      show rvRunAlways m = rvRun m
      unfold rvRunAlways
      rw [hfetch]
      rfl
  | tick cycles => rfl
  | push ch => rfl
  | plicIrq n => rfl

/-- **The shortcut is sound**: the emulator and the variant go through the same states, and
wherever the flag is clear `_processPendingInterrupts` does nothing. -/
theorem irq_shortcut_sound {m : Machine c} (h : Started m) (es : List Event) :
    Run.run stepEvent m es = Run.run stepEventAlways m es
      ∧ ((Run.run stepEvent m es).cpu.irq = false →
        processPendingInterrupts (Run.run stepEvent m es).cpu
          = (Run.run stepEvent m es).cpu) := by
  have hinv : ∀ es, IrqShows (Run.run stepEvent m es).cpu := fun es =>
    Run.invariant_all (I := fun m1 : Machine c => IrqShows m1.cpu) stepEvent_irqShows es m
      h.irqShows
  refine ⟨?_, fun hclear => processPendingInterrupts_none (hinv es hclear)⟩
  have hsame : ∀ (es : List Event) (m1 : Machine c), IrqShows m1.cpu →
      Run.run stepEvent m1 es = Run.run stepEventAlways m1 es := by
    intro es
    induction es with
    | nil => intro m1 _; rfl
    | cons e es ih =>
        intro m1 h1
        calc Run.run stepEvent m1 (e :: es)
            = Run.run stepEvent (stepEvent m1 e) es := rfl
          _ = Run.run stepEventAlways (stepEvent m1 e) es := ih _ (stepEvent_irqShows m1 e h1)
          _ = Run.run stepEventAlways m1 (e :: es) := by
              rw [Run.run_cons, stepEventAlways_eq h1]
  exact hsame es m h.irqShows

/-- A guest of `main` on RV64 whose timer runs out. -/
theorem irq_shortcut_sound_tick :
    Run.run stepEvent (vmStart (mainBus .rv64 0x100000) ⟨fun _ => 0#8⟩ true 0x80000000#64 0#64)
        [.run, .tick 100, .run]
      = Run.run stepEventAlways
          (vmStart (mainBus .rv64 0x100000) ⟨fun _ => 0#8⟩ true 0x80000000#64 0#64)
          [.run, .tick 100, .run] :=
  (irq_shortcut_sound (.vmStart _ _ _ _ _) _).1

end RV640
