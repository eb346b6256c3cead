import RV640.Proofs.IrqHints
import RV640.Proofs.TimerLatch

set_option autoImplicit false

/-! # Sleeping on a pending interrupt

A hart with `wfi` set is put to sleep by the main loop, which then lets the time run ahead.
Whatever raises or enables an interrupt wakes the hart, but WFI itself does not look: an interrupt
that is pending and enabled when WFI executes, and only held back by `mstatus`, is slept on. Nothing
is claimed once the PLIC has left its arrays (`oob`): it then wakes another hart.
-/

namespace RV640

open Bits

variable {c : Cfg}

/-- A sleeping hart has no interrupt that is pending and enabled. -/
def SleepsClear (m : Machine c) : Prop :=
  m.cpu.wfi = true → m.cpu.csr.mip &&& m.cpu.csr.mie = 0#_

/-- The event is a step of the hart that executes a WFI, legally, with an interrupt pending and
enabled. -/
def WfiOnPending (m : Machine c) (e : Event) : Prop :=
  e = .run ∧ ∃ w, (rvFetch m).2 = some w ∧ isWfi w ∧ wfiIllegal (rvFetch m).1.cpu = false
    ∧ (rvFetch m).1.cpu.csr.mip &&& (rvFetch m).1.cpu.csr.mie ≠ 0#_

/-! ## One step -/

theorem HintFrame.sleepsClear {m m' : Machine c} (h : HintFrame m.cpu m'.cpu)
    (hm : SleepsClear m) : SleepsClear m' := by
  intro hsleep
  rcases h.wfi with hawake | ⟨heq, hsub⟩
  · rw [hawake] at hsleep
    cases hsleep
  · have hclear := hm (heq.symm.trans hsleep)
    rw [eq_zero_iff]
    intro k _
    by_contra hk
    have hset := hsub k (Bool.not_eq_false _ ▸ hk)
    rw [hclear, BitVec.getLsbD_zero] at hset
    cases hset

/-- A WFI, and the PC update. -/
theorem rvExec_wfi_cpu (m : Machine c) {w : BitVec 32} (hw : isWfi w)
    (hlegal : wfiIllegal m.cpu = false) :
    (rvExec m w).cpu.wfi = true ∧ (rvExec m w).cpu.csr = m.cpu.csr := by
  have hwfi : wfiHart m.cpu = { m.cpu with wfi := true } := by
    rw [wfiHart, hlegal, if_neg Bool.false_ne_true]
  rw [rvExec_wfi m hw, hwfi]
  refine ⟨?_, writePC_csr _ _⟩
  simp only [advancePC, writePC]
  split <;> rfl

/-- WFI keeps the invariant exactly when nothing it could sleep on is pending. -/
theorem rvExec_sleepsClear_iff (m : Machine c) {w : BitVec 32} (hw : isWfi w)
    (hlegal : wfiIllegal m.cpu = false) :
    SleepsClear (rvExec m w) ↔ m.cpu.csr.mip &&& m.cpu.csr.mie = 0#_ := by
  obtain ⟨hsleep, hcsr⟩ := rvExec_wfi_cpu m hw hlegal
  unfold SleepsClear
  rw [hcsr]
  exact ⟨fun h => h hsleep, fun h _ => h⟩

/-- An illegal WFI is a trap. -/
theorem rvExec_wfi_illegal {m : Machine c} {w : BitVec 32} (hw : isWfi w)
    (hillegal : wfiIllegal m.cpu = true) (hm : SleepsClear m) : SleepsClear (rvExec m w) := by
  have htrap : wfiHart m.cpu = trap m.cpu .instIll := by rw [wfiHart, if_pos hillegal]
  rw [rvExec_wfi m hw, htrap]
  have hframe : HintFrame m.cpu (writePC (trap m.cpu .instIll)
      (readPC (trap m.cpu .instIll) + BitVec.ofNat _ 4)) :=
    (trap_hints m.cpu .instIll).trans (writePC_hints _ _)
  exact hframe.sleepsClear hm

/-- The instruction of `rv_run` keeps the invariant exactly when it is no WFI on a pending
interrupt. -/
theorem rvExec_sleeps_iff {m : Machine c} (w : BitVec 32) (hm : SleepsClear m) :
    SleepsClear (rvExec m w) ↔ ¬ (isWfi w ∧ wfiIllegal m.cpu = false
      ∧ m.cpu.csr.mip &&& m.cpu.csr.mie ≠ 0#_) := by
  by_cases hw : isWfi w
  · cases hlegal : wfiIllegal m.cpu with
    | true => exact iff_of_true (rvExec_wfi_illegal hw hlegal hm) (by simp)
    | false =>
        rw [rvExec_sleepsClear_iff m hw hlegal]
        simp [hw]
  · exact iff_of_true ((rvExec_hints m hw).sleepsClear hm) (fun h => hw h.1)

/-- **One event** keeps the invariant exactly when it is no WFI on a pending interrupt. -/
theorem stepEvent_sleeps_iff {m : Machine c} (e : Event) (hm : SleepsClear m) :
    SleepsClear (stepEvent m e) ↔ ¬ WfiOnPending m e := by
  by_cases he : e = .run
  · subst he
    have hfetch : SleepsClear (rvFetch m).1 := (rvFetch_hints m).sleepsClear hm
    show SleepsClear (rvRun m) ↔ _
    unfold rvRun WfiOnPending
    cases hr : rvFetch m with
    | mk m1 o =>
        rw [hr] at hfetch
        cases o with
        | none => exact iff_of_true hfetch (by simp)
        | some w =>
            show SleepsClear (rvExec m1 w) ↔ _
            rw [rvExec_sleeps_iff w hfetch]
            simp
  · exact iff_of_true ((deviceEvent_hints m he).sleepsClear hm) (fun h => he h.1)

/-! ## Runs -/

theorem Started.sleepsClear {m : Machine c} (h : Started m) : SleepsClear m := by
  intro hsleep
  rw [h.calm.2] at hsleep
  cases hsleep

/-- **No sleeping on a pending interrupt, but for WFI**: in every state that a run passes through a
sleeping hart has nothing pending and enabled, exactly when no step of the run executes a WFI with
an interrupt pending and enabled. -/
theorem sleeps_clear_iff {m : Machine c} (h : Started m) (es : List Event) :
    (∀ pre, pre <+: es → SleepsClear (Run.run stepEvent m pre))
      ↔ Run.Along stepEvent (fun m1 e => ¬ WfiOnPending m1 e) m es := by
  exact Run.prefixes_iff_along (K := fun _ => True) (fun _ _ _ _ => trivial)
    (fun _ e _ hs => stepEvent_sleeps_iff e hs) es m trivial h.sleepsClear

/-- The guest without SBI enables the timer interrupt in `mie` and executes a WFI. -/
def sleepGuest : Memory :=
  ⟨fun i => [0x93#8, 0x02#8, 0x00#8, 0x08#8, 0x73#8, 0xA0#8, 0x42#8, 0x30#8, 0x73#8, 0x00#8, 0x50#8,
    0x10#8].getD i 0#8⟩

def sleepMachine : Machine .rv64 :=
  vmStart (mainBus .rv64 0x100000) sleepGuest true 0x80000000#64 0#64

/-- The guest goes to sleep before the tick, which wakes it up. -/
theorem sleeps_clear_iff_woken :
    (Run.run stepEvent sleepMachine [.run, .run, .run]).cpu.wfi = true
      ∧ (Run.run stepEvent sleepMachine [.run, .run, .run, .tick 100]).cpu.wfi = false
      ∧ Run.Along stepEvent (fun m1 e => ¬ WfiOnPending m1 e) sleepMachine
          [.run, .run, .run, .tick 100, .run] := by
  refine ⟨by decide +kernel, by decide +kernel, (sleeps_clear_iff (.vmStart _ _ _ _ _) _).mp ?_⟩
  have hclear : ∀ pre ∈ [Event.run, .run, .run, .tick 100, .run].inits,
      (Run.run stepEvent sleepMachine pre).cpu.wfi = true →
        (Run.run stepEvent sleepMachine pre).cpu.csr.mip
          &&& (Run.run stepEvent sleepMachine pre).cpu.csr.mie = 0#_ := by
    decide +kernel
  exact fun pre hpre => hclear pre ((List.mem_inits _ _).mpr hpre)

/-- The deadline 0 has passed and the interrupt is pending when the guest goes to sleep. -/
theorem sleeps_on_timer :
    ¬ ∀ es, SleepsClear (Run.run stepEvent sleepMachine es) := by
  intro h
  have hsleep : (Run.run stepEvent sleepMachine [.run, .run, .tick 100, .run]).cpu.wfi = true := by
    decide +kernel
  have hclear := h [.run, .run, .tick 100, .run] hsleep
  revert hclear
  decide +kernel

end RV640
