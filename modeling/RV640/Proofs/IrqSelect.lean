import RV640.Proofs.Causes

set_option autoImplicit false

/-! # Interrupt selection

What the privileged architecture asks `_processPendingInterrupts` to take, and when it takes that.
-/

namespace RV640

open Bits

variable {c : Cfg}

/-! ## What should be taken -/

/-- The machine-level interrupts, by priority. -/
def mIrqs : List IrqCause := [.machineExtInt, .machineSwInt, .machineTmrInt]

/-- The supervisor-level interrupts, by priority. -/
def sIrqs : List IrqCause := [.supervisorExtInt, .supervisorSwInt, .supervisorTmrInt, .ctrOvfInt]

/-- All interrupts, by priority. -/
def irqOrder : List IrqCause := mIrqs ++ sIrqs

theorem mem_irqOrder (i : IrqCause) : i ∈ irqOrder := by cases i <;> decide

/-- `mip & mie` has the interrupt's bit set. -/
def irqPending (s : Cpu c) (i : IrqCause) : Bool := (s.csr.mip &&& s.csr.mie).getLsbD i.toNat

/-- `mstatus.MIE` and `mstatus.SIE`. -/
def mieSet (s : Cpu c) : Bool := s.csr.mstatus &&& mstatusMieMask != 0#_
def sieSet (s : Cpu c) : Bool := s.csr.mstatus &&& mstatusSieMask != 0#_

/-- The interrupt is enabled in the current mode: in M-mode a delegated one never is. -/
def irqEnabled (s : Cpu c) (i : IrqCause) : Bool :=
  if delegated s i then decide (s.mode < .supervisor) || (s.mode = .supervisor && sieSet s)
  else decide (s.mode < .machine) || mieSet s

/-- The interrupt to take and its delegation: the first enabled one that stays in M-mode, else the
first enabled one that is delegated. -/
def selectIrq (s : Cpu c) : Option (IrqCause × Bool) :=
  match irqOrder.find? fun i => irqPending s i && irqEnabled s i && !delegated s i with
  | some i => some (i, false)
  | none =>
      (irqOrder.find? fun i => irqPending s i && irqEnabled s i && delegated s i).map
        fun i => (i, true)

/-- The hart after a selection. -/
def takeIrq (s : Cpu c) : Option (IrqCause × Bool) → Cpu c
  | none => s
  | some (i, delegate) => interrupt s i delegate

/-- `_processPendingInterrupts` selects as it should. -/
structure IrqSelectionCorrect (s : Cpu c) : Prop where
  taken : (processPendingInterrupts s).trap = true ↔
    ∃ i, irqPending s i = true ∧ irqEnabled s i = true
  selected : processPendingInterrupts s = takeIrq s (selectIrq s)
  notLowered : (processPendingInterrupts s).trap = true →
    s.mode ≤ (enterTrap (processPendingInterrupts s)).mode

/-! ## What is taken -/

/-- Interrupts are off: M-mode with `MIE` clear. -/
def irqsOff (s : Cpu c) : Bool := s.mode = .machine && !mieSet s

/-- The selection `_processPendingInterrupts` makes. -/
def codeSelect (s : Cpu c) : Option (IrqCause × Bool) :=
  if irqsOff s then none
  else
    match mIrqs.find? (irqPending s) with
    | some i => some (i, false)
    | none =>
        (sIrqs.find? fun i => irqPending s i && (!delegated s i || delegatedIrqOpen s)).map
          fun i => (i, delegated s i)

theorem irqPending_eq (s : Cpu c) :
    (fun i : IrqCause => s.csr.mip &&& s.csr.mie &&& i.mask != 0#_) = irqPending s := by
  funext i
  exact and_bit_bne_zero _ _

theorem processPendingMInterrupts_eq (s : Cpu c) :
    processPendingMInterrupts s
      = takeIrq s ((mIrqs.find? (irqPending s)).map fun i => (i, false)) := by
  simp only [processPendingMInterrupts, irqPending_eq, mIrqs]
  split <;> rename_i h <;> rw [h] <;> rfl

theorem processPendingSInterrupts_eq (s : Cpu c) :
    processPendingSInterrupts s
      = takeIrq s ((sIrqs.find? fun i =>
          irqPending s i && (!delegated s i || delegatedIrqOpen s)).map
            fun i => (i, delegated s i)) := by
  have hp : ∀ i : IrqCause, (s.csr.mip &&& s.csr.mie &&& i.mask != 0#_) = irqPending s i :=
    fun i => congrFun (irqPending_eq s) i
  simp only [processPendingSInterrupts, hp, sIrqs]
  split <;> rename_i h <;> rw [h] <;> rfl

theorem processPendingInterrupts_eq {s : Cpu c} (h : s.trap = false) :
    processPendingInterrupts s = takeIrq s (codeSelect s) := by
  have hoff : (s.mode = .machine && s.csr.mstatus &&& mstatusMieMask == 0#_) = irqsOff s := by
    simp only [irqsOff, mieSet, bne, Bool.not_not]
  simp only [processPendingInterrupts, hoff, codeSelect, h, Bool.false_eq_true, if_false]
  by_cases hc : irqsOff s = true
  · simp only [hc, if_true]
    rfl
  · simp only [if_neg hc]
    rw [processPendingMInterrupts_eq]
    cases mIrqs.find? (irqPending s) with
    | some i => rfl
    | none =>
        simp only [Option.map_none, takeIrq, h, Bool.false_eq_true, if_false]
        exact processPendingSInterrupts_eq s

/-- The hart tells which interrupt was taken. -/
theorem takeIrq_inj {s : Cpu c} (h : s.trap = false) {a b : Option (IrqCause × Bool)} :
    takeIrq s a = takeIrq s b ↔ a = b := by
  constructor
  · intro heq
    have htrap := congrArg Cpu.trap heq
    match a, b with
    | none, none => rfl
    | none, some (j, d) => rw [takeIrq, h] at htrap; cases htrap
    | some (i, d), none => rw [takeIrq, takeIrq, h] at htrap; cases htrap
    | some (i, d), some (j, e) =>
        have hd : d = e := congrArg Cpu.trapDelegate heq
        have hcause : (irqCauseWord i : Word c) = irqCauseWord j := congrArg Cpu.trapCause heq
        rw [irqCauseWord_inj hcause, hd]
  · rintro rfl
    rfl

/-! ## When the two agree -/

section Find

variable {α : Type} {p q : α → Bool} {l : List α}

/-- The first element with `p` is the first with `p` and `q` when it has `q` as well. -/
theorem find?_and_of_find? {a : α} (h : l.find? p = some a) (hq : q a = true) :
    (l.find? fun x => p x && q x) = some a := by
  induction l with
  | nil => cases h
  | cons x xs ih =>
      by_cases hx : p x = true
      · rw [List.find?_cons_of_pos hx] at h
        obtain rfl := Option.some.inj h
        exact List.find?_cons_of_pos (by simp [hx, hq])
      · rw [List.find?_cons_of_neg hx] at h
        rw [List.find?_cons_of_neg (by simp [hx])]
        exact ih h

theorem find?_and_of_none (h : l.find? p = none) : (l.find? fun x => p x && q x) = none := by
  rw [List.find?_eq_none] at h ⊢
  intro x hx hpq
  exact h x hx (Bool.and_eq_true _ _ ▸ hpq).1

end Find

/-- The exact condition: interrupts are off, or nothing is pending, or the first pending interrupt
is not delegated, or it is a supervisor one whose delegation is closed, or the hart is not in M-mode
and everything pending is delegated. -/
def SelectionSound (s : Cpu c) : Prop :=
  irqsOff s = true ∨
    ∀ f, irqOrder.find? (irqPending s) = some f → delegated s f = true →
      f ∈ sIrqs ∧ (delegatedIrqOpen s = false ∨
        (s.mode ≠ .machine ∧ ∀ i, irqPending s i = true → delegated s i = true))

theorem lt_machine_iff (mode : PrivMode) : mode < .machine ↔ mode ≠ .machine := by
  cases mode <;> decide

theorem irqEnabled_of_not_delegated {s : Cpu c} {i : IrqCause} (h : delegated s i = false) :
    irqEnabled s i = !irqsOff s := by
  simp only [irqEnabled, h, Bool.false_eq_true, if_false, irqsOff]
  by_cases hm : s.mode = .machine
  · simp [hm, lt_machine_iff]
  · simp [hm, lt_machine_iff]

/-- A delegated interrupt is enabled when the code's test is open, M-mode apart. -/
theorem irqEnabled_of_delegated {s : Cpu c} {i : IrqCause} (h : delegated s i = true) :
    irqEnabled s i = (delegatedIrqOpen s && decide (s.mode ≠ .machine)) := by
  simp only [irqEnabled, h, if_true, delegatedIrqOpen, sieSet]
  cases s.mode with
  | user => simp
  | supervisor => simp
  | reserved => simp
  | machine =>
      simp
      decide

theorem selectIrq_of_off {s : Cpu c} (h : irqsOff s = true) : selectIrq s = none := by
  have hm : s.mode = .machine := by
    simp only [irqsOff, Bool.and_eq_true, decide_eq_true_eq] at h
    exact h.1
  have hdis : ∀ i, irqEnabled s i = false := by
    intro i
    cases hd : delegated s i with
    | false => rw [irqEnabled_of_not_delegated hd, h]; rfl
    | true => rw [irqEnabled_of_delegated hd]; simp [hm]
  have hnone : ∀ q : IrqCause → Bool,
      (irqOrder.find? fun i => irqPending s i && irqEnabled s i && q i) = none := by
    intro q
    rw [List.find?_eq_none]
    intro i _
    simp [hdis i]
  simp only [selectIrq, hnone, Option.map_none]

/-- With interrupts on, what stays in M-mode is enabled. -/
theorem selectIrq_of_on {s : Cpu c} (h : irqsOff s = false) :
    selectIrq s =
      match irqOrder.find? fun i => irqPending s i && !delegated s i with
      | some i => some (i, false)
      | none =>
          if delegatedIrqOpen s && decide (s.mode ≠ .machine) then
            (irqOrder.find? fun i => irqPending s i && delegated s i).map fun i => (i, true)
          else none := by
  have h1 : (fun i => irqPending s i && irqEnabled s i && !delegated s i)
      = fun i => irqPending s i && !delegated s i := by
    funext i
    cases hd : delegated s i with
    | false => rw [irqEnabled_of_not_delegated hd, h]; simp
    | true => simp
  have h2 : (fun i => irqPending s i && irqEnabled s i && delegated s i)
      = fun i => irqPending s i && delegated s i
          && (delegatedIrqOpen s && decide (s.mode ≠ .machine)) := by
    funext i
    cases hd : delegated s i with
    | false => simp
    | true => rw [irqEnabled_of_delegated hd]; simp
  simp only [selectIrq, h1, h2]
  cases hopen : delegatedIrqOpen s && decide (s.mode ≠ .machine) with
  | true => simp only [Bool.and_true, if_true]
  | false =>
      have hnone : irqOrder.find? (fun _ : IrqCause => false) = none := by
        rw [List.find?_eq_none]
        simp
      simp only [Bool.and_false, hnone, Option.map_none, Bool.false_eq_true, if_false]

theorem irqOrder_find? (p : IrqCause → Bool) :
    irqOrder.find? p = (mIrqs.find? p).or (sIrqs.find? p) := List.find?_append

/-- The code's selection when the first pending interrupt is not delegated. -/
theorem codeSelect_of_not_delegated {s : Cpu c} (hon : irqsOff s = false) {f : IrqCause}
    (hf : irqOrder.find? (irqPending s) = some f) (hd : delegated s f = false) :
    codeSelect s = some (f, false) := by
  rw [irqOrder_find?] at hf
  simp only [codeSelect, hon, Bool.false_eq_true, if_false]
  cases hm : mIrqs.find? (irqPending s) with
  | some i =>
      rw [hm] at hf
      obtain rfl := Option.some.inj hf
      rfl
  | none =>
      rw [hm, Option.none_or] at hf
      have hq := find?_and_of_find? (q := fun i => !delegated s i || delegatedIrqOpen s) hf
        (by simp [hd])
      simp only [hq, Option.map_some, hd]

/-- The code's selection when the first pending interrupt is a delegated machine one. -/
theorem codeSelect_of_machine {s : Cpu c} (hon : irqsOff s = false) {f : IrqCause}
    (hm : mIrqs.find? (irqPending s) = some f) : codeSelect s = some (f, false) := by
  simp only [codeSelect, hon, Bool.false_eq_true, if_false, hm]

/-- A supervisor interrupt that is first and delegated: the two agree when its delegation is closed,
and otherwise when the hart is not in M-mode and nothing else pending stays there. -/
theorem codeSelect_eq_iff_supervisor {s : Cpu c} (hon : irqsOff s = false) {f : IrqCause}
    (hm : mIrqs.find? (irqPending s) = none) (hs : sIrqs.find? (irqPending s) = some f)
    (hd : delegated s f = true) :
    codeSelect s = selectIrq s ↔
      delegatedIrqOpen s = false ∨
        (s.mode ≠ .machine ∧ ∀ i, irqPending s i = true → delegated s i = true) := by
  have hf : irqOrder.find? (irqPending s) = some f := by
    rw [irqOrder_find?, hm, Option.none_or, hs]
  rw [selectIrq_of_on hon]
  simp only [codeSelect, hon, Bool.false_eq_true, if_false, hm]
  cases hopen : delegatedIrqOpen s with
  | false =>
      refine iff_of_true ?_ (Or.inl rfl)
      simp only [Bool.or_false, Bool.false_and, Bool.false_eq_true, if_false]
      rw [irqOrder_find?, find?_and_of_none hm, Option.none_or]
      cases hnd : sIrqs.find? fun i => irqPending s i && !delegated s i with
      | none => rfl
      | some j =>
          have hj := List.find?_some hnd
          simp only [Bool.and_eq_true, Bool.not_eq_true'] at hj
          simp only [Option.map_some, hj.2]
  | true =>
      have hq := find?_and_of_find? (q := fun i => !delegated s i || true) hs (by simp)
      simp only [hq, Option.map_some, hd, Bool.true_eq_false, false_or, Bool.true_and,
        decide_eq_true_eq]
      cases hnd : irqOrder.find? fun i => irqPending s i && !delegated s i with
      | some j =>
          -- another pending interrupt stays in M-mode and comes before every delegated one
          have hj := List.find?_some hnd
          simp only [Bool.and_eq_true, Bool.not_eq_true'] at hj
          refine iff_of_false (by simp) ?_
          rintro ⟨-, hall⟩
          rw [hall j hj.1] at hj
          exact absurd hj.2 (by decide)
      | none =>
          have hall : ∀ i, irqPending s i = true → delegated s i = true := by
            intro i hi
            rw [List.find?_eq_none] at hnd
            simpa [hi] using hnd i (mem_irqOrder i)
          rw [find?_and_of_find? hf hd]
          by_cases hmode : s.mode = .machine
          · simp [hmode]
          · simpa [hmode] using hall

/-- **The two selections agree exactly under `SelectionSound`.** -/
theorem codeSelect_eq_iff (s : Cpu c) : codeSelect s = selectIrq s ↔ SelectionSound s := by
  cases hoff : irqsOff s with
  | true =>
      refine iff_of_true ?_ (Or.inl hoff)
      rw [selectIrq_of_off hoff, codeSelect, if_pos hoff]
  | false =>
      simp only [SelectionSound, hoff, Bool.false_eq_true, false_or]
      rw [selectIrq_of_on hoff]
      cases hf : irqOrder.find? (irqPending s) with
      | none =>
          -- nothing pending
          rw [find?_and_of_none hf, find?_and_of_none hf]
          have hcode : codeSelect s = none := by
            rw [irqOrder_find?, Option.or_eq_none_iff] at hf
            simp only [codeSelect, hoff, Bool.false_eq_true, if_false, hf.1,
              find?_and_of_none hf.2, Option.map_none]
          refine iff_of_true ?_ (fun f hf' => by cases hf')
          rw [hcode]
          simp
      | some f =>
          simp only [Option.some.injEq, forall_eq']
          have hpf := List.find?_some hf
          cases hd : delegated s f with
          | false =>
              refine iff_of_true ?_ (fun h => by cases h)
              rw [find?_and_of_find? hf (by simp [hd])]
              exact codeSelect_of_not_delegated hoff hf hd
          | true =>
              rw [forall_prop_of_true rfl]
              rw [irqOrder_find?] at hf
              cases hm : mIrqs.find? (irqPending s) with
              | some i =>
                  rw [hm] at hf
                  obtain rfl := Option.some.inj hf
                  refine iff_of_false ?_ ?_
                  · rw [codeSelect_of_machine hoff hm]
                    intro heq
                    split at heq
                    · rename_i j hj
                      have hij : i = j := congrArg Prod.fst (Option.some.inj heq)
                      have hnd := List.find?_some hj
                      simp only [Bool.and_eq_true, Bool.not_eq_true'] at hnd
                      rw [← hij, hd] at hnd
                      exact absurd hnd.2 (by decide)
                    · split at heq
                      · simp at heq
                      · cases heq
                  · rintro ⟨hmem, -⟩
                    have hmem' := List.mem_of_find?_eq_some hm
                    revert hmem hmem'
                    cases i <;> decide
              | none =>
                  rw [hm, Option.none_or] at hf
                  rw [← selectIrq_of_on hoff, codeSelect_eq_iff_supervisor hoff hm hf hd]
                  exact (and_iff_right (List.mem_of_find?_eq_some hf)).symm

/-! ## The main result -/

theorem takeIrq_trap {s : Cpu c} (h : s.trap = false) (o : Option (IrqCause × Bool)) :
    (takeIrq s o).trap = o.isSome := by
  cases o with
  | none => exact h
  | some p => rfl

/-- Something is selected exactly when some pending interrupt is enabled. -/
theorem selectIrq_isSome_iff (s : Cpu c) :
    (selectIrq s).isSome = true ↔ ∃ i, irqPending s i = true ∧ irqEnabled s i = true := by
  unfold selectIrq
  cases hn : irqOrder.find? fun i => irqPending s i && irqEnabled s i && !delegated s i with
  | some i =>
      have hi := List.find?_some hn
      simp only [Bool.and_eq_true] at hi
      exact iff_of_true rfl ⟨i, hi.1⟩
  | none =>
      rw [List.find?_eq_none] at hn
      simp only [Option.isSome_map, List.find?_isSome, Bool.and_eq_true]
      constructor
      · rintro ⟨i, -, hi, -⟩
        exact ⟨i, hi⟩
      · rintro ⟨i, hi⟩
        refine ⟨i, mem_irqOrder i, hi, ?_⟩
        simpa [hi] using hn i (mem_irqOrder i)

/-- What is selected as delegated is taken at or below S-mode. -/
theorem selectIrq_delegated_mode {s : Cpu c} {i : IrqCause} (h : selectIrq s = some (i, true)) :
    s.mode ≤ .supervisor := by
  unfold selectIrq at h
  split at h
  · cases h
  · simp only [Option.map_eq_some_iff, Prod.mk.injEq, and_true, exists_eq_right] at h
    have hi := List.find?_some h
    simp only [Bool.and_eq_true] at hi
    have henabled := hi.1.2
    rw [irqEnabled, if_pos hi.2] at henabled
    cases hmode : s.mode with
    | user => decide
    | supervisor => decide
    | reserved =>
        rw [hmode] at henabled
        exact absurd henabled (by simp; decide)
    | machine =>
        rw [hmode] at henabled
        exact absurd henabled (by simp; decide)

theorem correct_of_selected {s : Cpu c} (h : s.trap = false)
    (hsel : processPendingInterrupts s = takeIrq s (selectIrq s)) : IrqSelectionCorrect s where
  taken := by
    rw [hsel, takeIrq_trap h, selectIrq_isSome_iff]
  selected := hsel
  notLowered := by
    rw [hsel]
    cases hs : selectIrq s with
    | none =>
        intro htrap
        rw [takeIrq, h] at htrap
        cases htrap
    | some p =>
        obtain ⟨i, delegate⟩ := p
        intro _
        cases delegate with
        | true => exact selectIrq_delegated_mode hs
        | false =>
            show s.mode ≤ .machine
            cases s.mode <;> decide

/-- **Interrupt selection.** With no trap latched, `_processPendingInterrupts` takes what the
architecture asks for exactly when `SelectionSound` holds. -/
theorem irq_selection_iff (s : Cpu c) (h : s.trap = false) :
    IrqSelectionCorrect s ↔ SelectionSound s := by
  rw [← codeSelect_eq_iff, ← takeIrq_inj h, ← processPendingInterrupts_eq h]
  exact ⟨IrqSelectionCorrect.selected, correct_of_selected h⟩

/-- A hart with a delegated software interrupt, pending and enabled in `mie`. -/
def delegatedIrqHart (mode : PrivMode) (mstatus : Word .rv64) : Cpu .rv64 :=
  let hart := rvInit false
  { hart with
    mode := mode
    csr := { hart.csr with
      mstatus := mstatus
      mideleg := IrqCause.supervisorSwInt.mask
      mie := IrqCause.supervisorSwInt.mask
      mip := IrqCause.supervisorSwInt.mask } }

/-- In U-mode the delegated interrupt is taken. -/
theorem irq_selection_iff_delegated :
    irqPending (delegatedIrqHart .user 0#64) .supervisorSwInt = true
      ∧ delegated (delegatedIrqHart .user 0#64) .supervisorSwInt = true
      ∧ (processPendingInterrupts (delegatedIrqHart .user 0#64)).trap = true
      ∧ IrqSelectionCorrect (delegatedIrqHart .user 0#64) := by
  refine ⟨by decide, by decide, by decide, (irq_selection_iff _ rfl).mpr (Or.inr ?_)⟩
  intro f hf _
  obtain rfl : IrqCause.supervisorSwInt = f := Option.some.inj (Eq.trans (by decide) hf)
  exact ⟨by decide, Or.inr ⟨by decide, fun i => by cases i <;> decide⟩⟩

/-- An M-mode hart with `MIE` set and `SIE` clear, and a delegated software interrupt. -/
def delegatedInMachineMode : Cpu .rv64 := delegatedIrqHart .machine mstatusMieMask

/-- The delegated interrupt is taken in M-mode, and lowers the mode to S. -/
theorem delegated_irq_lowers_mode :
    delegatedInMachineMode.trap = false ∧ ¬ IrqSelectionCorrect delegatedInMachineMode := by
  refine ⟨rfl, ?_⟩
  intro h
  have hle := h.notLowered (by decide)
  exact absurd hle (by decide)

end RV640
