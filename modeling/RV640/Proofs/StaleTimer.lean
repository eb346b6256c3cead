import RV640.Proofs.SbiCalls

set_option autoImplicit false

/-! # The supervisor timer interrupt across `set_timer`

STIP is raised by the emulator's handler of the machine timer interrupt and cleared when the guest
takes it or writes `sip`. `set_timer` programs a new deadline and does not touch it. So a supervisor
timer interrupt that was raised for the old deadline and not yet taken is still pending for the new
one. From a call that finds STIP clear it stays clear until the new deadline has been handled. What
happens after the PLIC has left its arrays (`oob`) is not part of the claim.
-/

namespace RV640

open Bits

variable {c : Cfg}

/-- STIP. -/
def stip (s : Cpu c) : Bool := s.csr.mip.getLsbD IrqCause.supervisorTmrInt.toNat

/-- The CSR number of `sip`. -/
def csrSip : BitVec 16 := 0x144#16

/-! ## What leaves STIP alone -/

theorem IrqFrame.stip {S : List IrqCause} {s s' : Cpu c} (h : IrqFrame S s s')
    (hS : .supervisorTmrInt ∉ S) : stip s' = stip s := h.pending _ hS

theorem stip_of_mip {s s' : Cpu c} (h : s'.csr.mip = s.csr.mip) : stip s' = stip s := by
  unfold stip
  rw [h]

/-- Only two CSRs show the pending bits. -/
theorem csrWritten_mip {s s' : Cpu c} {csr : BitVec 16} {val : Word c}
    (h : csrWritten s csr val = some s') (hmip : csr ≠ csrMip) (hsip : csr ≠ csrSip) :
    s'.csr.mip = s.csr.mip := by
  unfold csrWritten at h
  split at h
  case h_1 | h_10 =>
    obtain rfl := Option.some.inj h
    simp only [writeMstatus]
    split <;> rfl
  case h_2 | h_14 =>
    obtain rfl := Option.some.inj h
    simp only [writeMie]
    split <;> rfl
  case h_9 => exact absurd rfl hsip
  case h_22 => exact absurd rfl hmip
  all_goals first
    | (obtain rfl := Option.some.inj h
       rfl)
    | (split at h
       · cases h
       · obtain rfl := Option.some.inj h
         rfl)
    | cases h

theorem xret_mip (s : Cpu c) (mode : PrivMode) (size : Int) :
    (xret s mode size).csr.mip = s.csr.mip := by rw [xret_rest]

theorem CpuMicro.stip {w : BitVec 32} {s s' : Cpu c} (h : CpuMicro w s s')
    (hm : s.mode ≠ .machine) (hw : ¬ WritesCsr w csrSip) : stip s' = stip s := by
  apply stip_of_mip
  cases h with
  | writeReg rd d =>
      unfold RV640.writeReg
      split <;> rfl
  | writePC d => rw [writePC_csr]
  | fault cause _ => rfl
  | ecall _ => rfl
  | writeCSR csr hcsr val =>
      by_cases hmip : csr = csrMip
      · -- `mip` is out of reach below M-mode
        have hlt : s.mode < csrPrivMode csr := by
          rw [hmip]
          revert hm
          cases s.mode <;> decide
        unfold RV640.writeCSR
        rw [if_pos hlt]
        split <;> rfl
      · have hsip : csr ≠ csrSip := fun he => hw (he ▸ hcsr)
        exact writeCSR_keeps (fun s => s.csr.mip) rfl fun _ h => csrWritten_mip h hmip hsip
  | sret size => exact xret_mip s _ size
  | mret size => exact xret_mip s _ size
  | wfi => rfl
  | flushIcache => rfl

theorem Micro.stip {w : BitVec 32} {m m' : Machine c} (h : Micro w m m')
    (hm : m.cpu.mode ≠ .machine) (hw : ¬ WritesCsr w csrSip) :
    RV640.stip m'.cpu = RV640.stip m.cpu := by
  rcases h.cpu_cases with hc | hf
  · exact hc.stip hm hw
  · exact hf.stip (by decide)

/-- An instruction of the guest that does not write `sip`. -/
theorem rvExec_stip (m : Machine c) {w : BitVec 32} (hm : m.cpu.mode ≠ .machine)
    (hw : ¬ WritesCsr w csrSip) : stip (rvExec m w).cpu = stip m.cpu :=
  Micros.keeps_below (I := fun m1 => stip m1.cpu = stip m.cpu) (rvExec_micros m w) hm
    (fun _ _ hab ha hI => (hab.stip ha hw).trans hI) rfl

theorem fetch_stip (m : Machine c) : stip (fetch m).1.cpu = stip m.cpu := by
  have hf := fetch_fetches m
  generalize fetch m = r at hf ⊢
  cases hf with
  | misaligned _ => rfl
  | hit _ _ => rfl
  | fill _ _ hline => exact (busRead_frame hline).cpu.stip (by decide)
  | word _ _ _ hword => exact (busRead_frame hword).cpu.stip (by decide)
  | fault _ _ _ _ => rfl

theorem dbgConWrite_stip (m : Machine c) (addr : Word c) (count : Nat) :
    stip (dbgConWrite m addr count).1.cpu = stip m.cpu :=
  (dbgConWrite_frame m addr count).cpu.stip (by decide)

/-- No call of the SBI touches STIP. -/
theorem sbiHandleEcall_stip (m : Machine c) : stip (sbiHandleEcall m).cpu = stip m.cpu := by
  show stip (sbiDispatch m (m.cpu.regs regA7) (m.cpu.regs regA6)).1.cpu = _
  unfold sbiDispatch
  split
  · rfl
  · split
    · unfold handleTimerExt
      split
      · exact (setMtimecmp_frame m (setTimerArg m.cpu)).stip (by decide)
      · rfl
    · split
      · unfold handleDbgConExt
        split
        · exact dbgConWrite_stip m _ _
        · rfl
      · rfl

theorem doTrap_ecall_stip {m : Machine c} (h : entersHandler m.cpu = some .ecall) :
    stip (doTrap m).cpu = stip m.cpu := by
  simp only [doTrap, (sbiHandler_of_enters h).2]
  calc stip (xret (sbiHandleEcall (entered m)).cpu .machine (-4))
      = stip (sbiHandleEcall (entered m)).cpu := stip_of_mip (xret_mip _ _ _)
    _ = stip (entered m).cpu := sbiHandleEcall_stip (entered m)
    _ = stip m.cpu := stip_of_mip (enterTrap_mip m.cpu)

/-- Taking an interrupt can only clear STIP. -/
theorem processPendingInterrupts_stip_le (s : Cpu c) :
    stip (processPendingInterrupts s) = true → stip s = true := by
  refine processPendingInterrupts_invariant (P := fun t => stip t = true → stip s = true) id ?_
  intro t i delegate ht h
  refine ht ?_
  unfold stip interrupt rvClearInterrupt at h
  simp only [BitVec.getLsbD_and, Bool.and_eq_true] at h
  exact h.1

/-- Up to the instruction, only the handler of the timer interrupt raises STIP. -/
theorem rvEnter_stip_le {ran : Option (PrivMode × BitVec 32)} {m : Machine c}
    (hc : Confined ran m.cpu) (hi : entersHandler m.cpu ≠ some .interrupt) :
    stip (rvEnter m).1.cpu = true → stip m.cpu = true := by
  obtain hn | ⟨hint, -⟩ | ⟨he, -⟩ := entersHandler_cases hc
  · unfold entersHandler at hn
    have he := rvEnter_enters m
    generalize rvEnter m = r at he ⊢
    cases he with
    | trapped htrap =>
        rw [if_pos htrap] at hn
        simp only [doTrap, hn]
        show (writePC (enterTrap m.cpu) _).csr.mip.getLsbD _ = true → _
        rw [writePC_csr, enterTrap_mip]
        exact id
    | searched _ _ => exact processPendingInterrupts_stip_le m.cpu
    | idle _ _ => exact id
  · exact absurd hint hi
  · rw [rvEnter_handler he, doTrap_ecall_stip he]
    exact id

/-! ## Events -/

/-- The hart does not write `sip` by a CSR instruction in this step. -/
def NoSipWrite (m : Machine c) : Event → Bool
  | .run =>
      match rvFetch m with
      | (_, some w) => !decide (WritesCsr w csrSip)
      | (_, none) => true
  | _ => true

/-- A call of `rv_run` that neither writes `sip` nor handles the timer interrupt. -/
theorem rvRun_stip_le {ran : Option (PrivMode × BitVec 32)} {m : Machine c}
    (hc : Confined ran m.cpu) (hi : entersHandler m.cpu ≠ some .interrupt)
    (hsip : NoSipWrite m .run = true) : stip (rvRun m).cpu = true → stip m.cpu = true := by
  have hfetch : stip (rvFetch m).1.cpu = true → stip m.cpu = true := by
    refine rvFetch_keeps (I := fun m' => stip m'.cpu = true → stip m.cpu = true)
      (rvEnter_stip_le hc hi) fun m1 h1 => ?_
    rw [fetch_stip m1]
    exact h1
  have hguest := rvFetch_confined hc
  unfold rvRun
  simp only [NoSipWrite] at hsip
  cases hf : rvFetch m with
  | mk m1 o =>
      rw [hf] at hfetch hguest hsip
      cases o with
      | none => exact hfetch
      | some w =>
          simp only [Bool.not_eq_true', decide_eq_false_iff_not] at hsip
          have hg := (hguest.2 w rfl).1
          show stip (rvExec m1 w).cpu = true → _
          rw [rvExec_stip m1 hg.low.ne_machine hsip]
          exact hfetch

/-- MTIP is pending only when the deadline has passed. -/
theorem TimerOk.reached {m : Machine c} (h : TimerOk m) {t : BitVec 64}
    (hle : t ≤ m.aclint.mtimecmp) (hm : mtip m.cpu = true) : t ≤ m.aclint.mtime :=
  BitVec.le_trans hle (h.passed (h.latched hm))

/-! ## From a call to the delivery of its deadline -/

/-- A machine after a `set_timer(t)`: whether the machine timer interrupt has been raised since with
`mtime` at `t` or later, and whether one so raised has been handled. -/
structure Watched (c : Cfg) where
  m : Machine c
  raised : Bool
  delivered : Bool

/-- The call of `rv_run` that serves the `set_timer` in `m`. It clears MTIP, so that an interrupt
that is pending behind it was raised since. -/
def watchCall (t : BitVec 64) (m : Machine c) : Watched c :=
  { m := rvRun m
    raised := mtip (rvRun m).cpu && decide (t ≤ (rvRun m).aclint.mtime)
    delivered := false }

/-- The next call of `rv_run` handles the machine timer interrupt. -/
def handlesTimer (m : Machine c) (e : Event) : Bool :=
  decide (e = .run) && decide (entersHandler m.cpu = some .interrupt)

/-- One event. -/
def watchStep (t : BitVec 64) (s : Watched c) (e : Event) : Watched c :=
  let m := stepEvent s.m e
  { m := m
    raised := s.raised || !mtip s.m.cpu && mtip m.cpu && decide (t ≤ m.aclint.mtime)
    delivered := s.delivered || s.raised && handlesTimer s.m e }

/-- The guest does not write `sip`, and does not replace the deadline by one before `t`. -/
def Undisturbed (t : BitVec 64) (m : Machine c) (e : Event) : Prop :=
  NoSipWrite m e = true ∧ (handlesTimer m e = true ∨ t ≤ (stepEvent m e).aclint.mtimecmp)

instance (t : BitVec 64) (m : Machine c) (e : Event) : Decidable (Undisturbed t m e) := by
  unfold Undisturbed
  infer_instance

/-- A `set_timer(t)` leaves no stale interrupt: STIP is clear behind the call, and as long as the
guest leaves it to the timer it stays clear until an interrupt for `t` has been handled. -/
def NoStale (t : BitVec 64) (m : Machine c) : Prop :=
  stip (doTrap m).cpu = false ∧
    (Undisturbed t m .run → ∀ es,
      Run.Along (watchStep t) (fun s e => Undisturbed t s.m e) (watchCall t m) es →
        let s := Run.run (watchStep t) (watchCall t m) es
        stip s.m.cpu = true → s.delivered = true)

/-- What holds until the delivery. -/
structure Awaits (t : BitVec 64) (s : Watched c) : Prop where
  stip : stip s.m.cpu = false
  mtimecmp : t ≤ s.m.aclint.mtimecmp
  pending : mtip s.m.cpu = true → s.raised = true
  taken : MtiLatched s.m.cpu → s.raised = true

/-- The watched state, in any run. -/
structure WatchInv (t : BitVec 64) (s : Watched c) : Prop where
  ok : TimerOk s.m
  awaits : s.delivered = true ∨ Awaits t s

/-- A call of `rv_run` latches the timer interrupt only by taking a pending one. -/
theorem rvRun_mtiLatched {ran : Option (PrivMode × BitVec 32)} {m : Machine c}
    (hc : Confined ran m.cpu) (hi : entersHandler m.cpu ≠ some .interrupt)
    (hl : MtiLatched (rvRun m).cpu) : mtip m.cpu = true := by
  rw [(rvRun_after_enter (rvEnter_guest hc)).2] at hl
  obtain hn | ⟨hint, -⟩ | ⟨he, -⟩ := entersHandler_cases hc
  · rcases (rvEnter_quiet hc hn).2 with ⟨-, hnl⟩ | ⟨hm, -⟩
    · exact absurd hl hnl
    · exact hm
  · exact absurd hint hi
  · rw [rvEnter_handler he] at hl
    exact absurd hl (doTrap_guest hc (sbiHandler_of_enters he).1).1.not_mtiLatched

theorem WatchInv.step {t : BitVec 64} {s : Watched c} (h : WatchInv t s) {e : Event}
    (hu : Undisturbed t s.m e) : WatchInv t (watchStep t s e) := by
  refine ⟨h.ok.step e, ?_⟩
  rcases h.awaits with hd | ha
  · exact Or.inl (by simp only [watchStep, hd, Bool.true_or])
  obtain ⟨hsip, hkeep⟩ := hu
  obtain ⟨ran, hc⟩ := h.ok.confined
  by_cases hh : handlesTimer s.m e = true
  · -- the interrupt that is handled was taken, so it was raised
    refine Or.inl ?_
    simp only [handlesTimer, Bool.and_eq_true, decide_eq_true_eq] at hh
    have hr := ha.taken (entersHandler_mtiLatched hc hh.2)
    simp only [watchStep, hr, handlesTimer, hh.1, hh.2, decide_true, Bool.and_self, Bool.or_true]
  · have hcmp := hkeep.resolve_left hh
    have hpending : mtip (stepEvent s.m e).cpu = true → (watchStep t s e).raised = true := by
      intro hm
      have hle := (h.ok.step e).reached hcmp hm
      simp only [watchStep, Bool.or_eq_true, Bool.and_eq_true, Bool.not_eq_true', hm,
        decide_eq_true hle, and_true]
      cases hold : mtip s.m.cpu with
      | true => exact Or.inl (ha.pending hold)
      | false => exact Or.inr rfl
    have hraised : s.raised = true → (watchStep t s e).raised = true := by
      intro hr
      simp only [watchStep, hr, Bool.true_or]
    by_cases he : e = .run
    · subst he
      have hi : entersHandler s.m.cpu ≠ some .interrupt := by
        simpa [handlesTimer] using hh
      refine Or.inr ⟨?_, hcmp, hpending, ?_⟩
      · rw [← Bool.not_eq_true]
        intro hst
        have := rvRun_stip_le hc hi hsip hst
        rw [ha.stip] at this
        cases this
      · intro hl
        exact hraised (ha.pending (rvRun_mtiLatched hc hi hl))
    · have hf := (deviceEvent_frame s.m he).1
      refine Or.inr ⟨(hf.stip (by decide)).trans ha.stip, hcmp, hpending, ?_⟩
      intro hl
      exact hraised (ha.taken (hf.mtiLatched_iff.mp hl))

/-! ## From the call on -/

/-- A call that finds STIP clear is the start of the wait. -/
theorem watchInv_call {t : BitVec 64} {m : Machine c} (h : TimerOk m)
    (ht : setTimerCall m = some t) (hstip : stip m.cpu = false) (hu : Undisturbed t m .run) :
    WatchInv t (watchCall t m) := by
  have he := entersHandler_of_setTimer ht
  obtain ⟨ran, hc⟩ := h.confined
  have hi : entersHandler m.cpu ≠ some .interrupt := by
    rw [he]
    decide
  have hcmp : t ≤ (rvRun m).aclint.mtimecmp := by
    refine hu.2.resolve_left ?_
    simpa [handlesTimer] using hi
  refine ⟨h.step .run, Or.inr ⟨?_, hcmp, ?_, ?_⟩⟩
  · rw [← Bool.not_eq_true]
    intro hst
    have hold := rvRun_stip_le hc hi hu.1 hst
    rw [hstip] at hold
    cases hold
  · intro hm
    have hle := (h.step .run).reached hcmp hm
    exact (Bool.and_eq_true _ _).mpr ⟨hm, decide_eq_true hle⟩
  · -- the call has left the trap it was latched as
    intro hl
    have hl' : MtiLatched (rvEnter m).1.cpu := (rvRun_after_enter (rvEnter_guest hc)).2.mp hl
    rw [rvEnter_handler he] at hl'
    exact absurd hl' (doTrap_guest hc (sbiHandler_of_enters he).1).1.not_mtiLatched

/-- From then on a supervisor timer interrupt is the one of the deadline. -/
theorem WatchInv.delivered {t : BitVec 64} {s : Watched c} (h : WatchInv t s)
    (hst : stip s.m.cpu = true) : s.delivered = true := by
  rcases h.awaits with hd | ha
  · exact hd
  · rw [ha.stip] at hst
    cases hst

theorem sbiStart_timerOk (bus : Bus c DevKind) (ram : Memory) (entryPoint : Addr c)
    (dtbAddress : Word c) : TimerOk (sbiStart bus ram entryPoint dtbAddress) where
  confined := ⟨none, sbiStart_confined bus ram entryPoint dtbAddress none⟩
  latched := vmStart_latched bus ram false entryPoint dtbAddress
  passed := fun h => by cases h

/-- `lui a7, 0x54495; addi a7, a7, -699; ecall; addi a0, x0, 2047; ecall; j .`: two `set_timer`
calls, the first with the deadline 0. -/
def rearmGuest : Memory :=
  ⟨fun i => [0xB7#8, 0x58#8, 0x49#8, 0x54#8, 0x93#8, 0x88#8, 0x58#8, 0xD4#8, 0x73#8, 0x00#8, 0x00#8,
    0x00#8, 0x13#8, 0x05#8, 0xF0#8, 0x7F#8, 0x73#8, 0x00#8, 0x00#8, 0x00#8, 0x6F#8, 0x00#8, 0x00#8,
    0x00#8].getD i 0#8⟩

/-- The guest under the built-in SBI. -/
def rearmMachine : Machine .rv64 :=
  sbiStart (mainBus .rv64 0x2000000) rearmGuest 0x80000000#64 0#64

/-- The second call is latched. The interrupt of the first has been passed on to a guest that has
STIE clear. -/
def rearmCall : List Event := [.run, .run, .run, .run, .run, .run]

end RV640
