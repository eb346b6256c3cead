import RV640.Proofs.PlicDelivery

set_option autoImplicit false

/-! # The interrupt of the UART

The UART asks for service as long as a condition on its registers and its ring holds; the PLIC
remembers that an interrupt was raised. `_irq` brings the two together after a character was
pushed and after the Interrupt Enable Register was written, and nowhere else. This file says when
the PLIC forgets an interrupt that the UART still asks for.
-/

namespace RV640

open Bits

variable {c : Cfg}

/-- The UART's interrupt is known to the PLIC: pending, or claimed and not completed. -/
def Plic.knows (self : Plic 1) : Prop := self.isPending = true ∨ ∃ k, self.inService k = true

/-- While the UART asks for service, the PLIC knows of its interrupt. -/
def UartKnown (m : Machine c) : Prop := m.uart.irqCondition = true → m.plic.knows

/-- Every context caches a claim of nothing or of the source. -/
def Plic.CachesOne (self : Plic 1) : Prop :=
  ∀ k : Fin plicContexts, (self.context k).claim = 0#32 ∨ (self.context k).claim = 1#32

theorem Plic.Current.cachesOne {plic : Plic 1} {hart : Cpu c} (h : Current plic hart) :
    plic.CachesOne := by
  intro k
  rw [h.claim k]
  split
  · exact Or.inr rfl
  · exact Or.inl rfl

/-! ## Operations of the UART -/

/-- What an operation of the UART may do: it keeps the cached claims in order, and it does not make
the UART ask for service behind the PLIC's back. -/
structure UartFrame (m m' : Machine c) : Prop where
  caches : m.plic.CachesOne → m'.plic.CachesOne
  known : UartKnown m → UartKnown m'

namespace UartFrame

variable {m m' m'' : Machine c}

protected theorem refl (m : Machine c) : UartFrame m m := ⟨id, id⟩

protected theorem trans (h : UartFrame m m') (h' : UartFrame m' m'') : UartFrame m m'' :=
  ⟨fun hm => h'.caches (h.caches hm), fun hm => h'.known (h.known hm)⟩

/-- The PLIC stays, and the UART asks for service only if it did before. -/
theorem of_condition (hplic : m'.plic = m.plic)
    (huart : m'.uart.irqCondition = true → m.uart.irqCondition = true) : UartFrame m m' := by
  refine ⟨fun h => hplic ▸ h, ?_⟩
  intro h hcond
  rw [hplic]
  exact h (huart hcond)

end UartFrame

/-- After `_irq` the PLIC knows of the interrupt, whatever it knew before. -/
theorem Ns16550a.irq_spec (m : Machine c) :
    (m.plic.CachesOne → (Ns16550a.irq m).plic.CachesOne) ∧ UartKnown (Ns16550a.irq m) := by
  unfold Ns16550a.irq
  by_cases hcond : m.uart.irqCondition = true
  · rw [if_pos hcond]
    obtain ⟨hpend, -, hcur⟩ := Plic.plicInterrupt_spec m.plic m.cpu
    exact ⟨fun _ => hcur.cachesOne, fun _ => Or.inl hpend⟩
  · rw [if_neg hcond]
    exact ⟨id, fun h => absurd h hcond⟩

theorem ns16550Push_known (m : Machine c) (ch : Byte) : UartFrame m (ns16550Push m ch).1 := by
  unfold ns16550Push
  split
  · exact UartFrame.refl m
  · obtain ⟨hcaches, hknown⟩ := Ns16550a.irq_spec { m with uart := m.uart.store ch }
    exact ⟨hcaches, fun _ => hknown⟩

theorem Ns16550a.writeByte_known (m : Machine c) (addr : Nat) (b : Byte) :
    UartFrame m (Ns16550a.writeByte m addr b) := by
  unfold Ns16550a.writeByte
  split
  · split
    · exact UartFrame.refl m
    · exact UartFrame.of_condition rfl id
  · split
    · exact UartFrame.refl m
    · -- the Interrupt Enable Register
      obtain ⟨hcaches, hknown⟩ := Ns16550a.irq_spec { m with uart := { m.uart with ier := b } }
      exact ⟨hcaches, fun _ => hknown⟩
  · exact UartFrame.of_condition rfl id
  · exact UartFrame.refl m

theorem Ns16550a.cbWrite_known (m : Machine c) (addr : Nat) (buf : List Byte) :
    UartFrame m (Ns16550a.cbWrite m addr buf) := by
  induction buf generalizing m addr with
  | nil => exact UartFrame.refl m
  | cons b bs ih => exact (Ns16550a.writeByte_known m addr b).trans (ih _ _)

/-- Taking a character out of the ring cannot start a request. -/
theorem Ns16550a.popChar_condition (self : Ns16550a) (h : self.popChar.1.irqCondition = true) :
    self.irqCondition = true := by
  by_cases hlen : self.ringBuffer.len = 0
  · simpa only [Ns16550a.popChar, if_pos hlen] using h
  · simp only [Ns16550a.popChar, if_neg hlen] at h
    have hne : (self.ringBuffer.len != 0) = true := by simpa using hlen
    simp only [Ns16550a.irqCondition, Bool.or_eq_true, Bool.and_eq_true] at h ⊢
    rcases h with ⟨hier, -⟩ | hthre
    · exact Or.inl ⟨hier, hne⟩
    · exact Or.inr hthre

theorem Ns16550a.readByte_condition (self : Ns16550a) (addr : Nat) (old : Byte)
    (h : (self.readByte addr old).1.irqCondition = true) : self.irqCondition = true := by
  unfold Ns16550a.readByte at h
  split at h
  · split at h
    · exact h
    · exact self.popChar_condition h
  · split at h <;> exact h
  · exact h
  · exact h
  · exact h
  · exact h

theorem Ns16550a.cbRead_condition (self : Ns16550a) (addr : Nat) (buf : List Byte)
    (h : (self.cbRead addr buf).1.irqCondition = true) : self.irqCondition = true := by
  induction buf generalizing self addr with
  | nil => exact h
  | cons b bs ih => exact self.readByte_condition addr b (ih _ _ h)

/-! ## Operations of the PLIC -/

/-- A claim moves the interrupt from pending to in service. -/
theorem plicRead_known (m : Machine c) (addr : Nat) (buf : List Byte) (hm : m.plic.CachesOne) :
    UartFrame m (devRead m .plic addr buf).1 := by
  have hfst : (devRead m .plic addr buf).1
      = { m with
          plic := (m.plic.claimInterrupts m.cpu
            (Plic.claimContextOf plicInterrupts none addr buf.length)).1
          cpu := (m.plic.claimInterrupts m.cpu
            (Plic.claimContextOf plicInterrupts none addr buf.length)).2 } := by
    simp only [devRead, Plic.cbRead, Plic.readBytes_fst, Plic.readBytes_context]
  rw [hfst]
  cases Plic.claimContextOf plicInterrupts none addr buf.length with
  | none => exact UartFrame.of_condition rfl id
  | some i =>
      obtain ⟨hpend, hserv, hcur⟩ := Plic.claimInterrupts_spec m.plic m.cpu i (hm i)
      refine ⟨fun _ => hcur.cachesOne, ?_⟩
      intro hknown hcond
      by_cases hone : (m.plic.context i).claim = 1#32
      · right
        refine ⟨i, ?_⟩
        show (m.plic.claimInterrupts m.cpu (some i)).1.inService i = true
        rw [hserv i, decide_eq_true ⟨rfl, hone⟩, Bool.or_true]
      · rcases hknown hcond with hp | ⟨k, hk⟩
        · left
          show (m.plic.claimInterrupts m.cpu (some i)).1.isPending = true
          rw [hpend, hp, decide_eq_false hone]
          rfl
        · right
          refine ⟨k, ?_⟩
          show (m.plic.claimInterrupts m.cpu (some i)).1.inService k = true
          rw [hserv k, hk, Bool.true_or]

/-- The PLIC after a write, and the completion the write makes. -/
theorem plicWrite_eq (m : Machine c) (addr : Nat) (buf : List Byte) :
    let w := m.plic.writeBytes ⟨none, 0#32⟩ addr buf
    (devWrite m .plic addr buf).plic = (w.1.completeInterrupts m.cpu w.2.context w.2.irq).1
      ∧ (devWrite m .plic addr buf).uart = m.uart :=
  ⟨rfl, rfl⟩

/-- The write completes id 1 for a context that may complete it, and no other context has it in
service. -/
def EndsService (plic : Plic 1) (addr : Nat) (buf : List Byte) : Prop :=
  ∃ k, (plic.writeBytes ⟨none, 0#32⟩ addr buf).2 = ⟨some k, 1#32⟩
    ∧ (plic.writeBytes ⟨none, 0#32⟩ addr buf).1.isEnabled k = true
    ∧ ∀ j, j ≠ k → plic.inService j = false

/-- After a write the source is pending as before, and in service where the write did not end
it. -/
theorem plicWrite_spec (m : Machine c) (addr : Nat) (buf : List Byte) :
    (devWrite m .plic addr buf).plic.isPending = m.plic.isPending
      ∧ (∀ k, (devWrite m .plic addr buf).plic.inService k
        = (m.plic.inService k
          && !decide ((m.plic.writeBytes ⟨none, 0#32⟩ addr buf).2 = ⟨some k, 1#32⟩
            ∧ (m.plic.writeBytes ⟨none, 0#32⟩ addr buf).1.isEnabled k = true)))
      ∧ (devWrite m .plic addr buf).plic.CachesOne := by
  have hsrc := Plic.writeBytes_sources m.plic ⟨none, 0#32⟩ addr buf
  rw [(plicWrite_eq m addr buf).1]
  generalize m.plic.writeBytes ⟨none, 0#32⟩ addr buf = w at hsrc
  obtain ⟨hpend, hserv, hcur⟩ := Plic.completeInterrupts_spec w.1 m.cpu w.2
  refine ⟨?_, ?_, hcur.cachesOne⟩
  · rw [hpend]
    unfold Plic.isPending
    rw [(hsrc 0).1]
  · intro k
    rw [hserv k]
    unfold Plic.inService
    rw [(hsrc k).2]

/-! ## Runs -/

/-- What reaches the UART and its PLIC: characters, and reads and writes of their registers. -/
inductive UartOp where
  | push (ch : Byte)
  | uartRead (addr : Nat) (buf : List Byte)
  | uartWrite (addr : Nat) (buf : List Byte)
  | plicRead (addr : Nat) (buf : List Byte)
  | plicWrite (addr : Nat) (buf : List Byte)
  deriving DecidableEq

/-- One operation. -/
def uartStep (m : Machine c) : UartOp → Machine c
  | .push ch => (ns16550Push m ch).1
  | .uartRead addr buf => (devRead m .uart addr buf).1
  | .uartWrite addr buf => devWrite m .uart addr buf
  | .plicRead addr buf => (devRead m .plic addr buf).1
  | .plicWrite addr buf => devWrite m .plic addr buf

/-- The operation ends the service of the interrupt while the UART asks for more and nothing is
pending. -/
def DropsRequest (m : Machine c) : UartOp → Prop
  | .plicWrite addr buf =>
      m.uart.irqCondition = true ∧ m.plic.isPending = false ∧ EndsService m.plic addr buf
  | _ => False

/-- A write to the PLIC keeps the interrupt known exactly when it drops no request. -/
theorem plicWrite_known_iff (m : Machine c) (addr : Nat) (buf : List Byte) (hm : UartKnown m) :
    UartKnown (devWrite m .plic addr buf) ↔ ¬DropsRequest m (.plicWrite addr buf) := by
  obtain ⟨hpend, hserv, -⟩ := plicWrite_spec m addr buf
  constructor
  · rintro hknown ⟨hcond, hnp, k, hdone, hen, hothers⟩
    rcases hknown hcond with hp | ⟨j, hj⟩
    · rw [hpend, hnp] at hp
      cases hp
    · rw [hserv j] at hj
      by_cases hjk : j = k
      · subst hjk
        simp [hdone, hen] at hj
      · simp [hothers j hjk] at hj
  · intro hkeep hcond
    rcases hm hcond with hp | ⟨k, hk⟩
    · exact Or.inl (hpend.trans hp)
    · by_cases hp : m.plic.isPending = true
      · exact Or.inl (hpend.trans hp)
      right
      by_cases hdone : (m.plic.writeBytes ⟨none, 0#32⟩ addr buf).2 = ⟨some k, 1#32⟩
          ∧ (m.plic.writeBytes ⟨none, 0#32⟩ addr buf).1.isEnabled k = true
      · -- the service of `k` ends, so another context has the interrupt too
        have hother : ∃ j, j ≠ k ∧ m.plic.inService j = true := by
          by_contra hno
          simp only [not_exists, not_and, Bool.not_eq_true] at hno
          exact hkeep ⟨hcond, Bool.eq_false_iff.mpr hp, k, hdone.1, hdone.2, hno⟩
        obtain ⟨j, hjk, hj⟩ := hother
        refine ⟨j, ?_⟩
        rw [hserv j, hj, hdone.1]
        simp [Ne.symm hjk]
      · refine ⟨k, ?_⟩
        rw [hserv k, hk, decide_eq_false hdone]
        rfl

/-- One operation keeps the interrupt known exactly when it drops no request. -/
theorem uartStep_known_iff (m : Machine c) (op : UartOp) (hcaches : m.plic.CachesOne)
    (hm : UartKnown m) :
    (UartKnown (uartStep m op) ↔ ¬DropsRequest m op) ∧ (uartStep m op).plic.CachesOne := by
  cases op with
  | push ch =>
      have h := ns16550Push_known m ch
      exact ⟨iff_of_true (h.known hm) id, h.caches hcaches⟩
  | uartRead addr buf =>
      have h : UartFrame m (devRead m .uart addr buf).1 :=
        UartFrame.of_condition rfl (m.uart.cbRead_condition addr buf)
      exact ⟨iff_of_true (h.known hm) id, h.caches hcaches⟩
  | uartWrite addr buf =>
      have h := Ns16550a.cbWrite_known m addr buf
      exact ⟨iff_of_true (h.known hm) id, h.caches hcaches⟩
  | plicRead addr buf =>
      have h := plicRead_known m addr buf hcaches
      exact ⟨iff_of_true (h.known hm) id, h.caches hcaches⟩
  | plicWrite addr buf =>
      exact ⟨plicWrite_known_iff m addr buf hm, (plicWrite_spec m addr buf).2.2⟩

/-- A machine whose UART and PLIC are as `ns16550a_init` and `plic_init` leave them. -/
def freshDevices (m : Machine c) : Machine c :=
  { m with uart := ns16550aInit, plic := plicInit plicInterrupts }

/-- **The interrupt of the UART, over whole runs.** In a run from `ns16550a_init` and `plic_init`
the PLIC knows of the interrupt in every state where the UART asks for service, exactly when no
operation of the run completes the interrupt while the UART still asks for service, nothing is
pending and no other context has it in service. -/
theorem uart_irq_known_iff (m : Machine c) (ops : List UartOp) :
    (∀ pre, pre <+: ops → UartKnown (Run.run uartStep (freshDevices m) pre)) ↔
      Run.Along uartStep (fun s op => ¬DropsRequest s op) (freshDevices m) ops := by
  refine Run.prefixes_iff_along (K := fun s : Machine c => s.plic.CachesOne)
    (fun s op hcaches hs => (uartStep_known_iff s op hcaches hs).2)
    (fun s op hcaches hs => (uartStep_known_iff s op hcaches hs).1) ops (freshDevices m) ?_ ?_
  · have hinit : ∀ k : Fin plicContexts, ((plicInit 1).context k).claim = 0#32
        ∨ ((plicInit 1).context k).claim = 1#32 := by decide
    exact hinit
  · have hquiet : ns16550aInit.irqCondition = false := by decide
    intro hcond
    exact absurd (hquiet.symm.trans hcond) Bool.false_ne_true

/-- A driver enables the source and the receive interrupt; two characters arrive; it claims, reads
one of them and completes. -/
def uartDriver : List UartOp :=
  [.plicWrite 4 [1#8, 0#8, 0#8, 0#8], .plicWrite 0x2000 [2#8, 0#8, 0#8, 0#8], .uartWrite 1 [1#8],
    .push 0x61#8, .push 0x62#8, .plicRead 0x200004 [0#8, 0#8, 0#8, 0#8], .uartRead 0 [0#8],
    .plicWrite 0x200004 [1#8, 0#8, 0#8, 0#8]]

/-- A character is left in the ring, its interrupt enabled, and the PLIC knows nothing of it. -/
theorem uart_irq_forgotten :
    let m := Run.run uartStep
      (freshDevices (vmInit (mainBus .rv32 0x2000000) ⟨fun _ => 0#8⟩ true)) uartDriver
    m.uart.ringBuffer.len = 1 ∧ ¬UartKnown m := by
  intro m
  have hcond : m.uart.irqCondition = true := by decide +kernel
  have hpend : m.plic.isPending = false := by decide +kernel
  have hserv : ∀ k, m.plic.inService k = false := by decide +kernel
  refine ⟨by decide +kernel, ?_⟩
  intro hknown
  rcases hknown hcond with hp | ⟨k, hk⟩
  · rw [hpend] at hp
    cases hp
  · rw [hserv k] at hk
    cases hk

end RV640
