import RV640.Cpu.Run
import RV640.Lib.Run

set_option autoImplicit false

/-! # What a device may do to the hart

A device reaches the hart through `rv_setInterrupt` and `rv_clearInterrupt` only: `IrqSteps S` is
some calls of the two for interrupts of a set `S`. `IrqFrame S` says what they leave alone: some
pending bits of `S`, the `irq` flag and `wfi` may have changed, nothing else.
-/

namespace RV640

open Bits Relation

variable {c : Cfg} {n : Nat}

/-- From `s` to `s'` only interrupts of `S` were raised or cleared. -/
structure IrqFrame (S : List IrqCause) (s s' : Cpu c) : Prop where
  rest : s' = { s with irq := s'.irq, wfi := s'.wfi, csr := { s.csr with mip := s'.csr.mip } }
  mip : ∀ k, (∀ i ∈ S, k ≠ i.toNat) → s'.csr.mip.getLsbD k = s.csr.mip.getLsbD k

namespace IrqFrame

variable {S T : List IrqCause} {s s' s'' : Cpu c}

protected theorem refl (S : List IrqCause) (s : Cpu c) : IrqFrame S s s := ⟨rfl, fun _ _ => rfl⟩

protected theorem trans (h : IrqFrame S s s') (h' : IrqFrame S s' s'') : IrqFrame S s s'' where
  rest := by
    rw [h'.rest, h.rest]
  mip := by
    intro k hk
    rw [h'.mip k hk, h.mip k hk]

protected theorem mono (h : IrqFrame S s s') (hST : ∀ i ∈ S, i ∈ T) : IrqFrame T s s' :=
  ⟨h.rest, fun k hk => h.mip k fun i hi => hk i (hST i hi)⟩

theorem trap (h : IrqFrame S s s') : s'.trap = s.trap := by rw [h.rest]

theorem trapCause (h : IrqFrame S s s') : s'.trapCause = s.trapCause := by rw [h.rest]

theorem pc (h : IrqFrame S s s') : s'.pc = s.pc := by rw [h.rest]

theorem trapDelegate (h : IrqFrame S s s') : s'.trapDelegate = s.trapDelegate := by rw [h.rest]

/-- An interrupt outside `S` is pending after when it was pending before. -/
theorem pending (h : IrqFrame S s s') (i : IrqCause) (hi : i ∉ S) :
    s'.csr.mip.getLsbD i.toNat = s.csr.mip.getLsbD i.toNat := by
  refine h.mip _ ?_
  intro j hj he
  exact hi (IrqCause.toNat_inj he ▸ hj)

end IrqFrame

theorem rvSetInterrupt_frame (s : Cpu c) (i : IrqCause) : IrqFrame [i] s (rvSetInterrupt s i) where
  rest := rfl
  mip := by
    intro k hk
    have hki : k ≠ i.toNat := hk i (List.mem_singleton_self i)
    simp [rvSetInterrupt, pendingIRQ, IrqCause.mask, hki]

theorem rvClearInterrupt_frame (s : Cpu c) (i : IrqCause) :
    IrqFrame [i] s (rvClearInterrupt s i) where
  rest := rfl
  mip := by
    intro k hk
    have hki : k ≠ i.toNat := hk i (List.mem_singleton_self i)
    by_cases hkw : k < c.xlen
    · simp [rvClearInterrupt, IrqCause.mask, hki, hkw]
    · simp [rvClearInterrupt, BitVec.getLsbD_of_ge _ k (by omega : c.xlen ≤ k)]

theorem rvSetInterrupt_pending (s : Cpu c) (i : IrqCause) :
    (rvSetInterrupt s i).csr.mip.getLsbD i.toNat = true := by
  have h := i.toNat_lt_xlen c
  simp [rvSetInterrupt, pendingIRQ, IrqCause.mask, show i.toNat < c.xlen by omega]

theorem rvClearInterrupt_pending (s : Cpu c) (i : IrqCause) :
    (rvClearInterrupt s i).csr.mip.getLsbD i.toNat = false := by
  have h := i.toNat_lt_xlen c
  simp [rvClearInterrupt, IrqCause.mask]

/-! ## Calls of a device -/

/-- A device raises or clears an interrupt of `S`. -/
inductive IrqStep (S : List IrqCause) (s : Cpu c) : Cpu c → Prop
  | raise (i : IrqCause) (h : i ∈ S) : IrqStep S s (rvSetInterrupt s i)
  | clear (i : IrqCause) (h : i ∈ S) : IrqStep S s (rvClearInterrupt s i)

/-- Some calls, one after the other. -/
abbrev IrqSteps (S : List IrqCause) : Cpu c → Cpu c → Prop := ReflTransGen (IrqStep S)

theorem IrqSteps.mono {S T : List IrqCause} {s s' : Cpu c} (h : IrqSteps S s s')
    (hST : ∀ i ∈ S, i ∈ T) : IrqSteps T s s' := by
  refine ReflTransGen.mono ?_ _ _ h
  intro a b hab
  cases hab with
  | raise i hi => exact .raise i (hST i hi)
  | clear i hi => exact .clear i (hST i hi)

theorem IrqSteps.frame {S : List IrqCause} {s s' : Cpu c} (h : IrqSteps S s s') :
    IrqFrame S s s' := by
  refine Run.invariant_star ?_ h (IrqFrame.refl S s)
  intro a b hab ha
  cases hab with
  | raise i hi =>
      refine ha.trans ((rvSetInterrupt_frame a i).mono ?_)
      intro j hj
      rwa [List.mem_singleton.mp hj]
  | clear i hi =>
      refine ha.trans ((rvClearInterrupt_frame a i).mono ?_)
      intro j hj
      rwa [List.mem_singleton.mp hj]

/-! ## The PLIC -/

/-- The interrupts the PLIC drives. -/
def extIrqs : List IrqCause := [.supervisorExtInt, .machineExtInt]

theorem contextCause_mem (i : Nat) : Plic.contextCause i ∈ extIrqs := by
  unfold Plic.contextCause extIrqs
  split <;> simp

theorem Plic.notifyContext_steps (self : Plic n) (hart : Cpu c) (best : Plic.Best)
    (i : Fin plicContexts) : IrqSteps extIrqs hart (self.notifyContext hart best i).2 := by
  simp only [Plic.notifyContext]
  split
  · exact .single (.raise _ (contextCause_mem i))
  · exact .single (.clear _ (contextCause_mem i))

theorem Plic.processInterrupts_steps (self : Plic n) (hart : Cpu c) :
    IrqSteps extIrqs hart (self.processInterrupts hart).2 :=
  (Plic.notifyContext_steps _ hart _ 0).trans (Plic.notifyContext_steps _ _ _ 1)

theorem Plic.cbRead_steps (self : Plic n) (hart : Cpu c) (addr size : Nat) :
    IrqSteps extIrqs hart (self.cbRead hart addr size).2.1 := by
  simp only [Plic.cbRead, Plic.claimInterrupts]
  split
  · exact .refl
  · exact Plic.processInterrupts_steps _ hart

theorem Plic.cbWrite_steps (self : Plic n) (hart : Cpu c) (addr : Nat) (buf : List Byte) :
    IrqSteps extIrqs hart (self.cbWrite hart addr buf).2 := by
  simp only [Plic.cbWrite, Plic.completeInterrupts]
  split
  · exact Plic.processInterrupts_steps _ hart
  · exact Plic.processInterrupts_steps _ hart

theorem plicInterrupt_steps (self : Plic n) (hart : Cpu c) (irq : Nat) :
    IrqSteps extIrqs hart (plicInterrupt self hart irq).2 := by
  unfold plicInterrupt
  split
  · exact .refl
  · exact Plic.processInterrupts_steps _ hart

theorem plicInterrupt_frame (self : Plic n) (hart : Cpu c) (irq : Nat) :
    IrqFrame extIrqs hart (plicInterrupt self hart irq).2 :=
  (plicInterrupt_steps self hart irq).frame

/-! ## The ACLINT -/

/-- The interrupts the ACLINT drives. -/
def aclintIrqs : List IrqCause := [.machineTmrInt, .machineSwInt]

/-- The interrupts a device drives. -/
def deviceIrqs : List IrqCause := aclintIrqs ++ extIrqs

theorem Aclint.updateMtimer_steps (self : Aclint) (hart : Cpu c) :
    IrqSteps [.machineTmrInt] hart (self.updateMtimer hart).2 := by
  unfold Aclint.updateMtimer
  split
  · split
    · exact .refl
    · exact .single (.raise _ (List.mem_singleton_self _))
  · split
    · exact .single (.clear _ (List.mem_singleton_self _))
    · exact .refl

theorem Aclint.updateMtimer_frame (self : Aclint) (hart : Cpu c) :
    IrqFrame [.machineTmrInt] hart (self.updateMtimer hart).2 :=
  (Aclint.updateMtimer_steps self hart).frame

theorem Aclint.updateMswi_steps (self : Aclint) (hart : Cpu c) :
    IrqSteps [.machineSwInt] hart (self.updateMswi hart) := by
  unfold Aclint.updateMswi
  split
  · exact .single (.raise _ (List.mem_singleton_self _))
  · exact .single (.clear _ (List.mem_singleton_self _))

theorem Aclint.updateMswi_frame (self : Aclint) (hart : Cpu c) :
    IrqFrame [.machineSwInt] hart (self.updateMswi hart) :=
  (Aclint.updateMswi_steps self hart).frame

theorem Aclint.cbWrite_steps (self : Aclint) (hart : Cpu c) (addr : Nat) (buf : List Byte) :
    IrqSteps aclintIrqs hart (self.cbWrite hart addr buf).2 := by
  have h1 := Aclint.updateMtimer_steps (self.writeBytes addr buf) hart
  have h2 := Aclint.updateMswi_steps ((self.writeBytes addr buf).updateMtimer hart).1
    ((self.writeBytes addr buf).updateMtimer hart).2
  exact (h1.mono (by simp [aclintIrqs])).trans (h2.mono (by simp [aclintIrqs]))

/-! ## Accesses that are not writes to the ACLINT -/

/-- From `m` to `m'` the hart only saw interrupts of the PLIC, and the bus and the ACLINT are as
they were. -/
structure IoFrame (m m' : Machine c) : Prop where
  cpu : IrqFrame extIrqs m.cpu m'.cpu
  bus : m'.bus = m.bus
  aclint : m'.aclint = m.aclint

namespace IoFrame

variable {m m' m'' : Machine c}

protected theorem refl (m : Machine c) : IoFrame m m := ⟨IrqFrame.refl _ _, rfl, rfl⟩

protected theorem trans (h : IoFrame m m') (h' : IoFrame m' m'') : IoFrame m m'' :=
  ⟨h.cpu.trans h'.cpu, h'.bus.trans h.bus, h'.aclint.trans h.aclint⟩

end IoFrame

theorem Ns16550a.irq_steps (m : Machine c) :
    IrqSteps extIrqs m.cpu (Ns16550a.irq m).cpu := by
  unfold Ns16550a.irq
  split
  · exact plicInterrupt_steps m.plic m.cpu _
  · exact .refl

theorem Ns16550a.writeByte_steps (m : Machine c) (addr : Nat) (b : Byte) :
    IrqSteps extIrqs m.cpu (Ns16550a.writeByte m addr b).cpu := by
  unfold Ns16550a.writeByte
  split
  · split
    · exact .refl
    · exact .refl
  · split
    · exact .refl
    · exact Ns16550a.irq_steps { m with uart := { m.uart with ier := b } }
  · exact .refl
  · exact .refl

theorem Ns16550a.cbWrite_steps (m : Machine c) (addr : Nat) (buf : List Byte) :
    IrqSteps extIrqs m.cpu (Ns16550a.cbWrite m addr buf).cpu := by
  induction buf generalizing m addr with
  | nil => exact .refl
  | cons b bs ih => exact (Ns16550a.writeByte_steps m addr b).trans (ih _ _)

theorem ns16550Push_steps (m : Machine c) (ch : Byte) :
    IrqSteps extIrqs m.cpu (ns16550Push m ch).1.cpu := by
  unfold ns16550Push
  split
  · exact .refl
  · exact Ns16550a.irq_steps { m with uart := m.uart.store ch }

/-- A read that the bus takes is a read of the device it finds. -/
theorem busRead_some {m m' : Machine c} {addr : Addr c} {buf bs : List Byte}
    (h : busRead m addr buf = some (m', bs)) :
    ∃ d devAddr, findDevice m.bus addr buf.length = some (d, devAddr)
      ∧ devRead m d.dev.callbacks devAddr.toNat buf = (m', bs) := by
  unfold busRead at h
  split at h
  · cases h
  · rename_i d devAddr hd
    exact ⟨d, devAddr, hd, Option.some.inj h⟩

/-- A read of any device. -/
theorem devRead_steps (m : Machine c) (dev : DevKind) (addr : Nat) (buf : List Byte) :
    IrqSteps extIrqs m.cpu (devRead m dev addr buf).1.cpu := by
  cases dev with
  | ram => exact .refl
  | aclint => exact .refl
  | plic => exact Plic.cbRead_steps m.plic m.cpu addr buf.length
  | uart => exact .refl

/-- A write to any device. -/
theorem devWrite_steps (m : Machine c) (dev : DevKind) (addr : Nat) (buf : List Byte) :
    IrqSteps deviceIrqs m.cpu (devWrite m dev addr buf).cpu := by
  cases dev with
  | ram => exact .refl
  | aclint =>
      exact (Aclint.cbWrite_steps m.aclint m.cpu addr buf).mono
        fun i hi => List.mem_append_left _ hi
  | plic =>
      exact (Plic.cbWrite_steps m.plic m.cpu addr buf).mono
        fun i hi => List.mem_append_right _ hi
  | uart => exact (Ns16550a.cbWrite_steps m addr buf).mono fun i hi => List.mem_append_right _ hi

theorem busRead_steps {m m' : Machine c} {addr : Addr c} {buf bs : List Byte}
    (h : busRead m addr buf = some (m', bs)) : IrqSteps extIrqs m.cpu m'.cpu := by
  obtain ⟨d, devAddr, -, hr⟩ := busRead_some h
  have hsteps := devRead_steps m d.dev.callbacks devAddr.toNat buf
  rwa [hr] at hsteps

/-! ## What they leave alone -/

theorem Ns16550a.irq_frame (m : Machine c) : IoFrame m (Ns16550a.irq m) := by
  unfold Ns16550a.irq
  split
  · exact ⟨plicInterrupt_frame m.plic m.cpu _, rfl, rfl⟩
  · exact IoFrame.refl m

theorem Ns16550a.writeByte_frame (m : Machine c) (addr : Nat) (b : Byte) :
    IoFrame m (Ns16550a.writeByte m addr b) := by
  have hirq : IoFrame m (Ns16550a.irq { m with uart := { m.uart with ier := b } }) := by
    have h := Ns16550a.irq_frame { m with uart := { m.uart with ier := b } }
    exact ⟨h.cpu, h.bus, h.aclint⟩
  unfold Ns16550a.writeByte
  split
  · split
    · exact IoFrame.refl m
    · exact ⟨IrqFrame.refl _ _, rfl, rfl⟩
  · split
    · exact IoFrame.refl m
    · exact hirq
  · exact ⟨IrqFrame.refl _ _, rfl, rfl⟩
  · exact IoFrame.refl m

theorem Ns16550a.cbWrite_frame (m : Machine c) (addr : Nat) (buf : List Byte) :
    IoFrame m (Ns16550a.cbWrite m addr buf) := by
  induction buf generalizing m addr with
  | nil => exact IoFrame.refl m
  | cons b bs ih => exact (Ns16550a.writeByte_frame m addr b).trans (ih _ _)

theorem ns16550Push_frame (m : Machine c) (ch : Byte) : IoFrame m (ns16550Push m ch).1 := by
  unfold ns16550Push
  split
  · exact IoFrame.refl m
  · have h := Ns16550a.irq_frame { m with uart := m.uart.store ch }
    exact ⟨h.cpu, h.bus, h.aclint⟩

/-- A read of any device. -/
theorem devRead_frame (m : Machine c) (dev : DevKind) (addr : Nat) (buf : List Byte) :
    IoFrame m (devRead m dev addr buf).1 := by
  cases dev with
  | ram => exact IoFrame.refl m
  | aclint => exact IoFrame.refl m
  | plic => exact ⟨(Plic.cbRead_steps m.plic m.cpu addr buf.length).frame, rfl, rfl⟩
  | uart => exact ⟨IrqFrame.refl _ _, rfl, rfl⟩

/-- A write to any device but the ACLINT. -/
theorem devWrite_frame (m : Machine c) {dev : DevKind} (hdev : dev ≠ .aclint) (addr : Nat)
    (buf : List Byte) : IoFrame m (devWrite m dev addr buf) := by
  cases dev with
  | ram => exact ⟨IrqFrame.refl _ _, rfl, rfl⟩
  | aclint => exact absurd rfl hdev
  | plic => exact ⟨(Plic.cbWrite_steps m.plic m.cpu addr buf).frame, rfl, rfl⟩
  | uart => exact Ns16550a.cbWrite_frame m addr buf

theorem busRead_frame {m m' : Machine c} {addr : Addr c} {buf bs : List Byte}
    (h : busRead m addr buf = some (m', bs)) : IoFrame m m' := by
  obtain ⟨d, devAddr, -, hr⟩ := busRead_some h
  have hframe := devRead_frame m d.dev.callbacks devAddr.toNat buf
  rwa [hr] at hframe

/-- A write to any device raises or clears device interrupts only. -/
theorem devWrite_irqFrame (m : Machine c) (dev : DevKind) (addr : Nat) (buf : List Byte) :
    IrqFrame (aclintIrqs ++ extIrqs) m.cpu (devWrite m dev addr buf).cpu
      ∧ (devWrite m dev addr buf).bus = m.bus := by
  refine ⟨(devWrite_steps m dev addr buf).frame, ?_⟩
  by_cases hdev : dev = .aclint
  · subst hdev
    rfl
  · exact (devWrite_frame m hdev addr buf).bus

/-! ## Memory accesses of the hart -/

/-- Of the hart, a load sees a fault or calls of devices. -/
theorem readMem_steps (m : Machine c) (addr : Addr c) (size : Nat) :
    (readMem m addr size).1.cpu = trap m.cpu .ldAf
      ∨ IrqSteps deviceIrqs m.cpu (readMem m addr size).1.cpu := by
  unfold readMem
  split
  · exact Or.inr .refl
  · split
    · rename_i hr
      exact Or.inr ((busRead_steps hr).mono fun i hi => List.mem_append_right _ hi)
    · exact Or.inl rfl

/-- And so does a store. -/
theorem writeMem_steps (m : Machine c) (addr : Addr c) (buf : List Byte) :
    (writeMem m addr buf).cpu = trap m.cpu .stAf
      ∨ IrqSteps deviceIrqs m.cpu (writeMem m addr buf).cpu := by
  unfold writeMem busWrite
  split
  · exact Or.inr .refl
  · cases findDevice m.bus addr buf.length with
    | none => exact Or.inl rfl
    | some p =>
        exact Or.inr (devWrite_steps { m with bus := busWriteInvalidate m.bus addr buf.length }
          p.1.dev.callbacks p.2.toNat buf)

theorem readMem_cpu (m : Machine c) (addr : Addr c) (size : Nat) :
    (readMem m addr size).1.cpu = trap m.cpu .ldAf
      ∨ IrqFrame deviceIrqs m.cpu (readMem m addr size).1.cpu :=
  (readMem_steps m addr size).imp_right IrqSteps.frame

theorem writeMem_cpu (m : Machine c) (addr : Addr c) (buf : List Byte) :
    (writeMem m addr buf).cpu = trap m.cpu .stAf
      ∨ IrqFrame deviceIrqs m.cpu (writeMem m addr buf).cpu :=
  (writeMem_steps m addr buf).imp_right IrqSteps.frame

theorem readMem_pc (m : Machine c) (addr : Addr c) (size : Nat) :
    (readMem m addr size).1.cpu.pc = m.cpu.pc := by
  rcases readMem_cpu m addr size with h | h
  · rw [h]
    rfl
  · exact h.pc

theorem writeMem_pc (m : Machine c) (addr : Addr c) (buf : List Byte) :
    (writeMem m addr buf).cpu.pc = m.cpu.pc := by
  rcases writeMem_cpu m addr buf with h | h
  · rw [h]
    rfl
  · exact h.pc

end RV640
