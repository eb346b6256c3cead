import RV640.Proofs.Confinement

set_option autoImplicit false

/-! # What trap entry and the SBI handlers leave alone

A handler of the built-in SBI changes `a0` and `a1`, the pending bits and the machine timer enable,
and the devices it talks to. Memory, the bus and the rest of the hart stay.
-/

namespace RV640

open Bits

variable {c : Cfg}

/-- From `m` to `m'` a handler ran. -/
structure HandlerFrame (m m' : Machine c) : Prop where
  cpu : m'.cpu = { m.cpu with
    regs := m'.cpu.regs
    irq := m'.cpu.irq
    wfi := m'.cpu.wfi
    csr := { m.cpu.csr with mip := m'.cpu.csr.mip, mie := m'.cpu.csr.mie } }
  mie : ∀ k, k ≠ IrqCause.machineTmrInt.toNat → m'.cpu.csr.mie.getLsbD k = m.cpu.csr.mie.getLsbD k
  regs : ∀ r, r ≠ regA0 → r ≠ regA1 → m'.cpu.regs r = m.cpu.regs r
  bus : m'.bus = m.bus
  ram : m'.ram = m.ram

namespace HandlerFrame

variable {m m' m'' : Machine c}

protected theorem refl (m : Machine c) : HandlerFrame m m :=
  ⟨rfl, fun _ _ => rfl, fun _ _ _ => rfl, rfl, rfl⟩

protected theorem trans (h : HandlerFrame m m') (h' : HandlerFrame m' m'') :
    HandlerFrame m m'' where
  cpu := by rw [h'.cpu, h.cpu]
  mie := fun k hk => (h'.mie k hk).trans (h.mie k hk)
  regs := fun r h0 h1 => (h'.regs r h0 h1).trans (h.regs r h0 h1)
  bus := h'.bus.trans h.bus
  ram := h'.ram.trans h.ram

/-- A device that only raises or clears interrupts. -/
theorem of_irqFrame {S : List IrqCause} (hc : IrqFrame S m.cpu m'.cpu) (hbus : m'.bus = m.bus)
    (hram : m'.ram = m.ram) : HandlerFrame m m' where
  cpu := by rw [hc.rest]
  mie := fun k _ => by rw [hc.rest]
  regs := fun r _ _ => by rw [hc.rest]
  bus := hbus
  ram := hram

theorem pokeRx (m : Machine c) {rx : Reg} (hrx : rx = regA0 ∨ rx = regA1) (val : Word c) :
    HandlerFrame m { m with cpu := rvPokeRx m.cpu rx val } where
  cpu := rfl
  mie := fun _ _ => rfl
  regs := by
    intro r h0 h1
    have hne : r ≠ rx := by
      rcases hrx with rfl | rfl
      · exact h0
      · exact h1
    simp only [rvPokeRx, Function.update_of_ne hne]
  bus := rfl
  ram := rfl

theorem pokeMie (m : Machine c) {mie : Word c}
    (hmie : ∀ k, k ≠ IrqCause.machineTmrInt.toNat → mie.getLsbD k = m.cpu.csr.mie.getLsbD k) :
    HandlerFrame m { m with cpu := RV640.pokeMie m.cpu mie } where
  cpu := rfl
  mie := hmie
  regs := fun _ _ _ => rfl
  bus := rfl
  ram := rfl

end HandlerFrame

/-! ## The handlers -/

theorem devRead_ram (m : Machine c) (dev : DevKind) (addr : Nat) (buf : List Byte) :
    (devRead m dev addr buf).1.ram = m.ram := by
  cases dev <;> rfl

theorem busRead_ram {m m' : Machine c} {addr : Addr c} {buf bs : List Byte}
    (h : busRead m addr buf = some (m', bs)) : m'.ram = m.ram := by
  obtain ⟨d, devAddr, -, hr⟩ := busRead_some h
  have hram := devRead_ram m d.dev.callbacks devAddr.toNat buf
  rwa [hr] at hram

theorem setMtimecmp_handlerFrame (m : Machine c) (val : BitVec 64) :
    HandlerFrame m (setMtimecmp m val) :=
  .of_irqFrame (setMtimecmp_frame m val) rfl rfl

theorem dbgConWrite_handlerFrame (m : Machine c) (addr : Word c) (count : Nat) :
    HandlerFrame m (dbgConWrite m addr count).1 := by
  induction count generalizing m addr with
  | zero => exact HandlerFrame.refl m
  | succ count ih =>
      unfold dbgConWrite
      split
      · exact HandlerFrame.refl m
      · rename_i m1 bs hr
        have hread : HandlerFrame m m1 :=
          .of_irqFrame (busRead_frame hr).cpu (busRead_frame hr).bus (busRead_ram hr)
        have hput : HandlerFrame m1 (uiPutch m1 (bs.headD 0#8)) :=
          .of_irqFrame (IrqFrame.refl [] _) rfl rfl
        exact (hread.trans hput).trans (ih _ _)

theorem handleTimerExt_handlerFrame (m : Machine c) (fid : Word c) :
    HandlerFrame m (handleTimerExt m fid).1 := by
  simp only [handleTimerExt]
  split
  · refine (setMtimecmp_handlerFrame m (setTimerArg m.cpu)).trans (.pokeMie _ ?_)
    intro k hk
    split
    · exact clearMtie_other _ k hk
    · exact setMtie_other _ k hk
  · exact HandlerFrame.refl m

theorem sbiDispatch_handlerFrame (m : Machine c) (eid fid : Word c) :
    HandlerFrame m (sbiDispatch m eid fid).1 := by
  unfold sbiDispatch
  split
  · exact HandlerFrame.refl m
  · split
    · exact handleTimerExt_handlerFrame m fid
    · split
      · simp only [handleDbgConExt]
        split
        · exact dbgConWrite_handlerFrame m _ _
        · exact HandlerFrame.refl m
      · exact HandlerFrame.refl m

theorem sbiHandleEcall_handlerFrame (m : Machine c) : HandlerFrame m (sbiHandleEcall m) := by
  refine (sbiDispatch_handlerFrame m (m.cpu.regs regA7) (m.cpu.regs regA6)).trans ?_
  exact (HandlerFrame.pokeRx _ (Or.inl rfl) _).trans (.pokeRx _ (Or.inr rfl) _)

theorem sbiHandleInterrupt_handlerFrame (m : Machine c) :
    HandlerFrame m (sbiHandleInterrupt m) := by
  simp only [sbiHandleInterrupt]
  split
  · have hpoke := HandlerFrame.pokeMie (setMtimecmp m ((cpuUintMax : Word c).setWidth 64))
      (clearMtie_other _)
    refine ((setMtimecmp_handlerFrame m _).trans hpoke).trans ?_
    exact .of_irqFrame (rvSetInterrupt_frame _ .supervisorTmrInt) rfl rfl
  · exact HandlerFrame.refl m

/-! ## Trap entry and the search for an interrupt -/

/-- Memory, the bus and the icache stay. -/
structure StoreFrame (m m' : Machine c) : Prop where
  icache : m'.cpu.icache = m.cpu.icache
  bus : m'.bus = m.bus
  ram : m'.ram = m.ram

theorem HandlerFrame.storeFrame {m m' : Machine c} (h : HandlerFrame m m') : StoreFrame m m' :=
  ⟨by rw [h.cpu], h.bus, h.ram⟩

@[simp] theorem writePC_icache (s : Cpu c) (d : Addr c) : (writePC s d).icache = s.icache := by
  unfold writePC
  split <;> rfl

@[simp] theorem xret_icache (s : Cpu c) (mode : PrivMode) (size : Int) :
    (xret s mode size).icache = s.icache := by rw [xret_rest]

@[simp] theorem enterTrap_icache (s : Cpu c) : (enterTrap s).icache = s.icache := by
  unfold enterTrap
  split <;> rfl

theorem doTrap_storeFrame (m : Machine c) : StoreFrame m (doTrap m) := by
  simp only [doTrap]
  split
  · have h := (sbiHandleEcall_handlerFrame { m with cpu := enterTrap m.cpu }).storeFrame
    exact ⟨by rw [xret_icache, h.icache, enterTrap_icache], h.bus, h.ram⟩
  · have h := (sbiHandleInterrupt_handlerFrame { m with cpu := enterTrap m.cpu }).storeFrame
    exact ⟨by rw [xret_icache, h.icache, enterTrap_icache], h.bus, h.ram⟩
  · exact ⟨by rw [sbiHandleException, xret_icache, enterTrap_icache], rfl, rfl⟩
  · exact ⟨by rw [writePC_icache, enterTrap_icache], rfl, rfl⟩

theorem processPendingInterrupts_icache (s : Cpu c) :
    (processPendingInterrupts s).icache = s.icache :=
  processPendingInterrupts_invariant (P := fun t => t.icache = s.icache) rfl
    fun _ _ _ ht => ht

theorem rvEnter_storeFrame (m : Machine c) : StoreFrame m (rvEnter m).1 := by
  have he := rvEnter_enters m
  generalize rvEnter m = r at he ⊢
  cases he with
  | trapped _ => exact doTrap_storeFrame m
  | searched _ _ => exact ⟨processPendingInterrupts_icache m.cpu, rfl, rfl⟩
  | idle _ _ => exact ⟨rfl, rfl, rfl⟩

end RV640
