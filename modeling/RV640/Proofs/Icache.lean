import RV640.Lib.Bytes
import RV640.Proofs.RamAccess
import RV640.Proofs.SbiFrame

set_option autoImplicit false

/-! # The instruction cache

The one line of the cache starts at whatever address was fetched when it was filled. Stores do not
touch it: it shows what RAM held at that moment, until a FENCE, a FENCE.I or a reset empties it. A
run is followed together with a copy of the RAM taken at each fill, and the invariant says that a
line that is not empty is a part of that copy.

Runs are taken whole; of a state in which the PLIC has left its arrays (`oob`, see
`PlicBounds.lean`) nothing is claimed.
-/

namespace RV640

open Bits

variable {c : Cfg}

/-! ## Runs with a copy of the filled RAM -/

/-- FENCE or FENCE.I. -/
def isFence (w : BitVec 32) : Bool :=
  decide (w.extractLsb' 0 2 = 3#2) && decide (opcode w = 3#5)
    && (decide (decodeFunct3 w = 0#3) || decide (decodeFunct3 w = 1#3))

/-- The state in which the next `rv_run` calls `_fetch`, if it does. -/
def fetchState (m : Machine c) : Option (Machine c) :=
  if (rvEnter m).2 then none else some (rvEnter m).1

/-- `_fetch` fills the line. -/
def fetchFills (m : Machine c) : Bool :=
  fetchMisses m && (findDevice m.bus (readPC m.cpu) icacheLineSize).isSome

/-- The next `rv_run` executes a FENCE or a FENCE.I. -/
def runsFence (m : Machine c) : Bool := (rvFetch m).2.any isFence

/-- A machine with the RAM as it was when the line was last filled. `flushed` says that a fence or
a reset came after the last fetch. -/
structure Filled (c : Cfg) where
  machine : Machine c
  filled : Memory
  flushed : Bool

/-- What happens to the machine: an event of the main loop, or a reset. -/
inductive ResetEvent (c : Cfg) where
  | event (e : Event)
  | reset (mode : PrivMode) (start : Addr c)

/-- One event. -/
def Filled.step (s : Filled c) : ResetEvent c → Filled c
  | .event .run =>
      { machine := rvRun s.machine
        filled := match fetchState s.machine with
          | some m => if fetchFills m then m.ram else s.filled
          | none => s.filled
        flushed := match fetchState s.machine with
          | some _ => runsFence s.machine
          | none => s.flushed }
  | .event e => { s with machine := stepEvent s.machine e }
  | .reset mode start => { s with machine := rvReset s.machine mode start, flushed := true }

/-- The next `rv_run` fetches from an even address with four bytes in RAM. -/
def FetchInRam (ramSize : Nat) (m : Machine c) : Prop :=
  match fetchState m with
  | some m => readPC m.cpu &&& 1#_ = 0#_ ∧ InRam ramSize (readPC m.cpu) 4
  | none => True

/-- The condition on a step of a run. -/
def StepInRam (ramSize : Nat) (s : Filled c) : ResetEvent c → Prop
  | .event .run => FetchInRam ramSize s.machine
  | _ => True

instance (ramSize : Nat) (s : Filled c) (e : ResetEvent c) :
    Decidable (StepInRam ramSize s e) := by
  unfold StepInRam
  split
  · unfold FetchInRam
    split <;> infer_instance
  · infer_instance

/-! ## What touches the cache -/

/-- From `m` to `m'` the line stayed or was flushed, and the devices stayed. -/
structure LineKept (m m' : Machine c) : Prop where
  line : m'.cpu.icache = m.cpu.icache ∨ m'.cpu.icache.base = cpuAddrMax
  devices : m'.bus.devices = m.bus.devices

namespace LineKept

variable {m m' m'' : Machine c}

protected theorem refl (m : Machine c) : LineKept m m := ⟨Or.inl rfl, rfl⟩

protected theorem trans (h : LineKept m m') (h' : LineKept m' m'') : LineKept m m'' where
  line := by
    rcases h'.line with he | he
    · rw [he]
      exact h.line
    · exact Or.inr he
  devices := h'.devices.trans h.devices

theorem of_irqFrame {S : List IrqCause} (hc : IrqFrame S m.cpu m'.cpu)
    (hd : m'.bus.devices = m.bus.devices) : LineKept m m' :=
  ⟨Or.inl (by rw [hc.rest]), hd⟩

end LineKept

theorem writeReg_icache (s : Cpu c) (rd : Reg) (d : Word c) :
    (writeReg s rd d).icache = s.icache := by
  unfold writeReg
  split <;> rfl

theorem CpuMicro.icache {w : BitVec 32} {s s' : Cpu c} (h : CpuMicro w s s') :
    s'.icache = s.icache ∨ s'.icache.base = cpuAddrMax := by
  cases h with
  | writeReg rd d => exact Or.inl (writeReg_icache s rd d)
  | writePC d => exact Or.inl (writePC_icache s d)
  | fault cause _ => exact Or.inl rfl
  | ecall _ => exact Or.inl rfl
  | writeCSR csr _ val =>
      exact Or.inl (writeCSR_keeps Cpu.icache rfl fun _ hw => by rw [csrWritten_rest hw])
  | sret size => exact Or.inl (xret_icache s .supervisor size)
  | mret size => exact Or.inl (xret_icache s .machine size)
  | wfi => exact Or.inl rfl
  | flushIcache => exact Or.inr rfl

/-- No effect registers a device. -/
theorem Micro.devices {w : BitVec 32} {m m' : Machine c} (h : Micro w m m') :
    m'.bus.devices = m.bus.devices := by
  cases h with
  | cpu h => rfl
  | readMem addr size =>
      unfold RV640.readMem
      split
      · rfl
      · split
        · rename_i hr
          rw [(busRead_frame hr).bus]
        · rfl
  | writeMem addr buf =>
      unfold RV640.writeMem busWrite
      split
      · rfl
      · cases findDevice m.bus addr buf.length with
        | none => rfl
        | some p =>
            refine (congrArg Bus.devices (devWrite_irqFrame _ _ _ _).2).trans ?_
            exact busWriteInvalidate_devices m.bus addr buf.length
  | reserve addr size => rfl
  | checkReserve addr size => exact busReservationCheckInvalidate_devices m.bus addr size

theorem Micro.lineKept {w : BitVec 32} {m m' : Machine c} (h : Micro w m m') : LineKept m m' := by
  refine ⟨?_, h.devices⟩
  rcases h.cpu_cases with hc | hf
  · exact hc.icache
  · exact Or.inl (by rw [hf.rest])

/-- An instruction keeps the line or flushes it. -/
theorem rvExec_lineKept (m : Machine c) (w : BitVec 32) : LineKept m (rvExec m w) :=
  Run.invariant_star (I := LineKept m) (fun _ _ hm h => h.trans hm.lineKept) (rvExec_micros m w)
    (LineKept.refl m)

theorem rvExec_fence (m : Machine c) {w : BitVec 32} (h : isFence w = true) :
    (rvExec m w).cpu.icache.base = cpuAddrMax := by
  simp only [isFence, Bool.and_eq_true, Bool.or_eq_true, decide_eq_true_eq] at h
  obtain ⟨⟨hq, hop⟩, hf⟩ := h
  unfold rvExec execCext
  rcases hf with hf | hf
  · simp only [if_pos hq, execInstr, hop, doMISCMEM, hf, advancePC, writePC_icache]
    rfl
  · simp only [if_pos hq, execInstr, hop, doMISCMEM, hf, advancePC, writePC_icache]
    rfl

/-- A reset flushes the line. -/
theorem rvReset_base (m : Machine c) (mode : PrivMode) (start : Addr c) :
    (rvReset m mode start).cpu.icache.base = cpuAddrMax := by
  simp [rvReset, flushIcache]

theorem rvReset_lineKept (m : Machine c) (mode : PrivMode) (start : Addr c) :
    LineKept m (rvReset m mode start) :=
  ⟨Or.inr (rvReset_base m mode start), busReservationCheckInvalidate_devices m.bus 0#_ 0⟩

/-! ## The line and its copy -/

/-- A line that is not empty lies in RAM, and is that part of the copy. -/
def LineMatches (ramSize : Nat) (icache : Icache c) (filled : Memory) : Prop :=
  icache.base ≠ cpuAddrMax →
    InRam ramSize icache.base icacheLineSize ∧
      ∀ i (hi : i < icacheLineSize), icache.line[i] = filled.data (ramOffset icache.base + i)

theorem LineMatches.kept {ramSize : Nat} {m m' : Machine c} {filled : Memory}
    (h : LineMatches ramSize m.cpu.icache filled) (hk : LineKept m m') :
    LineMatches ramSize m'.cpu.icache filled := by
  rcases hk.line with he | he
  · rw [he]
    exact h
  · exact fun hne => absurd he hne

theorem memRead_eq_readAt (ram : Memory) (a n : Nat) :
    memRead ram a n = Bytes.readAt ram.data a n :=
  rfl

/-- The first bytes of a longer read. -/
theorem memRead_take (ram : Memory) (a : Nat) {n k : Nat} (h : k ≤ n) :
    (memRead ram a n).take k = memRead ram a k := by
  obtain ⟨r, rfl⟩ := Nat.exists_eq_add_of_le h
  rw [memRead_eq_readAt, memRead_eq_readAt, Bytes.readAt_add,
    List.take_left' (Bytes.readAt_length _ _ _)]

/-- Four bytes of a line. -/
theorem line_slice (bytes : Vector Byte icacheLineSize) (f : Nat → Byte) (a k : Nat)
    (hk : k + 4 ≤ icacheLineSize) (h : ∀ i (hi : i < icacheLineSize), bytes[i] = f (a + i)) :
    (bytes.toList.drop k).take 4 = Bytes.readAt f (a + k) 4 := by
  apply List.ext_getElem?
  intro i
  rw [Bytes.readAt_getElem?, List.getElem?_take]
  split
  · rename_i hi
    rw [List.getElem?_drop, List.getElem?_eq_getElem (by simp; omega)]
    congr 1
    rw [Vector.getElem_toList, h (k + i) (by omega), Nat.add_assoc]
  · rfl

/-- A line that serves an address is not empty. -/
theorem base_of_hit {m : Machine c} (hhit : fetchMisses m = false) :
    m.cpu.icache.base ≠ cpuAddrMax := by
  simp only [fetchMisses, Bool.or_eq_false_iff, decide_eq_false_iff_not] at hhit
  exact hhit.1

/-- A line that ends within the address space serves the four bytes at an address from itself. -/
theorem hit_in_line {m : Machine c} (hhit : fetchMisses m = false)
    (hend : m.cpu.icache.base.toNat + icacheLineSize ≤ 2 ^ c.alen) :
    ∃ k, k + 4 ≤ icacheLineSize ∧ (readPC m.cpu - m.cpu.icache.base).toNat = k ∧
      (readPC m.cpu).toNat = m.cpu.icache.base.toNat + k := by
  have hw := two_pow_32_le_alen c
  have h128 : icacheLineSize = 128 := rfl
  simp only [fetchMisses, Bool.or_eq_false_iff, decide_eq_false_iff_not, BitVec.not_lt] at hhit
  obtain ⟨-, hle⟩ := hhit
  generalize hk : readPC m.cpu - m.cpu.icache.base = d at hle
  have hpc : readPC m.cpu = m.cpu.icache.base + d := by
    rw [← hk, BitVec.add_comm, BitVec.sub_add_cancel]
  have hd : d.toNat ≤ 124 := by
    have := BitVec.le_def.mp hle
    rw [BitVec.toNat_ofNat, Nat.mod_eq_of_lt (by omega)] at this
    omega
  -- the line ends within 2^w, so the sum does not wrap
  have hsum : (readPC m.cpu).toNat = m.cpu.icache.base.toNat + d.toNat := by
    rw [hpc, BitVec.toNat_add, Nat.mod_eq_of_lt (by omega)]
  exact ⟨d.toNat, by omega, rfl, hsum⟩

section Fetch

variable {ramSize : Nat} {m : Machine c} {filled : Memory}

/-- The bytes of an address that the line serves. -/
theorem offset_of_hit (hsz : ramSize ≤ ramSizeMax)
    (hline : LineMatches ramSize m.cpu.icache filled) (hhit : fetchMisses m = false) :
    ∃ k, k + 4 ≤ icacheLineSize ∧ (readPC m.cpu - m.cpu.icache.base).toNat = k ∧
      ramOffset (readPC m.cpu) = ramOffset m.cpu.icache.base + k ∧
      m.cpu.icache.base ≠ cpuAddrMax := by
  have hw := two_pow_32_le_alen c
  have hne := base_of_hit hhit
  obtain ⟨hbase, -⟩ := hline hne
  have hlt := hbase.lt hsz
  have hlo := hbase.1
  obtain ⟨k, hk, hoff, hsum⟩ := hit_in_line hhit (by omega)
  refine ⟨k, hk, hoff, ?_, hne⟩
  unfold ramOffset
  omega

/-- `_fetch` from the line: the bytes of the copy. -/
theorem fetch_hit (hsz : ramSize ≤ ramSizeMax) (hline : LineMatches ramSize m.cpu.icache filled)
    (heven : readPC m.cpu &&& 1#_ = 0#_) (hhit : fetchMisses m = false) :
    fetch m = (m, ofBytes (memRead filled (ramOffset (readPC m.cpu)) 4)) := by
  obtain ⟨k, hk, hoff, hram, hne⟩ := offset_of_hit hsz hline hhit
  have hslice := line_slice m.cpu.icache.line filled.data (ramOffset m.cpu.icache.base) k hk
    (hline hne).2
  unfold fetchMisses at hhit
  simp only [fetch, heven, hhit, bne_self_eq_false, Bool.false_eq_true, if_false, hoff, hslice,
    hram, memRead_eq_readAt]

variable (hdev : MainDevices ramSize m.bus) (hsz : ramSize ≤ ramSizeMax)
  (heven : readPC m.cpu &&& 1#_ = 0#_) (hin : InRam ramSize (readPC m.cpu) 4)
  (hmiss : fetchMisses m = true)

include hdev hsz heven hmiss

/-- `_fetch` that fills the line. -/
theorem fetch_fill (hfit : InRam ramSize (readPC m.cpu) icacheLineSize) :
    fetch m = ({ m with cpu := { m.cpu with
        icache := ⟨readPC m.cpu,
          icacheLine (memRead m.ram (ramOffset (readPC m.cpu)) icacheLineSize)⟩ } },
      ofBytes (memRead m.ram (ramOffset (readPC m.cpu)) 4)) := by
  have hlen : m.cpu.icache.line.toList.length = icacheLineSize := Vector.length_toList
  have hread := busRead_inRam (m := m) hdev hsz (readPC m.cpu)
    m.cpu.icache.line.toList (by rw [hlen]; exact hfit)
  rw [hlen] at hread
  have htake := memRead_take m.ram (ramOffset (readPC m.cpu)) (show 4 ≤ icacheLineSize by decide)
  unfold fetchMisses at hmiss
  simp only [fetch, heven, hmiss, bne_self_eq_false, Bool.false_eq_true, if_false, if_true, hread,
    htake]

include hin

/-- `_fetch` near the end of RAM: the line does not fit and stays as it was. -/
theorem fetch_fallback (hfit : ¬ InRam ramSize (readPC m.cpu) icacheLineSize) :
    fetch m = (m, ofBytes (memRead m.ram (ramOffset (readPC m.cpu)) 4)) := by
  have hw := two_pow_32_le_alen c
  have hsz' := hsz
  unfold ramSizeMax at hsz'
  have hlen : m.cpu.icache.line.toList.length = icacheLineSize := Vector.length_toList
  have hlt : (readPC m.cpu).toNat + icacheLineSize < 2 ^ c.alen := by
    have h128 : icacheLineSize = 128 := rfl
    have := hin.2
    omega
  have hnone : findDevice m.bus (readPC m.cpu) icacheLineSize = none := by
    have h := mt (findDevice_from_ram hdev hsz hin.1 hlt).mp hfit
    simpa using h
  have hline : busRead m (readPC m.cpu) m.cpu.icache.line.toList = none := by
    simp only [busRead, hlen, hnone]
  have hword := busRead_inRam (m := m) hdev hsz (readPC m.cpu)
    (List.replicate 4 0#8) (by rw [List.length_replicate]; exact hin)
  rw [List.length_replicate] at hword
  unfold fetchMisses at hmiss
  simp only [fetch, heven, hmiss, bne_self_eq_false, Bool.false_eq_true, if_false, if_true, hline,
    hword]

omit hmiss heven hsz in
theorem fetchFills_iff (hsz : ramSize ≤ ramSizeMax) (hmiss : fetchMisses m = true) :
    fetchFills m = true ↔ InRam ramSize (readPC m.cpu) icacheLineSize := by
  have hw := two_pow_32_le_alen c
  have hsz' := hsz
  unfold ramSizeMax at hsz'
  have hlt : (readPC m.cpu).toNat + icacheLineSize < 2 ^ c.alen := by
    have h128 : icacheLineSize = 128 := rfl
    have := hin.2
    omega
  rw [fetchFills, hmiss, Bool.true_and]
  exact findDevice_from_ram hdev hsz hin.1 hlt

end Fetch

/-! ## The invariant -/

/-- The line is part of the copy, and a flush since the last fetch left it empty. -/
structure Coherent (ramSize : Nat) (s : Filled c) : Prop where
  devices : MainDevices ramSize s.machine.bus
  matching : LineMatches ramSize s.machine.cpu.icache s.filled
  flushed : s.flushed = true → s.machine.cpu.icache.base = cpuAddrMax

/-- `_fetch` keeps the line a part of the copy it leaves behind. -/
theorem fetch_matching {ramSize : Nat} {m : Machine c} {filled : Memory}
    (hdev : MainDevices ramSize m.bus) (hsz : ramSize ≤ ramSizeMax)
    (hline : LineMatches ramSize m.cpu.icache filled) (heven : readPC m.cpu &&& 1#_ = 0#_)
    (hin : InRam ramSize (readPC m.cpu) 4) :
    MainDevices ramSize (fetch m).1.bus ∧
      LineMatches ramSize (fetch m).1.cpu.icache (if fetchFills m then m.ram else filled) := by
  cases hmiss : fetchMisses m with
  | false =>
      have hfill : fetchFills m = false := by simp [fetchFills, hmiss]
      rw [fetch_hit hsz hline heven hmiss, hfill]
      exact ⟨hdev, hline⟩
  | true =>
      by_cases hfit : InRam ramSize (readPC m.cpu) icacheLineSize
      · have hfill := (fetchFills_iff hdev hin hsz hmiss).mpr hfit
        rw [fetch_fill hdev hsz heven hmiss hfit, hfill]
        refine ⟨hdev, fun _ => ⟨hfit, ?_⟩⟩
        intro i hi
        simp [icacheLine, memRead]
      · have hfill : fetchFills m = false := by
          simpa using mt (fetchFills_iff hdev hin hsz hmiss).mp hfit
        rw [fetch_fallback hdev hsz heven hin hmiss hfit, hfill]
        exact ⟨hdev, hline⟩

/-- `rv_run` from the state in which it fetches. -/
theorem rvRun_of_fetch {m m1 : Machine c} (h : fetchState m = some m1) :
    rvFetch m = (if (fetch m1).1.cpu.trap then ((fetch m1).1, none)
      else ((fetch m1).1, some (fetch m1).2)) := by
  unfold fetchState at h
  split at h
  · cases h
  · rename_i hstop
    obtain rfl := Option.some.inj h
    unfold rvFetch
    simp only [hstop, Bool.false_eq_true, if_false]

theorem rvRun_of_no_fetch {m : Machine c} (h : fetchState m = none) :
    rvRun m = (rvEnter m).1 := by
  unfold fetchState at h
  split at h
  · rename_i hstop
    exact rvRun_of_stop hstop
  · cases h

namespace Coherent

variable {ramSize : Nat} {s : Filled c}

/-- Steps that neither fetch nor flush. -/
theorem kept (h : Coherent ramSize s) {m' : Machine c} (hk : LineKept s.machine m') :
    Coherent ramSize { s with machine := m' } where
  devices := hk.devices.trans h.devices
  matching := h.matching.kept hk
  flushed := by
    intro hf
    rcases hk.line with he | he
    · rw [he]
      exact h.flushed hf
    · exact he

theorem enter {m m1 : Machine c} (h : fetchState m = some m1) : LineKept m m1 := by
  unfold fetchState at h
  split at h
  · cases h
  · obtain rfl := Option.some.inj h
    have hf := rvEnter_storeFrame m
    exact ⟨Or.inl hf.icache, by rw [hf.bus]⟩

/-- One call of `rv_run`. -/
theorem run (hsz : ramSize ≤ ramSizeMax) (h : Coherent ramSize s)
    (hin : FetchInRam ramSize s.machine) : Coherent ramSize (s.step (.event .run)) := by
  cases hfs : fetchState s.machine with
  | none =>
      have hf := rvEnter_storeFrame s.machine
      have hline : LineKept s.machine (rvRun s.machine) := by
        rw [rvRun_of_no_fetch hfs]
        exact ⟨Or.inl hf.icache, by rw [hf.bus]⟩
      simpa only [Filled.step, hfs] using h.kept hline
  | some m1 =>
      have hk := enter hfs
      unfold FetchInRam at hin
      rw [hfs] at hin
      obtain ⟨heven, hram⟩ := hin
      obtain ⟨hdev, hline⟩ := fetch_matching (hk.devices.trans h.devices) hsz
        (h.matching.kept hk) heven hram
      have hfetch := rvRun_of_fetch hfs
      simp only [Filled.step, hfs]
      by_cases htrap : (fetch m1).1.cpu.trap = true
      · -- the fetch trapped: no instruction, and the next fetch is a second one
        rw [if_pos htrap] at hfetch
        have hrun : rvRun s.machine = (fetch m1).1 := by simp only [rvRun, hfetch]
        have hfence : runsFence s.machine = false := by
          simp only [runsFence, hfetch, Option.any_none]
        rw [hrun, hfence]
        exact ⟨hdev, hline, fun hf => by cases hf⟩
      · rw [if_neg htrap] at hfetch
        have hrun : rvRun s.machine = rvExec (fetch m1).1 (fetch m1).2 := by
          simp only [rvRun, hfetch]
        have hkeep := rvExec_lineKept (fetch m1).1 (fetch m1).2
        rw [hrun]
        refine ⟨hkeep.devices.trans hdev, hline.kept hkeep, ?_⟩
        intro hf
        simp only [runsFence, hfetch, Option.any_some] at hf
        exact rvExec_fence _ hf

theorem step (hsz : ramSize ≤ ramSizeMax) (h : Coherent ramSize s) {e : ResetEvent c}
    (hin : StepInRam ramSize s e) : Coherent ramSize (s.step e) := by
  cases e with
  | reset mode start =>
      have hk := rvReset_lineKept s.machine mode start
      exact ⟨hk.devices.trans h.devices, h.matching.kept hk,
        fun _ => rvReset_base s.machine mode start⟩
  | event e =>
      have hdev : e ≠ .run → LineKept s.machine (stepEvent s.machine e) := fun he =>
        .of_irqFrame (deviceEvent_frame s.machine he).1
          (congrArg Bus.devices (deviceEvent_frame s.machine he).2)
      cases e with
      | run => exact h.run hsz hin
      | tick cycles => exact h.kept (hdev nofun)
      | push ch => exact h.kept (hdev nofun)
      | plicIrq n => exact h.kept (hdev nofun)

end Coherent

/-! ## Transparency -/

/-- What `_fetch` returns in state `m`. -/
structure FetchTransparent (s : Filled c) (m : Machine c) : Prop where
  /-- Each byte is the one of the copy when the line serves the fetch, and that of RAM otherwise. -/
  value : (fetch m).2 =
    ofBytes (memRead (if fetchMisses m then m.ram else s.filled) (ramOffset (readPC m.cpu)) 4)
  noTrap : (fetch m).1.cpu.trap = m.cpu.trap
  /-- The four bytes hold what they held when the line was filled, or a flush came since the last
  fetch: the fetch is a plain read of the bus. -/
  uncached : s.flushed = true ∨ (∀ i, i < 4 →
      m.ram.data (ramOffset (readPC m.cpu) + i) = s.filled.data (ramOffset (readPC m.cpu) + i)) →
    ∃ bs, busRead m (readPC m.cpu) (List.replicate 4 0#8) = some (m, bs) ∧ (fetch m).2 = ofBytes bs

theorem Coherent.transparent {ramSize : Nat} (hsz : ramSize ≤ ramSizeMax) {s : Filled c}
    (h : Coherent ramSize s) {m : Machine c} (hfs : fetchState s.machine = some m)
    (heven : readPC m.cpu &&& 1#_ = 0#_) (hin : InRam ramSize (readPC m.cpu) 4) :
    FetchTransparent s m := by
  have hk := Coherent.enter hfs
  have hdev : MainDevices ramSize m.bus := hk.devices.trans h.devices
  have hline := h.matching.kept hk
  -- the value and the trap flag, by how the fetch was served
  have hfetch : (fetch m).2 = ofBytes (memRead (if fetchMisses m then m.ram else s.filled)
      (ramOffset (readPC m.cpu)) 4) ∧ (fetch m).1.cpu.trap = m.cpu.trap := by
    cases hmiss : fetchMisses m with
    | false =>
        rw [fetch_hit hsz hline heven hmiss]
        exact ⟨rfl, rfl⟩
    | true =>
        by_cases hfit : InRam ramSize (readPC m.cpu) icacheLineSize
        · rw [fetch_fill hdev hsz heven hmiss hfit]
          exact ⟨rfl, rfl⟩
        · rw [fetch_fallback hdev hsz heven hin hmiss hfit]
          exact ⟨rfl, rfl⟩
  refine ⟨hfetch.1, hfetch.2, ?_⟩
  intro hsame
  have hread := busRead_inRam (m := m) hdev hsz (readPC m.cpu)
    (List.replicate 4 0#8) (by rw [List.length_replicate]; exact hin)
  rw [List.length_replicate] at hread
  refine ⟨_, hread, ?_⟩
  rw [hfetch.1]
  rcases hsame with hfl | hsame
  · have hbase : m.cpu.icache.base = cpuAddrMax := by
      rcases hk.line with he | he
      · rw [he]
        exact h.flushed hfl
      · exact he
    simp [fetchMisses, hbase]
  · cases fetchMisses m with
    | true => rfl
    | false =>
        have hcongr : memRead s.filled (ramOffset (readPC m.cpu)) 4
            = memRead m.ram (ramOffset (readPC m.cpu)) 4 :=
          Bytes.readAt_congr fun i hi => (hsame i hi).symm
        simp only [Bool.false_eq_true, if_false, hcongr]

/-- A 64-bit machine of 1 MB whose RAM starts with FENCE.I. -/
def fenceMachine : Machine .rv64 :=
  vmInit (mainBus .rv64 0x100000)
    ⟨fun i => if i = 0 then 0x0F#8 else if i = 1 then 0x10#8 else 0#8⟩ false

end RV640
