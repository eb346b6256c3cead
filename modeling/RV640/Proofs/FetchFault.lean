import RV640.Proofs.ArchState
import RV640.Proofs.FaultCause
import RV640.Proofs.Icache

set_option autoImplicit false

/-! # Fetch faults

`_fetch` asks the bus for a whole line, and where that does not fit for four bytes, before it knows
how long the instruction is. So a 16-bit instruction in the last halfword of a device cannot be
fetched. The line that a fetch fills was taken by the bus, as a range; an instruction that the line
serves is in the device, unless that range ran over the end of the address space. A run that makes
the PLIC leave its arrays (`oob`) is one of the model only: nothing is claimed of it.
-/

namespace RV640

open Bits

variable {c : Cfg} {δ : Type}

/-! ## The instruction at an address -/

/-- The device that contains the range. -/
def Bus.deviceAt (bus : Bus c δ) (addr : Addr c) (size : Nat) : Option (BusDevice c δ) :=
  bus.devices.find? fun d => decide (d.Contains addr size)

/-- The first two bytes at an address, read from the device that contains them. -/
def firstHalfword (m : Machine c) (pc : Addr c) : Option (BitVec 16) :=
  (m.bus.deviceAt pc 2).map fun d =>
    ofBytes (devRead m d.dev.callbacks (pc - d.base).toNat (List.replicate 2 0#8)).2

/-- The bytes of the instruction at an address, as many as its first halfword says, lie in one
device. -/
def InstrThere (m : Machine c) (pc : Addr c) : Prop :=
  match firstHalfword m pc with
  | some h => m.bus.Inside pc (if h.extractLsb' 0 2 = 3#2 then 4 else 2)
  | none => False

instance (m : Machine c) (pc : Addr c) : Decidable (InstrThere m pc) := by
  unfold InstrThere
  split <;> infer_instance

theorem BusDevice.Contains.mono {d : BusDevice c δ} {addr : Addr c} {k n : Nat}
    (h : d.Contains addr n) (hk : k ≤ n) : d.Contains addr k := by
  obtain ⟨hlo, hhi⟩ := h
  exact ⟨hlo, by omega⟩

theorem Bus.Inside.mono {bus : Bus c δ} {addr : Addr c} {k n : Nat} (h : bus.Inside addr n)
    (hk : k ≤ n) : bus.Inside addr k := by
  obtain ⟨d, hd, hc⟩ := h
  exact ⟨d, hd, hc.mono hk⟩

/-- Four bytes hold an instruction of either size. -/
theorem instrThere_of_four {m : Machine c} {pc : Addr c} (h : m.bus.Inside pc 4) :
    InstrThere m pc := by
  have hsome : (m.bus.deviceAt pc 2).isSome = true := by
    obtain ⟨d, hd, hc⟩ := h.mono (by decide : 2 ≤ 4)
    rw [Bus.deviceAt, List.find?_isSome]
    exact ⟨d, hd, decide_eq_true hc⟩
  obtain ⟨d, hd⟩ := Option.isSome_iff_exists.mp hsome
  unfold InstrThere firstHalfword
  rw [hd]
  show m.bus.Inside pc (if _ then 4 else 2)
  split
  · exact h
  · exact h.mono (by decide)

/-! ## What the bus takes -/

/-- A device accepts the range. -/
def Bus.Takes (bus : Bus c δ) (addr : Addr c) (size : Nat) : Prop :=
  ∃ d ∈ bus.devices, d.Accepts addr size

instance (bus : Bus c δ) (addr : Addr c) (size : Nat) : Decidable (bus.Takes addr size) := by
  unfold Bus.Takes
  infer_instance

/-- A range that is taken without lying in a device and in the address space. -/
def Bus.Stray (bus : Bus c δ) (addr : Addr c) (size : Nat) : Prop :=
  bus.Takes addr size ∧ ¬ (bus.Inside addr size ∧ addr.toNat + size ≤ 2 ^ c.alen)

/-- A range that lies in a device without being taken. -/
def Bus.Shut (bus : Bus c δ) (addr : Addr c) (size : Nat) : Prop :=
  bus.Inside addr size ∧ ¬ bus.Takes addr size

instance (bus : Bus c δ) (addr : Addr c) (size : Nat) : Decidable (bus.Stray addr size) := by
  unfold Bus.Stray
  infer_instance

instance (bus : Bus c δ) (addr : Addr c) (size : Nat) : Decidable (bus.Shut addr size) := by
  unfold Bus.Shut
  infer_instance

theorem findDevice_none_iff {bus : Bus c δ} {addr : Addr c} {size : Nat} :
    findDevice bus addr size = none ↔ ¬ bus.Takes addr size := by
  rw [findDevice_eq_none_iff, Bus.Takes]
  push Not
  exact Iff.rfl

/-- Without a wrap the bus takes what lies in a device. -/
theorem takes_iff_inside {bus : Bus c δ} (hfit : bus.Fits) {addr : Addr c} {size : Nat}
    (h : addr.toNat + size < 2 ^ c.alen) : bus.Takes addr size ↔ bus.Inside addr size := by
  refine exists_congr fun d => and_congr_right fun hd => ?_
  rw [← includes_iff_accepts, includes_iff_contains d (hfit d hd) addr size h]

theorem busRead_none_iff {m : Machine c} {addr : Addr c} {buf : List Byte} :
    busRead m addr buf = none ↔ ¬ m.bus.Takes addr buf.length := by
  rw [← findDevice_none_iff]
  unfold busRead
  cases findDevice m.bus addr buf.length <;> simp

theorem busRead_takes {m m1 : Machine c} {addr : Addr c} {buf bs : List Byte}
    (h : busRead m addr buf = some (m1, bs)) : m.bus.Takes addr buf.length := by
  by_contra hn
  rw [busRead_none_iff.mpr hn] at h
  cases h

/-! ## The line -/

/-- The range of a line that is not empty was taken by the bus. -/
def LineTaken (m : Machine c) : Prop :=
  m.cpu.icache.base ≠ cpuAddrMax → m.bus.Takes m.cpu.icache.base icacheLineSize

theorem Bus.Takes.congr {bus bus' : Bus c δ} {addr : Addr c} {size : Nat}
    (h : bus.Takes addr size) (hd : bus'.devices = bus.devices) : bus'.Takes addr size := by
  rw [Bus.Takes, hd]
  exact h

theorem LineTaken.kept {m m' : Machine c} (h : LineTaken m) (hk : LineKept m m') :
    LineTaken m' := by
  rcases hk.line with he | he
  · intro hne
    rw [he] at hne ⊢
    exact (h hne).congr hk.devices
  · exact fun hne => absurd he hne

theorem fetch_lineTaken {m : Machine c} (h : LineTaken m) : LineTaken (fetch m).1 := by
  have hread : ∀ {m1 : Machine c} {addr : Addr c} {buf bs : List Byte},
      busRead m addr buf = some (m1, bs) → LineKept m m1 := fun hr =>
    .of_irqFrame (busRead_frame hr).cpu (by rw [(busRead_frame hr).bus])
  have hf := fetch_fetches m
  generalize fetch m = r at hf ⊢
  cases hf with
  | misaligned _ => exact h
  | hit _ _ => exact h
  | fill _ _ hline =>
      have htaken := busRead_takes hline
      rw [Vector.length_toList] at htaken
      exact fun _ => htaken.congr (hread hline).devices
  | word _ _ _ hword => exact h.kept (hread hword)
  | fault _ _ _ _ => exact h

/-- What happens to the machine, resets included. -/
def stepReset (m : Machine c) : ResetEvent c → Machine c
  | .event e => stepEvent m e
  | .reset mode start => rvReset m mode start

theorem rvEnter_lineKept (m : Machine c) : LineKept m (rvEnter m).1 := by
  have hf := rvEnter_storeFrame m
  exact ⟨Or.inl hf.icache, by rw [hf.bus]⟩

theorem rvRun_lineTaken {m : Machine c} (h : LineTaken m) : LineTaken (rvRun m) := by
  have hfetch : LineTaken (rvFetch m).1 :=
    rvFetch_keeps (h.kept (rvEnter_lineKept m)) fun _ h1 => fetch_lineTaken h1
  exact rvRun_keeps hfetch fun m1 w h1 => h1.kept (rvExec_lineKept m1 w)

theorem stepReset_lineTaken (m : Machine c) (e : ResetEvent c) (h : LineTaken m) :
    LineTaken (stepReset m e) := by
  cases e with
  | reset mode start => exact h.kept (rvReset_lineKept m mode start)
  | event e =>
      refine stepEvent_keeps e (rvRun_lineTaken h) fun m1 hcpu hbus => ?_
      exact h.kept (.of_irqFrame hcpu (congrArg Bus.devices hbus))

/-! ## When a fetch faults -/

/-- `_fetch` reports an access fault when the line does not serve the address and the bus takes
neither a line nor four bytes there. -/
theorem fetch_raises_iff {m : Machine c} (ht : m.cpu.trap = false)
    (heven : readPC m.cpu &&& 1#_ = 0#_) :
    Raises (fetch m).1.cpu .instAf ↔
      fetchMisses m = true ∧ ¬ m.bus.Takes (readPC m.cpu) icacheLineSize
        ∧ ¬ m.bus.Takes (readPC m.cpu) 4 := by
  have hlen : m.cpu.icache.line.toList.length = icacheLineSize := Vector.length_toList
  have hline : busRead m (readPC m.cpu) m.cpu.icache.line.toList = none ↔
      ¬ m.bus.Takes (readPC m.cpu) icacheLineSize := by
    rw [busRead_none_iff, hlen]
  have hword : busRead m (readPC m.cpu) (List.replicate 4 0#8) = none ↔
      ¬ m.bus.Takes (readPC m.cpu) 4 := by
    rw [busRead_none_iff, List.length_replicate]
  have hclear : ∀ {m' : Machine c} {addr : Addr c} {buf bs : List Byte},
      busRead m addr buf = some (m', bs) → m'.cpu.trap = false := fun hr => by
    rw [(busRead_frame hr).cpu.trap, ht]
  rw [← hline, ← hword]
  have hf := fetch_fetches m
  generalize fetch m = r at hf ⊢
  cases hf with
  | misaligned hodd => exact absurd heven hodd
  | hit _ hhit =>
      refine iff_of_false (not_raises ht .instAf) ?_
      rintro ⟨hm, -⟩
      rw [hhit] at hm
      cases hm
  | fill _ _ hl =>
      refine iff_of_false (not_raises (hclear hl) .instAf) ?_
      rintro ⟨-, hn, -⟩
      rw [hl] at hn
      cases hn
  | word _ _ _ hw =>
      refine iff_of_false (not_raises (hclear hw) .instAf) ?_
      rintro ⟨-, -, hn⟩
      rw [hw] at hn
      cases hn
  | fault _ hm hl hw => exact iff_of_true ⟨rfl, rfl⟩ ⟨hm, hl, hw⟩

/-- The range that serves the fetch is stray: the line that is hit, or what the bus takes at the
address. -/
def FetchStray (m : Machine c) : Prop :=
  if fetchMisses m then m.bus.Stray (readPC m.cpu) icacheLineSize ∨ m.bus.Stray (readPC m.cpu) 4
  else m.bus.Stray m.cpu.icache.base icacheLineSize

/-- The four bytes at the address lie in a device, and are refused with the line that starts there:
the end of the device or of the range wraps around. -/
def FetchShut (m : Machine c) : Prop :=
  fetchMisses m = true ∧ m.bus.Shut (readPC m.cpu) 4 ∧ ¬ m.bus.Takes (readPC m.cpu) icacheLineSize

instance (m : Machine c) : Decidable (FetchStray m) := by
  unfold FetchStray
  infer_instance

instance (m : Machine c) : Decidable (FetchShut m) := by
  unfold FetchShut
  infer_instance

/-- When a fetch is right about the instruction: a stray range may serve only an instruction that is
there, a shut range is never right, and otherwise four bytes must be where the instruction is. -/
def FetchRight (m : Machine c) : Prop :=
  if FetchStray m then InstrThere m (readPC m.cpu)
  else ¬ FetchShut m ∧ (InstrThere m (readPC m.cpu) → m.bus.Inside (readPC m.cpu) 4)

/-- A range that is taken, and is not stray, lies in a device. -/
theorem Bus.Takes.inside {bus : Bus c δ} {addr : Addr c} {size : Nat} (h : bus.Takes addr size)
    (hs : ¬ bus.Stray addr size) : bus.Inside addr size ∧ addr.toNat + size ≤ 2 ^ c.alen := by
  by_contra hn
  exact hs ⟨h, hn⟩

/-- The four bytes that a line serves lie in the device of the line. -/
theorem inside_of_hit {m : Machine c} (hhit : fetchMisses m = false)
    (hend : m.cpu.icache.base.toNat + icacheLineSize ≤ 2 ^ c.alen)
    (hin : m.bus.Inside m.cpu.icache.base icacheLineSize) : m.bus.Inside (readPC m.cpu) 4 := by
  obtain ⟨k, hk, -, hpc⟩ := hit_in_line hhit hend
  obtain ⟨d, hd, hlo, hhi⟩ := hin
  exact ⟨d, hd, by omega, by omega⟩

/-- A fetch that is served, and by no stray range, has its four bytes in a device. -/
theorem inside_of_served {m : Machine c} (hline : LineTaken m) (hs : ¬ FetchStray m)
    (hserved : ¬ (fetchMisses m = true ∧ ¬ m.bus.Takes (readPC m.cpu) icacheLineSize
      ∧ ¬ m.bus.Takes (readPC m.cpu) 4)) : m.bus.Inside (readPC m.cpu) 4 := by
  unfold FetchStray at hs
  cases hmiss : fetchMisses m with
  | false =>
      rw [hmiss, if_neg (by decide)] at hs
      obtain ⟨hin, hend⟩ := (hline (base_of_hit hmiss)).inside hs
      exact inside_of_hit hmiss hend hin
  | true =>
      rw [hmiss, if_pos rfl, not_or] at hs
      by_contra hout
      refine hserved ⟨hmiss, fun h => hout ?_, fun h => hout ?_⟩
      · exact (h.inside hs.1).1.mono (by decide)
      · exact (h.inside hs.2).1

/-- `_fetch` faults exactly where the instruction is missing, when it is right. -/
theorem fetch_exact_iff {m : Machine c} (ht : m.cpu.trap = false)
    (heven : readPC m.cpu &&& 1#_ = 0#_) (hline : LineTaken m) :
    (Raises (fetch m).1.cpu .instAf ↔ ¬ InstrThere m (readPC m.cpu)) ↔ FetchRight m := by
  rw [fetch_raises_iff ht heven, FetchRight]
  by_cases hs : FetchStray m
  · -- a stray range is taken, so the fetch does not fault
    have hno : ¬ (fetchMisses m = true ∧ ¬ m.bus.Takes (readPC m.cpu) icacheLineSize
        ∧ ¬ m.bus.Takes (readPC m.cpu) 4) := by
      rintro ⟨hmiss, hn, hn'⟩
      rw [FetchStray, hmiss, if_pos rfl] at hs
      rcases hs with hs | hs
      · exact hn hs.1
      · exact hn' hs.1
    rw [if_pos hs, iff_false_left hno, not_not]
  · have hin := inside_of_served hline hs
    rw [if_neg hs]
    constructor
    · intro h
      refine ⟨?_, fun hthere => hin fun hf => h.mp hf hthere⟩
      rintro ⟨hmiss, ⟨hfour, hn'⟩, hn⟩
      exact h.mp ⟨hmiss, hn, hn'⟩ (instrThere_of_four hfour)
    · rintro ⟨hshut, hfour⟩
      constructor
      · rintro ⟨hmiss, hn, hn'⟩ hthere
        exact hshut ⟨hmiss, ⟨hfour hthere, hn'⟩, hn⟩
      · intro hout
        by_contra hf
        exact hout (instrThere_of_four (hin hf))

/-- Where no range wraps around, only an instruction at the end of its device is cut off. -/
theorem fetch_exact_fits {m : Machine c} (hfit : m.bus.Fits)
    (hpc : (readPC m.cpu).toNat + icacheLineSize < 2 ^ c.alen)
    (hbase : fetchMisses m = false →
      m.cpu.icache.base.toNat + icacheLineSize < 2 ^ c.alen) :
    FetchRight m ↔ (InstrThere m (readPC m.cpu) → m.bus.Inside (readPC m.cpu) 4) := by
  have h128 : icacheLineSize = 128 := rfl
  have hlineIff := takes_iff_inside hfit hpc
  have hwordIff : m.bus.Takes (readPC m.cpu) 4 ↔ m.bus.Inside (readPC m.cpu) 4 :=
    takes_iff_inside hfit (by omega)
  have hstray : ¬ FetchStray m := by
    intro hs
    unfold FetchStray at hs
    cases hmiss : fetchMisses m with
    | false =>
        have hlt := hbase hmiss
        rw [hmiss, if_neg (by decide)] at hs
        exact hs.2 ⟨(takes_iff_inside hfit hlt).mp hs.1, hlt.le⟩
    | true =>
        rw [hmiss, if_pos rfl] at hs
        rcases hs with hs | hs
        · exact hs.2 ⟨hlineIff.mp hs.1, hpc.le⟩
        · exact hs.2 ⟨hwordIff.mp hs.1, by omega⟩
  have hshut : ¬ FetchShut m := fun h => h.2.1.2 (hwordIff.mpr h.2.1.1)
  rw [FetchRight, if_neg hstray]
  exact and_iff_right hshut

/-- **Fetch faults.** In every run from an empty line, resets included, a fetch at an even address
raises an instruction access fault exactly when the instruction is not there, if and only if it is
right about the ranges that wrap around and, with none of those, four bytes are where the
instruction is. -/
theorem fetch_fault_iff (start : Machine c) (hempty : start.cpu.icache.base = cpuAddrMax)
    (es : List (ResetEvent c)) :
    let m := Run.run stepReset start es
    ∀ m1, fetchState m = some m1 → readPC m1.cpu &&& 1#_ = 0#_ →
      ((Raises (rvFetch m).1.cpu .instAf ↔ ¬ InstrThere m1 (readPC m1.cpu)) ↔
        FetchRight m1) ∧
      (m1.bus.Fits → (readPC m1.cpu).toNat + icacheLineSize < 2 ^ c.alen →
        (fetchMisses m1 = false → m1.cpu.icache.base.toNat + icacheLineSize < 2 ^ c.alen) →
        (FetchRight m1 ↔
          (InstrThere m1 (readPC m1.cpu) → m1.bus.Inside (readPC m1.cpu) 4))) := by
  intro m m1 hfs heven
  -- the invariant of the run
  have hline : LineTaken m :=
    Run.invariant_all stepReset_lineTaken es start fun hne => absurd hempty hne
  have hfetch : (rvFetch m).1 = (fetch m1).1 := by
    rw [rvRun_of_fetch hfs]
    split <;> rfl
  unfold fetchState at hfs
  split at hfs
  · cases hfs
  · rename_i hstop
    obtain rfl := Option.some.inj hfs
    have ht := rvEnter_trap (Bool.eq_false_iff.mpr hstop)
    have hline1 := hline.kept (rvEnter_lineKept m)
    rw [hfetch]
    exact ⟨fetch_exact_iff ht heven hline1, fetch_exact_fits⟩

/-- A 64-bit machine with 1 MB of RAM, whose last halfword is a `C.NOP`. -/
def nopAtEnd : Machine .rv64 :=
  rvReset (vmInit (mainBus .rv64 0x100000) ⟨fun i => if i = 0xFFFFE then 1#8 else 0#8⟩ false)
    .machine 0x800FFFFE#64

/-- The first fetch of that machine. -/
theorem fetch_fault_iff_nop :
    ((Raises (rvFetch nopAtEnd).1.cpu .instAf ↔ ¬ InstrThere nopAtEnd (readPC nopAtEnd.cpu)) ↔
        FetchRight nopAtEnd) ∧
      (FetchRight nopAtEnd ↔
        (InstrThere nopAtEnd (readPC nopAtEnd.cpu) →
          nopAtEnd.bus.Inside (readPC nopAtEnd.cpu) 4)) := by
  have hempty : nopAtEnd.cpu.icache.base = cpuAddrMax := rvReset_base _ .machine 0x800FFFFE#64
  have hmiss : fetchMisses nopAtEnd = true := by
    simp only [fetchMisses, hempty, decide_true, Bool.true_or]
  obtain ⟨hiff, hfits⟩ := fetch_fault_iff nopAtEnd hempty [] nopAtEnd rfl (by decide +kernel)
  rw [Run.run_nil] at hiff
  have hfit : nopAtEnd.bus.Fits := by decide +kernel
  have hpc : (readPC nopAtEnd.cpu).toNat + icacheLineSize < 2 ^ Cfg.rv64.alen := by decide +kernel
  refine ⟨hiff, hfits hfit hpc ?_⟩
  intro hhit
  rw [hmiss] at hhit
  cases hhit

/-- The `C.NOP` in the last halfword of RAM is there, but its fetch faults. -/
theorem last_halfword_faults :
    let m := Run.run stepReset nopAtEnd []
    fetchState m = some m ∧ readPC m.cpu = 0x800FFFFE#64 ∧ InstrThere m (readPC m.cpu) ∧
      Raises (rvFetch m).1.cpu .instAf := by
  refine ⟨rfl, by decide +kernel, by decide +kernel, ?_⟩
  unfold Raises
  decide +kernel

end RV640
