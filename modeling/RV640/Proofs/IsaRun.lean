import RV640.Proofs.Boot
import RV640.Proofs.IsaExec
import RV640.Proofs.SbiCalls

set_option autoImplicit false

/-! # The emulator runs the architecture

With interrupts masked, `rv_run` takes the step of the architectural hart that the machine shows,
from a line that may be older than memory, and nothing the devices do between two instructions is
seen by the hart. Runs of the main loop follow by induction.
-/

namespace RV640

open Bits Riscv

variable {c : Cfg} {ramSize : Nat} {m : Machine c} {s s' : Hart c.xlen c.alen}

/-! ## Interrupts -/

theorem processPendingInterrupts_masked {hart : Cpu c} (h : IrqsMasked hart) :
    processPendingInterrupts hart = hart := by
  rcases h with hmie | ⟨hmode, hclear⟩
  · -- no interrupt is both pending and enabled
    have hm : processPendingMInterrupts hart = hart := by
      simp [processPendingMInterrupts, hmie]
    have hs : processPendingSInterrupts hart = hart := by
      simp [processPendingSInterrupts, hmie]
    unfold processPendingInterrupts
    split
    · rfl
    · simp only [hm, hs, ite_self]
  · unfold processPendingInterrupts
    rw [if_pos (by simp [hmode, hclear])]

theorem Shows.rvEnter (h : Shows ramSize m s) : rvEnter m = (m, false) := by
  unfold RV640.rvEnter
  rw [if_neg (by simp [h.running])]
  split
  · simp only [processPendingInterrupts_masked h.masked, h.running]
  · rfl

/-! ## The fetch -/

/-- A copy of RAM that is older than memory only in stale bytes. -/
def CopyFresh (ramSize : Nat) (copy : Memory) (s : Hart c.xlen c.alen) : Prop :=
  ∀ i, RamAddr ramSize i → s.stale i = false → copy.data (i - 0x80000000) = s.mem i

/-- `_fetch` moves the line at most, and returns the bytes of a copy that is fresh. -/
theorem Shows.fetch (hsz : ramSize ≤ ramSizeMax) (h : Shows ramSize m s)
    (heven : readPC m.cpu &&& 1#_ = 0#_) (hin : InRam ramSize s.pc 4) :
    ∃ m1 copy, fetch m = (m1, ofBytes (memRead copy (ramOffset s.pc) 4)) ∧
      Leads ramSize m m1 s ∧ CopyFresh ramSize copy s := by
  obtain ⟨filled, hline, hfresh⟩ := h.line
  have hram : CopyFresh ramSize m.ram s := fun i hi _ => h.mem i hi
  have hself : Leads ramSize m m s := ⟨h, rfl, rfl, rfl, rfl, rfl⟩
  have hpc : readPC m.cpu = s.pc := h.pc
  rw [← hpc] at hin ⊢
  cases hmiss : fetchMisses m with
  | false => exact ⟨m, filled, fetch_hit hsz hline heven hmiss, hself, hfresh⟩
  | true =>
      by_cases hfit : InRam ramSize (readPC m.cpu) icacheLineSize
      · -- the new line is a part of RAM as it is now
        have hmatch := (fetch_matching h.devices hsz hline heven hin).2
        have hfill := fetch_fill h.devices hsz heven hmiss hfit
        rw [(fetchFills_iff h.devices hin hsz hmiss).mpr hfit, hfill] at hmatch
        exact ⟨_, m.ram, hfill,
          ⟨⟨h.devices, h.running, h.masked, h.pc, h.regs, h.mem, m.ram, hmatch, hram⟩,
            rfl, rfl, rfl, rfl, rfl⟩, hram⟩
      · exact ⟨m, m.ram, fetch_fallback h.devices hsz heven hin hmiss hfit, hself, hram⟩

/-- Fresh bytes at the PC are those that the fetch returns. -/
theorem CopyFresh.read {copy : Memory} (h : CopyFresh ramSize copy s) {n : Nat}
    (hfresh : s.Fresh (platform c ramSize) n) :
    memRead copy (ramOffset s.pc) n = Bytes.readAt s.mem s.pc.toNat n := by
  obtain ⟨⟨hlo, hhi⟩, hstale⟩ := hfresh
  have hlo : 0x80000000 ≤ s.pc.toNat := hlo
  have hhi : s.pc.toNat + n ≤ 0x80000000 + ramSize := hhi
  rw [memRead_eq_readAt]
  refine Bytes.readAt_congr fun k hk => ?_
  have hoff : ramOffset s.pc + k = s.pc.toNat + k - 0x80000000 := by
    unfold ramOffset
    omega
  rw [hoff]
  exact h (s.pc.toNat + k) ⟨by omega, by omega⟩ (hstale k hk)

/-- The fetched word holds the instruction at the PC. -/
theorem inWord_of_atPC {copy : Memory} (h : CopyFresh ramSize copy s) {i : Instr} {size : Nat}
    (hat : s.AtPC (platform c ramSize) i size) :
    InWord c.isRv64 (ofBytes (memRead copy (ramOffset s.pc) 4)) i size := by
  obtain ⟨hfresh, ⟨rfl, hw⟩ | ⟨rfl, b, hi, hb⟩⟩ := hat
  · refine Or.inl ⟨rfl, ?_⟩
    rw [h.read hfresh, hw]
  · refine Or.inr ⟨rfl, b, hi, ?_⟩
    -- the second half of the word may be stale, or not an instruction at all
    have hsplit : memRead copy (ramOffset s.pc) 4
        = memRead copy (ramOffset s.pc) 2 ++ memRead copy (ramOffset s.pc + 2) 2 :=
      Bytes.readAt_add copy.data (ramOffset s.pc) 2 2
    have hlow : (ofBytes (memRead copy (ramOffset s.pc) 4) : BitVec 32).setWidth 16
        = ofBytes (memRead copy (ramOffset s.pc) 2) := by
      rw [hsplit, setWidth_ofBytes_append (by simp [memRead]) (by decide)]
    rw [hlow, h.read hfresh]
    exact hb

/-! ## Steps -/

/-- The emulator is right about the step: the four bytes it fetches are all in RAM, and the
instruction is not an SLLW with bit 5 of the shift operand set. -/
structure Regular (ramSize : Nat) (s : Hart c.xlen c.alen) (i : Instr) : Prop where
  fetch : InRam ramSize s.pc 4
  sllw : ∀ rd rs1 rs2, i = .base (.op32 0#7 1#3 rd rs1 rs2) → (s.regs.val rs2).getLsbD 5 = false

/-- Every other instruction whose bytes are in RAM. -/
theorem Regular.base {b : Base} (hin : InRam ramSize s.pc 4)
    (hne : ∀ rd rs1 rs2, b ≠ .op32 0#7 1#3 rd rs1 rs2) :
    ∀ j, some (Instr.base b) = some j → Regular ramSize s j := by
  rintro j ⟨⟩
  exact ⟨hin, fun rd rs1 rs2 hi => absurd (Instr.base.inj hi) (hne rd rs1 rs2)⟩

/-- The machine shows the state of the hart, and its own is well formed. -/
structure Follows (ramSize : Nat) (m : Machine c) (s : Hart c.xlen c.alen) : Prop
    extends Shows ramSize m s where
  wf : WellFormed m.cpu

/-- One instruction. -/
theorem Follows.rvRun (hsz : ramSize ≤ ramSizeMax) (h : Follows ramSize m s) {i : Instr}
    (hstep : s.Step (platform c ramSize) i s') (hreg : Regular ramSize s i) :
    Follows ramSize (rvRun m) s' := by
  obtain ⟨size, hat, hexec⟩ := hstep
  have heven : readPC m.cpu &&& 1#_ = 0#_ := h.wf.pc.and_one
  obtain ⟨m1, copy, hfetch, hm1, hcopy⟩ := h.toShows.fetch hsz heven hreg.fetch
  have hrun : RV640.rvRun m = rvExec m1 (ofBytes (memRead copy (ramOffset s.pc) 4)) := by
    unfold RV640.rvRun rvFetch
    simp only [h.toShows.rvEnter, hfetch, hm1.running, Bool.false_eq_true, if_false]
  refine ⟨?_, rvRun_wellFormed h.wf⟩
  rw [hrun]
  exact (hm1.toShows.exec hsz (inWord_of_atPC hcopy hat) hexec hreg.sllw).toShows

/-- What the devices do raises interrupts, and is not seen. -/
theorem Follows.event (h : Follows ramSize m s) {e : Event} (he : e ≠ .run) :
    Follows ramSize (stepEvent m e) s := by
  obtain ⟨hcpu, hbus⟩ := deviceEvent_frame m he
  have hrest := hcpu.rest
  have hram : (stepEvent m e).ram = m.ram := by
    cases e with
    | run => exact absurd rfl he
    | tick cycles => rfl
    | push ch => exact ns16550Push_ram m ch
    | plicIrq n => rfl
  constructor
  · constructor
    · rw [hbus]
      exact h.devices
    · rw [hrest]
      exact h.running
    · refine h.masked.congr ?_ ?_ ?_ <;> rw [hrest]
    · rw [hrest]
      exact h.pc
    · rw [hrest]
      exact h.regs
    · intro i hi
      rw [ramByte, hram]
      exact h.mem i hi
    · rw [hrest]
      exact h.line
  · exact stepEvent_wellFormed m e h.wf

/-! ## Runs -/

/-- A run of the main loop in which the hart is run as often as the architectural one steps. -/
theorem Follows.run (hsz : ramSize ≤ ramSizeMax) (h : Follows ramSize m s) (es : List Event)
    (hsteps : Steps (platform c ramSize) (Regular ramSize) (es.count .run) s s') :
    Follows ramSize (Run.run stepEvent m es) s' := by
  induction es generalizing m s with
  | nil =>
      cases hsteps with
      | zero s => exact h
  | cons e es ih =>
      rw [Run.run_cons]
      by_cases he : e = .run
      · subst he
        rw [List.count_cons_self] at hsteps
        cases hsteps with
        | succ step cond rest => exact ih (h.rvRun hsz step cond) rest
      · rw [List.count_cons_of_ne he] at hsteps
        exact ih (h.event he) hsteps

/-- **The emulator runs the architecture.** As long as an architectural hart runs, and the emulator
is right about its steps, a machine that follows it does so after every run of the main loop,
whatever the timer, the console and the interrupt lines do between two instructions. -/
theorem isa_refinement (hsz : ramSize ≤ ramSizeMax) (h : Follows ramSize m s) {k : Nat}
    (hsteps : Steps (platform c ramSize) (Regular ramSize) k s s') (es : List Event)
    (hk : es.count .run ≤ k) :
    ∃ s1, Steps (platform c ramSize) (Regular ramSize) (es.count .run) s s1 ∧
      Steps (platform c ramSize) (Regular ramSize) (k - es.count .run) s1 s' ∧
      Follows ramSize (Run.run stepEvent m es) s1 := by
  obtain ⟨s1, hfirst, hrest⟩ := hsteps.split hk
  exact ⟨s1, hfirst, hrest, h.run hsz es hfirst⟩

/-! ## The start -/

/-- The state of the hart when the main loop starts. -/
def startState (ram : Memory) (entryPoint : Addr c) (dtbAddress : Word c) :
    Hart c.xlen c.alen where
  pc := entryPoint
  regs := (⟨fun _ => 0#_, rfl⟩ : RegFile c.xlen).set regA1 dtbAddress
  mem i := ram.data (i - 0x80000000)
  stale _ := false

/-- The hart's memory is RAM, from its base on. -/
theorem startState_readAt (ram : Memory) {entryPoint : Addr c} (dtbAddress : Word c) {offset : Nat}
    (h : entryPoint.toNat = offset + 0x80000000) (n : Nat) :
    Bytes.readAt (startState ram entryPoint dtbAddress).mem entryPoint.toNat n
      = Bytes.readAt ram.data offset n := by
  refine Bytes.readAt_congr fun i _ => ?_
  have hindex : entryPoint.toNat + i - 0x80000000 = offset + i := by omega
  exact congrArg ram.data hindex

/-- Interrupts are masked when the main loop starts, and the line is empty. -/
theorem vmStart_follows (ram : Memory) (noSBI : Bool) {entryPoint : Addr c} (dtbAddress : Word c)
    (heven : IsEven entryPoint) :
    Follows ramSize (vmStart (mainBus c ramSize) ram noSBI entryPoint dtbAddress)
      (startState ram entryPoint dtbAddress) := by
  have hwf := (Booted.vmStart (mainBus c ramSize) ram noSBI dtbAddress heven).wellFormed
  have hregs : Function.update (Function.update (fun _ => 0#c.xlen) regA0 0#c.xlen) regA1 dtbAddress
      = (startState ram entryPoint dtbAddress).regs.val := by
    funext r
    by_cases h1 : r = regA1
    · subst h1
      simp [startState, RegFile.set, show regA1 ≠ x0 by decide]
    · by_cases h0 : r = regA0 <;>
        simp [startState, RegFile.set, h0, h1, show regA0 ≠ regA1 by decide]
  have hdev := busReservationCheckInvalidate_devices (mainBus c ramSize) 0#_ 0
  have hmem : ∀ i, RamAddr ramSize i → ram.data (i - 0x80000000)
      = (startState ram entryPoint dtbAddress).mem i := fun i _ => rfl
  refine ⟨?_, hwf⟩
  cases noSBI with
  | true => exact ⟨hdev, rfl, Or.inl rfl, rfl, hregs, hmem, ram, fun hne => absurd rfl hne,
      fun i hi _ => hmem i hi⟩
  | false => exact ⟨hdev, rfl, Or.inl rfl, rfl, hregs, hmem, ram, fun hne => absurd rfl hne,
      fun i hi _ => hmem i hi⟩

/-- `c.li x5, 5`, `mul x6, x5, x5` and `sw x6, 0(x11)`. -/
def squareProgram : Memory :=
  ⟨fun i => [0x95#8, 0x42#8, 0x33#8, 0x83#8, 0x52#8, 0x02#8, 0x23#8, 0xA0#8, 0x65#8, 0x00#8].getD i
    0#8⟩

/-- The hart at the start of the program, with a pointer to free RAM in x11. -/
def squareStart : Hart 32 32 :=
  startState (c := .rv32) squareProgram 0x80000000#32 0x80000100#32

/-- The hart at the end of it: the square is in memory. -/
def squareEnd : Hart 32 32 :=
  ((((squareStart.write 5#5 5#32 2).write 6#5 25#32 4).store 0x80000100
    [25#8, 0#8, 0#8, 0#8]).next 4)

theorem square_steps : Steps (platform .rv32 0x100000) (Regular (c := .rv32) 0x100000) 3
    squareStart squareEnd := by
  have hli : squareStart.Step (platform .rv32 0x100000) (.base (.addi 5#5 0#5 5#12))
      (squareStart.write 5#5 5#32 2) :=
    ⟨2, ⟨⟨by decide, fun _ _ => rfl⟩, Or.inr ⟨rfl, _, rfl, by decide +kernel⟩⟩, rfl⟩
  have hmul : (squareStart.write 5#5 5#32 2).Step (platform .rv32 0x100000)
      (.base (.op 1#7 0#3 6#5 5#5 5#5)) ((squareStart.write 5#5 5#32 2).write 6#5 25#32 4) :=
    ⟨4, ⟨⟨by decide, fun _ _ => rfl⟩, Or.inl ⟨rfl, by decide +kernel⟩⟩, rfl⟩
  have hsw : ((squareStart.write 5#5 5#32 2).write 6#5 25#32 4).Step (platform .rv32 0x100000)
      (.base (.sw 6#5 11#5 0#12)) squareEnd :=
    ⟨4, ⟨⟨by decide, fun _ _ => rfl⟩, Or.inl ⟨rfl, by decide +kernel⟩⟩, rfl⟩
  exact .succ hli ⟨by decide, fun _ _ _ h => by cases h⟩
    (.succ hmul ⟨by decide, fun _ _ _ h => by cases h⟩
      (.succ hsw ⟨by decide, fun _ _ _ h => by cases h⟩ (.zero _)))

/-- The program with a timer tick, a key and an interrupt line between its instructions. -/
theorem isa_refinement_square :
    let m : Machine .rv32 :=
      vmStart (mainBus .rv32 0x100000) squareProgram true 0x80000000#32 0x80000100#32
    Follows 0x100000 (Run.run stepEvent m [.run, .tick 1000, .run, .push 13#8, .plicIrq 1, .run])
      squareEnd := by
  intro m
  have hstart : Follows 0x100000 m squareStart := vmStart_follows squareProgram true _ rfl
  obtain ⟨s1, -, hrest, hfollows⟩ := isa_refinement (by decide) hstart square_steps
    [.run, .tick 1000, .run, .push 13#8, .plicIrq 1, .run] (by decide)
  cases hrest with
  | zero s => exact hfollows

/-! ## From the command line -/

section Boot

variable {uintBits : Nat} {args : List Arg} {opts : Opts} {env : HostEnv}

/-- An accepted command line starts the hart at the image, in the RAM below the device tree. -/
theorem image_started (c : Cfg) (assumePerfect : Bool) {ram : Memory} {buf : HostBuf}
    (hopts : parseArgs false uintBits args = some opts) (hram : env.ram = some ram)
    (hdtb : env.dtb = some buf) {file : List Byte}
    (hacc : Accepted c (imageFile opts).1 (env.file (imageFile opts).2) file)
    (hfits : (imageOffset c (imageFile opts).1 file).toNat + file.length
      ≤ dtbOffset c opts.memSize (blobSize c))
    (heven : IsEven (imageOffset c (imageFile opts).1 file)) :
    ∃ (loaded : Memory) (entryPoint : Addr c) (dtbAddress : Word c),
      boot c uintBits assumePerfect args env
        = some (vmStart (mainBus c opts.memSize) loaded opts.noSBI entryPoint dtbAddress) ∧
      opts.memSize ≤ ramSizeMax ∧ IsEven entryPoint ∧
      entryPoint.toNat = 0x80000000 + (imageOffset c (imageFile opts).1 file).toNat ∧
      Bytes.readAt (startState loaded entryPoint dtbAddress).mem entryPoint.toNat file.length
        = file := by
  obtain ⟨hmax, hmin⟩ := parseArgs_memSize (c := c) hopts
  obtain ⟨fdt, -, hinside, hentry, hboot⟩ :=
    boot_accepted c assumePerfect hopts hram hdtb hacc hfits
  obtain ⟨-, hend, -⟩ := dtbOffset_spec (c := c) hmax hmin
  have himage := hinside.loaded
  rw [hentry, BitVec.add_sub_cancel] at himage
  have hbase : IsEven (ramBase : Addr c) := by
    unfold IsEven
    cases c <;> decide
  have hoff := @ramAddr_toNat c _ hmax (imageOffset c (imageFile opts).1 file) (by omega)
  refine ⟨_, _, _, hboot, hmax, heven.add hbase, ?_,
    (startState_readAt _ _ hoff file.length).trans himage⟩
  rw [Nat.add_comm]
  exact hoff

/-- **The image is the program.** An accepted command line whose image ends below the device tree
starts a machine that follows a hart at the image, for as long as that hart runs: the instructions
of the file are executed as the architecture says. -/
theorem image_runs (c : Cfg) (assumePerfect : Bool) {ram : Memory} {buf : HostBuf}
    (hopts : parseArgs false uintBits args = some opts) (hram : env.ram = some ram)
    (hdtb : env.dtb = some buf) {file : List Byte}
    (hacc : Accepted c (imageFile opts).1 (env.file (imageFile opts).2) file)
    (hfits : (imageOffset c (imageFile opts).1 file).toNat + file.length
      ≤ dtbOffset c opts.memSize (blobSize c))
    (heven : IsEven (imageOffset c (imageFile opts).1 file)) :
    ∃ (m : Machine c) (s : Hart c.xlen c.alen), boot c uintBits assumePerfect args env = some m ∧
      s.pc.toNat = 0x80000000 + (imageOffset c (imageFile opts).1 file).toNat ∧
      Bytes.readAt s.mem s.pc.toNat file.length = file ∧ (∀ i, s.stale i = false) ∧
      ∀ (es : List Event) (s' : Hart c.xlen c.alen),
        Steps (platform c opts.memSize) (Regular opts.memSize) (es.count .run) s s' →
          Follows opts.memSize (Run.run stepEvent m es) s' := by
  obtain ⟨loaded, entryPoint, dtbAddress, hboot, hmax, heven, hentry, hfile⟩ :=
    image_started c assumePerfect hopts hram hdtb hacc hfits heven
  have hstart := @vmStart_follows c opts.memSize loaded opts.noSBI entryPoint dtbAddress heven
  exact ⟨_, _, hboot, hentry, hfile, fun _ => rfl, fun es s' hsteps => hstart.run hmax es hsteps⟩

/-- The hart is at a word of the image that memory holds at the base of RAM. -/
theorem image_word {s : Hart 32 32} {i : Instr} (file : List Byte) (k : Nat)
    (hfile : Bytes.readAt s.mem 0x80000000 file.length = file) (hstale : ∀ i, s.stale i = false)
    (hlen : file.length ≤ 0x100000) (hk : 4 * k + 4 ≤ file.length)
    (hpc : s.pc.toNat = 0x80000000 + 4 * k)
    (hword : ofBytes ((file.drop (4 * k)).take 4) = i.encode) :
    s.AtPC (platform .rv32 0x100000) i 4 ∧ InRam (c := .rv32) 0x100000 s.pc 4 := by
  have hin : InRam (c := .rv32) 0x100000 s.pc 4 := by
    rw [InRam, hpc]
    omega
  refine ⟨⟨⟨hin, fun _ _ => hstale _⟩, Or.inl ⟨rfl, ?_⟩⟩, hin⟩
  rw [hpc, ← Bytes.take_drop_readAt s.mem 0x80000000 hk, hfile]
  exact hword

/-- `addi x5, x0, 5` and `mul x6, x5, x5`. -/
def squareImage : List Byte := [0x93#8, 0x02#8, 0x50#8, 0x00#8, 0x33#8, 0x83#8, 0x52#8, 0x02#8]

theorem squareImage_steps {s : Hart 32 32} (hpc : s.pc.toNat = 0x80000000)
    (hfile : Bytes.readAt s.mem s.pc.toNat 8 = squareImage) (hstale : ∀ i, s.stale i = false) :
    ∃ s', Steps (platform .rv32 0x100000) (Regular (c := .rv32) 0x100000) 2 s s'
      ∧ s'.regs.val 6#5 = 25#32 := by
  rw [hpc] at hfile
  let s1 := s.write 5#5 5#32 4
  let s2 := s1.write 6#5 25#32 4
  have hpc1 : s1.pc.toNat = 0x80000000 + 4 * 1 := by
    rw [show s1.pc = s.pc + 4#32 from rfl, BitVec.toNat_add, hpc]
    rfl
  obtain ⟨haddi, hin⟩ := image_word (i := .base (.opImm 0#3 5#5 0#5 5#12)) squareImage 0 hfile
    hstale (by decide) (by decide) hpc (by decide)
  obtain ⟨hmul, hin1⟩ := image_word (s := s1) (i := .base (.op 1#7 0#3 6#5 5#5 5#5)) squareImage 1
    hfile hstale (by decide) (by decide) hpc1 (by decide)
  have haddi : s.Step (platform .rv32 0x100000) (.base (.opImm 0#3 5#5 0#5 5#12)) s1 := by
    refine ⟨4, haddi, ?_⟩
    have hzero : s.regs.val 0#5 = 0#32 := s.regs.zero
    simp [Instr.exec, Base.exec, immResult, opResult, hzero, s1]
  have hmul : s1.Step (platform .rv32 0x100000) (.base (.op 1#7 0#3 6#5 5#5 5#5)) s2 := by
    refine ⟨4, hmul, ?_⟩
    have hfive : s1.regs.val 5#5 = 5#32 := by simp [s1, Hart.write, RegFile.set, x0]
    simp [Instr.exec, Base.exec, opResult, hfive, s2]
  refine ⟨s2, .succ haddi ⟨hin, fun _ _ _ h => by cases h⟩
    (.succ hmul ⟨hin1, fun _ _ _ h => by cases h⟩ (.zero _)), ?_⟩
  simp [s2, Hart.write, RegFile.set, x0]

/-- A binary image that squares 5, with a timer tick between its instructions. -/
theorem image_runs_sample :
    ∃ m : Machine .rv32,
      boot .rv32 32 false [.bin "a.bin", .memSize 1]
        { sampleEnv with file := fun _ => ⟨some squareImage, true⟩ } = some m ∧
      ∃ s' : Hart 32 32, s'.regs.val 6#5 = 25#32 ∧
        Follows 0x100000 (Run.run stepEvent m [.run, .tick 1000#32, .run]) s' := by
  obtain ⟨m, s, hboot, hpc, hfile, hstale, hruns⟩ := @image_runs 32 [.bin "a.bin", .memSize 1]
    ⟨none, some "a.bin", none, 0, false, 1⟩
    { sampleEnv with file := fun _ => ⟨some squareImage, true⟩ } .rv32 false
    ⟨fun _ => 0xAA#8⟩ ⟨fun _ => 0x55#8⟩ (by decide) rfl rfl squareImage
    ⟨rfl, rfl, (fun hk => by cases hk), by unfold imageOffset imageFile; decide⟩ (by decide) rfl
  obtain ⟨s', hsteps, hsquare⟩ := squareImage_steps hpc hfile hstale
  exact ⟨m, hboot, s', hsquare, hruns [.run, .tick 1000#32, .run] s' hsteps⟩

end Boot

end RV640
