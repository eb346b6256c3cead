import RV640.MainLoop
import RV640.Proofs.Terminal
import RV640.Proofs.TimerLatch
import Mathlib.Data.List.Basic

set_option autoImplicit false

/-! # What `main` does with a program

The loop of `main` runs a hundred instructions, lets the timer tick a hundred times and asks for a
key. For a program that the architecture describes it never sleeps, so `mtime` counts instructions,
and what `main` prints is what the program prints.
-/

namespace RV640

open Bits Riscv

variable {c : Cfg} {ramSize : Nat} {m : Machine c} {sbi : Bool} {s s' : Station c.xlen c.alen}

/-- What happens at the terminal in one iteration of the loop. -/
def iteration (dos : Bool) (key : Option Byte) : List Happening :=
  List.replicate cyclesPerStep .step ++
    ((key.filter fun ch => dos || ch != 0#8).map Happening.key).toList

/-- The machine is attached and awake, and its timer has counted `n` ticks. -/
structure Running (ramSize : Nat) (sbi : Bool) (m : Machine c) (s : Station c.xlen c.alen)
    (n : Nat) : Prop where
  attached : Attached ramSize sbi m s
  awake : m.cpu.wfi = false
  time : m.aclint.mtime = BitVec.ofNat 64 n

/-- Interrupts wake the hart. -/
theorem IrqSteps.awake {S : List IrqCause} {hart hart' : Cpu c} (h : IrqSteps S hart hart')
    (hawake : hart.wfi = false) : hart'.wfi = false := by
  induction h with
  | refl => exact hawake
  | tail _ hstep ih =>
      cases hstep with
      | raise i _ => rfl
      | clear i _ => exact ih

/-- A key does not touch the timer. -/
theorem ns16550Push_aclint (m : Machine c) (ch : Byte) :
    (ns16550Push m ch).1.aclint = m.aclint := by
  unfold ns16550Push
  split
  · rfl
  · unfold Ns16550a.irq
    split <;> rfl

/-- The calls of `rv_run` of one iteration. -/
theorem Attached.steps (hsz : ramSize ≤ ramSizeMax) {k : Nat} {hs : List Happening}
    (h : Attached ramSize sbi m s) (hsession : Session (board c ramSize sbi) (Regular ramSize)
      (List.replicate k .step ++ hs) s s') :
    ∃ s1, Session (board c ramSize sbi) (Regular ramSize) hs s1 s' ∧
      Attached ramSize sbi (rvRun^[k] m) s1 ∧ Steady m (rvRun^[k] m) := by
  induction k generalizing m s with
  | zero => exact ⟨s, hsession, h, .refl m⟩
  | succ k ih =>
      cases hsession with
      | step step cond rest =>
          obtain ⟨hnext, hsteady⟩ := h.step hsz step cond
          obtain ⟨s1, hlater, hlast, hall⟩ := ih hnext rest
          exact ⟨s1, hlater, hlast, hsteady.trans hall⟩

/-- The ticks. -/
theorem Running.tick {n : Nat} (h : Running ramSize sbi m s n) (cycles : BitVec 32) :
    Running ramSize sbi (stepEvent m (.tick cycles)) s (n + cycles.toNat) where
  attached := h.attached.unseen rfl
  awake := (deviceEvent_steps m (e := .tick cycles) (fun he => nomatch he)).awake h.awake
  time := by
    rw [BitVec.ofNat_add, ← h.time, BitVec.ofNat_toNat]
    exact Aclint.updateMtimer_mtime _ _

/-- A key. -/
theorem Running.push {n : Nat} (h : Running ramSize sbi m s n) (ch : Byte) :
    Running ramSize sbi (stepEvent m (.push ch)) (s.key (board c ramSize sbi).queue ch) n where
  attached := h.attached.push ch
  awake := (deviceEvent_steps m (e := .push ch) (fun he => nomatch he)).awake h.awake
  time := by
    rw [← h.time]
    exact congrArg _ (ns16550Push_aclint m ch)

/-- A hart that is awake after its instructions does not sleep. -/
theorem mainLoopStep_awake (uintBits usecondsBits : Nat)
    (h : (stepEvent (rvRun^[cyclesPerStep] m)
      (.tick (BitVec.ofNat 32 cyclesPerStep))).cpu.wfi = false) :
    mainLoopStep uintBits usecondsBits m
      = stepEvent (rvRun^[cyclesPerStep] m) (.tick (BitVec.ofNat 32 cyclesPerStep)) := by
  have hruns : (List.range cyclesPerStep).foldl (fun m _ => rvRun m) m
      = rvRun^[cyclesPerStep] m := by
    rw [List.foldl_const, List.length_range]
  simp only [mainLoopStep, hruns, h, Bool.false_eq_true, if_false]

/-- One iteration: the instructions, the ticks and the key. -/
theorem Running.iterate (hsz : ramSize ≤ ramSizeMax) {n : Nat} {hs : List Happening}
    (h : Running ramSize sbi m s n) (dos : Bool) (uintBits usecondsBits : Nat) (key : Option Byte)
    (hsession : Session (board c ramSize sbi) (Regular ramSize) (iteration dos key ++ hs) s s') :
    ∃ s1, Session (board c ramSize sbi) (Regular ramSize) hs s1 s' ∧
      Running ramSize sbi (uiGetch dos (mainLoopStep uintBits usecondsBits m) key) s1
        (n + cyclesPerStep) := by
  rw [iteration, List.append_assoc] at hsession
  obtain ⟨s1, hkey, hattached, hsteady⟩ := h.attached.steps hsz hsession
  have hran : Running ramSize sbi (rvRun^[cyclesPerStep] m) s1 n :=
    ⟨hattached, hsteady.awake h.awake, (congrArg _ hsteady.aclint).trans h.time⟩
  have hticked := hran.tick (BitVec.ofNat 32 cyclesPerStep)
  rw [mainLoopStep_awake uintBits usecondsBits hticked.awake]
  cases key with
  | none => exact ⟨s1, hkey, hticked⟩
  | some ch =>
      rw [Option.filter_some] at hkey
      rw [uiGetch]
      split at hkey
      · rename_i hch
        rw [if_pos hch]
        cases hkey with
        | key ch rest => exact ⟨_, rest, hticked.push ch⟩
      · -- the NUL that the Linux build drops
        rename_i hch
        rw [if_neg hch]
        exact ⟨s1, hkey, hticked⟩

/-- The loop. The session need not end with the keys. -/
theorem Running.loop (hsz : ramSize ≤ ramSizeMax) {n : Nat} {hs : List Happening}
    (h : Running ramSize sbi m s n) (dos : Bool) (uintBits usecondsBits : Nat)
    (keys : List (Option Byte)) (hsession : Session (board c ramSize sbi) (Regular ramSize)
      (keys.flatMap (iteration dos) ++ hs) s s') :
    ∃ s1, Session (board c ramSize sbi) (Regular ramSize) hs s1 s' ∧
      Running ramSize sbi (mainLoop dos uintBits usecondsBits m keys) s1
        (n + cyclesPerStep * keys.length) := by
  induction keys generalizing m s n with
  | nil => exact ⟨s, hsession, h⟩
  | cons key keys ih =>
      rw [List.flatMap_cons, List.append_assoc] at hsession
      obtain ⟨s1, hlater, hrunning⟩ := h.iterate hsz dos uintBits usecondsBits key hsession
      obtain ⟨s2, hlast, hloop⟩ := ih hrunning hlater
      have htime : n + cyclesPerStep + cyclesPerStep * keys.length
          = n + cyclesPerStep * (key :: keys).length := by
        rw [List.length_cons, Nat.mul_succ, Nat.add_assoc, Nat.add_comm cyclesPerStep]
      rw [htime] at hloop
      exact ⟨s2, hlast, hloop⟩

/-- A hart that stands still can be left for as long as one likes. -/
theorem Station.spin {w a : Nat} {b : Board} {Q : Hart w a → Instr → Prop} {s : Station w a}
    {i : Instr} (h : s.hart.Step b.toPlatform i s.hart) (hcond : Q s.hart i)
    (hs : List Happening) : ∃ s', Session b Q hs s s' ∧ s'.output = s.output := by
  induction hs generalizing s with
  | nil => exact ⟨s, .nil s, rfl⟩
  | cons happening hs ih =>
      cases happening with
      | step =>
          obtain ⟨s', hrest, hout⟩ := ih h hcond
          exact ⟨s', .step (.of_hart h) (fun j hj => Option.some.inj hj ▸ hcond) hrest, hout⟩
      | key ch =>
          have hkey : (s.key b.queue ch).hart = s.hart ∧ (s.key b.queue ch).output = s.output := by
            unfold Station.key
            split <;> exact ⟨rfl, rfl⟩
          obtain ⟨s', hrest, hout⟩ := ih (s := s.key b.queue ch) (hkey.1.symm ▸ h)
            (hkey.1.symm ▸ hcond)
          exact ⟨s', .key ch hrest, hout.trans hkey.2⟩

section Boot

variable {uintBits : Nat} {args : List Arg} {opts : Opts} {env : HostEnv}

/-- **What `main` prints.** An accepted command line starts the loop with the hart at the image. At
every key that the loop asks for, the program has printed what `main` has, but for a call that is
latched; the loop has not slept, and `mtime` is a hundred for each iteration. -/
theorem main_prints (c : Cfg) (assumePerfect : Bool) (usecondsBits : Nat) {ram : Memory}
    {buf : HostBuf} (hopts : parseArgs false uintBits args = some opts) (hram : env.ram = some ram)
    (hdtb : env.dtb = some buf) {file : List Byte}
    (hacc : Accepted c (imageFile opts).1 (env.file (imageFile opts).2) file)
    (hfits : (imageOffset c (imageFile opts).1 file).toNat + file.length
      ≤ dtbOffset c opts.memSize (blobSize c))
    (heven : IsEven (imageOffset c (imageFile opts).1 file)) :
    ∃ (m : Machine c) (s : Hart c.xlen c.alen), boot c uintBits assumePerfect args env = some m ∧
      s.pc.toNat = 0x80000000 + (imageOffset c (imageFile opts).1 file).toNat ∧
      Bytes.readAt s.mem s.pc.toNat file.length = file ∧ (∀ i, s.stale i = false) ∧
      ∀ (keys : List (Option Byte)) (s' : Station c.xlen c.alen),
        Session (board c opts.memSize (!opts.noSBI)) (Regular opts.memSize)
            (keys.flatMap (iteration false)) ⟨s, [], []⟩ s' →
          (mainLoop false uintBits usecondsBits m keys).console <+: s'.output ∧
            ((mainLoop false uintBits usecondsBits m keys).cpu.trap = false →
              (mainLoop false uintBits usecondsBits m keys).console = s'.output) ∧
            (mainLoop false uintBits usecondsBits m keys).cpu.wfi = false ∧
            (mainLoop false uintBits usecondsBits m keys).aclint.mtime
              = BitVec.ofNat 64 (cyclesPerStep * keys.length) := by
  obtain ⟨loaded, entryPoint, dtbAddress, hboot, hmax, heven, hentry, hfile⟩ :=
    image_started c assumePerfect hopts hram hdtb hacc hfits heven
  have hattached := @vmStart_attached c opts.memSize loaded opts.noSBI entryPoint dtbAddress heven
  have hstart : Running opts.memSize (!opts.noSBI)
      (vmStart (mainBus c opts.memSize) loaded opts.noSBI entryPoint dtbAddress)
      ⟨startState loaded entryPoint dtbAddress, [], []⟩ 0 := by
    refine ⟨hattached, ?_, ?_⟩
    · cases opts.noSBI <;>
        simp [vmStart, sbiStartHart, rvReset, vmInit, rvInit, rvPokeRx, flushIcache, writePC]
    · cases opts.noSBI <;> rfl
  refine ⟨_, _, hboot, hentry, hfile, fun _ => rfl, ?_⟩
  intro keys s' hsession
  rw [← List.append_nil (keys.flatMap _)] at hsession
  obtain ⟨s1, hend, hloop⟩ := hstart.loop hmax false uintBits usecondsBits keys hsession
  cases hend with
  | nil s =>
      obtain ⟨hconsole, hall⟩ := hloop.attached.console
      exact ⟨hconsole, hall, hloop.awake, by rw [hloop.time, Nat.zero_add]⟩

/-- `lui x5, 0x10000`, `addi x6, x0, 72`, `sb x6, 0(x5)` and `jal x0, 0`: a letter, and no more. -/
def greetProgram : List Byte :=
  [0xB7#8, 0x02#8, 0x00#8, 0x10#8, 0x13#8, 0x03#8, 0x80#8, 0x04#8, 0x23#8, 0x80#8, 0x62#8, 0x00#8,
    0x6F#8, 0x00#8, 0x00#8, 0x00#8]

theorem greet_session {s : Hart 32 32} (hpc : s.pc.toNat = 0x80000000)
    (hfile : Bytes.readAt s.mem s.pc.toNat 16 = greetProgram) (hstale : ∀ i, s.stale i = false)
    (key : Option Byte) (keys : List (Option Byte)) :
    ∃ s', Session (board .rv32 0x100000 true) (Regular (c := .rv32) 0x100000)
        ((key :: keys).flatMap (iteration false)) ⟨s, [], []⟩ s' ∧ s'.output = [72#8] := by
  rw [hpc] at hfile
  let s1 := s.write 5#5 0x10000000#32 4
  let s2 := s1.write 6#5 72#32 4
  let s3 : Hart 32 32 := s2.next 4
  have hpc1 : s1.pc.toNat = 0x80000000 + 4 * 1 := by
    rw [show s1.pc = s.pc + 4#32 from rfl, BitVec.toNat_add, hpc]
    rfl
  have hpc2 : s2.pc.toNat = 0x80000000 + 4 * 2 := by
    rw [show s2.pc = s1.pc + 4#32 from rfl, BitVec.toNat_add, hpc1]
    rfl
  have hpc3 : s3.pc.toNat = 0x80000000 + 4 * 3 := by
    rw [show s3.pc = s2.pc + 4#32 from rfl, BitVec.toNat_add, hpc2]
    rfl
  obtain ⟨hlui, hin⟩ := image_word (i := .base (.lui 5#5 0x10000#20)) greetProgram 0 hfile hstale
    (by decide) (by decide) hpc (by decide)
  obtain ⟨haddi, hin1⟩ := image_word (s := s1) (i := .base (.opImm 0#3 6#5 0#5 72#12)) greetProgram
    1 hfile hstale (by decide) (by decide) hpc1 (by decide)
  obtain ⟨hsb, hin2⟩ := image_word (s := s2) (i := .base (.store 0#3 5#5 6#5 0#12)) greetProgram 2
    hfile hstale (by decide) (by decide) hpc2 (by decide)
  obtain ⟨hjal, hin3⟩ := image_word (s := s3) (i := .base (.jal 0#5 0#20)) greetProgram 3 hfile
    hstale (by decide) (by decide) hpc3 (by decide)
  have hlui : s.Step (platform .rv32 0x100000) (.base (.lui 5#5 0x10000#20)) s1 :=
    ⟨4, hlui, rfl⟩
  have haddi : s1.Step (platform .rv32 0x100000) (.base (.opImm 0#3 6#5 0#5 72#12)) s2 := by
    refine ⟨4, haddi, ?_⟩
    have hzero : s1.regs.val 0#5 = 0#32 := s1.regs.zero
    simp [Instr.exec, Base.exec, immResult, opResult, hzero, s2]
  have hsb : Station.Step (board .rv32 0x100000 true) ⟨s2, [], []⟩
      (some (.base (.store 0#3 5#5 6#5 0#12))) ⟨s3, [], [72#8]⟩ :=
    ⟨4, hsb, rfl⟩
  have hjal : s3.Step (platform .rv32 0x100000) (.base (.jal 0#5 0#20)) s3 := by
    refine ⟨4, hjal, ?_⟩
    simp [Instr.exec, Base.exec, Hart.jump]
  rw [List.flatMap_cons]
  obtain ⟨s', hspin, hout⟩ := Station.spin (b := board .rv32 0x100000 true)
    (Q := Regular (c := .rv32) 0x100000) (s := ⟨s3, [], [72#8]⟩) hjal
    (.base hin3 (fun _ _ _ h => Base.noConfusion h) _ rfl)
    (List.replicate 97 .step ++ ((key.filter fun ch => false || ch != 0#8).map
      Happening.key).toList ++ keys.flatMap (iteration false))
  have hsb := Session.step hsb (Regular.base hin2 (fun _ _ _ h => Base.noConfusion h)) hspin
  have haddi := Session.step (s := ⟨s1, [], []⟩) (.of_hart haddi)
    (Regular.base hin1 (fun _ _ _ h => Base.noConfusion h)) hsb
  exact ⟨s', .step (.of_hart hlui) (.base hin (fun _ _ _ h => Base.noConfusion h)) haddi, hout⟩

/-- The image that prints a letter and spins. -/
theorem main_prints_letter :
    ∃ m : Machine .rv32,
      boot .rv32 32 false [.bin "a.bin", .memSize 1]
        { sampleEnv with file := fun _ => ⟨some greetProgram, true⟩ } = some m ∧
      ∀ (key : Option Byte) (keys : List (Option Byte)),
        (mainLoop false 32 32 m (key :: keys)).console <+: [72#8] ∧
          (mainLoop false 32 32 m (key :: keys)).aclint.mtime
            = BitVec.ofNat 64 (100 * (keys.length + 1)) := by
  obtain ⟨m, s, hboot, hpc, hmem, hstale, hloop⟩ := @main_prints 32 [.bin "a.bin", .memSize 1]
    ⟨none, some "a.bin", none, 0, false, 1⟩
    { sampleEnv with file := fun _ => ⟨some greetProgram, true⟩ } .rv32 false 32
    ⟨fun _ => 0xAA#8⟩ ⟨fun _ => 0x55#8⟩ (by decide) rfl rfl greetProgram
    ⟨rfl, rfl, (fun hk => by cases hk), by unfold imageOffset imageFile; decide⟩ (by decide) rfl
  refine ⟨m, hboot, ?_⟩
  intro key keys
  obtain ⟨s', hsession, hout⟩ := greet_session hpc hmem hstale key keys
  obtain ⟨hconsole, -, -, htime⟩ := hloop (key :: keys) s' hsession
  exact ⟨hout ▸ hconsole, htime⟩

end Boot

end RV640
