import RV640.MainLoop
import RV640.Proofs.TimerLatch

set_option autoImplicit false

/-! # The time slept

What the main loop sleeps is a quotient of a 64-bit difference, clamped. The ticks that go back to
the timer are its product, cut to an `unsigned int`: on the host where that has 16 bits, a tenth of
a second does not fit.
-/

namespace RV640

variable {c : Cfg}

/-- The ticks to the deadline. -/
def timeRemains (self : Aclint) : Nat := self.mtimecmp.toNat - self.mtime.toNat

/-- The step slept `slept` microseconds, until the deadline but no longer than 0.1 s, and moved the
time by 10 ticks for each of them, not beyond the deadline. -/
structure KeepsTime (m m' : Machine c) (slept : Nat) : Prop where
  slept_eq : slept = min (timeRemains m.aclint / 10) 100000
  advance : m'.aclint.mtime.toNat = m.aclint.mtime.toNat + 10 * slept
  deadline : m'.aclint.mtimecmp = m.aclint.mtimecmp
  before : m'.aclint.mtime ≤ m'.aclint.mtimecmp

theorem aclintMtimeRemains_toNat {self : Aclint} (h : self.mtime ≤ self.mtimecmp) :
    (aclintMtimeRemains self).toNat = timeRemains self := BitVec.toNat_sub_of_le h

/-- The quotient, clamped. -/
theorem mtimeRemainsUs_toNat {self : Aclint} (h : self.mtime ≤ self.mtimecmp) :
    (mtimeRemainsUs self).toNat = min (timeRemains self / 10) 100000 := by
  have hquot : (aclintMtimeRemains self / aclintUsecs).toNat = timeRemains self / 10 := by
    rw [BitVec.toNat_udiv, aclintMtimeRemains_toNat h]
    rfl
  have hclamp : (100000#64 < aclintMtimeRemains self / aclintUsecs)
      ↔ 100000 < timeRemains self / 10 := by
    rw [BitVec.lt_def, hquot]
    rfl
  unfold mtimeRemainsUs
  by_cases hlt : 100000 < timeRemains self / 10
  · rw [if_pos (hclamp.mpr hlt), min_eq_right (le_of_lt hlt)]
    rfl
  · rw [if_neg (fun hc => hlt (hclamp.mp hc)), hquot, min_eq_left (not_lt.mp hlt)]

/-- The product of `aclint_tick`'s argument does not wrap in 64 bits. -/
theorem idleCycles_toNat {self : Aclint} (h : self.mtime ≤ self.mtimecmp) :
    (mtimeRemainsUs self * aclintUsecs).toNat = 10 * min (timeRemains self / 10) 100000 := by
  have husecs : aclintUsecs.toNat = 10 := rfl
  rw [BitVec.toNat_mul, mtimeRemainsUs_toNat h, husecs]
  omega

theorem stepEvent_tick_mtime (m : Machine c) (cycles : BitVec 32) :
    (stepEvent m (.tick cycles)).aclint.mtime = m.aclint.mtime + cycles.setWidth 64 :=
  Aclint.updateMtimer_mtime _ _

theorem stepEvent_tick_mtimecmp (m : Machine c) (cycles : BitVec 32) :
    (stepEvent m (.tick cycles)).aclint.mtimecmp = m.aclint.mtimecmp :=
  Aclint.updateMtimer_mtimecmp _ _

/-- A tick by no more than what remains. -/
theorem stepEvent_tick_toNat (m : Machine c) {cycles : BitVec 32}
    (h : m.aclint.mtime ≤ m.aclint.mtimecmp) (hc : cycles.toNat ≤ timeRemains m.aclint) :
    (stepEvent m (.tick cycles)).aclint.mtime.toNat = m.aclint.mtime.toNat + cycles.toNat := by
  have hcmp := m.aclint.mtimecmp.isLt
  have hle := BitVec.le_def.mp h
  unfold timeRemains at hc
  rw [stepEvent_tick_mtime, BitVec.toNat_add, BitVec.toNat_setWidth]
  omega

/-- The step keeps the time where the ticks fit. -/
theorem idleStep_keeps_iff {uintBits usecondsBits : Nat} (huint : uintBits ≤ 32)
    (huse : 1000000 < 2 ^ usecondsBits) {m : Machine c} (h : m.aclint.mtime ≤ m.aclint.mtimecmp) :
    KeepsTime m (idleStep uintBits usecondsBits m).1 (idleStep uintBits usecondsBits m).2
      ↔ 10 * min (timeRemains m.aclint / 10) 100000 < 2 ^ uintBits := by
  have hslept : (idleStep uintBits usecondsBits m).2 = min (timeRemains m.aclint / 10) 100000 := by
    calc (idleStep uintBits usecondsBits m).2
        = (mtimeRemainsUs m.aclint).toNat % 2 ^ usecondsBits := rfl
      _ = min (timeRemains m.aclint / 10) 100000 % 2 ^ usecondsBits := by
          rw [mtimeRemainsUs_toNat h]
      _ = min (timeRemains m.aclint / 10) 100000 := Nat.mod_eq_of_lt (by omega)
  generalize hticks : 10 * min (timeRemains m.aclint / 10) 100000 = ticks
  have hremains : ticks ≤ timeRemains m.aclint := by omega
  have hstep : (idleStep uintBits usecondsBits m).1
      = stepEvent m (.tick (BitVec.ofNat 32 (ticks % 2 ^ uintBits))) := by
    simp only [idleStep, idleCycles_toNat h, hticks]
  have hlt : ticks % 2 ^ uintBits < 2 ^ uintBits := Nat.mod_lt _ (Nat.two_pow_pos _)
  have hcut : ticks % 2 ^ uintBits ≤ ticks := Nat.mod_le _ _
  have harg : (BitVec.ofNat 32 (ticks % 2 ^ uintBits)).toNat = ticks % 2 ^ uintBits := by
    have hwidth := Nat.pow_le_pow_right (show 0 < 2 by decide) huint
    rw [BitVec.toNat_ofNat, Nat.mod_eq_of_lt (Nat.lt_of_lt_of_le hlt hwidth)]
  have hmtime := stepEvent_tick_toNat m h (le_trans (le_of_eq harg) (le_trans hcut hremains))
  rw [harg] at hmtime
  constructor
  · -- ticks that are cut are fewer than the time slept
    intro hk
    have hadv := hk.advance
    rw [hstep, hslept, hticks, hmtime] at hadv
    by_contra hge
    omega
  · intro hfits
    rw [Nat.mod_eq_of_lt hfits] at hstep hmtime
    refine ⟨hslept, ?_, ?_, ?_⟩
    · rw [hstep, hslept, hticks]
      exact hmtime
    · rw [hstep, stepEvent_tick_mtimecmp]
    · have hle := BitVec.le_def.mp h
      unfold timeRemains at hremains
      rw [hstep, BitVec.le_def, stepEvent_tick_mtimecmp, hmtime]
      omega

/-- **Idle steps keep time below 65540 ticks**: on a host with an `unsigned int` of 32 bits always,
on one of 16 bits exactly when the deadline is less than 65540 ticks away. A `useconds_t` holds the
values up to 1000000. -/
theorem idle_keeps_time_iff {uintBits usecondsBits : Nat} (huint : uintBits = 16 ∨ uintBits = 32)
    (huse : 1000000 < 2 ^ usecondsBits) (m : Machine c)
    (h : m.aclint.mtime ≤ m.aclint.mtimecmp) :
    KeepsTime m (idleStep uintBits usecondsBits m).1 (idleStep uintBits usecondsBits m).2
      ↔ uintBits = 32 ∨ m.aclint.mtimecmp.toNat - m.aclint.mtime.toNat < 65540 := by
  rw [idleStep_keeps_iff (by omega) huse h, timeRemains]
  rcases huint with rfl | rfl
  · -- 16 bits: 6553 microseconds fit, 6554 do not
    omega
  · exact iff_of_true (by omega) (Or.inl rfl)

/-- A machine whose deadline is the given number of ticks away. -/
def idleMachine (deadline : Nat) : Machine .rv64 :=
  let m := vmStart (mainBus .rv64 0x100000) ⟨fun _ => 0#8⟩ true 0x80000000#64 0#64
  { m with aclint := { m.aclint with mtimecmp := BitVec.ofNat 64 deadline } }

theorem idle_keeps_time_short :
    KeepsTime (idleMachine 1000) (idleStep 16 32 (idleMachine 1000)).1
        (idleStep 16 32 (idleMachine 1000)).2
      ↔ 16 = 32 ∨ 1000 - 0 < 65540 :=
  idle_keeps_time_iff (Or.inl rfl) (by decide) (idleMachine 1000) (by decide)

/-- A tenth of a second is slept, and the time moves by `1000000 mod 65536` ticks. -/
theorem idle_loses_time :
    (idleMachine 1000000).aclint.mtime = 0#64
      ∧ (idleStep 16 32 (idleMachine 1000000)).2 = 100000
      ∧ (idleStep 16 32 (idleMachine 1000000)).1.aclint.mtime = 16960#64
      ∧ ¬ KeepsTime (idleMachine 1000000) (idleStep 16 32 (idleMachine 1000000)).1
        (idleStep 16 32 (idleMachine 1000000)).2 := by
  have hmtime : (idleStep 16 32 (idleMachine 1000000)).1.aclint.mtime = 16960#64 := by decide
  have hslept : (idleStep 16 32 (idleMachine 1000000)).2 = 100000 := by decide
  refine ⟨rfl, hslept, hmtime, ?_⟩
  intro h
  have hadv := h.advance
  rw [hmtime, hslept] at hadv
  revert hadv
  decide

/-! ## The loop is a run -/

/-- What the main loop does in one iteration is a run of the machine: an invariant of every event
holds of it. -/
theorem mainLoopStep_run (uintBits usecondsBits : Nat) (m : Machine c) :
    ∃ es, mainLoopStep uintBits usecondsBits m = Run.run stepEvent m es := by
  have hruns : ∀ (n : Nat) (m : Machine c), (List.range n).foldl (fun m _ => rvRun m) m
      = Run.run stepEvent m (List.replicate n .run) := by
    intro n
    induction n with
    | zero => intro m; rfl
    | succ n ih =>
        intro m
        rw [List.range_succ, List.foldl_append, ih, List.replicate_succ', Run.run_append]
        rfl
  have hticked : stepEvent ((List.range cyclesPerStep).foldl (fun m _ => rvRun m) m)
        (.tick (BitVec.ofNat 32 cyclesPerStep))
      = Run.run stepEvent m
          (List.replicate cyclesPerStep .run ++ [.tick (BitVec.ofNat 32 cyclesPerStep)]) := by
    rw [hruns, Run.run_append]
    rfl
  have hidle : ∀ m1 : Machine c, ∃ e, (idleStep uintBits usecondsBits m1).1 = stepEvent m1 e :=
    fun _ => ⟨.tick _, rfl⟩
  simp only [mainLoopStep, hticked]
  generalize List.replicate cyclesPerStep Event.run
    ++ [.tick (BitVec.ofNat 32 cyclesPerStep)] = es
  split
  · obtain ⟨e, he⟩ := hidle (Run.run stepEvent m es)
    refine ⟨es ++ [e], ?_⟩
    rw [he, Run.run_append, Run.run_cons, Run.run_nil]
  · exact ⟨es, rfl⟩

end RV640
