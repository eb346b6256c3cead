import RV640.Proofs.SbiCalls

set_option autoImplicit false

/-! # What the SBI probe promises

`sbi.c` writes its list of extensions twice: as the expression of `probe_extension` and as the
switch of `sbi_handleEcall`. The expression names four extensions that the switch has no case for.
-/

namespace RV640

variable {c : Cfg}

/-! ## The switch -/

/-- The cases of the switch of `sbi_handleEcall`; `unknown` is its default, which holds
`assert(false)`. -/
inductive SbiBranch where
  | base
  | timer
  | dbgcon
  | unknown
  deriving DecidableEq

/-- The case an extension id selects. -/
def sbiBranch (eid : Word c) : SbiBranch :=
  if eid = sbiEidBase then .base
  else if eid = sbiEidTimer then .timer
  else if eid = sbiEidDbgcon then .dbgcon
  else .unknown

/-- What a case of the switch does. -/
def SbiBranch.handle (m : Machine c) (fid : Word c) : SbiBranch → Machine c × SbiRet c
  | base => (m, handleBaseExt m.cpu fid)
  | timer => handleTimerExt m fid
  | dbgcon => handleDbgConExt m fid
  | unknown => (m, ⟨sbiErrNotSupported, 0#_⟩)

theorem sbiDispatch_branch (m : Machine c) (eid fid : Word c) :
    sbiDispatch m eid fid = (sbiBranch eid).handle m fid := by
  unfold sbiDispatch sbiBranch
  split_ifs <;> rfl

/-- The ecall of a state ends in the default case. -/
def UnknownExtension (m : Machine c) : Prop := sbiBranch (m.cpu.regs regA7) = .unknown

/-- An ecall on an unknown extension comes back with `SBI_ERR_NOT_SUPPORTED` and changes nothing
else. -/
theorem UnknownExtension.ecall {m : Machine c} (h : UnknownExtension m) :
    sbiHandleEcall m
      = { m with cpu := rvPokeRx (rvPokeRx m.cpu regA0 sbiErrNotSupported) regA1 0#_ } := by
  have hbranch : sbiBranch (m.cpu.regs regA7) = .unknown := h
  simp only [sbiHandleEcall, sbiDispatch_branch, hbranch, SbiBranch.handle]

/-! ## The probe -/

/-- The state of a hart that asks for the extension `eid`. -/
def probeCall (m : Machine c) (eid : Word c) : Machine c :=
  { m with cpu := rvPokeRx (rvPokeRx (rvPokeRx m.cpu regA7 sbiEidBase) regA6 3#_) regA0 eid }

/-- The answer it reads in `a1`. -/
def probeExtension (m : Machine c) (eid : Word c) : Word c :=
  (sbiHandleEcall (probeCall m eid)).cpu.regs regA1

theorem probeCall_regs (m : Machine c) (eid : Word c) :
    (probeCall m eid).cpu.regs regA7 = sbiEidBase ∧ (probeCall m eid).cpu.regs regA6 = 3#_
      ∧ (probeCall m eid).cpu.regs regA0 = eid := by
  refine ⟨?_, ?_, ?_⟩
  · simp [probeCall, rvPokeRx, regA0, regA6, regA7]
  · simp [probeCall, rvPokeRx, regA0, regA6]
  · simp [probeCall, rvPokeRx]

/-- The probe is served by the base extension and answers with its list. -/
theorem probeExtension_eq (m : Machine c) (eid : Word c) :
    probeExtension m eid = if eid ∈ probedExtensions then 1#_ else 0#_ := by
  obtain ⟨h7, h6, h0⟩ := probeCall_regs m eid
  have hthree : (3#c.xlen).toNat = 3 := by cases c <;> rfl
  have hbase : sbiBranch (sbiEidBase : Word c) = .base := if_pos rfl
  simp only [probeExtension, sbiHandleEcall, sbiDispatch_branch, h7, h6, hbase, SbiBranch.handle,
    handleBaseExt, hthree, h0, rvPokeRx, Function.update_self]

theorem probeExtension_ne_zero (m : Machine c) (eid : Word c) :
    probeExtension m eid ≠ 0#_ ↔ eid ∈ probedExtensions := by
  have hone : (1#c.xlen) ≠ 0#c.xlen := by cases c <;> decide
  rw [probeExtension_eq]
  by_cases h : eid ∈ probedExtensions
  · simp [h, hone]
  · simp [h]

/-! ## The two lists -/

/-- The extensions the probe reports and the switch does not know. -/
def unservedExtensions : List (Word c) := [sbiEidIpi, sbiEidRfence, sbiEidSysreset, sbiEidFwft]

/-- The extensions the switch knows. -/
theorem sbiBranch_ne_unknown (eid : Word c) :
    sbiBranch eid ≠ .unknown ↔ eid ∈ [sbiEidBase, sbiEidTimer, sbiEidDbgcon] := by
  unfold sbiBranch
  constructor
  · intro h
    split_ifs at h with h1 h2 h3
    · simp [h1]
    · simp [h2]
    · simp [h3]
    · exact absurd rfl h
  · intro h
    split_ifs with h1 h2 h3
    · simp
    · simp
    · simp
    · simp [h1, h2, h3] at h

/-- Ids that differ as numbers of 32 bits differ as words. -/
theorem ofNat_word_ne {a b : Nat} (ha : a < 2 ^ 32) (hb : b < 2 ^ 32) (hab : a ≠ b) :
    BitVec.ofNat c.xlen a ≠ BitVec.ofNat c.xlen b := by
  intro h
  have hpow : 2 ^ 32 ≤ 2 ^ c.xlen := Nat.pow_le_pow_right (by decide) c.xlen_ge
  have hnat := congrArg BitVec.toNat h
  rw [BitVec.toNat_ofNat, BitVec.toNat_ofNat, Nat.mod_eq_of_lt (by omega),
    Nat.mod_eq_of_lt (by omega)] at hnat
  exact hab hnat

theorem unserved_not_served {eid : Word c} (h : eid ∈ unservedExtensions) :
    eid ∉ [sbiEidBase, sbiEidTimer, sbiEidDbgcon] := by
  intro hserved
  simp only [unservedExtensions, List.mem_cons, List.not_mem_nil, or_false] at h hserved
  rcases hserved with rfl | rfl | rfl <;> rcases h with h | h | h | h <;>
    exact ofNat_word_ne (by decide) (by decide) (by decide) h

theorem unserved_unknown {eid : Word c} (h : eid ∈ unservedExtensions) :
    sbiBranch eid = .unknown := by
  by_contra hne
  exact unserved_not_served h ((sbiBranch_ne_unknown eid).mp hne)

/-- The probe's list is that of the switch and the unserved extensions. -/
theorem probedExtensions_split (eid : Word c) :
    eid ∈ probedExtensions
      ↔ eid ∈ [sbiEidBase, sbiEidTimer, sbiEidDbgcon] ∨ eid ∈ unservedExtensions := by
  simp only [probedExtensions, unservedExtensions, List.mem_cons, List.not_mem_nil, or_false]
  tauto

/-- **The probe against the switch**: for every ecall `e`, whatever its function id and the state
of its hart, a probe of its extension id made in any state is right about the case the ecall ends
in, unless the id is one of the four. -/
theorem probe_agrees_iff (m e : Machine c) :
    (probeExtension m (e.cpu.regs regA7) ≠ 0#_ ↔ ¬ UnknownExtension e)
      ↔ e.cpu.regs regA7 ∉ unservedExtensions := by
  rw [probeExtension_ne_zero, probedExtensions_split, UnknownExtension, ← ne_eq,
    sbiBranch_ne_unknown]
  constructor
  · intro hagree hmem
    exact unserved_not_served hmem (hagree.mp (Or.inr hmem))
  · intro hmem
    exact or_iff_left hmem

/-- The state of a hart about to call the extension `eid`. -/
def callOf (m : Machine c) (eid : Word c) : Machine c :=
  { m with cpu := rvPokeRx m.cpu regA7 eid }

@[simp] theorem callOf_eid (m : Machine c) (eid : Word c) :
    (callOf m eid).cpu.regs regA7 = eid := by
  simp [callOf, rvPokeRx]

/-- A RAM that starts with an ECALL. -/
def ecallRam : Memory := ⟨fun i => if i = 0 then 0x73#8 else 0#8⟩

/-- A 64-bit machine of 1 MB, started in that RAM. -/
def ecallStart : Machine .rv64 :=
  Run.run stepEvent (sbiStart (mainBus .rv64 0x100000) ecallRam 0x80000000#64 0#64) []

/-- A kernel that was told the extension is there sends an IPI. -/
theorem ipi_probed_unknown :
    ¬ ∀ m e : Machine .rv64,
      probeExtension m (e.cpu.regs regA7) ≠ 0#_ ↔ ¬ UnknownExtension e := by
  intro h
  have hipi : (sbiEidIpi : Word .rv64) ∈ unservedExtensions := List.mem_cons_self
  have hprobed := (probedExtensions_split _).mpr (Or.inr hipi)
  have hunknown := unserved_unknown hipi
  have hcall := h ecallStart (callOf ecallStart sbiEidIpi)
  rw [UnknownExtension, callOf_eid, probeExtension_ne_zero] at hcall
  exact hcall.mp hprobed hunknown

end RV640
