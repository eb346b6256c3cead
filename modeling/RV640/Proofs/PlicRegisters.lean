import RV640.Proofs.PlicArbitration
import RV640.Proofs.PlicDelivery

set_option autoImplicit false

/-! # The settings of the PLIC

Priorities, enable words and thresholds are a memory: a guest reads back from them what it wrote
last, in accesses of any size and offset, whatever interrupts arrive, are claimed and are completed
in between.
-/

namespace RV640

open Bits

variable {c : Cfg} {n : Nat}

/-! ## Bytes of an array -/

theorem getArrByte_setArrByte {k : Nat} (arr : Vector (BitVec 32) k) {i j : Nat} (hi : i < 4 * k)
    (b : Byte) :
    getArrByte (setArrByte arr i b) j = if i = j then b else getArrByte arr j := by
  unfold getArrByte setArrByte
  rw [getWord_setWord]
  by_cases hword : i / 4 = j / 4
  · rw [if_pos ⟨hword, by omega⟩, getByte_setByte _ (by omega), hword]
    by_cases hij : i = j
    · rw [if_pos hij, if_pos (congrArg (· % 4) hij)]
    · rw [if_neg hij, if_neg (by omega)]
  · rw [if_neg (fun h => hword h.1), if_neg (fun h => hword (congrArg (· / 4) h))]

namespace Plic

/-! ## The registers -/

/-- The register is a setting: a priority, an enable word or a threshold. -/
def Target.setting : Target → Bool
  | .priority _ | .enable _ _ | .threshold _ _ => true
  | _ => false

/-- The byte of a register. -/
def byteOf (self : Plic n) : Target → Byte
  | .priority i => getArrByte self.priority i
  | .pending i => getArrByte self.pending i
  | .enable k i => getArrByte (self.context k).enable i
  | .threshold k i => getByte (self.context k).threshold i
  | .claim k i => getByte (self.context k).claim i
  | .nothing => 0#8

theorem byteAt_eq (self : Plic n) (addr : Nat) :
    self.byteAt addr = self.byteOf (decodeAddr n false addr) := by
  unfold byteAt readByte
  cases decodeAddr n false addr <;> rfl

/-- The offset of a setting. -/
def Target.offset : Target → Nat
  | .priority i => 4 + i
  | .enable k i => 0x2000 + 0x80 * k + i
  | .threshold k i => 0x200000 + 0x1000 * k + i
  | _ => 0

theorem decodeEnable_setting {a : Nat} (h : (decodeEnable n a).setting = true) :
    ∃ k : Fin plicContexts, decodeEnable n a = .enable k (a % 0x80) ∧ a / 0x80 = k.val := by
  unfold decodeEnable at h ⊢
  cases hctx : contextOf (a / 0x80) with
  | none =>
      rw [hctx] at h
      cases h
  | some k =>
      simp only [hctx] at h ⊢
      split at h
      · rename_i hword
        exact ⟨k, if_pos hword, (contextOf_eq_some_iff _ _).mp hctx⟩
      · cases h

theorem decodeContext_setting {a : Nat} (h : (decodeContext a).setting = true) :
    ∃ k : Fin plicContexts, decodeContext a = .threshold k (a % 0x1000) ∧ a / 0x1000 = k.val := by
  unfold decodeContext at h ⊢
  cases hctx : contextOf (a / 0x1000) with
  | none =>
      rw [hctx] at h
      cases h
  | some k =>
      simp only [hctx] at h ⊢
      split at h
      · rename_i hthreshold
        exact ⟨k, if_pos hthreshold, (contextOf_eq_some_iff _ _).mp hctx⟩
      · split at h <;> cases h

/-- No two offsets are one setting. -/
theorem decodeAddr_offset {write : Bool} {addr : Nat}
    (h : (decodeAddr n write addr).setting = true) :
    addr = (decodeAddr n write addr).offset := by
  by_cases hpriority : 4 ≤ addr ∧ addr < 4 * n + 4
  · have ht : decodeAddr n write addr = .priority (addr - 4) := if_pos hpriority
    rw [ht]
    simp only [Target.offset]
    omega
  by_cases hpending : !write ∧ 0x1000 ≤ addr ∧ addr < 0x1000 + 4 * plicInterruptWords n
  · have ht : decodeAddr n write addr = .pending (addr - 0x1000) :=
      (if_neg hpriority).trans (if_pos hpending)
    rw [ht] at h
    cases h
  by_cases henable : 0x2000 ≤ addr ∧ addr < 0x200000
  · have ht : decodeAddr n write addr = decodeEnable n (addr - 0x2000) :=
      (if_neg hpriority).trans ((if_neg hpending).trans (if_pos henable))
    rw [ht] at h ⊢
    obtain ⟨k, htarget, hk⟩ := decodeEnable_setting h
    rw [htarget]
    simp only [Target.offset]
    omega
  by_cases hcontext : 0x200000 ≤ addr ∧ addr < 0x400000
  · have ht : decodeAddr n write addr = decodeContext (addr - 0x200000) :=
      (if_neg hpriority).trans ((if_neg hpending).trans ((if_neg henable).trans (if_pos hcontext)))
    rw [ht] at h ⊢
    obtain ⟨k, htarget, hk⟩ := decodeContext_setting h
    rw [htarget]
    simp only [Target.offset]
    omega
  · have ht : decodeAddr n write addr = .nothing :=
      (if_neg hpriority).trans ((if_neg hpending).trans ((if_neg henable).trans (if_neg hcontext)))
    rw [ht] at h
    cases h

/-- A setting is written where it is read. -/
theorem decodeAddr_write {addr : Nat} (h : (decodeAddr n false addr).setting = true) :
    decodeAddr n true addr = decodeAddr n false addr := by
  unfold decodeAddr at h ⊢
  split
  · rfl
  · rename_i hlow
    rw [if_neg hlow] at h
    split at h
    · cases h
    · rename_i hpending
      rw [if_neg (fun hp => nomatch hp.1), if_neg hpending]

/-! ## What keeps the settings -/

/-- A context in a PLIC of which one context was written. -/
theorem context_set (self : Plic n) (priority : Vector (BitVec 32) n)
    (pending : Vector (BitVec 32) (plicInterruptWords n)) (i k : Fin plicContexts)
    (ctx : PlicContext n) (oob : Bool) :
    (Plic.mk priority pending (self.contexts.set i ctx i.isLt) oob).context k
      = if i = k then ctx else self.context k := by
  by_cases hik : i = k
  · subst hik
    simp
  · have hne : i.val ≠ k.val := fun he => hik (Fin.ext he)
    simp [hne, hik]

/-- The settings are the same. -/
structure SameSettings (a b : Plic n) : Prop where
  priority : b.priority = a.priority
  enable : ∀ k, (b.context k).enable = (a.context k).enable
  threshold : ∀ k, (b.context k).threshold = (a.context k).threshold

namespace SameSettings

variable {plic plic' plic'' : Plic n}

protected theorem refl (plic : Plic n) : SameSettings plic plic :=
  ⟨rfl, fun _ => rfl, fun _ => rfl⟩

protected theorem trans (h : SameSettings plic plic') (h' : SameSettings plic' plic'') :
    SameSettings plic plic'' :=
  ⟨h'.priority.trans h.priority, fun k => (h'.enable k).trans (h.enable k),
    fun k => (h'.threshold k).trans (h.threshold k)⟩

theorem byteOf (h : SameSettings plic plic') {t : Target} (ht : t.setting = true) :
    plic'.byteOf t = plic.byteOf t := by
  cases t with
  | priority i => rw [Plic.byteOf, Plic.byteOf, h.priority]
  | enable k i => rw [Plic.byteOf, Plic.byteOf, h.enable]
  | threshold k i => rw [Plic.byteOf, Plic.byteOf, h.threshold]
  | pending i => cases ht
  | claim k i => cases ht
  | nothing => cases ht

/-- Where no context was written. -/
theorem unwritten (hpriority : plic'.priority = plic.priority)
    (hcontexts : plic'.contexts = plic.contexts) : SameSettings plic plic' := by
  refine ⟨hpriority, ?_, ?_⟩
  · intro k
    rw [Plic.context, hcontexts]
  · intro k
    rw [Plic.context, hcontexts]

/-- A context that keeps its settings. -/
theorem context {i : Fin plicContexts} {ctx : PlicContext n}
    (hpriority : plic'.priority = plic.priority)
    (hcontexts : plic'.contexts = plic.contexts.set i ctx i.isLt)
    (henable : ctx.enable = (plic.context i).enable)
    (hthreshold : ctx.threshold = (plic.context i).threshold) : SameSettings plic plic' := by
  obtain ⟨priority, pending, contexts, oob⟩ := plic'
  obtain rfl : contexts = plic.contexts.set i ctx i.isLt := hcontexts
  refine ⟨hpriority, ?_, ?_⟩
  · intro k
    rw [context_set]
    split
    · rename_i hik
      rw [← hik, henable]
    · rfl
  · intro k
    rw [context_set]
    split
    · rename_i hik
      rw [← hik, hthreshold]
    · rfl

end SameSettings

theorem notifyContext_settings (self : Plic n) (hart : Cpu c) (best : Best)
    (i : Fin plicContexts) : SameSettings self (self.notifyContext hart best i).1 := by
  unfold notifyContext
  dsimp only
  split
  · split
    · exact .context rfl rfl rfl rfl
    · exact .context rfl rfl rfl rfl
  · split
    · exact .context rfl rfl rfl rfl
    · exact .context rfl rfl rfl rfl

theorem processInterrupts_settings (self : Plic n) (hart : Cpu c) :
    SameSettings self (self.processInterrupts hart).1 := by
  have hscan : SameSettings self (self.scanIrqs ⟨0, 0, 0#32, 0#32⟩ (List.range' 1 n)).1 := by
    rw [scanIrqs_eq]
    exact .unwritten rfl rfl
  exact hscan.trans ((notifyContext_settings _ hart _ 0).trans (notifyContext_settings _ _ _ 1))

theorem claimInterrupts_settings (self : Plic n) (hart : Cpu c)
    (context : Option (Fin plicContexts)) :
    SameSettings self (self.claimInterrupts hart context).1 := by
  cases context with
  | none => exact .refl self
  | some i =>
      refine .trans ?_ (processInterrupts_settings _ hart)
      exact .context rfl rfl rfl rfl

theorem completeInterrupts_settings (self : Plic n) (hart : Cpu c)
    (context : Option (Fin plicContexts)) (irq : BitVec 32) :
    SameSettings self (self.completeInterrupts hart context irq).1 := by
  cases context with
  | none => exact processInterrupts_settings self hart
  | some i =>
      refine .trans ?_ (processInterrupts_settings _ hart)
      split
      · exact .context rfl rfl rfl rfl
      · exact .unwritten rfl rfl

theorem plicInterrupt_settings (self : Plic n) (hart : Cpu c) (irq : Nat) :
    SameSettings self (plicInterrupt self hart irq).1 := by
  unfold plicInterrupt
  split
  · exact .refl self
  · refine .trans ?_ (processInterrupts_settings _ hart)
    exact .unwritten rfl rfl

theorem cbRead_settings (self : Plic n) (hart : Cpu c) (addr size : Nat) :
    SameSettings self (self.cbRead hart addr size).1 := by
  have hread : SameSettings self (self.readBytes none addr size).1 := by
    rw [readBytes_fst]
    exact .refl self
  exact hread.trans (claimInterrupts_settings _ hart _)

/-! ## Writes -/

/-- A byte that is written to a setting stays there. -/
theorem byteOf_writeByte (self : Plic n) (done : Completion) (addr : Nat) (b : Byte) {t : Target}
    (ht : t.setting = true) (hin : t.InBounds n) :
    (self.writeByte done addr b).1.byteOf t
      = if decodeAddr n true addr = t then b else self.byteOf t := by
  have hbound := decodeAddr_inBounds n true addr
  unfold writeByte
  -- the register that is looked at, then the one that is written
  cases t with
  | priority j =>
      cases hd : decodeAddr n true addr with
      | priority i =>
          rw [hd] at hbound
          simp only [byteOf, getArrByte_setArrByte _ hbound, Target.priority.injEq]
      | _ => rfl
  | enable k j =>
      cases hd : decodeAddr n true addr with
      | enable i a =>
          rw [hd] at hbound
          simp only [byteOf, context_set, Target.enable.injEq]
          by_cases hik : i = k
          · subst hik
            simp only [if_true, getArrByte_setArrByte _ hbound, true_and]
          · simp only [hik, false_and, if_false]
      | threshold i a =>
          simp only [byteOf, context_set, reduceCtorEq, if_false]
          split
          · rename_i hik
            rw [hik]
          · rfl
      | _ => rfl
  | threshold k j =>
      cases hd : decodeAddr n true addr with
      | enable i a =>
          simp only [byteOf, context_set, reduceCtorEq, if_false]
          split
          · rename_i hik
            rw [hik]
          · rfl
      | threshold i a =>
          have hlast : 8 * j + 8 ≤ 32 := by
            have hin : j < 4 := hin
            omega
          simp only [byteOf, context_set, Target.threshold.injEq]
          by_cases hik : i = k
          · subst hik
            simp only [if_true, getByte_setByte _ hlast, true_and]
          · simp only [hik, false_and, if_false]
      | _ => rfl
  | pending i => cases ht
  | claim k i => cases ht
  | nothing => cases ht

/-! ## Runs -/

/-- The settings hold what a memory does. -/
def Holds (self : Plic n) (mem : Nat → Byte) : Prop :=
  ∀ addr, (decodeAddr n false addr).setting = true → self.byteAt addr = mem addr

theorem Holds.congr {plic plic' : Plic n} {mem : Nat → Byte} (h : plic.Holds mem)
    (hsame : SameSettings plic plic') : plic'.Holds mem := by
  intro addr ha
  rw [← h addr ha, byteAt_eq, byteAt_eq]
  exact hsame.byteOf ha

theorem Holds.writeByte {self : Plic n} {mem : Nat → Byte} (h : self.Holds mem)
    (done : Completion) (addr : Nat) (b : Byte) :
    (self.writeByte done addr b).1.Holds (Bytes.writeAt mem addr [b]) := by
  intro a ha
  rw [byteAt_eq, byteOf_writeByte self done addr b ha (decodeAddr_inBounds n false a),
    ← byteAt_eq]
  by_cases haddr : addr = a
  · subst haddr
    rw [if_pos (decodeAddr_write ha)]
    exact (Bytes.writeAt_inside mem addr [b] (i := 0) Nat.zero_lt_one).symm
  · have hother : decodeAddr n true addr ≠ decodeAddr n false a := by
      intro hd
      apply haddr
      calc
        addr = (decodeAddr n true addr).offset := decodeAddr_offset (hd ▸ ha)
        _ = (decodeAddr n false a).offset := congrArg _ hd
        _ = a := (decodeAddr_offset ha).symm
    rw [if_neg hother, h a ha, Bytes.writeAt_outside]
    simp only [List.length_singleton]
    omega

theorem Holds.writeBytes {self : Plic n} {mem : Nat → Byte} (h : self.Holds mem)
    (done : Completion) (addr : Nat) (bs : List Byte) :
    (self.writeBytes done addr bs).1.Holds (Bytes.writeAt mem addr bs) := by
  induction bs generalizing self mem done addr with
  | nil =>
      rw [Bytes.writeAt_nil]
      exact h
  | cons b bs ih =>
      rw [← List.singleton_append, Bytes.writeAt_append]
      exact ih (h.writeByte done addr b) _ _

end Plic

/-- What was written last, at every offset. -/
def PlicOp.written (mem : Nat → Byte) : PlicOp → Nat → Byte
  | .write addr buf => Bytes.writeAt mem addr buf
  | .read _ _ => mem
  | .interrupt _ => mem

/-- One operation. -/
theorem plicStep_holds (s : Plic n × Cpu c) {mem : Nat → Byte} (h : s.1.Holds mem) (op : PlicOp) :
    (plicStep s op).1.Holds (op.written mem) := by
  cases op with
  | interrupt irq => exact h.congr (Plic.plicInterrupt_settings s.1 s.2 irq)
  | read addr size => exact h.congr (Plic.cbRead_settings s.1 s.2 addr size)
  | write addr buf =>
      exact (h.writeBytes _ addr buf).congr (Plic.completeInterrupts_settings _ s.2 _ _)

/-- Nothing is set at first. -/
theorem plicInit_holds : (plicInit n).Holds fun _ => 0#8 := by
  have hword : ∀ k i, getWord (Vector.replicate k 0#32) i = 0#32 := by
    intro k i
    unfold getWord
    by_cases hi : i < k <;> simp [hi]
  have hbyte : ∀ i, getByte 0#32 i = 0#8 := by
    intro i
    simp [getByte]
  intro addr ha
  rw [Plic.byteAt_eq]
  generalize Plic.decodeAddr n false addr = t at ha
  cases t with
  | priority i =>
      simp only [Plic.byteOf, plicInit, getArrByte]
      rw [hword, hbyte]
  | enable k i =>
      simp only [Plic.byteOf, plicInit, getArrByte, Fin.getElem_fin, Vector.getElem_replicate]
      rw [hword, hbyte]
  | threshold k i =>
      simp only [Plic.byteOf, plicInit, Fin.getElem_fin, Vector.getElem_replicate]
      exact hbyte _
  | pending i => cases ha
  | claim k i => cases ha
  | nothing => cases ha

/-- **The settings of the PLIC are a memory.** In every run from `plic_init`, with any number of
sources, each byte of a priority, an enable word or a threshold that an access of any offset and
size reads is the one written there last, or 0. -/
theorem plic_settings_read_back (hart : Cpu c) (ops : List PlicOp) (addr size : Nat) {i : Nat}
    (hi : i < size) (hsetting : (Plic.decodeAddr n false (addr + i)).setting = true) :
    let s := Run.run plicStep (plicInit n, hart) ops
    (s.1.cbRead s.2 addr size).2.2[i]? = some (ops.foldl PlicOp.written (fun _ => 0#8) (addr + i))
    := by
  have key : ∀ (ops : List PlicOp) (s : Plic n × Cpu c) (mem : Nat → Byte), s.1.Holds mem →
      (Run.run plicStep s ops).1.Holds (ops.foldl PlicOp.written mem) := by
    intro ops
    induction ops with
    | nil => exact fun _ _ h => h
    | cons op ops ih => exact fun s mem h => ih _ _ (plicStep_holds s h op)
  intro s
  have hbytes : (s.1.cbRead s.2 addr size).2.2 = Bytes.readAt s.1.byteAt addr size :=
    Plic.readBytes_bytes s.1 none addr size
  rw [hbytes, Bytes.readAt_getElem?, if_pos hi]
  exact congrArg some (key ops _ _ plicInit_holds (addr + i) hsetting)

/-- Priority 1, source 1 enabled and raised, then half of the enable word written: the context keeps
the other half. -/
theorem plic_settings_read_back_half :
    let s := Run.run plicStep (plicInit plicInterrupts, (rvInit true : Cpu .rv32))
      [.write 4 [1#8, 0#8, 0#8, 0#8], .write 0x2000 [2#8, 0#8, 7#8, 0#8], .interrupt 1,
        .read 0x200004 4, .write 0x2000 [5#8, 6#8], .write 0x200004 [1#8, 0#8, 0#8, 0#8]]
    (s.1.cbRead s.2 0x2000 4).2.2[2]? = some 7#8 :=
  plic_settings_read_back (rvInit true : Cpu .rv32) _ 0x2000 4 (by decide) (by decide)

end RV640
