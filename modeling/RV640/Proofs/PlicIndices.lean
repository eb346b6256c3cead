import RV640.Lib.Run
import RV640.Cpu.Run

set_option autoImplicit false

/-! # Array indices of the PLIC

Which operations of the PLIC index outside an array. The byte decode of the register file is
exact; the claim a context caches is 0 or 1; the id a guest completes is any 32-bit word, and
`_completeInterrupts` divides it by 4 to get a word index.
-/

namespace RV640

open Bits

variable {c : Cfg} {n : Nat}

namespace Plic

/-! ## In-range accesses leave no trace -/

@[simp] theorem touch_of_lt (self : Plic n) {i len : Nat} (h : i < len) :
    self.touch i len = self := by
  simp [touch, h]

@[simp] theorem touch_contexts (self : Plic n) (i len : Nat) :
    (self.touch i len).contexts = self.contexts := rfl

@[simp] theorem touch_oob (self : Plic n) (i len : Nat) :
    (self.touch i len).oob = (self.oob || !decide (i < len)) := rfl

/-! ## The byte decode -/

/-- The byte index a decoded address carries is inside the bytes of its array. -/
def Target.InBounds (n : Nat) : Target → Prop
  | .priority i => i < 4 * n
  | .pending i => i < 4 * plicInterruptWords n
  | .enable _ i => i < 4 * plicInterruptWords n
  | .threshold _ i => i < 4
  | .claim _ i => i < 4
  | .nothing => True

theorem decodeEnable_inBounds (n a : Nat) : (decodeEnable n a).InBounds n := by
  unfold decodeEnable
  cases contextOf (a / 0x80) with
  | none => trivial
  | some k =>
      by_cases h : a % 0x80 < 4 * plicInterruptWords n
      · simpa only [if_pos h, Target.InBounds] using h
      · simp only [if_neg h, Target.InBounds]

theorem decodeContext_inBounds (n a : Nat) : (decodeContext a).InBounds n := by
  unfold decodeContext
  cases contextOf (a / 0x1000) with
  | none => trivial
  | some k =>
      by_cases ht : a % 0x1000 < 4
      · simpa only [if_pos ht, Target.InBounds] using ht
      · by_cases hc : 4 ≤ a % 0x1000 ∧ a % 0x1000 < 4 + 4
        · simp only [if_neg ht, if_pos hc, Target.InBounds]
          omega
        · simp only [if_neg ht, if_neg hc, Target.InBounds]

theorem decodeAddr_inBounds (n : Nat) (write : Bool) (addr : Nat) :
    (decodeAddr n write addr).InBounds n := by
  unfold decodeAddr
  by_cases h1 : 4 ≤ addr ∧ addr < 4 * n + 4
  · simp only [if_pos h1, Target.InBounds]
    omega
  rw [if_neg h1]
  by_cases h2 : !write ∧ 0x1000 ≤ addr ∧ addr < 0x1000 + 4 * plicInterruptWords n
  · simp only [if_pos h2, Target.InBounds]
    omega
  rw [if_neg h2]
  by_cases h3 : 0x2000 ≤ addr ∧ addr < 0x200000
  · rw [if_pos h3]
    exact decodeEnable_inBounds n _
  rw [if_neg h3]
  by_cases h4 : 0x200000 ≤ addr ∧ addr < 0x400000
  · rw [if_pos h4]
    exact decodeContext_inBounds n _
  · rw [if_neg h4]
    trivial

/-- Reading bytes changes nothing in the device: what a read does is the claim after it. -/
theorem readByte_fst (self : Plic n) (k : Option (Fin plicContexts)) (addr : Nat) :
    (self.readByte k addr).1 = self := by
  have hb := decodeAddr_inBounds n false addr
  unfold readByte
  cases ht : decodeAddr n false addr with
  | nothing => rfl
  | priority i => rw [ht] at hb; exact touch_of_lt self hb
  | pending i => rw [ht] at hb; exact touch_of_lt self hb
  | enable k i => rw [ht] at hb; exact touch_of_lt self hb
  | threshold k i => rw [ht] at hb; exact touch_of_lt self hb
  | claim k i => rw [ht] at hb; exact touch_of_lt self hb

theorem readBytes_fst (self : Plic n) (k : Option (Fin plicContexts)) (addr size : Nat) :
    (self.readBytes k addr size).1 = self := by
  induction size generalizing k addr with
  | zero => rfl
  | succ size ih =>
      simp only [readBytes, readByte_fst]
      exact ih _ _

/-- The completion that a write of `buf` at `addr` collects, from its offset and data alone. -/
def completionOf (n : Nat) (done : Completion) (addr : Nat) : List Byte → Completion
  | [] => done
  | b :: bs =>
      let done :=
        match decodeAddr n true addr with
        | .claim k i => ⟨some k, setByte done.irq i b⟩
        | _ => done
      completionOf n done (addr + 1) bs

/-- Writing a byte records no access outside an array. -/
theorem writeByte_oob (self : Plic n) (done : Completion) (addr : Nat) (b : Byte) :
    (self.writeByte done addr b).1.oob = self.oob := by
  have hb := decodeAddr_inBounds n true addr
  unfold writeByte
  cases ht : decodeAddr n true addr with
  | nothing => rfl
  | pending i => rfl
  | priority i => rw [ht] at hb; simp [touch_of_lt self hb]
  | enable k i => rw [ht] at hb; simp [touch_of_lt self hb]
  | threshold k i => rw [ht] at hb; simp [touch_of_lt self hb]
  | claim k i => rw [ht] at hb; simp [touch_of_lt self hb]

/-- Writing a byte leaves the cached claims alone. -/
theorem writeByte_claim (self : Plic n) (done : Completion) (addr : Nat) (b : Byte)
    (j : Fin plicContexts) :
    ((self.writeByte done addr b).1.context j).claim = (self.context j).claim := by
  unfold writeByte
  cases decodeAddr n true addr with
  | nothing => rfl
  | pending i => rfl
  | priority i => rfl
  | claim k i => rfl
  | enable k i =>
      simp only [Fin.getElem_fin, Vector.getElem_set]
      split
      · rename_i h; simp [h]
      · rfl
  | threshold k i =>
      simp only [Fin.getElem_fin, Vector.getElem_set]
      split
      · rename_i h; simp [h]
      · rfl

theorem writeByte_snd (self : Plic n) (done : Completion) (addr : Nat) (b : Byte) :
    (self.writeByte done addr b).2
      = match decodeAddr n true addr with
        | .claim k i => ⟨some k, setByte done.irq i b⟩
        | _ => done := by
  unfold writeByte
  cases decodeAddr n true addr <;> rfl

/-- The loop of `_cbWrite`: no access outside an array, the claims stay, and the completion is
the one its offset and data say. -/
theorem writeBytes_spec (self : Plic n) (done : Completion) (addr : Nat) (bs : List Byte) :
    (self.writeBytes done addr bs).1.oob = self.oob
      ∧ (∀ j : Fin plicContexts,
          ((self.writeBytes done addr bs).1.context j).claim = (self.context j).claim)
      ∧ (self.writeBytes done addr bs).2 = completionOf n done addr bs := by
  induction bs generalizing self done addr with
  | nil => exact ⟨rfl, fun _ => rfl, rfl⟩
  | cons b bs ih =>
      obtain ⟨h1, h2, h3⟩ := ih (self.writeByte done addr b).1 (self.writeByte done addr b).2
        (addr + 1)
      refine ⟨?_, ?_, ?_⟩
      · exact h1.trans (writeByte_oob self done addr b)
      · intro j
        exact (h2 j).trans (writeByte_claim self done addr b j)
      · show ((self.writeByte done addr b).1.writeBytes (self.writeByte done addr b).2
          (addr + 1) bs).2 = _
        rw [h3, writeByte_snd]
        rfl

/-! ## Notification with one source -/

/-- Every context caches a claim of source 0 or 1. -/
def SmallClaims (self : Plic n) : Prop := ∀ j : Fin plicContexts, (self.context j).claim.toNat ≤ 1

@[simp] theorem plicInterruptWords_one : plicInterruptWords 1 = 1 := by decide

theorem scanIrqs_one (self : Plic 1) :
    ∃ best : Best, self.scanIrqs ⟨0, 0, 0#32, 0#32⟩ (List.range' 1 1) = (self, best)
      ∧ best.irq ≤ 1 ∧ best.irqWord = 0 := by
  have hword : self.touch (irqWord 1) (plicInterruptWords 1) = self := touch_of_lt self (by decide)
  have hprio : self.touch (1 - 1) 1 = self := touch_of_lt self (by decide)
  simp only [List.range'_one, scanIrqs, scanIrq, hword, hprio]
  split
  · split
    · exact ⟨_, rfl, Nat.le_refl 1, rfl⟩
    · exact ⟨_, rfl, Nat.zero_le 1, rfl⟩
  · exact ⟨_, rfl, Nat.zero_le 1, rfl⟩

/-- Notifying a context touches its arrays at the word of the best source. -/
theorem notifyContext_oob (self : Plic n) (hart : Cpu c) (best : Best)
    (hb : best.irqWord < plicInterruptWords n) (i : Fin plicContexts) :
    (self.notifyContext hart best i).1.oob = self.oob := by
  simp only [notifyContext, touch_of_lt self hb, ite_self]
  split <;> rfl

/-- The context that was notified caches 0 or the best source, the others keep their claim. -/
theorem notifyContext_claim (self : Plic n) (hart : Cpu c) (best : Best) (i j : Fin plicContexts) :
    ((self.notifyContext hart best i).1.context j).claim
      = if i = j then
          if accepts (self.context i) best then BitVec.ofNat 32 best.irq else 0#32
        else (self.context j).claim := by
  have hctx : (if (self.context i).threshold < best.priority then
      self.touch best.irqWord (plicInterruptWords n) else self).contexts = self.contexts := by
    split <;> rfl
  simp only [notifyContext, hctx]
  by_cases hij : i = j
  · subst hij
    split <;> simp
  · have hne : i.val ≠ j.val := fun he => hij (Fin.ext he)
    split <;> simp [hne]

/-- `_processInterrupts` with one source stays inside its arrays and caches small claims. -/
theorem processInterrupts_one (self : Plic 1) (hart : Cpu c) :
    (self.processInterrupts hart).1.oob = self.oob
      ∧ (self.processInterrupts hart).1.SmallClaims := by
  obtain ⟨best, hscan, hirq, hword⟩ := scanIrqs_one self
  unfold processInterrupts
  rw [hscan]
  have hw : best.irqWord < plicInterruptWords 1 := by rw [hword]; decide
  have hsmall : (BitVec.ofNat 32 best.irq).toNat ≤ 1 := by
    rw [BitVec.toNat_ofNat, Nat.mod_eq_of_lt (by omega)]
    exact hirq
  refine ⟨(notifyContext_oob _ _ _ hw 1).trans (notifyContext_oob _ _ _ hw 0), ?_⟩
  intro j
  have hj : j = 0 ∨ j = 1 := by
    revert j
    decide
  rw [notifyContext_claim, notifyContext_claim]
  rcases hj with rfl | rfl
  · simp only [Fin.reduceEq, if_false, if_true]
    split
    · exact hsmall
    · exact Nat.zero_le 1
  · simp only [if_true]
    split
    · exact hsmall
    · exact Nat.zero_le 1

/-- A claim of a small cached id stays inside the arrays. -/
theorem claimInterrupts_one (self : Plic 1) (hart : Cpu c) (h : self.SmallClaims)
    (k : Option (Fin plicContexts)) :
    (self.claimInterrupts hart k).1.oob = self.oob
      ∧ (self.claimInterrupts hart k).1.SmallClaims := by
  cases k with
  | none => exact ⟨rfl, h⟩
  | some i =>
      unfold claimInterrupts
      have hword : irqWord (self.context i).claim.toNat < plicInterruptWords 1 := by
        have := h i
        simp only [irqWord, plicInterruptWords_one]
        omega
      have hp := processInterrupts_one (c := c)
      refine ⟨?_, (hp _ _).2⟩
      rw [(hp _ _).1]
      simp only [touch_of_lt self hword]

/-- A completion leaves the arrays exactly when its id is 4 or more. -/
theorem completeInterrupts_one (self : Plic 1) (hart : Cpu c) (k : Option (Fin plicContexts))
    (irq : BitVec 32) :
    (self.completeInterrupts hart k irq).1.oob
        = (self.oob || (k.isSome && decide (4 ≤ irq.toNat)))
      ∧ (self.completeInterrupts hart k irq).1.SmallClaims := by
  have hp := processInterrupts_one (c := c)
  cases k with
  | none =>
      unfold completeInterrupts
      refine ⟨?_, (hp _ _).2⟩
      rw [(hp _ _).1]
      simp
  | some i =>
      unfold completeInterrupts
      refine ⟨?_, (hp _ _).2⟩
      rw [(hp _ _).1]
      have hdiv :
          (!decide (irqWord irq.toNat < plicInterruptWords 1)) = decide (4 ≤ irq.toNat) := by
        rw [← decide_not, decide_eq_decide, plicInterruptWords_one, irqWord]
        omega
      split <;> simp only [touch_oob, hdiv, Option.isSome_some, Bool.true_and]

end Plic

/-! ## Runs -/

/-- What reaches the PLIC: interrupt lines and the bus. -/
inductive PlicOp where
  | interrupt (irq : Nat)
  | read (addr size : Nat)
  | write (addr : Nat) (buf : List Byte)
  deriving DecidableEq

/-- One operation, on the PLIC and the hart it drives. -/
def plicStep (s : Plic n × Cpu c) : PlicOp → Plic n × Cpu c
  | .interrupt irq => plicInterrupt s.1 s.2 irq
  | .read addr size =>
      let (plic, hart, _) := s.1.cbRead s.2 addr size
      (plic, hart)
  | .write addr buf => s.1.cbWrite s.2 addr buf

/-- The operation is a write that completes an id from 4 on. -/
def PlicOp.largeCompletion (n : Nat) : PlicOp → Bool
  | .write addr buf =>
      let done := Plic.completionOf n ⟨none, 0#32⟩ addr buf
      done.context.isSome && decide (4 ≤ done.irq.toNat)
  | _ => false

/-- One operation: it leaves the arrays exactly when it completes a large id. -/
theorem plicStep_one (s : Plic 1 × Cpu c) (h : s.1.SmallClaims) (op : PlicOp) :
    (plicStep s op).1.oob = (s.1.oob || op.largeCompletion 1)
      ∧ (plicStep s op).1.SmallClaims := by
  obtain ⟨plic, hart⟩ := s
  cases op with
  | interrupt irq =>
      simp only [plicStep, plicInterrupt, PlicOp.largeCompletion, Bool.or_false]
      split
      · exact ⟨rfl, h⟩
      · rename_i hirq
        have hone : irq = 1 := by omega
        subst hone
        refine ⟨?_, (Plic.processInterrupts_one _ _).2⟩
        rw [(Plic.processInterrupts_one _ _).1]
        simp [Plic.irqWord]
  | read addr size =>
      have hr := Plic.readBytes_fst plic none addr size
      have hc := Plic.claimInterrupts_one plic hart h (plic.readBytes none addr size).2.1
      simp only [plicStep, Plic.cbRead, hr, PlicOp.largeCompletion, Bool.or_false]
      exact hc
  | write addr buf =>
      obtain ⟨hoob, -, hdone⟩ := Plic.writeBytes_spec plic ⟨none, 0#32⟩ addr buf
      have hc := Plic.completeInterrupts_one (plic.writeBytes ⟨none, 0#32⟩ addr buf).1 hart
        (plic.writeBytes ⟨none, 0#32⟩ addr buf).2.context
        (plic.writeBytes ⟨none, 0#32⟩ addr buf).2.irq
      rw [hoob, hdone] at hc
      simp only [plicStep, Plic.cbWrite, hdone]
      exact hc

/-- **Array indices of the PLIC, over whole runs.** From `plic_init`, every index the PLIC
computes in a run is inside its array exactly when no write of the run completes an id from 4
on. -/
theorem plic_indices_iff (hart : Cpu c) (ops : List PlicOp) :
    (Run.run plicStep (plicInit plicInterrupts, hart) ops).1.oob = false ↔
      ∀ op ∈ ops, op.largeCompletion plicInterrupts = false := by
  have key : ∀ (ops : List PlicOp) (s : Plic 1 × Cpu c), s.1.SmallClaims →
      ((Run.run plicStep s ops).1.oob = false ↔
        s.1.oob = false ∧ ∀ op ∈ ops, op.largeCompletion 1 = false) := by
    intro ops
    induction ops with
    | nil => intro s _; simp
    | cons op ops ih =>
        intro s hs
        obtain ⟨hoob, hsmall⟩ := plicStep_one s hs op
        rw [Run.run_cons, ih _ hsmall, hoob]
        simp [and_assoc]
  have hinit : (plicInit 1).SmallClaims := by
    intro j
    simp [plicInit]
  rw [key ops (plicInit 1, hart) hinit]
  exact and_iff_right rfl

/-- Completing id 4 for the M context indexes word 1 of a one-word array. -/
theorem plic_complete_four_out_of_bounds :
    (Run.run plicStep (plicInit plicInterrupts, (rvInit true : Cpu .rv32))
      [.write 0x200004 [4#8, 0#8, 0#8, 0#8]]).1.oob = true := by
  decide

end RV640
