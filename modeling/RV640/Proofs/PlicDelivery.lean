import RV640.Lib.Bytes
import RV640.Proofs.QuietRead

set_option autoImplicit false

/-! # Delivery of interrupts by the PLIC

The PLIC as `main` configures it has one source and two contexts. `Plic.offers k` is the condition
under which the source is delivered to context `k`: pending, enabled, above the threshold, and not
in service for `k` already. The registers cache it (the claim of a context, a pending bit of the
hart) and `_processInterrupts` recomputes it. This file says what each operation does to the
pending bit and to the bits of the sources in service, and derives what a run of them delivers.
-/

namespace RV640

open Bits

variable {c : Cfg} {n : Nat}

/-! ## Bits of a source -/

/-- The bit of source `i` in an array of words. -/
def sourceBit {k : Nat} (arr : Vector (BitVec 32) k) (i : Nat) : Bool :=
  (getWord arr (Plic.irqWord i)).getLsbD (i % 4)

theorem getWord_setWord {k : Nat} (arr : Vector (BitVec 32) k) (i j : Nat) (x : BitVec 32) :
    getWord (setWord arr i x) j = if i = j ∧ i < k then x else getWord arr j := by
  unfold getWord setWord
  by_cases hij : i = j
  · subst hij
    by_cases hi : i < k
    · simp [hi]
    · simp [hi, Vector.setIfInBounds_eq_of_size_le (Nat.le_of_not_lt hi)]
  · simp [hij]

/-- In one word the bit tells the source. -/
theorem mod_eq_iff_of_irqWord {i j : Nat} (hw : Plic.irqWord i = Plic.irqWord j) :
    j % 4 = i % 4 ↔ j = i := by
  simp only [Plic.irqWord] at hw
  omega

/-- Setting the bit of a source. -/
theorem sourceBit_set {k : Nat} (arr : Vector (BitVec 32) k) (i j : Nat)
    (hi : Plic.irqWord i < k) :
    sourceBit (setWord arr (Plic.irqWord i)
        (getWord arr (Plic.irqWord i) ||| Plic.irqMask i)) j
      = (sourceBit arr j || decide (j = i)) := by
  unfold sourceBit
  rw [getWord_setWord]
  by_cases hw : Plic.irqWord i = Plic.irqWord j
  · have hij := mod_eq_iff_of_irqWord hw
    have h32 : j % 4 < 32 := by omega
    rw [if_pos ⟨hw, hi⟩, BitVec.getLsbD_or, Plic.irqMask, getLsbD_bit, hw]
    simp [hij, h32]
  · have hij : j ≠ i := fun he => hw (by rw [he])
    rw [if_neg fun h => hw h.1]
    simp [hij]

/-- Clearing the bit of a source. -/
theorem sourceBit_clear {k : Nat} (arr : Vector (BitVec 32) k) (i j : Nat) :
    sourceBit (setWord arr (Plic.irqWord i)
        (getWord arr (Plic.irqWord i) &&& ~~~Plic.irqMask i)) j
      = (sourceBit arr j && !decide (j = i)) := by
  unfold sourceBit
  rw [getWord_setWord]
  by_cases hw : Plic.irqWord i = Plic.irqWord j
  · have hij := mod_eq_iff_of_irqWord hw
    have h32 : j % 4 < 32 := by omega
    by_cases hk : Plic.irqWord i < k
    · rw [if_pos ⟨hw, hk⟩, BitVec.getLsbD_and, BitVec.getLsbD_not, Plic.irqMask, getLsbD_bit, hw]
      simp [hij, h32]
    · -- outside the array there is nothing to clear
      have hzero : getWord arr (Plic.irqWord j) = 0#32 :=
        getWord_of_le arr (by omega)
      rw [if_neg fun h => hk h.2, hzero]
      simp
  · have hij : j ≠ i := fun he => hw (by rw [he])
    rw [if_neg fun h => hw h.1]
    simp [hij]

namespace Plic

/-- Source 1 is pending. -/
def isPending (self : Plic 1) : Bool := sourceBit self.pending 1

/-- Source 1 is enabled for context `k`. -/
def isEnabled (self : Plic 1) (k : Fin plicContexts) : Bool :=
  sourceBit (self.context k).enable 1

/-- Source 1 is above the threshold of context `k`. -/
def aboveThreshold (self : Plic 1) (k : Fin plicContexts) : Bool :=
  decide ((self.context k).threshold < getWord self.priority 0)

/-- Source 1 is recorded as claimed by context `k`. -/
def inService (self : Plic 1) (k : Fin plicContexts) : Bool :=
  sourceBit (self.context k).pendingClaims 1

/-- Source 1 is to be delivered to context `k`. -/
def offers (self : Plic 1) (k : Fin plicContexts) : Bool :=
  self.isPending && self.isEnabled k && self.aboveThreshold k && !self.inService k

/-! ## What `_processInterrupts` computes -/

/-- With one source the first loop finds it when it is pending and its priority is not 0. -/
theorem best_eq (self : Plic 1) :
    self.best = if self.isPending && decide (0#32 < getWord self.priority 0) then
      ⟨1, irqWord 1, irqMask 1, getWord self.priority 0⟩ else ⟨0, 0, 0#32, 0#32⟩ := by
  have hpend : (getWord self.pending (irqWord 1) &&& irqMask 1 != 0#32) = self.isPending := by
    rw [irqMask, and_bit_bne_zero]
    rfl
  have hword : self.touch (irqWord 1) (plicInterruptWords 1) = self := touch_of_lt self (by decide)
  have hprio : self.touch (1 - 1) 1 = self := touch_of_lt self (by decide)
  simp only [best, List.range'_one, scanIrqs, scanIrq, hword, hprio, hpend]
  cases self.isPending with
  | false => rfl
  | true =>
      by_cases h0 : 0#32 < getWord self.priority 0
      · simp [h0]
      · simp [h0]

/-- The test of `_processInterrupts` is the delivery condition. -/
theorem accepts_best (self : Plic 1) (k : Fin plicContexts) :
    accepts (self.context k) self.best = self.offers k := by
  rw [best_eq]
  by_cases hfound : (self.isPending && decide (0#32 < getWord self.priority 0)) = true
  · have hp : self.isPending = true := (Bool.and_eq_true _ _ ▸ hfound).1
    rw [if_pos hfound]
    simp only [accepts, irqMask, and_bit_bne_zero, and_bit_beq_zero, offers, hp, isEnabled,
      aboveThreshold, inService, sourceBit, Bool.true_and]
    rw [Bool.and_comm, ← Bool.and_assoc]
  · -- nothing is found: a priority of 0 is above no threshold
    have hnot : ¬(self.context k).threshold < 0#32 := BitVec.not_lt_zero
    have hnone : self.isPending = true → self.aboveThreshold k = false := by
      intro hp
      have hprio : ¬0#32 < getWord self.priority 0 := by simpa [hp] using hfound
      simp only [aboveThreshold, decide_eq_false_iff_not, BitVec.lt_def, BitVec.toNat_ofNat] at *
      omega
    rw [if_neg hfound]
    simp only [accepts, hnot, decide_false, Bool.false_and, offers]
    by_cases hp : self.isPending = true
    · rw [hnone hp]
      simp
    · simp [hp]

/-- The claims and the pending bits of the hart are those of the delivery condition. -/
structure Current (plic : Plic 1) (hart : Cpu c) : Prop where
  claim : ∀ k, (plic.context k).claim = if plic.offers k then 1#32 else 0#32
  pending : ∀ k : Fin plicContexts,
    hart.csr.mip.getLsbD (contextCause k).toNat = plic.offers k

/-- The claims a PLIC caches play no part in the delivery condition. -/
def SameSources (plic plic' : Plic 1) : Prop :=
  plic'.pending = plic.pending ∧ plic'.priority = plic.priority
    ∧ ∀ k : Fin plicContexts, (plic'.context k).enable = (plic.context k).enable
        ∧ (plic'.context k).threshold = (plic.context k).threshold
        ∧ (plic'.context k).pendingClaims = (plic.context k).pendingClaims

namespace SameSources

variable {a b : Plic 1}

protected theorem trans {d : Plic 1} (h : SameSources a b) (h' : SameSources b d) :
    SameSources a d := by
  refine ⟨h'.1.trans h.1, h'.2.1.trans h.2.1, ?_⟩
  intro k
  obtain ⟨h1, h2, h3⟩ := h.2.2 k
  obtain ⟨h1', h2', h3'⟩ := h'.2.2 k
  exact ⟨h1'.trans h1, h2'.trans h2, h3'.trans h3⟩

theorem isPending (h : SameSources a b) : b.isPending = a.isPending := by
  simp only [Plic.isPending, h.1]

theorem inService (h : SameSources a b) (k : Fin plicContexts) :
    b.inService k = a.inService k := by
  simp only [Plic.inService, (h.2.2 k).2.2]

theorem offers (h : SameSources a b) (k : Fin plicContexts) : b.offers k = a.offers k := by
  obtain ⟨he, ht, -⟩ := h.2.2 k
  simp only [Plic.offers, h.isPending, h.inService k, isEnabled, aboveThreshold, he, ht, h.2.1]

end SameSources

theorem notifyContext_sameSources (self : Plic 1) (hart : Cpu c) (best : Best)
    (hb : best.irqWord < plicInterruptWords 1) (i : Fin plicContexts) :
    SameSources self (self.notifyContext hart best i).1 := by
  rw [notifyContext_eq self hart best hb]
  refine ⟨rfl, rfl, ?_⟩
  intro k
  by_cases hik : i = k
  · subst hik
    simp
  · have hne : i.val ≠ k.val := fun he => hik (Fin.ext he)
    simp [hne]

/-- `_processInterrupts` changes no source and leaves everything up to date. -/
theorem processInterrupts_spec (self : Plic 1) (hart : Cpu c) :
    SameSources self (self.processInterrupts hart).1
      ∧ Current (self.processInterrupts hart).1 (self.processInterrupts hart).2 := by
  have hb := best_one self
  rw [processInterrupts_one_eq]
  generalize hs0 : self.notifyContext hart self.best 0 = s0
  have hsame0 : SameSources self s0.1 := by
    rw [← hs0]
    exact notifyContext_sameSources self hart self.best hb 0
  have hsame := hsame0.trans (notifyContext_sameSources s0.1 s0.2 self.best hb 1)
  -- the second context is as it was when its turn comes
  have hctx1 : s0.1.context 1 = self.context 1 := by
    rw [← hs0]
    exact notifyContext_contexts_ne self hart self.best hb (by decide)
  have hirq : ∀ b : Bool, (BitVec.ofNat 32 self.best.irq = 1#32 ∨ b = false) →
      (if b then BitVec.ofNat 32 self.best.irq else 0#32) = if b then 1#32 else 0#32 := by
    intro b hb
    cases b with
    | false => rfl
    | true => simpa using hb
  have hone : ∀ k, BitVec.ofNat 32 self.best.irq = 1#32 ∨ self.offers k = false := by
    intro k
    rw [← accepts_best, best_eq]
    split
    · exact Or.inl rfl
    · right
      simp [accepts, BitVec.not_lt_zero]
  refine ⟨hsame, ?_, ?_⟩
  · intro k
    rw [hsame.offers k]
    obtain rfl | rfl := context_cases k
    · rw [notifyContext_claim, if_neg (by decide), ← hs0, notifyContext_claim, if_pos rfl,
        accepts_best]
      exact hirq _ (hone 0)
    · rw [notifyContext_claim, if_pos rfl, hctx1, accepts_best]
      exact hirq _ (hone 1)
  · intro k
    rw [hsame.offers k]
    obtain rfl | rfl := context_cases k
    · have h0 := notifyContext_pending self hart self.best hb 0
      rw [hs0, accepts_best] at h0
      rw [← h0, notifyContext_eq s0.1 s0.2 self.best hb]
      split
      · exact (rvSetInterrupt_frame s0.2 _).pending _ (by decide)
      · exact (rvClearInterrupt_frame s0.2 _).pending _ (by decide)
    · rw [notifyContext_pending s0.1 s0.2 self.best hb 1, hctx1, accepts_best]

/-! ## Raising, claiming and completing -/

/-- `plic_interrupt(1)` makes the source pending. -/
theorem plicInterrupt_spec (self : Plic 1) (hart : Cpu c) :
    (plicInterrupt self hart 1).1.isPending = true
      ∧ (∀ k, (plicInterrupt self hart 1).1.inService k = self.inService k)
      ∧ Current (plicInterrupt self hart 1).1 (plicInterrupt self hart 1).2 := by
  have hword : self.touch (irqWord 1) (plicInterruptWords 1) = self := touch_of_lt self (by decide)
  simp only [plicInterrupt, Nat.one_ne_zero, Nat.lt_irrefl, or_self, if_false, hword]
  obtain ⟨hsame, hcur⟩ := processInterrupts_spec (c := c)
    { self with
      pending := setWord self.pending (irqWord 1)
        (getWord self.pending (irqWord 1) ||| irqMask 1) } hart
  refine ⟨?_, fun k => hsame.inService k, hcur⟩
  rw [hsame.isPending]
  simp only [isPending, sourceBit_set _ 1 1 (by decide : irqWord 1 < plicInterruptWords 1),
    decide_true, Bool.or_true]

/-- A claim of context `i` moves the source from pending to in service when the context had
cached it, and else leaves it where it was. -/
theorem claimInterrupts_spec (self : Plic 1) (hart : Cpu c) (i : Fin plicContexts)
    (hclaim : (self.context i).claim = 0#32 ∨ (self.context i).claim = 1#32) :
    (self.claimInterrupts hart (some i)).1.isPending
        = (self.isPending && !decide ((self.context i).claim = 1#32))
      ∧ (∀ k, (self.claimInterrupts hart (some i)).1.inService k
        = (self.inService k || decide (k = i ∧ (self.context i).claim = 1#32)))
      ∧ Current (self.claimInterrupts hart (some i)).1 (self.claimInterrupts hart (some i)).2 := by
  obtain ⟨hsame, hcur⟩ := processInterrupts_spec (self.claimed i) hart
  have hone : (1 = (self.context i).claim.toNat) ↔ (self.context i).claim = 1#32 := by
    rcases hclaim with h | h
    · rw [h]
      decide
    · rw [h]
      decide
  have hword : irqWord (self.context i).claim.toNat < plicInterruptWords 1 := by
    rcases hclaim with h | h
    · rw [h]
      decide
    · rw [h]
      decide
  rw [claimInterrupts_some]
  refine ⟨?_, ?_, hcur⟩
  · rw [hsame.isPending]
    simp only [isPending, claimed, sourceBit_clear, hone]
  · intro k
    rw [hsame.inService]
    by_cases hik : i = k
    · subst hik
      simp only [inService, claimed, Fin.getElem_fin, Vector.getElem_set_self, true_and]
      rw [← Fin.getElem_fin, sourceBit_set _ _ _ hword, decide_eq_decide.mpr hone]
    · have hne : i.val ≠ k.val := fun he => hik (Fin.ext he)
      simp [inService, claimed, hne, Ne.symm hik]

/-- A completion clears the source when its id is 1 and it is enabled for the context. -/
theorem completeInterrupts_spec (self : Plic 1) (hart : Cpu c) (done : Completion) :
    (self.completeInterrupts hart done.context done.irq).1.isPending = self.isPending
      ∧ (∀ k, (self.completeInterrupts hart done.context done.irq).1.inService k
        = (self.inService k && !decide (done = ⟨some k, 1#32⟩ ∧ self.isEnabled k = true)))
      ∧ Current (self.completeInterrupts hart done.context done.irq).1
        (self.completeInterrupts hart done.context done.irq).2 := by
  obtain ⟨context, irq⟩ := done
  cases context with
  | none =>
      obtain ⟨hsame, hcur⟩ := processInterrupts_spec self hart
      refine ⟨hsame.isPending, ?_, hcur⟩
      intro k
      simpa [completeInterrupts] using hsame.inService k
  | some i =>
      simp only [completeInterrupts, irqMask, and_bit_bne_zero, touch_contexts]
      by_cases hen : (getWord (self.context i).enable (irqWord irq.toNat)).getLsbD
          (irq.toNat % 4) = true
      · rw [if_pos hen]
        obtain ⟨hsame, hcur⟩ := processInterrupts_spec (c := c)
          { self.touch (irqWord irq.toNat) (plicInterruptWords 1) with
            contexts := self.contexts.set i
              { self.context i with
                pendingClaims := setWord (self.context i).pendingClaims (irqWord irq.toNat)
                  (getWord (self.context i).pendingClaims (irqWord irq.toNat)
                    &&& ~~~irqMask irq.toNat) } } hart
        refine ⟨hsame.isPending, ?_, hcur⟩
        intro k
        refine (hsame.inService k).trans ?_
        by_cases hik : i = k
        · subst hik
          have hdone : ((⟨some i, irq⟩ : Completion) = ⟨some i, 1#32⟩ ∧ self.isEnabled i = true)
              ↔ 1 = irq.toNat := by
            constructor
            · rintro ⟨heq, -⟩
              rw [(Completion.mk.injEq ..).mp heq |>.2]
              decide
            · intro h1
              have hirq : irq = 1#32 := BitVec.eq_of_toNat_eq h1.symm
              subst hirq
              exact ⟨rfl, hen⟩
          simp only [inService, Fin.getElem_fin, Vector.getElem_set_self]
          rw [← Fin.getElem_fin, sourceBit_clear, decide_eq_decide.mpr hdone.symm]
        · have hne : i.val ≠ k.val := fun he => hik (Fin.ext he)
          simp [inService, hne, hik]
      · rw [if_neg hen]
        obtain ⟨hsame, hcur⟩ :=
          processInterrupts_spec (self.touch (irqWord irq.toNat) (plicInterruptWords 1)) hart
        refine ⟨hsame.isPending, ?_, hcur⟩
        intro k
        refine (hsame.inService k).trans ?_
        have hnot : ¬((⟨some i, irq⟩ : Completion) = ⟨some k, 1#32⟩ ∧ self.isEnabled k = true) := by
          rintro ⟨heq, hk⟩
          simp only [Completion.mk.injEq, Option.some.injEq] at heq
          obtain ⟨rfl, rfl⟩ := heq
          exact hen hk
        rw [decide_eq_false hnot, Bool.not_false, Bool.and_true]
        rfl

/-! ## Register accesses -/

/-- The bytes of a write change neither the pending words nor the sources in service. -/
theorem writeByte_sources (self : Plic n) (done : Completion) (addr : Nat) (b : Byte)
    (k : Fin plicContexts) :
    (self.writeByte done addr b).1.pending = self.pending
      ∧ ((self.writeByte done addr b).1.context k).pendingClaims
        = (self.context k).pendingClaims := by
  unfold writeByte
  cases decodeAddr n true addr with
  | nothing => exact ⟨rfl, rfl⟩
  | pending i => exact ⟨rfl, rfl⟩
  | priority i => exact ⟨rfl, rfl⟩
  | claim j i => exact ⟨rfl, rfl⟩
  | enable j i =>
      refine ⟨rfl, ?_⟩
      simp only [Fin.getElem_fin, Vector.getElem_set]
      split
      · rename_i h
        simp [h]
      · rfl
  | threshold j i =>
      refine ⟨rfl, ?_⟩
      simp only [Fin.getElem_fin, Vector.getElem_set]
      split
      · rename_i h
        simp [h]
      · rfl

theorem writeBytes_sources (self : Plic n) (done : Completion) (addr : Nat) (bs : List Byte)
    (k : Fin plicContexts) :
    (self.writeBytes done addr bs).1.pending = self.pending
      ∧ ((self.writeBytes done addr bs).1.context k).pendingClaims
        = (self.context k).pendingClaims := by
  induction bs generalizing self done addr with
  | nil => exact ⟨rfl, rfl⟩
  | cons b bs ih =>
      obtain ⟨hp, hs⟩ := writeByte_sources self done addr b k
      obtain ⟨hp', hs'⟩ := ih (self.writeByte done addr b).1 (self.writeByte done addr b).2
        (addr + 1)
      exact ⟨hp'.trans hp, hs'.trans hs⟩

/-- The byte a read finds at an offset. -/
def byteAt (self : Plic n) (addr : Nat) : Byte := (self.readByte none addr).2.2

theorem readByte_byte (self : Plic n) (k : Option (Fin plicContexts)) (addr : Nat) :
    (self.readByte k addr).2.2 = self.byteAt addr := by
  unfold byteAt readByte
  cases decodeAddr n false addr <;> rfl

theorem readBytes_bytes (self : Plic n) (k : Option (Fin plicContexts)) (addr size : Nat) :
    (self.readBytes k addr size).2.2 = Bytes.readAt self.byteAt addr size := by
  induction size generalizing k addr with
  | zero => rfl
  | succ size ih =>
      have hone : Bytes.readAt self.byteAt addr 1 = [self.byteAt addr] := rfl
      rw [Nat.add_comm size 1, Bytes.readAt_add, hone, ← ih]
      · simp only [Nat.add_comm 1 size, readBytes, readByte_fst, readByte_byte]
        rfl

/-- The offset of the claim register of a context. -/
def claimReg (k : Fin plicContexts) : Nat := 0x200004 + 0x1000 * k

theorem contextOf_eq_some_iff (a : Nat) (k : Fin plicContexts) :
    contextOf a = some k ↔ a = k.val := by
  unfold contextOf
  by_cases ha : a < plicContexts
  · rw [dif_pos ha, Option.some.injEq, Fin.ext_iff]
  · have hk := k.isLt
    rw [dif_neg ha]
    simp only [reduceCtorEq, false_iff]
    rintro rfl
    exact ha hk

theorem decodeContext_claim_iff (a : Nat) (k : Fin plicContexts) (i : Nat) :
    decodeContext a = .claim k i ↔ a = 0x1000 * k + 4 + i ∧ i < 4 := by
  constructor
  · intro h
    unfold decodeContext at h
    cases hctx : contextOf (a / 0x1000) with
    | none =>
        rw [hctx] at h
        cases h
    | some j =>
        have hj := (contextOf_eq_some_iff _ _).mp hctx
        simp only [hctx] at h
        split at h
        · cases h
        · split at h
          · rename_i hlow hhigh
            simp only [Target.claim.injEq] at h
            obtain ⟨rfl, rfl⟩ := h
            omega
          · cases h
  · rintro ⟨rfl, hi⟩
    have hdiv : (0x1000 * k.val + 4 + i) / 0x1000 = k.val := by omega
    have hmod : (0x1000 * k.val + 4 + i) % 0x1000 = 4 + i := by omega
    have hctx := (contextOf_eq_some_iff ((0x1000 * k.val + 4 + i) / 0x1000) k).mpr hdiv
    simp only [decodeContext, hctx, hmod]
    rw [if_neg (by omega), if_pos (by omega), Nat.add_sub_cancel_left]

theorem decodeEnable_ne_claim (a : Nat) (k : Fin plicContexts) (i : Nat) :
    decodeEnable n a ≠ .claim k i := by
  unfold decodeEnable
  split
  · split <;> simp
  · simp

/-- The bytes that decode to a claim register are those at its offset. -/
theorem decodeAddr_claim_iff (addr : Nat) (k : Fin plicContexts) (i : Nat) :
    decodeAddr 1 false addr = .claim k i ↔ addr = claimReg k + i ∧ i < 4 := by
  have hk : k.val < 2 := k.isLt
  by_cases hrange : 0x200000 ≤ addr ∧ addr < 0x400000
  · have hctx : decodeAddr 1 false addr = decodeContext (addr - 0x200000) := by
      unfold decodeAddr
      rw [if_neg (by omega), if_neg (by simp only [plicInterruptWords_one]; omega),
        if_neg (by omega), if_pos hrange]
    rw [hctx, decodeContext_claim_iff, claimReg]
    omega
  · constructor
    · intro h
      unfold decodeAddr at h
      rw [if_neg hrange] at h
      split at h
      · cases h
      split at h
      · cases h
      split at h
      · exact absurd h (decodeEnable_ne_claim _ _ _)
      · cases h
    · rintro ⟨rfl, hi⟩
      simp only [claimReg] at hrange
      omega

/-- An aligned read of one or two words that claims covers the claim register. -/
theorem claimContextOf_some {addr size : Nat} (ha : 4 ∣ addr) (hs : 4 ∣ size)
    {k : Option (Fin plicContexts)} {j : Fin plicContexts}
    (h : claimContextOf 1 k addr size = some j) :
    k = some j ∨ addr ≤ claimReg j ∧ claimReg j + 4 ≤ addr + size := by
  have key : ∀ (size addr : Nat) (k : Option (Fin plicContexts)),
      claimContextOf 1 k addr size = some j →
        k = some j ∨ ∃ i < size, ∃ b, decodeAddr 1 false (addr + i) = .claim j b := by
    intro size
    induction size with
    | zero =>
        intro addr k h
        exact Or.inl h
    | succ size ih =>
        intro addr k h
        rcases ih (addr + 1) _ h with hk | ⟨i, hi, b, hb⟩
        · split at hk
          · rename_i j' b hdec
            obtain rfl := Option.some.inj hk
            exact Or.inr ⟨0, by omega, b, hdec⟩
          · exact Or.inl hk
        · refine Or.inr ⟨i + 1, by omega, b, ?_⟩
          rw [← hb]
          congr 1
          omega
  rcases key size addr k h with hk | ⟨i, hi, b, hb⟩
  · exact Or.inl hk
  · obtain ⟨heq, hb4⟩ := (decodeAddr_claim_iff _ _ _).mp hb
    right
    simp only [claimReg] at *
    omega

/-- The claim an access makes and the id it returns: the word read at the claim register. -/
def claimOf (self : Plic n) (hart : Cpu c) : PlicOp → Option (Fin plicContexts × BitVec 32)
  | .read addr size =>
      (claimContextOf n none addr size).map fun k =>
        (k, ofBytes (((self.cbRead hart addr size).2.2.drop (claimReg k - addr)).take 4))
  | _ => none

/-- A claim returns the id the context has cached. -/
theorem claimOf_read (self : Plic 1) (hart : Cpu c) {addr size : Nat} (ha : 4 ∣ addr)
    (hs : 4 ∣ size)
    (hclaim : ∀ k, (self.context k).claim = 0#32 ∨ (self.context k).claim = 1#32) :
    self.claimOf hart (.read addr size)
      = (claimContextOf 1 none addr size).map fun k => (k, (self.context k).claim) := by
  simp only [claimOf]
  cases hk : claimContextOf 1 none addr size with
  | none => rfl
  | some k =>
      obtain hnone | ⟨hlo, hhi⟩ := claimContextOf_some ha hs hk
      · cases hnone
      have hbyte : ∀ i, i < 4 →
          self.byteAt (claimReg k + i) = getByte (self.context k).claim i := by
        intro i hi
        simp only [byteAt, readByte, (decodeAddr_claim_iff _ k i).mpr ⟨rfl, hi⟩]
      have hword : ((self.cbRead hart addr size).2.2.drop (claimReg k - addr)).take 4
          = Bytes.readAt (getByte (self.context k).claim) 0 4 := by
        have hsplit : size = claimReg k - addr + (4 + (size - (claimReg k - addr) - 4)) := by omega
        have hbytes : (self.cbRead hart addr size).2.2 = Bytes.readAt self.byteAt addr size :=
          readBytes_bytes self none addr size
        rw [hbytes, hsplit, Bytes.readAt_add, List.drop_left' (Bytes.readAt_length _ _ _),
          Bytes.readAt_add, List.take_left' (Bytes.readAt_length _ _ _)]
        apply Bytes.readAt_congr
        intro i hi
        rw [Nat.add_sub_of_le hlo, hbyte i hi, Nat.zero_add]
      have hvalue : ofBytes (Bytes.readAt (getByte (self.context k).claim) 0 4)
          = (self.context k).claim := by
        rcases hclaim k with h | h
        · rw [h]
          decide
        · rw [h]
          decide
      rw [Option.map_some, Option.map_some, hword, hvalue]

end Plic

/-! ## Runs -/

/-- Interrupts raised at the line, and reads and writes of one or two aligned words that complete
no id but 0 and 1. -/
def PlicOp.Aligned : PlicOp → Prop
  | .interrupt irq => irq = 1
  | .read addr size => 4 ∣ addr ∧ (size = 4 ∨ size = 8)
  | .write addr buf =>
      4 ∣ addr ∧ (buf.length = 4 ∨ buf.length = 8)
        ∧ ((Plic.completionOf 1 ⟨none, 0#32⟩ addr buf).context.isSome = true →
            (Plic.completionOf 1 ⟨none, 0#32⟩ addr buf).irq.toNat ≤ 1)

instance (op : PlicOp) : Decidable op.Aligned := by
  cases op <;> unfold PlicOp.Aligned <;> infer_instance

/-- What a run did at the PLIC, told by the accesses and the values they returned: how often the
line was raised, how many claims returned 1, and the contexts whose claim of 1 has no accepted
completion yet. -/
structure Ledger where
  raised : Nat
  delivered : Nat
  inService : Fin plicContexts → Bool

namespace Ledger

/-- Nothing happened yet. -/
def init : Ledger := ⟨0, 0, fun _ => false⟩

/-- The entry of a claim by `k` that returns `id`. -/
def claim (log : Ledger) (k : Fin plicContexts) (id : BitVec 32) : Ledger :=
  if id = 1#32 then
    { log with
      delivered := log.delivered + 1
      inService := Function.update log.inService k true }
  else log

/-- The entry of a completion. The PLIC accepts it from a context for which the source is
enabled. -/
def complete (log : Ledger) (plic : Plic 1) (done : Plic.Completion) : Ledger :=
  match done.context with
  | none => log
  | some k =>
      if done.irq = 1#32 ∧ plic.isEnabled k = true then
        { log with inService := Function.update log.inService k false }
      else log

/-- The entry of an operation made in state `s`. -/
def record (log : Ledger) (s : Plic 1 × Cpu c) : PlicOp → Ledger
  | .interrupt _ => { log with raised := log.raised + 1 }
  | .read addr size =>
      match s.1.claimOf s.2 (.read addr size) with
      | some (k, id) => log.claim k id
      | none => log
  | .write addr buf =>
      let (plic, done) := s.1.writeBytes ⟨none, 0#32⟩ addr buf
      log.complete plic done

end Ledger

/-- An operation on the PLIC and its entry in the ledger. -/
def plicRecord (s : (Plic 1 × Cpu c) × Ledger) (op : PlicOp) : (Plic 1 × Cpu c) × Ledger :=
  (plicStep s.1 op, s.2.record s.1 op)

/-- The condition of delivery to context `k`, with the source in service as the ledger says. -/
def Deliverable (plic : Plic 1) (log : Ledger) (k : Fin plicContexts) : Prop :=
  plic.isPending = true ∧ plic.isEnabled k = true ∧ plic.aboveThreshold k = true
    ∧ log.inService k = false

instance (plic : Plic 1) (log : Ledger) (k : Fin plicContexts) :
    Decidable (Deliverable plic log k) := inferInstanceAs (Decidable (_ ∧ _ ∧ _ ∧ _))

/-- The PLIC agrees with the ledger, and every context caches what it is offered. -/
structure Booked (s : (Plic 1 × Cpu c) × Ledger) : Prop where
  claim : ∀ k, (s.1.1.context k).claim = if s.1.1.offers k then 1#32 else 0#32
  service : ∀ k, s.1.1.inService k = s.2.inService k
  count : s.2.delivered + (if s.1.1.isPending then 1 else 0) ≤ s.2.raised

namespace Booked

variable {s : (Plic 1 × Cpu c) × Ledger}

theorem offers_iff (h : Booked s) (k : Fin plicContexts) :
    s.1.1.offers k = true ↔ Deliverable s.1.1 s.2 k := by
  simp only [Plic.offers, Deliverable, Bool.and_eq_true, Bool.not_eq_true', h.service k, and_assoc]

theorem claim_cases (h : Booked s) (k : Fin plicContexts) :
    (s.1.1.context k).claim = 0#32 ∨ (s.1.1.context k).claim = 1#32 := by
  rw [h.claim k]
  split
  · exact Or.inr rfl
  · exact Or.inl rfl

/-- A claim returns 1 when the source is deliverable and 0 otherwise. -/
theorem claim_value (h : Booked s) {op : PlicOp} (hop : op.Aligned) {k : Fin plicContexts}
    {id : BitVec 32} (hclaim : s.1.1.claimOf s.1.2 op = some (k, id)) :
    id = (s.1.1.context k).claim ∧ id = if Deliverable s.1.1 s.2 k then 1#32 else 0#32 := by
  cases op with
  | interrupt irq => cases hclaim
  | write addr buf => cases hclaim
  | read addr size =>
      obtain ⟨ha, hs⟩ := hop
      rw [Plic.claimOf_read s.1.1 s.1.2 ha (by omega) h.claim_cases,
        Option.map_eq_some_iff] at hclaim
      obtain ⟨j, -, heq⟩ := hclaim
      simp only [Prod.mk.injEq] at heq
      obtain ⟨rfl, rfl⟩ := heq
      refine ⟨rfl, ?_⟩
      rw [h.claim j]
      simp only [h.offers_iff j]

end Booked

/-- The operation makes `_processInterrupts` run: it is not a read that claims nothing. -/
def PlicOp.notifies (n : Nat) : PlicOp → Bool
  | .read addr size => (Plic.claimContextOf n none addr size).isSome
  | _ => true

/-- What one operation does: to the pending bit, to the ledger, and to the hart. -/
structure PlicStepSpec (s : (Plic 1 × Cpu c) × Ledger) (op : PlicOp) : Prop where
  booked : Booked (plicRecord s op)
  consumes : ∀ k, s.1.1.claimOf s.1.2 op = some (k, 1#32) →
    (plicStep s.1 op).1.isPending = false
  stays : s.1.1.isPending = true → (∀ k, s.1.1.claimOf s.1.2 op ≠ some (k, 1#32)) →
    (plicStep s.1 op).1.isPending = true
  notified : op.notifies 1 = true → ∀ k : Fin plicContexts,
    (plicStep s.1 op).2.csr.mip.getLsbD (Plic.contextCause k).toNat
      = (plicStep s.1 op).1.offers k

theorem plicStep_interrupt (s : (Plic 1 × Cpu c) × Ledger) (h : Booked s) :
    PlicStepSpec s (.interrupt 1) := by
  obtain ⟨hp, hs, hcur⟩ := Plic.plicInterrupt_spec s.1.1 s.1.2
  refine ⟨⟨hcur.claim, ?_, ?_⟩, ?_, fun _ _ => hp, fun _ => hcur.pending⟩
  · intro k
    exact (hs k).trans (h.service k)
  · have hc := h.count
    show s.2.delivered + (if (plicInterrupt s.1.1 s.1.2 1).1.isPending then 1 else 0)
      ≤ s.2.raised + 1
    rw [hp, if_pos rfl]
    omega
  · intro k hk
    cases hk

theorem plicStep_write (s : (Plic 1 × Cpu c) × Ledger) (h : Booked s) (addr : Nat)
    (buf : List Byte) : PlicStepSpec s (.write addr buf) := by
  have hsrc := Plic.writeBytes_sources s.1.1 ⟨none, 0#32⟩ addr buf
  generalize hw : s.1.1.writeBytes ⟨none, 0#32⟩ addr buf = w at hsrc
  obtain ⟨plic, done⟩ := w
  obtain ⟨hp, hs, hcur⟩ := Plic.completeInterrupts_spec plic s.1.2 done
  have hstep : plicStep s.1 (.write addr buf)
      = plic.completeInterrupts s.1.2 done.context done.irq := by
    simp only [plicStep, Plic.cbWrite, hw]
  have hrec : s.2.record s.1 (.write addr buf) = s.2.complete plic done := by
    simp only [Ledger.record, hw]
  have hpend : plic.isPending = s.1.1.isPending := by
    unfold Plic.isPending
    rw [(hsrc 0).1]
  have hserv : ∀ k, plic.inService k = s.1.1.inService k := by
    intro k
    unfold Plic.inService
    rw [(hsrc k).2]
  rw [← hstep] at hp hs hcur
  refine ⟨⟨hcur.claim, ?_, ?_⟩, ?_, ?_, fun _ => hcur.pending⟩
  · intro k
    show (plicStep s.1 (.write addr buf)).1.inService k
      = (s.2.record s.1 (.write addr buf)).inService k
    rw [hs k, hserv k, h.service k, hrec]
    obtain ⟨context, irq⟩ := done
    cases context with
    | none => simp [Ledger.complete]
    | some i =>
        simp only [Ledger.complete, Plic.Completion.mk.injEq, Option.some.injEq]
        by_cases hacc : irq = 1#32 ∧ plic.isEnabled i = true
        · rw [if_pos hacc]
          by_cases hik : k = i
          · subst hik
            simp [hacc]
          · simp [hik, Ne.symm hik]
        · rw [if_neg hacc]
          have hnot : ¬((i = k ∧ irq = 1#32) ∧ plic.isEnabled k = true) := by
            rintro ⟨⟨rfl, hirq⟩, hen⟩
            exact hacc ⟨hirq, hen⟩
          simp [hnot]
  · have hc := h.count
    have hcount : (s.2.record s.1 (.write addr buf)).delivered = s.2.delivered
        ∧ (s.2.record s.1 (.write addr buf)).raised = s.2.raised := by
      rw [hrec]
      unfold Ledger.complete
      split
      · exact ⟨rfl, rfl⟩
      · split <;> exact ⟨rfl, rfl⟩
    simp only [plicRecord, hcount.1, hcount.2, hp, hpend]
    exact hc
  · intro k hk
    cases hk
  · intro hpending _
    rw [hp, hpend]
    exact hpending

theorem plicStep_read (s : (Plic 1 × Cpu c) × Ledger) (h : Booked s) {addr size : Nat}
    (ha : 4 ∣ addr) (hsize : 4 ∣ size) : PlicStepSpec s (.read addr size) := by
  have hclaim := Plic.claimOf_read s.1.1 s.1.2 ha hsize h.claim_cases
  have hstep : plicStep s.1 (.read addr size)
      = s.1.1.claimInterrupts s.1.2 (Plic.claimContextOf 1 none addr size) := by
    simp only [plicStep, Plic.cbRead, Plic.readBytes_fst, Plic.readBytes_context]
  cases hk : Plic.claimContextOf 1 none addr size with
  | none =>
      rw [hk] at hclaim hstep
      have hrec : plicRecord s (.read addr size) = s := by
        simp only [plicRecord, hstep, Plic.claimInterrupts, Ledger.record, hclaim, Option.map_none]
      have hsame : plicStep s.1 (.read addr size) = s.1 := congrArg Prod.fst hrec
      refine ⟨?_, ?_, ?_, ?_⟩
      · rw [hrec]
        exact h
      · intro k hk'
        rw [hclaim] at hk'
        cases hk'
      · intro hp _
        rw [hsame]
        exact hp
      · intro hn
        simp [PlicOp.notifies, hk] at hn
  | some i =>
      rw [hk] at hclaim hstep
      obtain ⟨hp, hs, hcur⟩ := Plic.claimInterrupts_spec s.1.1 s.1.2 i (h.claim_cases i)
      rw [← hstep] at hp hs hcur
      rw [Option.map_some] at hclaim
      have hrec : s.2.record s.1 (.read addr size) = s.2.claim i (s.1.1.context i).claim := by
        simp only [Ledger.record, hclaim]
      -- a claim of 1 finds the source pending
      have hpend : (s.1.1.context i).claim = 1#32 → s.1.1.isPending = true := by
        intro h1
        have hoff : s.1.1.offers i = true := by
          by_contra hno
          rw [h.claim i, if_neg hno] at h1
          exact absurd h1 (by decide)
        exact ((h.offers_iff i).mp hoff).1
      generalize (s.1.1.context i).claim = id at hclaim hp hs hrec hpend
      refine ⟨⟨hcur.claim, ?_, ?_⟩, ?_, ?_, fun _ => hcur.pending⟩
      · intro k
        show (plicStep s.1 (.read addr size)).1.inService k
          = (s.2.record s.1 (.read addr size)).inService k
        rw [hs k, h.service k, hrec]
        by_cases h1 : id = 1#32
        · by_cases hik : k = i
          · subst hik
            simp [Ledger.claim, h1]
          · simp [Ledger.claim, h1, hik]
        · simp [Ledger.claim, h1]
      · have hc := h.count
        show (s.2.record s.1 (.read addr size)).delivered
          + (if (plicStep s.1 (.read addr size)).1.isPending then 1 else 0)
            ≤ (s.2.record s.1 (.read addr size)).raised
        rw [hp, hrec]
        by_cases h1 : id = 1#32
        · rw [hpend h1, if_pos rfl] at hc
          simpa [Ledger.claim, h1] using hc
        · simpa [Ledger.claim, h1] using hc
      · intro k hk1
        rw [hclaim, Option.some.injEq, Prod.mk.injEq] at hk1
        rw [hp, hk1.2]
        simp
      · intro hpending hno
        have h1 : id ≠ 1#32 := by
          intro h1
          exact hno i (by rw [hclaim, h1])
        rw [hp, hpending]
        simp [h1]

/-- What one operation does. -/
theorem plicStep_spec (s : (Plic 1 × Cpu c) × Ledger) (h : Booked s) (op : PlicOp)
    (hop : op.Aligned) : PlicStepSpec s op := by
  cases op with
  | interrupt irq =>
      obtain rfl : irq = 1 := hop
      exact plicStep_interrupt s h
  | read addr size =>
      obtain ⟨ha, hs⟩ := hop
      exact plicStep_read s h ha (by omega)
  | write addr buf => exact plicStep_write s h addr buf

theorem booked_init (hart : Cpu c) : Booked ((plicInit 1, hart), Ledger.init) := by
  have hclaim : ∀ k : Fin plicContexts,
      ((plicInit 1).context k).claim = if (plicInit 1).offers k then 1#32 else 0#32 := by decide
  have hservice : ∀ k, (plicInit 1).inService k = false := by decide
  have hcount : 0 + (if (plicInit 1).isPending then 1 else 0) ≤ 0 := by decide
  exact ⟨hclaim, hservice, hcount⟩

theorem booked_run (hart : Cpu c) (ops : List PlicOp) (hops : ∀ op ∈ ops, op.Aligned) :
    Booked (Run.run plicRecord ((plicInit 1, hart), Ledger.init) ops) := by
  have key : ∀ (ops : List PlicOp) (s : (Plic 1 × Cpu c) × Ledger),
      Booked s → (∀ op ∈ ops, op.Aligned) → Booked (Run.run plicRecord s ops) := by
    intro ops
    induction ops with
    | nil =>
        intro s h _
        exact h
    | cons op ops ih =>
        intro s h hal
        rw [List.forall_mem_cons] at hal
        exact ih _ (plicStep_spec s h op hal.1).booked hal.2
  exact key ops _ (booked_init hart) hops

/-- **Delivery, over whole runs.** Take any run of raised interrupts and aligned accesses from
`plic_init`, and its next operation. (a) A claim returns 1 when the source is pending, enabled,
above the threshold and not in service for the context, and 0 otherwise. (b) A claim that returns
1 consumes the pending bit, and no more claims return 1 than interrupts were raised. (c) A pending
interrupt stays pending until a claim returns 1. (d) After a write, a claim or a raised interrupt
the pending bits of the hart are the condition of (a). -/
theorem plic_delivery (hart : Cpu c) (pre : List PlicOp) (op : PlicOp)
    (hpre : ∀ o ∈ pre, o.Aligned) (hop : op.Aligned) :
    let s := Run.run plicRecord ((plicInit plicInterrupts, hart), Ledger.init) pre
    let s' := plicRecord s op
    (∀ k id, s.1.1.claimOf s.1.2 op = some (k, id) →
        id = if Deliverable s.1.1 s.2 k then 1#32 else 0#32)
      ∧ ((∀ k, s.1.1.claimOf s.1.2 op = some (k, 1#32) → s'.1.1.isPending = false)
        ∧ s'.2.delivered ≤ s'.2.raised)
      ∧ (s.1.1.isPending = true → (∀ k, s.1.1.claimOf s.1.2 op ≠ some (k, 1#32)) →
          s'.1.1.isPending = true)
      ∧ (op.notifies plicInterrupts = true → ∀ k : Fin plicContexts,
          s'.1.2.csr.mip.getLsbD (Plic.contextCause k).toNat
            = decide (Deliverable s'.1.1 s'.2 k)) := by
  intro s s'
  have hs : Booked s := booked_run hart pre hpre
  have hspec := plicStep_spec s hs op hop
  refine ⟨?_, ⟨hspec.consumes, ?_⟩, hspec.stays, ?_⟩
  · intro k id hclaim
    exact (hs.claim_value hop hclaim).2
  · have hcount := hspec.booked.count
    exact Nat.le_trans (Nat.le_add_right _ _) hcount
  · intro hn k
    have hoff := hspec.notified hn k
    refine hoff.trans ?_
    rw [Bool.eq_iff_iff, decide_eq_true_iff]
    exact hspec.booked.offers_iff k

/-- The operations of a driver: priority 1, enabled for M, raised, claimed, completed. -/
def plicDriver : List PlicOp :=
  [.write 4 [1#8, 0#8, 0#8, 0#8], .write 0x2000 [2#8, 0#8, 0#8, 0#8], .interrupt 1,
    .read 0x200004 4, .write 0x200004 [1#8, 0#8, 0#8, 0#8]]

theorem plic_delivery_driver :
    let s := Run.run plicRecord ((plicInit plicInterrupts, (rvInit true : Cpu .rv32)), Ledger.init)
      (plicDriver.take 3)
    s.1.1.claimOf s.1.2 (.read 0x200004 4) = some (0, 1#32)
      ∧ (plicRecord s (.read 0x200004 4)).1.1.isPending = false := by
  refine ⟨by decide +kernel, ?_⟩
  exact (plic_delivery (rvInit true : Cpu .rv32) (plicDriver.take 3) (.read 0x200004 4)
    (by decide) (by decide)).2.1.1 0 (by decide +kernel)

end RV640
