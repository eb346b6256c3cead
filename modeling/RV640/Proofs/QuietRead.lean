import RV640.Proofs.Frames
import RV640.Proofs.PlicIndices

set_option autoImplicit false

/-! # Device reads without effect

Reading a register can pop a character from the UART or claim an interrupt at the PLIC. This file
says, in terms of the state before, which reads change nothing.
-/

namespace RV640

open Bits

variable {c : Cfg} {n : Nat}

/-! ## Raising what is raised -/

theorem or_bit_of_getLsbD {w k : Nat} {x : BitVec w} (h : x.getLsbD k = true) :
    x ||| bit k = x := by
  apply BitVec.eq_of_getLsbD_eq
  intro i hi
  by_cases hik : i = k
  · subst hik
    simp only [BitVec.getLsbD_or, h, Bool.true_or]
  · simp only [BitVec.getLsbD_or, getLsbD_bit, hik, decide_false, Bool.and_false, Bool.or_false]

theorem and_not_bit_of_getLsbD {w k : Nat} {x : BitVec w} (h : x.getLsbD k = false) :
    x &&& ~~~(bit k) = x := by
  apply BitVec.eq_of_getLsbD_eq
  intro i hi
  by_cases hik : i = k
  · subst hik
    simp only [BitVec.getLsbD_and, h, Bool.false_and]
  · simp only [BitVec.getLsbD_and, BitVec.getLsbD_not, getLsbD_bit, hik, hi, decide_false,
      decide_true, Bool.and_false, Bool.not_false, Bool.and_self, Bool.and_true]

/-- The hart has noticed its interrupts. -/
def Awake (hart : Cpu c) : Prop := hart.irq = true ∧ hart.wfi = false

theorem rvSetInterrupt_of_pending {hart : Cpu c} {i : IrqCause}
    (h : hart.csr.mip.getLsbD i.toNat = true) (hw : Awake hart) :
    rvSetInterrupt hart i = hart := by
  obtain ⟨hirq, hwfi⟩ := hw
  simp only [rvSetInterrupt, pendingIRQ, IrqCause.mask, or_bit_of_getLsbD h]
  rw [← hirq, ← hwfi]

theorem rvClearInterrupt_of_clear {hart : Cpu c} {i : IrqCause}
    (h : hart.csr.mip.getLsbD i.toNat = false) : rvClearInterrupt hart i = hart := by
  simp only [rvClearInterrupt, IrqCause.mask, and_not_bit_of_getLsbD h]

theorem rvSetInterrupt_awake (hart : Cpu c) (i : IrqCause) : Awake (rvSetInterrupt hart i) :=
  ⟨rfl, rfl⟩

/-! ## Words -/

theorem setWord_eq_self_iff {k : Nat} (arr : Vector (BitVec 32) k) (i : Nat) (x : BitVec 32) :
    setWord arr i x = arr ↔ (i < k → x = getWord arr i) := by
  constructor
  · intro h hi
    have hget := congrArg (fun v => getWord v i) h
    simpa [setWord, getWord, hi, Vector.getElem?_setIfInBounds] using hget
  · intro h
    by_cases hi : i < k
    · rw [h hi]
      apply Vector.ext
      intro j hj
      by_cases hij : i = j
      · subst hij
        simp [setWord, getWord, hi]
      · simp [setWord, hij]
    · simp [setWord, Vector.setIfInBounds_eq_of_size_le (Nat.le_of_not_lt hi)]

theorem getWord_of_le {k : Nat} (arr : Vector (BitVec 32) k) {i : Nat} (h : k ≤ i) :
    getWord arr i = 0#32 := by
  simp [getWord, h]

namespace Plic

/-! ## A settled PLIC -/

/-- The source the first loop of `_processInterrupts` finds. -/
def best (self : Plic n) : Best := (self.scanIrqs ⟨0, 0, 0#32, 0#32⟩ (List.range' 1 n)).2

/-- A context needs no notification: its cached claim and the hart's pending bit are up to
date. -/
structure Settled (plic : Plic n) (hart : Cpu c) (i : Fin plicContexts) : Prop where
  claim : (plic.context i).claim
    = if accepts (plic.context i) plic.best then BitVec.ofNat 32 plic.best.irq else 0#32
  pending : hart.csr.mip.getLsbD (contextCause i).toNat = accepts (plic.context i) plic.best
  awake : accepts (plic.context i) plic.best = true → Awake hart

/-- `notifyContext` with its index inside the arrays. -/
theorem notifyContext_eq (self : Plic n) (hart : Cpu c) (best : Best)
    (hb : best.irqWord < plicInterruptWords n) (i : Fin plicContexts) :
    self.notifyContext hart best i
      = ({ self with
            contexts := self.contexts.set i { self.context i with
              claim := if accepts (self.context i) best then BitVec.ofNat 32 best.irq else 0#32 } },
          if accepts (self.context i) best then rvSetInterrupt hart (contextCause i)
          else rvClearInterrupt hart (contextCause i)) := by
  simp only [notifyContext, touch_of_lt self hb, ite_self]
  split <;> rfl

/-- A context that was not notified keeps its registers. -/
theorem notifyContext_contexts_ne (self : Plic n) (hart : Cpu c) (best : Best)
    (hb : best.irqWord < plicInterruptWords n) {i j : Fin plicContexts} (hij : i ≠ j) :
    (self.notifyContext hart best i).1.context j = self.context j := by
  have hne : i.val ≠ j.val := fun he => hij (Fin.ext he)
  rw [notifyContext_eq self hart best hb]
  simp [hne]

/-- Notification leaves the pending words and the claimed sources alone. -/
theorem notifyContext_arrays (self : Plic n) (hart : Cpu c) (best : Best)
    (hb : best.irqWord < plicInterruptWords n) (i j : Fin plicContexts) :
    (self.notifyContext hart best i).1.pending = self.pending
      ∧ ((self.notifyContext hart best i).1.context j).pendingClaims
        = (self.context j).pendingClaims := by
  rw [notifyContext_eq self hart best hb]
  refine ⟨rfl, ?_⟩
  by_cases hij : i = j
  · subst hij
    simp
  · have hne : i.val ≠ j.val := fun he => hij (Fin.ext he)
    simp [hne]

theorem notifyContext_pending (self : Plic n) (hart : Cpu c) (best : Best)
    (hb : best.irqWord < plicInterruptWords n) (i : Fin plicContexts) :
    (self.notifyContext hart best i).2.csr.mip.getLsbD (contextCause i).toNat
      = accepts (self.context i) best := by
  rw [notifyContext_eq self hart best hb]
  by_cases ha : accepts (self.context i) best = true
  · simp only [ha, if_true, rvSetInterrupt_pending]
  · rw [if_neg ha, if_neg ha, Bool.eq_false_iff.mpr ha]
    exact rvClearInterrupt_pending hart _

theorem notifyContext_awake (self : Plic n) (hart : Cpu c) (best : Best)
    (hb : best.irqWord < plicInterruptWords n) (i : Fin plicContexts)
    (h : accepts (self.context i) best = true ∨ Awake hart) :
    Awake (self.notifyContext hart best i).2 := by
  rw [notifyContext_eq self hart best hb]
  by_cases ha : accepts (self.context i) best = true
  · simp only [ha, if_true]
    exact rvSetInterrupt_awake hart _
  · simp only [if_neg ha]
    exact h.resolve_left ha

theorem notifyContext_of_settled {self : Plic n} {hart : Cpu c} {i : Fin plicContexts}
    (hb : self.best.irqWord < plicInterruptWords n) (h : Settled self hart i) :
    self.notifyContext hart self.best i = (self, hart) := by
  have hset : self.contexts.set i { self.context i with
      claim := if accepts (self.context i) self.best then BitVec.ofNat 32 self.best.irq
        else 0#32 } = self.contexts := by
    rw [← h.claim]
    exact Vector.set_getElem_self _
  rw [notifyContext_eq self hart self.best hb, hset]
  have hp := h.pending
  by_cases ha : accepts (self.context i) self.best = true
  · rw [ha] at hp
    rw [if_pos ha, rvSetInterrupt_of_pending hp (h.awake ha)]
  · rw [Bool.eq_false_iff.mpr ha] at hp
    rw [if_neg ha, rvClearInterrupt_of_clear hp]

/-! ## One source -/

theorem best_one (self : Plic 1) : self.best.irqWord < plicInterruptWords 1 := by
  obtain ⟨best, hscan, -, hword⟩ := scanIrqs_one self
  simp only [Plic.best, hscan, hword]
  decide

theorem processInterrupts_one_eq (self : Plic 1) (hart : Cpu c) :
    self.processInterrupts hart
      = (self.notifyContext hart self.best 0).1.notifyContext
          (self.notifyContext hart self.best 0).2 self.best 1 := by
  obtain ⟨best, hscan, -, -⟩ := scanIrqs_one self
  simp only [processInterrupts, Plic.best, hscan]

theorem context_cases (j : Fin plicContexts) : j = 0 ∨ j = 1 := by
  revert j
  decide

/-- `_processInterrupts` does nothing exactly when every context is settled. -/
theorem processInterrupts_eq_self_iff (self : Plic 1) (hart : Cpu c) :
    self.processInterrupts hart = (self, hart) ↔ ∀ j, Settled self hart j := by
  have hb := best_one self
  rw [processInterrupts_one_eq]
  constructor
  · intro heq
    generalize hs0 : self.notifyContext hart self.best 0 = s0 at heq
    have hplic : (s0.1.notifyContext s0.2 self.best 1).1 = self := by rw [heq]
    have hhart : (s0.1.notifyContext s0.2 self.best 1).2 = hart := by rw [heq]
    -- the second context is as it was when its turn came
    have hctx1 : s0.1.context 1 = self.context 1 := by
      rw [← hs0]
      exact notifyContext_contexts_ne self hart self.best hb (by decide)
    have hclaim : ∀ j : Fin plicContexts, (self.context j).claim
        = ((s0.1.notifyContext s0.2 self.best 1).1.context j).claim := by
      intro j
      rw [hplic]
    intro j
    obtain rfl | rfl := context_cases j
    · refine ⟨?_, ?_, ?_⟩
      · rw [hclaim 0, notifyContext_claim, if_neg (by decide), ← hs0, notifyContext_claim,
          if_pos rfl]
      · rw [← hhart]
        have h0 := notifyContext_pending self hart self.best hb 0
        rw [hs0] at h0
        rw [← h0, notifyContext_eq s0.1 s0.2 self.best hb]
        split
        · exact (rvSetInterrupt_frame s0.2 _).pending _ (by decide)
        · exact (rvClearInterrupt_frame s0.2 _).pending _ (by decide)
      · intro ha
        rw [← hhart]
        refine notifyContext_awake s0.1 s0.2 self.best hb 1 (Or.inr ?_)
        rw [← hs0]
        exact notifyContext_awake self hart self.best hb 0 (Or.inl ha)
    · refine ⟨?_, ?_, ?_⟩
      · rw [hclaim 1, notifyContext_claim, if_pos rfl, hctx1]
      · rw [← hhart, notifyContext_pending s0.1 s0.2 self.best hb 1, hctx1]
      · intro ha
        rw [← hhart]
        exact notifyContext_awake s0.1 s0.2 self.best hb 1 (Or.inl (by rw [hctx1]; exact ha))
  · intro h
    rw [notifyContext_of_settled hb (h 0)]
    exact notifyContext_of_settled hb (h 1)

/-! ## Claims -/

/-- A claim that changes nothing: the source a context offers is already claimed and not pending,
and every context is settled. -/
structure ClaimIdle (plic : Plic n) (hart : Cpu c) (i : Fin plicContexts) : Prop where
  inside : plic.oob = true ∨ irqWord (plic.context i).claim.toNat < plicInterruptWords n
  taken : irqWord (plic.context i).claim.toNat < plicInterruptWords n →
    (getWord (plic.context i).pendingClaims (irqWord (plic.context i).claim.toNat)).getLsbD
      ((plic.context i).claim.toNat % 4) = true
  cleared : (getWord plic.pending (irqWord (plic.context i).claim.toNat)).getLsbD
    ((plic.context i).claim.toNat % 4) = false
  settled : ∀ j, Settled plic hart j

/-- The PLIC when `_claimInterrupts` calls `_processInterrupts`. -/
def claimed (self : Plic n) (i : Fin plicContexts) : Plic n :=
  let ctx := self.context i
  let word := irqWord ctx.claim.toNat
  { self.touch word (plicInterruptWords n) with
    contexts := self.contexts.set i { ctx with
      pendingClaims := setWord ctx.pendingClaims word
        (getWord ctx.pendingClaims word ||| irqMask ctx.claim.toNat) } i.isLt
    pending := setWord self.pending word
      (getWord self.pending word &&& ~~~irqMask ctx.claim.toNat) }

theorem claimInterrupts_some (self : Plic n) (hart : Cpu c) (i : Fin plicContexts) :
    self.claimInterrupts hart (some i) = (self.claimed i).processInterrupts hart := rfl

theorem processInterrupts_arrays (self : Plic 1) (hart : Cpu c) (j : Fin plicContexts) :
    (self.processInterrupts hart).1.pending = self.pending
      ∧ ((self.processInterrupts hart).1.context j).pendingClaims
        = (self.context j).pendingClaims := by
  have hb := best_one self
  rw [processInterrupts_one_eq]
  have h0 := notifyContext_arrays self hart self.best hb 0 j
  have h1 := notifyContext_arrays (self.notifyContext hart self.best 0).1
    (self.notifyContext hart self.best 0).2 self.best hb 1 j
  exact ⟨h1.1.trans h0.1, h1.2.trans h0.2⟩

theorem or_bit_eq_self_iff {w k : Nat} (x : BitVec w) (hk : k < w) :
    x ||| bit k = x ↔ x.getLsbD k = true := by
  constructor
  · intro h
    rw [← h]
    simp [hk]
  · exact or_bit_of_getLsbD

theorem and_not_bit_eq_self_iff {w k : Nat} (x : BitVec w) :
    x &&& ~~~(bit k) = x ↔ x.getLsbD k = false := by
  constructor
  · intro h
    rw [← h]
    by_cases hk : k < w
    · simp [hk]
    · exact BitVec.getLsbD_of_ge _ _ (by omega)
  · exact and_not_bit_of_getLsbD

/-- The claimed PLIC is the old one exactly when source, claim and trace were so already. -/
theorem claimed_eq_self_iff (self : Plic n) (i : Fin plicContexts) :
    self.claimed i = self ↔
      (self.oob = true ∨ irqWord (self.context i).claim.toNat < plicInterruptWords n)
        ∧ setWord (self.context i).pendingClaims (irqWord (self.context i).claim.toNat)
            (getWord (self.context i).pendingClaims (irqWord (self.context i).claim.toNat)
              ||| irqMask (self.context i).claim.toNat) = (self.context i).pendingClaims
        ∧ setWord self.pending (irqWord (self.context i).claim.toNat)
            (getWord self.pending (irqWord (self.context i).claim.toNat)
              &&& ~~~irqMask (self.context i).claim.toNat) = self.pending := by
  constructor
  · intro h
    refine ⟨?_, ?_, ?_⟩
    · have hoob := congrArg Plic.oob h
      simp only [claimed, touch_oob] at hoob
      by_cases hw : irqWord (self.context i).claim.toNat < plicInterruptWords n
      · exact Or.inr hw
      · left
        rw [← hoob, decide_eq_false hw, Bool.not_false, Bool.or_true]
    · have hctx := congrArg (fun p => (p.context i).pendingClaims) h
      simpa [claimed] using hctx
    · exact congrArg Plic.pending h
  · rintro ⟨hin, hclaims, hpend⟩
    have htouch : self.touch (irqWord (self.context i).claim.toNat) (plicInterruptWords n)
        = self := by
      obtain hoob | hw := hin
      · simp [touch, hoob]
        rw [← hoob]
      · exact touch_of_lt self hw
    simp only [claimed, htouch, hclaims, hpend]
    have hset : self.contexts.set i (self.context i) = self.contexts := Vector.set_getElem_self _
    rw [hset]

/-- A claim does nothing exactly when it is idle. -/
theorem claimInterrupts_eq_self_iff (self : Plic 1) (hart : Cpu c) (i : Fin plicContexts) :
    self.claimInterrupts hart (some i) = (self, hart) ↔ ClaimIdle self hart i := by
  rw [claimInterrupts_some]
  have hiff : self.claimed i = self ↔
      (self.oob = true ∨ irqWord (self.context i).claim.toNat < plicInterruptWords 1)
      ∧ (irqWord (self.context i).claim.toNat < plicInterruptWords 1 →
          (getWord (self.context i).pendingClaims
            (irqWord (self.context i).claim.toNat)).getLsbD
              ((self.context i).claim.toNat % 4) = true)
      ∧ (getWord self.pending (irqWord (self.context i).claim.toNat)).getLsbD
          ((self.context i).claim.toNat % 4) = false := by
    rw [claimed_eq_self_iff, setWord_eq_self_iff, setWord_eq_self_iff]
    simp only [irqMask]
    rw [or_bit_eq_self_iff _ (by omega), and_not_bit_eq_self_iff]
    refine and_congr_right fun _ => and_congr_right fun _ => ?_
    constructor
    · intro h
      by_cases hw : irqWord (self.context i).claim.toNat < plicInterruptWords 1
      · exact h hw
      · rw [getWord_of_le _ (Nat.le_of_not_lt hw)]
        exact BitVec.getLsbD_zero
    · intro h _
      exact h
  constructor
  · intro heq
    -- `_processInterrupts` cannot undo what the claim did
    have hsame : self.claimed i = self := by
      have hp : ((self.claimed i).processInterrupts hart).1 = self := by rw [heq]
      have hoob := (processInterrupts_one (self.claimed i) hart).1
      rw [hp] at hoob
      have harr := processInterrupts_arrays (self.claimed i) hart i
      rw [hp] at harr
      rw [claimed_eq_self_iff]
      refine ⟨?_, ?_, harr.1.symm⟩
      · by_cases hw : irqWord (self.context i).claim.toNat < plicInterruptWords 1
        · exact Or.inr hw
        · left
          rw [hoob]
          simp only [claimed, touch_oob, decide_eq_false hw, Bool.not_false, Bool.or_true]
      · have h2 := harr.2.symm
        simpa [claimed] using h2
    rw [hsame] at heq
    obtain ⟨h1, h2, h3⟩ := hiff.mp hsame
    exact ⟨h1, h2, h3, (processInterrupts_eq_self_iff self hart).mp heq⟩
  · rintro ⟨h1, h2, h3, h4⟩
    rw [hiff.mpr ⟨h1, h2, h3⟩]
    exact (processInterrupts_eq_self_iff self hart).mpr h4

/-- The context whose claim register a read of `size` bytes at `addr` ends up claiming. -/
def claimContextOf (n : Nat) (k : Option (Fin plicContexts)) (addr : Nat) :
    Nat → Option (Fin plicContexts)
  | 0 => k
  | size + 1 =>
      let k :=
        match decodeAddr n false addr with
        | .claim j _ => some j
        | _ => k
      claimContextOf n k (addr + 1) size

theorem readBytes_context (self : Plic n) (k : Option (Fin plicContexts)) (addr size : Nat) :
    (self.readBytes k addr size).2.1 = claimContextOf n k addr size := by
  induction size generalizing k addr with
  | zero => rfl
  | succ size ih =>
      have hk : (self.readByte k addr).2.1
          = match decodeAddr n false addr with
            | .claim j _ => some j
            | _ => k := by
        unfold readByte
        cases decodeAddr n false addr <;> rfl
      simp only [readBytes, readByte_fst, claimContextOf, hk]
      exact ih _ _

/-- A read does nothing exactly when it claims nothing or its claim is idle. -/
theorem cbRead_eq_self_iff (self : Plic 1) (hart : Cpu c) (addr size : Nat) :
    ((self.cbRead hart addr size).1, (self.cbRead hart addr size).2.1) = (self, hart) ↔
      ∀ k, claimContextOf 1 none addr size = some k → ClaimIdle self hart k := by
  simp only [cbRead, readBytes_fst, readBytes_context]
  cases hk : claimContextOf 1 none addr size with
  | none => simp [claimInterrupts]
  | some k =>
      show (self.claimInterrupts hart (some k)) = (self, hart) ↔ _
      rw [claimInterrupts_eq_self_iff]
      simp

end Plic

/-! ## The UART -/

namespace Ns16550a

/-- Only a read of register 0 changes the device. -/
theorem cbRead_fst_of_ne (self : Ns16550a) {addr : Nat} (h : addr ≠ 0) (buf : List Byte) :
    (self.cbRead addr buf).1 = self := by
  induction buf generalizing addr with
  | nil => rfl
  | cons b bs ih =>
      have hb : (self.readByte addr b).1 = self := by
        unfold readByte
        split
        · exact absurd rfl h
        · split <;> rfl
        · rfl
        · rfl
        · rfl
        · rfl
      simp only [cbRead, hb]
      exact ih (by omega)

theorem popChar_fst_eq_self_iff (self : Ns16550a) :
    self.popChar.1 = self ↔ self.ringBuffer.len = 0 := by
  constructor
  · intro h
    by_contra hlen
    have hlen' := congrArg (fun u => u.ringBuffer.len) h
    simp only [popChar, if_neg hlen] at hlen'
    omega
  · intro h
    simp [popChar, h]

/-- A read does nothing exactly when it is not of register 0, or the divisor latch covers the
register, or the ring is empty. -/
theorem cbRead_fst_eq_self_iff (self : Ns16550a) (addr : Nat) {buf : List Byte}
    (hbuf : buf ≠ []) :
    (self.cbRead addr buf).1 = self ↔
      addr ≠ 0 ∨ self.dlab = true ∨ self.ringBuffer.len = 0 := by
  obtain ⟨b, bs, rfl⟩ := List.exists_cons_of_ne_nil hbuf
  by_cases ha : addr = 0
  · subst ha
    have hfst : (self.cbRead 0 (b :: bs)).1 = (self.readByte 0 b).1 :=
      cbRead_fst_of_ne _ (by omega) bs
    rw [hfst]
    by_cases hd : self.dlab = true
    · simp [readByte, hd]
    · simp [readByte, hd, popChar_fst_eq_self_iff]
  · simp [cbRead_fst_of_ne self ha, ha]

end Ns16550a

/-! ## Any device -/

/-- The read has no effect on the machine. -/
def QuietDevRead (m : Machine c) (dev : DevKind) (addr size : Nat) : Prop :=
  match dev with
  | .ram => True
  | .aclint => True
  | .plic => ∀ k, Plic.claimContextOf plicInterrupts none addr size = some k →
      Plic.ClaimIdle m.plic m.cpu k
  | .uart => addr ≠ 0 ∨ m.uart.dlab = true ∨ m.uart.ringBuffer.len = 0

theorem devRead_eq_self_iff (m : Machine c) (dev : DevKind) (addr : Nat) {size : Nat}
    (hsize : size ≠ 0) :
    (devRead m dev addr (List.replicate size 0#8)).1 = m ↔ QuietDevRead m dev addr size := by
  cases dev with
  | ram => exact iff_of_true rfl trivial
  | aclint => exact iff_of_true rfl trivial
  | plic =>
      have h := Plic.cbRead_eq_self_iff m.plic m.cpu addr size
      have hm : (devRead m .plic addr (List.replicate size 0#8)).1
          = { m with plic := (m.plic.cbRead m.cpu addr size).1
                     cpu := (m.plic.cbRead m.cpu addr size).2.1 } := by
        simp only [devRead, List.length_replicate]
      rw [hm]
      constructor
      · intro heq
        refine h.mp (Prod.ext ?_ ?_)
        · exact congrArg Machine.plic heq
        · exact congrArg Machine.cpu heq
      · intro hq
        obtain ⟨hplic, hhart⟩ := Prod.mk.inj (h.mpr hq)
        rw [hplic, hhart]
  | uart =>
      have hne : List.replicate size 0#8 ≠ [] := by simp [hsize]
      have h := Ns16550a.cbRead_fst_eq_self_iff m.uart addr hne
      refine Iff.trans ⟨?_, ?_⟩ h
      · exact congrArg Machine.uart
      · intro hu
        show { m with uart := (m.uart.cbRead addr (List.replicate size 0#8)).1 } = m
        rw [hu]

end RV640
