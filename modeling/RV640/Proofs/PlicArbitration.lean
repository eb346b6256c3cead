import RV640.Lib.FirstMax
import RV640.Proofs.PlicIndices

set_option autoImplicit false

/-! # Arbitration in the PLIC

What a context should be offered: of the sources that are pending, enabled and not in service for it
and above its threshold, the one of highest priority. `_processInterrupts` picks one source for all
contexts first and asks each context only whether it accepts that one; and it finds the bit of a
source by dividing by the bytes of a word where the registers have the bits of one. This file says
for which numbers of sources and in which states the two agree.
-/

namespace RV640

open Bits

variable {c : Cfg} {n : Nat}

namespace Plic

/-! ## The specification -/

/-- The priority of a source. -/
def sourcePriority (self : Plic n) (i : Nat) : Nat := (getWord self.priority (i - 1)).toNat

/-- Bit `i` of a register array: bit `i % 32` of word `i / 32`. -/
def guestBit {k : Nat} (arr : Vector (BitVec 32) k) (i : Nat) : Bool :=
  (getWord arr (i / 32)).getLsbD (i % 32)

/-- It is the bit that the guest reads in byte `i / 8`. -/
theorem guestBit_mmio {k : Nat} (arr : Vector (BitVec 32) k) (i : Nat) :
    (getArrByte arr (i / 8)).getLsbD (i % 8) = guestBit arr i := by
  have hword : i / 8 / 4 = i / 32 := by omega
  have hbit : 8 * (i / 8 % 4) + i % 8 = i % 32 := by omega
  have hlt : i % 8 < 8 := Nat.mod_lt _ (by decide)
  rw [getArrByte, getByte, BitVec.getLsbD_extractLsb', hword, hbit, guestBit]
  simp [hlt]

/-- Source `i` may be offered to context `k`. -/
structure Eligible (plic : Plic n) (k : Fin plicContexts) (i : Nat) : Prop where
  low : 1 ≤ i
  high : i ≤ n
  pending : guestBit plic.pending i = true
  enabled : guestBit (plic.context k).enable i = true
  idle : guestBit (plic.context k).pendingClaims i = false
  above : (plic.context k).threshold.toNat < plic.sourcePriority i

/-- The claim that context `k` should have: the lowest-numbered source of maximal priority among
those that may be offered to it, or 0 if there is none. -/
def Arbitrated (self : Plic n) (k : Fin plicContexts) (claim : Nat) : Prop :=
  IsFirstMax self.sourcePriority (self.Eligible k) claim ∨ claim = 0 ∧ ∀ i, ¬ self.Eligible k i

/-! ## The scan -/

/-- Bit `i` where the source looks for it. -/
def codeBit {k : Nat} (arr : Vector (BitVec 32) k) (i : Nat) : Bool :=
  getWord arr (irqWord i) &&& irqMask i != 0#32

/-- The candidate the scan makes of source `i`. -/
def bestAt (self : Plic n) (i : Nat) : Best :=
  ⟨i, irqWord i, irqMask i, getWord self.priority (i - 1)⟩

/-- One round of the scan, on the candidate alone. -/
def scanBest (self : Plic n) (best : Best) (i : Nat) : Best :=
  if codeBit self.pending i && decide (best.priority < getWord self.priority (i - 1)) then
    self.bestAt i
  else best

/-- The scan changes nothing but the record of accesses outside the arrays. -/
theorem scanIrq_eq (self : Plic n) (best : Best) (i : Nat) :
    self.scanIrq best i
      = ({ self with oob := (self.scanIrq best i).1.oob }, self.scanBest best i) := by
  simp only [scanIrq, scanBest, codeBit]
  by_cases hbit : (getWord self.pending (irqWord i) &&& irqMask i != 0#32) = true
  · by_cases hlt : best.priority < getWord self.priority (i - 1)
    · simp [touch, bestAt, hbit, hlt]
    · simp [touch, hbit, hlt]
  · simp [touch, hbit]

theorem scanIrqs_eq (self : Plic n) (best : Best) (is : List Nat) :
    self.scanIrqs best is
      = ({ self with oob := (self.scanIrqs best is).1.oob }, is.foldl self.scanBest best) := by
  induction is generalizing self best with
  | nil => rfl
  | cons i is ih =>
      have hstep : self.scanIrqs best (i :: is)
          = (self.scanIrq best i).1.scanIrqs (self.scanIrq best i).2 is := rfl
      rw [hstep, scanIrq_eq, ih]
      rfl

/-- The sources up to `m` the scan may pick: a source of priority 0 never gets past the initial
candidate. -/
def Seen (self : Plic n) (m i : Nat) : Prop :=
  (1 ≤ i ∧ i ≤ m) ∧ codeBit self.pending i = true ∧ 0 < self.sourcePriority i

/-- What the scan of the first `m` sources has established. -/
def ScanOk (self : Plic n) (m : Nat) (best : Best) : Prop :=
  best = ⟨0, 0, 0#32, 0#32⟩ ∧ (∀ j, ¬ self.Seen m j)
    ∨ ∃ b, IsFirstMax self.sourcePriority (self.Seen m) b ∧ best = self.bestAt b

theorem seen_succ (self : Plic n) (m j : Nat) :
    self.Seen (m + 1) j ↔ self.Seen m j ∨ j = m + 1 ∧ self.Seen (m + 1) (m + 1) := by
  constructor
  · intro h
    by_cases hj : j = m + 1
    · exact Or.inr ⟨hj, hj ▸ h⟩
    · have := h.1
      exact Or.inl ⟨⟨this.1, by omega⟩, h.2⟩
  · rintro (h | ⟨rfl, h⟩)
    · exact ⟨⟨h.1.1, Nat.le_succ_of_le h.1.2⟩, h.2⟩
    · exact h

/-- A source that is not picked leaves the set or the maximum as it was. -/
theorem scanBest_ok {self : Plic n} {m : Nat} {best : Best} (h : self.ScanOk m best) :
    self.ScanOk (m + 1) (self.scanBest best (m + 1)) := by
  have hsucc := seen_succ self m
  have hprio : (getWord self.priority (m + 1 - 1)).toNat = self.sourcePriority (m + 1) := rfl
  unfold scanBest
  rcases h with ⟨rfl, hnone⟩ | ⟨b, hb, rfl⟩
  · -- no candidate yet: any source of positive priority is one
    by_cases hseen : self.Seen (m + 1) (m + 1)
    · have htake : (codeBit self.pending (m + 1)
          && decide (0#32 < getWord self.priority (m + 1 - 1))) = true := by
        rw [Bool.and_eq_true, decide_eq_true_eq, BitVec.lt_def]
        exact ⟨hseen.2.1, hseen.2.2⟩
      rw [if_pos htake]
      refine Or.inr ⟨m + 1, ⟨hseen, fun j hj => ?_⟩, rfl⟩
      rcases (hsucc j).mp hj with hold | ⟨rfl, -⟩
      · exact absurd hold (hnone j)
      · exact Or.inr ⟨rfl, le_rfl⟩
    · have hskip : ¬ (codeBit self.pending (m + 1)
          && decide (0#32 < getWord self.priority (m + 1 - 1))) = true := by
        rw [Bool.and_eq_true, decide_eq_true_eq, BitVec.lt_def]
        exact fun ⟨hbit, hlt⟩ => hseen ⟨⟨Nat.le_add_left 1 m, le_rfl⟩, hbit, hlt⟩
      rw [if_neg hskip]
      refine Or.inl ⟨rfl, fun j hj => ?_⟩
      rcases (hsucc j).mp hj with hold | ⟨-, hnew⟩
      · exact hnone j hold
      · exact hseen hnew
  · by_cases htake : (codeBit self.pending (m + 1)
        && decide ((self.bestAt b).priority < getWord self.priority (m + 1 - 1))) = true
    · rw [if_pos htake]
      rw [Bool.and_eq_true, decide_eq_true_eq, BitVec.lt_def] at htake
      have hlt : self.sourcePriority b < self.sourcePriority (m + 1) := htake.2
      have hnew : self.Seen (m + 1) (m + 1) :=
        ⟨⟨Nat.le_add_left 1 m, le_rfl⟩, htake.1, Nat.zero_lt_of_lt hlt⟩
      refine Or.inr ⟨m + 1, (hb.insert_of_lt hlt).congr fun j => ?_, rfl⟩
      rw [hsucc j]
      exact or_congr_right (and_iff_left hnew).symm
    · rw [if_neg htake]
      rw [Bool.and_eq_true, decide_eq_true_eq, BitVec.lt_def] at htake
      refine Or.inr ⟨b, ?_, rfl⟩
      by_cases hnew : self.Seen (m + 1) (m + 1)
      · have hle : self.sourcePriority (m + 1) ≤ self.sourcePriority b :=
          not_lt.mp fun hlt => htake ⟨hnew.2.1, hlt⟩
        have hbm := hb.mem.1.2
        refine (hb.insert_of_le hle (Nat.le_succ_of_le hbm)).congr fun j => ?_
        rw [hsucc j]
        exact or_congr_right (and_iff_left hnew).symm
      · refine hb.congr fun j => ?_
        rw [hsucc j]
        exact (or_iff_left fun h => hnew h.2).symm

/-- The whole scan, for any number of sources. -/
theorem scan_ok (self : Plic n) (m : Nat) :
    self.ScanOk m ((List.range' 1 m).foldl self.scanBest ⟨0, 0, 0#32, 0#32⟩) := by
  induction m with
  | zero =>
      refine Or.inl ⟨rfl, ?_⟩
      rintro j ⟨⟨h1, h0⟩, -⟩
      omega
  | succ m ih =>
      rw [List.range'_concat, List.foldl_append, Nat.one_mul, Nat.add_comm 1 m]
      exact scanBest_ok ih

/-- The candidate that `_processInterrupts` offers to all contexts. -/
def scannedBest (self : Plic n) : Best := (List.range' 1 n).foldl self.scanBest ⟨0, 0, 0#32, 0#32⟩

theorem scannedBest_ok (self : Plic n) : self.ScanOk n self.scannedBest := scan_ok self n

/-! ## The offer -/

/-- Notifying one context leaves the other alone. -/
theorem notifyContext_other (self : Plic n) (hart : Cpu c) (best : Best) {i j : Fin plicContexts}
    (hij : i ≠ j) : (self.notifyContext hart best i).1.context j = self.context j := by
  have hctx : (if (self.context i).threshold < best.priority then
      self.touch best.irqWord (plicInterruptWords n) else self).contexts = self.contexts := by
    split <;> rfl
  have hne : i.val ≠ j.val := fun he => hij (Fin.ext he)
  simp only [notifyContext, hctx]
  split <;> simp [hne]

/-- Every context caches the one candidate, or 0. -/
theorem processInterrupts_claim (self : Plic n) (hart : Cpu c) (j : Fin plicContexts) :
    ((self.processInterrupts hart).1.context j).claim
      = if accepts (self.context j) self.scannedBest then
          BitVec.ofNat 32 self.scannedBest.irq else 0#32 := by
  have hj : j = 0 ∨ j = 1 := by
    revert j
    decide
  have hscan := scanIrqs_eq self ⟨0, 0, 0#32, 0#32⟩ (List.range' 1 n)
  simp only [processInterrupts]
  rw [hscan, notifyContext_claim]
  rcases hj with rfl | rfl
  · rw [if_neg (by decide), notifyContext_claim, if_pos rfl]
    rfl
  · rw [if_pos rfl, notifyContext_other _ _ _ (by decide : (0 : Fin plicContexts) ≠ 1)]
    rfl

/-! ## Accesses outside the arrays -/

theorem touch_oob_of (self : Plic n) (i len : Nat) (h : self.oob = true) :
    (self.touch i len).oob = true := by
  rw [touch_oob, h, Bool.true_or]

theorem scanIrq_oob_of (self : Plic n) (best : Best) (i : Nat)
    (h : self.oob = true ∨ plicInterruptWords n ≤ irqWord i) :
    (self.scanIrq best i).1.oob = true := by
  have hfirst : (self.touch (irqWord i) (plicInterruptWords n)).oob = true := by
    rcases h with h | h
    · exact touch_oob_of self _ _ h
    · rw [touch_oob, decide_eq_false (by omega), Bool.not_false, Bool.or_true]
  simp only [scanIrq]
  split
  · split
    · exact touch_oob_of _ _ _ hfirst
    · exact touch_oob_of _ _ _ hfirst
  · exact hfirst

theorem scanIrqs_oob_of (self : Plic n) (best : Best) (is : List Nat)
    (h : self.oob = true ∨ ∃ i ∈ is, plicInterruptWords n ≤ irqWord i) :
    (self.scanIrqs best is).1.oob = true := by
  induction is generalizing self best with
  | nil =>
      rcases h with h | ⟨i, hi, -⟩
      · exact h
      · cases hi
  | cons i is ih =>
      refine ih (self.scanIrq best i).1 (self.scanIrq best i).2 ?_
      rcases h with h | ⟨j, hj, hword⟩
      · exact Or.inl (scanIrq_oob_of self best i (Or.inl h))
      · rcases List.mem_cons.mp hj with rfl | hj
        · exact Or.inl (scanIrq_oob_of self best j (Or.inr hword))
        · exact Or.inr ⟨j, hj, hword⟩

theorem notifyContext_oob_of (self : Plic n) (hart : Cpu c) (best : Best) (i : Fin plicContexts)
    (h : self.oob = true) : (self.notifyContext hart best i).1.oob = true := by
  have hfirst : (if (self.context i).threshold < best.priority then
      self.touch best.irqWord (plicInterruptWords n) else self).oob = true := by
    split
    · exact touch_oob_of self _ _ h
    · exact h
  simp only [notifyContext]
  split
  · exact hfirst
  · exact hfirst

/-- From four sources on, the last source's word is not in the arrays. -/
theorem plicInterruptWords_le (hn : 4 ≤ n) : plicInterruptWords n ≤ irqWord n := by
  unfold plicInterruptWords irqWord
  split <;> omega

/-- So every call of `_processInterrupts` leaves the arrays, whatever the state is. -/
theorem processInterrupts_oob_of (self : Plic n) (hart : Cpu c) (hn : 4 ≤ n) :
    (self.processInterrupts hart).1.oob = true := by
  have hscan := scanIrqs_oob_of self ⟨0, 0, 0#32, 0#32⟩ (List.range' 1 n)
    (Or.inr ⟨n, by rw [List.mem_range'_1]; omega, plicInterruptWords_le hn⟩)
  exact notifyContext_oob_of _ _ _ _ (notifyContext_oob_of _ _ _ _ hscan)

theorem plicInterruptWords_small (hn : n ≤ 3) : plicInterruptWords n = 1 := by
  unfold plicInterruptWords
  split <;> omega

theorem irqWord_small {i : Nat} (hi : i ≤ 3) : irqWord i = 0 := Nat.div_eq_of_lt (by omega)

theorem scanIrqs_oob_small (self : Plic n) (best : Best) (is : List Nat) (hn : n ≤ 3)
    (his : ∀ i ∈ is, 1 ≤ i ∧ i ≤ n) : (self.scanIrqs best is).1.oob = self.oob := by
  induction is generalizing self best with
  | nil => rfl
  | cons i is ih =>
      obtain ⟨h1, hi⟩ := his i List.mem_cons_self
      have hword : irqWord i < plicInterruptWords n := by
        rw [irqWord_small (by omega), plicInterruptWords_small hn]
        decide
      have hstep : (self.scanIrq best i).1.oob = self.oob := by
        simp only [scanIrq, touch_of_lt self hword, touch_of_lt self (show i - 1 < n by omega)]
        split
        · split <;> rfl
        · rfl
      exact (ih (self.scanIrq best i).1 (self.scanIrq best i).2
        fun j hj => his j (List.mem_cons_of_mem i hj)).trans hstep

/-- With up to three sources `_processInterrupts` stays inside its arrays. -/
theorem processInterrupts_oob_small (self : Plic n) (hart : Cpu c) (hn : n ≤ 3) :
    (self.processInterrupts hart).1.oob = self.oob := by
  have hscan : (self.scanIrqs ⟨0, 0, 0#32, 0#32⟩ (List.range' 1 n)).1.oob = self.oob := by
    refine scanIrqs_oob_small self _ _ hn fun i hi => ?_
    have := List.mem_range'_1.mp hi
    omega
  have hbest : (self.scanIrqs ⟨0, 0, 0#32, 0#32⟩ (List.range' 1 n)).2.irqWord
      < plicInterruptWords n := by
    rw [scanIrqs_eq, plicInterruptWords_small hn]
    rcases scannedBest_ok self with ⟨h, -⟩ | ⟨b, hb, h⟩
    · rw [show List.foldl _ _ _ = _ from h]
      exact Nat.zero_lt_one
    · have hbn := hb.mem.1.2
      rw [show List.foldl _ _ _ = _ from h, bestAt, irqWord_small (by omega)]
      exact Nat.zero_lt_one
  calc (self.processInterrupts hart).1.oob
      = ((self.scanIrqs ⟨0, 0, 0#32, 0#32⟩ (List.range' 1 n)).1.notifyContext hart
          (self.scanIrqs ⟨0, 0, 0#32, 0#32⟩ (List.range' 1 n)).2 0).1.oob :=
        notifyContext_oob _ _ _ hbest 1
    _ = (self.scanIrqs ⟨0, 0, 0#32, 0#32⟩ (List.range' 1 n)).1.oob :=
        notifyContext_oob _ _ _ hbest 0
    _ = self.oob := hscan

/-! ## Up to three sources -/

/-- Below 4 the source's idea of a bit is the guest's. -/
theorem codeBit_small {k : Nat} (arr : Vector (BitVec 32) k) {i : Nat} (hi : i ≤ 3) :
    codeBit arr i = guestBit arr i := by
  have hbit : i % 4 = i % 32 := by omega
  have hword : irqWord i = i / 32 := by
    unfold irqWord
    omega
  rw [codeBit, irqMask, and_bit_bne_zero, hbit, hword, guestBit]

/-- The source that is first among all that are pending, for whichever context. -/
def TopPending (self : Plic n) (b : Nat) : Prop :=
  IsFirstMax self.sourcePriority (fun i => (1 ≤ i ∧ i ≤ n) ∧ guestBit self.pending i = true) b

theorem Eligible.seen {self : Plic n} {k : Fin plicContexts} {i : Nat} (h : self.Eligible k i)
    (hn : n ≤ 3) : self.Seen n i := by
  have hi := h.high
  refine ⟨⟨h.low, hi⟩, ?_, Nat.zero_lt_of_lt h.above⟩
  rw [codeBit_small _ (by omega)]
  exact h.pending

/-- The first of the sources the scan sees is the first of all that are pending. -/
theorem TopPending.of_seen {self : Plic n} {b : Nat} (hn : n ≤ 3)
    (h : IsFirstMax self.sourcePriority (self.Seen n) b) : self.TopPending b := by
  have hpending : ∀ i, i ≤ n → codeBit self.pending i = guestBit self.pending i :=
    fun i hi => codeBit_small _ (by omega)
  refine ⟨⟨h.mem.1, hpending b h.mem.1.2 ▸ h.mem.2.1⟩, ?_⟩
  rintro j ⟨hj, hbit⟩
  by_cases hpos : 0 < self.sourcePriority j
  · exact h.top j ⟨hj, (hpending j hj.2).trans hbit, hpos⟩
  · have := h.mem.2.2
    left
    omega

/-- A context accepts a source that is seen exactly when it may be offered to it. -/
theorem accepts_bestAt {self : Plic n} {b : Nat} (hn : n ≤ 3) (h : self.Seen n b)
    (k : Fin plicContexts) : accepts (self.context k) (self.bestAt b) = true ↔
      self.Eligible k b := by
  have hb : b ≤ 3 := by have := h.1.2; omega
  have hbit : ∀ {k : Nat} (arr : Vector (BitVec 32) k),
      (getWord arr (irqWord b) &&& irqMask b != 0#32) = guestBit arr b :=
    fun arr => codeBit_small arr hb
  have hclear : ∀ {k : Nat} (arr : Vector (BitVec 32) k),
      (getWord arr (irqWord b) &&& irqMask b == 0#32) = !guestBit arr b := by
    intro k arr
    rw [← hbit arr, bne, Bool.not_not]
  have hthreshold : (self.context k).threshold < getWord self.priority (b - 1)
      ↔ (self.context k).threshold.toNat < self.sourcePriority b := BitVec.lt_def
  rw [accepts, bestAt, Bool.and_eq_true, Bool.and_eq_true, decide_eq_true_eq, hthreshold,
    hclear, hbit, Bool.not_eq_true']
  constructor
  · rintro ⟨⟨habove, hidle⟩, henabled⟩
    exact ⟨h.1.1, h.1.2, (codeBit_small _ hb).symm.trans h.2.1, henabled, hidle, habove⟩
  · intro he
    exact ⟨⟨he.above, he.idle⟩, he.enabled⟩

/-- With up to three sources a context gets the right claim exactly when it may be offered the
first pending source, or nothing at all. -/
theorem arbitrated_small (self : Plic n) (hart : Cpu c) (hn : n ≤ 3) (k : Fin plicContexts) :
    self.Arbitrated k ((self.processInterrupts hart).1.context k).claim.toNat
      ↔ ∀ b, self.TopPending b → (∃ i, self.Eligible k i) → self.Eligible k b := by
  rw [processInterrupts_claim]
  rcases scannedBest_ok self with ⟨hbest, hnone⟩ | ⟨b, hb, hbest⟩
  · -- nothing is pending with a positive priority
    have hno : ∀ i, ¬ self.Eligible k i := fun i hi => hnone i (hi.seen hn)
    have hrefuse : accepts (self.context k) self.scannedBest = false := by
      have hzero : ¬(self.context k).threshold < 0#32 :=
        fun h => absurd (BitVec.lt_def.mp h) (Nat.not_lt_zero _)
      rw [hbest, accepts, decide_eq_false hzero]
      rfl
    rw [hrefuse, if_neg Bool.false_ne_true]
    exact iff_of_true (Or.inr ⟨rfl, hno⟩) fun _ _ ⟨i, hi⟩ => absurd hi (hno i)
  · have htop : self.TopPending b := .of_seen hn hb
    have hiff := accepts_bestAt hn hb.mem k
    rw [hbest]
    by_cases hel : self.Eligible k b
    · have hclaim : (BitVec.ofNat 32 b).toNat = b := by
        rw [BitVec.toNat_ofNat, Nat.mod_eq_of_lt (by have := hel.high; omega)]
      rw [if_pos (hiff.mpr hel), bestAt, hclaim]
      refine iff_of_true (Or.inl (hb.of_subset hel fun j hj => hj.seen hn)) ?_
      intro b' hb' _
      rwa [hb'.unique htop]
    · rw [if_neg fun h => hel (hiff.mp h)]
      constructor
      · rintro (hzero | ⟨-, hno⟩) b' _ ⟨i, hi⟩
        · exact absurd hzero.mem.low (by decide)
        · exact absurd hi (hno i)
      · intro h
        exact Or.inr ⟨rfl, fun i hi => hel (h b htop ⟨i, hi⟩)⟩

/-- With the one source of `main` there is nothing to hide. -/
theorem arbitrated_one (self : Plic 1) (hart : Cpu c) (k : Fin plicContexts) :
    self.Arbitrated k ((self.processInterrupts hart).1.context k).claim.toNat := by
  rw [arbitrated_small self hart (by decide)]
  rintro b hb ⟨i, hi⟩
  have hb1 : b = 1 := le_antisymm hb.mem.1.2 hb.mem.1.1
  have hi1 : i = 1 := le_antisymm hi.high hi.low
  rw [hb1.trans hi1.symm]
  exact hi

end Plic

/-! ## Any number of sources -/

/-- **Arbitration, for every number of sources and every state**: `_processInterrupts` stays inside
its arrays and leaves each context the claim it should have exactly when there are at most three
sources and no context that could be offered a source is refused the first pending one. -/
theorem plic_arbitration_iff (self : Plic n) (hart : Cpu c) (hdef : self.oob = false) :
    ((self.processInterrupts hart).1.oob = false
        ∧ ∀ k, self.Arbitrated k ((self.processInterrupts hart).1.context k).claim.toNat)
      ↔ n ≤ 3 ∧ ∀ k b, self.TopPending b → (∃ i, self.Eligible k i) → self.Eligible k b := by
  by_cases hn : n ≤ 3
  · rw [Plic.processInterrupts_oob_small self hart hn]
    simp only [Plic.arbitrated_small self hart hn, hdef, hn, true_and]
  · have hoob := Plic.processInterrupts_oob_of self hart (show 4 ≤ n by omega)
    refine iff_of_false ?_ fun h => hn h.1
    rintro ⟨hfalse, -⟩
    rw [hoob] at hfalse
    cases hfalse

/-- Two pending sources, the second of the higher priority, and what the M context enables. -/
def twoSources (enable : BitVec 32) : Plic 2 :=
  { plicInit 2 with
    priority := #v[1#32, 2#32]
    pending := #v[6#32]
    contexts := #v[⟨#v[enable], 0#32, 0#32, #v[0#32]⟩, ⟨#v[0#32], 0#32, 0#32, #v[0#32]⟩] }

theorem twoSources_top (enable : BitVec 32) : (twoSources enable).TopPending 2 := by
  refine ⟨⟨by decide, show (6#32).getLsbD 2 = true by decide⟩, ?_⟩
  rintro j ⟨⟨hlow, hhigh⟩, -⟩
  interval_cases j
  · exact Or.inl (show (1#32).toNat < (2#32).toNat by decide)
  · exact Or.inr ⟨rfl, le_refl 2⟩

/-- Both sources are enabled for the M context, which is offered the second. -/
theorem plic_arbitration_two :
    let after := ((twoSources 6#32).processInterrupts (rvInit true : Cpu .rv64)).1
    (twoSources 6#32).Eligible 0 1 ∧ (twoSources 6#32).Eligible 0 2
      ∧ (after.context 0).claim = 2#32
      ∧ ∀ k, (twoSources 6#32).Arbitrated k (after.context k).claim.toNat := by
  intro after
  have hboth : ∀ i, i = 1 ∨ i = 2 → (twoSources 6#32).Eligible 0 i := by
    rintro i (rfl | rfl) <;>
      exact ⟨by decide, by decide, by decide, by decide, by decide, by decide⟩
  refine ⟨hboth 1 (Or.inl rfl), hboth 2 (Or.inr rfl), by decide,
    ((plic_arbitration_iff (twoSources 6#32) (rvInit true) rfl).mpr ⟨by decide, ?_⟩).2⟩
  rintro k b hb ⟨i, hi⟩
  obtain rfl := hb.unique (twoSources_top _)
  match k with
  | 0 => exact hboth 2 (Or.inr rfl)
  | 1 =>
      -- the S context enables nothing
      have henabled := hi.enabled
      have hlow := hi.low
      have hhigh := hi.high
      interval_cases i <;> exact absurd henabled (by decide)

/-- The second source is enabled for nobody. -/
def hiddenSource : Plic 2 := twoSources 2#32

/-- The M context is offered nothing. -/
theorem hidden_source_not_offered :
    ¬ ∀ k, hiddenSource.Arbitrated k
      ((hiddenSource.processInterrupts (rvInit true : Cpu .rv64)).1.context k).claim.toNat := by
  intro h
  have hfirst : hiddenSource.Eligible 0 1 :=
    ⟨by decide, by decide, by decide, by decide, by decide, by decide⟩
  have hclaim : ((hiddenSource.processInterrupts (rvInit true : Cpu .rv64)).1.context 0).claim.toNat
      = 0 := by decide
  have h0 := h 0
  rw [hclaim] at h0
  rcases h0 with hzero | ⟨-, hno⟩
  · exact absurd hzero.mem.low (by decide)
  · exact hno 1 hfirst

end RV640
