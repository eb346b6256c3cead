import Mathlib.Logic.Function.Basic
import Mathlib.Tactic

set_option autoImplicit false

/-! # Ranges of an array

An array without bounds is a function of the index. `readAt` lists a range of it and `writeAt`
overwrites a range; the lemmas say how ranges split and what a write leaves alone.
-/

namespace Bytes

variable {β : Type}

/-- The `n` values from index `a`. -/
def readAt (f : Nat → β) (a n : Nat) : List β := (List.range n).map fun i => f (a + i)

/-- The values `bs` written from index `a`. -/
def writeAt (f : Nat → β) (a : Nat) (bs : List β) : Nat → β :=
  fun i => if a ≤ i then bs[i - a]?.getD (f i) else f i

/-! ## Reading -/

@[simp] theorem readAt_length (f : Nat → β) (a n : Nat) : (readAt f a n).length = n := by
  simp [readAt]

@[simp] theorem readAt_zero (f : Nat → β) (a : Nat) : readAt f a 0 = [] := rfl

theorem readAt_getElem? (f : Nat → β) (a n i : Nat) :
    (readAt f a n)[i]? = if i < n then some (f (a + i)) else none := by
  unfold readAt
  rw [List.getElem?_map]
  by_cases h : i < n
  · simp [h]
  · simp [h]

theorem readAt_congr {f g : Nat → β} {a b n : Nat} (h : ∀ i, i < n → f (a + i) = g (b + i)) :
    readAt f a n = readAt g b n := by
  unfold readAt
  apply List.map_congr_left
  intro i hi
  exact h i (List.mem_range.mp hi)

theorem readAt_add (f : Nat → β) (a n m : Nat) :
    readAt f a (n + m) = readAt f a n ++ readAt f (a + n) m := by
  unfold readAt
  rw [List.range_add, List.map_append, List.map_map]
  congr 1
  apply List.map_congr_left
  intro i _
  simp only [Function.comp, Nat.add_assoc]

/-! ## Writing -/

@[simp] theorem writeAt_nil (f : Nat → β) (a : Nat) : writeAt f a [] = f := by
  funext i
  simp [writeAt]

theorem writeAt_inside (f : Nat → β) (a : Nat) (bs : List β) {i : Nat} (hi : i < bs.length) :
    writeAt f a bs (a + i) = bs[i] := by
  simp [writeAt, hi]

theorem writeAt_outside (f : Nat → β) (a : Nat) (bs : List β) {i : Nat}
    (hi : i < a ∨ a + bs.length ≤ i) : writeAt f a bs i = f i := by
  unfold writeAt
  split
  · rw [List.getElem?_eq_none (by omega)]
    rfl
  · rfl

theorem writeAt_append (f : Nat → β) (a : Nat) (xs ys : List β) :
    writeAt f a (xs ++ ys) = writeAt (writeAt f a xs) (a + xs.length) ys := by
  funext i
  by_cases hx : i < a + xs.length
  · rw [writeAt_outside _ _ ys (Or.inl hx)]
    unfold writeAt
    by_cases ha : a ≤ i
    · rw [if_pos ha, if_pos ha, List.getElem?_append_left (by omega)]
    · rw [if_neg ha, if_neg ha]
  · have ha : a ≤ i := by omega
    rw [writeAt, if_pos ha, writeAt, if_pos (by omega), List.getElem?_append_right (by omega),
      writeAt_outside f a xs (by omega), Nat.sub_sub]

/-- A range read back from a write over all of it. -/
theorem readAt_writeAt_self (f : Nat → β) (a : Nat) (bs : List β) :
    readAt (writeAt f a bs) a bs.length = bs := by
  apply List.ext_getElem?
  intro i
  rw [readAt_getElem?]
  split
  · rename_i hi
    rw [writeAt_inside f a bs hi, List.getElem?_eq_getElem hi]
  · rename_i hi
    rw [List.getElem?_eq_none (by omega)]

/-- Two arrays that hold the same range hold the same range after the same write in it. -/
theorem writeAt_congr {f g : Nat → β} {a b o n : Nat} (bs : List β) (h : ∀ i, i < n →
    f (a + i) = g (b + i)) : ∀ i, i < n →
      writeAt f (a + o) bs (a + i) = writeAt g (b + o) bs (b + i) := by
  intro i hi
  unfold writeAt
  rw [h i hi]
  by_cases ho : o ≤ i
  · rw [if_pos (by omega), if_pos (by omega), show a + i - (a + o) = b + i - (b + o) by omega]
  · rw [if_neg (by omega), if_neg (by omega)]

/-! ## Consecutive ranges -/

/-- Each range starts where the one before it ends, the first one at `a`. -/
def Consecutive : Nat → List (Nat × List β) → Prop
  | _, [] => True
  | a, w :: ws => w.1 = a ∧ Consecutive (a + w.2.length) ws

/-- The ranges lie in the one they add up to. -/
theorem Consecutive.range {a : Nat} {ws : List (Nat × List β)} (h : Consecutive a ws)
    {w : Nat × List β} (hw : w ∈ ws) :
    a ≤ w.1 ∧ w.1 + w.2.length ≤ a + (ws.flatMap Prod.snd).length := by
  induction ws generalizing a with
  | nil => cases hw
  | cons v ws ih =>
      obtain ⟨hv, hws⟩ := h
      rw [List.flatMap_cons, List.length_append]
      rcases List.mem_cons.mp hw with rfl | hw
      · omega
      · have := ih hws hw
        omega

/-- Writes of consecutive ranges are one write. -/
theorem Consecutive.writeAt {a : Nat} {ws : List (Nat × List β)} (h : Consecutive a ws)
    (f : Nat → β) :
    ws.foldl (fun f w => Bytes.writeAt f w.1 w.2) f = Bytes.writeAt f a (ws.flatMap Prod.snd) := by
  induction ws generalizing a f with
  | nil => exact (writeAt_nil f a).symm
  | cons v ws ih =>
      obtain ⟨hv, hws⟩ := h
      rw [List.foldl_cons, ih hws, List.flatMap_cons, writeAt_append, hv]

/-- Induction for a list that is cut into chunks of `n`, the last one shorter. -/
theorem chunk_induction {n : Nat} (hn : 0 < n) {P : List β → Prop}
    (short : ∀ bs, bs.length < n → P bs)
    (full : ∀ bs, n ≤ bs.length → P (bs.drop n) → P bs) (bs : List β) : P bs := by
  induction hlen : bs.length using Nat.strong_induction_on generalizing bs with
  | _ len ih =>
      by_cases h : bs.length < n
      · exact short bs h
      · refine full bs (not_lt.mp h) (ih (bs.drop n).length ?_ _ rfl)
        rw [List.length_drop]
        omega

end Bytes
