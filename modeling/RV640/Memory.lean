import RV640.Lib.Bits

set_option autoImplicit false

/-! # Flat guest memory (`memory.c` without `CONFIG_DOS`)

The Linux build keeps the guest RAM in one block of host memory. `data` is the host memory from
`self->data` on: the asserts that keep an access inside the block are compiled out of the
shipped build, so the accesses are defined for every offset and the asserts are a predicate.
-/

namespace RV640

open Bits

/-- `Memory`, the flat one. -/
structure Memory where
  data : Nat → Byte

/-- The asserts of `mem_read` and `mem_write`: `addr < dev.size` and `size <= dev.size - addr`. -/
def memAsserts (devSize addr size : Nat) : Prop := addr < devSize ∧ size ≤ devSize - addr

instance (devSize addr size : Nat) : Decidable (memAsserts devSize addr size) := by
  unfold memAsserts
  infer_instance

/-- `mem_read`. -/
def memRead (self : Memory) (addr size : Nat) : List Byte :=
  (List.range size).map fun i => self.data (addr + i)

/-- `mem_write`. -/
def memWrite (self : Memory) (addr : Nat) : List Byte → Memory
  | [] => self
  | b :: bs => memWrite { self with data := Function.update self.data addr b } (addr + 1) bs

/-- `memcmp`: the sign of the first difference. -/
def memcmp : List Byte → List Byte → Ordering
  | a :: as, b :: bs => (compare a.toNat b.toNat).then (memcmp as bs)
  | _, _ => .eq

/-- `mem_cmp`. -/
def memCmp (self : Memory) (addr : Nat) (buf : List Byte) : Ordering :=
  memcmp (memRead self addr buf.length) buf

/-- `mem_write` changes no byte outside the range it was given. -/
theorem memWrite_frame (self : Memory) (addr : Nat) (bs : List Byte) (i : Nat)
    (h : i < addr ∨ addr + bs.length ≤ i) : (memWrite self addr bs).data i = self.data i := by
  induction bs generalizing self addr with
  | nil => rfl
  | cons b bs ih =>
      rw [memWrite, ih _ _ (by simp only [List.length_cons] at h; omega)]
      have hne : i ≠ addr := by simp only [List.length_cons] at h; omega
      simp [Function.update_of_ne hne]

/-- `mem_write`, byte by byte. -/
theorem memWrite_data (self : Memory) (addr : Nat) (bs : List Byte) (i : Nat) :
    (memWrite self addr bs).data i
      = if addr ≤ i ∧ i < addr + bs.length then bs[i - addr]?.getD 0#8 else self.data i := by
  split
  · rename_i hi
    induction bs generalizing self addr with
    | nil =>
        simp only [List.length_nil] at hi
        omega
    | cons b bs ih =>
        rw [memWrite]
        by_cases h0 : i = addr
        · -- the first byte; the others are behind it
          rw [memWrite_frame _ _ _ _ (by omega), h0, Nat.sub_self]
          exact Function.update_self addr b self.data
        · have hlt : addr + 1 ≤ i ∧ i < addr + 1 + bs.length := by
            simp only [List.length_cons] at hi
            omega
          rw [ih _ _ hlt, show i - addr = i - (addr + 1) + 1 by omega, List.getElem?_cons_succ]
  · rename_i hi
    exact memWrite_frame _ _ _ _ (by omega)

theorem memcmp_append (as bs as' bs' : List Byte) (h : as.length = bs.length) :
    memcmp (as ++ as') (bs ++ bs') = (memcmp as bs).then (memcmp as' bs') := by
  induction as generalizing bs with
  | nil =>
      cases bs with
      | nil => rfl
      | cons b bs => simp at h
  | cons a as ih =>
      cases bs with
      | nil => simp at h
      | cons b bs =>
          simp only [List.length_cons, Nat.add_right_cancel_iff] at h
          simp only [List.cons_append, memcmp, ih bs h, Ordering.then_assoc]

end RV640
