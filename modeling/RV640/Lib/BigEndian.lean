import RV640.Lib.Bytes
import RV640.Lib.LittleEndian

set_option autoImplicit false

/-! # Words stored highest byte first

A word of `n` bytes in an array without bounds. `ldBe` reads the one at an index and `stBe` writes
it; a read sees the last write of its own place and none of a place apart from it.
-/

namespace Bytes

open Bits

variable {w : Nat}

/-- The word whose `n` bytes stand at index `i`, the highest first. -/
def ldBe (n : Nat) (f : Nat → Byte) (i : Nat) : BitVec w := ofBytes (readAt f i n).reverse

/-- The `n` bytes of a word, the highest first. -/
def beBytes (n : Nat) (v : BitVec w) : List Byte := (toBytes n v).reverse

/-- Store a word of `n` bytes at index `i`. -/
def stBe (n : Nat) (f : Nat → Byte) (i : Nat) (v : BitVec w) : Nat → Byte :=
  writeAt f i (beBytes n v)

@[simp] theorem beBytes_length (n : Nat) (v : BitVec w) : (beBytes n v).length = n := by
  simp [beBytes]

theorem readAt_succ {β : Type} (f : Nat → β) (a n : Nat) :
    readAt f a (n + 1) = f a :: readAt f (a + 1) n := by
  rw [Nat.add_comm n 1, readAt_add]
  rfl

/-- A part of a range that was read. -/
theorem take_drop_readAt {β : Type} (f : Nat → β) (a : Nat) {n i k : Nat} (h : i + k ≤ n) :
    ((readAt f a n).drop i).take k = readAt f (a + i) k := by
  obtain ⟨m, rfl⟩ : ∃ m, n = i + (k + m) := ⟨n - (i + k), by omega⟩
  rw [readAt_add, List.drop_left' (readAt_length f a i), readAt_add,
    List.take_left' (readAt_length f (a + i) k)]

/-- A word is assembled from the bytes it is cut into. -/
theorem ofBytes_toBytes {n : Nat} (h : w ≤ 8 * n) (v : BitVec w) : ofBytes (toBytes n v) = v := by
  apply BitVec.eq_of_getLsbD_eq
  intro i hi
  rw [getLsbD_ofBytes, toBytes_getElem?, if_pos (by omega), Option.getD_some, getByte,
    BitVec.getLsbD_extractLsb']
  have hmod : i % 8 < 8 := Nat.mod_lt _ (by omega)
  rw [decide_eq_true hi, decide_eq_true hmod, show 8 * (i / 8) + i % 8 = i by omega]
  simp

theorem ldBe_congr {n : Nat} {f g : Nat → Byte} {i j : Nat}
    (h : ∀ k, k < n → f (i + k) = g (j + k)) : (ldBe n f i : BitVec w) = ldBe n g j := by
  rw [ldBe, ldBe, readAt_congr h]

/-- Bytes that read as `beBytes` hold the word. -/
theorem ldBe_of_readAt {n : Nat} (h : w ≤ 8 * n) {f : Nat → Byte} {i : Nat} {v : BitVec w}
    (hf : readAt f i n = beBytes n v) : ldBe n f i = v := by
  rw [ldBe, hf, beBytes, List.reverse_reverse, ofBytes_toBytes h]

/-- A stored word is read back. -/
theorem ldBe_stBe {n : Nat} (h : w ≤ 8 * n) (f : Nat → Byte) (i : Nat) (v : BitVec w) :
    ldBe n (stBe n f i v) i = v := by
  apply ldBe_of_readAt h
  have := readAt_writeAt_self f i (beBytes n v)
  rwa [beBytes_length] at this

theorem stBe_outside (n : Nat) (f : Nat → Byte) (i : Nat) (v : BitVec w) {j : Nat}
    (h : j < i ∨ i + n ≤ j) : stBe n f i v j = f j :=
  writeAt_outside f i _ (by rwa [beBytes_length])

/-- A word apart from the one that is stored is as before. -/
theorem ldBe_stBe_apart {v : Nat} {n : Nat} (f : Nat → Byte) {i j : Nat} (x : BitVec v)
    (h : j + n ≤ i ∨ i + n ≤ j) : (ldBe n (stBe n f i x) j : BitVec w) = ldBe n f j := by
  apply ldBe_congr
  intro k hk
  exact stBe_outside n f i x (by omega)

end Bytes
