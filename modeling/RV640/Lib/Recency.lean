import Mathlib.Data.List.Induction
import Mathlib.Data.List.Nodup

set_option autoImplicit false

/-! # Recency lists

A list with the most recently used element in front: a use takes the element out and puts it back at
the front. The list then orders its elements by their last use, and those never used by the order
they started in; the last one is the least recently used.
-/

namespace Recency

variable {ι : Type} [DecidableEq ι]

/-- The list after a use of `x`. -/
def touch (l : List ι) (x : ι) : List ι := x :: l.erase x

/-- The list after the uses `xs`, the oldest first. -/
def after (l xs : List ι) : List ι := xs.foldl touch l

/-- The number of the last use of `x`, counted from 1; 0 where there is none. -/
def lastUse (xs : List ι) (x : ι) : Nat := xs.length - xs.reverse.idxOf x

@[simp] theorem after_nil (l : List ι) : after l [] = l := rfl

theorem after_append (l xs : List ι) (x : ι) : after l (xs ++ [x]) = x :: (after l xs).erase x :=
  List.foldl_append

theorem lastUse_le (xs : List ι) (x : ι) : lastUse xs x ≤ xs.length := Nat.sub_le _ _

theorem lastUse_append_self (xs : List ι) (x : ι) : lastUse (xs ++ [x]) x = xs.length + 1 := by
  simp [lastUse]

theorem lastUse_append_ne (xs : List ι) {x y : ι} (h : y ≠ x) :
    lastUse (xs ++ [x]) y = lastUse xs y := by
  have hidx : (x :: xs.reverse).idxOf y = xs.reverse.idxOf y + 1 := List.idxOf_cons_ne _ h.symm
  rw [lastUse, lastUse, List.reverse_append, List.reverse_singleton, List.singleton_append, hidx,
    List.length_append, List.length_singleton]
  omega

/-! ## The order of the list -/

theorem after_nodup {l : List ι} (h : l.Nodup) (xs : List ι) : (after l xs).Nodup := by
  induction xs using List.reverseRecOn with
  | nil => exact h
  | append_singleton xs x ih =>
      rw [after_append, List.nodup_cons]
      exact ⟨ih.not_mem_erase, ih.erase x⟩

/-- `a` was used after `b`, or neither was and `a` came first. -/
def Newer (r : ι → ι → Prop) (xs : List ι) (a b : ι) : Prop :=
  lastUse xs b < lastUse xs a ∨ lastUse xs a = 0 ∧ lastUse xs b = 0 ∧ r a b

/-- **The list is ordered by the last use**. -/
theorem after_pairwise {l : List ι} {r : ι → ι → Prop} (hnd : l.Nodup) (hl : l.Pairwise r)
    (xs : List ι) : (after l xs).Pairwise (Newer r xs) := by
  induction xs using List.reverseRecOn with
  | nil => exact hl.imp fun hab => Or.inr ⟨rfl, rfl, hab⟩
  | append_singleton xs x ih =>
      have hne : ∀ a ∈ (after l xs).erase x, a ≠ x :=
        fun a ha => ((after_nodup hnd xs).mem_erase_iff.mp ha).1
      rw [after_append, List.pairwise_cons]
      constructor
      · -- the element in front was used last
        intro b hb
        have hle := lastUse_le xs b
        rw [Newer, lastUse_append_self, lastUse_append_ne xs (hne b hb)]
        exact Or.inl (by omega)
      · refine (ih.sublist List.erase_sublist).imp_of_mem ?_
        intro a b ha hb hab
        rwa [Newer, lastUse_append_ne xs (hne a ha), lastUse_append_ne xs (hne b hb)]

/-- The last element of the list is the one whose use is the oldest. -/
theorem newer_getLast {l : List ι} {r : ι → ι → Prop} (hnd : l.Nodup) (hl : l.Pairwise r)
    (xs : List ι) {x y : ι} (hx : (after l xs).getLast? = some x) (hy : y ∈ after l xs)
    (hne : y ≠ x) : Newer r xs y x := by
  have hsorted := after_pairwise hnd hl xs
  obtain ⟨front, hfront⟩ := List.getLast?_eq_some_iff.mp hx
  rw [hfront] at hsorted hy
  rcases List.mem_append.mp hy with hmem | hmem
  · exact (List.pairwise_append.mp hsorted).2.2 y hmem x (List.mem_singleton_self x)
  · exact absurd (List.mem_singleton.mp hmem) hne

end Recency
