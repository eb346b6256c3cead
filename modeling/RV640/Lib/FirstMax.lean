import Mathlib.Tactic

set_option autoImplicit false

/-! # The first maximum of a set of numbers

`IsFirstMax f S b` says that `b` is the smallest member of `S` on which `f` is maximal. There is at
most one, and a scan upwards that replaces its candidate only by a strictly larger one finds it.
-/

variable {β : Type} [LinearOrder β]

/-- `b` is the smallest of the members of `S` with the largest value. -/
structure IsFirstMax (f : Nat → β) (S : Nat → Prop) (b : Nat) : Prop where
  mem : S b
  top : ∀ j, S j → f j < f b ∨ f j = f b ∧ b ≤ j

namespace IsFirstMax

variable {f : Nat → β} {S T : Nat → Prop} {b b' : Nat}

theorem unique (h : IsFirstMax f S b) (h' : IsFirstMax f S b') : b = b' := by
  rcases h.top b' h'.mem with hlt | ⟨heq, hle⟩
  · rcases h'.top b h.mem with hlt' | ⟨heq', -⟩
    · exact absurd hlt' (lt_asymm hlt)
    · exact absurd heq' (ne_of_gt hlt)
  · rcases h'.top b h.mem with hlt' | ⟨-, hle'⟩
    · exact absurd heq (ne_of_gt hlt')
    · exact le_antisymm hle hle'

/-- The top of a set is the top of every part of it that it belongs to. -/
theorem of_subset (h : IsFirstMax f S b) (hT : T b) (hsub : ∀ j, T j → S j) : IsFirstMax f T b :=
  ⟨hT, fun j hj => h.top j (hsub j hj)⟩

theorem congr (h : IsFirstMax f S b) (hST : ∀ j, S j ↔ T j) : IsFirstMax f T b :=
  h.of_subset ((hST b).mp h.mem) fun j hj => (hST j).mpr hj

/-- A later member with a larger value takes over. -/
theorem insert_of_lt (h : IsFirstMax f S b) {i : Nat} (hlt : f b < f i) :
    IsFirstMax f (fun j => S j ∨ j = i) i := by
  refine ⟨Or.inr rfl, ?_⟩
  rintro j (hj | rfl)
  · left
    rcases h.top j hj with hjb | ⟨hjb, -⟩
    · exact hjb.trans hlt
    · exact hjb.trans_lt hlt
  · exact Or.inr ⟨rfl, le_rfl⟩

/-- A later member with no larger value does not. -/
theorem insert_of_le (h : IsFirstMax f S b) {i : Nat} (hle : f i ≤ f b) (hbi : b ≤ i) :
    IsFirstMax f (fun j => S j ∨ j = i) b := by
  refine ⟨Or.inl h.mem, ?_⟩
  rintro j (hj | rfl)
  · exact h.top j hj
  · rcases lt_or_eq_of_le hle with hlt | heq
    · exact Or.inl hlt
    · exact Or.inr ⟨heq, hbi⟩

end IsFirstMax
