import Mathlib.Data.Fintype.Basic
import Mathlib.Logic.Function.Basic

set_option autoImplicit false

/-! # Write-back caches

A cache of slots `ι` in front of a backing store from keys `κ` to blocks `β`. Each slot holds the
block of one key, dirty when the store is behind. What the cache stands for is its `view`; writing
back and loading leave the view alone, modifying a slot changes it at one key, and writing every
slot back makes the store equal to the view.
-/

/-- The slots of a cache and the store behind them. -/
structure WriteBack (ι κ β : Type) where
  key : ι → κ
  block : ι → β
  dirty : ι → Bool
  store : κ → β

namespace WriteBack

variable {ι κ β : Type}

/-- No key is cached twice, and a clean slot agrees with the store. -/
structure Inv (c : WriteBack ι κ β) : Prop where
  inj : Function.Injective c.key
  clean : ∀ i, c.dirty i = false → c.block i = c.store (c.key i)

/-- `v` is what the cache stands for: the cached block of a cached key, the store elsewhere. -/
structure View (c : WriteBack ι κ β) (v : κ → β) : Prop where
  cached : ∀ i, v (c.key i) = c.block i
  uncached : ∀ k, (∀ i, c.key i ≠ k) → v k = c.store k

/-- When every slot is in the store, the store is the view. -/
theorem View.eq_store {c : WriteBack ι κ β} {v : κ → β} (h : c.View v)
    (hstored : ∀ i, c.block i = c.store (c.key i)) : v = c.store := by
  funext k
  by_cases hk : ∃ i, c.key i = k
  · obtain ⟨i, rfl⟩ := hk
    rw [h.cached i, hstored i]
  · exact h.uncached k fun i hi => hk ⟨i, hi⟩

/-! ## Operations -/

/-- Write the block of a slot to the store. -/
def writeBack [DecidableEq κ] (c : WriteBack ι κ β) (i : ι) : WriteBack ι κ β :=
  { c with store := Function.update c.store (c.key i) (c.block i) }

/-- Replace a slot by the stored block of another key. -/
def load [DecidableEq ι] (c : WriteBack ι κ β) (i : ι) (k : κ) : WriteBack ι κ β where
  key := Function.update c.key i k
  block := Function.update c.block i (c.store k)
  dirty := Function.update c.dirty i false
  store := c.store

/-- Replace the block of a slot. -/
def modify [DecidableEq ι] (c : WriteBack ι κ β) (i : ι) (b : β) : WriteBack ι κ β :=
  { c with block := Function.update c.block i b, dirty := Function.update c.dirty i true }

/-! ## What they preserve -/

variable {c : WriteBack ι κ β} {v : κ → β} {i : ι}

theorem writeBack_store_self [DecidableEq κ] (c : WriteBack ι κ β) (i : ι) :
    (c.writeBack i).store (c.key i) = c.block i :=
  Function.update_self _ _ _

theorem writeBack_inv [DecidableEq κ] (h : c.Inv) : (c.writeBack i).Inv where
  inj := h.inj
  clean := by
    intro j hj
    by_cases hij : j = i
    · subst hij
      exact (writeBack_store_self c j).symm
    · have hne : c.key j ≠ c.key i := fun he => hij (h.inj he)
      show c.block j = Function.update c.store (c.key i) (c.block i) (c.key j)
      rw [Function.update_of_ne hne]
      exact h.clean j hj

theorem writeBack_view [DecidableEq κ] (h : c.View v) : (c.writeBack i).View v where
  cached := h.cached
  uncached := by
    intro k hk
    show v k = Function.update c.store (c.key i) (c.block i) k
    have hne : k ≠ c.key i := Ne.symm (hk i)
    rw [Function.update_of_ne hne]
    exact h.uncached k hk

theorem load_inv [DecidableEq ι] (h : c.Inv) {k : κ} (hk : ∀ j, c.key j ≠ k) :
    (c.load i k).Inv where
  inj := by
    intro a b hab
    simp only [load] at hab
    by_cases ha : a = i
    · by_cases hb : b = i
      · rw [ha, hb]
      · subst ha
        rw [Function.update_self, Function.update_of_ne hb] at hab
        exact absurd hab.symm (hk b)
    · by_cases hb : b = i
      · subst hb
        rw [Function.update_self, Function.update_of_ne ha] at hab
        exact absurd hab (hk a)
      · rw [Function.update_of_ne ha, Function.update_of_ne hb] at hab
        exact h.inj hab
  clean := by
    intro j hj
    simp only [load] at hj ⊢
    by_cases hij : j = i
    · subst hij
      rw [Function.update_self, Function.update_self]
    · rw [Function.update_of_ne hij] at hj
      rw [Function.update_of_ne hij, Function.update_of_ne hij]
      exact h.clean j hj

/-- Loading over a slot whose block is in the store loses nothing. -/
theorem load_view [DecidableEq ι] (h : c.View v) (hstored : c.block i = c.store (c.key i)) {k : κ}
    (hk : ∀ j, c.key j ≠ k) : (c.load i k).View v where
  cached := by
    intro j
    simp only [load]
    by_cases hij : j = i
    · subst hij
      rw [Function.update_self, Function.update_self]
      exact h.uncached k hk
    · rw [Function.update_of_ne hij, Function.update_of_ne hij]
      exact h.cached j
  uncached := by
    intro k' hk'
    show v k' = c.store k'
    by_cases hold : k' = c.key i
    · rw [hold, ← hstored]
      exact h.cached i
    · refine h.uncached k' ?_
      intro j hj
      by_cases hij : j = i
      · exact hold (hij ▸ hj.symm)
      · have := hk' j
        simp only [load, Function.update_of_ne hij] at this
        exact this hj

theorem modify_inv [DecidableEq ι] (h : c.Inv) (b : β) : (c.modify i b).Inv where
  inj := h.inj
  clean := by
    intro j hj
    simp only [modify] at hj ⊢
    by_cases hij : j = i
    · subst hij
      rw [Function.update_self] at hj
      cases hj
    · rw [Function.update_of_ne hij] at hj
      rw [Function.update_of_ne hij]
      exact h.clean j hj

theorem modify_view [DecidableEq ι] [DecidableEq κ] (h : c.View v)
    (hinj : Function.Injective c.key) (b : β) :
    (c.modify i b).View (Function.update v (c.key i) b) where
  cached := by
    intro j
    simp only [modify]
    by_cases hij : j = i
    · subst hij
      rw [Function.update_self, Function.update_self]
    · rw [Function.update_of_ne hij, Function.update_of_ne fun he => hij (hinj he)]
      exact h.cached j
  uncached := by
    intro k hk
    show Function.update v (c.key i) b k = c.store k
    have hne : k ≠ c.key i := Ne.symm (hk i)
    rw [Function.update_of_ne hne]
    exact h.uncached k hk

/-- After writing back every slot of a list, the slots of the list are in the store. -/
theorem writeBack_foldl [DecidableEq κ] (l : List ι) (c : WriteBack ι κ β) (h : c.Inv)
    (hv : c.View v) :
    let c' := l.foldl writeBack c
    c'.Inv ∧ c'.View v ∧ c'.key = c.key ∧ c'.block = c.block
      ∧ ∀ i, (i ∈ l ∨ c.block i = c.store (c.key i)) → c'.block i = c'.store (c'.key i) := by
  induction l generalizing c with
  | nil =>
      refine ⟨h, hv, rfl, rfl, ?_⟩
      intro i hi
      exact hi.resolve_left List.not_mem_nil
  | cons j l ih =>
      obtain ⟨hi, hv', hkey, hblock, hst⟩ :=
        ih (c.writeBack j) (writeBack_inv h) (writeBack_view hv)
      refine ⟨hi, hv', hkey, hblock, ?_⟩
      intro i hmem
      refine hst i ?_
      by_cases hij : i = j
      · subst hij
        exact Or.inr (writeBack_store_self c i).symm
      · refine hmem.imp (fun hm => (List.mem_cons.mp hm).resolve_left hij) fun hs => ?_
        show c.block i = Function.update c.store (c.key j) (c.block j) (c.key i)
        rw [Function.update_of_ne fun he => hij (h.inj he)]
        exact hs

end WriteBack
