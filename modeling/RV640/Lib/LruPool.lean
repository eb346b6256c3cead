import RV640.Lib.Recency
import Mathlib.Data.Finset.Card

set_option autoImplicit false

/-! # Pools of cached keys

A pool holds the most recently used keys of a store, the last one used in front, and knows which of
them were written. A use of a missing key loads it in the place of the last key, which is stored
first when it was written.

What a pool holds is a prefix of the recency list of all keys, so a larger pool holds what a smaller
one does. After the same uses it has made no more loads and no more stores.
-/

/-- The keys that are cached, those among them that were written, and the transfers so far. -/
structure LruPool (κ : Type) where
  resident : List κ
  dirty : Finset κ
  loads : Nat
  stores : Nat

namespace LruPool

variable {κ : Type} [DecidableEq κ]

/-- The keys that stay or become resident when `k` is used. -/
def kept (n : Nat) (c : LruPool κ) (k : κ) : List κ := (Recency.touch c.resident k).take n

/-- A use of a key in a pool of `n`; the flag tells a write. -/
def use (n : Nat) (c : LruPool κ) (u : κ × Bool) : LruPool κ where
  resident := c.kept n u.1
  dirty :=
    let clean := c.dirty.filter (· ∈ c.kept n u.1)
    if u.2 then insert u.1 clean else clean
  loads := c.loads + if u.1 ∈ c.resident then 0 else 1
  stores := c.stores + (c.dirty.filter (· ∉ c.kept n u.1)).card

/-- The uses `us`, the oldest first. -/
def run (n : Nat) (c : LruPool κ) (us : List (κ × Bool)) : LruPool κ := us.foldl (use n) c

@[simp] theorem run_nil (n : Nat) (c : LruPool κ) : c.run n [] = c := rfl

theorem run_append (n : Nat) (c : LruPool κ) (us vs : List (κ × Bool)) :
    c.run n (us ++ vs) = (c.run n us).run n vs := List.foldl_append

variable {n : Nat} {c : LruPool κ}

theorem kept_eq (hn : 0 < n) (k : κ) : c.kept n k = k :: (c.resident.erase k).take (n - 1) := by
  obtain ⟨m, rfl⟩ := Nat.exists_eq_succ_of_ne_zero hn.ne'
  rfl

theorem mem_kept_self (hn : 0 < n) (k : κ) : k ∈ c.kept n k := by
  rw [kept_eq hn]
  exact List.mem_cons_self

/-! ## Repeated uses -/

/-- A key that is used again at once costs nothing. -/
theorem use_use (hn : 0 < n) (u : κ × Bool) : (c.use n u).use n u = c.use n u := by
  obtain ⟨k, w⟩ := u
  obtain ⟨m, rfl⟩ := Nat.exists_eq_succ_of_ne_zero hn.ne'
  have hkept : (c.use (m + 1) (k, w)).kept (m + 1) k = c.kept (m + 1) k := by
    simp [kept, use, Recency.touch]
  have hself : k ∈ c.kept (m + 1) k := mem_kept_self hn k
  -- nothing written is outside the pool
  have hin : ∀ x ∈ (c.use (m + 1) (k, w)).dirty, x ∈ c.kept (m + 1) k := by
    intro x hx
    cases w with
    | false => exact (Finset.mem_filter.mp hx).2
    | true =>
        rcases Finset.mem_insert.mp hx with rfl | hx
        · exact hself
        · exact (Finset.mem_filter.mp hx).2
  have hall : (c.use (m + 1) (k, w)).dirty.filter (· ∈ c.kept (m + 1) k)
      = (c.use (m + 1) (k, w)).dirty := Finset.filter_true_of_mem hin
  have hnone : (c.use (m + 1) (k, w)).dirty.filter (· ∉ c.kept (m + 1) k) = ∅ :=
    Finset.filter_false_of_mem fun x hx => not_not.mpr (hin x hx)
  have hres : k ∈ (c.use (m + 1) (k, w)).resident := hself
  rw [use, hkept]
  simp only [hall, hnone, if_pos hres, Finset.card_empty, Nat.add_zero]
  cases w with
  | false => rfl
  | true =>
      have hk : k ∈ (c.use (m + 1) (k, true)).dirty := Finset.mem_insert_self _ _
      simp only [if_true, Finset.insert_eq_of_mem hk]
      rfl

theorem run_replicate (hn : 0 < n) (u : κ × Bool) (m : Nat) :
    c.run n (List.replicate (m + 1) u) = c.use n u := by
  induction m with
  | zero => rfl
  | succ m ih =>
      calc c.run n (List.replicate (m + 1 + 1) u)
          = (c.run n (List.replicate (m + 1) u)).use n u := by
            rw [List.replicate_succ', run_append]
            rfl
        _ = (c.use n u).use n u := by rw [ih]
        _ = c.use n u := use_use hn u

/-! ## The keys that are resident -/

/-- A prefix of a recency list is the recency list of a pool. -/
theorem take_touch (n : Nat) (l : List κ) (k : κ) :
    (Recency.touch (l.take n) k).take n = (Recency.touch l k).take n := by
  cases n with
  | zero => rfl
  | succ n =>
      simp only [Recency.touch, List.take_succ_cons, List.cons.injEq, true_and]
      -- without `k`, the first `n + 1` keys and all keys agree on the first `n`
      induction l generalizing n with
      | nil => rfl
      | cons a l ih =>
          by_cases ha : a = k
          · subst ha
            rw [List.take_succ_cons, List.erase_cons_head, List.erase_cons_head,
              List.take_take, Nat.min_self]
          · have hne : ¬(a == k) = true := by simpa using ha
            rw [List.take_succ_cons, List.erase_cons_tail hne, List.erase_cons_tail hne]
            cases n with
            | zero => rfl
            | succ n => rw [List.take_succ_cons, List.take_succ_cons, ih n]

/-- **The resident keys are the most recently used ones.** -/
theorem run_resident (l : List κ) (hc : c.resident = l.take n) (us : List (κ × Bool)) :
    (c.run n us).resident = (Recency.after l (us.map Prod.fst)).take n := by
  induction us generalizing c l with
  | nil => exact hc
  | cons u us ih =>
      refine ih (Recency.touch l u.1) ?_
      show (Recency.touch c.resident u.1).take n = _
      rw [hc, take_touch]

/-! ## Pools of two sizes -/

/-- `d` is a larger pool than `c`, of the same recency list. -/
structure Within (n m : Nat) (c d : LruPool κ) : Prop where
  resident : ∃ l : List κ, c.resident = l.take n ∧ d.resident = l.take m
  dirty : c.dirty ⊆ d.dirty
  loads : d.loads ≤ c.loads
  /-- What was stored and what is still to store. -/
  total : d.stores + d.dirty.card ≤ c.stores + c.dirty.card

variable {m : Nat} {d : LruPool κ}

omit [DecidableEq κ] in
theorem Within.subset (h : Within n m c d) (hnm : n ≤ m) : c.resident ⊆ d.resident := by
  obtain ⟨l, hc, hd⟩ := h.resident
  rw [hc, hd]
  exact (List.take_prefix_take_left hnm).subset

/-- A written key is stored, or still to store. -/
theorem use_total (u : κ × Bool) :
    (c.use n u).stores + (c.use n u).dirty.card
      = c.stores + c.dirty.card
        + if u.2 ∧ u.1 ∉ c.dirty.filter (· ∈ c.kept n u.1) then 1 else 0 := by
  obtain ⟨k, w⟩ := u
  have hsplit := Finset.card_filter_add_card_filter_not (s := c.dirty) (· ∈ c.kept n k)
  dsimp only [use]
  cases w with
  | false =>
      rw [if_neg Bool.false_ne_true, if_neg fun h => Bool.false_ne_true h.1]
      omega
  | true =>
      rw [if_pos rfl]
      by_cases hk : k ∈ c.dirty.filter (· ∈ c.kept n k)
      · rw [if_neg fun h => h.2 hk, Finset.insert_eq_of_mem hk]
        omega
      · rw [if_pos ⟨rfl, hk⟩, Finset.card_insert_of_notMem hk]
        omega

/-- **One use**: the larger pool stays ahead. -/
theorem Within.use (h : Within n m c d) (hnm : n ≤ m) (u : κ × Bool) :
    Within n m (c.use n u) (d.use m u) := by
  obtain ⟨l, hc, hd⟩ := h.resident
  have hkc : c.kept n u.1 = (Recency.touch l u.1).take n := by rw [kept, hc, take_touch]
  have hkd : d.kept m u.1 = (Recency.touch l u.1).take m := by rw [kept, hd, take_touch]
  have hsub : c.dirty.filter (· ∈ c.kept n u.1) ⊆ d.dirty.filter (· ∈ d.kept m u.1) := by
    intro x hx
    obtain ⟨hdirty, hin⟩ := Finset.mem_filter.mp hx
    rw [hkc] at hin
    refine Finset.mem_filter.mpr ⟨h.dirty hdirty, ?_⟩
    rw [hkd]
    exact (List.take_prefix_take_left hnm).subset hin
  refine ⟨⟨Recency.touch l u.1, hkc, hkd⟩, ?_, ?_, ?_⟩
  · simp only [LruPool.use]
    split
    · exact Finset.insert_subset_insert _ hsub
    · exact hsub
  · have := h.loads
    by_cases hin : u.1 ∈ c.resident
    · simp only [LruPool.use, if_pos hin, if_pos (h.subset hnm hin)]
      omega
    · simp only [LruPool.use, if_neg hin]
      split
      · omega
      · omega
  · -- what becomes dirty in the larger pool becomes dirty in the smaller one
    rw [use_total, use_total]
    have := h.total
    by_cases hnew : u.2 ∧ u.1 ∉ d.dirty.filter (· ∈ d.kept m u.1)
    · rw [if_pos hnew, if_pos ⟨hnew.1, fun hk => hnew.2 (hsub hk)⟩]
      omega
    · rw [if_neg hnew]
      omega

theorem Within.run (h : Within n m c d) (hnm : n ≤ m) (us : List (κ × Bool)) :
    Within n m (c.run n us) (d.run m us) := by
  induction us generalizing c d with
  | nil => exact h
  | cons u us ih => exact ih (h.use hnm u)

omit [DecidableEq κ] in
/-- **A larger pool makes no more stores.** -/
theorem Within.stores (h : Within n m c d) : d.stores ≤ c.stores := by
  have hcard := Finset.card_le_card h.dirty
  have := h.total
  omega

end LruPool
