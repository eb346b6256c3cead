import Mathlib.Tactic

set_option autoImplicit false

/-! # Bounded queues and rings

A bounded queue is a list no longer than its capacity; what it accepts and delivers over a history
of operations is what went in and came out. A ring keeps the same items in cells that wrap around,
with redundant indices. Nothing here knows about a particular device.
-/

variable {α : Type} {n : Nat}

/-- A first-in first-out queue of at most `n` items. -/
structure Fifo (α : Type) (n : Nat) where
  items : List α
  bound : items.length ≤ n

namespace Fifo

/-- What may happen to a queue. -/
inductive Op (α : Type) where
  | offer (a : α)
  | take
  | skip

@[ext] theorem ext {q q' : Fifo α n} (h : q.items = q'.items) : q = q' := by
  cases q
  cases q'
  cases h
  rfl

/-- The queue with nothing in it. -/
def empty : Fifo α n := ⟨[], Nat.zero_le n⟩

/-- The items after an operation; an offer to a full queue is refused. -/
def itemsAfter (q : Fifo α n) : Op α → List α
  | .offer a => if q.items.length < n then q.items ++ [a] else q.items
  | .take => q.items.tail
  | .skip => q.items

theorem itemsAfter_length_le (q : Fifo α n) (o : Op α) : (q.itemsAfter o).length ≤ n := by
  have hq := q.bound
  cases o with
  | offer a =>
      rw [itemsAfter]
      split
      · rw [List.length_append, List.length_singleton]; omega
      · exact hq
  | take => rw [itemsAfter, List.length_tail]; omega
  | skip => exact hq

def step (q : Fifo α n) (o : Op α) : Fifo α n := ⟨q.itemsAfter o, q.itemsAfter_length_le o⟩

/-- What an operation puts in. -/
def accepted (q : Fifo α n) : Op α → List α
  | .offer a => if q.items.length < n then [a] else []
  | _ => []

/-- What an operation takes out. -/
def delivered (q : Fifo α n) : Op α → List α
  | .take => q.items.head?.toList
  | _ => []

/-- One operation neither loses, duplicates nor reorders an item. -/
theorem step_conserves (q : Fifo α n) (o : Op α) :
    q.items ++ q.accepted o = q.delivered o ++ (q.step o).items := by
  cases o with
  | offer a =>
      simp only [accepted, delivered, step, itemsAfter, List.nil_append]
      split
      · rfl
      · exact List.append_nil _
  | take =>
      simp only [accepted, delivered, step, itemsAfter, List.append_nil]
      cases q.items with
      | nil => rfl
      | cons a as => rfl
  | skip => simp only [accepted, delivered, step, itemsAfter, List.append_nil, List.nil_append]

/-! ## Histories -/

/-- The queue after a history. -/
def run (q : Fifo α n) (os : List (Op α)) : Fifo α n := os.foldl step q

/-- All that went in over a history. -/
def inputs (q : Fifo α n) : List (Op α) → List α
  | [] => []
  | o :: os => q.accepted o ++ (q.step o).inputs os

/-- All that came out. -/
def outputs (q : Fifo α n) : List (Op α) → List α
  | [] => []
  | o :: os => q.delivered o ++ (q.step o).outputs os

/-- What came out and what is left is what was there and what went in, in order. -/
theorem run_conserves (q : Fifo α n) (os : List (Op α)) :
    q.items ++ q.inputs os = q.outputs os ++ (q.run os).items := by
  induction os generalizing q with
  | nil => simp [inputs, outputs, run]
  | cons o os ih =>
      calc q.items ++ (q.accepted o ++ (q.step o).inputs os)
          = q.delivered o ++ ((q.step o).items ++ (q.step o).inputs os) := by
            rw [← List.append_assoc, step_conserves, List.append_assoc]
        _ = q.delivered o ++ ((q.step o).outputs os ++ ((q.step o).run os).items) := by rw [ih]
        _ = (q.delivered o ++ (q.step o).outputs os) ++ ((q.step o).run os).items :=
            (List.append_assoc _ _ _).symm

end Fifo

/-- Cells `0 .. n - 1` used in turn: the index to read, the index to write and the count. -/
structure RingQueue (α : Type) (n : Nat) where
  cells : Nat → α
  rd : Nat
  wr : Nat
  len : Nat

namespace RingQueue

/-- The three fields agree. -/
structure Ok (r : RingQueue α n) : Prop where
  len_le : r.len ≤ n
  rd_lt : r.rd < n
  wr_eq : r.wr = (r.rd + r.len) % n

theorem Ok.wr_lt {r : RingQueue α n} (h : r.Ok) : r.wr < n := by
  rw [h.wr_eq]
  exact Nat.mod_lt _ (Nat.zero_lt_of_lt h.rd_lt)

/-- The occupied cells, oldest first. -/
def contents (r : RingQueue α n) : List α :=
  (List.range r.len).map fun i => r.cells ((r.rd + i) % n)

@[simp] theorem contents_length (r : RingQueue α n) : r.contents.length = r.len := by
  simp [contents]

/-- Write the next cell. -/
def push (r : RingQueue α n) (a : α) : RingQueue α n :=
  { r with cells := Function.update r.cells r.wr a, wr := (r.wr + 1) % n, len := r.len + 1 }

/-- Leave the oldest cell. -/
def pop (r : RingQueue α n) : RingQueue α n := { r with rd := (r.rd + 1) % n, len := r.len - 1 }

/-- Indices that are less than a round apart name different cells. -/
theorem index_ne {i j d : Nat} (hij : i < j) (hj : j < i + n) : (d + i) % n ≠ (d + j) % n := by
  intro h
  have hdvd : n ∣ j - i := by
    have := (Nat.modEq_iff_dvd' (by omega)).mp h
    rwa [show d + j - (d + i) = j - i by omega] at this
  have hle := Nat.le_of_dvd (by omega) hdvd
  omega

theorem Ok.push {r : RingQueue α n} (h : r.Ok) (hroom : r.len < n) (a : α) : (r.push a).Ok := by
  refine ⟨hroom, h.rd_lt, ?_⟩
  show (r.wr + 1) % n = (r.rd + (r.len + 1)) % n
  rw [h.wr_eq, Nat.mod_add_mod, Nat.add_assoc]

theorem Ok.pop {r : RingQueue α n} (h : r.Ok) (hlen : 0 < r.len) : r.pop.Ok := by
  have hlt := h.rd_lt
  have hle := h.len_le
  refine ⟨?_, Nat.mod_lt _ (by omega), ?_⟩
  · show r.len - 1 ≤ n
    omega
  · show r.wr = ((r.rd + 1) % n + (r.len - 1)) % n
    rw [h.wr_eq, Nat.mod_add_mod, show r.rd + 1 + (r.len - 1) = r.rd + r.len by omega]

/-- A push into a free cell appends: the cells in use are not the one written. -/
theorem contents_push {r : RingQueue α n} (h : r.Ok) (hroom : r.len < n) (a : α) :
    (r.push a).contents = r.contents ++ [a] := by
  have hold : ∀ i ∈ List.range r.len,
      Function.update r.cells r.wr a ((r.rd + i) % n) = r.cells ((r.rd + i) % n) := by
    intro i hi
    have hlt := List.mem_range.mp hi
    apply Function.update_of_ne
    rw [h.wr_eq]
    exact index_ne hlt (by omega)
  have hnew : Function.update r.cells r.wr a ((r.rd + r.len) % n) = a := by
    rw [← h.wr_eq, Function.update_self]
  calc (r.push a).contents
      = (List.range (r.len + 1)).map
          (fun i => Function.update r.cells r.wr a ((r.rd + i) % n)) := rfl
    _ = (List.range r.len).map (fun i => Function.update r.cells r.wr a ((r.rd + i) % n))
          ++ [a] := by
        rw [List.range_succ, List.map_append, List.map_singleton, hnew]
    _ = r.contents ++ [a] := by rw [List.map_congr_left hold, contents]

/-- A pop takes the first item. -/
theorem contents_pop {r : RingQueue α n} (h : r.Ok) (hlen : 0 < r.len) :
    r.contents = r.cells r.rd :: r.pop.contents := by
  obtain ⟨k, hk⟩ : ∃ k, r.len = k + 1 := ⟨r.len - 1, by omega⟩
  have hfirst : r.rd % n = r.rd := Nat.mod_eq_of_lt h.rd_lt
  have hshift : ∀ i, (r.rd + (i + 1)) % n = ((r.rd + 1) % n + i) % n := by
    intro i
    rw [Nat.mod_add_mod, Nat.add_assoc, Nat.add_comm 1 i]
  simp only [contents, pop, hk, List.range_succ_eq_map, List.map_cons, List.map_map,
    Nat.add_zero, hfirst, Nat.add_sub_cancel, List.cons.injEq, true_and]
  apply List.map_congr_left
  intro i _
  exact congrArg r.cells (hshift i)

/-- The queue a ring holds. -/
def toFifo (r : RingQueue α n) (h : r.Ok) : Fifo α n :=
  ⟨r.contents, by rw [contents_length]; exact h.len_le⟩

end RingQueue
