import Mathlib.Data.List.Nodup
import Mathlib.Logic.Function.Basic

set_option autoImplicit false

/-! # Doubly linked lists

The nodes `ι` of a fixed pool carry a `next` and a `prev` pointer, and `head` is where the list
starts. `Linked s l` says that the pointers spell the list `l`. The two operations are those of a
recency list: walk from the head to the first node that satisfies a test, and move a node to the
front.
-/

/-- The pointers of a doubly linked list. -/
structure Links (ι : Type) where
  next : ι → Option ι
  prev : ι → Option ι
  head : ι

namespace Links

variable {ι : Type}

/-! ## The list that the pointers spell -/

/-- From a node `p` before it to a node `q` after it, the pointers run through `l`. -/
def Chain (s : Links ι) : Option ι → List ι → Option ι → Prop
  | _, [], _ => True
  | p, a :: l, q => s.prev a = p ∧ s.next a = l.head?.or q ∧ Chain s (some a) l q

/-- The pointers spell `l`. -/
structure Linked (s : Links ι) (l : List ι) : Prop where
  head : l.head? = some s.head
  chain : s.Chain none l none
  nodup : l.Nodup

theorem chain_append (s : Links ι) (xs ys : List ι) (p q : Option ι) :
    s.Chain p (xs ++ ys) q ↔
      s.Chain p xs (ys.head?.or q) ∧ s.Chain (xs.getLast?.or p) ys q := by
  induction xs generalizing p with
  | nil => simp [Chain]
  | cons a xs ih =>
      have hlast : (a :: xs).getLast?.or p = xs.getLast?.or (some a) := by
        rw [List.getLast?_cons]
        cases xs.getLast? with
        | none => rfl
        | some b => rfl
      rw [List.cons_append, Chain, Chain, ih, hlast, List.head?_append, Option.or_assoc]
      simp only [and_assoc]

/-- A chain only reads the pointers of its nodes. -/
theorem Chain.congr {s t : Links ι} {l : List ι} {p q : Option ι} (h : s.Chain p l q)
    (hnext : ∀ a ∈ l, t.next a = s.next a) (hprev : ∀ a ∈ l, t.prev a = s.prev a) :
    t.Chain p l q := by
  induction l generalizing p with
  | nil => trivial
  | cons a l ih =>
      obtain ⟨hp, hn, hl⟩ := h
      refine ⟨(hprev a (by simp)).trans hp, (hnext a (by simp)).trans hn, ih hl ?_ ?_⟩
      · exact fun b hb => hnext b (List.mem_cons_of_mem a hb)
      · exact fun b hb => hprev b (List.mem_cons_of_mem a hb)

/-- A chain from the neighbours in a list. -/
theorem chain_of_getElem? {s : Links ι} {l : List ι} {p q : Option ι}
    (h : ∀ (i : Nat) (a : ι), l[i]? = some a →
      s.next a = l[i + 1]?.or q ∧ s.prev a = if i = 0 then p else l[i - 1]?) :
    s.Chain p l q := by
  induction l generalizing p with
  | nil => trivial
  | cons a l ih =>
      obtain ⟨hnext, hprev⟩ := h 0 a rfl
      refine ⟨hprev, ?_, ih ?_⟩
      · rw [hnext, List.getElem?_cons_succ, List.head?_eq_getElem?]
      · intro i b hb
        obtain ⟨hn, hp⟩ := h (i + 1) b hb
        refine ⟨hn, ?_⟩
        rw [hp, if_neg (Nat.succ_ne_zero i), Nat.add_sub_cancel]
        cases i with
        | zero => rfl
        | succ i => rfl

/-- The neighbours of a node in a chain. -/
theorem Chain.getElem? {s : Links ι} {l : List ι} {p q : Option ι} (h : s.Chain p l q) {i : Nat}
    {a : ι} (ha : l[i]? = some a) :
    s.next a = l[i + 1]?.or q ∧ s.prev a = if i = 0 then p else l[i - 1]? := by
  induction l generalizing p i with
  | nil => cases ha
  | cons b l ih =>
      obtain ⟨hprev, hnext, hl⟩ := h
      cases i with
      | zero =>
          cases ha
          refine ⟨?_, hprev⟩
          rw [hnext, List.getElem?_cons_succ, List.head?_eq_getElem?]
      | succ i =>
          obtain ⟨hn, hp⟩ := ih hl ha
          refine ⟨hn, ?_⟩
          rw [hp, if_neg (Nat.succ_ne_zero i), Nat.add_sub_cancel]
          cases i with
          | zero => rfl
          | succ i => rfl

/-- The node that `k` steps along `next` lead to from the head. -/
def nth (s : Links ι) : Nat → Option ι
  | 0 => some s.head
  | k + 1 => (s.nth k).bind s.next

/-- Following `next` from the head spells the list. -/
theorem Linked.nth {s : Links ι} {l : List ι} (h : s.Linked l) (k : Nat) : s.nth k = l[k]? := by
  induction k with
  | zero => rw [Links.nth, ← h.head, List.head?_eq_getElem?]
  | succ k ih =>
      rw [Links.nth, ih]
      cases ha : l[k]? with
      | none =>
          have hlen := List.getElem?_eq_none_iff.mp ha
          exact (List.getElem?_eq_none (by omega)).symm
      | some a => exact (h.chain.getElem? ha).1.trans (Option.or_none)

/-- `prev` undoes `next`, and `next` undoes `prev`. -/
theorem Linked.next_iff_prev {s : Links ι} {l : List ι} (h : s.Linked l) {a b : ι} (ha : a ∈ l)
    (hb : b ∈ l) : s.next a = some b ↔ s.prev b = some a := by
  constructor
  · intro hn
    obtain ⟨i, hi⟩ := List.mem_iff_getElem?.mp ha
    have hsucc : l[i + 1]? = some b := by
      rw [← hn, (h.chain.getElem? hi).1, Option.or_none]
    rw [(h.chain.getElem? hsucc).2, if_neg (Nat.succ_ne_zero i), Nat.add_sub_cancel, hi]
  · intro hp
    obtain ⟨i, hi⟩ := List.mem_iff_getElem?.mp hb
    have hprev := (h.chain.getElem? hi).2
    cases i with
    | zero =>
        rw [hp, if_pos rfl] at hprev
        cases hprev
    | succ i =>
        rw [hp, if_neg (Nat.succ_ne_zero i), Nat.add_sub_cancel] at hprev
        rw [(h.chain.getElem? hprev.symm).1, hi, Option.or_none]

theorem Linked.head_prev {s : Links ι} {l : List ι} (h : s.Linked l) : s.prev s.head = none := by
  have hhead := h.head
  rw [List.head?_eq_getElem?] at hhead
  exact (h.chain.getElem? hhead).2

/-- Redirecting the last node. -/
theorem Chain.setNext [DecidableEq ι] {s : Links ι} {as : List ι} {b : ι} {p q : Option ι}
    (h : s.Chain p (as ++ [b]) q) (hb : b ∉ as) (q' : Option ι) :
    ({ s with next := Function.update s.next b q' } : Links ι).Chain p (as ++ [b]) q' := by
  rw [chain_append] at h ⊢
  obtain ⟨has, hlast, -⟩ := h
  refine ⟨has.congr ?_ fun _ _ => rfl, hlast, ?_, trivial⟩
  · intro a ha
    have hne : a ≠ b := fun he => hb (he ▸ ha)
    exact Function.update_of_ne hne _ _
  · exact Function.update_self _ _ _

/-- Redirecting the first node. -/
theorem Chain.setPrev [DecidableEq ι] {s : Links ι} {c : ι} {ys : List ι} {p q : Option ι}
    (h : s.Chain p (c :: ys) q) (hc : c ∉ ys) (p' : Option ι) :
    ({ s with prev := Function.update s.prev c p' } : Links ι).Chain p' (c :: ys) q := by
  obtain ⟨-, hnext, hys⟩ := h
  refine ⟨Function.update_self _ _ _, hnext, hys.congr (fun _ _ => rfl) ?_⟩
  intro a ha
  have hne : a ≠ c := fun he => hc (he ▸ ha)
  exact Function.update_of_ne hne _ _

/-! ## Moving a node to the front -/

section

variable [DecidableEq ι]

/-- The successor of the node before `x` becomes the successor of `x`. -/
def skipNext (s : Links ι) (x : ι) : Links ι :=
  match s.prev x with
  | some b => { s with next := Function.update s.next b (s.next x) }
  | none => s

/-- The predecessor of the node after `x` becomes the predecessor of `x`. -/
def skipPrev (s : Links ι) (x : ι) : Links ι :=
  match s.next x with
  | some c => { s with prev := Function.update s.prev c (s.prev x) }
  | none => s

/-- `x` becomes the head, in front of the old one. -/
def pushFront (s : Links ι) (x : ι) : Links ι :=
  { next := Function.update s.next x (some s.head)
    prev := Function.update (Function.update s.prev x none) s.head (some x)
    head := x }

/-- Take `x` out of the list and put it in front. -/
def moveToFront (s : Links ι) (x : ι) : Links ι := ((s.skipNext x).skipPrev x).pushFront x

/-- A node with a predecessor is skipped by its neighbours. -/
theorem chain_skip {s : Links ι} {as ys : List ι} {b x : ι}
    (h : s.Chain none (as ++ b :: x :: ys) none) (hnd : (as ++ b :: x :: ys).Nodup) :
    ((s.skipNext x).skipPrev x).Chain none (as ++ b :: ys) none := by
  have hsplit : as ++ b :: x :: ys = (as ++ [b]) ++ x :: ys := by simp
  rw [hsplit, chain_append] at h
  obtain ⟨hfront, hp, hn, hys⟩ := h
  have hprev : s.prev x = some b := by simpa using hp
  have hnext : s.next x = ys.head? := by simpa using hn
  rw [hsplit, List.nodup_append, List.nodup_append] at hnd
  obtain ⟨⟨-, -, hb⟩, hback, hdisj⟩ := hnd
  have hbx : x ≠ b := fun he => hdisj b (by simp) x (by simp) he.symm
  have hbas : b ∉ as := fun hm => hb b hm b (by simp) rfl
  have hfront' := hfront.setNext hbas ys.head?
  have hys' : ({ s with next := Function.update s.next b ys.head? } : Links ι).Chain (some x) ys
      none := by
    refine Chain.congr hys ?_ fun _ _ => rfl
    intro a ha
    have hab : a ≠ b := fun he => hdisj b (by simp) a (by simp [ha]) he.symm
    exact Function.update_of_ne hab _ _
  have hskip : s.skipNext x = { s with next := Function.update s.next b ys.head? } := by
    simp only [skipNext, hprev, hnext]
  rw [hskip]
  have hsplit' : as ++ b :: ys = (as ++ [b]) ++ ys := by simp
  have hlast : (as ++ [b]).getLast?.or none = some b := by simp
  rw [hsplit', chain_append, hlast]
  cases ys with
  | nil =>
      have : skipPrev { s with next := Function.update s.next b ([] : List ι).head? } x
          = { s with next := Function.update s.next b ([] : List ι).head? } := by
        simp [skipPrev, Function.update_of_ne hbx, hnext]
      rw [this]
      exact ⟨hfront', trivial⟩
  | cons c ys =>
      have hc : c ∉ ys := (List.nodup_cons.mp (List.nodup_cons.mp hback).2).1
      have hcfront : ∀ a ∈ as ++ [b], a ≠ c := fun a ha he => hdisj a ha c (by simp) he
      have : skipPrev { s with next := Function.update s.next b (c :: ys).head? } x
          = { s with next := Function.update s.next b (some c)
                     prev := Function.update s.prev c (some b) } := by
        simp [skipPrev, Function.update_of_ne hbx, hnext, hprev]
      rw [this]
      refine ⟨hfront'.congr (fun _ _ => rfl) ?_, ?_⟩
      · exact fun a ha => Function.update_of_ne (hcfront a ha) _ _
      · exact hys'.setPrev hc (some b)

@[simp] theorem skipNext_head (s : Links ι) (x : ι) : (s.skipNext x).head = s.head := by
  unfold skipNext
  split
  · rfl
  · rfl

@[simp] theorem skipPrev_head (s : Links ι) (x : ι) : (s.skipPrev x).head = s.head := by
  unfold skipPrev
  split
  · rfl
  · rfl

theorem Linked.pushFront {s : Links ι} {l : List ι} (h : s.Linked l) {x : ι} (hx : x ∉ l) :
    (s.pushFront x).Linked (x :: l) := by
  obtain ⟨hhead, hchain, hnd⟩ := h
  cases l with
  | nil => cases hhead
  | cons a l =>
      have ha : a = s.head := by simpa using hhead
      subst ha
      have hxa : x ≠ s.head := fun he => hx (by simp [he])
      have hal : s.head ∉ l := (List.nodup_cons.mp hnd).1
      refine ⟨rfl, ⟨?_, ?_, ?_⟩, List.nodup_cons.mpr ⟨hx, hnd⟩⟩
      · simp [Links.pushFront, Function.update_of_ne hxa]
      · simp [Links.pushFront]
      · refine (hchain.setPrev hal (some x)).congr ?_ ?_
        · intro b hb
          have hbx : b ≠ x := fun he => hx (he ▸ hb)
          exact Function.update_of_ne hbx _ _
        · intro b hb
          have hbx : b ≠ x := fun he => hx (he ▸ hb)
          by_cases hbh : b = s.head
          · subst hbh
            simp [Links.pushFront]
          · simp [Links.pushFront, Function.update_of_ne hbh, Function.update_of_ne hbx]

/-- **Moving a node to the front**: the pointers spell the list with the node taken out and put in
front. -/
theorem Linked.moveToFront {s : Links ι} {l : List ι} (h : s.Linked l) {x : ι} (hx : x ∈ l)
    (hne : x ≠ s.head) : (s.moveToFront x).Linked (x :: l.erase x) := by
  obtain ⟨xs, ys, rfl⟩ := List.append_of_mem hx
  have hnotin : x ∉ xs := fun hm => by
    have := h.nodup
    rw [List.nodup_append] at this
    exact this.2.2 x hm x (by simp) rfl
  -- the node has a predecessor, since it is not the head
  obtain ⟨as, b, rfl⟩ : ∃ as b, xs = as ++ [b] := by
    rcases List.eq_nil_or_concat xs with rfl | ⟨as, b, rfl⟩
    · exact absurd (by simpa using h.head) hne
    · exact ⟨as, b, List.concat_eq_append⟩
  have herase : ((as ++ [b]) ++ x :: ys).erase x = as ++ b :: ys := by
    rw [List.erase_append_right _ hnotin, List.erase_cons_head, List.append_assoc]
    rfl
  have hl : (as ++ [b]) ++ x :: ys = as ++ b :: x :: ys := by simp
  rw [herase]
  rw [hl] at h
  have hnd : (as ++ b :: ys).Nodup := h.nodup.sublist (by simp)
  refine Linked.pushFront ⟨?_, chain_skip h.chain h.nodup, hnd⟩ ?_
  · rw [skipPrev_head, skipNext_head, ← h.head]
    cases as with
    | nil => rfl
    | cons a as => rfl
  · intro hm
    have := h.nodup
    simp only [List.nodup_append, List.nodup_cons, List.mem_append, List.mem_cons] at this hm
    grind

end

/-! ## Walking the list -/

/-- From node `a` on, the first node that satisfies `p`, with `true`; the last node, with `false`,
when none does. Does not return when the pointers do not end within the fuel. -/
def walk (next : ι → Option ι) (p : ι → Bool) : Nat → ι → Option (ι × Bool)
  | 0, _ => none
  | fuel + 1, a =>
      if p a then some (a, true)
      else
        match next a with
        | none => some (a, false)
        | some b => walk next p fuel b

theorem walk_chain {s : Links ι} (p : ι → Bool) {a : ι} {l : List ι} {pv : Option ι} (fuel : Nat)
    (h : s.Chain pv (a :: l) none) (hfuel : (a :: l).length ≤ fuel) :
    walk s.next p fuel a =
      match (a :: l).find? p with
      | some x => some (x, true)
      | none => some ((a :: l).getLast (List.cons_ne_nil a l), false) := by
  induction l generalizing a pv fuel with
  | nil =>
      obtain ⟨fuel, rfl⟩ : ∃ f, fuel = f + 1 := ⟨fuel - 1, by simp at hfuel; omega⟩
      obtain ⟨-, hn, -⟩ := h
      have hn' : s.next a = none := hn
      rw [walk, hn', List.find?_cons]
      cases p a with
      | true => rfl
      | false => rfl
  | cons b l ih =>
      obtain ⟨fuel, rfl⟩ : ∃ f, fuel = f + 1 := ⟨fuel - 1, by simp at hfuel; omega⟩
      obtain ⟨-, hn, hl⟩ := h
      have hn' : s.next a = some b := hn
      have hrest := ih fuel hl (by simp at hfuel ⊢; omega)
      rw [walk, hn', List.find?_cons, List.getLast_cons (List.cons_ne_nil b l)]
      cases p a with
      | true => rfl
      | false => simpa using hrest

/-- **The walk from the head** finds the first node of the list that satisfies the test, or ends at
the last node. -/
theorem Linked.walk {s : Links ι} {l : List ι} (h : s.Linked l) (p : ι → Bool) {fuel : Nat}
    (hfuel : l.length ≤ fuel) :
    (∃ x ∈ l, p x = true ∧ Links.walk s.next p fuel s.head = some (x, true)) ∨
      (∃ x, l.getLast? = some x ∧ (∀ y ∈ l, p y = false)
        ∧ Links.walk s.next p fuel s.head = some (x, false)) := by
  obtain ⟨hhead, hchain, -⟩ := h
  cases l with
  | nil => cases hhead
  | cons a l =>
      have ha : a = s.head := by simpa using hhead
      subst ha
      rw [walk_chain p fuel hchain hfuel]
      cases hf : (s.head :: l).find? p with
      | some x => exact Or.inl ⟨x, List.mem_of_find?_eq_some hf, List.find?_some hf, rfl⟩
      | none =>
          refine Or.inr ⟨_, List.getLast?_eq_some_getLast (List.cons_ne_nil s.head l), ?_, rfl⟩
          intro y hy
          simpa using List.find?_eq_none.mp hf y hy

/-- The walk from the head, as the search of a list. -/
theorem Linked.walk_find? {s : Links ι} {l : List ι} (h : s.Linked l) (p : ι → Bool) {fuel : Nat}
    (hfuel : l.length ≤ fuel) :
    Links.walk s.next p fuel s.head =
      match l.find? p with
      | some x => some (x, true)
      | none => l.getLast?.map fun x => (x, false) := by
  obtain ⟨hhead, hchain, -⟩ := h
  cases l with
  | nil => cases hhead
  | cons a l =>
      have ha : a = s.head := by simpa using hhead
      subst ha
      rw [walk_chain p fuel hchain hfuel, List.getLast?_eq_some_getLast (List.cons_ne_nil s.head l)]
      rfl

/-- In a list of two nodes or more the last one is not the head. -/
theorem Linked.last_ne_head {s : Links ι} {l : List ι} (h : s.Linked l) {a b x : ι} (ha : a ∈ l)
    (hb : b ∈ l) (hab : a ≠ b) (hx : l.getLast? = some x) : x ≠ s.head := by
  intro hxh
  have hhead : l.head? = some s.head := h.head
  rcases l with _ | ⟨y, _ | ⟨z, l⟩⟩
  · cases hx
  · rw [List.mem_singleton.mp ha, List.mem_singleton.mp hb] at hab
    exact hab rfl
  · have hy : y = s.head := by simpa using hhead
    have hmem : x ∈ z :: l := by
      rw [List.getLast?_cons_cons] at hx
      exact List.mem_of_getLast? hx
    have hnot := (List.nodup_cons.mp h.nodup).1
    rw [hy, ← hxh] at hnot
    exact hnot hmem

/-- The head is in front. -/
theorem Linked.front_head [DecidableEq ι] {s : Links ι} {l : List ι} (h : s.Linked l) :
    s.head :: l.erase s.head = l := by
  have hhead := h.head
  cases l with
  | nil => cases hhead
  | cons a l =>
      have ha : a = s.head := by simpa using hhead
      rw [ha, List.erase_cons_head]

/-- A node that fails the test can move to the front. -/
theorem find?_front [DecidableEq ι] {p : ι → Bool} {x : ι} (hx : p x = false) (l : List ι) :
    (x :: l.erase x).find? p = l.find? p := by
  rw [List.find?_cons, hx]
  induction l with
  | nil => rfl
  | cons a l ih =>
      by_cases ha : a = x
      · subst ha
        rw [List.erase_cons_head, List.find?_cons, hx]
      · rw [List.erase_cons_tail (by simpa using ha), List.find?_cons, List.find?_cons]
        cases p a with
        | true => rfl
        | false => exact ih

end Links
