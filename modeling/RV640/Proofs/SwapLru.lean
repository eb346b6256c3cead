import RV640.Lib.LruPool
import RV640.Proofs.SwapRefines

set_option autoImplicit false

/-! # What the paged memory costs

A run on the paged memory calls DOS for the pages that it loads and for those it writes back. The
pages are an LRU pool of page numbers that is used byte by byte: handling a chunk of a page at a
time changes neither what is cached nor the number of the calls.
-/

namespace RV640

open Bits

namespace SwapMemory

variable {cfg : MemCfg} {s t : SwapMemory cfg} {j nFiles : Nat} {l : List (Fin cfg.pages)}
  {env : SwapEnv} {flat : Memory} {start : Nat} {c : LruPool Nat}

/-! ## What a lookup costs -/

theorem swapLruHead_calls (s : SwapMemory cfg) (page : Fin cfg.pages) :
    (s.swapLruHead page).dosCalls = s.dosCalls := by
  have hnext : (s.skipNext page).dosCalls = s.dosCalls := by
    unfold skipNext
    split
    · rfl
    · rfl
  have hprev : ((s.skipNext page).skipPrev page).dosCalls = (s.skipNext page).dosCalls := by
    unfold skipPrev
    split
    · rfl
    · rfl
  rw [swapLruHead_eq]
  exact hprev.trans hnext

/-- What a lookup of `addr` that returns `page` does to the addresses, the flags and the count. -/
structure LookupCost (s t : SwapMemory cfg) (page : Fin cfg.pages) (addr : Nat) : Prop where
  addrs : ∀ i, i ≠ page → (t.pages i).addr = (s.pages i).addr
  flags : ∀ i, i ≠ page → (t.pages i).dirty = (s.pages i).dirty
  hit : (s.pages page).addr = cfg.pageAddr addr →
    (t.pages page).dirty = (s.pages page).dirty ∧ t.dosCalls = s.dosCalls
  miss : (s.pages page).addr ≠ cfg.pageAddr addr →
    (t.pages page).dirty = false
      ∧ t.dosCalls = s.dosCalls + (if (s.pages page).dirty then 2 else 0) + 2

/-- The seek and the write of a page that is written back. -/
theorem storePage_calls (hio : env.ioOk) (h : s.PageInv j nFiles l) (page : Fin cfg.pages) :
    (s.storePage env page).dosCalls = s.dosCalls + 2 := by
  have hkey := mul_key (s := s) page (h.aligned page)
  obtain ⟨f, hf, -⟩ := h.layout.file (p := s.cache.key page) (by rw [hkey]; exact h.inside page)
  rw [fileOf, hkey] at hf
  rw [storePage_ok hio page hf]

/-- The seek and the read of a page that is loaded. -/
theorem loadPage_calls (hio : env.ioOk) (hl : s.Layout j nFiles) (page : Fin cfg.pages) {p : Nat}
    (hin : p * cfg.pageSize < nFiles * 2 ^ j) :
    (s.loadPage env (p * cfg.pageSize) page).dosCalls = s.dosCalls + 2
      ∧ ((s.loadPage env (p * cfg.pageSize) page).pages page).dirty = false := by
  obtain ⟨f, hf, hsize⟩ := hl.file hin
  rw [loadPage_ok hio (p * cfg.pageSize) page hf hsize]
  refine ⟨rfl, ?_⟩
  show (Function.update s.pages page _ page).dirty = false
  rw [Function.update_self]

theorem lookupPage_cost (hio : env.ioOk) (hpages : 2 ≤ cfg.pages) (h : s.PageInv j nFiles l)
    {addr : Nat} (haddr : addr < nFiles * 2 ^ j) {page : Fin cfg.pages}
    (hlook : s.lookupPage env addr = some (t, page)) : LookupCost s t page addr := by
  have hwalk := h.linked.walk (fun i => decide ((s.pages i).addr = cfg.pageAddr addr)) h.length_le
  rcases hwalk with ⟨i, -, hp, hw⟩ | ⟨i, hlast, hnone, hw⟩
  · have hsearch : s.searchPage (cfg.pageAddr addr) cfg.pages s.lruListHead = some (i, true) :=
      (searchPage_eq s _ _ _).trans hw
    simp only [lookupPage, hsearch, Option.some.injEq, Prod.mk.injEq] at hlook
    obtain ⟨rfl, rfl⟩ := hlook
    have hfound : (s.pages i).addr = cfg.pageAddr addr := by simpa using hp
    have hr : Relinked s (if i ≠ s.lruListHead then s.swapLruHead i else s) := by
      split
      · exact Relinked.swapLruHead s i
      · exact Relinked.refl s
    refine ⟨fun k _ => hr.addr k, fun k _ => hr.dirty k, fun _ => ⟨hr.dirty i, ?_⟩,
      fun hne => absurd hfound hne⟩
    split
    · exact swapLruHead_calls s i
    · rfl
  · have hmiss : ∀ k, (s.pages k).addr ≠ cfg.pageAddr addr := fun k => by
      simpa using hnone k (h.all k)
    have hsearch : s.searchPage (cfg.pageAddr addr) cfg.pages s.lruListHead = some (i, false) :=
      (searchPage_eq s _ _ _).trans hw
    simp only [lookupPage, hsearch, Option.some.injEq, Prod.mk.injEq] at hlook
    obtain ⟨rfl, rfl⟩ := hlook
    have hr := Relinked.swapLruHead s i
    have hfront := h.toFront (h.last_ne_head hpages hlast)
    obtain ⟨hinv, -, hsame, -, -⟩ := evict_spec hio hfront i
    have hin : addr / cfg.pageSize * cfg.pageSize < nFiles * 2 ^ j :=
      lt_of_le_of_lt (Nat.div_mul_le_self _ _) haddr
    rw [cfg.pageAddr_eq addr]
    set u := if ((s.swapLruHead i).pages i).dirty then (s.swapLruHead i).storePage env i
      else s.swapLruHead i with hu
    have hucalls : u.dosCalls = s.dosCalls + if (s.pages i).dirty then 2 else 0 := by
      rw [hu, hr.dirty i]
      split
      · rw [storePage_calls hio hfront, swapLruHead_calls]
      · exact swapLruHead_calls s i
    obtain ⟨hcalls, hclean⟩ := loadPage_calls hio hinv.layout i hin
    obtain ⟨-, -, -, hothers, -, -⟩ := loadPage_spec hio hinv.layout i hin
    refine ⟨?_, ?_, fun hhit => absurd hhit (hmiss i), fun _ => ⟨hclean, ?_⟩⟩
    · intro k hk
      rw [hothers k hk, hsame, hr.addr]
    · intro k hk
      rw [hothers k hk, hsame, hr.dirty]
    · rw [hcalls, hucalls]

/-! ## The pool of the pages -/

/-- The pages are the pool `c`: the list is what is resident, and every load and every store since
the count was `start` was a seek and a transfer. -/
structure Pooled (s : SwapMemory cfg) (start : Nat) (c : LruPool Nat) : Prop where
  resident : ∀ k, (s.links.nth k).map s.cache.key = c.resident[k]?
  dirty : ∀ p, p ∈ c.dirty ↔ ∃ i, (s.pages i).dirty = true ∧ s.cache.key i = p
  calls : s.dosCalls = start + 2 * (c.loads + c.stores)

theorem resident_iff (h : s.PageInv j nFiles l) :
    (∀ k, (s.links.nth k).map s.cache.key = c.resident[k]?)
      ↔ c.resident = l.map s.cache.key := by
  constructor
  · intro hk
    apply List.ext_getElem?
    intro k
    rw [← hk k, h.linked.nth, List.getElem?_map]
  · intro hl k
    rw [hl, h.linked.nth, List.getElem?_map]

theorem PageInv.length (h : s.PageInv j nFiles l) : l.length = cfg.pages := by
  have hperm : l.Perm (List.finRange cfg.pages) :=
    (List.perm_ext_iff_of_nodup h.linked.nodup (List.nodup_finRange _)).mpr
      fun i => iff_of_true (h.all i) (List.mem_finRange i)
  rw [hperm.length_eq, List.length_finRange]

/-- A page address as a page number. -/
theorem key_of_addr {i : Fin cfg.pages} {addr : Nat} (h : (s.pages i).addr = cfg.pageAddr addr) :
    s.cache.key i = addr / cfg.pageSize := by
  show (s.pages i).addr / cfg.pageSize = addr / cfg.pageSize
  rw [h, cfg.pageAddr_eq, Nat.mul_div_cancel _ cfg.pageSize_pos]

/-- A page number that is cached nowhere. -/
theorem key_ne_of_miss (h : s.PageInv j nFiles l) {addr : Nat}
    (hmiss : ∀ i, (s.pages i).addr ≠ cfg.pageAddr addr) (i : Fin cfg.pages) :
    s.cache.key i ≠ addr / cfg.pageSize := by
  intro hi
  apply hmiss i
  rw [cfg.pageAddr_eq, ← hi, mul_key (s := s) i (h.aligned i)]

theorem LookupCost.key {page : Fin cfg.pages} {addr : Nat} (h : LookupCost s t page addr)
    {i : Fin cfg.pages} (hi : i ≠ page) : t.cache.key i = s.cache.key i := by
  show (t.pages i).addr / cfg.pageSize = (s.pages i).addr / cfg.pageSize
  rw [h.addrs i hi]

/-- The list after a lookup, as page numbers. -/
theorem lookup_kept {page : Fin cfg.pages} {addr : Nat} (h : s.PageInv j nFiles l)
    (hres : c.resident = l.map s.cache.key) (ht : LookedUp s t j nFiles l page addr)
    (hcost : LookupCost s t page addr) :
    c.kept cfg.pages (addr / cfg.pageSize) = (page :: l.erase page).map t.cache.key := by
  have hown : t.cache.key page = addr / cfg.pageSize := key_of_addr ht.found
  have hmap : (l.erase page).map t.cache.key = (l.erase page).map s.cache.key := by
    apply List.map_congr_left
    intro i hi
    exact hcost.key (h.linked.nodup.mem_erase_iff.mp hi).1
  have hlen := h.length
  have herase : (l.erase page).length = cfg.pages - 1 := by
    rw [List.length_erase_of_mem (h.all page), hlen]
  rw [LruPool.kept_eq cfg.pages_pos, hres, List.map_cons, hown, hmap]
  congr 1
  rcases ht.choice with hhit | ⟨hmiss, hlast⟩
  · rw [← key_of_addr hhit, ← List.map_erase h.cache.inj, List.take_of_length_le]
    rw [List.length_map, herase]
  · -- the page that was replaced is the last one
    have hnot : addr / cfg.pageSize ∉ l.map s.cache.key := by
      intro hmem
      obtain ⟨i, -, hi⟩ := List.mem_map.mp hmem
      exact key_ne_of_miss h hmiss i hi
    obtain ⟨front, rfl⟩ := List.getLast?_eq_some_iff.mp hlast
    have hfront : page ∉ front := by
      have := List.nodup_append.mp h.linked.nodup
      exact fun hm => this.2.2 page hm page (List.mem_singleton_self page) rfl
    rw [List.erase_of_not_mem hnot, List.erase_append_right _ hfront, List.map_append,
      List.erase_cons_head, List.append_nil, List.take_append_of_le_length, List.take_of_length_le]
    · rw [List.length_append, List.length_singleton] at hlen
      rw [List.length_map]
      omega
    · rw [List.length_append, List.length_singleton] at hlen
      rw [List.length_map]
      omega

/-- What is resident after a lookup are the page numbers of the pages. -/
theorem mem_lookup_kept {page : Fin cfg.pages} {addr : Nat} (h : s.PageInv j nFiles l)
    (hres : c.resident = l.map s.cache.key) (ht : LookedUp s t j nFiles l page addr)
    (hcost : LookupCost s t page addr) (p : Nat) :
    p ∈ c.kept cfg.pages (addr / cfg.pageSize) ↔ ∃ i, t.cache.key i = p := by
  rw [lookup_kept h hres ht hcost, List.mem_map]
  exact ⟨fun ⟨i, _, hi⟩ => ⟨i, hi⟩, fun ⟨i, hi⟩ => ⟨i, ht.inv.all i, hi⟩⟩

/-- A lookup that finds its page. -/
theorem Pooled.hit {page : Fin cfg.pages} {addr : Nat} (hp : Pooled s start c)
    (h : s.PageInv j nFiles l) (ht : LookedUp s t j nFiles l page addr)
    (hcost : LookupCost s t page addr) (hhit : (s.pages page).addr = cfg.pageAddr addr) :
    Pooled t start (c.use cfg.pages (addr / cfg.pageSize, false)) := by
  have hres := (resident_iff h).mp hp.resident
  obtain ⟨hflag, hcalls⟩ := hcost.hit hhit
  have hkeys : ∀ i, t.cache.key i = s.cache.key i := by
    intro i
    by_cases hi : i = page
    · rw [hi, key_of_addr ht.found, key_of_addr hhit]
    · exact hcost.key hi
  have hflags : ∀ i, (t.pages i).dirty = (s.pages i).dirty := by
    intro i
    by_cases hi : i = page
    · rw [hi, hflag]
    · exact hcost.flags i hi
  have hin : addr / cfg.pageSize ∈ c.resident := by
    rw [hres, ← key_of_addr hhit]
    exact List.mem_map_of_mem (h.all page)
  -- every written page stays
  have hstay : ∀ p ∈ c.dirty, p ∈ c.kept cfg.pages (addr / cfg.pageSize) := by
    intro p hdirty
    obtain ⟨i, -, hi⟩ := (hp.dirty p).mp hdirty
    exact (mem_lookup_kept h hres ht hcost p).mpr ⟨i, (hkeys i).trans hi⟩
  refine ⟨(resident_iff ht.inv).mpr (lookup_kept h hres ht hcost), ?_, ?_⟩
  · intro p
    have hdirty : (c.use cfg.pages (addr / cfg.pageSize, false)).dirty = c.dirty :=
      Finset.filter_true_of_mem hstay
    rw [hdirty, hp.dirty]
    simp only [hflags, hkeys]
  · simp only [LruPool.use, if_pos hin,
      Finset.filter_false_of_mem fun p hdirty => not_not.mpr (hstay p hdirty),
      Finset.card_empty]
    rw [hcalls, hp.calls]
    omega

/-- Of the pages, a lookup that misses drops the one that it returns. -/
theorem dropped_iff {page : Fin cfg.pages} {addr : Nat} (h : s.PageInv j nFiles l)
    (hres : c.resident = l.map s.cache.key) (ht : LookedUp s t j nFiles l page addr)
    (hcost : LookupCost s t page addr) (hmiss : ∀ i, (s.pages i).addr ≠ cfg.pageAddr addr)
    (i : Fin cfg.pages) :
    s.cache.key i ∉ c.kept cfg.pages (addr / cfg.pageSize) ↔ i = page := by
  rw [mem_lookup_kept h hres ht hcost]
  constructor
  · intro hnone
    by_contra hi
    exact hnone ⟨i, hcost.key hi⟩
  · rintro rfl ⟨k, hk⟩
    by_cases hki : k = i
    · subst hki
      exact key_ne_of_miss h hmiss k (hk.symm.trans (key_of_addr ht.found))
    · exact hki (h.cache.inj ((hcost.key hki).symm.trans hk))

/-- A lookup that replaces its page. -/
theorem Pooled.miss {page : Fin cfg.pages} {addr : Nat} (hp : Pooled s start c)
    (h : s.PageInv j nFiles l) (ht : LookedUp s t j nFiles l page addr)
    (hcost : LookupCost s t page addr) (hmiss : ∀ i, (s.pages i).addr ≠ cfg.pageAddr addr) :
    Pooled t start (c.use cfg.pages (addr / cfg.pageSize, false)) := by
  have hres := (resident_iff h).mp hp.resident
  have hgone := dropped_iff h hres ht hcost hmiss
  obtain ⟨hclean, hcalls⟩ := hcost.miss (hmiss page)
  have hout : addr / cfg.pageSize ∉ c.resident := by
    rw [hres, List.mem_map]
    exact fun ⟨i, _, hi⟩ => key_ne_of_miss h hmiss i hi
  refine ⟨(resident_iff ht.inv).mpr (lookup_kept h hres ht hcost), ?_, ?_⟩
  · intro p
    have hdirty : p ∈ (c.use cfg.pages (addr / cfg.pageSize, false)).dirty
        ↔ p ∈ c.dirty ∧ p ∈ c.kept cfg.pages (addr / cfg.pageSize) := Finset.mem_filter
    rw [hdirty, hp.dirty]
    constructor
    · rintro ⟨⟨i, hi, rfl⟩, hk⟩
      have hne : i ≠ page := fun he => (hgone i).mpr he hk
      exact ⟨i, (hcost.flags i hne).trans hi, hcost.key hne⟩
    · rintro ⟨i, hi, rfl⟩
      have hne : i ≠ page := by
        rintro rfl
        rw [hclean] at hi
        exact Bool.false_ne_true hi
      exact ⟨⟨i, (hcost.flags i hne).symm.trans hi, (hcost.key hne).symm⟩,
        (mem_lookup_kept h hres ht hcost _).mpr ⟨i, rfl⟩⟩
  · have hset : c.dirty.filter (· ∉ c.kept cfg.pages (addr / cfg.pageSize))
        = if (s.pages page).dirty then {s.cache.key page} else ∅ := by
      ext p
      rw [Finset.mem_filter, hp.dirty]
      constructor
      · rintro ⟨⟨i, hi, rfl⟩, hk⟩
        obtain rfl := (hgone i).mp hk
        rw [if_pos hi]
        exact Finset.mem_singleton_self _
      · intro hp
        split at hp
        · rename_i hi
          obtain rfl := Finset.mem_singleton.mp hp
          exact ⟨⟨page, hi, rfl⟩, (hgone page).mpr rfl⟩
        · exact absurd hp (Finset.notMem_empty p)
    simp only [LruPool.use, if_neg hout, hset]
    rw [hcalls, hp.calls]
    split
    · rw [Finset.card_singleton]
      omega
    · rw [Finset.card_empty]
      omega

/-- **A lookup is a use** of the page number. -/
theorem Pooled.lookup {page : Fin cfg.pages} {addr : Nat} (hp : Pooled s start c)
    (h : s.PageInv j nFiles l) (ht : LookedUp s t j nFiles l page addr)
    (hcost : LookupCost s t page addr) :
    Pooled t start (c.use cfg.pages (addr / cfg.pageSize, false)) := by
  rcases ht.choice with hhit | ⟨hmiss, -⟩
  · exact hp.hit h ht hcost hhit
  · exact hp.miss h ht hcost hmiss

/-- Writing into the page of a use makes it a use by a write. -/
theorem Pooled.write {page : Fin cfg.pages} {p : Nat} (data : Nat → Byte)
    (hp : Pooled s start (c.use cfg.pages (p, false))) (hkey : s.cache.key page = p) :
    Pooled (s.setPage page { s.pages page with data := data, dirty := true }) start
      (c.use cfg.pages (p, true)) := by
  set u := s.setPage page { s.pages page with data := data, dirty := true } with hu
  have hcache : u.cache = s.cache.modify page (Bytes.readAt data 0 cfg.pageSize) :=
    setPage_cache page data
  have hkeys : u.cache.key = s.cache.key := by rw [hcache]; rfl
  have hlinks : u.links = s.links := setPage_links rfl rfl
  refine ⟨?_, ?_, hp.calls⟩
  · intro k
    rw [hlinks, hkeys]
    exact hp.resident k
  · intro q
    have hdirty : q ∈ (c.use cfg.pages (p, true)).dirty
        ↔ q = p ∨ q ∈ (c.use cfg.pages (p, false)).dirty := Finset.mem_insert
    rw [hdirty, hp.dirty, hkeys]
    constructor
    · rintro (rfl | ⟨i, hi, rfl⟩)
      · refine ⟨page, ?_, hkey⟩
        simp [hu, setPage]
      · refine ⟨i, ?_, rfl⟩
        by_cases hip : i = page
        · subst hip
          simp [hu, setPage]
        · simpa [hu, setPage, Function.update_of_ne hip] using hi
    · rintro ⟨i, hi, rfl⟩
      by_cases hip : i = page
      · subst hip
        exact Or.inl hkey
      · refine Or.inr ⟨i, ?_, rfl⟩
        simpa [hu, setPage, Function.update_of_ne hip] using hi

/-! ## Accesses as uses of bytes -/

/-- The uses of `n` bytes from an address on: each uses its page. -/
def bytesUsed (cfg : MemCfg) (addr n : Nat) (write : Bool) : List (Nat × Bool) :=
  Bytes.readAt (fun a => (a / cfg.pageSize, write)) addr n

/-- The bytes that a comparison looks at: those up to the first difference. -/
def compared : List Byte → List Byte → Nat
  | a :: as, b :: bs => if a = b then compared as bs + 1 else 1
  | _, _ => 0

/-- The bytes that a call uses, in the order of their addresses. -/
def MemOp.uses (cfg : MemCfg) (flat : Memory) : MemOp → List (Nat × Bool)
  | .read addr size => bytesUsed cfg addr size false
  | .write addr buf => bytesUsed cfg addr buf.length true
  | .cmp addr buf =>
      bytesUsed cfg addr (compared (Bytes.readAt flat.data addr buf.length) buf) false

/-- The bytes that a sequence of calls uses; a comparison depends on what the memory holds. -/
def usesOf (cfg : MemCfg) (flat : Memory) : List MemOp → List (Nat × Bool)
  | [] => []
  | op :: ops => op.uses cfg flat ++ usesOf cfg (flatOp flat op).1 ops

theorem bytesUsed_add (cfg : MemCfg) (addr n m : Nat) (w : Bool) :
    bytesUsed cfg addr (n + m) w = bytesUsed cfg addr n w ++ bytesUsed cfg (addr + n) m w :=
  Bytes.readAt_add _ _ _ _

/-- The bytes of a chunk are one use of its page. -/
theorem run_chunk {addr n : Nat} (w : Bool) (hn : 0 < n)
    (hpage : cfg.pageOffset addr + n ≤ cfg.pageSize) :
    c.run cfg.pages (bytesUsed cfg addr n w) = c.use cfg.pages (addr / cfg.pageSize, w) := by
  obtain ⟨m, rfl⟩ := Nat.exists_eq_succ_of_ne_zero hn.ne'
  have hsame : bytesUsed cfg addr (m + 1) w
      = List.replicate (m + 1) (addr / cfg.pageSize, w) := by
    apply List.ext_getElem?
    intro i
    rw [bytesUsed, Bytes.readAt_getElem?, List.getElem?_replicate]
    by_cases hi : i < m + 1
    · rw [if_pos hi, if_pos hi]
      have hdiv : (addr + i) / cfg.pageSize = addr / cfg.pageSize := by
        rw [cfg.pageOffset_eq] at hpage
        have hsplit := Nat.div_add_mod addr cfg.pageSize
        rw [Nat.mul_comm] at hsplit
        refine Nat.div_eq_of_lt_le (by omega) ?_
        rw [Nat.succ_mul]
        omega
      rw [hdiv]
    · rw [if_neg hi, if_neg hi]
  rw [hsame, LruPool.run_replicate cfg.pages_pos]

/-- A comparison that goes on behind `xs` looks at all of `xs`. -/
theorem compared_append_eq {xs ys : List Byte} (xs' ys' : List Byte)
    (hlen : xs.length = ys.length) (heq : memcmp xs ys = .eq) :
    compared (xs ++ xs') (ys ++ ys') = xs.length + compared xs' ys' := by
  induction xs generalizing ys with
  | nil =>
      obtain rfl : ys = [] := List.length_eq_zero_iff.mp hlen.symm
      simp
  | cons x xs ih =>
      cases ys with
      | nil => simp at hlen
      | cons y ys =>
          obtain ⟨hxy, hrest⟩ := Ordering.then_eq_eq.mp heq
          obtain rfl : x = y := BitVec.eq_of_toNat_eq (Nat.compare_eq_eq.mp hxy)
          simp only [List.length_cons, Nat.add_right_cancel_iff] at hlen
          simp only [List.cons_append, compared, if_true, ih hlen hrest, List.length_cons]
          omega

/-- A comparison that ends in `xs` looks at a part of `xs`. -/
theorem compared_append_ne {xs ys : List Byte} (xs' ys' : List Byte)
    (hlen : xs.length = ys.length) (hne : memcmp xs ys ≠ .eq) :
    compared (xs ++ xs') (ys ++ ys') = compared xs ys ∧ 0 < compared xs ys
      ∧ compared xs ys ≤ xs.length := by
  induction xs generalizing ys with
  | nil => exact absurd rfl hne
  | cons x xs ih =>
      cases ys with
      | nil => simp at hlen
      | cons y ys =>
          simp only [List.length_cons, Nat.add_right_cancel_iff] at hlen
          by_cases hxy : x = y
          · subst hxy
            have hrest : memcmp xs ys ≠ .eq := by
              intro heq
              apply hne
              rw [memcmp, heq, Nat.compare_eq_eq.mpr rfl]
              rfl
            obtain ⟨happ, hpos, hle⟩ := ih hlen hrest
            simp only [List.cons_append, compared, if_true, happ, List.length_cons]
            exact ⟨trivial, by omega, by omega⟩
          · simp [compared, hxy]

/-- A lookup, with what it costs. -/
theorem Represents.lookup (hio : env.ioOk) (hpages : 2 ≤ cfg.pages)
    (hs : s.Represents j nFiles l flat) (hp : Pooled s start c) (addr : Nat)
    (haddr : addr < nFiles * 2 ^ j) :
    ∃ t page, s.lookupPage env addr = some (t, page) ∧ LookedUp s t j nFiles l page addr
      ∧ t.Represents j nFiles (page :: l.erase page) flat
      ∧ Pooled t start (c.use cfg.pages (addr / cfg.pageSize, false)) := by
  obtain ⟨t, page, hlook, ht⟩ := lookupPage_spec hio hpages hs.inv addr haddr
  have hcost := lookupPage_cost hio hpages hs.inv haddr hlook
  exact ⟨t, page, hlook, ht, ht.represents hs, hp.lookup hs.inv ht hcost⟩

theorem readLoop_pool (hio : env.ioOk) (hpages : 2 ≤ cfg.pages) (fuel addr rest : Nat)
    (buf : List Byte) (hs : s.Represents j nFiles l flat) (hp : Pooled s start c)
    (hrest : rest ≤ fuel) (haddr : addr + rest ≤ nFiles * 2 ^ j) {r : List Byte}
    (h : readLoop env fuel s addr rest buf = some (t, r)) :
    Pooled t start (c.run cfg.pages (bytesUsed cfg addr rest false)) := by
  induction fuel generalizing s l c addr rest buf with
  | zero =>
      obtain rfl : rest = 0 := by omega
      cases h
      exact hp
  | succ fuel ih =>
      rw [readLoop] at h
      by_cases h0 : rest = 0
      · subst h0
        cases h
        exact hp
      · rw [if_neg h0] at h
        obtain ⟨u, page, hlook, -, hrep, hpool⟩ := hs.lookup hio hpages hp addr (by omega)
        have hpos := chunkSize_pos cfg addr (Nat.pos_of_ne_zero h0)
        have hle := chunkSize_le cfg addr rest
        rw [← run_chunk false hpos (chunkSize_page cfg addr rest)] at hpool
        simp only [hlook] at h
        have hrun := ih _ _ _ hrep hpool (by omega) (by omega) h
        rwa [← LruPool.run_append, ← bytesUsed_add, Nat.add_sub_cancel' hle] at hrun

theorem writeLoop_pool (hio : env.ioOk) (hpages : 2 ≤ cfg.pages) (fuel addr : Nat)
    (buf : List Byte) (hs : s.Represents j nFiles l flat) (hp : Pooled s start c)
    (hbuf : buf.length ≤ fuel) (haddr : addr + buf.length ≤ nFiles * 2 ^ j)
    (h : writeLoop env fuel s addr buf = some t) :
    Pooled t start (c.run cfg.pages (bytesUsed cfg addr buf.length true)) := by
  induction fuel generalizing s l c addr buf flat with
  | zero =>
      obtain rfl : buf = [] := List.length_eq_zero_iff.mp (by omega)
      cases h
      exact hp
  | succ fuel ih =>
      rw [writeLoop] at h
      by_cases h0 : buf.length = 0
      · rw [if_pos h0] at h
        cases h
        rw [h0]
        exact hp
      · rw [if_neg h0] at h
        obtain ⟨u, page, hlook, hu, hrep, hpool⟩ := hs.lookup hio hpages hp addr (by omega)
        set chunk := chunkSize cfg addr buf.length with hchunk
        have hpos : 0 < chunk := chunkSize_pos cfg addr (Nat.pos_of_ne_zero h0)
        have hle : chunk ≤ buf.length := chunkSize_le cfg addr buf.length
        have htake : (buf.take chunk).length = chunk := List.length_take_of_le hle
        have hpage := chunkSize_page cfg addr buf.length
        have hroom : cfg.pageOffset addr + (buf.take chunk).length ≤ cfg.pageSize := by
          rw [htake]
          exact hpage
        have hwritten := hrep.write page hroom
        have hpool' := hpool.write (Bytes.writeAt (u.pages page).data (cfg.pageOffset addr)
          (buf.take chunk)) (key_of_addr hu.found)
        rw [← run_chunk true hpos hpage] at hpool'
        simp only [hlook] at h
        have hrun := ih _ _ hwritten hpool' (by rw [List.length_drop]; omega)
          (by rw [List.length_drop]; omega) h
        rwa [← LruPool.run_append, ← bytesUsed_add, List.length_drop, Nat.add_sub_cancel' hle]
          at hrun

theorem cmpLoop_pool (hio : env.ioOk) (hpages : 2 ≤ cfg.pages) (fuel addr : Nat)
    (buf : List Byte) (hs : s.Represents j nFiles l flat) (hp : Pooled s start c)
    (hbuf : buf.length ≤ fuel) (haddr : addr + buf.length ≤ nFiles * 2 ^ j) {r : Ordering}
    (h : cmpLoop env fuel s addr buf = some (t, r)) :
    Pooled t start (c.run cfg.pages
      (bytesUsed cfg addr (compared (Bytes.readAt flat.data addr buf.length) buf) false)) := by
  induction fuel generalizing s l c addr buf with
  | zero =>
      obtain rfl : buf = [] := List.length_eq_zero_iff.mp (by omega)
      cases h
      exact hp
  | succ fuel ih =>
      rw [cmpLoop] at h
      by_cases h0 : buf.length = 0
      · rw [if_pos h0] at h
        cases h
        obtain rfl : buf = [] := List.length_eq_zero_iff.mp h0
        exact hp
      · rw [if_neg h0] at h
        obtain ⟨u, page, hlook, hu, hrep, hpool⟩ := hs.lookup hio hpages hp addr (by omega)
        have hcopy := hu.chunk hs buf.length
        set chunk := chunkSize cfg addr buf.length with hchunk
        have hpos : 0 < chunk := chunkSize_pos cfg addr (Nat.pos_of_ne_zero h0)
        have hle : chunk ≤ buf.length := chunkSize_le cfg addr buf.length
        have htake : (buf.take chunk).length = chunk := List.length_take_of_le hle
        have hpage := chunkSize_page cfg addr buf.length
        have hlen : (Bytes.readAt flat.data addr chunk).length = (buf.take chunk).length := by
          rw [htake, Bytes.readAt_length]
        have hsplit : compared (Bytes.readAt flat.data addr buf.length) buf
            = compared (Bytes.readAt flat.data addr chunk
                ++ Bytes.readAt flat.data (addr + chunk) (buf.drop chunk).length)
              (buf.take chunk ++ buf.drop chunk) := by
          rw [List.take_append_drop, ← Bytes.readAt_add, List.length_drop,
            Nat.add_sub_cancel' hle]
        simp only [hlook, hcopy] at h
        by_cases heq : memcmp (Bytes.readAt flat.data addr chunk) (buf.take chunk) = .eq
        · rw [← run_chunk false hpos hpage] at hpool
          rw [heq] at h
          rw [hsplit, compared_append_eq _ _ hlen heq, Bytes.readAt_length, bytesUsed_add,
            LruPool.run_append]
          exact ih _ _ hrep hpool (by rw [List.length_drop]; omega)
            (by rw [List.length_drop]; omega) h
        · -- the comparison ends in this page
          obtain ⟨happ, hpos', hle'⟩ := compared_append_ne
            (Bytes.readAt flat.data (addr + chunk) (buf.drop chunk).length) (buf.drop chunk)
            hlen heq
          rw [Bytes.readAt_length] at hle'
          rw [hsplit, happ, run_chunk false hpos' (by omega)]
          have ht : t = u := by
            split at h
            · contradiction
            · cases h
              rfl
          rw [ht]
          exact hpool

/-! ## Runs -/

/-- One call. -/
theorem pagedOp_pool (hio : env.ioOk) (hpages : 2 ≤ cfg.pages)
    (hs : s.Represents j nFiles l flat) (hp : Pooled s start c) {op : MemOp}
    (hop : op.inside (nFiles * 2 ^ j)) :
    ∃ t l', pagedOp env s op = some (t, (flatOp flat op).2)
      ∧ t.Represents j nFiles l' (flatOp flat op).1
      ∧ Pooled t start (c.run cfg.pages (op.uses cfg flat)) := by
  obtain ⟨t, l', ht, hrep⟩ := pagedOp_spec hio hpages hs hop
  refine ⟨t, l', ht, hrep, ?_⟩
  cases op with
  | read addr size =>
      obtain ⟨⟨u, r⟩, hloop, heq⟩ := Option.map_eq_some_iff.mp ht
      cases heq
      exact readLoop_pool hio hpages size addr size [] hs hp (le_refl _) hop hloop
  | write addr buf =>
      obtain ⟨u, hloop, heq⟩ := Option.map_eq_some_iff.mp ht
      cases heq
      exact writeLoop_pool hio hpages buf.length addr buf hs hp (le_refl _) hop hloop
  | cmp addr buf =>
      obtain ⟨⟨u, r⟩, hloop, heq⟩ := Option.map_eq_some_iff.mp ht
      cases heq
      exact cmpLoop_pool hio hpages buf.length addr buf hs hp (le_refl _) hop hloop

/-- A run of calls. -/
theorem pagedRun_pool (hio : env.ioOk) (hpages : 2 ≤ cfg.pages) (ops : List MemOp)
    (hs : s.Represents j nFiles l flat) (hp : Pooled s start c)
    (hops : ∀ op ∈ ops, op.inside (nFiles * 2 ^ j)) :
    ∃ t, pagedRun env s ops = some (t, (flatRun flat ops).2)
      ∧ Pooled t start (c.run cfg.pages (usesOf cfg flat ops)) := by
  induction ops generalizing s l flat c with
  | nil => exact ⟨s, rfl, hp⟩
  | cons op ops ih =>
      obtain ⟨t, l', ht, hrep, hpool⟩ := pagedOp_pool hio hpages hs hp (hops op (by simp))
      obtain ⟨u, hu, hrun⟩ := ih hrep hpool fun o ho => hops o (List.mem_cons_of_mem _ ho)
      refine ⟨u, ?_, ?_⟩
      · simp only [pagedRun, ht, hu, Option.bind_eq_bind, Option.bind_some]
        rfl
      · rwa [← LruPool.run_append] at hrun

/-- The pool after `mem_init`: the first pages, none of them written. -/
def startPool (cfg : MemCfg) : LruPool Nat := ⟨List.range cfg.pages, ∅, 0, 0⟩

theorem memInit_pooled (hio : env.ioOk) {size nSwapFiles : Nat} {self : SwapMemory cfg}
    (hinit : memInit cfg env size nSwapFiles = .ready self)
    (hfile : nFileSize cfg size nSwapFiles = 2 ^ j)
    (hcache : cfg.pages * cfg.pageSize ≤ nSwapFiles * 2 ^ j) :
    Pooled self self.dosCalls (startPool cfg) := by
  have hinv := (memInit_represents hio hinit hfile hcache).inv
  obtain ⟨hload, -, -, -⟩ := memInit_loaded hio hinit hfile hcache
  have hkey : self.cache.key = Fin.val := by
    funext i
    show (self.pages i).addr / cfg.pageSize = i
    rw [(hload i).addr, Nat.mul_div_cancel _ cfg.pageSize_pos]
  refine ⟨(resident_iff hinv).mpr ?_, ?_, rfl⟩
  · rw [hkey, List.map_coe_finRange_eq_range]
    rfl
  · intro p
    refine iff_of_false (Finset.notMem_empty p) ?_
    rintro ⟨i, hi, -⟩
    rw [(hload i).dirty] at hi
    exact Bool.false_ne_true hi

/-- A run of calls after `mem_init`. -/
theorem start_pool (hio : env.ioOk) (hpages : 2 ≤ cfg.pages) {size nSwapFiles : Nat}
    (hfile : nFileSize cfg size nSwapFiles = 2 ^ j) (hcover : size ≤ nSwapFiles * 2 ^ j)
    (hcache : cfg.pages * cfg.pageSize ≤ nSwapFiles * 2 ^ j) {self : SwapMemory cfg}
    (hinit : memInit cfg env size nSwapFiles = .ready self) (ops : List MemOp)
    (hops : ∀ op ∈ ops, op.inside size) :
    ∃ last, pagedRun env self ops = some (last, (flatRun (swapContents env j) ops).2)
      ∧ Pooled last self.dosCalls
          ((startPool cfg).run cfg.pages (usesOf cfg (swapContents env j) ops)) := by
  refine pagedRun_pool hio hpages ops (memInit_represents hio hinit hfile hcache)
    (memInit_pooled hio hinit hfile hcache) ?_
  intro op hop
  have := hops op hop
  cases op with
  | read addr n => exact le_trans this hcover
  | write addr buf => exact le_trans this hcover
  | cmp addr buf => exact le_trans this hcover

/-- The start pool is a prefix of the pages of the guest, in their order. -/
theorem startPool_resident {n : Nat} (h : cfg.pages ≤ n) :
    (startPool cfg).resident = (List.range n).take cfg.pages := by
  rw [List.take_range, Nat.min_eq_left h]
  rfl

/-- **The cached pages are the most recently used ones.** With working I/O, after `mem_init` and any
accesses inside the RAM, following `next` from the head gives the first `MEM_PAGES` pages of the
recency list of the guest's pages, each byte of an access being a use of its page; and DOS was
called twice for each page that an LRU pool of that size loads and each page that it stores. -/
theorem cached_most_recent (cfg : MemCfg) (env : SwapEnv) (hio : env.ioOk) (hpages : 2 ≤ cfg.pages)
    (size nSwapFiles j : Nat) (hfile : nFileSize cfg size nSwapFiles = 2 ^ j)
    (hcover : size ≤ nSwapFiles * 2 ^ j) (nPages : Nat)
    (hn : nPages * cfg.pageSize = nSwapFiles * 2 ^ j) (hcache : cfg.pages ≤ nPages)
    (self : SwapMemory cfg) (hinit : memInit cfg env size nSwapFiles = .ready self)
    (ops : List MemOp) (hops : ∀ op ∈ ops, op.inside size) :
    ∃ last as, pagedRun env self ops = some (last, as)
      ∧ (∀ k, (last.links.nth k).map (fun i => (last.pages i).addr / cfg.pageSize)
          = ((Recency.after (List.range nPages)
              ((usesOf cfg (swapContents env j) ops).map Prod.fst)).take cfg.pages)[k]?)
      ∧ ∃ pool, pool = (startPool cfg).run cfg.pages (usesOf cfg (swapContents env j) ops)
          ∧ last.dosCalls = self.dosCalls + 2 * (pool.loads + pool.stores) := by
  have hroom : cfg.pages * cfg.pageSize ≤ nSwapFiles * 2 ^ j := by
    rw [← hn]
    exact Nat.mul_le_mul_right _ hcache
  obtain ⟨last, hrun, hpool⟩ := start_pool hio hpages hfile hcover hroom hinit ops hops
  refine ⟨last, _, hrun, ?_, _, rfl, hpool.calls⟩
  intro k
  rw [← LruPool.run_resident (List.range nPages) (startPool_resident hcache)]
  exact hpool.resident k

/-- The accesses of the samples. -/
theorem sampleOps_inside : ∀ op ∈ [MemOp.write 2046 [1#8, 2#8, 3#8], .read 819200 1],
    op.inside (2 ^ 20) := by
  intro op hop
  rcases List.mem_cons.mp hop with rfl | hop
  · show 2046 + 3 ≤ 2 ^ 20
    decide
  · obtain rfl := List.mem_singleton.mp hop
    show 819200 + 1 ≤ 2 ^ 20
    decide

/-- 1 MB in one new swap file: a write across a page boundary, then a byte of page 400. -/
theorem cached_most_recent_fresh :
    ∃ self, memInit memRv32 freshDisk (2 ^ 20) 1 = .ready self
      ∧ ∃ last as, pagedRun freshDisk self [.write 2046 [1#8, 2#8, 3#8], .read 819200 1]
          = some (last, as)
        ∧ (∀ k, (last.links.nth k).map (fun i => (last.pages i).addr / memRv32.pageSize)
            = ((Recency.after (List.range 512)
                ((usesOf memRv32 (swapContents freshDisk 20)
                  [.write 2046 [1#8, 2#8, 3#8], .read 819200 1]).map Prod.fst)).take
                memRv32.pages)[k]?)
        ∧ ∃ pool, pool = (startPool memRv32).run memRv32.pages
              (usesOf memRv32 (swapContents freshDisk 20)
                [.write 2046 [1#8, 2#8, 3#8], .read 819200 1])
            ∧ last.dosCalls = self.dosCalls + 2 * (pool.loads + pool.stores) := by
  obtain ⟨self, hself⟩ := memInit_ready memRv32 freshDisk (fun _ => rfl)
    (2 ^ 20) 1 (by decide) (fun _ => rfl) (fun _ => rfl) (fun _ => rfl)
    (by decide)
  exact ⟨self, hself, cached_most_recent memRv32 freshDisk (fun _ => rfl) (by decide) (2 ^ 20) 1 20
    (by decide) (by decide) 512 (by decide) (by decide) self hself _ sampleOps_inside⟩

/-- **More pages never cost more calls.** Two builds with pages of one size run the same accesses
over the same files: the one that caches more pages gives the same answers and makes no more calls
to DOS. -/
theorem more_pages_no_more_calls (cfg cfg' : MemCfg) (env : SwapEnv) (hio : env.ioOk)
    (hpages : 2 ≤ cfg.pages) (hmore : cfg.pages ≤ cfg'.pages)
    (hshift : cfg'.pageAddrShift = cfg.pageAddrShift)
    (size nSwapFiles j : Nat) (hfile : nFileSize cfg size nSwapFiles = 2 ^ j)
    (hcover : size ≤ nSwapFiles * 2 ^ j)
    (hcache : cfg'.pages * cfg'.pageSize ≤ nSwapFiles * 2 ^ j)
    (self : SwapMemory cfg) (hinit : memInit cfg env size nSwapFiles = .ready self)
    (self' : SwapMemory cfg') (hinit' : memInit cfg' env size nSwapFiles = .ready self')
    (ops : List MemOp) (hops : ∀ op ∈ ops, op.inside size) :
    ∃ last last' as, pagedRun env self ops = some (last, as)
      ∧ pagedRun env self' ops = some (last', as)
      ∧ last'.dosCalls - self'.dosCalls ≤ last.dosCalls - self.dosCalls := by
  have hsize : cfg'.pageSize = cfg.pageSize := by rw [MemCfg.pageSize, MemCfg.pageSize, hshift]
  have hfile' : nFileSize cfg' size nSwapFiles = 2 ^ j := by
    rw [← hfile, nFileSize, nFileSize, MemCfg.alignUp, MemCfg.alignUp, MemCfg.pageAddr,
      MemCfg.pageAddr, hshift, hsize]
  have hcache₀ : cfg.pages * cfg.pageSize ≤ nSwapFiles * 2 ^ j := by
    rw [← hsize]
    exact le_trans (Nat.mul_le_mul_right _ hmore) hcache
  have huses : ∀ (ops : List MemOp) (flat : Memory),
      usesOf cfg' flat ops = usesOf cfg flat ops := by
    intro ops
    induction ops with
    | nil => exact fun _ => rfl
    | cons op ops ih =>
        intro flat
        rw [usesOf, usesOf, ih]
        congr 1
        cases op with
        | read addr size => simp only [MemOp.uses, bytesUsed, hsize]
        | write addr buf => simp only [MemOp.uses, bytesUsed, hsize]
        | cmp addr buf => simp only [MemOp.uses, bytesUsed, hsize]
  obtain ⟨last, hrun, hpool⟩ := start_pool hio hpages hfile hcover hcache₀ hinit ops hops
  obtain ⟨last', hrun', hpool'⟩ :=
    start_pool hio (le_trans hpages hmore) hfile' hcover hcache hinit' ops hops
  rw [huses] at hpool'
  -- the pools start as prefixes of the same list
  have hwithin : LruPool.Within cfg.pages cfg'.pages (startPool cfg) (startPool cfg') :=
    ⟨⟨List.range cfg'.pages, startPool_resident hmore, startPool_resident (le_refl _)⟩,
      subset_refl _, le_refl _, le_refl _⟩
  have hlast := hwithin.run hmore (usesOf cfg (swapContents env j) ops)
  have hloads := hlast.loads
  have hstores := hlast.stores
  refine ⟨last, last', _, hrun, hrun', ?_⟩
  rw [hpool.calls, hpool'.calls]
  omega

/-- The 32-bit build with a larger cache. -/
def memRv32Large : MemCfg := { memRv32 with pages := 256, pages_pos := by decide }

/-- The 32-bit build and the larger one. -/
theorem more_pages_no_more_calls_fresh :
    ∃ (self : SwapMemory memRv32) (self' : SwapMemory memRv32Large),
      memInit memRv32 freshDisk (2 ^ 20) 1 = .ready self
        ∧ memInit memRv32Large freshDisk (2 ^ 20) 1 = .ready self'
        ∧ ∃ last last' as,
            pagedRun freshDisk self [.write 2046 [1#8, 2#8, 3#8], .read 819200 1] = some (last, as)
            ∧ pagedRun freshDisk self' [.write 2046 [1#8, 2#8, 3#8], .read 819200 1]
              = some (last', as)
            ∧ last'.dosCalls - self'.dosCalls ≤ last.dosCalls - self.dosCalls := by
  obtain ⟨self, hself⟩ := memInit_ready memRv32 freshDisk (fun _ => rfl)
    (2 ^ 20) 1 (by decide) (fun _ => rfl) (fun _ => rfl) (fun _ => rfl)
    (by decide)
  obtain ⟨self', hself'⟩ := memInit_ready memRv32Large freshDisk (fun _ => rfl)
    (2 ^ 20) 1 (by decide) (fun _ => rfl) (fun _ => rfl) (fun _ => rfl)
    (by decide)
  exact ⟨self, self', hself, hself', more_pages_no_more_calls memRv32 memRv32Large freshDisk
    (fun _ => rfl) (by decide) (by decide) rfl (2 ^ 20) 1 20 (by decide) (by decide) (by decide)
    self hself self' hself' _ sampleOps_inside⟩

end SwapMemory

end RV640
