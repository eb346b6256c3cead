import RV640.Lib.Recency
import RV640.Lib.Run
import RV640.Proofs.SwapContainment

set_option autoImplicit false

/-! # The recency list of the cached pages

`_lookupPage` relinks the page it returns to the front of the list and replaces the last page. The
list is then the recency list of the pages returned so far, which nothing in the source records: it
is a parameter of the invariant.
-/

namespace RV640

open Bits

namespace SwapMemory

variable {cfg : MemCfg} {s : SwapMemory cfg} {env : SwapEnv} {j : Nat} {l : List (Fin cfg.pages)}

/-! ## Lookups whose reads succeed -/

/-- If the lookup misses, the seek and the read of the missing page go through. -/
def LookupLoads (env : SwapEnv) (self : SwapMemory cfg) (addr : Nat) : Prop :=
  ∀ i, self.searchPage (cfg.pageAddr addr) cfg.pages self.lruListHead = some (i, false) →
    LoadGoes env self i (cfg.pageAddr addr)

/-- The loads of the first pages in `mem_init` go through. -/
def InitLoads (cfg : MemCfg) (env : SwapEnv) (size nSwapFiles : Nat) : Prop :=
  ∀ filePosMask fileNoShift (u : SwapMemory cfg),
    swapLayout (nFileSize cfg size nSwapFiles) = some (filePosMask, fileNoShift) →
    (List.range nSwapFiles).foldlM (initFile env (nFileSize cfg size nSwapFiles))
      (initMemory size filePosMask fileNoShift) = .ok u →
    Run.Along (initPage env) (fun self i => LoadFull env self (i * cfg.pageSize)) u
      (List.finRange cfg.pages)

/-- The states between lookups, with the pages that the lookups returned, the oldest first. Between
two lookups the callers write to pages. -/
inductive PageHistory : SwapMemory cfg → List (Fin cfg.pages) → Prop
  | init {env : SwapEnv} {size nSwapFiles : Nat} {self : SwapMemory cfg}
      (h : memInit cfg env size nSwapFiles = .ready self)
      (hio : InitLoads cfg env size nSwapFiles) : PageHistory self []
  | lookup {env : SwapEnv} {s t : SwapMemory cfg} {rs : List (Fin cfg.pages)} {addr : Nat}
      {page : Fin cfg.pages} (hs : PageHistory s rs) (hio : LookupLoads env s addr)
      (h : s.lookupPage env addr = some (t, page)) : PageHistory t (rs ++ [page])
  | put {s : SwapMemory cfg} {rs : List (Fin cfg.pages)} (hs : PageHistory s rs)
      (page : Fin cfg.pages) (off : Nat) (bs : List Byte) : PageHistory (s.putChunk page off bs) rs

/-! ## What the list is -/

/-- The pages are the doubly linked list `l`, in front of which is `lruListHead`, and their
addresses differ. -/
structure LruList (s : SwapMemory cfg) (l : List (Fin cfg.pages)) : Prop where
  /-- Following `next` from the head gives `l` and then NULL. -/
  order : ∀ k, s.links.nth k = l[k]?
  /-- Each page once. -/
  perm : l.Perm (List.finRange cfg.pages)
  inverse : ∀ i k, (s.pages i).next = some k ↔ (s.pages k).prev = some i
  headPrev : (s.pages s.lruListHead).prev = none
  distinct : ∀ i k, (s.pages i).addr = (s.pages k).addr → i = k
  aligned : ∀ i, cfg.pageSize ∣ (s.pages i).addr

/-- A lookup of `addr` after the lookups that returned `rs` led from `s` to `t`. -/
structure LruLookup (s t : SwapMemory cfg) (rs : List (Fin cfg.pages)) (page : Fin cfg.pages)
    (addr : Nat) : Prop where
  head : t.lruListHead = page
  found : (t.pages page).addr = cfg.pageAddr addr
  others : ∀ i, i ≠ page → (t.pages i).addr = (s.pages i).addr
  /-- On a miss, every other page was returned after the one replaced, or neither was and it came
  first in the list. -/
  oldest : (∀ i, (s.pages i).addr ≠ cfg.pageAddr addr) →
    ∀ i, i ≠ page → Recency.Newer (· < ·) rs i page

/-- What holds of the pages between lookups, `l` being their list. -/
structure PagesDistinct (s : SwapMemory cfg) (j : Nat) (l : List (Fin cfg.pages)) : Prop where
  shape : s.Shape j l
  distinct : ∀ i k, (s.pages i).addr = (s.pages k).addr → i = k

theorem PagesDistinct.lruList (h : s.PagesDistinct j l) : s.LruList l where
  order := h.shape.linked.nth
  perm := (List.perm_ext_iff_of_nodup h.shape.linked.nodup (List.nodup_finRange _)).mpr
    fun i => iff_of_true (h.shape.all i) (List.mem_finRange i)
  inverse := fun i k => h.shape.linked.next_iff_prev (h.shape.all i) (h.shape.all k)
  headPrev := h.shape.linked.head_prev
  distinct := h.distinct
  aligned := h.shape.aligned

/-! ## A lookup -/

/-- Pages of the same addresses in a new order. -/
theorem PagesDistinct.congr {t : SwapMemory cfg} {l' : List (Fin cfg.pages)}
    (h : s.PagesDistinct j l) (ht : t.Shape j l')
    (haddr : ∀ i, (t.pages i).addr = (s.pages i).addr) : t.PagesDistinct j l' := by
  refine ⟨ht, ?_⟩
  intro i k hik
  rw [haddr, haddr] at hik
  exact h.distinct i k hik

/-- **One lookup** whose load goes through: the page it returns is in front and holds the address,
and it held it before or was the last of the list. -/
theorem lookup_distinct (hpages : 2 ≤ cfg.pages) (h : s.PagesDistinct j l) {addr : Nat}
    (hio : LookupLoads env s addr) :
    ∃ t page, s.lookupPage env addr = some (t, page) ∧ t.PagesDistinct j (page :: l.erase page)
      ∧ (t.pages page).addr = cfg.pageAddr addr
      ∧ (∀ i, i ≠ page → (t.pages i).addr = (s.pages i).addr)
      ∧ ((∀ i, (s.pages i).addr ≠ cfg.pageAddr addr) → l.getLast? = some page) := by
  rcases lookup_cases h.shape env addr with ⟨i, hfind, -, hlook⟩ | ⟨hfind, i, hlast, -, hlook⟩
  · have haddr : (s.pages i).addr = cfg.pageAddr addr := by
      simpa [hasAddr] using List.find?_some hfind
    obtain ⟨hshape, hcont⟩ := hit_contained h.shape hfind
    have hsame : ∀ k, ((if i ≠ s.lruListHead then s.swapLruHead i else s).pages k).addr
        = (s.pages k).addr := by
      intro k
      split
      · exact (Relinked.swapLruHead s i).addr k
      · rfl
    exact ⟨_, i, hlook, h.congr hshape hsame, hcont.own, fun k _ => hsame k,
      fun hmiss => absurd haddr (hmiss i)⟩
  · -- the last page is replaced
    have hmiss : ∀ k, (s.pages k).addr ≠ cfg.pageAddr addr := by
      intro k
      simpa [hasAddr] using List.find?_eq_none.mp hfind k (h.shape.all k)
    have hsearch : s.searchPage (cfg.pageAddr addr) cfg.pages s.lruListHead = some (i, false) := by
      rw [h.shape.search, hfind, hlast]
      rfl
    have hev := evicted_spec env h.shape (h.shape.last_ne_head hpages hlast)
    have hdvd : cfg.pageSize ∣ cfg.pageAddr addr := (cfg.pageAddr_eq_self_iff _).mp (by
      rw [cfg.pageAddr_eq, cfg.pageAddr_eq, Nat.mul_div_cancel _ cfg.pageSize_pos])
    have hload := loadPage_outcome env (evicted env s i) i hdvd
    have hnew := hload.full ((hev.loadFull_iff _).mpr (hio i hsearch))
    have hothers : ∀ k, k ≠ i →
        (((evicted env s i).loadPage env (cfg.pageAddr addr) i).pages k).addr
          = (s.pages k).addr := by
      intro k hk
      rw [hload.others k hk, hev.addr]
    refine ⟨_, i, hlook, ⟨hload.shape hev.shape hdvd, ?_⟩, hnew, hothers, fun _ => hlast⟩
    -- no other page had the new address
    intro a b hab
    by_cases ha : a = i
    · by_cases hb : b = i
      · rw [ha, hb]
      · rw [ha, hnew, hothers b hb] at hab
        exact absurd hab.symm (hmiss b)
    · by_cases hb : b = i
      · rw [hb, hnew, hothers a ha] at hab
        exact absurd hab (hmiss a)
      · rw [hothers a ha, hothers b hb] at hab
        exact h.distinct a b hab

/-! ## `mem_init` -/

/-- A first page that is loaded, and the addresses of the others. -/
theorem initPage_addr {i : Fin cfg.pages} (hio : LoadFull env s (i * cfg.pageSize)) :
    ((s.initPage env i).pages i).addr = i * cfg.pageSize
      ∧ ∀ k, k ≠ i → ((s.initPage env i).pages k).addr = (s.pages k).addr := by
  have hload := loadPage_outcome env s i (Nat.dvd_mul_left cfg.pageSize i.val)
  have hr := linkPage_relinked (s.loadPage env (i * cfg.pageSize) i) i
  rw [initPage_eq]
  refine ⟨(hr.addr i).trans (hload.full hio), ?_⟩
  intro k hk
  rw [hr.addr, hload.others k hk]

theorem initPages_addr (is : List (Fin cfg.pages)) (hnd : is.Nodup)
    (hio : Run.Along (initPage env) (fun self i => LoadFull env self (i * cfg.pageSize)) s is) :
    (∀ i ∈ is, ((is.foldl (initPage env) s).pages i).addr = i * cfg.pageSize)
      ∧ ∀ i, i ∉ is → ((is.foldl (initPage env) s).pages i).addr = (s.pages i).addr := by
  induction is generalizing s with
  | nil => exact ⟨fun i hi => absurd hi List.not_mem_nil, fun _ _ => rfl⟩
  | cons k is ih =>
      obtain ⟨hk, hnd⟩ := List.nodup_cons.mp hnd
      obtain ⟨hown, hothers⟩ := initPage_addr hio.1
      obtain ⟨hin, hout⟩ := ih hnd hio.2
      refine ⟨?_, ?_⟩
      · intro i hi
        rcases List.mem_cons.mp hi with rfl | hi
        · exact (hout i hk).trans hown
        · exact hin i hi
      · intro i hi
        have hik : i ≠ k := fun he => hi (he ▸ List.mem_cons_self)
        rw [List.foldl_cons, hout i fun hm => hi (List.mem_cons_of_mem _ hm), hothers i hik]

/-- The list after `mem_init` is that of the array. -/
theorem memInit_distinct {size nSwapFiles : Nat} {self : SwapMemory cfg}
    (hinit : memInit cfg env size nSwapFiles = .ready self)
    (hio : InitLoads cfg env size nSwapFiles) :
    ∃ j, self.PagesDistinct j (List.finRange cfg.pages) := by
  obtain ⟨j, hshape⟩ := memInit_shape hinit
  obtain ⟨filePosMask, fileNoShift, u, hlayout, hfiles, hself⟩ := memInit_steps hinit
  have haddr := (initPages_addr (List.finRange cfg.pages) (List.nodup_finRange _)
    (hio filePosMask fileNoShift u hlayout hfiles)).1
  rw [← hself] at haddr
  refine ⟨j, hshape, ?_⟩
  intro i k hik
  rw [haddr i (List.mem_finRange i), haddr k (List.mem_finRange k)] at hik
  exact Fin.ext (Nat.eq_of_mul_eq_mul_right cfg.pageSize_pos hik)

/-- Where nothing fails and the files are long enough, the first pages are loaded. -/
theorem initLoads_of_ioOk (hio : env.ioOk) {size nSwapFiles : Nat}
    (hfile : nFileSize cfg size nSwapFiles = 2 ^ j)
    (hcache : cfg.pages * cfg.pageSize ≤ nSwapFiles * 2 ^ j) :
    InitLoads cfg env size nSwapFiles := by
  have hpages : ∀ (is : List (Fin cfg.pages)) (s : SwapMemory cfg), s.Layout j nSwapFiles →
      Run.Along (initPage env) (fun self i => LoadFull env self (i * cfg.pageSize)) s is := by
    intro is
    induction is with
    | nil => exact fun s _ => trivial
    | cons i is ih =>
        intro s hl
        have hin := firstPage_lt hcache i
        obtain ⟨f, hf, hsize⟩ := hl.file hin
        obtain ⟨-, -, -, -, hl', -⟩ := loadPage_spec hio hl i hin
        refine ⟨⟨f, hf, hio _, (loadedBytes_full_iff f _).mpr ⟨?_, hsize⟩⟩, ih _ ?_⟩
        · rw [hio]
          rfl
        · rw [initPage_eq]
          exact hl'.relinked (linkPage_relinked _ i)
  intro filePosMask fileNoShift u hlayout hfiles
  exact hpages _ u (initFiles_layout hio hfile hlayout hfiles).1

/-- Where nothing fails, the load of a page inside the files goes through. -/
theorem lookupLoads_of_ioOk (hio : env.ioOk) {nFiles : Nat} (hl : s.Layout j nFiles) {addr : Nat}
    (hin : cfg.pageAddr addr < nFiles * 2 ^ j) : LookupLoads env s addr := by
  intro i _
  rw [cfg.pageAddr_eq] at hin ⊢
  obtain ⟨f, hf, hsize⟩ := hl.file hin
  have hopen : s.swapFiles (s.lookupSwapFile (addr / cfg.pageSize * cfg.pageSize)) = some f := hf
  refine ⟨⟨?_, hio _⟩, ?_, ?_⟩
  · rw [hopen]
    rfl
  · rw [hio]
    rfl
  · -- a write-back makes its file no shorter
    simp only [sizeAtLoad, hopen]
    split
    · exact hsize.trans (le_max_left _ _)
    · exact hsize

/-! ## Every history -/

theorem PageHistory.distinct (hpages : 2 ≤ cfg.pages) {rs : List (Fin cfg.pages)}
    (hs : PageHistory s rs) :
    ∃ j, s.PagesDistinct j (Recency.after (List.finRange cfg.pages) rs) := by
  induction hs with
  | init h hio => exact memInit_distinct h hio
  | @lookup env s t rs addr page _ hio h ih =>
      -- what the lookup returned is in front of the list, as in the recency list
      obtain ⟨j, hd⟩ := ih
      obtain ⟨t', page', hlook, hd', -⟩ := lookup_distinct hpages hd hio
      rw [h] at hlook
      cases hlook
      refine ⟨j, ?_⟩
      rw [Recency.after_append]
      exact hd'
  | put _ page off bs ih =>
      obtain ⟨j, hd⟩ := ih
      exact ⟨j, hd.congr (hd.shape.putChunk page off bs) (putChunk_addr page off bs)⟩

/-- **The recency list.** After `mem_init` and any lookups whose loads go through, the pages are a
doubly linked list in the order of their last lookups, with distinct page addresses; a further
lookup ends its search, returns the page of the address in front of the list, and when it misses
replaces the page whose last lookup is the oldest. -/
theorem lru_list (hpages : 2 ≤ cfg.pages) {rs : List (Fin cfg.pages)} (hs : PageHistory s rs) :
    s.LruList (Recency.after (List.finRange cfg.pages) rs)
      ∧ ∀ env addr, LookupLoads env s addr →
        (s.searchPage (cfg.pageAddr addr) cfg.pages s.lruListHead).isSome
          ∧ ∃ t page, s.lookupPage env addr = some (t, page) ∧ LruLookup s t rs page addr := by
  obtain ⟨j, hd⟩ := hs.distinct hpages
  refine ⟨hd.lruList, ?_⟩
  intro env addr hio
  obtain ⟨t, page, hlook, ht, haddr, hothers, hlast⟩ := lookup_distinct hpages hd hio
  refine ⟨?_, t, page, hlook, ?_, haddr, hothers, ?_⟩
  · cases hsearch : s.searchPage (cfg.pageAddr addr) cfg.pages s.lruListHead with
    | none =>
        simp only [lookupPage, hsearch] at hlook
        cases hlook
    | some r => rfl
  · exact (Option.some.inj ht.shape.linked.head).symm
  · intro hmiss i hi
    exact Recency.newer_getLast (List.nodup_finRange _) (List.pairwise_lt_finRange _) rs
      (hlast hmiss) (hd.shape.all i) hi

/-- 1 MB in one new swap file: a lookup behind the cached pages, and the list after it. -/
theorem lru_list_replaced :
    ∃ self t : SwapMemory memRv32, ∃ page, memInit memRv32 freshDisk (2 ^ 20) 1 = .ready self
      ∧ self.lookupPage freshDisk 0x50000 = some (t, page)
      ∧ LruLookup self t [] page 0x50000
      ∧ t.LruList (Recency.after (List.finRange memRv32.pages) [page]) := by
  obtain ⟨self, hself⟩ := memInit_ready memRv32 freshDisk (fun _ => rfl)
    (2 ^ 20) 1 (by decide) (fun _ => rfl) (fun _ => rfl) (fun _ => rfl)
    (by decide)
  have hfresh : PageHistory self [] :=
    .init hself (initLoads_of_ioOk (j := 20) (fun _ => rfl) (by decide) (by decide))
  obtain ⟨-, hl, -, -⟩ := memInit_loaded (j := 20) (fun _ => rfl) hself (by decide) (by decide)
  have hio : LookupLoads freshDisk self 0x50000 :=
    lookupLoads_of_ioOk (fun _ => rfl) hl (by decide)
  obtain ⟨-, t, page, hlook, hlru⟩ := (lru_list (by decide) hfresh).2 freshDisk 0x50000 hio
  have hlist := (lru_list (by decide) (.lookup hfresh hio hlook)).1
  exact ⟨self, t, page, hself, hlook, hlru, hlist⟩

end SwapMemory

end RV640
