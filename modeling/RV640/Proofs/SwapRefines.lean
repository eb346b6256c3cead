import RV640.Proofs.SwapPages

set_option autoImplicit false

/-! # The paged memory is a flat memory

As long as the calls to DOS succeed, the pages and the swap files stand for one array of bytes: the
array that the flat build keeps in host memory. A lookup leaves the array alone, whatever it evicts,
and the chunks of an access are chunks of the array.
-/

namespace RV640

open Bits

namespace SwapMemory

variable {cfg : MemCfg} {s : SwapMemory cfg} {j nFiles : Nat} {l : List (Fin cfg.pages)}
  {env : SwapEnv}

/-! ## The invariant of the pages -/

/-- `l` are the pages in the order of the list: all of them, each the cached copy of a page inside
the files. -/
structure PageInv (s : SwapMemory cfg) (j nFiles : Nat) (l : List (Fin cfg.pages)) : Prop where
  layout : s.Layout j nFiles
  aligned : ∀ i, cfg.pageSize ∣ (s.pages i).addr
  inside : ∀ i, (s.pages i).addr < nFiles * 2 ^ j
  cache : s.cache.Inv
  linked : s.links.Linked l
  all : ∀ i, i ∈ l

theorem Layout.relinked {t : SwapMemory cfg} (h : s.Layout j nFiles) (hr : Relinked s t) :
    t.Layout j nFiles where
  mask := hr.mask.trans h.mask
  shift := hr.shift.trans h.shift
  le := h.le
  files := by
    rw [hr.swapFiles]
    exact h.files

/-- A full list of the pages is as long as the pool. -/
theorem PageInv.length_le (h : s.PageInv j nFiles l) : l.length ≤ cfg.pages := by
  have := h.linked.nodup.length_le_card
  rwa [Fintype.card_fin] at this

/-- With two pages, the last page of the list is not the first. -/
theorem PageInv.last_ne_head (h : s.PageInv j nFiles l) (hpages : 2 ≤ cfg.pages)
    {x : Fin cfg.pages} (hx : l.getLast? = some x) : x ≠ s.lruListHead :=
  h.linked.last_ne_head (h.all ⟨0, by omega⟩) (h.all ⟨1, by omega⟩) (by simp) hx

/-- What a lookup does, `t` and `page` being what it returns: the page is in front and holds the
page address, and it was either there before or is the last one. -/
structure LookedUp (s t : SwapMemory cfg) (j nFiles : Nat) (l : List (Fin cfg.pages))
    (page : Fin cfg.pages) (addr : Nat) : Prop where
  inv : t.PageInv j nFiles (page :: l.erase page)
  found : (t.pages page).addr = cfg.pageAddr addr
  view : ∀ v, s.cache.View v → t.cache.View v
  devSize : t.devSize = s.devSize
  choice : (s.pages page).addr = cfg.pageAddr addr
    ∨ ((∀ i, (s.pages i).addr ≠ cfg.pageAddr addr) ∧ l.getLast? = some page)

/-- The pages of a list with one of them in front. -/
theorem mem_front (hall : ∀ i, i ∈ l) (page i : Fin cfg.pages) : i ∈ page :: l.erase page := by
  by_cases hi : i = page
  · simp [hi]
  · exact List.mem_cons_of_mem _ ((List.mem_erase_of_ne hi).mpr (hall i))

/-- A page that moves to the front. -/
theorem PageInv.toFront (h : s.PageInv j nFiles l) {page : Fin cfg.pages}
    (hne : page ≠ s.lruListHead) :
    (s.swapLruHead page).PageInv j nFiles (page :: l.erase page) where
  layout := h.layout.relinked (Relinked.swapLruHead s page)
  aligned := by
    intro i
    rw [(Relinked.swapLruHead s page).addr]
    exact h.aligned i
  inside := by
    intro i
    rw [(Relinked.swapLruHead s page).addr]
    exact h.inside i
  cache := by
    rw [(Relinked.swapLruHead s page).cache]
    exact h.cache
  linked := by
    rw [swapLruHead_links]
    exact h.linked.moveToFront (h.all page) hne
  all := mem_front h.all page

/-- A page found in the cache. -/
theorem lookup_hit (h : s.PageInv j nFiles l) {page : Fin cfg.pages} {addr : Nat}
    (haddr : (s.pages page).addr = cfg.pageAddr addr) :
    LookedUp s (if page ≠ s.lruListHead then s.swapLruHead page else s) j nFiles l page addr := by
  by_cases hne : page = s.lruListHead
  · rw [if_neg (not_not.mpr hne)]
    have hl : page :: l.erase page = l := by
      rw [hne]
      exact h.linked.front_head
    exact ⟨by rw [hl]; exact h, haddr, fun v hv => hv, rfl, Or.inl haddr⟩
  · rw [if_pos hne]
    have hr := Relinked.swapLruHead s page
    refine ⟨h.toFront hne, (hr.addr page).trans haddr, ?_, hr.devSize, Or.inl haddr⟩
    intro v hv
    rw [hr.cache]
    exact hv

/-- Writing the page in front back, if it is dirty, leaves its block in the files. -/
theorem evict_spec (hio : env.ioOk) (h : s.PageInv j nFiles l) (page : Fin cfg.pages) :
    let t := if (s.pages page).dirty then s.storePage env page else s
    t.PageInv j nFiles l ∧ (∀ v, s.cache.View v → t.cache.View v) ∧ t.pages = s.pages
      ∧ t.cache.block page = t.cache.store (t.cache.key page) ∧ t.devSize = s.devSize := by
  intro t
  by_cases hd : (s.pages page).dirty = true
  · have ht : t = s.storePage env page := if_pos hd
    obtain ⟨hcache, hlinks, hpages, hlayout, hsize⟩ :=
      storePage_spec hio h.layout page (h.aligned page) (h.inside page)
    rw [ht]
    refine ⟨⟨hlayout, ?_, ?_, ?_, ?_, h.all⟩, ?_, hpages, ?_, hsize⟩
    · rw [hpages]
      exact h.aligned
    · rw [hpages]
      exact h.inside
    · rw [hcache]
      exact WriteBack.writeBack_inv h.cache
    · rw [hlinks]
      exact h.linked
    · intro v hv
      rw [hcache]
      exact WriteBack.writeBack_view hv
    · rw [hcache]
      exact (WriteBack.writeBack_store_self s.cache page).symm
  · have ht : t = s := if_neg hd
    rw [ht]
    refine ⟨h, fun v hv => hv, rfl, h.cache.clean page ?_, rfl⟩
    simpa [SwapMemory.cache] using hd

/-- **`_lookupPage` with working I/O**: the page in front holds the address, and what the memory
stands for is unchanged. -/
theorem lookupPage_spec (hio : env.ioOk) (hpages : 2 ≤ cfg.pages) (h : s.PageInv j nFiles l)
    (addr : Nat) (haddr : addr < nFiles * 2 ^ j) :
    ∃ t page, s.lookupPage env addr = some (t, page) ∧ LookedUp s t j nFiles l page addr := by
  have hwalk := h.linked.walk (fun i => decide ((s.pages i).addr = cfg.pageAddr addr)) h.length_le
  rcases hwalk with ⟨page, -, hp, hw⟩ | ⟨page, hlast, hnone, hw⟩
  · refine ⟨_, page, ?_, lookup_hit h (by simpa using hp)⟩
    have hsearch : s.searchPage (cfg.pageAddr addr) cfg.pages s.lruListHead = some (page, true) :=
      (searchPage_eq s _ _ _).trans hw
    simp only [lookupPage, hsearch]
  · have hmiss : ∀ i, (s.pages i).addr ≠ cfg.pageAddr addr := fun i => by
      simpa using hnone i (h.all i)
    have hsearch : s.searchPage (cfg.pageAddr addr) cfg.pages s.lruListHead = some (page, false) :=
      (searchPage_eq s _ _ _).trans hw
    have hr := Relinked.swapLruHead s page
    have hfront := h.toFront (h.last_ne_head hpages hlast)
    obtain ⟨hinv, hview, hsame, hstored, hsize⟩ := evict_spec hio hfront page
    set u := if ((s.swapLruHead page).pages page).dirty then (s.swapLruHead page).storePage env page
      else s.swapLruHead page with hu
    have hpage : cfg.pageAddr addr = addr / cfg.pageSize * cfg.pageSize := cfg.pageAddr_eq addr
    have hin : addr / cfg.pageSize * cfg.pageSize < nFiles * 2 ^ j :=
      lt_of_le_of_lt (Nat.div_mul_le_self _ _) haddr
    obtain ⟨hcache, hlinks, hnew, hother, hlayout, hdev⟩ := loadPage_spec hio hinv.layout page hin
    have hfree : ∀ i, u.cache.key i ≠ addr / cfg.pageSize := by
      intro i hi
      apply hmiss i
      have := mul_key (s := u) i (hinv.aligned i)
      rw [hi, hsame, hr.addr] at this
      rw [hpage, this]
    refine ⟨u.loadPage env (cfg.pageAddr addr) page, page, ?_, ?_⟩
    · simp only [lookupPage, hsearch, hu]
    rw [← hpage] at hcache hlinks hnew hother hlayout hdev
    refine ⟨⟨hlayout, ?_, ?_, ?_, ?_, hinv.all⟩, hnew, ?_, ?_, Or.inr ⟨hmiss, hlast⟩⟩
    · intro i
      by_cases hi : i = page
      · rw [hi, hnew, hpage]
        exact Nat.dvd_mul_left _ _
      · rw [hother i hi]
        exact hinv.aligned i
    · intro i
      by_cases hi : i = page
      · rw [hi, hnew, hpage]
        exact hin
      · rw [hother i hi]
        exact hinv.inside i
    · rw [hcache]
      exact WriteBack.load_inv hinv.cache hfree
    · rw [hlinks]
      exact hinv.linked
    · intro v hv
      rw [hcache]
      refine WriteBack.load_view (hview v ?_) hstored hfree
      rw [hr.cache]
      exact hv
    · rw [hdev, hsize, hr.devSize]

/-! ## The array that the memory stands for -/

/-- The pages and the files stand for `flat`. -/
structure Represents (s : SwapMemory cfg) (j nFiles : Nat) (l : List (Fin cfg.pages))
    (flat : Memory) : Prop where
  inv : s.PageInv j nFiles l
  view : ∃ v, s.cache.View v ∧ ∀ p, p * cfg.pageSize < nFiles * 2 ^ j →
    v p = Bytes.readAt flat.data (p * cfg.pageSize) cfg.pageSize

variable {flat : Memory}

theorem LookedUp.represents {t : SwapMemory cfg} {page : Fin cfg.pages} {addr : Nat}
    (h : LookedUp s t j nFiles l page addr) (hs : s.Represents j nFiles l flat) :
    t.Represents j nFiles (page :: l.erase page) flat := by
  obtain ⟨v, hv, hflat⟩ := hs.view
  exact ⟨h.inv, v, h.view v hv, hflat⟩

/-- The bytes of a cached page are bytes of the array. -/
theorem Represents.page (h : s.Represents j nFiles l flat) (i : Fin cfg.pages) {k : Nat}
    (hk : k < cfg.pageSize) : (s.pages i).data k = flat.data ((s.pages i).addr + k) := by
  obtain ⟨v, hv, hflat⟩ := h.view
  have hkey := mul_key (s := s) i (h.inv.aligned i)
  have hblock := hflat (s.cache.key i) (by rw [hkey]; exact h.inv.inside i)
  rw [hv.cached i, hkey] at hblock
  have hbyte := congrArg (fun bs => bs[k]?) hblock
  simp only [cache, Bytes.readAt_getElem?, if_pos hk, Nat.zero_add] at hbyte
  exact Option.some.inj hbyte

/-- Writing bytes into a page is a modification of its block. -/
theorem setPage_cache (i : Fin cfg.pages) (data : Nat → Byte) :
    (s.setPage i { s.pages i with data := data, dirty := true }).cache
      = s.cache.modify i (Bytes.readAt data 0 cfg.pageSize) := by
  have hblock := setPage_field (fun p => Bytes.readAt p.data 0 cfg.pageSize) s i
    { s.pages i with data := data, dirty := true }
  have hdirty := setPage_field MemPage.dirty s i { s.pages i with data := data, dirty := true }
  unfold cache WriteBack.modify
  rw [WriteBack.mk.injEq]
  exact ⟨funext (setPage_same (fun p => p.addr / cfg.pageSize) rfl), hblock, hdirty, rfl⟩

/-- A chunk written into a page is written into the array. -/
theorem Represents.write (h : s.Represents j nFiles l flat) (i : Fin cfg.pages) {off : Nat}
    {bs : List Byte} (hbs : off + bs.length ≤ cfg.pageSize) :
    (s.setPage i { s.pages i with
      data := Bytes.writeAt (s.pages i).data off bs, dirty := true }).Represents j nFiles l
        ⟨Bytes.writeAt flat.data ((s.pages i).addr + off) bs⟩ := by
  set data := Bytes.writeAt (s.pages i).data off bs with hdata
  have hcache := setPage_cache (s := s) i data
  have hkey := mul_key (s := s) i (h.inv.aligned i)
  have haddr : ∀ k, ((s.setPage i { s.pages i with data := data, dirty := true }).pages k).addr
      = (s.pages k).addr := setPage_same MemPage.addr rfl
  refine ⟨⟨?_, ?_, ?_, ?_, ?_, h.inv.all⟩, ?_⟩
  · exact ⟨h.inv.layout.mask, h.inv.layout.shift, h.inv.layout.le, h.inv.layout.files⟩
  · intro k
    rw [haddr k]
    exact h.inv.aligned k
  · intro k
    rw [haddr k]
    exact h.inv.inside k
  · rw [hcache]
    exact WriteBack.modify_inv h.inv.cache _
  · have hlinks : (s.setPage i { s.pages i with data := data, dirty := true }).links = s.links :=
      setPage_links rfl rfl
    rw [hlinks]
    exact h.inv.linked
  · obtain ⟨v, hv, hflat⟩ := h.view
    refine ⟨Function.update v (s.cache.key i) (Bytes.readAt data 0 cfg.pageSize), ?_, ?_⟩
    · rw [hcache]
      exact WriteBack.modify_view hv h.inv.cache.inj _
    · intro p hp
      by_cases hpi : p = s.cache.key i
      · rw [hpi, Function.update_self, hkey]
        apply Bytes.readAt_congr
        intro k hk
        have hsame := Bytes.writeAt_congr (f := (s.pages i).data) (g := flat.data) (a := 0)
          (b := (s.pages i).addr) (o := off) (n := cfg.pageSize) bs
        rw [Nat.zero_add] at hsame
        refine hsame ?_ k hk
        intro m hm
        rw [Nat.zero_add]
        exact h.page i hm
      · rw [Function.update_of_ne hpi, hflat p hp]
        apply Bytes.readAt_congr
        intro k hk
        symm
        apply Bytes.writeAt_outside
        -- another page ends before this one starts or starts after it ends
        rw [← hkey]
        rcases Nat.lt_or_gt_of_ne hpi with hlt | hlt
        · have := Nat.mul_le_mul_right cfg.pageSize (Nat.succ_le_of_lt hlt)
          rw [Nat.succ_mul] at this
          omega
        · have := Nat.mul_le_mul_right cfg.pageSize (Nat.succ_le_of_lt hlt)
          rw [Nat.succ_mul] at this
          omega

/-! ## Accesses -/

theorem chunkSize_pos (cfg : MemCfg) (addr : Nat) {rest : Nat} (h : 0 < rest) :
    0 < chunkSize cfg addr rest := by
  have := Nat.mod_lt addr cfg.pageSize_pos
  rw [chunkSize, cfg.pageOffset_eq]
  omega

theorem chunkSize_le (cfg : MemCfg) (addr rest : Nat) : chunkSize cfg addr rest ≤ rest :=
  Nat.min_le_right _ _

theorem chunkSize_page (cfg : MemCfg) (addr rest : Nat) :
    cfg.pageOffset addr + chunkSize cfg addr rest ≤ cfg.pageSize := by
  have := Nat.mod_lt addr cfg.pageSize_pos
  rw [chunkSize, cfg.pageOffset_eq]
  omega

/-- A page address and an offset make an address. -/
theorem pageAddr_add_offset (cfg : MemCfg) (addr : Nat) :
    cfg.pageAddr addr + cfg.pageOffset addr = addr := by
  rw [cfg.pageAddr_eq, cfg.pageOffset_eq, Nat.mul_comm]
  exact Nat.div_add_mod addr cfg.pageSize

/-- The chunk of a round, read from the page that the lookup returned. -/
theorem LookedUp.chunk {t : SwapMemory cfg} {page : Fin cfg.pages} {addr : Nat}
    (h : LookedUp s t j nFiles l page addr) (hs : s.Represents j nFiles l flat) (rest : Nat) :
    Bytes.readAt (t.pages page).data (cfg.pageOffset addr) (chunkSize cfg addr rest)
      = Bytes.readAt flat.data addr (chunkSize cfg addr rest) := by
  apply Bytes.readAt_congr
  intro k hk
  have hoff := chunkSize_page cfg addr rest
  rw [(h.represents hs).page page (by omega), h.found, ← Nat.add_assoc, pageAddr_add_offset]

theorem readLoop_spec (hio : env.ioOk) (hpages : 2 ≤ cfg.pages) (fuel addr rest : Nat)
    (buf : List Byte) (hs : s.Represents j nFiles l flat) (hrest : rest ≤ fuel)
    (haddr : addr + rest ≤ nFiles * 2 ^ j) :
    ∃ t l', readLoop env fuel s addr rest buf = some (t, buf ++ Bytes.readAt flat.data addr rest)
      ∧ t.Represents j nFiles l' flat ∧ t.devSize = s.devSize := by
  induction fuel generalizing s l addr rest buf with
  | zero =>
      obtain rfl : rest = 0 := by omega
      exact ⟨s, l, by simp [readLoop], hs, rfl⟩
  | succ fuel ih =>
      rw [readLoop]
      by_cases h0 : rest = 0
      · subst h0
        exact ⟨s, l, by simp, hs, rfl⟩
      · rw [if_neg h0]
        obtain ⟨t, page, hlookup, ht⟩ := lookupPage_spec hio hpages hs.inv addr (by omega)
        have hpos := chunkSize_pos cfg addr (Nat.pos_of_ne_zero h0)
        have hle := chunkSize_le cfg addr rest
        obtain ⟨u, l', hu, hrep, hsize⟩ := ih (addr + chunkSize cfg addr rest)
          (rest - chunkSize cfg addr rest)
          (buf ++ Bytes.readAt flat.data addr (chunkSize cfg addr rest))
          (ht.represents hs) (by omega) (by omega)
        refine ⟨u, l', ?_, hrep, hsize.trans ht.devSize⟩
        simp only [hlookup]
        rw [ht.chunk hs, hu, List.append_assoc, ← Bytes.readAt_add, Nat.add_sub_cancel' hle]

/-- The flat `mem_write` as one range. -/
theorem memWrite_data (flat : Memory) (addr : Nat) (buf : List Byte) :
    (RV640.memWrite flat addr buf).data = Bytes.writeAt flat.data addr buf := by
  induction buf generalizing flat addr with
  | nil => simp [RV640.memWrite]
  | cons b buf ih =>
      have hone : Bytes.writeAt flat.data addr [b] = Function.update flat.data addr b := by
        funext i
        by_cases hi : i = addr
        · subst hi
          simp [Bytes.writeAt]
        · rw [Function.update_of_ne hi, Bytes.writeAt_outside]
          simp only [List.length_cons, List.length_nil]
          omega
      have hcons : b :: buf = [b] ++ buf := rfl
      rw [RV640.memWrite, ih, hcons, Bytes.writeAt_append, hone]
      rfl

theorem writeLoop_spec (hio : env.ioOk) (hpages : 2 ≤ cfg.pages) (fuel addr : Nat)
    (buf : List Byte) (hs : s.Represents j nFiles l flat) (hbuf : buf.length ≤ fuel)
    (haddr : addr + buf.length ≤ nFiles * 2 ^ j) :
    ∃ t l', writeLoop env fuel s addr buf = some t
      ∧ t.Represents j nFiles l' ⟨Bytes.writeAt flat.data addr buf⟩ ∧ t.devSize = s.devSize := by
  induction fuel generalizing s l addr buf flat with
  | zero =>
      obtain rfl : buf = [] := List.length_eq_zero_iff.mp (by omega)
      exact ⟨s, l, rfl, by simpa using hs, rfl⟩
  | succ fuel ih =>
      rw [writeLoop]
      by_cases h0 : buf.length = 0
      · obtain rfl : buf = [] := List.length_eq_zero_iff.mp h0
        exact ⟨s, l, by simp, by simpa using hs, rfl⟩
      · rw [if_neg h0]
        obtain ⟨t, page, hlookup, ht⟩ := lookupPage_spec hio hpages hs.inv addr (by omega)
        set chunk := chunkSize cfg addr buf.length with hchunk
        have hpos : 0 < chunk := chunkSize_pos cfg addr (Nat.pos_of_ne_zero h0)
        have hle : chunk ≤ buf.length := chunkSize_le cfg addr buf.length
        have htake : (buf.take chunk).length = chunk := List.length_take_of_le hle
        have hpage : cfg.pageOffset addr + (buf.take chunk).length ≤ cfg.pageSize := by
          rw [htake]
          exact chunkSize_page cfg addr buf.length
        have hwritten := (ht.represents hs).write page hpage
        rw [ht.found, pageAddr_add_offset] at hwritten
        obtain ⟨u, l', hu, hrep, hsize⟩ := ih (addr + chunk) (buf.drop chunk)
          hwritten (by rw [List.length_drop]; omega) (by rw [List.length_drop]; omega)
        refine ⟨u, l', ?_, ?_, hsize.trans ht.devSize⟩
        · simp only [hlookup]
          exact hu
        · have hsplit := Bytes.writeAt_append flat.data addr (buf.take chunk) (buf.drop chunk)
          rw [List.take_append_drop, htake] at hsplit
          rw [hsplit]
          exact hrep

theorem cmpLoop_spec (hio : env.ioOk) (hpages : 2 ≤ cfg.pages) (fuel addr : Nat)
    (buf : List Byte) (hs : s.Represents j nFiles l flat) (hbuf : buf.length ≤ fuel)
    (haddr : addr + buf.length ≤ nFiles * 2 ^ j) :
    ∃ t l', cmpLoop env fuel s addr buf
        = some (t, memcmp (Bytes.readAt flat.data addr buf.length) buf)
      ∧ t.Represents j nFiles l' flat ∧ t.devSize = s.devSize := by
  induction fuel generalizing s l addr buf with
  | zero =>
      obtain rfl : buf = [] := List.length_eq_zero_iff.mp (by omega)
      exact ⟨s, l, rfl, hs, rfl⟩
  | succ fuel ih =>
      rw [cmpLoop]
      by_cases h0 : buf.length = 0
      · obtain rfl : buf = [] := List.length_eq_zero_iff.mp h0
        exact ⟨s, l, by simp [memcmp], hs, rfl⟩
      · rw [if_neg h0]
        obtain ⟨t, page, hlookup, ht⟩ := lookupPage_spec hio hpages hs.inv addr (by omega)
        have hcopy := ht.chunk hs buf.length
        set chunk := chunkSize cfg addr buf.length with hchunk
        have hpos : 0 < chunk := chunkSize_pos cfg addr (Nat.pos_of_ne_zero h0)
        have hle : chunk ≤ buf.length := chunkSize_le cfg addr buf.length
        have htake : (buf.take chunk).length = chunk := List.length_take_of_le hle
        -- the comparison of the chunk, then of the rest
        have hsplit : memcmp (Bytes.readAt flat.data addr buf.length) buf
            = (memcmp (Bytes.readAt flat.data addr chunk) (buf.take chunk)).then
              (memcmp (Bytes.readAt flat.data (addr + chunk) (buf.drop chunk).length)
                (buf.drop chunk)) := by
          rw [← memcmp_append _ _ _ _ (by rw [htake, Bytes.readAt_length]), List.take_append_drop,
            ← Bytes.readAt_add, List.length_drop, Nat.add_sub_cancel' hle]
        obtain ⟨u, l', hu, hrep, hsize⟩ := ih (addr + chunk) (buf.drop chunk)
          (ht.represents hs) (by rw [List.length_drop]; omega) (by rw [List.length_drop]; omega)
        simp only [hlookup]
        rw [hcopy, hsplit]
        cases memcmp (Bytes.readAt flat.data addr chunk) (buf.take chunk) with
        | eq => exact ⟨u, l', hu, hrep, hsize.trans ht.devSize⟩
        | lt => exact ⟨t, _, rfl, ht.represents hs, ht.devSize⟩
        | gt => exact ⟨t, _, rfl, ht.represents hs, ht.devSize⟩

/-! ## Runs -/

/-- A call of `mem_read`, `mem_write` or `mem_cmp`. -/
inductive MemOp
  | read (addr size : Nat)
  | write (addr : Nat) (buf : List Byte)
  | cmp (addr : Nat) (buf : List Byte)

/-- What the caller gets from it. -/
inductive MemAnswer
  | bytes (buf : List Byte)
  | done
  | order (res : Ordering)
  deriving DecidableEq

/-- The last address of a call lies inside a memory of that size. -/
def MemOp.inside (size : Nat) : MemOp → Prop
  | .read addr n => addr + n ≤ size
  | .write addr buf => addr + buf.length ≤ size
  | .cmp addr buf => addr + buf.length ≤ size

/-- A call on the paged memory; `none` when it does not return. -/
def pagedOp (env : SwapEnv) (self : SwapMemory cfg) : MemOp → Option (SwapMemory cfg × MemAnswer)
  | .read addr size => (self.memRead env addr size).map fun r => (r.1, .bytes r.2)
  | .write addr buf => (self.memWrite env addr buf).map fun r => (r, .done)
  | .cmp addr buf => (self.memCmp env addr buf).map fun r => (r.1, .order r.2)

/-- A call on the flat memory. -/
def flatOp (self : Memory) : MemOp → Memory × MemAnswer
  | .read addr size => (self, .bytes (RV640.memRead self addr size))
  | .write addr buf => (RV640.memWrite self addr buf, .done)
  | .cmp addr buf => (self, .order (RV640.memCmp self addr buf))

/-- A sequence of calls on the paged memory. -/
def pagedRun (env : SwapEnv) (self : SwapMemory cfg) :
    List MemOp → Option (SwapMemory cfg × List MemAnswer)
  | [] => some (self, [])
  | op :: ops => do
      let (self, a) ← pagedOp env self op
      let (self, as) ← pagedRun env self ops
      some (self, a :: as)

/-- A sequence of calls on the flat memory. -/
def flatRun (self : Memory) : List MemOp → Memory × List MemAnswer
  | [] => (self, [])
  | op :: ops =>
      let (self, a) := flatOp self op
      let (self, as) := flatRun self ops
      (self, a :: as)

/-- One call: the same answer, and the pages stand for the flat memory after it. -/
theorem pagedOp_spec (hio : env.ioOk) (hpages : 2 ≤ cfg.pages) (hs : s.Represents j nFiles l flat)
    {op : MemOp} (hop : op.inside (nFiles * 2 ^ j)) :
    ∃ t l', pagedOp env s op = some (t, (flatOp flat op).2)
      ∧ t.Represents j nFiles l' (flatOp flat op).1 := by
  cases op with
  | read addr size =>
      obtain ⟨t, l', ht, hrep, -⟩ := readLoop_spec hio hpages size addr size [] hs (le_refl _) hop
      refine ⟨t, l', ?_, hrep⟩
      simp only [pagedOp, memRead, ht, Option.map_some, List.nil_append]
      rfl
  | write addr buf =>
      obtain ⟨t, l', ht, hrep, -⟩ :=
        writeLoop_spec hio hpages buf.length addr buf hs (le_refl _) hop
      refine ⟨t, l', ?_, ?_⟩
      · simp only [pagedOp, memWrite, ht, Option.map_some]
        rfl
      · have hflat : (flatOp flat (.write addr buf)).1 = ⟨Bytes.writeAt flat.data addr buf⟩ := by
          rw [← memWrite_data]
          rfl
        rw [hflat]
        exact hrep
  | cmp addr buf =>
      obtain ⟨t, l', ht, hrep, -⟩ := cmpLoop_spec hio hpages buf.length addr buf hs (le_refl _) hop
      refine ⟨t, l', ?_, hrep⟩
      simp only [pagedOp, memCmp, ht, Option.map_some]
      rfl

/-- A run of calls. -/
theorem pagedRun_spec (hio : env.ioOk) (hpages : 2 ≤ cfg.pages) (ops : List MemOp)
    (hs : s.Represents j nFiles l flat) (hops : ∀ op ∈ ops, op.inside (nFiles * 2 ^ j)) :
    ∃ t l', pagedRun env s ops = some (t, (flatRun flat ops).2)
      ∧ t.Represents j nFiles l' (flatRun flat ops).1 := by
  induction ops generalizing s l flat with
  | nil => exact ⟨s, l, rfl, hs⟩
  | cons op ops ih =>
      obtain ⟨t, l', ht, hrep⟩ := pagedOp_spec hio hpages hs (hops op (by simp))
      obtain ⟨u, l'', hu, hrep'⟩ := ih hrep fun o ho => hops o (List.mem_cons_of_mem _ ho)
      refine ⟨u, l'', ?_, hrep'⟩
      simp only [pagedRun, ht, hu, Option.bind_eq_bind, Option.bind_some]
      rfl

/-! ## `mem_init` -/

/-- A write of zeros at the end of a file does not change what it reads as. -/
theorem contents_grow {f : DosFile} (hpos : f.pos = f.size) (n : Nat) :
    (f.write (List.replicate n 0#8)).contents = f.contents := by
  funext i
  simp only [DosFile.contents, DosFile.write, hpos, List.length_replicate]
  by_cases hi : i < f.size
  · rw [if_pos (by omega), if_pos hi, Bytes.writeAt_outside _ _ _ (Or.inl hi)]
  · rw [if_neg hi]
    split
    · have hk : i - f.size < (List.replicate n 0#8).length := by
        rw [List.length_replicate]
        omega
      have hsum : f.size + (i - f.size) = i := by omega
      have := Bytes.writeAt_inside f.data f.size (List.replicate n 0#8) hk
      rw [hsum] at this
      rw [this, List.getElem_replicate]
    · rfl

/-- The file of a handle reads as `contents` and has at least `fileSize` bytes. -/
def HasFile (s : SwapMemory cfg) (fileSize i : Nat) (contents : Nat → Byte) : Prop :=
  ∃ f, s.swapFiles i = some f ∧ f.contents = contents ∧ fileSize ≤ f.size

/-- The memory except for one file and the count of the calls. -/
def SameBut (i : Nat) (s t : SwapMemory cfg) : Prop :=
  t.pages = s.pages ∧ t.lruListHead = s.lruListHead ∧ ∀ k, k ≠ i → t.swapFiles k = s.swapFiles k

theorem growFile_spec (hio : env.ioOk) (fileSize i fuel : Nat) {f : DosFile}
    (hf : s.swapFiles i = some f) (hpos : f.pos = f.size) (hfuel : fileSize ≤ f.size + fuel) :
    ∃ t, s.growFile env fileSize i fuel f.size = some t ∧ t.HasFile fileSize i f.contents
      ∧ SameBut i s t := by
  induction fuel generalizing s f with
  | zero => exact ⟨s, rfl, ⟨f, hf, rfl, by omega⟩, rfl, rfl, fun _ _ => rfl⟩
  | succ fuel ih =>
      simp only [growFile]
      by_cases hlt : f.size < fileSize
      · rw [if_pos hlt, dosFWrite_ok hio hf]
        set g := f.write (List.replicate cfg.pageSize 0#8) with hg
        have hgpos : g.pos = g.size := by
          simp only [hg, DosFile.write, hpos, List.length_replicate]
          omega
        have hgsize : g.size = f.size + cfg.pageSize := by
          simp only [hg, DosFile.write, hpos, List.length_replicate]
          omega
        have hpagepos := cfg.pageSize_pos
        obtain ⟨t, ht, ⟨g', hg', hcont, hsz⟩, hp, hh, hk⟩ :=
          ih (s := (s.setFile i g).called) (f := g) (by simp) hgpos (by omega)
        rw [hgsize] at ht
        refine ⟨t, ?_, ⟨g', hg', hcont.trans (contents_grow hpos _), hsz⟩, hp, hh, ?_⟩
        · simp only [List.length_replicate, ne_eq, not_true_eq_false, if_false]
          exact ht
        · intro k hki
          rw [hk k hki]
          simp [Function.update_of_ne hki]
      · rw [if_neg hlt]
        exact ⟨s, rfl, ⟨f, hf, rfl, by omega⟩, rfl, rfl, fun _ _ => rfl⟩

/-- A round of the loop over the files, up to the second opening. -/
theorem initFile_eq (hio : env.ioOk) (fileSize i : Nat) {f : DosFile}
    (hf : env.openFile i = some f) :
    ∃ w g, w.swapFiles i = some g ∧ g.contents = f.contents ∧ fileSize ≤ g.size ∧ SameBut i s w
      ∧ s.initFile env fileSize i
        = if env.reopen i then .ok (w.setFile i { g with pos := 0 })
          else .error (.reopenSwap i) := by
  have hseek : (s.setFile i { f with pos := 0 }).dosFSeekEnd env i
      = (((s.setFile i { f with pos := 0 }).setFile i { f with pos := f.size }).called, true) := by
    simp only [dosFSeekEnd, setFile_swapFiles, Function.update_self, hio _]
    rfl
  set u := ((s.setFile i { f with pos := 0 }).setFile i { f with pos := f.size }).called with hu
  have huf : u.swapFiles i = some { f with pos := f.size } := by simp [hu]
  have htell : u.dosFTell env i = (u.called, f.size) := by
    simp only [dosFTell, huf, hio _]
  obtain ⟨w, hw, ⟨g, hg, hcont, hsz⟩, hp, hh, hk⟩ := growFile_spec (s := u.called)
    (f := { f with pos := f.size }) hio fileSize i (fileSize - f.size) huf rfl
    (by show fileSize ≤ f.size + (fileSize - f.size); omega)
  have hw' : u.called.growFile env fileSize i (fileSize - f.size) f.size = some w := hw
  refine ⟨w, g, hg, hcont, hsz, ⟨hp, hh, ?_⟩, ?_⟩
  · intro k hki
    rw [hk k hki]
    simp [hu, Function.update_of_ne hki]
  · simp only [initFile, hf, hseek, htell, hw', hg]
    cases env.reopen i with
    | false => rfl
    | true => rfl

/-- The file reads as it did before the program started. -/
theorem initFile_spec (hio : env.ioOk) {fileSize i : Nat} {t : SwapMemory cfg}
    (h : s.initFile env fileSize i = .ok t) :
    (∃ f, env.openFile i = some f ∧ t.HasFile fileSize i f.contents) ∧ SameBut i s t := by
  rcases hf : env.openFile i with _ | f
  · simp only [initFile, hf] at h
    cases h
  obtain ⟨w, g, -, hcont, hsz, ⟨hp, hh, hk⟩, heq⟩ := initFile_eq (s := s) hio fileSize i hf
  rw [heq] at h
  split at h
  · cases h
    refine ⟨⟨f, rfl, { g with pos := 0 }, by simp, hcont, hsz⟩, hp, hh, ?_⟩
    intro k hki
    rw [setFile_swapFiles, Function.update_of_ne hki, hk k hki]
  · cases h

theorem initFiles_spec (hio : env.ioOk) {fileSize : Nat} (files : List Nat) {t : SwapMemory cfg}
    (h : files.foldlM (initFile env fileSize) s = .ok t) :
    t.pages = s.pages ∧ t.lruListHead = s.lruListHead
      ∧ (∀ i, i ∉ files → t.swapFiles i = s.swapFiles i)
      ∧ ∀ i ∈ files, ∃ f, env.openFile i = some f ∧ t.HasFile fileSize i f.contents := by
  induction files generalizing s with
  | nil =>
      cases h
      exact ⟨rfl, rfl, fun _ _ => rfl, fun i hi => absurd hi List.not_mem_nil⟩
  | cons k files ih =>
      rw [List.foldlM_cons] at h
      rcases hk : s.initFile env fileSize k with e | u
      · rw [hk] at h
        cases h
      · rw [hk] at h
        obtain ⟨⟨f, hf, hhas⟩, hp, hh, hother⟩ := initFile_spec hio hk
        obtain ⟨hp', hh', hother', hfiles⟩ := ih h
        refine ⟨hp'.trans hp, hh'.trans hh, ?_, ?_⟩
        · intro i hi
          rw [hother' i fun hm => hi (List.mem_cons_of_mem _ hm)]
          exact hother i fun he => hi (he ▸ List.mem_cons_self)
        · intro i hi
          by_cases hmem : i ∈ files
          · exact hfiles i hmem
          · obtain rfl : i = k := (List.mem_cons.mp hi).resolve_right hmem
            obtain ⟨g, hg, hcont, hsz⟩ := hhas
            exact ⟨f, hf, g, by rw [hother' i hmem, hg], hcont, hsz⟩

theorem pred_lt (i : Fin cfg.pages) : i.val - 1 < cfg.pages := by omega

/-- The state of a page after its round of the loop that loads the first pages. -/
structure Loaded (s : SwapMemory cfg) (i : Fin cfg.pages) : Prop where
  addr : (s.pages i).addr = i * cfg.pageSize
  dirty : (s.pages i).dirty = false
  block : s.cache.block i = s.stored i
  next : (s.pages i).next = if h : i.val + 1 < cfg.pages then some ⟨i + 1, h⟩ else none
  prev : (s.pages i).prev = if 0 < i.val then some ⟨i - 1, pred_lt i⟩ else none

/-- A page that was not touched yet. -/
def Fresh (s : SwapMemory cfg) (i : Fin cfg.pages) : Prop :=
  (s.pages i).next = none ∧ (s.pages i).prev = none

/-- The pointers that the loop sets. -/
def linkPage (s : SwapMemory cfg) (i : Fin cfg.pages) : SwapMemory cfg :=
  let s := if h : i.val + 1 < cfg.pages then s.setNext i (some ⟨i + 1, h⟩) else s
  if 0 < i.val then s.setPrev i (some ⟨i - 1, pred_lt i⟩) else s

theorem initPage_eq (s : SwapMemory cfg) (i : Fin cfg.pages) :
    s.initPage env i = (s.loadPage env (i * cfg.pageSize) i).linkPage i := by
  rw [Nat.mul_comm]
  rfl

theorem linkPage_relinked (s : SwapMemory cfg) (i : Fin cfg.pages) : Relinked s (s.linkPage i) := by
  have hnext :
      Relinked s (if h : i.val + 1 < cfg.pages then s.setNext i (some ⟨i + 1, h⟩) else s) := by
    split
    · exact Relinked.setNext s i _
    · exact Relinked.refl s
  simp only [linkPage]
  split
  · exact hnext.trans (Relinked.setPrev _ i _)
  · exact hnext

theorem linkPage_pages (s : SwapMemory cfg) (i : Fin cfg.pages) (hfresh : s.Fresh i) :
    ((s.linkPage i).pages i).next = (if h : i.val + 1 < cfg.pages then some ⟨i + 1, h⟩ else none)
      ∧ ((s.linkPage i).pages i).prev = (if 0 < i.val then some ⟨i - 1, pred_lt i⟩ else none)
      ∧ (∀ k, k ≠ i → (s.linkPage i).pages k = s.pages k)
      ∧ (s.linkPage i).lruListHead = s.lruListHead := by
  obtain ⟨hn, hp⟩ := hfresh
  by_cases h1 : i.val + 1 < cfg.pages
  · by_cases h0 : 0 < i.val
    · simp only [linkPage, dif_pos h1, if_pos h0, setNext, setPrev, setPage]
      refine ⟨by simp, by simp, ?_, trivial⟩
      intro k hk
      simp [Function.update_of_ne hk]
    · simp only [linkPage, dif_pos h1, if_neg h0, setNext, setPage]
      refine ⟨by simp, by simp [hp], ?_, trivial⟩
      intro k hk
      simp [Function.update_of_ne hk]
  · by_cases h0 : 0 < i.val
    · simp only [linkPage, dif_neg h1, if_pos h0, setPrev, setPage]
      refine ⟨by simp [hn], by simp, ?_, trivial⟩
      intro k hk
      simp [Function.update_of_ne hk]
    · simp only [linkPage, dif_neg h1, if_neg h0]
      exact ⟨hn, hp, fun _ _ => trivial, trivial⟩

theorem initPage_spec (hio : env.ioOk) (hl : s.Layout j nFiles) (i : Fin cfg.pages)
    (hfresh : s.Fresh i) (hin : i * cfg.pageSize < nFiles * 2 ^ j) :
    (s.initPage env i).Loaded i ∧ (s.initPage env i).stored = s.stored
      ∧ (∀ k, k ≠ i → (s.initPage env i).pages k = s.pages k)
      ∧ (s.initPage env i).Layout j nFiles ∧ (s.initPage env i).lruListHead = s.lruListHead := by
  obtain ⟨hcache, hlinks, haddr, hother, hlayout, -⟩ := loadPage_spec hio hl i hin
  rw [initPage_eq]
  set t := s.loadPage env (i * cfg.pageSize) i with ht
  have hr := linkPage_relinked t i
  have hcache' : (t.linkPage i).cache = s.cache.load i i := hr.cache.trans hcache
  have hstored : (t.linkPage i).stored = s.stored := congrArg WriteBack.store hcache'
  have hlinks' := Links.mk.inj hlinks
  have htfresh : t.Fresh i :=
    ⟨(congrFun hlinks'.1 i).trans hfresh.1, (congrFun hlinks'.2.1 i).trans hfresh.2⟩
  obtain ⟨hn, hp, hk, hh⟩ := linkPage_pages t i htfresh
  have hdirty : ((t.linkPage i).pages i).dirty = false := by
    have := congrFun (congrArg WriteBack.dirty hcache') i
    simpa [SwapMemory.cache, WriteBack.load] using this
  have hblock : (t.linkPage i).cache.block i = (t.linkPage i).stored i := by
    rw [hstored, hcache']
    exact Function.update_self _ _ _
  refine ⟨⟨(hr.addr i).trans haddr, hdirty, hblock, hn, hp⟩, hstored, ?_, hlayout.relinked hr, ?_⟩
  · intro k hki
    rw [hk k hki, hother k hki]
  · exact hh.trans hlinks'.2.2

/-- A round for another page leaves a loaded page alone. -/
theorem Loaded.congr {t : SwapMemory cfg} {i : Fin cfg.pages} (h : s.Loaded i)
    (hpage : t.pages i = s.pages i) (hstored : t.stored = s.stored) : t.Loaded i where
  addr := by rw [hpage, h.addr]
  dirty := by rw [hpage, h.dirty]
  block := by
    have hblock : t.cache.block i = s.cache.block i := by simp only [cache, hpage]
    rw [hstored, hblock, h.block]
  next := by rw [hpage, h.next]
  prev := by rw [hpage, h.prev]

theorem initPages_spec (hio : env.ioOk) (is : List (Fin cfg.pages)) (hnd : is.Nodup)
    (hl : s.Layout j nFiles) (hfresh : ∀ i ∈ is, s.Fresh i)
    (hin : ∀ i : Fin cfg.pages, i * cfg.pageSize < nFiles * 2 ^ j) :
    let t := is.foldl (initPage env) s
    (∀ i ∈ is, t.Loaded i) ∧ (∀ i, i ∉ is → t.pages i = s.pages i) ∧ t.stored = s.stored
      ∧ t.Layout j nFiles ∧ t.lruListHead = s.lruListHead := by
  induction is generalizing s with
  | nil => exact ⟨fun i hi => absurd hi List.not_mem_nil, fun _ _ => rfl, rfl, hl, rfl⟩
  | cons k is ih =>
      obtain ⟨hk, hnd⟩ := List.nodup_cons.mp hnd
      obtain ⟨hload, hst, hother, hlayout, hhead⟩ :=
        initPage_spec hio hl k (hfresh k List.mem_cons_self) (hin k)
      have hne : ∀ i ∈ is, i ≠ k := fun i hi he => hk (he ▸ hi)
      have hfresh' : ∀ i ∈ is, (s.initPage env k).Fresh i := by
        intro i hi
        rw [Fresh, hother i (hne i hi)]
        exact hfresh i (List.mem_cons_of_mem _ hi)
      obtain ⟨hloaded, hrest, hst', hlayout', hhead'⟩ := ih hnd hlayout hfresh'
      refine ⟨?_, ?_, hst'.trans hst, hlayout', hhead'.trans hhead⟩
      · intro i hi
        by_cases hik : i = k
        · subst hik
          exact hload.congr (hrest i hk) hst'
        · exact hloaded i ((List.mem_cons.mp hi).resolve_left hik)
      · intro i hi
        have hik : i ≠ k := fun he => hi (he ▸ List.mem_cons_self)
        rw [List.foldl_cons, hrest i fun hm => hi (List.mem_cons_of_mem _ hm), hother i hik]

/-- Pointers to the neighbours form the list `0, 1, …`. -/
theorem linked_of_pointers
    (hnext : ∀ i : Fin cfg.pages, (s.pages i).next
      = if h : i.val + 1 < cfg.pages then some ⟨i + 1, h⟩ else none)
    (hprev : ∀ i : Fin cfg.pages,
      (s.pages i).prev = if 0 < i.val then some ⟨i - 1, pred_lt i⟩ else none)
    (hhead : s.lruListHead = ⟨0, cfg.pages_pos⟩) :
    s.links.Linked (List.finRange cfg.pages) where
  head := by
    rw [List.head?_eq_getElem?, List.getElem?_eq_getElem (by simp [cfg.pages_pos])]
    simp [links, hhead]
  chain := by
    apply Links.chain_of_getElem?
    intro k a hka
    obtain ⟨hk, hval⟩ := List.getElem?_eq_some_iff.mp hka
    have ha : a.val = k := by
      rw [← hval]
      simp
    have hlen : k < cfg.pages := by simpa using hk
    refine ⟨?_, ?_⟩
    · have hfield : s.links.next a = (s.pages a).next := rfl
      rw [hfield, hnext a, Option.or_none]
      by_cases h1 : a.val + 1 < cfg.pages
      · rw [dif_pos h1, List.getElem?_eq_getElem (by simp; omega)]
        simp [ha]
      · rw [dif_neg h1, List.getElem?_eq_none (by simp; omega)]
    · have hfield : s.links.prev a = (s.pages a).prev := rfl
      rw [hfield, hprev a]
      by_cases h0 : k = 0
      · rw [if_pos h0, if_neg (by omega)]
      · rw [if_neg h0, if_pos (by omega), List.getElem?_eq_getElem (by simp; omega)]
        simp [ha]
  nodup := List.nodup_finRange _

/-- The array that the files of `2^j` bytes hold before the program starts. -/
def swapContents (env : SwapEnv) (j : Nat) : Memory where
  data := fun a =>
    match env.openFile (a >>> j) with
    | some f => f.contents (a &&& (2 ^ j - 1))
    | none => 0#8

/-- An offset that stays inside the file moves the position only. -/
theorem address_add {a k : Nat} (h : (a &&& (2 ^ j - 1)) + k < 2 ^ j) :
    (a + k) >>> j = a >>> j ∧ (a + k) &&& (2 ^ j - 1) = (a &&& (2 ^ j - 1)) + k := by
  rw [Nat.and_two_pow_sub_one_eq_mod] at h
  have hsplit : a + k = 2 ^ j * (a / 2 ^ j) + (a % 2 ^ j + k) := by
    rw [← Nat.add_assoc, Nat.div_add_mod]
  rw [Nat.and_two_pow_sub_one_eq_mod, Nat.and_two_pow_sub_one_eq_mod, Nat.shiftRight_eq_div_pow,
    Nat.shiftRight_eq_div_pow]
  refine ⟨?_, ?_⟩
  · rw [hsplit, Nat.mul_add_div (Nat.two_pow_pos j), Nat.div_eq_of_lt h, Nat.add_zero]
  · rw [hsplit, Nat.mul_add_mod, Nat.mod_eq_of_lt h]

/-- Files that read as before hold the pages of that array. -/
theorem stored_contents (hl : s.Layout j nFiles)
    (hfiles : ∀ i, i < nFiles → ∃ f, env.openFile i = some f ∧ s.HasFile (2 ^ j) i f.contents)
    {p : Nat} (hp : p * cfg.pageSize < nFiles * 2 ^ j) :
    s.stored p = Bytes.readAt (swapContents env j).data (p * cfg.pageSize) cfg.pageSize := by
  have hfile : s.fileOf p = (p * cfg.pageSize) >>> j := by rw [fileOf, lookupSwapFile, hl.shift]
  have hpos : s.posOf p = (p * cfg.pageSize) &&& (2 ^ j - 1) := by rw [posOf, hl.mask]
  have hlt : s.fileOf p < nFiles := by
    rw [hfile, Nat.shiftRight_eq_div_pow]
    exact Nat.div_lt_of_lt_mul (by rwa [Nat.mul_comm (2 ^ j)])
  obtain ⟨f, hopen, g, hg, hcont, hsize⟩ := hfiles _ hlt
  have hpage : cfg.pageAddr (p * cfg.pageSize) = p * cfg.pageSize :=
    (cfg.pageAddr_eq_self_iff _).mpr (Nat.dvd_mul_left _ _)
  have hend := position_le hl.le hpage
  rw [stored_of_file hg (by rw [hpos]; omega)]
  apply Bytes.readAt_congr
  intro k hk
  have hadd := address_add (j := j) (a := p * cfg.pageSize) (k := k) (by omega)
  have hbyte := congrFun hcont (s.posOf p + k)
  rw [DosFile.contents, if_pos (by rw [hpos]; omega)] at hbyte
  rw [hbyte]
  simp only [swapContents, hadd.1, hadd.2, ← hfile, hopen, hpos]

/-- The memory once `mem_init` has opened the swap files. -/
theorem initFiles_layout (hio : env.ioOk) {size nSwapFiles filePosMask fileNoShift : Nat}
    {u : SwapMemory cfg} (hfile : nFileSize cfg size nSwapFiles = 2 ^ j)
    (hlayout : swapLayout (nFileSize cfg size nSwapFiles) = some (filePosMask, fileNoShift))
    (hfiles : (List.range nSwapFiles).foldlM (initFile env (nFileSize cfg size nSwapFiles))
      (initMemory size filePosMask fileNoShift) = .ok u) :
    u.Layout j nSwapFiles ∧ (∀ i, u.Fresh i) ∧ u.lruListHead = ⟨0, cfg.pages_pos⟩
      ∧ ∀ i, i < nSwapFiles →
        ∃ f, env.openFile i = some f ∧ u.HasFile (2 ^ j) i f.contents := by
  obtain ⟨hupages, huhead, -, hufiles⟩ := initFiles_spec hio _ hfiles
  obtain ⟨humask, hushift, -, -⟩ := initFiles_open _ hfiles
  have hle : cfg.pageAddrShift ≤ j := by
    have hdvd : cfg.pageSize ∣ 2 ^ j := by
      rw [← hfile]
      exact cfg.dvd_alignUp _
    rw [cfg.pageSize_eq] at hdvd
    exact (Nat.pow_dvd_pow_iff_le_right (by decide)).mp hdvd
  rw [hfile] at hlayout hufiles
  obtain ⟨hmask, hshift⟩ := swapLayout_two_pow hlayout
  have hopened : ∀ i, i < nSwapFiles →
      ∃ f, env.openFile i = some f ∧ u.HasFile (2 ^ j) i f.contents :=
    fun i hi => hufiles i (List.mem_range.mpr hi)
  refine ⟨⟨humask.trans hmask, hushift.trans hshift, hle, ?_⟩, ?_, huhead, hopened⟩
  · intro i hi
    obtain ⟨-, -, g, hg, -, hsize⟩ := hopened i hi
    exact ⟨g, hg, hsize⟩
  · intro i
    rw [Fresh, hupages]
    exact ⟨rfl, rfl⟩

/-- The first pages lie in the files. -/
theorem firstPage_lt {size : Nat} (hcache : cfg.pages * cfg.pageSize ≤ size) (i : Fin cfg.pages) :
    i * cfg.pageSize < size :=
  lt_of_lt_of_le ((Nat.mul_lt_mul_right cfg.pageSize_pos).mpr i.isLt) hcache

/-- The pages and the files after `mem_init`. -/
theorem memInit_loaded (hio : env.ioOk) {size nSwapFiles : Nat} {self : SwapMemory cfg}
    (hinit : memInit cfg env size nSwapFiles = .ready self)
    (hfile : nFileSize cfg size nSwapFiles = 2 ^ j)
    (hcache : cfg.pages * cfg.pageSize ≤ nSwapFiles * 2 ^ j) :
    (∀ i, self.Loaded i) ∧ self.Layout j nSwapFiles ∧ self.lruListHead = ⟨0, cfg.pages_pos⟩
      ∧ ∀ p, p * cfg.pageSize < nSwapFiles * 2 ^ j →
        self.stored p = Bytes.readAt (swapContents env j).data (p * cfg.pageSize) cfg.pageSize := by
  obtain ⟨filePosMask, fileNoShift, u, hlayout, hfiles, hself⟩ := memInit_steps hinit
  obtain ⟨hl, hfresh, huhead, hopened⟩ := initFiles_layout hio hfile hlayout hfiles
  obtain ⟨hloaded, -, hstored, hl', hhead⟩ :=
    initPages_spec hio (List.finRange cfg.pages) (List.nodup_finRange _) hl (fun i _ => hfresh i)
      (firstPage_lt hcache)
  rw [← hself] at hloaded hstored hl' hhead
  refine ⟨fun i => hloaded i (List.mem_finRange i), hl', hhead.trans huhead, ?_⟩
  intro p hp
  rw [hstored]
  exact stored_contents hl hopened hp

/-- **After `mem_init`** the memory stands for what the swap files held. -/
theorem memInit_represents (hio : env.ioOk) {size nSwapFiles : Nat} {self : SwapMemory cfg}
    (hinit : memInit cfg env size nSwapFiles = .ready self)
    (hfile : nFileSize cfg size nSwapFiles = 2 ^ j)
    (hcache : cfg.pages * cfg.pageSize ≤ nSwapFiles * 2 ^ j) :
    self.Represents j nSwapFiles (List.finRange cfg.pages) (swapContents env j) := by
  obtain ⟨hload, hl, hhead, hstored⟩ := memInit_loaded hio hinit hfile hcache
  have hin := firstPage_lt hcache
  have hkey : ∀ i, self.cache.key i = i := by
    intro i
    show (self.pages i).addr / cfg.pageSize = i
    rw [(hload i).addr, Nat.mul_div_cancel _ cfg.pageSize_pos]
  have hlinked := linked_of_pointers (fun i => (hload i).next) (fun i => (hload i).prev) hhead
  refine ⟨⟨hl, ?_, ?_, ⟨?_, ?_⟩, hlinked, ?_⟩, self.stored, ⟨?_, fun _ _ => rfl⟩, hstored⟩
  · intro i
    rw [(hload i).addr]
    exact Nat.dvd_mul_left _ _
  · intro i
    rw [(hload i).addr]
    exact hin i
  · intro a b hab
    rw [hkey, hkey] at hab
    exact Fin.ext hab
  · intro i _
    rw [hkey, (hload i).block]
    rfl
  · exact List.mem_finRange
  · intro i
    rw [hkey, (hload i).block]

/-- When nothing fails, `mem_init` succeeds. -/
theorem memInit_ready (cfg : MemCfg) (env : SwapEnv) (hio : env.ioOk) (size nSwapFiles : Nat)
    (hn : nSwFilesValid nSwapFiles) (halloc : ∀ i, env.alloc i = true)
    (hopen : ∀ i, (env.openFile i).isSome) (hreopen : ∀ i, env.reopen i = true)
    (hlayout : (swapLayout (nFileSize cfg size nSwapFiles)).isSome) :
    ∃ self, memInit cfg env size nSwapFiles = .ready self := by
  have hfiles : ∀ (files : List Nat) (s : SwapMemory cfg),
      ∃ t, files.foldlM (initFile env (nFileSize cfg size nSwapFiles)) s = .ok t := by
    intro files
    induction files with
    | nil => exact fun s => ⟨s, rfl⟩
    | cons i files ih =>
        intro s
        obtain ⟨f, hf⟩ := Option.isSome_iff_exists.mp (hopen i)
        obtain ⟨w, g, -, -, -, -, heq⟩ :=
          initFile_eq (s := s) hio (nFileSize cfg size nSwapFiles) i hf
        rw [if_pos (hreopen i)] at heq
        obtain ⟨t, ht⟩ := ih (w.setFile i { g with pos := 0 })
        refine ⟨t, ?_⟩
        rw [List.foldlM_cons, heq]
        exact ht
  obtain ⟨⟨filePosMask, fileNoShift⟩, hl⟩ := Option.isSome_iff_exists.mp hlayout
  obtain ⟨t, ht⟩ := hfiles (List.range nSwapFiles) (initMemory size filePosMask fileNoShift)
  have hall : (List.range cfg.pages).all env.alloc = true := by
    rw [List.all_eq_true]
    exact fun i _ => halloc i
  refine ⟨(List.finRange cfg.pages).foldl (initPage env) t, ?_⟩
  simp only [memInit, hn, hall, hl, ht, Bool.not_true, Bool.false_eq_true, if_false]

/-! ## `mem_destroy` -/

theorem destroyPages_spec (hio : env.ioOk) (is : List (Fin cfg.pages)) (hl : s.Layout j nFiles)
    (halign : ∀ i, cfg.pageSize ∣ (s.pages i).addr)
    (hin : ∀ i, (s.pages i).addr < nFiles * 2 ^ j) :
    let t := is.foldl (destroyPage env) s
    t.cache = is.foldl WriteBack.writeBack s.cache ∧ t.Layout j nFiles := by
  induction is generalizing s with
  | nil => exact ⟨rfl, hl⟩
  | cons i is ih =>
      have hshift : s.fileNoShift ≠ 0 := by
        have := cfg.pageAddrShift_pos
        have := hl.le
        rw [hl.shift]
        omega
      have hopen : (s.swapFiles (s.lookupSwapFile (s.pages i).addr)).isSome := by
        have hkey := mul_key (s := s) i (halign i)
        obtain ⟨f, hf, -⟩ := hl.file (p := s.cache.key i) (by rw [hkey]; exact hin i)
        rw [fileOf, hkey] at hf
        rw [hf]
        rfl
      have hstep : s.destroyPage env i = s.storePage env i := if_pos ⟨hshift, hopen⟩
      obtain ⟨hcache, -, hpages, hlayout, -⟩ := storePage_spec hio hl i (halign i) (hin i)
      obtain ⟨hc, hlast⟩ := ih (s := s.storePage env i) hlayout (by rw [hpages]; exact halign)
        (by rw [hpages]; exact hin)
      rw [List.foldl_cons, List.foldl_cons, hstep, ← hcache]
      exact ⟨hc, hlast⟩

/-- **After `mem_destroy`** the swap files hold the array. -/
theorem memDestroy_spec (hio : env.ioOk) (hs : s.Represents j nFiles l flat) {a : Nat}
    (ha : a < nFiles * 2 ^ j) :
    ∃ f, s.memDestroy env (a >>> j) = some f ∧ (a &&& (2 ^ j - 1)) < f.size
      ∧ f.data (a &&& (2 ^ j - 1)) = flat.data a := by
  obtain ⟨v, hv, hflat⟩ := hs.view
  obtain ⟨hcache, hl⟩ := destroyPages_spec (s := s) hio (List.finRange cfg.pages) hs.inv.layout
    hs.inv.aligned hs.inv.inside
  set t := (List.finRange cfg.pages).foldl (destroyPage env) s with ht
  obtain ⟨-, hview, -, -, hstored⟩ :=
    WriteBack.writeBack_foldl (List.finRange cfg.pages) s.cache hs.inv.cache hv
  rw [← hcache] at hview hstored
  have hvt : v = t.stored := hview.eq_store fun i => hstored i (Or.inl (List.mem_finRange i))
  -- the page of the address
  have hsplit := pageAddr_add_offset cfg a
  rw [cfg.pageAddr_eq, cfg.pageOffset_eq] at hsplit
  set p := a / cfg.pageSize with hp
  have hoff : a % cfg.pageSize < cfg.pageSize := Nat.mod_lt _ cfg.pageSize_pos
  have hin : p * cfg.pageSize < nFiles * 2 ^ j := by omega
  obtain ⟨f, hf, hsize⟩ := hl.file hin
  have hpage : cfg.pageAddr (p * cfg.pageSize) = p * cfg.pageSize :=
    (cfg.pageAddr_eq_self_iff _).mpr (Nat.dvd_mul_left _ _)
  have hend := position_le hl.le hpage
  obtain ⟨hfile, hpos⟩ := address_add (j := j) (a := p * cfg.pageSize) (k := a % cfg.pageSize)
    (by omega)
  rw [hsplit] at hfile hpos
  have hblock := hflat p hin
  rw [hvt, stored_of_file hf hsize] at hblock
  have hbyte := congrArg (fun bs => bs[a % cfg.pageSize]?) hblock
  simp only [Bytes.readAt_getElem?, if_pos hoff, hsplit, Option.some.injEq] at hbyte
  rw [posOf, hl.mask] at hbyte hsize
  rw [fileOf, lookupSwapFile, hl.shift] at hf
  refine ⟨f, ?_, ?_, ?_⟩
  · rw [hfile]
    exact hf
  · rw [hpos]
    omega
  · rw [hpos]
    exact hbyte

/-! ## The refinement -/

/-- Every size and number of files that `main` accepts is covered by the files, and both builds
cache fewer pages than the smallest RAM has. -/
theorem accepted_covers (hcfg : isBuild cfg) {memSizeMb nSwapFiles : Nat}
    (h : parseArgsAccepts memSizeMb nSwapFiles) :
    memSizeMb * 2 ^ 20 ≤ nSwapFiles * nFileSize cfg (memSizeMb * 2 ^ 20) nSwapFiles
      ∧ cfg.pages * cfg.pageSize ≤ nSwapFiles * nFileSize cfg (memSizeMb * 2 ^ 20) nSwapFiles
      ∧ 2 ≤ cfg.pages := by
  obtain ⟨⟨hm, -⟩, hn⟩ := h
  have hdvd : nSwapFiles ∣ memSizeMb * 2 ^ 20 := by
    apply Dvd.dvd.mul_left
    rcases hn with rfl | rfl | rfl | rfl
    · decide
    · decide
    · decide
    · decide
  have hcover :
      memSizeMb * 2 ^ 20 ≤ nSwapFiles * nFileSize cfg (memSizeMb * 2 ^ 20) nSwapFiles := by
    calc memSizeMb * 2 ^ 20 = nSwapFiles * (memSizeMb * 2 ^ 20 / nSwapFiles) :=
          (Nat.mul_div_cancel' hdvd).symm
      _ ≤ _ := Nat.mul_le_mul_left _ (cfg.le_alignUp _)
  have hpages : cfg.pages * cfg.pageSize ≤ 2 ^ 20 ∧ 2 ≤ cfg.pages := by
    rcases hcfg with rfl | rfl
    · decide
    · decide
  exact ⟨hcover, le_trans hpages.1 (le_trans (by omega) hcover), hpages.2⟩

/-- **The paged memory refines a flat memory.** With working I/O, two cached pages, swap files of a
power of two that cover the RAM and are no smaller than the cache: every sequence of accesses inside
the RAM after `mem_init` returns, gives the answers of the flat memory that starts with the contents
of the swap files, and leaves in the swap files, after `mem_destroy`, exactly that flat memory. -/
theorem paged_refines_flat (cfg : MemCfg) (env : SwapEnv) (hio : env.ioOk) (hpages : 2 ≤ cfg.pages)
    (size nSwapFiles j : Nat) (hfile : nFileSize cfg size nSwapFiles = 2 ^ j)
    (hcover : size ≤ nSwapFiles * 2 ^ j) (hcache : cfg.pages * cfg.pageSize ≤ nSwapFiles * 2 ^ j)
    (self : SwapMemory cfg) (hinit : memInit cfg env size nSwapFiles = .ready self)
    (ops : List MemOp) (hops : ∀ op ∈ ops, op.inside size) :
    ∃ last, pagedRun env self ops = some (last, (flatRun (swapContents env j) ops).2)
      ∧ ∀ a, a < nSwapFiles * 2 ^ j →
          ∃ f, last.memDestroy env (a >>> j) = some f ∧ (a &&& (2 ^ j - 1)) < f.size
            ∧ f.data (a &&& (2 ^ j - 1)) = (flatRun (swapContents env j) ops).1.data a := by
  have hstart := memInit_represents hio hinit hfile hcache
  have hinside : ∀ op ∈ ops, op.inside (nSwapFiles * 2 ^ j) := by
    intro op hop
    have := hops op hop
    cases op with
    | read addr n => exact le_trans this hcover
    | write addr buf => exact le_trans this hcover
    | cmp addr buf => exact le_trans this hcover
  obtain ⟨last, l', hrun, hlast⟩ := pagedRun_spec hio hpages ops hstart hinside
  exact ⟨last, hrun, fun a ha => memDestroy_spec hio hlast ha⟩

/-- A DOS on which nothing fails and no swap file exists yet. -/
def freshDisk : SwapEnv :=
  ⟨fun _ => true, fun _ => some DosFile.empty, fun _ => true, fun _ => none⟩

/-- 1 MB in one new swap file: a write across a page boundary, and a read of it. -/
theorem paged_refines_flat_fresh :
    ∃ self, memInit memRv32 freshDisk (2 ^ 20) 1 = .ready self
      ∧ ∃ last, pagedRun freshDisk self [.write 2046 [1#8, 2#8, 3#8, 4#8], .read 2045 6]
          = some (last, [.done, .bytes [0#8, 1#8, 2#8, 3#8, 4#8, 0#8]])
        ∧ ∀ a, a < 1 * 2 ^ 20 →
            ∃ f, last.memDestroy freshDisk (a >>> 20) = some f ∧ (a &&& (2 ^ 20 - 1)) < f.size
              ∧ f.data (a &&& (2 ^ 20 - 1))
                = (flatRun (swapContents freshDisk 20)
                    [.write 2046 [1#8, 2#8, 3#8, 4#8], .read 2045 6]).1.data a := by
  obtain ⟨self, hself⟩ := memInit_ready memRv32 freshDisk (fun _ => rfl)
    (2 ^ 20) 1 (by decide) (fun _ => rfl) (fun _ => rfl) (fun _ => rfl)
    (by decide)
  exact ⟨self, hself, paged_refines_flat memRv32 freshDisk (fun _ => rfl) (by decide) (2 ^ 20) 1 20
    (by decide) (by decide) (by decide) self hself _ (by
      intro op hop
      rcases List.mem_cons.mp hop with rfl | hop
      · show 2046 + 4 ≤ 2 ^ 20
        decide
      · obtain rfl := List.mem_singleton.mp hop
        show 2045 + 6 ≤ 2 ^ 20
        decide)⟩

end SwapMemory

end RV640
