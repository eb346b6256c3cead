import RV640.Proofs.SwapRefines

set_option autoImplicit false

/-! # The paged memory when DOS fails

`_storePage` and `_loadPage` log a failing call and return; nobody hears of it. This file says, for
any choice of failing seeks, reads and writes, what a lookup then leaves in the pages and in the
files.
-/

namespace RV640

open Bits

namespace SwapMemory

variable {cfg : MemCfg}

/-! ## What a lookup asks of DOS -/

/-- The file and the position of a cached page. -/
def fileAt (self : SwapMemory cfg) (i : Fin cfg.pages) : Nat :=
  self.lookupSwapFile (self.pages i).addr
def posAt (self : SwapMemory cfg) (i : Fin cfg.pages) : Nat :=
  (self.pages i).addr &&& self.filePosMask

/-- The seek that is call number `k` goes through. -/
def SeekGoes (env : SwapEnv) (self : SwapMemory cfg) (k file : Nat) : Prop :=
  (self.swapFiles file).isSome = true ∧ env.fault k = none

instance (env : SwapEnv) (self : SwapMemory cfg) (k file : Nat) :
    Decidable (SeekGoes env self k file) := by
  unfold SeekGoes
  infer_instance

/-- The bytes of a page that reach its file when it is replaced. -/
def writtenBack (env : SwapEnv) (self : SwapMemory cfg) (i : Fin cfg.pages) : Nat :=
  if (self.pages i).dirty = true ∧ SeekGoes env self self.dosCalls (self.fileAt i) then
    transferred (env.fault (self.dosCalls + 1)) cfg.pageSize
  else 0

/-- The calls made for that. -/
def evictCalls (env : SwapEnv) (self : SwapMemory cfg) (i : Fin cfg.pages) : Nat :=
  if (self.pages i).dirty then
    if SeekGoes env self self.dosCalls (self.fileAt i) then 2 else 1
  else 0

/-- The size of a file afterwards. -/
def sizeAtLoad (env : SwapEnv) (self : SwapMemory cfg) (i : Fin cfg.pages) (file : Nat) : Nat :=
  match self.swapFiles file with
  | none => 0
  | some f =>
      if file = self.fileAt i ∧ (self.pages i).dirty = true ∧ env.fault self.dosCalls = none then
        max f.size (self.posAt i + writtenBack env self i)
      else f.size

/-- The seek and the read of the missing page go through, once page `i` was written back. -/
structure LoadGoes (env : SwapEnv) (self : SwapMemory cfg) (i : Fin cfg.pages) (pageAddr : Nat) :
    Prop where
  seek : SeekGoes env self (self.dosCalls + evictCalls env self i) (self.lookupSwapFile pageAddr)
  read : transferred (env.fault (self.dosCalls + evictCalls env self i + 1)) cfg.pageSize
    = cfg.pageSize
  size : (pageAddr &&& self.filePosMask) + cfg.pageSize
    ≤ sizeAtLoad env self i (self.lookupSwapFile pageAddr)

/-- What the write-back of page `i` does not get to is in the file already. -/
def InFile (env : SwapEnv) (self : SwapMemory cfg) (i : Fin cfg.pages) : Prop :=
  ∃ f, self.swapFiles (self.fileAt i) = some f ∧ ∀ k, k < cfg.pageSize →
    writtenBack env self i ≤ k →
      self.posAt i + k < f.size ∧ f.data (self.posAt i + k) = (self.pages i).data k

/-- Nothing is lost with page `i`: the file has it, or another page of the same address, which a
lookup finds first. -/
def Spared (env : SwapEnv) (self : SwapMemory cfg) (i : Fin cfg.pages) : Prop :=
  (∃ k, k ≠ i ∧ (self.pages k).addr = (self.pages i).addr) ∨ InFile env self i

/-- The file of a page address has the whole page. -/
def HasPage (self : SwapMemory cfg) (pageAddr : Nat) : Prop :=
  ∃ f, self.swapFiles (self.lookupSwapFile pageAddr) = some f
    ∧ (pageAddr &&& self.filePosMask) + cfg.pageSize ≤ f.size

/-- A lookup finds its page, or loads a page that the file has in the place of a page that is not
lost. -/
def LookupSafe (env : SwapEnv) (self : SwapMemory cfg) (addr : Nat) : Prop :=
  match self.searchPage (cfg.pageAddr addr) cfg.pages self.lruListHead with
  | some (i, false) =>
      LoadGoes env self i (cfg.pageAddr addr) ∧ HasPage self (cfg.pageAddr addr)
        ∧ Spared env self i
  | _ => True

/-- What a page address stands for: the cached copy that a lookup finds, else the file. -/
def contents (self : SwapMemory cfg) (pageAddr : Nat) : List Byte :=
  match self.searchPage pageAddr cfg.pages self.lruListHead with
  | some (i, true) => self.cache.block i
  | _ => self.stored (pageAddr / cfg.pageSize)

/-! ## Calls with failures -/

variable {s : SwapMemory cfg} {env : SwapEnv}

theorem transferred_le (fault : Option Nat) (n : Nat) : transferred fault n ≤ n := by
  cases fault with
  | none => exact le_refl n
  | some k => exact min_le_right k n

theorem dosFSeek_goes {file : Nat} {f : DosFile} (hf : s.swapFiles file = some f)
    (hk : env.fault s.dosCalls = none) (offset : Nat) :
    s.dosFSeek env file offset = ((s.setFile file (f.seekSet offset)).called, true) := by
  simp only [dosFSeek, hf, hk]

theorem dosFSeek_stops {file : Nat} (h : ¬SeekGoes env s s.dosCalls file) (offset : Nat) :
    s.dosFSeek env file offset = (s.called, false) := by
  unfold SeekGoes at h
  rcases hf : s.swapFiles file with _ | f
  · simp only [dosFSeek, hf]
  · rcases hk : env.fault s.dosCalls with _ | k
    · rw [hf, hk] at h
      exact absurd ⟨rfl, rfl⟩ h
    · simp only [dosFSeek, hf, hk]

theorem storePage_stops {i : Fin cfg.pages} (h : ¬SeekGoes env s s.dosCalls (s.fileAt i)) :
    s.storePage env i = s.called := by
  have hseek := dosFSeek_stops h (s.posAt i)
  simp only [fileAt, posAt] at hseek
  simp only [storePage, hseek]

theorem storePage_goes {i : Fin cfg.pages} {f : DosFile} (hf : s.swapFiles (s.fileAt i) = some f)
    (hk : env.fault s.dosCalls = none) :
    s.storePage env i =
      { s with
        swapFiles := Function.update s.swapFiles (s.fileAt i)
          (some ((f.seekSet (s.posAt i)).write ((Bytes.readAt (s.pages i).data 0 cfg.pageSize).take
            (transferred (env.fault (s.dosCalls + 1)) cfg.pageSize))))
        dosCalls := s.dosCalls + 2 } := by
  have hseek := dosFSeek_goes hf hk (s.posAt i)
  simp only [fileAt, posAt] at hseek ⊢
  simp only [storePage, hseek]
  simp [dosFWrite, setFile, called, Function.update_idem]

theorem loadPage_stops {pageAddr : Nat} {i : Fin cfg.pages}
    (h : ¬SeekGoes env s s.dosCalls (s.lookupSwapFile pageAddr)) :
    s.loadPage env pageAddr i = s.called := by
  have hseek := dosFSeek_stops h (pageAddr &&& s.filePosMask)
  simp only [loadPage, hseek]

/-- The bytes a load reads, when its seek goes through. -/
def loadedBytes (env : SwapEnv) (s : SwapMemory cfg) (f : DosFile) (pageAddr : Nat) : Nat :=
  min (transferred (env.fault (s.dosCalls + 1)) cfg.pageSize)
    (f.size - (pageAddr &&& s.filePosMask))

theorem loadPage_goes {pageAddr : Nat} (i : Fin cfg.pages) {f : DosFile}
    (hf : s.swapFiles (s.lookupSwapFile pageAddr) = some f) (hk : env.fault s.dosCalls = none) :
    let n := loadedBytes env s f pageAddr
    let data := Bytes.writeAt (s.pages i).data 0
      (Bytes.readAt f.data (pageAddr &&& s.filePosMask) n)
    s.loadPage env pageAddr i =
      { s with
        pages := Function.update s.pages i
          (if n = cfg.pageSize then
              { s.pages i with addr := pageAddr, dirty := false, data := data }
            else { s.pages i with data := data })
        swapFiles := Function.update s.swapFiles (s.lookupSwapFile pageAddr)
          (some { f with pos := (pageAddr &&& s.filePosMask) + n })
        dosCalls := s.dosCalls + 2 } := by
  intro n data
  have hseek := dosFSeek_goes hf hk (pageAddr &&& s.filePosMask)
  have hn : min (transferred (env.fault (s.dosCalls + 1)) cfg.pageSize)
      (f.size - (pageAddr &&& s.filePosMask)) = n := rfl
  by_cases hfull : n = cfg.pageSize
  · rw [if_pos hfull]
    simp only [loadPage, hseek]
    simp [dosFRead, setFile, called, setPage, DosFile.read, DosFile.seekSet, hn, hfull, data,
      Function.update_idem]
  · rw [if_neg hfull]
    simp only [loadPage, hseek]
    simp [dosFRead, setFile, called, setPage, DosFile.read, DosFile.seekSet, hn, hfull, data,
      Function.update_idem]

/-! ## The shape of the pages -/

variable {j : Nat} {l : List (Fin cfg.pages)}

/-- What no failure breaks: the layout constants (of no file in particular), page addresses, and
`l` as the list of all pages. -/
structure Shape (s : SwapMemory cfg) (j : Nat) (l : List (Fin cfg.pages)) : Prop where
  layout : s.Layout j 0
  aligned : ∀ i, cfg.pageSize ∣ (s.pages i).addr
  linked : s.links.Linked l
  all : ∀ i, i ∈ l

theorem Shape.length_le (h : s.Shape j l) : l.length ≤ cfg.pages := by
  have hcard := h.linked.nodup.length_le_card
  rwa [Fintype.card_fin] at hcard

theorem Shape.last_ne_head (h : s.Shape j l) (hpages : 2 ≤ cfg.pages) {x : Fin cfg.pages}
    (hx : l.getLast? = some x) : x ≠ s.lruListHead :=
  h.linked.last_ne_head (h.all ⟨0, by omega⟩) (h.all ⟨1, by omega⟩) (by simp) hx

/-- The test of the search for a page address. -/
def hasAddr (s : SwapMemory cfg) (pageAddr : Nat) (i : Fin cfg.pages) : Bool :=
  decide ((s.pages i).addr = pageAddr)

theorem Shape.search (h : s.Shape j l) (pageAddr : Nat) :
    s.searchPage pageAddr cfg.pages s.lruListHead =
      match l.find? (s.hasAddr pageAddr) with
      | some i => some (i, true)
      | none => l.getLast?.map fun i => (i, false) := by
  have hwalk := h.linked.walk_find? (s.hasAddr pageAddr) h.length_le
  rw [searchPage_eq]
  refine Eq.trans hwalk ?_
  cases l.find? (s.hasAddr pageAddr) with
  | some i => rfl
  | none => rfl

theorem Shape.contents_eq (h : s.Shape j l) (pageAddr : Nat) :
    s.contents pageAddr =
      match l.find? (s.hasAddr pageAddr) with
      | some i => s.cache.block i
      | none => s.stored (pageAddr / cfg.pageSize) := by
  rw [contents, h.search]
  cases l.find? (s.hasAddr pageAddr) with
  | some i => rfl
  | none => cases l.getLast? <;> rfl

/-- Pages and files decide, on the same list. -/
theorem Shape.contents_congr {t : SwapMemory cfg} (hs : s.Shape j l) {l' : List (Fin cfg.pages)}
    (ht : t.Shape j l') {pageAddr : Nat}
    (hfind : l'.find? (t.hasAddr pageAddr) = l.find? (s.hasAddr pageAddr))
    (hblock : ∀ i, (s.pages i).addr = pageAddr → t.cache.block i = s.cache.block i)
    (hstored : l.find? (s.hasAddr pageAddr) = none →
      t.stored (pageAddr / cfg.pageSize) = s.stored (pageAddr / cfg.pageSize)) :
    t.contents pageAddr = s.contents pageAddr := by
  rw [ht.contents_eq, hs.contents_eq, hfind]
  cases hf : l.find? (s.hasAddr pageAddr) with
  | some i =>
      have hi : (s.pages i).addr = pageAddr := by simpa [hasAddr] using List.find?_some hf
      exact hblock i hi
  | none => exact hstored hf

/-- A page in front. -/
theorem Shape.toFront (h : s.Shape j l) {page : Fin cfg.pages} (hne : page ≠ s.lruListHead) :
    (s.swapLruHead page).Shape j (page :: l.erase page) where
  layout := h.layout.relinked (Relinked.swapLruHead s page)
  aligned := by
    intro i
    rw [(Relinked.swapLruHead s page).addr]
    exact h.aligned i
  linked := by
    rw [swapLruHead_links]
    exact h.linked.moveToFront (h.all page) hne
  all := mem_front h.all page

@[simp] theorem swapLruHead_dosCalls (page : Fin cfg.pages) :
    (s.swapLruHead page).dosCalls = s.dosCalls := by
  unfold swapLruHead
  simp only [setNext, setPrev, setPage]
  split <;> split <;> rfl

/-! ## Replacing a page -/

/-- The memory once page `i` is in front and was written back. -/
def evicted (env : SwapEnv) (s : SwapMemory cfg) (i : Fin cfg.pages) : SwapMemory cfg :=
  let t := s.swapLruHead i
  if (t.pages i).dirty then t.storePage env i else t

/-- From `s` to `t` page `i` was moved to the front and written back as far as DOS let it. -/
structure Evicted (env : SwapEnv) (s t : SwapMemory cfg) (j : Nat) (l : List (Fin cfg.pages))
    (i : Fin cfg.pages) : Prop where
  shape : t.Shape j (i :: l.erase i)
  addr : ∀ k, (t.pages k).addr = (s.pages k).addr
  data : ∀ k, (t.pages k).data = (s.pages k).data
  shift : t.fileNoShift = s.fileNoShift
  mask : t.filePosMask = s.filePosMask
  dosCalls : t.dosCalls = s.dosCalls + evictCalls env s i
  opened : ∀ file, (t.swapFiles file).isSome = (s.swapFiles file).isSome
  sizes : ∀ file f, t.swapFiles file = some f → f.size = sizeAtLoad env s i file
  others : ∀ p, p ≠ (s.pages i).addr / cfg.pageSize → s.stored p <+: t.stored p
  own : t.stored ((s.pages i).addr / cfg.pageSize) = s.cache.block i ↔ InFile env s i

/-- The part of a block that was written and the part that was there. -/
theorem readAt_writeAt_take (f g : Nat → Byte) (pos : Nat) {n size : Nat} (hn : n ≤ size) :
    Bytes.readAt (Bytes.writeAt f pos ((Bytes.readAt g 0 size).take n)) pos size
        = Bytes.readAt g 0 size
      ↔ ∀ k, k < size → n ≤ k → f (pos + k) = g k := by
  have hlen : ((Bytes.readAt g 0 size).take n).length = n := by
    rw [List.length_take, Bytes.readAt_length, min_eq_left hn]
  have hbyte : ∀ k, k < size →
      Bytes.writeAt f pos ((Bytes.readAt g 0 size).take n) (pos + k)
        = if k < n then g k else f (pos + k) := by
    intro k hk
    by_cases hkn : k < n
    · have hget := Bytes.readAt_getElem? g 0 size k
      rw [if_pos hk, Nat.zero_add] at hget
      rw [if_pos hkn, Bytes.writeAt_inside _ _ _ (by rw [hlen]; exact hkn), List.getElem_take]
      exact (List.getElem?_eq_some_iff.mp hget).2
    · rw [if_neg hkn, Bytes.writeAt_outside _ _ _ (Or.inr (by rw [hlen]; omega))]
  constructor
  · intro h k hk hnk
    have hget := congrArg (fun bs => bs[k]?) h
    simp only [Bytes.readAt_getElem?, if_pos hk, Nat.zero_add, Option.some.injEq] at hget
    rw [hbyte k hk, if_neg (by omega)] at hget
    exact hget
  · intro h
    apply Bytes.readAt_congr
    intro k hk
    rw [hbyte k hk, Nat.zero_add]
    split
    · rfl
    · exact h k hk (by omega)

theorem fileOf_key (i : Fin cfg.pages) (h : cfg.pageSize ∣ (s.pages i).addr) :
    s.fileOf ((s.pages i).addr / cfg.pageSize) = s.fileAt i
      ∧ s.posOf ((s.pages i).addr / cfg.pageSize) = s.posAt i := by
  have hkey : (s.pages i).addr / cfg.pageSize * cfg.pageSize = (s.pages i).addr :=
    Nat.div_mul_cancel h
  exact ⟨by rw [fileOf, hkey, fileAt], by rw [posOf, hkey, posAt]⟩

theorem block_length (i : Fin cfg.pages) : (s.cache.block i).length = cfg.pageSize :=
  Bytes.readAt_length _ _ _

theorem stored_length_le (p : Nat) : (s.stored p).length ≤ cfg.pageSize := by
  unfold stored
  split
  · rw [DosFile.bytesAt_length]
    exact min_le_left _ _
  · exact Nat.zero_le _

/-- The file has the whole page. -/
theorem stored_length_eq_iff {pageAddr : Nat} (h : cfg.pageSize ∣ pageAddr) :
    (s.stored (pageAddr / cfg.pageSize)).length = cfg.pageSize ↔ HasPage s pageAddr := by
  have hkey : pageAddr / cfg.pageSize * cfg.pageSize = pageAddr := Nat.div_mul_cancel h
  rw [HasPage, stored, fileOf, posOf, hkey]
  cases hf : s.swapFiles (s.lookupSwapFile pageAddr) with
  | none =>
      constructor
      · intro he
        exact absurd he.symm (Nat.pos_iff_ne_zero.mp cfg.pageSize_pos)
      · rintro ⟨f, hnone, -⟩
        cases hnone
  | some f =>
      have hfull : (f.bytesAt (pageAddr &&& s.filePosMask) cfg.pageSize).length = cfg.pageSize ↔
          (pageAddr &&& s.filePosMask) + cfg.pageSize ≤ f.size :=
        DosFile.bytesAt_length_eq_iff cfg.pageSize_pos
      constructor
      · exact fun he => ⟨f, rfl, hfull.mp he⟩
      · rintro ⟨g, hg, hsize⟩
        cases hg
        exact hfull.mpr hsize

/-- A range of a file that is a given block. -/
theorem bytesAt_eq_readAt_iff (f : DosFile) (g : Nat → Byte) (pos : Nat) {size : Nat}
    (hsize : 0 < size) :
    f.bytesAt pos size = Bytes.readAt g 0 size
      ↔ pos + size ≤ f.size ∧ Bytes.readAt f.data pos size = Bytes.readAt g 0 size := by
  constructor
  · intro he
    have hlen := congrArg List.length he
    rw [Bytes.readAt_length, DosFile.bytesAt_length_eq_iff hsize] at hlen
    rw [DosFile.bytesAt_full hlen] at he
    exact ⟨hlen, he⟩
  · rintro ⟨hlen, he⟩
    rw [DosFile.bytesAt_full hlen, he]

/-- The file has the page, with the data of the cached one. -/
theorem stored_eq_block_iff (i : Fin cfg.pages) (h : cfg.pageSize ∣ (s.pages i).addr) :
    s.stored ((s.pages i).addr / cfg.pageSize) = s.cache.block i
      ↔ ∃ f, s.swapFiles (s.fileAt i) = some f ∧ ∀ k, k < cfg.pageSize →
        s.posAt i + k < f.size ∧ f.data (s.posAt i + k) = (s.pages i).data k := by
  obtain ⟨hfile, hpos⟩ := fileOf_key i h
  have hsize := cfg.pageSize_pos
  have hblock : s.cache.block i = Bytes.readAt (s.pages i).data 0 cfg.pageSize := rfl
  rw [stored, hfile, hpos, hblock]
  cases hf : s.swapFiles (s.fileAt i) with
  | none =>
      constructor
      · intro he
        have hlen := congrArg List.length he
        rw [Bytes.readAt_length] at hlen
        exact absurd hlen.symm (Nat.pos_iff_ne_zero.mp hsize)
      · rintro ⟨f, hnone, -⟩
        cases hnone
  | some f =>
      have hiff := bytesAt_eq_readAt_iff f (s.pages i).data (s.posAt i) hsize
      refine hiff.trans ?_
      constructor
      · rintro ⟨hlen, he⟩
        refine ⟨f, rfl, fun k hk => ⟨by omega, ?_⟩⟩
        have hget := congrArg (fun bs => bs[k]?) he
        simpa only [Bytes.readAt_getElem?, if_pos hk, Nat.zero_add, Option.some.injEq] using hget
      · rintro ⟨g, hg, hall⟩
        cases hg
        refine ⟨?_, ?_⟩
        · have hlast := (hall (cfg.pageSize - 1) (by omega)).1
          omega
        · apply Bytes.readAt_congr
          intro k hk
          rw [(hall k hk).2, Nat.zero_add]

theorem Shape.congr {t : SwapMemory cfg} (h : s.Shape j l) (hpages : t.pages = s.pages)
    (hhead : t.lruListHead = s.lruListHead) (hmask : t.filePosMask = s.filePosMask)
    (hshift : t.fileNoShift = s.fileNoShift) : t.Shape j l where
  layout := ⟨hmask.trans h.layout.mask, hshift.trans h.layout.shift, h.layout.le,
    fun i hi => absurd hi (Nat.not_lt_zero i)⟩
  aligned := by
    rw [hpages]
    exact h.aligned
  linked := by
    have hlinks : t.links = s.links := by simp only [links, hpages, hhead]
    rw [hlinks]
    exact h.linked
  all := h.all

/-- Nothing reached the files. -/
theorem Evicted.of_same {t : SwapMemory cfg} (h : s.Shape j l) {i : Fin cfg.pages}
    (hne : i ≠ s.lruListHead)
    (hzero : ¬((s.pages i).dirty = true ∧ SeekGoes env s s.dosCalls (s.fileAt i)))
    (ht : t = { s.swapLruHead i with dosCalls := s.dosCalls + evictCalls env s i }) :
    Evicted env s t j l i := by
  have hr := Relinked.swapLruHead s i
  have hshape : t.Shape j (i :: l.erase i) := by
    rw [ht]
    exact (h.toFront hne).congr rfl rfl rfl rfl
  have hpage : t.pages i = (s.swapLruHead i).pages i := by rw [ht]
  have hfiles : t.swapFiles = s.swapFiles := by rw [ht]; exact hr.swapFiles
  have hmask : t.filePosMask = s.filePosMask := by rw [ht]; exact hr.mask
  have hshift : t.fileNoShift = s.fileNoShift := by rw [ht]; exact hr.shift
  have hstored : t.stored = s.stored := by
    funext p
    simp only [stored, fileOf, posOf, lookupSwapFile, hfiles, hmask, hshift]
  have hwritten : writtenBack env s i = 0 := if_neg hzero
  refine ⟨hshape, ?_, ?_, hshift, hmask, by rw [ht], ?_, ?_, ?_, ?_⟩
  · intro k
    rw [ht]
    exact hr.addr k
  · intro k
    rw [ht]
    exact hr.data k
  · intro file
    rw [hfiles]
  · intro file f hf
    rw [hfiles] at hf
    simp only [sizeAtLoad, hf]
    split
    · rename_i hgrow
      obtain ⟨rfl, hd, hk⟩ := hgrow
      exact absurd ⟨hd, by rw [hf]; rfl, hk⟩ hzero
    · rfl
  · intro p _
    rw [hstored]
  · rw [hstored, stored_eq_block_iff i (h.aligned i)]
    constructor
    · rintro ⟨f, hf, hall⟩
      exact ⟨f, hf, fun k hk _ => hall k hk⟩
    · rintro ⟨f, hf, hall⟩
      exact ⟨f, hf, fun k hk => hall k hk (by rw [hwritten]; exact Nat.zero_le k)⟩

theorem writtenBack_le (env : SwapEnv) (s : SwapMemory cfg) (i : Fin cfg.pages) :
    writtenBack env s i ≤ cfg.pageSize := by
  unfold writtenBack
  split
  · exact transferred_le _ _
  · exact Nat.zero_le _

/-- The bytes of page `i` that its write-back gets to. -/
def backBytes (env : SwapEnv) (s : SwapMemory cfg) (i : Fin cfg.pages) : List Byte :=
  (Bytes.readAt (s.pages i).data 0 cfg.pageSize).take (writtenBack env s i)

theorem backBytes_length (env : SwapEnv) (s : SwapMemory cfg) (i : Fin cfg.pages) :
    (backBytes env s i).length = writtenBack env s i := by
  rw [backBytes, List.length_take, Bytes.readAt_length, min_eq_left (writtenBack_le env s i)]

/-- The write-back leaves a file with the page exactly when the rest of the page was there. -/
theorem written_block_iff {i : Fin cfg.pages} {f : DosFile}
    (hf : s.swapFiles (s.fileAt i) = some f) :
    ((f.seekSet (s.posAt i)).write (backBytes env s i)).bytesAt (s.posAt i) cfg.pageSize
        = s.cache.block i ↔ InFile env s i := by
  have hsize := cfg.pageSize_pos
  have hle := writtenBack_le env s i
  have hboth := readAt_writeAt_take f.data (s.pages i).data (s.posAt i) hle
  refine (bytesAt_eq_readAt_iff _ (s.pages i).data (s.posAt i) hsize).trans ?_
  refine (and_congr Iff.rfl hboth).trans ?_
  simp only [DosFile.write, DosFile.seekSet, backBytes_length]
  constructor
  · rintro ⟨hend, hall⟩
    refine ⟨f, hf, fun k hk hnk => ⟨?_, hall k hk hnk⟩⟩
    -- the write-back ends before the page does, so it is the old file that is long enough
    rcases le_max_iff.mp hend with hlong | hlong
    · omega
    · omega
  · rintro ⟨g, hg, hall⟩
    rw [hf] at hg
    cases hg
    refine ⟨?_, fun k hk hnk => (hall k hk hnk).2⟩
    by_cases hfull : writtenBack env s i = cfg.pageSize
    · exact le_max_of_le_right (by omega)
    · have hlast := (hall (cfg.pageSize - 1) (by omega) (by omega)).1
      exact le_max_of_le_left (by omega)

/-- It leaves the other pages of the file as they were. -/
theorem written_prefix {i : Fin cfg.pages} (f : DosFile) {pos : Nat}
    (hdisj : pos + cfg.pageSize ≤ s.posAt i ∨ s.posAt i + cfg.pageSize ≤ pos) :
    f.bytesAt pos cfg.pageSize
      <+: ((f.seekSet (s.posAt i)).write (backBytes env s i)).bytesAt pos cfg.pageSize := by
  have hle := writtenBack_le env s i
  refine DosFile.bytesAt_prefix (le_max_left _ _) ?_
  intro k hk
  apply Bytes.writeAt_outside
  rw [backBytes_length]
  simp only [DosFile.seekSet]
  omega

/-- A write-back whose seek goes through. -/
theorem Evicted.of_goes {t : SwapMemory cfg} (h : s.Shape j l) {i : Fin cfg.pages}
    (hne : i ≠ s.lruListHead) (hd : (s.pages i).dirty = true) {f : DosFile}
    (hf : s.swapFiles (s.fileAt i) = some f) (hk : env.fault s.dosCalls = none)
    (ht : t = { s.swapLruHead i with
      swapFiles := Function.update s.swapFiles (s.fileAt i)
        (some ((f.seekSet (s.posAt i)).write ((Bytes.readAt (s.pages i).data 0 cfg.pageSize).take
          (transferred (env.fault (s.dosCalls + 1)) cfg.pageSize))))
      dosCalls := s.dosCalls + 2 }) :
    Evicted env s t j l i := by
  have hr := Relinked.swapLruHead s i
  have hgoes : SeekGoes env s s.dosCalls (s.fileAt i) := ⟨by rw [hf]; rfl, hk⟩
  have hcalls : evictCalls env s i = 2 := by rw [evictCalls, if_pos hd, if_pos hgoes]
  have hwritten : writtenBack env s i = transferred (env.fault (s.dosCalls + 1)) cfg.pageSize :=
    if_pos ⟨hd, hgoes⟩
  rw [← hwritten, ← backBytes] at ht
  have hshape : t.Shape j (i :: l.erase i) := by
    rw [ht]
    exact (h.toFront hne).congr rfl rfl rfl rfl
  have hmask : t.filePosMask = s.filePosMask := by rw [ht]; exact hr.mask
  have hshift : t.fileNoShift = s.fileNoShift := by rw [ht]; exact hr.shift
  -- of the files only the one of the page changed, and there only the bytes of the page
  have hstored := fun q => stored_update (s := s) (t := t) (s.fileAt i) (by rw [ht]) hmask hshift q
  obtain ⟨hfile, hpos⟩ := fileOf_key i (h.aligned i)
  refine ⟨hshape, ?_, ?_, hshift, hmask, by rw [ht, hcalls], ?_, ?_, ?_, ?_⟩
  · intro k
    rw [ht]
    exact hr.addr k
  · intro k
    rw [ht]
    exact hr.data k
  · intro file
    rw [ht]
    by_cases hfi : file = s.fileAt i
    · subst hfi
      simp only [Function.update_self, hf]
      rfl
    · simp only [Function.update_of_ne hfi]
  · intro file g hg
    rw [ht] at hg
    by_cases hfi : file = s.fileAt i
    · subst hfi
      simp only [Function.update_self, Option.some.injEq] at hg
      simp only [sizeAtLoad, hf, if_pos (⟨trivial, hd, hk⟩ : True ∧ _ ∧ _), ← hg, DosFile.write,
        DosFile.seekSet, backBytes_length]
    · simp only [Function.update_of_ne hfi] at hg
      simp only [sizeAtLoad, hg]
      rw [if_neg fun hc => hfi hc.1]
  · intro q hq
    rw [hstored q]
    split
    · rename_i hsame
      rw [stored_eq (by rw [hsame]; exact hf)]
      have hdisj := h.layout.disjoint hq (hsame.trans hfile.symm)
      rw [hpos] at hdisj
      exact written_prefix f hdisj
    · exact List.prefix_rfl
  · rw [hstored, if_pos hfile, hpos]
    exact written_block_iff hf

theorem evicted_spec (env : SwapEnv) (h : s.Shape j l) {i : Fin cfg.pages}
    (hne : i ≠ s.lruListHead) : Evicted env s (evicted env s i) j l i := by
  have hr := Relinked.swapLruHead s i
  have hfile : (s.swapLruHead i).fileAt i = s.fileAt i := by
    rw [fileAt, fileAt, lookupSwapFile, lookupSwapFile, hr.shift, hr.addr]
  have hpos : (s.swapLruHead i).posAt i = s.posAt i := by rw [posAt, posAt, hr.addr, hr.mask]
  have hseek : SeekGoes env (s.swapLruHead i) (s.swapLruHead i).dosCalls
      ((s.swapLruHead i).fileAt i) ↔ SeekGoes env s s.dosCalls (s.fileAt i) := by
    rw [SeekGoes, SeekGoes, hr.swapFiles, swapLruHead_dosCalls, hfile]
  -- clean, dirty with a seek that fails, or dirty with a seek that goes through
  by_cases hd : (s.pages i).dirty = true
  · have hdu : ((s.swapLruHead i).pages i).dirty = true := by rw [hr.dirty, hd]
    have ht : evicted env s i = (s.swapLruHead i).storePage env i := if_pos hdu
    by_cases hgoes : SeekGoes env s s.dosCalls (s.fileAt i)
    · obtain ⟨f, hf⟩ := Option.isSome_iff_exists.mp hgoes.1
      refine Evicted.of_goes h hne hd hf hgoes.2 ?_
      rw [ht, storePage_goes (f := f) (by rw [hr.swapFiles, hfile, hf])
        (by rw [swapLruHead_dosCalls]; exact hgoes.2)]
      rw [hfile, hpos, hr.swapFiles, hr.data, swapLruHead_dosCalls]
    · refine Evicted.of_same h hne (fun hc => hgoes hc.2) ?_
      rw [ht, storePage_stops (fun hc => hgoes (hseek.mp hc)), called, swapLruHead_dosCalls,
        evictCalls, if_pos hd, if_neg hgoes]
  · have hdu : ¬((s.swapLruHead i).pages i).dirty = true := by rw [hr.dirty]; exact hd
    refine Evicted.of_same h hne (fun hc => hd hc.1) ?_
    have ht : evicted env s i = s.swapLruHead i := if_neg hdu
    rw [ht, evictCalls, if_neg hd, Nat.add_zero, ← swapLruHead_dosCalls i]

/-! ## Loading a page -/

/-- The seek goes through and the read is not cut short. -/
def LoadFull (env : SwapEnv) (s : SwapMemory cfg) (pageAddr : Nat) : Prop :=
  ∃ f, s.swapFiles (s.lookupSwapFile pageAddr) = some f ∧ env.fault s.dosCalls = none
    ∧ loadedBytes env s f pageAddr = cfg.pageSize

theorem loadedBytes_full_iff (f : DosFile) (pageAddr : Nat) :
    loadedBytes env s f pageAddr = cfg.pageSize
      ↔ transferred (env.fault (s.dosCalls + 1)) cfg.pageSize = cfg.pageSize
        ∧ (pageAddr &&& s.filePosMask) + cfg.pageSize ≤ f.size := by
  have hle := transferred_le (env.fault (s.dosCalls + 1)) cfg.pageSize
  have hpos := cfg.pageSize_pos
  unfold loadedBytes
  constructor
  · intro h
    refine ⟨?_, ?_⟩
    · exact le_antisymm hle (h.symm.le.trans (min_le_left _ _))
    · have hsize : cfg.pageSize ≤ f.size - (pageAddr &&& s.filePosMask) :=
        h.symm.le.trans (min_le_right _ _)
      omega
  · rintro ⟨hfull, hsize⟩
    rw [hfull]
    exact min_eq_left (by omega)

/-- A load changes page `i` only. Its address is the new one, and its data what the file has, if and
only if the load was not cut short. -/
structure LoadOutcome (env : SwapEnv) (s t : SwapMemory cfg) (i : Fin cfg.pages) (pageAddr : Nat) :
    Prop where
  links : t.links = s.links
  mask : t.filePosMask = s.filePosMask
  shift : t.fileNoShift = s.fileNoShift
  stored : t.stored = s.stored
  others : ∀ k, k ≠ i → t.pages k = s.pages k
  full : LoadFull env s pageAddr → (t.pages i).addr = pageAddr
  block : LoadFull env s pageAddr → t.cache.block i = s.stored (pageAddr / cfg.pageSize)
  short : ¬LoadFull env s pageAddr → (t.pages i).addr = (s.pages i).addr

/-- A load that is not cut short gets what the file has for the page. -/
theorem loaded_data {f : DosFile} {pageAddr : Nat} (hdvd : cfg.pageSize ∣ pageAddr)
    (hf : s.swapFiles (s.lookupSwapFile pageAddr) = some f)
    (hn : loadedBytes env s f pageAddr = cfg.pageSize) (old : Nat → Byte) :
    Bytes.readAt (Bytes.writeAt old 0
      (Bytes.readAt f.data (pageAddr &&& s.filePosMask) (loadedBytes env s f pageAddr)))
      0 cfg.pageSize = s.stored (pageAddr / cfg.pageSize) := by
  have hpage : pageAddr / cfg.pageSize * cfg.pageSize = pageAddr := Nat.div_mul_cancel hdvd
  have hself := Bytes.readAt_writeAt_self old 0
    (Bytes.readAt f.data (pageAddr &&& s.filePosMask) cfg.pageSize)
  rw [Bytes.readAt_length] at hself
  have hsize := ((loadedBytes_full_iff f pageAddr).mp hn).2
  rw [hn, hself, stored_of_file (f := f) (by rw [fileOf, hpage, hf])
    (by rw [posOf, hpage]; exact hsize), posOf, hpage]

theorem loadPage_outcome (env : SwapEnv) (s : SwapMemory cfg) (i : Fin cfg.pages) {pageAddr : Nat}
    (hdvd : cfg.pageSize ∣ pageAddr) :
    LoadOutcome env s (s.loadPage env pageAddr i) i pageAddr := by
  by_cases hgoes : SeekGoes env s s.dosCalls (s.lookupSwapFile pageAddr)
  · obtain ⟨f, hf⟩ := Option.isSome_iff_exists.mp hgoes.1
    have ht := loadPage_goes i hf hgoes.2
    simp only at ht
    have hdata : loadedBytes env s f pageAddr = cfg.pageSize → _ := fun hn =>
      loaded_data hdvd hf hn (s.pages i).data
    generalize s.loadPage env pageAddr i = t at ht ⊢
    generalize Bytes.writeAt (s.pages i).data 0
      (Bytes.readAt f.data (pageAddr &&& s.filePosMask) (loadedBytes env s f pageAddr)) = data
        at ht hdata
    -- the seek went through, so only the length of the read decides
    have hfull : LoadFull env s pageAddr ↔ loadedBytes env s f pageAddr = cfg.pageSize := by
      constructor
      · rintro ⟨g, hg, -, hn⟩
        rw [hf] at hg
        cases hg
        exact hn
      · exact fun hn => ⟨f, hf, hgoes.2, hn⟩
    have hpage : t.pages i = (if loadedBytes env s f pageAddr = cfg.pageSize then
        { s.pages i with addr := pageAddr, dirty := false, data := data }
        else { s.pages i with data := data }) := by
      rw [ht]
      exact Function.update_self _ _ _
    have hother : ∀ k, k ≠ i → t.pages k = s.pages k := by
      intro k hk
      rw [ht]
      exact Function.update_of_ne hk _ _
    have hmask : t.filePosMask = s.filePosMask := by rw [ht]
    have hshift : t.fileNoShift = s.fileNoShift := by rw [ht]
    refine ⟨?_, hmask, hshift, ?_, hother, ?_, ?_, ?_⟩
    · rw [ht]
      refine setPage_links ?_ ?_
      · split <;> rfl
      · split <;> rfl
    · funext q
      rw [stored_update (s.lookupSwapFile pageAddr) (by rw [ht]) hmask hshift]
      split
      · rename_i hsame
        rw [stored_eq (by rw [hsame]; exact hf)]
        rfl
      · rfl
    · intro hn
      rw [hpage, if_pos (hfull.mp hn)]
    · intro hn
      have hblock : t.cache.block i = Bytes.readAt (t.pages i).data 0 cfg.pageSize := rfl
      rw [hblock, hpage, if_pos (hfull.mp hn)]
      exact hdata (hfull.mp hn)
    · intro hn
      rw [hpage, if_neg fun hc => hn (hfull.mpr hc)]
  · have hnot : ¬LoadFull env s pageAddr := by
      rintro ⟨f, hf, hk, -⟩
      exact hgoes ⟨by rw [hf]; rfl, hk⟩
    rw [loadPage_stops hgoes]
    exact ⟨rfl, rfl, rfl, rfl, fun _ _ => rfl, fun hc => absurd hc hnot,
      fun hc => absurd hc hnot, fun _ => rfl⟩

theorem LoadOutcome.addr {t : SwapMemory cfg} {i : Fin cfg.pages} {pageAddr : Nat}
    (ht : LoadOutcome env s t i pageAddr) :
    (t.pages i).addr = pageAddr ∨ (t.pages i).addr = (s.pages i).addr := by
  by_cases hfull : LoadFull env s pageAddr
  · exact Or.inl (ht.full hfull)
  · exact Or.inr (ht.short hfull)

theorem LoadOutcome.shape {t : SwapMemory cfg} {i : Fin cfg.pages} {pageAddr : Nat}
    (ht : LoadOutcome env s t i pageAddr) (h : s.Shape j l) (hdvd : cfg.pageSize ∣ pageAddr) :
    t.Shape j l where
  layout := ⟨ht.mask.trans h.layout.mask, ht.shift.trans h.layout.shift, h.layout.le,
    fun k hk => absurd hk (Nat.not_lt_zero k)⟩
  aligned := by
    intro k
    by_cases hk : k = i
    · subst hk
      rcases ht.addr with he | he
      · rw [he]
        exact hdvd
      · rw [he]
        exact h.aligned k
    · rw [ht.others k hk]
      exact h.aligned k
  linked := by
    rw [ht.links]
    exact h.linked
  all := h.all

/-- The load that follows a write-back. -/
theorem Evicted.loadFull_iff {t : SwapMemory cfg} {i : Fin cfg.pages} (h : Evicted env s t j l i)
    (pageAddr : Nat) : LoadFull env t pageAddr ↔ LoadGoes env s i pageAddr := by
  have hfile : t.lookupSwapFile pageAddr = s.lookupSwapFile pageAddr := by
    rw [lookupSwapFile, lookupSwapFile, h.shift]
  constructor
  · rintro ⟨f, hf, hk, hn⟩
    obtain ⟨hread, hsize⟩ := (loadedBytes_full_iff f pageAddr).mp hn
    rw [hfile] at hf
    rw [h.dosCalls] at hk hread
    rw [h.mask, h.sizes _ f hf] at hsize
    exact ⟨⟨by rw [← h.opened, hf]; rfl, hk⟩, hread, hsize⟩
  · rintro ⟨⟨hopen, hk⟩, hread, hsize⟩
    obtain ⟨f, hf⟩ := Option.isSome_iff_exists.mp ((h.opened _).trans hopen)
    refine ⟨f, by rw [hfile, hf], by rw [h.dosCalls, hk], ?_⟩
    rw [loadedBytes_full_iff, h.dosCalls, h.mask, h.sizes _ f hf]
    exact ⟨hread, hsize⟩

/-! ## A lookup -/

/-- A lookup finds the first page of the address or replaces the last page of the list. -/
theorem lookup_cases (h : s.Shape j l) (env : SwapEnv) (addr : Nat) :
    (∃ i, l.find? (s.hasAddr (cfg.pageAddr addr)) = some i ∧ LookupSafe env s addr
        ∧ s.lookupPage env addr = some (if i ≠ s.lruListHead then s.swapLruHead i else s, i))
      ∨ l.find? (s.hasAddr (cfg.pageAddr addr)) = none ∧ ∃ i, l.getLast? = some i
        ∧ (LookupSafe env s addr ↔ LoadGoes env s i (cfg.pageAddr addr)
          ∧ HasPage s (cfg.pageAddr addr) ∧ Spared env s i)
        ∧ s.lookupPage env addr
          = some ((evicted env s i).loadPage env (cfg.pageAddr addr) i, i) := by
  have hsearch := h.search (cfg.pageAddr addr)
  cases hf : l.find? (s.hasAddr (cfg.pageAddr addr)) with
  | some i =>
      rw [hf] at hsearch
      simp only at hsearch
      refine Or.inl ⟨i, rfl, ?_, ?_⟩
      · rw [LookupSafe, hsearch]
        trivial
      · simp only [lookupPage, hsearch]
  | none =>
      rw [hf] at hsearch
      have hne : l ≠ [] := by
        intro hnil
        have := h.all s.lruListHead
        rw [hnil] at this
        exact List.not_mem_nil this
      have hlast := List.getLast?_eq_some_getLast hne
      simp only [hlast, Option.map_some] at hsearch
      refine Or.inr ⟨rfl, l.getLast hne, hlast, ?_, ?_⟩
      · rw [LookupSafe, hsearch]
      · simp only [lookupPage, hsearch, evicted]

/-! ## The shape after `mem_init` -/

/-- What the layout loop finds is a layout, whatever the file size. -/
theorem swapLayout_shape {n filePosMask fileNoShift : Nat} (hn : cfg.pageSize ∣ n)
    (h : swapLayout n = some (filePosMask, fileNoShift)) :
    filePosMask = 2 ^ fileNoShift - 1 ∧ cfg.pageAddrShift ≤ fileNoShift := by
  -- the loop does not end on an empty file
  have hzero : n ≠ 0 := by
    rintro rfl
    have hnone := layoutLoop_none 32 0 32 0 0 (le_refl 32)
    rw [Nat.mul_zero] at hnone
    rw [swapLayout, hnone] at h
    cases h
  obtain ⟨k, q, hodd, rfl⟩ := Nat.exists_eq_two_pow_mul_odd hzero
  have hq : q % 2 = 1 := Nat.odd_iff.mp hodd
  by_cases hk : k < 32
  · rw [swapLayout_eq k q hq hk] at h
    cases h
    refine ⟨rfl, ?_⟩
    rw [cfg.pageSize_eq] at hn
    have hcop : Nat.Coprime (2 ^ cfg.pageAddrShift) q :=
      Nat.Coprime.pow_left _ (Nat.coprime_two_left.mpr hodd)
    exact (Nat.pow_dvd_pow_iff_le_right (by decide)).mp (hcop.dvd_of_dvd_mul_right hn)
  · rw [swapLayout, layoutLoop_none k q 32 0 0 (by omega)] at h
    cases h

/-- The same pages in the same order. -/
def SamePages (s t : SwapMemory cfg) : Prop := t.pages = s.pages ∧ t.lruListHead = s.lruListHead

theorem SamePages.trans {t u : SwapMemory cfg} (h : SamePages s t) (h' : SamePages t u) :
    SamePages s u := ⟨h'.1.trans h.1, h'.2.trans h.2⟩

theorem dosFSeekEnd_pages (env : SwapEnv) (s : SwapMemory cfg) (file : Nat) :
    SamePages s (s.dosFSeekEnd env file).1 := by
  unfold dosFSeekEnd
  split <;> exact ⟨rfl, rfl⟩

theorem dosFTell_pages (env : SwapEnv) (s : SwapMemory cfg) (file : Nat) :
    SamePages s (s.dosFTell env file).1 := by
  unfold dosFTell
  split <;> exact ⟨rfl, rfl⟩

theorem dosFWrite_pages (env : SwapEnv) (s : SwapMemory cfg) (file : Nat) (bs : List Byte) :
    SamePages s (s.dosFWrite env file bs).1 := by
  unfold dosFWrite
  split <;> exact ⟨rfl, rfl⟩

theorem growFile_pages (env : SwapEnv) (fileSize file fuel : Nat) {s t : SwapMemory cfg}
    {swapPos : Nat} (h : s.growFile env fileSize file fuel swapPos = some t) : SamePages s t := by
  induction fuel generalizing s swapPos with
  | zero =>
      cases h
      exact ⟨rfl, rfl⟩
  | succ fuel ih =>
      have hwrite := dosFWrite_pages env s file (List.replicate cfg.pageSize 0#8)
      simp only [growFile] at h
      split at h
      · split at h
        · cases h
        · exact hwrite.trans (ih h)
      · cases h
        exact ⟨rfl, rfl⟩

theorem initFile_pages {fileSize i : Nat} {t : SwapMemory cfg}
    (h : s.initFile env fileSize i = .ok t) : SamePages s t := by
  rcases hf : env.openFile i with _ | f
  · simp only [initFile, hf] at h
    cases h
  have hopen : SamePages s (s.setFile i { f with pos := 0 }) := ⟨rfl, rfl⟩
  have htell := (hopen.trans (dosFSeekEnd_pages env _ i)).trans (dosFTell_pages env _ i)
  simp only [initFile, hf] at h
  split at h
  · cases h
  rename_i u hgrow
  have hu := htell.trans (growFile_pages _ _ _ _ hgrow)
  split at h
  · cases h
    exact ⟨hu.1, hu.2⟩
  · cases h

theorem initFiles_pages {fileSize : Nat} (files : List Nat) {t : SwapMemory cfg}
    (h : files.foldlM (initFile env fileSize) s = .ok t) : SamePages s t := by
  induction files generalizing s with
  | nil =>
      cases h
      exact ⟨rfl, rfl⟩
  | cons i files ih =>
      rw [List.foldlM_cons] at h
      rcases hi : s.initFile env fileSize i with e | u
      · rw [hi] at h
        cases h
      · rw [hi] at h
        exact (initFile_pages hi).trans (ih h)

/-- A page after its round of the loop that loads the first pages, whether it was loaded or not. -/
structure Placed (s : SwapMemory cfg) (i : Fin cfg.pages) : Prop where
  aligned : cfg.pageSize ∣ (s.pages i).addr
  next : (s.pages i).next = if h : i.val + 1 < cfg.pages then some ⟨i + 1, h⟩ else none
  prev : (s.pages i).prev = if 0 < i.val then some ⟨i - 1, pred_lt i⟩ else none

theorem initPage_placed (env : SwapEnv) (i : Fin cfg.pages) (hfresh : s.Fresh i)
    (haligned : cfg.pageSize ∣ (s.pages i).addr) :
    (s.initPage env i).Placed i ∧ (∀ k, k ≠ i → (s.initPage env i).pages k = s.pages k)
      ∧ (s.initPage env i).lruListHead = s.lruListHead := by
  have hload := loadPage_outcome env s i (Nat.dvd_mul_left cfg.pageSize i.val)
  have hnext := congrFun (congrArg Links.next hload.links) i
  have hprev := congrFun (congrArg Links.prev hload.links) i
  rw [initPage_eq]
  have hr := linkPage_relinked (s.loadPage env (i * cfg.pageSize) i) i
  obtain ⟨hn, hp, hk, hh⟩ := linkPage_pages (s.loadPage env (i * cfg.pageSize) i) i
    ⟨hnext.trans hfresh.1, hprev.trans hfresh.2⟩
  refine ⟨⟨?_, hn, hp⟩, ?_, hh.trans (congrArg Links.head hload.links)⟩
  · rw [hr.addr]
    rcases hload.addr with he | he
    · rw [he]
      exact Nat.dvd_mul_left _ _
    · rw [he]
      exact haligned
  · intro k hki
    rw [hk k hki, hload.others k hki]

theorem initPages_placed (env : SwapEnv) (is : List (Fin cfg.pages)) (hnd : is.Nodup)
    (hfresh : ∀ i ∈ is, s.Fresh i ∧ cfg.pageSize ∣ (s.pages i).addr) :
    let t := is.foldl (initPage env) s
    (∀ i ∈ is, t.Placed i) ∧ (∀ i, i ∉ is → t.pages i = s.pages i)
      ∧ t.lruListHead = s.lruListHead := by
  induction is generalizing s with
  | nil => exact ⟨fun i hi => absurd hi List.not_mem_nil, fun _ _ => rfl, rfl⟩
  | cons k is ih =>
      obtain ⟨hk, hnd⟩ := List.nodup_cons.mp hnd
      have hstart := hfresh k List.mem_cons_self
      obtain ⟨hplaced, hother, hhead⟩ := initPage_placed env k hstart.1 hstart.2
      have hfresh' : ∀ i ∈ is, (s.initPage env k).Fresh i
          ∧ cfg.pageSize ∣ ((s.initPage env k).pages i).addr := by
        intro i hi
        rw [Fresh, hother i fun he => hk (he ▸ hi)]
        exact hfresh i (List.mem_cons_of_mem _ hi)
      obtain ⟨hall, hrest, hhead'⟩ := ih hnd hfresh'
      rw [List.foldl_cons]
      refine ⟨?_, ?_, hhead'.trans hhead⟩
      · intro i hi
        by_cases hik : i = k
        · subst hik
          exact ⟨by rw [hrest i hk]; exact hplaced.aligned, by rw [hrest i hk]; exact hplaced.next,
            by rw [hrest i hk]; exact hplaced.prev⟩
        · exact hall i ((List.mem_cons.mp hi).resolve_left hik)
      · intro i hi
        have hik : i ≠ k := fun he => hi (he ▸ List.mem_cons_self)
        rw [hrest i fun hm => hi (List.mem_cons_of_mem _ hm), hother i hik]

/-- **After `mem_init`**, whatever failed on the way. -/
theorem memInit_shape {size nSwapFiles : Nat} {self : SwapMemory cfg}
    (hinit : memInit cfg env size nSwapFiles = .ready self) :
    ∃ j, self.Shape j (List.finRange cfg.pages) := by
  have hlayout := (memInit_layout hinit).1
  obtain ⟨hmask, hle⟩ := swapLayout_shape (cfg.dvd_alignUp _) hlayout
  obtain ⟨filePosMask, fileNoShift, u, -, hfiles, hself⟩ := memInit_steps hinit
  have hu := initFiles_pages _ hfiles
  have hfresh : ∀ i ∈ List.finRange cfg.pages, u.Fresh i ∧ cfg.pageSize ∣ (u.pages i).addr := by
    intro i _
    rw [Fresh, hu.1]
    exact ⟨⟨rfl, rfl⟩, Nat.dvd_zero _⟩
  obtain ⟨hplaced, -, hhead⟩ :=
    initPages_placed env (List.finRange cfg.pages) (List.nodup_finRange _) hfresh
  rw [← hself] at hplaced hhead
  have hall : ∀ i, self.Placed i := fun i => hplaced i (List.mem_finRange i)
  exact ⟨self.fileNoShift,
    ⟨hmask, rfl, hle, fun i hi => absurd hi (Nat.not_lt_zero i)⟩,
    fun i => (hall i).aligned,
    linked_of_pointers (fun i => (hall i).next) (fun i => (hall i).prev) (hhead.trans hu.2),
    List.mem_finRange⟩

end SwapMemory

end RV640
