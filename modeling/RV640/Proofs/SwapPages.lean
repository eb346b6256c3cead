import RV640.Lib.LinkedList
import RV640.Lib.WriteBack
import RV640.Proofs.SwapLayout

set_option autoImplicit false

/-! # The page cache

The pages of the swap memory are a recency list and a write-back cache in front of the swap files:
`links` and `cache` read them as such. Each function of the source is then one operation of these
two, as long as the calls to DOS succeed.
-/

namespace RV640

open Bits

/-! ## The bytes of a file -/

namespace DosFile

/-- The bytes that a read of `n` bytes at `pos` gets: none beyond the end of the file. -/
def bytesAt (f : DosFile) (pos n : Nat) : List Byte := ((f.seekSet pos).read n).2

theorem bytesAt_eq (f : DosFile) (pos n : Nat) :
    f.bytesAt pos n = Bytes.readAt f.data pos (min n (f.size - pos)) := rfl

theorem bytesAt_length (f : DosFile) (pos n : Nat) :
    (f.bytesAt pos n).length = min n (f.size - pos) := Bytes.readAt_length _ _ _

/-- A range inside the file. -/
theorem bytesAt_full {f : DosFile} {pos n : Nat} (h : pos + n ≤ f.size) :
    f.bytesAt pos n = Bytes.readAt f.data pos n := by
  rw [bytesAt_eq, min_eq_left (by omega)]

theorem bytesAt_length_eq_iff {f : DosFile} {pos n : Nat} (hn : 0 < n) :
    (f.bytesAt pos n).length = n ↔ pos + n ≤ f.size := by
  rw [bytesAt_length]
  omega

/-- A file that grew, and has the same bytes where it had some. -/
theorem bytesAt_prefix {f g : DosFile} {pos n : Nat} (hsize : f.size ≤ g.size)
    (hbyte : ∀ k, k < n → g.data (pos + k) = f.data (pos + k)) :
    f.bytesAt pos n <+: g.bytesAt pos n := by
  have hle : min n (f.size - pos) ≤ min n (g.size - pos) := by omega
  obtain ⟨m, hm⟩ := Nat.exists_eq_add_of_le hle
  have hsame : Bytes.readAt g.data pos (min n (f.size - pos)) = f.bytesAt pos n := by
    rw [bytesAt_eq]
    apply Bytes.readAt_congr
    intro k hk
    exact hbyte k (by omega)
  rw [bytesAt_eq g, hm, Bytes.readAt_add, hsame]
  exact List.prefix_append _ _

end DosFile

namespace SwapMemory

variable {cfg : MemCfg}

/-! ## The recency list -/

/-- The pointers of the pages. -/
def links (self : SwapMemory cfg) : Links (Fin cfg.pages) where
  next := fun i => (self.pages i).next
  prev := fun i => (self.pages i).prev
  head := self.lruListHead

/-- What is read off the pages after an assignment to one of them. -/
theorem setPage_field {β : Type} (F : MemPage cfg → β) (self : SwapMemory cfg)
    (page : Fin cfg.pages) (p : MemPage cfg) :
    (fun k => F ((self.setPage page p).pages k))
      = Function.update (fun k => F (self.pages k)) page (F p) :=
  Function.comp_update F self.pages page p

/-- A field that the assignment leaves. -/
theorem setPage_same {β : Type} (F : MemPage cfg → β) {self : SwapMemory cfg}
    {page : Fin cfg.pages} {p : MemPage cfg} (h : F p = F (self.pages page)) (k : Fin cfg.pages) :
    F ((self.setPage page p).pages k) = F (self.pages k) := by
  have hfield := congrFun (setPage_field F self page p) k
  rwa [h, Function.update_eq_self page fun k => F (self.pages k)] at hfield

theorem setPage_links {self : SwapMemory cfg} {page : Fin cfg.pages} {p : MemPage cfg}
    (hnext : p.next = (self.pages page).next) (hprev : p.prev = (self.pages page).prev) :
    (self.setPage page p).links = self.links := by
  unfold links
  rw [Links.mk.injEq]
  exact ⟨funext (setPage_same MemPage.next hnext), funext (setPage_same MemPage.prev hprev), rfl⟩

@[simp] theorem setNext_links (self : SwapMemory cfg) (page : Fin cfg.pages)
    (x : Option (Fin cfg.pages)) : (self.setNext page x).links
      = { self.links with next := Function.update self.links.next page x } := by
  unfold links setNext
  rw [Links.mk.injEq]
  exact ⟨setPage_field MemPage.next self page _, funext (setPage_same MemPage.prev rfl), rfl⟩

@[simp] theorem setPrev_links (self : SwapMemory cfg) (page : Fin cfg.pages)
    (x : Option (Fin cfg.pages)) : (self.setPrev page x).links
      = { self.links with prev := Function.update self.links.prev page x } := by
  unfold links setPrev
  rw [Links.mk.injEq]
  exact ⟨funext (setPage_same MemPage.next rfl), setPage_field MemPage.prev self page _, rfl⟩

@[simp] theorem setHead_links (self : SwapMemory cfg) (page : Fin cfg.pages) :
    ({ self with lruListHead := page } : SwapMemory cfg).links = { self.links with head := page } :=
  rfl

/-- The first test of `_swapLruHead`: the page in front gets the page's `next`. -/
def skipNext (self : SwapMemory cfg) (page : Fin cfg.pages) : SwapMemory cfg :=
  match (self.pages page).prev with
  | some prev => self.setNext prev (self.pages page).next
  | none => self

/-- The second one: the page behind gets the page's `prev`. -/
def skipPrev (self : SwapMemory cfg) (page : Fin cfg.pages) : SwapMemory cfg :=
  match (self.pages page).next with
  | some next => self.setPrev next (self.pages page).prev
  | none => self

/-- The assignments after the tests. -/
def pushFront (self : SwapMemory cfg) (page : Fin cfg.pages) : SwapMemory cfg :=
  { ((self.setNext page (some self.lruListHead)).setPrev page none).setPrev
      self.lruListHead (some page) with
    lruListHead := page }

theorem swapLruHead_eq (self : SwapMemory cfg) (page : Fin cfg.pages) :
    self.swapLruHead page = ((self.skipNext page).skipPrev page).pushFront page := rfl

theorem skipNext_links (self : SwapMemory cfg) (page : Fin cfg.pages) :
    (self.skipNext page).links = self.links.skipNext page := by
  unfold SwapMemory.skipNext Links.skipNext
  cases hp : (self.pages page).prev with
  | none =>
      have hlink : self.links.prev page = none := hp
      rw [hlink]
  | some prev =>
      have hlink : self.links.prev page = some prev := hp
      rw [hlink]
      exact setNext_links _ _ _

theorem skipPrev_links (self : SwapMemory cfg) (page : Fin cfg.pages) :
    (self.skipPrev page).links = self.links.skipPrev page := by
  unfold SwapMemory.skipPrev Links.skipPrev
  cases hn : (self.pages page).next with
  | none =>
      have hlink : self.links.next page = none := hn
      rw [hlink]
  | some next =>
      have hlink : self.links.next page = some next := hn
      rw [hlink]
      exact setPrev_links _ _ _

theorem pushFront_links (self : SwapMemory cfg) (page : Fin cfg.pages) :
    (self.pushFront page).links = self.links.pushFront page := by
  unfold SwapMemory.pushFront
  rw [setHead_links, setPrev_links, setPrev_links, setNext_links]
  rfl

/-- `_swapLruHead` moves the page to the front of the list. -/
theorem swapLruHead_links (self : SwapMemory cfg) (page : Fin cfg.pages) :
    (self.swapLruHead page).links = self.links.moveToFront page := by
  rw [swapLruHead_eq, pushFront_links, skipPrev_links, skipNext_links, Links.moveToFront]

/-- The search of `_lookupPage` is a walk of the list. -/
theorem searchPage_eq (self : SwapMemory cfg) (pageAddr fuel : Nat) (page : Fin cfg.pages) :
    self.searchPage pageAddr fuel page
      = Links.walk self.links.next (fun i => decide ((self.pages i).addr = pageAddr))
          fuel page := by
  induction fuel generalizing page with
  | zero => rfl
  | succ fuel ih =>
      simp only [searchPage, Links.walk, decide_eq_true_eq]
      split
      · rfl
      · have hnext : self.links.next page = (self.pages page).next := rfl
        rw [hnext]
        cases (self.pages page).next with
        | none => rfl
        | some next => exact ih next

/-- Two memories that differ at most in the pointers. -/
structure Relinked (a b : SwapMemory cfg) : Prop where
  addr : ∀ i, (b.pages i).addr = (a.pages i).addr
  dirty : ∀ i, (b.pages i).dirty = (a.pages i).dirty
  data : ∀ i, (b.pages i).data = (a.pages i).data
  swapFiles : b.swapFiles = a.swapFiles
  mask : b.filePosMask = a.filePosMask
  shift : b.fileNoShift = a.fileNoShift
  devSize : b.devSize = a.devSize

namespace Relinked

theorem refl (a : SwapMemory cfg) : Relinked a a :=
  ⟨fun _ => rfl, fun _ => rfl, fun _ => rfl, rfl, rfl, rfl, rfl⟩

theorem trans {a b c : SwapMemory cfg} (h : Relinked a b) (h' : Relinked b c) : Relinked a c where
  addr := fun i => (h'.addr i).trans (h.addr i)
  dirty := fun i => (h'.dirty i).trans (h.dirty i)
  data := fun i => (h'.data i).trans (h.data i)
  swapFiles := h'.swapFiles.trans h.swapFiles
  mask := h'.mask.trans h.mask
  shift := h'.shift.trans h.shift
  devSize := h'.devSize.trans h.devSize

/-- An assignment to the pointers of one page. -/
theorem setPage {a : SwapMemory cfg} {page : Fin cfg.pages} {p : MemPage cfg}
    (haddr : p.addr = (a.pages page).addr) (hdirty : p.dirty = (a.pages page).dirty)
    (hdata : p.data = (a.pages page).data) : Relinked a (a.setPage page p) :=
  ⟨setPage_same MemPage.addr haddr, setPage_same MemPage.dirty hdirty,
    setPage_same MemPage.data hdata, rfl, rfl, rfl, rfl⟩

theorem setNext (a : SwapMemory cfg) (page : Fin cfg.pages) (x : Option (Fin cfg.pages)) :
    Relinked a (a.setNext page x) := setPage rfl rfl rfl

theorem setPrev (a : SwapMemory cfg) (page : Fin cfg.pages) (x : Option (Fin cfg.pages)) :
    Relinked a (a.setPrev page x) := setPage rfl rfl rfl

theorem setHead (a : SwapMemory cfg) (page : Fin cfg.pages) :
    Relinked a { a with lruListHead := page } :=
  ⟨fun _ => rfl, fun _ => rfl, fun _ => rfl, rfl, rfl, rfl, rfl⟩

theorem skipNext (a : SwapMemory cfg) (page : Fin cfg.pages) : Relinked a (a.skipNext page) := by
  unfold SwapMemory.skipNext
  split
  · exact setNext a _ _
  · exact refl a

theorem skipPrev (a : SwapMemory cfg) (page : Fin cfg.pages) : Relinked a (a.skipPrev page) := by
  unfold SwapMemory.skipPrev
  split
  · exact setPrev a _ _
  · exact refl a

theorem pushFront (a : SwapMemory cfg) (page : Fin cfg.pages) : Relinked a (a.pushFront page) :=
  (((setNext a _ _).trans (setPrev _ _ _)).trans (setPrev _ _ _)).trans (setHead _ _)

theorem swapLruHead (a : SwapMemory cfg) (page : Fin cfg.pages) :
    Relinked a (a.swapLruHead page) :=
  ((skipNext a page).trans (skipPrev _ page)).trans (pushFront _ page)

end Relinked

/-! ## The write-back cache -/

/-- The file of a page number. -/
def fileOf (self : SwapMemory cfg) (p : Nat) : Nat := self.lookupSwapFile (p * cfg.pageSize)

/-- Its position there. -/
def posOf (self : SwapMemory cfg) (p : Nat) : Nat := (p * cfg.pageSize) &&& self.filePosMask

/-- What the swap files hold for a page number: the bytes that a read of the page gets, fewer than
a page where the file ends before. -/
def stored (self : SwapMemory cfg) (p : Nat) : List Byte :=
  match self.swapFiles (self.fileOf p) with
  | some f => f.bytesAt (self.posOf p) cfg.pageSize
  | none => []

/-- The pages as a cache of page numbers. -/
def cache (self : SwapMemory cfg) : WriteBack (Fin cfg.pages) Nat (List Byte) where
  key := fun i => (self.pages i).addr / cfg.pageSize
  block := fun i => Bytes.readAt (self.pages i).data 0 cfg.pageSize
  dirty := fun i => (self.pages i).dirty
  store := self.stored

theorem Relinked.cache {a b : SwapMemory cfg} (h : Relinked a b) : b.cache = a.cache := by
  have hstored : b.stored = a.stored := by
    funext p
    simp only [stored, fileOf, posOf, lookupSwapFile, h.swapFiles, h.mask, h.shift]
  simp only [SwapMemory.cache, hstored, h.addr, h.data, h.dirty]

/-- The layout of `nFiles` open files of `2^j` bytes. -/
structure Layout (s : SwapMemory cfg) (j nFiles : Nat) : Prop where
  mask : s.filePosMask = 2 ^ j - 1
  shift : s.fileNoShift = j
  le : cfg.pageAddrShift ≤ j
  files : ∀ i, i < nFiles → ∃ f, s.swapFiles i = some f ∧ 2 ^ j ≤ f.size

section

variable {s : SwapMemory cfg} {j nFiles : Nat}

theorem Layout.fileOf_lt (h : s.Layout j nFiles) {p : Nat}
    (hp : p * cfg.pageSize < nFiles * 2 ^ j) : s.fileOf p < nFiles := by
  rw [fileOf, lookupSwapFile, h.shift, Nat.shiftRight_eq_div_pow]
  exact Nat.div_lt_of_lt_mul (by rwa [Nat.mul_comm (2 ^ j)])

/-- The files are long enough for every page in them. -/
theorem Layout.long (h : s.Layout j nFiles) {p : Nat} (hp : s.fileOf p < nFiles) {f : DosFile}
    (hf : s.swapFiles (s.fileOf p) = some f) : s.posOf p + cfg.pageSize ≤ f.size := by
  obtain ⟨g, hg, hsize⟩ := h.files _ hp
  obtain rfl : f = g := Option.some.inj (hf.symm.trans hg)
  have hpage : cfg.pageAddr (p * cfg.pageSize) = p * cfg.pageSize :=
    (cfg.pageAddr_eq_self_iff _).mpr (Nat.dvd_mul_left _ _)
  have := position_le h.le hpage
  rw [posOf, h.mask]
  omega

/-- A page inside the files has an open file that is long enough. -/
theorem Layout.file (h : s.Layout j nFiles) {p : Nat} (hp : p * cfg.pageSize < nFiles * 2 ^ j) :
    ∃ f, s.swapFiles (s.fileOf p) = some f ∧ s.posOf p + cfg.pageSize ≤ f.size := by
  obtain ⟨f, hf, -⟩ := h.files _ (h.fileOf_lt hp)
  exact ⟨f, hf, h.long (h.fileOf_lt hp) hf⟩

/-- Two pages of one file do not overlap in it. -/
theorem Layout.disjoint (h : s.Layout j nFiles) {p q : Nat} (hpq : p ≠ q)
    (hfile : s.fileOf p = s.fileOf q) :
    s.posOf p + cfg.pageSize ≤ s.posOf q ∨ s.posOf q + cfg.pageSize ≤ s.posOf p := by
  have hpos := cfg.pageSize_pos
  have hmul : ∀ r, ∃ k, s.posOf r = cfg.pageSize * k := by
    intro r
    refine ⟨r % 2 ^ (j - cfg.pageAddrShift), ?_⟩
    have hsplit : 2 ^ j = 2 ^ (j - cfg.pageAddrShift) * cfg.pageSize := by
      rw [cfg.pageSize_eq, ← pow_add, Nat.sub_add_cancel h.le]
    rw [posOf, h.mask, Nat.and_two_pow_sub_one_eq_mod, hsplit, Nat.mul_mod_mul_right, Nat.mul_comm]
  obtain ⟨k, hk⟩ := hmul p
  obtain ⟨l, hl⟩ := hmul q
  have hne : k ≠ l := by
    rintro rfl
    apply hpq
    have heq : p * cfg.pageSize = q * cfg.pageSize := by
      refine address_unique (j := j) ?_ ?_
      · rw [← h.shift]
        exact hfile
      · rw [← h.mask]
        exact hk.trans hl.symm
    exact Nat.eq_of_mul_eq_mul_right hpos heq
  rw [hk, hl]
  rcases Nat.lt_or_gt_of_ne hne with hlt | hlt
  · exact Or.inl (by rw [← Nat.mul_succ]; exact Nat.mul_le_mul_left _ hlt)
  · exact Or.inr (by rw [← Nat.mul_succ]; exact Nat.mul_le_mul_left _ hlt)

/-! ## The calls that succeed -/

variable {env : SwapEnv}

theorem dosFSeek_ok (hio : env.ioOk) {file : Nat} {f : DosFile} (hf : s.swapFiles file = some f)
    (offset : Nat) :
    s.dosFSeek env file offset = ((s.setFile file (f.seekSet offset)).called, true) := by
  simp only [dosFSeek, hf, hio s.dosCalls]

theorem dosFRead_ok (hio : env.ioOk) {file : Nat} {f : DosFile} (hf : s.swapFiles file = some f)
    {size : Nat} (hsize : f.pos + size ≤ f.size) :
    s.dosFRead env file size = ((s.setFile file { f with pos := f.pos + size }).called,
      Bytes.readAt f.data f.pos size) := by
  have hmin : min size (f.size - f.pos) = size := by omega
  simp only [dosFRead, hf, hio s.dosCalls, transferred, DosFile.read, hmin]

theorem dosFWrite_ok (hio : env.ioOk) {file : Nat} {f : DosFile} (hf : s.swapFiles file = some f)
    (bs : List Byte) :
    s.dosFWrite env file bs = ((s.setFile file (f.write bs)).called, bs.length) := by
  simp only [dosFWrite, hf, hio s.dosCalls, transferred, List.take_length]

@[simp] theorem setFile_swapFiles (file : Nat) (f : DosFile) :
    (s.setFile file f).swapFiles = Function.update s.swapFiles file (some f) := rfl

@[simp] theorem called_swapFiles : s.called.swapFiles = s.swapFiles := rfl

/-- The memory after a seek and a transfer that leave `f` in the place of the file. -/
theorem storePage_ok (hio : env.ioOk) (i : Fin cfg.pages) {f : DosFile}
    (hf : s.swapFiles (s.lookupSwapFile (s.pages i).addr) = some f) :
    s.storePage env i =
      { s with
        swapFiles := Function.update s.swapFiles (s.lookupSwapFile (s.pages i).addr)
          (some ((f.seekSet ((s.pages i).addr &&& s.filePosMask)).write
            (Bytes.readAt (s.pages i).data 0 cfg.pageSize)))
        dosCalls := s.dosCalls + 2 } := by
  simp only [storePage, dosFSeek_ok hio hf]
  rw [dosFWrite_ok hio (f := f.seekSet ((s.pages i).addr &&& s.filePosMask))]
  · simp only [setFile, called, Function.update_idem]
  · simp

theorem loadPage_ok (hio : env.ioOk) (pageAddr : Nat) (i : Fin cfg.pages) {f : DosFile}
    (hf : s.swapFiles (s.lookupSwapFile pageAddr) = some f)
    (hsize : (pageAddr &&& s.filePosMask) + cfg.pageSize ≤ f.size) :
    s.loadPage env pageAddr i =
      { s with
        pages := Function.update s.pages i { s.pages i with
          addr := pageAddr, dirty := false,
          data := Bytes.writeAt (s.pages i).data 0
            (Bytes.readAt f.data (pageAddr &&& s.filePosMask) cfg.pageSize) }
        swapFiles := Function.update s.swapFiles (s.lookupSwapFile pageAddr)
          (some { f with pos := (pageAddr &&& s.filePosMask) + cfg.pageSize })
        dosCalls := s.dosCalls + 2 } := by
  simp only [loadPage, dosFSeek_ok hio hf]
  rw [dosFRead_ok hio (f := f.seekSet (pageAddr &&& s.filePosMask))]
  · simp [setFile, called, setPage, DosFile.seekSet, Function.update_idem]
  · simp
  · exact hsize

/-- Changes of a file that keep its length keep the layout. -/
theorem Layout.update {t : SwapMemory cfg} (h : s.Layout j nFiles) {file : Nat} {f f' : DosFile}
    (hf : s.swapFiles file = some f) (hsize : f.size ≤ f'.size)
    (hfiles : t.swapFiles = Function.update s.swapFiles file (some f'))
    (hmask : t.filePosMask = s.filePosMask) (hshift : t.fileNoShift = s.fileNoShift) :
    t.Layout j nFiles where
  mask := hmask.trans h.mask
  shift := hshift.trans h.shift
  le := h.le
  files := by
    intro i hi
    rw [hfiles]
    by_cases hif : i = file
    · subst hif
      obtain ⟨g, hg, hsz⟩ := h.files i hi
      rw [hf] at hg
      cases hg
      exact ⟨f', Function.update_self _ _ _, hsz.trans hsize⟩
    · rw [Function.update_of_ne hif]
      exact h.files i hi

/-- What the files hold once one of them was replaced. -/
theorem stored_update {t : SwapMemory cfg} (file : Nat) {f' : DosFile}
    (hfiles : t.swapFiles = Function.update s.swapFiles file (some f'))
    (hmask : t.filePosMask = s.filePosMask) (hshift : t.fileNoShift = s.fileNoShift) (q : Nat) :
    t.stored q = if s.fileOf q = file then f'.bytesAt (s.posOf q) cfg.pageSize
      else s.stored q := by
  have hfile : t.fileOf q = s.fileOf q := by simp only [fileOf, lookupSwapFile, hshift]
  have hpos : t.posOf q = s.posOf q := by simp only [posOf, hmask]
  simp only [stored, hfile, hpos, hfiles]
  by_cases h : s.fileOf q = file
  · rw [if_pos h, h, Function.update_self]
  · rw [if_neg h, Function.update_of_ne h]

theorem stored_eq {f : DosFile} {q : Nat} (hf : s.swapFiles (s.fileOf q) = some f) :
    s.stored q = f.bytesAt (s.posOf q) cfg.pageSize := by
  simp only [stored, hf]

theorem stored_of_file {f : DosFile} {q : Nat} (hf : s.swapFiles (s.fileOf q) = some f)
    (hsize : s.posOf q + cfg.pageSize ≤ f.size) :
    s.stored q = Bytes.readAt f.data (s.posOf q) cfg.pageSize := by
  rw [stored_eq hf, DosFile.bytesAt_full hsize]

/-- A page address as a page number. -/
theorem mul_key (i : Fin cfg.pages) (h : cfg.pageSize ∣ (s.pages i).addr) :
    s.cache.key i * cfg.pageSize = (s.pages i).addr := Nat.div_mul_cancel h

/-- `_storePage` writes the block of the page back. -/
theorem storePage_spec (hio : env.ioOk) (hl : s.Layout j nFiles) (i : Fin cfg.pages)
    (halign : cfg.pageSize ∣ (s.pages i).addr) (hin : (s.pages i).addr < nFiles * 2 ^ j) :
    (s.storePage env i).cache = s.cache.writeBack i ∧ (s.storePage env i).links = s.links
      ∧ (s.storePage env i).pages = s.pages ∧ (s.storePage env i).Layout j nFiles
      ∧ (s.storePage env i).devSize = s.devSize := by
  have hkey := mul_key (s := s) i halign
  obtain ⟨f, hf, hsize⟩ := hl.file (p := s.cache.key i) (by rw [hkey]; exact hin)
  have hfile : s.fileOf (s.cache.key i) = s.lookupSwapFile (s.pages i).addr := by
    rw [fileOf, hkey]
  have hpos : s.posOf (s.cache.key i) = (s.pages i).addr &&& s.filePosMask := by
    rw [posOf, hkey]
  have hf' := hf
  rw [hfile] at hf'
  have hstore := storePage_ok hio i hf'
  rw [← hfile, ← hpos] at hstore
  have hlayout : (s.storePage env i).Layout j nFiles :=
    hl.update hf (le_max_left _ _) (by rw [hstore]) (by rw [hstore]) (by rw [hstore])
  refine ⟨?_, by rw [hstore]; rfl, by rw [hstore], hlayout, by rw [hstore]⟩
  have hstored : (s.storePage env i).stored
      = Function.update s.stored (s.cache.key i) (s.cache.block i) := by
    funext q
    rw [stored_update (s.fileOf (s.cache.key i)) (by rw [hstore]) (by rw [hstore])
      (by rw [hstore])]
    have hlen : (Bytes.readAt (s.pages i).data 0 cfg.pageSize).length = cfg.pageSize :=
      Bytes.readAt_length _ _ _
    by_cases hq : q = s.cache.key i
    · subst hq
      rw [if_pos rfl, Function.update_self, DosFile.bytesAt_full (le_max_of_le_left hsize)]
      -- the block is read back from where it was written
      have := Bytes.readAt_writeAt_self f.data (s.posOf (s.cache.key i))
        (Bytes.readAt (s.pages i).data 0 cfg.pageSize)
      rwa [hlen] at this
    · rw [Function.update_of_ne hq]
      split
      · rename_i hsame
        have hfq : s.swapFiles (s.fileOf q) = some f := by rw [hsame, hf]
        have hlong : s.posOf q + cfg.pageSize ≤ f.size :=
          hl.long (by rw [hsame]; exact hl.fileOf_lt (by rw [hkey]; exact hin)) hfq
        rw [stored_of_file hfq hlong, DosFile.bytesAt_full (le_max_of_le_left hlong)]
        apply Bytes.readAt_congr
        intro k hk
        apply Bytes.writeAt_outside
        have hdisj := hl.disjoint hq hsame
        rw [hlen]
        simp only [DosFile.seekSet]
        omega
      · rfl
  simp only [cache, WriteBack.writeBack, WriteBack.mk.injEq]
  exact ⟨by rw [hstore], by rw [hstore], by rw [hstore], hstored⟩

/-- `_loadPage` loads the block of the page address. -/
theorem loadPage_spec (hio : env.ioOk) (hl : s.Layout j nFiles) (i : Fin cfg.pages) {p : Nat}
    (hin : p * cfg.pageSize < nFiles * 2 ^ j) :
    (s.loadPage env (p * cfg.pageSize) i).cache = s.cache.load i p
      ∧ (s.loadPage env (p * cfg.pageSize) i).links = s.links
      ∧ ((s.loadPage env (p * cfg.pageSize) i).pages i).addr = p * cfg.pageSize
      ∧ (∀ k, k ≠ i → (s.loadPage env (p * cfg.pageSize) i).pages k = s.pages k)
      ∧ (s.loadPage env (p * cfg.pageSize) i).Layout j nFiles
      ∧ (s.loadPage env (p * cfg.pageSize) i).devSize = s.devSize := by
  obtain ⟨f, hf, hsize⟩ := hl.file hin
  have hload := loadPage_ok hio (p * cfg.pageSize) i hf hsize
  set t := s.loadPage env (p * cfg.pageSize) i with ht
  have hlayout : t.Layout j nFiles := by
    refine hl.update hf ?_ (by rw [hload]; rfl) (by rw [hload]) (by rw [hload])
    exact le_refl _
  have hstored : t.stored = s.stored := by
    funext q
    rw [stored_update (s.fileOf p) (by rw [hload]; rfl) (by rw [hload]) (by rw [hload])]
    split
    · rename_i hsame
      rw [stored_eq (by rw [hsame]; exact hf)]
      rfl
    · rfl
  have hpage : t.pages i = { s.pages i with
      addr := p * cfg.pageSize, dirty := false,
      data := Bytes.writeAt (s.pages i).data 0
        (Bytes.readAt f.data (p * cfg.pageSize &&& s.filePosMask) cfg.pageSize) } := by
    rw [hload]
    exact Function.update_self _ _ _
  have hother : ∀ k, k ≠ i → t.pages k = s.pages k := by
    intro k hk
    rw [hload]
    exact Function.update_of_ne hk _ _
  have hblock : Bytes.readAt (t.pages i).data 0 cfg.pageSize = s.stored p := by
    rw [stored_of_file hf hsize, hpage]
    have := Bytes.readAt_writeAt_self (s.pages i).data 0
      (Bytes.readAt f.data (s.posOf p) cfg.pageSize)
    rwa [Bytes.readAt_length] at this
  refine ⟨?_, ?_, by rw [hpage], hother, hlayout, by rw [hload]⟩
  · simp only [cache, WriteBack.load, WriteBack.mk.injEq]
    refine ⟨?_, ?_, ?_, hstored⟩
    · funext k
      by_cases hk : k = i
      · subst hk
        rw [Function.update_self, hpage, Nat.mul_div_cancel _ cfg.pageSize_pos]
      · rw [Function.update_of_ne hk, hother k hk]
    · funext k
      by_cases hk : k = i
      · subst hk
        rw [Function.update_self, hblock]
      · rw [Function.update_of_ne hk, hother k hk]
    · funext k
      by_cases hk : k = i
      · subst hk
        rw [Function.update_self, hpage]
      · rw [Function.update_of_ne hk, hother k hk]
  · have hnext : ∀ k, (t.pages k).next = (s.pages k).next := by
      intro k
      by_cases hk : k = i
      · rw [hk, hpage]
      · rw [hother k hk]
    have hprev : ∀ k, (t.pages k).prev = (s.pages k).prev := by
      intro k
      by_cases hk : k = i
      · rw [hk, hpage]
      · rw [hother k hk]
    have hhead : t.lruListHead = s.lruListHead := by rw [hload]
    simp only [links, hnext, hprev, hhead]

end

end SwapMemory

end RV640
