import RV640.Swap.Memory
import Mathlib.Data.Nat.Factorization.Basic
import Mathlib.Tactic

set_option autoImplicit false

/-! # The layout of the swap files

`mem_init` cuts the guest RAM into `nSwapFiles` files of one size and derives from that size the
shift that gives an address its file and the mask that gives it its position. The loop that derives
them counts the trailing zeros of the size: for a power of two these are the shift and the mask of
the partition, for every other size they belong to smaller files.
-/

namespace RV640

open Bits

/-! ## Page addresses -/

namespace MemCfg

variable (cfg : MemCfg)

theorem pageSize_eq : cfg.pageSize = 2 ^ cfg.pageAddrShift := by
  rw [pageSize, Nat.one_shiftLeft]

theorem pageSize_pos : 0 < cfg.pageSize := by
  rw [pageSize_eq]
  exact Nat.two_pow_pos _

theorem pageOffset_eq (addr : Nat) : cfg.pageOffset addr = addr % cfg.pageSize := by
  rw [pageOffset, pageSize_eq, Nat.and_two_pow_sub_one_eq_mod]

theorem pageAddr_eq (addr : Nat) : cfg.pageAddr addr = addr / cfg.pageSize * cfg.pageSize := by
  rw [pageAddr, pageSize_eq, Nat.shiftRight_eq_div_pow, Nat.shiftLeft_eq]

theorem pageAddr_eq_self_iff (addr : Nat) : cfg.pageAddr addr = addr ↔ cfg.pageSize ∣ addr := by
  rw [pageAddr_eq]
  exact ⟨fun h => ⟨addr / cfg.pageSize, by rw [Nat.mul_comm]; exact h.symm⟩, Nat.div_mul_cancel⟩

theorem alignUp_of_dvd {v : Nat} (h : cfg.pageSize ∣ v) : cfg.alignUp v = v := by
  obtain ⟨k, rfl⟩ := h
  have hpos := cfg.pageSize_pos
  have hdiv : (cfg.pageSize * k + cfg.pageSize - 1) / cfg.pageSize = k := by
    rw [Nat.add_sub_assoc (by omega), Nat.mul_add_div hpos, Nat.div_eq_of_lt (by omega),
      Nat.add_zero]
  rw [alignUp, pageAddr_eq, hdiv, Nat.mul_comm]

theorem dvd_alignUp (v : Nat) : cfg.pageSize ∣ cfg.alignUp v := by
  rw [alignUp, pageAddr_eq]
  exact Nat.dvd_mul_left _ _

theorem le_alignUp (v : Nat) : v ≤ cfg.alignUp v := by
  have hpos := cfg.pageSize_pos
  rw [alignUp, pageAddr_eq]
  have := Nat.div_add_mod (v + cfg.pageSize - 1) cfg.pageSize
  have := Nat.mod_lt (v + cfg.pageSize - 1) hpos
  rw [Nat.mul_comm]
  omega

end MemCfg

namespace SwapMemory

variable {cfg : MemCfg}

/-! ## The layout loop -/

/-- The test and the shift of a round on an even number. -/
theorem two_pow_succ_round (k q : Nat) :
    2 ^ (k + 1) * q &&& 1 = 0 ∧ (2 ^ (k + 1) * q) >>> 1 = 2 ^ k * q := by
  have hdouble : 2 ^ (k + 1) * q = 2 * (2 ^ k * q) := by ring
  constructor
  · rw [Nat.and_one_is_mod, hdouble]
    omega
  · rw [hdouble, Nat.shiftRight_one]
    omega

/-- The loop counts the trailing zeros of the file size. -/
theorem layoutLoop_eq (k q fuel filePosMask fileNoShift : Nat) (hq : q % 2 = 1) (hk : k < fuel) :
    layoutLoop fuel (2 ^ k * q) filePosMask fileNoShift
      = some ((filePosMask + 1) * 2 ^ k - 1, fileNoShift + k) := by
  induction k generalizing fuel filePosMask fileNoShift with
  | zero =>
      obtain ⟨fuel, rfl⟩ : ∃ f, fuel = f + 1 := ⟨fuel - 1, by omega⟩
      have hodd : ¬ (2 ^ 0 * q &&& 1 = 0) := by
        rw [Nat.and_one_is_mod, pow_zero, Nat.one_mul]
        omega
      rw [layoutLoop, if_neg hodd]
      simp
  | succ k ih =>
      obtain ⟨fuel, rfl⟩ : ∃ f, fuel = f + 1 := ⟨fuel - 1, by omega⟩
      obtain ⟨heven, hhalf⟩ := two_pow_succ_round k q
      have hmask : filePosMask <<< 1 ||| 1 = 2 * filePosMask + 1 := by
        rw [← Nat.shiftLeft_add_eq_or_of_lt (by decide), Nat.shiftLeft_eq, pow_one, Nat.mul_comm]
      rw [layoutLoop, if_pos heven, hhalf, hmask, ih _ _ _ (by omega)]
      congr 2
      · congr 1
        ring
      · omega

/-- A size with too many trailing zeros keeps the loop running. -/
theorem layoutLoop_none (k q fuel filePosMask fileNoShift : Nat) (hk : fuel ≤ k) :
    layoutLoop fuel (2 ^ k * q) filePosMask fileNoShift = none := by
  induction fuel generalizing k filePosMask fileNoShift with
  | zero => rfl
  | succ fuel ih =>
      obtain ⟨k, rfl⟩ : ∃ i, k = i + 1 := ⟨k - 1, by omega⟩
      obtain ⟨heven, hhalf⟩ := two_pow_succ_round k q
      rw [layoutLoop, if_pos heven, hhalf]
      exact ih k _ _ (by omega)

theorem swapLayout_eq (k q : Nat) (hq : q % 2 = 1) (hk : k < 32) :
    swapLayout (2 ^ k * q) = some (2 ^ k - 1, k) := by
  rw [swapLayout, layoutLoop_eq k q 32 0 0 hq hk, Nat.zero_add, Nat.one_mul, Nat.zero_add]

/-! ## What the calls leave alone -/

/-- The same layout, and the same handles open. -/
structure SameFiles (a b : SwapMemory cfg) : Prop where
  mask : b.filePosMask = a.filePosMask
  shift : b.fileNoShift = a.fileNoShift
  devSize : b.devSize = a.devSize
  opened : ∀ i, (b.swapFiles i).isSome = (a.swapFiles i).isSome

namespace SameFiles

theorem refl (self : SwapMemory cfg) : SameFiles self self := ⟨rfl, rfl, rfl, fun _ => rfl⟩

theorem trans {a b c : SwapMemory cfg} (h : SameFiles a b) (h' : SameFiles b c) : SameFiles a c :=
  ⟨h'.mask.trans h.mask, h'.shift.trans h.shift, h'.devSize.trans h.devSize,
    fun i => (h'.opened i).trans (h.opened i)⟩

theorem setPage (self : SwapMemory cfg) (page : Fin cfg.pages) (p : MemPage cfg) :
    SameFiles self (self.setPage page p) := ⟨rfl, rfl, rfl, fun _ => rfl⟩

theorem called (self : SwapMemory cfg) : SameFiles self self.called := ⟨rfl, rfl, rfl, fun _ => rfl⟩

theorem setFile {self : SwapMemory cfg} {file : Nat} {f : DosFile}
    (h : self.swapFiles file = some f) (f' : DosFile) : SameFiles self (self.setFile file f') where
  mask := rfl
  shift := rfl
  devSize := rfl
  opened := by
    intro i
    by_cases hi : i = file
    · subst hi
      simp [SwapMemory.setFile, h]
    · simp [SwapMemory.setFile, Function.update_of_ne hi]

theorem dosFSeek (env : SwapEnv) (self : SwapMemory cfg) (file offset : Nat) :
    SameFiles self (self.dosFSeek env file offset).1 := by
  unfold SwapMemory.dosFSeek
  split
  · rename_i f hf _
    exact (setFile hf _).trans (called _)
  · exact called _

theorem dosFSeekEnd (env : SwapEnv) (self : SwapMemory cfg) (file : Nat) :
    SameFiles self (self.dosFSeekEnd env file).1 := by
  unfold SwapMemory.dosFSeekEnd
  split
  · rename_i f hf _
    exact (setFile hf _).trans (called _)
  · exact called _

theorem dosFTell (env : SwapEnv) (self : SwapMemory cfg) (file : Nat) :
    SameFiles self (self.dosFTell env file).1 := by
  unfold SwapMemory.dosFTell
  split
  · exact called _
  · exact called _

theorem dosFRead (env : SwapEnv) (self : SwapMemory cfg) (file size : Nat) :
    SameFiles self (self.dosFRead env file size).1 := by
  unfold SwapMemory.dosFRead
  split
  · rename_i f hf
    exact (setFile hf _).trans (called _)
  · exact called _

theorem dosFWrite (env : SwapEnv) (self : SwapMemory cfg) (file : Nat) (bs : List Byte) :
    SameFiles self (self.dosFWrite env file bs).1 := by
  unfold SwapMemory.dosFWrite
  split
  · rename_i f hf
    exact (setFile hf _).trans (called _)
  · exact called _

theorem loadPage (env : SwapEnv) (self : SwapMemory cfg) (pageAddr : Nat) (page : Fin cfg.pages) :
    SameFiles self (self.loadPage env pageAddr page) := by
  have hseek := dosFSeek env self (self.lookupSwapFile pageAddr) (pageAddr &&& self.filePosMask)
  unfold SwapMemory.loadPage
  rcases hs : self.dosFSeek env (self.lookupSwapFile pageAddr) (pageAddr &&& self.filePosMask) with
    ⟨s, ok⟩
  rw [hs] at hseek
  cases ok with
  | false => simpa only [hs] using hseek
  | true =>
      have hread := hseek.trans (dosFRead env s (self.lookupSwapFile pageAddr) cfg.pageSize)
      simp only [hs]
      split
      · exact hread.trans (setPage _ _ _)
      · exact (hread.trans (setPage _ _ _)).trans (setPage _ _ _)

theorem initPage (env : SwapEnv) (self : SwapMemory cfg) (i : Fin cfg.pages) :
    SameFiles self (self.initPage env i) := by
  refine (loadPage env self (cfg.pageSize * i) i).trans ?_
  simp only [SwapMemory.initPage]
  split
  · split
    · exact (setPage _ _ _).trans (setPage _ _ _)
    · exact setPage _ _ _
  · split
    · exact setPage _ _ _
    · exact refl _

theorem foldl {f : SwapMemory cfg → Fin cfg.pages → SwapMemory cfg}
    (hf : ∀ s i, SameFiles s (f s i)) (l : List (Fin cfg.pages)) (s : SwapMemory cfg) :
    SameFiles s (l.foldl f s) := by
  induction l generalizing s with
  | nil => exact refl s
  | cons i l ih => exact (hf s i).trans (ih (f s i))

theorem growFile (env : SwapEnv) (nFileSize file fuel : Nat) (s t : SwapMemory cfg)
    (swapPos : Nat) (h : s.growFile env nFileSize file fuel swapPos = some t) :
    SameFiles s t := by
  induction fuel generalizing s swapPos with
  | zero =>
      cases h
      exact refl _
  | succ fuel ih =>
      have hwrite := dosFWrite env s file (List.replicate cfg.pageSize 0#8)
      simp only [SwapMemory.growFile] at h
      split at h
      · split at h
        · cases h
        · exact hwrite.trans (ih _ _ h)
      · cases h
        exact refl _

end SameFiles

/-! ## What `mem_init` sets up -/

/-- A round of the loop over the files opens its file. -/
theorem initFile_opens {env : SwapEnv} {fileSize i : Nat} {s t : SwapMemory cfg}
    (h : s.initFile env fileSize i = .ok t) :
    t.filePosMask = s.filePosMask ∧ t.fileNoShift = s.fileNoShift ∧ t.devSize = s.devSize
      ∧ (t.swapFiles i).isSome ∧ ∀ k, k ≠ i → (t.swapFiles k).isSome = (s.swapFiles k).isSome := by
  rcases hf : env.openFile i with _ | f
  · simp only [initFile, hf] at h
    cases h
  have hseek := SameFiles.dosFSeekEnd env (s.setFile i { f with pos := 0 }) i
  have htell := hseek.trans (SameFiles.dosFTell env _ i)
  simp only [initFile, hf] at h
  split at h
  · cases h
  rename_i u hgrow
  have hu := htell.trans (SameFiles.growFile _ _ _ _ _ _ _ hgrow)
  split at h
  · rename_i g hg _
    have ht := hu.trans (SameFiles.setFile hg { g with pos := 0 })
    cases h
    refine ⟨ht.mask, ht.shift, ht.devSize, ?_, ?_⟩
    · simp [SwapMemory.setFile]
    · intro k hk
      rw [ht.opened k]
      simp [SwapMemory.setFile, Function.update_of_ne hk]
  · cases h

theorem initFiles_open {env : SwapEnv} {fileSize : Nat} (l : List Nat) {s t : SwapMemory cfg}
    (h : l.foldlM (initFile env fileSize) s = .ok t) :
    t.filePosMask = s.filePosMask ∧ t.fileNoShift = s.fileNoShift ∧ t.devSize = s.devSize
      ∧ ∀ i, (i ∈ l ∨ (s.swapFiles i).isSome) → (t.swapFiles i).isSome := by
  induction l generalizing s with
  | nil =>
      cases h
      exact ⟨rfl, rfl, rfl, fun i hi => hi.resolve_left List.not_mem_nil⟩
  | cons j l ih =>
      rw [List.foldlM_cons] at h
      rcases hj : s.initFile env fileSize j with e | u
      · rw [hj] at h
        cases h
      · rw [hj] at h
        obtain ⟨hm, hs, hd, hopen, hkeep⟩ := initFile_opens hj
        obtain ⟨hm', hs', hd', hopen'⟩ := ih h
        refine ⟨hm'.trans hm, hs'.trans hs, hd'.trans hd, ?_⟩
        intro i hi
        apply hopen'
        by_cases hij : i = j
        · subst hij
          exact Or.inr hopen
        · rw [hkeep i hij]
          exact hi.imp (fun hm => (List.mem_cons.mp hm).resolve_left hij) id

/-- What `mem_init` went through when it returns `true`. -/
theorem memInit_steps {env : SwapEnv} {size nSwapFiles : Nat} {self : SwapMemory cfg}
    (h : memInit cfg env size nSwapFiles = .ready self) :
    ∃ filePosMask fileNoShift s,
      swapLayout (nFileSize cfg size nSwapFiles) = some (filePosMask, fileNoShift)
        ∧ (List.range nSwapFiles).foldlM (initFile env (nFileSize cfg size nSwapFiles))
            (initMemory size filePosMask fileNoShift) = .ok s
        ∧ self = (List.finRange cfg.pages).foldl (initPage env) s := by
  unfold memInit at h
  split at h
  · cases h
  split at h
  · cases h
  split at h
  · cases h
  rename_i filePosMask fileNoShift hlayout
  split at h
  · cases h
  rename_i s hfiles
  cases h
  exact ⟨filePosMask, fileNoShift, s, hlayout, hfiles, rfl⟩

/-- A successful `mem_init` has checked the number of files, computed the layout and opened the
files. -/
theorem memInit_layout {env : SwapEnv} {size nSwapFiles : Nat} {self : SwapMemory cfg}
    (h : memInit cfg env size nSwapFiles = .ready self) :
    swapLayout (nFileSize cfg size nSwapFiles) = some (self.filePosMask, self.fileNoShift)
      ∧ self.devSize = size ∧ ∀ i, i < nSwapFiles → (self.swapFiles i).isSome := by
  obtain ⟨filePosMask, fileNoShift, s, hlayout, hfiles, rfl⟩ := memInit_steps h
  have hpages := SameFiles.foldl (SameFiles.initPage env) (List.finRange cfg.pages) s
  obtain ⟨hm, hs, hd, hopen⟩ := initFiles_open _ hfiles
  refine ⟨?_, hpages.devSize.trans hd, ?_⟩
  · rw [hlayout, hpages.mask, hpages.shift, hm, hs]
    rfl
  · intro i hi
    rw [hpages.opened]
    exact hopen i (Or.inl (List.mem_range.mpr hi))

/-! ## Valid layouts -/

/-- Every page of the guest RAM has an open file and a place inside it, and no two pages share
theirs. -/
structure LayoutValid (cfg : MemCfg) (size nSwapFiles filePosMask fileNoShift : Nat) : Prop where
  file : ∀ a, a < size → cfg.pageAddr a = a → a >>> fileNoShift < nSwapFiles
  position : ∀ a, a < size → cfg.pageAddr a = a →
    (a &&& filePosMask) + cfg.pageSize ≤ nFileSize cfg size nSwapFiles
  injective : ∀ a b, a < size → b < size → cfg.pageAddr a = a → cfg.pageAddr b = b →
    a >>> fileNoShift = b >>> fileNoShift → a &&& filePosMask = b &&& filePosMask → a = b

/-- A file number and a position determine the address. -/
theorem address_unique {j a b : Nat} (hfile : a >>> j = b >>> j)
    (hpos : a &&& (2 ^ j - 1) = b &&& (2 ^ j - 1)) : a = b := by
  rw [Nat.shiftRight_eq_div_pow, Nat.shiftRight_eq_div_pow] at hfile
  rw [Nat.and_two_pow_sub_one_eq_mod, Nat.and_two_pow_sub_one_eq_mod] at hpos
  rw [← Nat.div_add_mod a (2 ^ j), ← Nat.div_add_mod b (2 ^ j), hfile, hpos]

/-- A page that starts inside a file ends inside it. -/
theorem position_le {j a : Nat} (hj : cfg.pageAddrShift ≤ j) (ha : cfg.pageAddr a = a) :
    (a &&& (2 ^ j - 1)) + cfg.pageSize ≤ 2 ^ j := by
  obtain ⟨k, hk⟩ := (cfg.pageAddr_eq_self_iff a).mp ha
  have hfile : 2 ^ j = cfg.pageSize * 2 ^ (j - cfg.pageAddrShift) := by
    rw [cfg.pageSize_eq, ← pow_add, Nat.add_sub_cancel' hj]
  have hlt : k % 2 ^ (j - cfg.pageAddrShift) < 2 ^ (j - cfg.pageAddrShift) :=
    Nat.mod_lt _ (Nat.two_pow_pos _)
  rw [Nat.and_two_pow_sub_one_eq_mod, hk, hfile, Nat.mul_mod_mul_left]
  calc cfg.pageSize * (k % 2 ^ (j - cfg.pageAddrShift)) + cfg.pageSize
      = cfg.pageSize * (k % 2 ^ (j - cfg.pageAddrShift) + 1) := by ring
    _ ≤ cfg.pageSize * 2 ^ (j - cfg.pageAddrShift) := Nat.mul_le_mul_left _ hlt

/-- Files of a power of two: the partition is valid. -/
theorem layoutValid_of_two_pow {size nSwapFiles j : Nat} (hj : cfg.pageAddrShift ≤ j)
    (hfile : nFileSize cfg size nSwapFiles = 2 ^ j) (hsize : size ≤ nSwapFiles * 2 ^ j) :
    LayoutValid cfg size nSwapFiles (2 ^ j - 1) j where
  file := by
    intro a ha _
    rw [Nat.shiftRight_eq_div_pow]
    exact Nat.div_lt_of_lt_mul (by rw [Nat.mul_comm]; omega)
  position := by
    intro a _ hpage
    rw [hfile]
    exact position_le hj hpage
  injective := fun _ _ _ _ _ _ => address_unique

/-- Files with an odd factor: the first address behind `nSwapFiles` files of the size that the shift
belongs to is still guest RAM. -/
theorem not_layoutValid {size nSwapFiles j q filePosMask : Nat} (hj : cfg.pageAddrShift ≤ j)
    (hq : 1 < q) (hn : 0 < nSwapFiles) (hsize : size = nSwapFiles * (2 ^ j * q)) :
    ¬ LayoutValid cfg size nSwapFiles filePosMask j := by
  intro h
  have hpage : cfg.pageAddr (nSwapFiles * 2 ^ j) = nSwapFiles * 2 ^ j := by
    rw [cfg.pageAddr_eq_self_iff, cfg.pageSize_eq]
    exact Dvd.dvd.mul_left (pow_dvd_pow 2 hj) _
  have hlt : nSwapFiles * 2 ^ j < size := by
    have hpos : 0 < nSwapFiles * 2 ^ j := Nat.mul_pos hn (Nat.two_pow_pos j)
    rw [hsize, ← Nat.mul_assoc]
    exact lt_mul_of_one_lt_right hpos hq
  have hfile := h.file _ hlt hpage
  rw [Nat.shiftRight_eq_div_pow, Nat.mul_div_cancel _ (Nat.two_pow_pos j)] at hfile
  exact lt_irrefl _ hfile

/-! ## The configurations that `main` accepts -/

/-- The checks of `_parseArgs` on the RAM size in megabytes and the number of swap files. -/
def parseArgsAccepts (memSizeMb nSwapFiles : Nat) : Prop :=
  (1 ≤ memSizeMb ∧ memSizeMb ≤ 1024)
    ∧ (nSwapFiles = 1 ∨ nSwapFiles = 2 ∨ nSwapFiles = 4 ∨ nSwapFiles = 8)

/-- The two builds. -/
def isBuild (cfg : MemCfg) : Prop := cfg = memRv32 ∨ cfg = memRv64

theorem pageAddrShift_le (h : isBuild cfg) : cfg.pageAddrShift ≤ 12 := by
  rcases h with rfl | rfl
  · decide
  · decide

theorem nFileSize_accepted (h : isBuild cfg) {m e : Nat} (he : e ≤ 3) :
    nFileSize cfg (m * 2 ^ 20) (2 ^ e) = m * 2 ^ (20 - e) := by
  have hsplit : m * 2 ^ 20 = m * 2 ^ (20 - e) * 2 ^ e := by
    rw [Nat.mul_assoc, ← pow_add, Nat.sub_add_cancel (by omega)]
  have hshift := pageAddrShift_le h
  rw [nFileSize, hsplit, Nat.mul_div_cancel _ (Nat.two_pow_pos e)]
  apply cfg.alignUp_of_dvd
  rw [cfg.pageSize_eq]
  exact Dvd.dvd.mul_left (pow_dvd_pow 2 (by omega)) _

/-- **The swap layout is valid exactly for RAM sizes that are a power of two.** For every accepted
size and number of files the layout is computed, `mem_init` stores it and opens the files; it gives
every page a place of its own in an open file if and only if the number of megabytes is a power
of two. -/
theorem swap_layout_valid_iff (cfg : MemCfg) (hcfg : isBuild cfg) (memSizeMb nSwapFiles : Nat)
    (haccepted : parseArgsAccepts memSizeMb nSwapFiles) :
    ∃ filePosMask fileNoShift,
      swapLayout (nFileSize cfg (memSizeMb * 2 ^ 20) nSwapFiles) = some (filePosMask, fileNoShift)
      ∧ (∀ env self, memInit cfg env (memSizeMb * 2 ^ 20) nSwapFiles = .ready self →
          self.filePosMask = filePosMask ∧ self.fileNoShift = fileNoShift
            ∧ ∀ i, i < nSwapFiles → i < maxSwapFiles ∧ (self.swapFiles i).isSome)
      ∧ (LayoutValid cfg (memSizeMb * 2 ^ 20) nSwapFiles filePosMask fileNoShift
          ↔ ∃ k, memSizeMb = 2 ^ k) := by
  obtain ⟨⟨hm1, hm⟩, hn⟩ := haccepted
  obtain ⟨e, he, rfl⟩ : ∃ e, e ≤ 3 ∧ nSwapFiles = 2 ^ e := by
    rcases hn with rfl | rfl | rfl | rfl
    · exact ⟨0, by omega, rfl⟩
    · exact ⟨1, by omega, rfl⟩
    · exact ⟨2, by omega, rfl⟩
    · exact ⟨3, by omega, rfl⟩
  obtain ⟨k, q, hodd, hmq⟩ := Nat.exists_eq_two_pow_mul_odd (n := memSizeMb) (by omega)
  have hq : q % 2 = 1 := Nat.odd_iff.mp hodd
  have hk : k ≤ 10 := by
    by_contra hk
    have h11 : 2 ^ 11 ≤ 2 ^ k := Nat.pow_le_pow_right (by decide) (by omega)
    have : 2 ^ k ≤ memSizeMb := by
      rw [hmq]
      exact Nat.le_mul_of_pos_right _ (by omega)
    omega
  have hshift := pageAddrShift_le hcfg
  have hsize : nFileSize cfg (memSizeMb * 2 ^ 20) (2 ^ e) = 2 ^ (k + (20 - e)) * q := by
    rw [nFileSize_accepted hcfg he, hmq, pow_add]
    ring
  have hram : memSizeMb * 2 ^ 20 = 2 ^ e * (2 ^ (k + (20 - e)) * q) := by
    have h20 : (2 : Nat) ^ 20 = 2 ^ e * 2 ^ (20 - e) := by
      rw [← pow_add, Nat.add_sub_cancel' (by omega)]
    rw [hmq, h20, pow_add]
    ring
  have hlayout := swapLayout_eq (k + (20 - e)) q hq (by omega)
  rw [← hsize] at hlayout
  refine ⟨_, _, hlayout, ?_, ?_⟩
  · intro env self hinit
    obtain ⟨hself, -, hopen⟩ := memInit_layout hinit
    rw [hlayout] at hself
    simp only [Option.some.injEq, Prod.mk.injEq] at hself
    refine ⟨hself.1.symm, hself.2.symm, fun i hi => ⟨?_, hopen i hi⟩⟩
    have : 2 ^ e ≤ 2 ^ 3 := Nat.pow_le_pow_right (by decide) he
    exact lt_of_lt_of_le hi this
  · constructor
    · intro hvalid
      by_cases h1 : q = 1
      · exact ⟨k, by rw [hmq, h1, Nat.mul_one]⟩
      · exact absurd hvalid (not_layoutValid (by omega) (by omega) (Nat.two_pow_pos e) hram)
    · rintro ⟨i, hi⟩
      have h1 : q = 1 := by
        have hdvd : q ∣ 2 ^ i := ⟨2 ^ k, by rw [← hi, hmq, Nat.mul_comm]⟩
        exact Nat.eq_one_of_dvd_coprimes (hodd.coprime_two_right.pow_right i) (dvd_refl q) hdvd
      rw [h1, Nat.mul_one] at hsize hram
      exact layoutValid_of_two_pow (by omega) hsize hram.le

/-- 32 MB in four files. -/
theorem swap_layout_valid_iff_32 :
    (isBuild memRv32 ∧ parseArgsAccepts 32 4) ∧ ∃ filePosMask fileNoShift,
      swapLayout (nFileSize memRv32 (32 * 2 ^ 20) 4) = some (filePosMask, fileNoShift)
      ∧ (∀ env self, memInit memRv32 env (32 * 2 ^ 20) 4 = .ready self →
          self.filePosMask = filePosMask ∧ self.fileNoShift = fileNoShift
            ∧ ∀ i, i < 4 → i < maxSwapFiles ∧ (self.swapFiles i).isSome)
      ∧ (LayoutValid memRv32 (32 * 2 ^ 20) 4 filePosMask fileNoShift ↔ ∃ k, 32 = 2 ^ k) :=
  ⟨⟨Or.inl rfl, by decide, by decide⟩,
    swap_layout_valid_iff memRv32 (Or.inl rfl) 32 4 ⟨by decide, by decide⟩⟩

/-- 3 MB in one file: the shift is 20, so the second megabyte belongs to a file that is not open. -/
theorem swap_layout_three_megabytes :
    parseArgsAccepts 3 1
      ∧ swapLayout (nFileSize memRv32 (3 * 2 ^ 20) 1) = some (0xFFFFF, 20)
      ∧ 0x100000 < 3 * 2 ^ 20 ∧ memRv32.pageAddr 0x100000 = 0x100000
      ∧ 0x100000 >>> 20 = 1
      ∧ ¬ LayoutValid memRv32 (3 * 2 ^ 20) 1 0xFFFFF 20 := by
  refine ⟨⟨by decide, by decide⟩, by decide, by decide, by decide, by decide, ?_⟩
  intro h
  have := h.file 0x100000 (by decide) (by decide)
  exact absurd this (by decide)

/-- The layout of files of a power of two. -/
theorem swapLayout_two_pow {j filePosMask fileNoShift : Nat}
    (h : swapLayout (2 ^ j) = some (filePosMask, fileNoShift)) :
    filePosMask = 2 ^ j - 1 ∧ fileNoShift = j := by
  by_cases hj : j < 32
  · have heq := swapLayout_eq j 1 rfl hj
    rw [Nat.mul_one, h] at heq
    simpa using heq
  · have hnone := layoutLoop_none j 1 32 0 0 (by omega)
    rw [Nat.mul_one] at hnone
    rw [swapLayout, hnone] at h
    cases h

end SwapMemory

end RV640
