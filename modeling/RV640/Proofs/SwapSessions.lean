import RV640.Proofs.SwapRefines
import RV640.Swap.Start

set_option autoImplicit false

/-! # The guest's memory survives the program

On DOS the guest's memory is what the swap files hold, so a start of the program finds what the last
one left, also with another number of cached pages. A start that fails leaves it too, with one
exception: once a swap file is open, the pages that `mem_destroy` writes back are still those of
address 0, and the first page is lost.
-/

namespace RV640

open Bits

namespace SwapMemory

variable {cfg : MemCfg} {s : SwapMemory cfg} {env : SwapEnv} {j : Nat}

/-! ## `mem_destroy` before anything is loaded -/

/-- What the files read as. -/
def texts (files : Nat → Option DosFile) : Nat → Option (Nat → Byte) :=
  fun k => (files k).map DosFile.contents

/-- Zeros in the place of a page at the start. -/
def wiped (cfg : MemCfg) (contents : Nat → Byte) : Nat → Byte :=
  fun i => if i < cfg.pageSize then 0#8 else contents i

/-- The first page of file 0 is lost, if the file is open. -/
def wipeFirst (cfg : MemCfg) (texts : Nat → Option (Nat → Byte)) : Nat → Option (Nat → Byte) :=
  fun k => if k = 0 then (texts k).map (wiped cfg) else texts k

theorem wipeFirst_wipeFirst (cfg : MemCfg) (texts : Nat → Option (Nat → Byte)) :
    wipeFirst cfg (wipeFirst cfg texts) = wipeFirst cfg texts := by
  funext k
  by_cases hk : k = 0
  · have hwiped : ∀ contents, wiped cfg (wiped cfg contents) = wiped cfg contents := by
      intro contents
      funext i
      simp only [wiped]
      split <;> rfl
    simp only [wipeFirst, if_pos hk, Option.map_map]
    exact congrArg (fun f => (texts k).map f) (funext hwiped)
  · simp only [wipeFirst, if_neg hk]

/-- No page has been loaded. -/
structure Blank (s : SwapMemory cfg) : Prop where
  addr : ∀ i, (s.pages i).addr = 0
  data : ∀ i, (s.pages i).data = fun _ => 0#8
  shift : s.fileNoShift ≠ 0

/-- Zeros written at the start of a file. -/
theorem contents_zeros (cfg : MemCfg) (f : DosFile) :
    ((f.seekSet 0).write (List.replicate cfg.pageSize 0#8)).contents = wiped cfg f.contents := by
  funext i
  simp only [DosFile.contents, DosFile.write, DosFile.seekSet, List.length_replicate, Nat.zero_add,
    wiped]
  by_cases hi : i < cfg.pageSize
  · have hk : i < (List.replicate cfg.pageSize 0#8).length := by
      rw [List.length_replicate]
      exact hi
    have hbyte := Bytes.writeAt_inside f.data 0 (List.replicate cfg.pageSize 0#8) hk
    rw [Nat.zero_add, List.getElem_replicate] at hbyte
    rw [if_pos hi, if_pos (by omega), hbyte]
  · rw [if_neg hi, Bytes.writeAt_outside _ _ _ (Or.inr (by simp; omega))]
    by_cases hf : i < f.size
    · rw [if_pos hf, if_pos (by omega)]
    · rw [if_neg hf, if_neg (by omega)]

/-- One page: its address is 0. -/
theorem destroyPage_blank (hio : env.ioOk) (h : s.Blank) (i : Fin cfg.pages) :
    (s.destroyPage env i).Blank
      ∧ texts (s.destroyPage env i).swapFiles = wipeFirst cfg (texts s.swapFiles) := by
  have hfile : s.lookupSwapFile (s.pages i).addr = 0 := by
    rw [lookupSwapFile, h.addr, Nat.zero_shiftRight]
  cases hf : s.swapFiles 0 with
  | none =>
      have hsame : s.destroyPage env i = s := by
        rw [destroyPage, hfile, hf, if_neg (fun hcond => Bool.noConfusion hcond.2)]
      rw [hsame]
      refine ⟨h, ?_⟩
      funext k
      by_cases hk : k = 0
      · subst hk
        simp only [wipeFirst, if_true, texts, hf, Option.map_none]
      · simp only [wipeFirst, if_neg hk]
  | some f =>
      have hstore : s.destroyPage env i = s.storePage env i := by
        rw [destroyPage, hfile, hf, if_pos ⟨h.shift, rfl⟩]
      have hopen : s.swapFiles (s.lookupSwapFile (s.pages i).addr) = some f := by rw [hfile, hf]
      have hpage : Bytes.readAt (s.pages i).data 0 cfg.pageSize
          = List.replicate cfg.pageSize 0#8 := by
        rw [h.data]
        simp [Bytes.readAt]
      rw [hstore, storePage_ok hio i hopen, hfile, h.addr, Nat.zero_and, hpage]
      refine ⟨⟨h.addr, h.data, h.shift⟩, ?_⟩
      funext k
      by_cases hk : k = 0
      · subst hk
        simp only [texts, wipeFirst, if_true, Function.update_self, hf, Option.map_some,
          contents_zeros]
      · simp only [texts, wipeFirst, if_neg hk, Function.update_of_ne hk]

/-- All pages: the first one wipes, the others wipe again. -/
theorem memDestroy_blank (hio : env.ioOk) (h : s.Blank) :
    texts (s.memDestroy env) = wipeFirst cfg (texts s.swapFiles) := by
  have hall : ∀ (is : List (Fin cfg.pages)) (t : SwapMemory cfg), t.Blank →
      wipeFirst cfg (texts t.swapFiles) = texts t.swapFiles →
      texts (is.foldl (destroyPage env) t).swapFiles = texts t.swapFiles := by
    intro is
    induction is with
    | nil => exact fun t _ _ => rfl
    | cons i is ih =>
        intro t ht hwiped
        obtain ⟨hblank, htexts⟩ := destroyPage_blank hio ht i
        rw [hwiped] at htexts
        rw [List.foldl_cons, ih _ hblank (by rw [htexts, hwiped]), htexts]
  obtain ⟨i, is, his⟩ : ∃ i is, List.finRange cfg.pages = i :: is := by
    apply List.exists_cons_of_ne_nil
    intro hnil
    have hlen := congrArg List.length hnil
    rw [List.length_finRange] at hlen
    exact cfg.pages_pos.ne' hlen
  obtain ⟨hblank, htexts⟩ := destroyPage_blank hio h i
  rw [memDestroy, his, List.foldl_cons, hall is _ hblank, htexts]
  rw [htexts, wipeFirst_wipeFirst]

/-! ## The loop over the swap files -/

/-- The swap files on the disk. One that does not exist is empty. -/
def Disk := Nat → DosFile

/-- The first `i` files are open and read as on the disk, and no page has been loaded. -/
structure Opened (disk : Disk) (i : Nat) (s : SwapMemory cfg) : Prop where
  blank : s.Blank
  shown : ∀ k, texts s.swapFiles k = if k < i then some (disk k).contents else none

theorem fillFile_shift (env : SwapEnv) (fileSize file fuel : Nat) (s : SwapMemory cfg)
    (swapPos : Nat) :
    (s.fillFile env fileSize file fuel swapPos).1.fileNoShift = s.fileNoShift := by
  induction fuel generalizing s swapPos with
  | zero => rfl
  | succ fuel ih =>
      have hwrite : (s.dosFWrite env file (List.replicate cfg.pageSize 0#8)).1.fileNoShift
          = s.fileNoShift := by
        unfold dosFWrite
        split <;> rfl
      simp only [fillFile]
      split
      · split
        · exact hwrite
        · rw [ih, hwrite]
      · rfl

/-- A file that opens: it gets its size, and whether it opens again decides. -/
theorem openSwapFile_eq (hio : env.ioOk) (fileSize i : Nat) {f : DosFile}
    (hf : env.openFile i = some f) :
    ∃ w g, w.swapFiles i = some g ∧ g.contents = f.contents ∧ SameBut i s w
      ∧ w.fileNoShift = s.fileNoShift ∧ s.openSwapFile env fileSize i
        = if env.reopen i then .ok (w.setFile i { g with pos := 0 })
          else .error ⟨.reopenSwap i,
            Function.update ((w.clearFile i).memDestroy env) i (some g)⟩ := by
  have hseek : (s.setFile i { f with pos := 0 }).dosFSeekEnd env i
      = (((s.setFile i { f with pos := 0 }).setFile i { f with pos := f.size }).called, true) := by
    simp only [dosFSeekEnd, setFile_swapFiles, Function.update_self, hio _]
    rfl
  set u := ((s.setFile i { f with pos := 0 }).setFile i { f with pos := f.size }).called with hu
  have huf : u.swapFiles i = some { f with pos := f.size } := by simp [hu]
  have htell : u.dosFTell env i = (u.called, f.size) := by
    simp only [dosFTell, huf, hio _]
  obtain ⟨w, hw, ⟨g, hg, hcont, -⟩, hp, hh, hk⟩ := growFile_spec (s := u.called)
    (f := { f with pos := f.size }) hio fileSize i (fileSize - f.size) huf rfl
    (by show fileSize ≤ f.size + (fileSize - f.size); omega)
  have hfill : u.called.fillFile env fileSize i (fileSize - f.size) f.size = (w, true) := by
    have hgrow : u.called.growFile env fileSize i (fileSize - f.size) f.size = some w := hw
    rw [fillFile_growFile] at hgrow
    split at hgrow
    · rename_i hok
      exact Prod.ext (Option.some.inj hgrow) hok
    · cases hgrow
  have hshift := fillFile_shift env fileSize i (fileSize - f.size) u.called f.size
  rw [hfill] at hshift
  refine ⟨w, g, hg, hcont, ⟨hp, hh, ?_⟩, hshift, ?_⟩
  · intro k hki
    rw [hk k hki]
    simp [hu, Function.update_of_ne hki]
  · simp only [openSwapFile, hf, hseek, htell, hfill, hg]
    cases env.reopen i with
    | false => rfl
    | true => rfl

theorem Blank.congr {t : SwapMemory cfg} (h : s.Blank) (hpages : t.pages = s.pages)
    (hshift : t.fileNoShift = s.fileNoShift) : t.Blank where
  addr := by
    rw [hpages]
    exact h.addr
  data := by
    rw [hpages]
    exact h.data
  shift := by
    rw [hshift]
    exact h.shift

/-- A file that opens twice. -/
theorem Opened.next (hio : env.ioOk) {disk : Disk} {i : Nat} (h : s.Opened disk i)
    (hopen : env.openFile i = some (disk i)) (hreopen : env.reopen i = true) (fileSize : Nat) :
    ∃ t, s.openSwapFile env fileSize i = .ok t ∧ t.Opened disk (i + 1) := by
  obtain ⟨w, g, -, hcont, hsame, hshift, heq⟩ := openSwapFile_eq (s := s) hio fileSize i hopen
  rw [if_pos hreopen] at heq
  refine ⟨_, heq, h.blank.congr hsame.1 hshift, ?_⟩
  intro k
  by_cases hk : k = i
  · subst hk
    rw [if_pos (Nat.lt_succ_self k)]
    simp only [texts, setFile_swapFiles, Function.update_self, Option.map_some]
    exact congrArg some hcont
  · have htext : texts (w.setFile i { g with pos := 0 }).swapFiles k = texts s.swapFiles k := by
      simp only [texts, setFile_swapFiles, Function.update_of_ne hk, hsame.2.2 k hk]
    rw [htext, h.shown k]
    by_cases hlt : k < i
    · rw [if_pos hlt, if_pos (by omega)]
    · rw [if_neg hlt, if_neg (by omega)]

/-- The files that are left on the disk. -/
def Disk.after (disk : Disk) (files : Nat → Option DosFile) : Disk :=
  fun k => (files k).getD (disk k)

theorem Disk.after_contents {disk : Disk} {files : Nat → Option DosFile} {k : Nat}
    {contents : Nat → Byte} (h : texts files k = some contents ∨
      texts files k = none ∧ contents = (disk k).contents) :
    (disk.after files k).contents = contents := by
  unfold Disk.after
  cases hf : files k with
  | none =>
      rcases h with h | ⟨-, h⟩
      · simp only [texts, hf, Option.map_none] at h
        cases h
      · exact h.symm
  | some f =>
      rcases h with h | ⟨h, -⟩
      · simp only [texts, hf, Option.map_some, Option.some.injEq] at h
        exact h
      · simp only [texts, hf, Option.map_some] at h
        cases h

/-- A file that does not open, or not again: the others are closed with zeros in the first page of
file 0, if it is one of them. -/
theorem Opened.stop (hio : env.ioOk) {disk : Disk} {i : Nat} (h : s.Opened disk i)
    (hopen : env.openFile i = none ∨ env.openFile i = some (disk i) ∧ env.reopen i = false)
    (fileSize : Nat) :
    ∃ stop, s.openSwapFile env fileSize i = .error stop ∧
      ∀ k, (disk.after stop.closed k).contents
        = if k = 0 ∧ 0 < i then wiped cfg (disk k).contents else (disk k).contents := by
  -- what `mem_destroy` makes of the handles, with that of the file cleared
  have hclosed : ∀ w : SwapMemory cfg, SameBut i s w → w.fileNoShift = s.fileNoShift → ∀ k,
      texts ((w.clearFile i).memDestroy env) k = if k < i then
        some (if k = 0 then wiped cfg (disk k).contents else (disk k).contents) else none := by
    intro w hsame hshift k
    have htext : texts (w.clearFile i).swapFiles k
        = if k < i then some (disk k).contents else none := by
      by_cases hk : k = i
      · subst hk
        simp [texts, clearFile]
      · rw [← h.shown k]
        simp only [texts, clearFile, Function.update_of_ne hk, hsame.2.2 k hk]
    have hblank : (w.clearFile i).Blank := h.blank.congr hsame.1 hshift
    rw [memDestroy_blank hio hblank, wipeFirst, htext]
    by_cases hk : k = 0
    · by_cases hlt : k < i
      · simp only [if_pos hk, if_pos hlt, Option.map_some]
      · simp only [if_pos hk, if_neg hlt, Option.map_none]
    · simp only [if_neg hk]
  have hleft : ∀ (files : Nat → Option DosFile) (k : Nat), texts files k = (if k < i then
        some (if k = 0 then wiped cfg (disk k).contents else (disk k).contents) else none) →
      (disk.after files k).contents
        = if k = 0 ∧ 0 < i then wiped cfg (disk k).contents else (disk k).contents := by
    intro files k hfiles
    apply Disk.after_contents
    rw [hfiles]
    by_cases hlt : k < i
    · have hpos : 0 < i := by omega
      simp only [if_pos hlt, hpos, and_true, true_or]
    · have hnot : ¬(k = 0 ∧ 0 < i) := by omega
      simp only [if_neg hlt, if_neg hnot, and_self, or_true]
  rcases hopen with hnone | ⟨hsome, hreopen⟩
  · refine ⟨⟨.createSwap i, (s.clearFile i).memDestroy env⟩, ?_, ?_⟩
    · simp only [openSwapFile, hnone]
    · intro k
      exact hleft _ k (hclosed s ⟨rfl, rfl, fun _ _ => rfl⟩ rfl k)
  · obtain ⟨w, g, -, hcont, hsame, hshift, heq⟩ := openSwapFile_eq (s := s) hio fileSize i hsome
    rw [hreopen, if_neg (by decide)] at heq
    refine ⟨_, heq, ?_⟩
    intro k
    by_cases hk : k = i
    · -- the file itself has been closed as it was
      subst hk
      have hnot : ¬(k = 0 ∧ 0 < k) := by omega
      rw [if_neg hnot]
      apply Disk.after_contents
      simp only [texts, Function.update_self, Option.map_some, hcont, true_or]
    · refine hleft _ k ?_
      rw [← hclosed w hsame hshift k]
      simp only [texts, Function.update_of_ne hk]

/-! ## Starts of the program -/

/-- What a start of the program brings along: the build, what DOS grants it, and the accesses of the
guest. -/
structure PowerUp where
  cfg : MemCfg
  alloc : Nat → Bool
  opens : Nat → Bool
  reopens : Nat → Bool
  ops : List MemOp

namespace PowerUp

/-- DOS as a start finds it. No seek, read or write fails. -/
def dos (b : PowerUp) (disk : Disk) : SwapEnv where
  alloc := b.alloc
  openFile := fun k => if b.opens k then some (disk k) else none
  reopen := b.reopens
  fault := fun _ => none

/-- From `mem_init` to `mem_destroy`: the disk after it and the guest's answers, unless the start
fails. -/
def run (b : PowerUp) (size nSwapFiles : Nat) (disk : Disk) :
    Option (Disk × Option (List MemAnswer)) :=
  match startMemory b.cfg (b.dos disk) size nSwapFiles with
  | .hangs => none
  | .failed stop => some (disk.after stop.closed, none)
  | .ready self =>
      (pagedRun (b.dos disk) self b.ops).map fun r =>
        (disk.after (r.1.memDestroy (b.dos disk)), some r.2)

/-- The first swap file that DOS refuses. -/
def refused (b : PowerUp) (nSwapFiles : Nat) : Option Nat :=
  (List.range nSwapFiles).find? fun k => !(b.opens k && b.reopens k)

/-- The same on one memory that is always there: a start that fails behind the first swap file
clears the first page. -/
def flat (b : PowerUp) (nSwapFiles : Nat) (memory : Memory) : Memory × Option (List MemAnswer) :=
  if (List.range b.cfg.pages).all b.alloc then
    match b.refused nSwapFiles with
    | none => ((flatRun memory b.ops).1, some (flatRun memory b.ops).2)
    | some 0 => (memory, none)
    | some (_ + 1) => (RV640.memWrite memory 0 (List.replicate b.cfg.pageSize 0#8), none)
  else (memory, none)

/-- The build and the accesses suit a memory of `size` bytes in swap files of `2^j` bytes. -/
structure Suits (b : PowerUp) (size nSwapFiles j : Nat) : Prop where
  pages : 2 ≤ b.cfg.pages
  file : nFileSize b.cfg size nSwapFiles = 2 ^ j
  cache : b.cfg.pages * b.cfg.pageSize ≤ nSwapFiles * 2 ^ j
  inside : ∀ op ∈ b.ops, op.inside size

end PowerUp

/-- The swap files hold the memory. -/
def Disk.Holds (disk : Disk) (j total : Nat) (memory : Memory) : Prop :=
  ∀ a, a < total → (disk (a >>> j)).contents (a &&& (2 ^ j - 1)) = memory.data a

theorem Disk.Holds.congr {disk disk' : Disk} {total : Nat} {memory : Memory}
    (h : disk.Holds j total memory) (hsame : ∀ k, (disk' k).contents = (disk k).contents) :
    disk'.Holds j total memory := by
  intro a ha
  rw [hsame]
  exact h a ha

/-- The memory that `mem_init` leaves when no start has happened on the handles. -/
theorem opened_init (disk : Disk) (size filePosMask : Nat) {fileNoShift : Nat}
    (hshift : fileNoShift ≠ 0) :
    (initMemory size filePosMask fileNoShift : SwapMemory cfg).Opened disk 0 :=
  ⟨⟨fun _ => rfl, fun _ => rfl, hshift⟩, fun k => (if_neg (Nat.not_lt_zero k)).symm⟩

/-- The files before the first that is refused. -/
theorem Opened.range (hio : env.ioOk) {disk : Disk} (h : s.Opened disk 0) (fileSize i : Nat)
    (hgood : ∀ k, k < i → env.openFile k = some (disk k) ∧ env.reopen k = true) :
    ∃ t, (List.range i).foldlM (openSwapFile env fileSize) s = .ok t ∧ t.Opened disk i := by
  induction i with
  | zero => exact ⟨s, rfl, h⟩
  | succ i ih =>
      obtain ⟨t, ht, hopened⟩ := ih fun k hk => hgood k (by omega)
      obtain ⟨hopen, hreopen⟩ := hgood i (Nat.lt_succ_self i)
      obtain ⟨u, hu, hnext⟩ := hopened.next hio hopen hreopen fileSize
      refine ⟨u, ?_, hnext⟩
      rw [List.range_succ, List.foldlM_append, ht]
      show [i].foldlM (openSwapFile env fileSize) t = _
      rw [List.foldlM_cons, hu]
      rfl

/-- Memories that agree below the end of the files are represented alike. -/
theorem Represents.congr {nFiles : Nat} {l : List (Fin cfg.pages)} {memory memory' : Memory}
    (h : s.Represents j nFiles l memory)
    (hsame : ∀ a, a < nFiles * 2 ^ j → memory.data a = memory'.data a) :
    s.Represents j nFiles l memory' := by
  obtain ⟨v, hv, hflat⟩ := h.view
  refine ⟨h.inv, v, hv, ?_⟩
  intro p hp
  rw [hflat p hp]
  apply Bytes.readAt_congr
  intro k hk
  refine hsame _ ?_
  -- a page that starts inside a file ends inside it
  obtain ⟨r, hr⟩ : cfg.pageSize ∣ nFiles * 2 ^ j := by
    refine Dvd.dvd.mul_left ?_ nFiles
    rw [cfg.pageSize_eq]
    exact pow_dvd_pow 2 h.inv.layout.le
  have hlt : p < r := by
    rw [hr, Nat.mul_comm p] at hp
    exact Nat.lt_of_mul_lt_mul_left hp
  calc p * cfg.pageSize + k < p * cfg.pageSize + cfg.pageSize := Nat.add_lt_add_left hk _
    _ = (p + 1) * cfg.pageSize := (Nat.succ_mul p _).symm
    _ ≤ r * cfg.pageSize := Nat.mul_le_mul_right _ hlt
    _ = nFiles * 2 ^ j := by rw [hr, Nat.mul_comm]

section Step

variable {b : PowerUp} {size nSwapFiles : Nat} {disk : Disk} {memory : Memory}

/-- A start that DOS refuses a page. -/
theorem PowerUp.run_noPages (hn : nSwFilesValid nSwapFiles = true)
    (halloc : (List.range b.cfg.pages).all b.alloc = false) :
    b.run size nSwapFiles disk = some (disk, none) := by
  have hstart : startMemory b.cfg (b.dos disk) size nSwapFiles
      = .failed ⟨.allocPage, fun _ => none⟩ := by
    have halloc : (List.range b.cfg.pages).all (b.dos disk).alloc = false := halloc
    simp only [startMemory, hn, halloc, Bool.not_true, Bool.false_eq_true, if_false, Bool.not_false,
      if_true]
  rw [PowerUp.run, hstart]
  rfl

theorem PowerUp.Suits.shift_le (h : b.Suits size nSwapFiles j) : b.cfg.pageAddrShift ≤ j := by
  have hdvd : b.cfg.pageSize ∣ 2 ^ j := by
    rw [← h.file]
    exact b.cfg.dvd_alignUp _
  rw [b.cfg.pageSize_eq] at hdvd
  exact (Nat.pow_dvd_pow_iff_le_right (by decide)).mp hdvd

/-- The loop over the swap files, for files of `2^j` bytes. -/
def PowerUp.openFiles (b : PowerUp) (size nSwapFiles j : Nat) (disk : Disk) :
    Except InitStop (SwapMemory b.cfg) :=
  (List.range nSwapFiles).foldlM (openSwapFile (b.dos disk) (2 ^ j))
    (initMemory size (2 ^ j - 1) j)

/-- The first `i` files open. -/
theorem PowerUp.Suits.opened (h : b.Suits size nSwapFiles j) (disk : Disk) (i : Nat)
    (hgood : ∀ k, k < i → b.opens k = true ∧ b.reopens k = true) :
    ∃ t, (List.range i).foldlM (openSwapFile (b.dos disk) (2 ^ j))
        (initMemory size (2 ^ j - 1) j : SwapMemory b.cfg) = .ok t ∧ t.Opened disk i := by
  have hj : j ≠ 0 := by
    have := b.cfg.pageAddrShift_pos
    have := h.shift_le
    omega
  refine (opened_init disk size (2 ^ j - 1) hj).range (fun _ => rfl) (2 ^ j) i ?_
  intro k hk
  obtain ⟨hopen, hreopen⟩ := hgood k hk
  exact ⟨if_pos hopen, hreopen⟩

/-- A file that is refused ends the loop. -/
theorem PowerUp.Suits.refused (h : b.Suits size nSwapFiles j) (disk : Disk) {i : Nat}
    (hrefused : b.refused nSwapFiles = some i) :
    ∃ stop, b.openFiles size nSwapFiles j disk = .error stop ∧
      ∀ k, (disk.after stop.closed k).contents
        = if k = 0 ∧ 0 < i then wiped b.cfg (disk k).contents else (disk k).contents := by
  obtain ⟨hbad, hmem, hgood⟩ := List.find?_range_eq_some.mp hrefused
  obtain ⟨t, ht, hopened⟩ := h.opened disk i fun k hk => by
    have := hgood k hk
    simpa using this
  have hopen : (b.dos disk).openFile i = none
      ∨ (b.dos disk).openFile i = some (disk i) ∧ (b.dos disk).reopen i = false := by
    cases hi : b.opens i with
    | false => exact Or.inl (if_neg (by rw [hi]; decide))
    | true =>
        rw [hi, Bool.true_and, Bool.not_eq_true'] at hbad
        exact Or.inr ⟨if_pos hi, hbad⟩
  obtain ⟨stop, hstop, hcontents⟩ := hopened.stop (fun _ => rfl) hopen (2 ^ j)
  refine ⟨stop, ?_, hcontents⟩
  obtain ⟨n, rfl⟩ := Nat.exists_eq_add_of_lt (List.mem_range.mp hmem)
  rw [PowerUp.openFiles, Nat.add_assoc, List.range_add, List.range_succ_eq_map, List.map_cons,
    List.foldlM_append, ht]
  show (i :: _).foldlM (openSwapFile (b.dos disk) (2 ^ j)) t = _
  rw [List.foldlM_cons, hstop]
  rfl

section Files

variable (hn : nSwFilesValid nSwapFiles = true)
  (halloc : (List.range b.cfg.pages).all b.alloc = true) (hj : j < 32)
  (hsuits : b.Suits size nSwapFiles j)
include hn halloc hj hsuits

/-- With all its pages, the loop over the swap files decides how `mem_init` ends. -/
theorem PowerUp.startMemory_files :
    (∀ stop, b.openFiles size nSwapFiles j disk = .error stop →
      startMemory b.cfg (b.dos disk) size nSwapFiles = .failed stop) ∧
    ∀ self, b.openFiles size nSwapFiles j disk = .ok self →
      startMemory b.cfg (b.dos disk) size nSwapFiles
        = .ready ((List.finRange b.cfg.pages).foldl (initPage (b.dos disk)) self) := by
  have hlayout := swapLayout_eq j 1 rfl hj
  rw [Nat.mul_one] at hlayout
  have halloc : (List.range b.cfg.pages).all (b.dos disk).alloc = true := halloc
  unfold PowerUp.openFiles
  constructor
  · intro stop hstop
    simp only [startMemory, hn, halloc, hsuits.file, hlayout, hstop, Bool.not_true,
      Bool.false_eq_true, if_false]
  · intro self hself
    simp only [startMemory, hn, halloc, hsuits.file, hlayout, hself, Bool.not_true,
      Bool.false_eq_true, if_false]

/-- A start that DOS refuses a swap file. -/
theorem PowerUp.run_refused {i : Nat} (hrefused : b.refused nSwapFiles = some i) :
    ∃ files, b.run size nSwapFiles disk = some (disk.after files, none) ∧
      ∀ k, (disk.after files k).contents
        = if k = 0 ∧ 0 < i then wiped b.cfg (disk k).contents else (disk k).contents := by
  obtain ⟨stop, hstop, hcontents⟩ := hsuits.refused disk hrefused
  refine ⟨stop.closed, ?_, hcontents⟩
  rw [PowerUp.run, (PowerUp.startMemory_files hn halloc hj hsuits).1 stop hstop]

/-- A start that DOS refuses nothing: the accesses continue on the memory that the disk held. -/
theorem PowerUp.run_granted (hcover : size ≤ nSwapFiles * 2 ^ j)
    (hholds : disk.Holds j (nSwapFiles * 2 ^ j) memory) (hgranted : b.refused nSwapFiles = none) :
    ∃ files, b.run size nSwapFiles disk
        = some (disk.after files, some (flatRun memory b.ops).2) ∧
      (disk.after files).Holds j (nSwapFiles * 2 ^ j) (flatRun memory b.ops).1 := by
  have hio : (b.dos disk).ioOk := fun _ => rfl
  have hgood : ∀ k, k < nSwapFiles → b.opens k = true ∧ b.reopens k = true := by
    intro k hk
    have := List.find?_range_eq_none.mp hgranted k hk
    simpa using this
  obtain ⟨t, ht, -⟩ := hsuits.opened disk nSwapFiles hgood
  have hstart := (PowerUp.startMemory_files hn halloc hj hsuits).2 t ht
  have hinit := startMemory_memInit b.cfg (b.dos disk) size nSwapFiles
  rw [hstart] at hinit
  -- the memory stands for what the files held, which is `memory`
  have hcontents : ∀ a, a < nSwapFiles * 2 ^ j →
      (swapContents (b.dos disk) j).data a = memory.data a := by
    intro a ha
    have hfile : a >>> j < nSwapFiles := by
      rw [Nat.shiftRight_eq_div_pow]
      exact Nat.div_lt_of_lt_mul (by rwa [Nat.mul_comm (2 ^ j)])
    have hopen : (b.dos disk).openFile (a >>> j) = some (disk (a >>> j)) :=
      if_pos (hgood _ hfile).1
    rw [← hholds a ha]
    simp only [swapContents, hopen]
  have hrep := (memInit_represents hio hinit hsuits.file hsuits.cache).congr hcontents
  have hinside : ∀ op ∈ b.ops, op.inside (nSwapFiles * 2 ^ j) := by
    intro op hop
    have := hsuits.inside op hop
    cases op with
    | read addr n => exact le_trans this hcover
    | write addr buf => exact le_trans this hcover
    | cmp addr buf => exact le_trans this hcover
  obtain ⟨last, l, hrun, hlast⟩ := pagedRun_spec hio hsuits.pages b.ops hrep hinside
  refine ⟨last.memDestroy (b.dos disk), ?_, ?_⟩
  · rw [PowerUp.run, hstart]
    simp only [hrun, Option.map_some]
  · intro a ha
    obtain ⟨f, hf, hlt, hbyte⟩ := memDestroy_spec hio hlast ha
    rw [Disk.after, hf, Option.getD_some, DosFile.contents, if_pos hlt, hbyte]

end Files

/-- The first page of the memory is the first page of file 0. -/
theorem Disk.Holds.wiped {disk' : Disk} {total : Nat} (hsuits : b.Suits size nSwapFiles j)
    (hholds : disk.Holds j total memory) (hcontents : ∀ k, (disk' k).contents
      = if k = 0 then wiped b.cfg (disk k).contents else (disk k).contents) :
    disk'.Holds j total (RV640.memWrite memory 0 (List.replicate b.cfg.pageSize 0#8)) := by
  intro a ha
  have hpage : b.cfg.pageSize ≤ 2 ^ j := by
    rw [b.cfg.pageSize_eq]
    exact Nat.pow_le_pow_right (by decide) hsuits.shift_le
  have hbyte : (RV640.memWrite memory 0 (List.replicate b.cfg.pageSize 0#8)).data a
      = if a < b.cfg.pageSize then 0#8 else memory.data a := by
    rw [memWrite_data, Bytes.writeAt, if_pos (Nat.zero_le a), Nat.sub_zero, List.getElem?_replicate]
    split <;> rfl
  rw [hbyte, hcontents, ← hholds a ha, Nat.shiftRight_eq_div_pow, Nat.and_two_pow_sub_one_eq_mod]
  by_cases hfirst : a < 2 ^ j
  · rw [Nat.div_eq_of_lt hfirst, Nat.mod_eq_of_lt hfirst, if_pos rfl]
    rfl
  · have hfile : a / 2 ^ j ≠ 0 := by
      rw [ne_eq, Nat.div_eq_zero_iff_lt (Nat.two_pow_pos j)]
      exact hfirst
    rw [if_neg hfile, if_neg (by omega)]

/-- One start of the program. -/
theorem PowerUp.run_spec (hn : nSwFilesValid nSwapFiles = true) (hj : j < 32)
    (hcover : size ≤ nSwapFiles * 2 ^ j) (hsuits : b.Suits size nSwapFiles j)
    (hholds : disk.Holds j (nSwapFiles * 2 ^ j) memory) :
    ∃ disk', b.run size nSwapFiles disk = some (disk', (b.flat nSwapFiles memory).2) ∧
      disk'.Holds j (nSwapFiles * 2 ^ j) (b.flat nSwapFiles memory).1 := by
  unfold PowerUp.flat
  cases halloc : (List.range b.cfg.pages).all b.alloc with
  | false =>
      rw [if_neg (by decide)]
      exact ⟨disk, PowerUp.run_noPages hn halloc, hholds⟩
  | true =>
      rw [if_pos rfl]
      cases hrefused : b.refused nSwapFiles with
      | none =>
          obtain ⟨files, hrun, hafter⟩ :=
            PowerUp.run_granted hn halloc hj hsuits hcover hholds hrefused
          exact ⟨_, hrun, hafter⟩
      | some i =>
          obtain ⟨files, hrun, hcontents⟩ := PowerUp.run_refused hn halloc hj hsuits hrefused
          cases i with
          | zero =>
              refine ⟨_, hrun, hholds.congr fun k => ?_⟩
              rw [hcontents, if_neg (by simp)]
          | succ i =>
              refine ⟨_, hrun, hholds.wiped hsuits fun k => ?_⟩
              simp only [hcontents, Nat.zero_lt_succ, and_true]

end Step

/-! ## A row of starts -/

/-- One start after the other on the same disk. -/
def powerUps (size nSwapFiles : Nat) (disk : Disk) :
    List PowerUp → Option (Disk × List (Option (List MemAnswer)))
  | [] => some (disk, [])
  | b :: bs => do
      let (disk, answers) ← b.run size nSwapFiles disk
      let (disk, rest) ← powerUps size nSwapFiles disk bs
      some (disk, answers :: rest)

/-- The same on one memory that is always there. -/
def flatUps (nSwapFiles : Nat) (memory : Memory) :
    List PowerUp → Memory × List (Option (List MemAnswer))
  | [] => (memory, [])
  | b :: bs =>
      let (memory, answers) := b.flat nSwapFiles memory
      let (memory, rest) := flatUps nSwapFiles memory bs
      (memory, answers :: rest)

/-- Two accesses of a new memory, a start that is refused the second file, and the same bytes read
by the 64-bit build. -/
def sampleUps : List PowerUp :=
  [⟨memRv32, fun _ => true, fun _ => true, fun _ => true, [.write 0 [1#8], .write 5000 [7#8]]⟩,
    ⟨memRv32, fun _ => true, fun k => k == 0, fun _ => true, []⟩,
    ⟨memRv64, fun _ => true, fun _ => true, fun _ => true, [.read 0 1, .read 5000 1]⟩]

instance (size : Nat) (op : MemOp) : Decidable (op.inside size) :=
  match op with
  | .read addr n => inferInstanceAs (Decidable (addr + n ≤ size))
  | .write addr buf => inferInstanceAs (Decidable (addr + buf.length ≤ size))
  | .cmp addr buf => inferInstanceAs (Decidable (addr + buf.length ≤ size))

end SwapMemory

end RV640
