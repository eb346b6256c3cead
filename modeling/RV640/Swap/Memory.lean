import RV640.Lib.Bytes
import RV640.Memory
import RV640.Swap.Dos
import Mathlib.Data.List.FinRange
import Mathlib.Logic.Function.Basic

set_option autoImplicit false

/-! # Paged guest memory (`memory.c` with `CONFIG_DOS`)

The DOS build keeps the guest RAM in swap files and caches a few pages of it. The cached pages form
a doubly linked list, the most recently used one in front; a miss takes the last page, writes it
back when it is dirty and loads the missing page over it.

An `unsigned long` has 32 bits on this target. `_parseArgs` admits at most 1024 MB, so no address
and no file size here reaches 2^32 and they are plain numbers.
-/

namespace RV640

open Bits

/-- `MEM_PAGES` and `MEM_PAGE_ADDR_SHIFT`, fixed when the program is built. -/
structure MemCfg where
  pages : Nat
  pages_pos : 0 < pages
  pageAddrShift : Nat
  pageAddrShift_pos : 0 < pageAddrShift

/-- The constants of the 32-bit guest. -/
def memRv32 : MemCfg := ⟨160, by decide, 11, by decide⟩

/-- The constants of the 64-bit guest. -/
def memRv64 : MemCfg := ⟨80, by decide, 12, by decide⟩

/-- `MEM_PAGE_SIZE`. -/
def MemCfg.pageSize (cfg : MemCfg) : Nat := 1 <<< cfg.pageAddrShift

/-- `addr & MEM_PAGE_OFFSET_MASK`. -/
def MemCfg.pageOffset (cfg : MemCfg) (addr : Nat) : Nat := addr &&& (cfg.pageSize - 1)

/-- `addr & MEM_PAGE_ADDR_MASK`. -/
def MemCfg.pageAddr (cfg : MemCfg) (addr : Nat) : Nat :=
  (addr >>> cfg.pageAddrShift) <<< cfg.pageAddrShift

/-- `ALIGN_UP(v, MEM_PAGE_SIZE)`. -/
def MemCfg.alignUp (cfg : MemCfg) (v : Nat) : Nat := cfg.pageAddr (v + cfg.pageSize - 1)

/-- `MAX_SWAP_FILES`. -/
def maxSwapFiles : Nat := 8

/-- `struct _memPage`. -/
structure MemPage (cfg : MemCfg) where
  addr : Nat
  dirty : Bool
  data : Nat → Byte
  next : Option (Fin cfg.pages)
  prev : Option (Fin cfg.pages)

/-- `Memory`. A handle of -1 is `none`, and so is whatever lies behind the array `swapFiles`. -/
structure SwapMemory (cfg : MemCfg) where
  pages : Fin cfg.pages → MemPage cfg
  lruListHead : Fin cfg.pages
  swapFiles : Nat → Option DosFile
  filePosMask : Nat
  fileNoShift : Nat
  devSize : Nat
  /-- The seeks, tells, reads and writes made so far. -/
  dosCalls : Nat

namespace SwapMemory

variable {cfg : MemCfg}

/-! ## Files -/

/-- A handle's file after a call on it. -/
def setFile (self : SwapMemory cfg) (file : Nat) (f : DosFile) : SwapMemory cfg :=
  { self with swapFiles := Function.update self.swapFiles file (some f) }

/-- One more call. -/
def called (self : SwapMemory cfg) : SwapMemory cfg := { self with dosCalls := self.dosCalls + 1 }

/-- `_dosFSeek(file, offset, DOS_SEEK_SET)`, with `true` for a result of 0. -/
def dosFSeek (env : SwapEnv) (self : SwapMemory cfg) (file offset : Nat) : SwapMemory cfg × Bool :=
  match self.swapFiles file, env.fault self.dosCalls with
  | some f, none => ((self.setFile file (f.seekSet offset)).called, true)
  | _, _ => (self.called, false)

/-- `_dosFSeek(file, 0, DOS_SEEK_END)`. -/
def dosFSeekEnd (env : SwapEnv) (self : SwapMemory cfg) (file : Nat) : SwapMemory cfg × Bool :=
  match self.swapFiles file, env.fault self.dosCalls with
  | some f, none => ((self.setFile file f.seekEnd).called, true)
  | _, _ => (self.called, false)

/-- `_dosFTell`, converted to `unsigned long` as the comparison with a file size does. -/
def dosFTell (env : SwapEnv) (self : SwapMemory cfg) (file : Nat) : SwapMemory cfg × Nat :=
  match self.swapFiles file, env.fault self.dosCalls with
  | some f, none => (self.called, f.pos)
  | _, _ => (self.called, 2 ^ 32 - 1)

/-- `_dosFRead`: the bytes that were read. -/
def dosFRead (env : SwapEnv) (self : SwapMemory cfg) (file size : Nat) :
    SwapMemory cfg × List Byte :=
  match self.swapFiles file with
  | some f =>
      let (f, bs) := f.read (transferred (env.fault self.dosCalls) size)
      ((self.setFile file f).called, bs)
  | none => (self.called, [])

/-- `_dosFWrite`: the number of bytes that were written. -/
def dosFWrite (env : SwapEnv) (self : SwapMemory cfg) (file : Nat) (bs : List Byte) :
    SwapMemory cfg × Nat :=
  match self.swapFiles file with
  | some f =>
      let n := transferred (env.fault self.dosCalls) bs.length
      ((self.setFile file (f.write (bs.take n))).called, n)
  | none => (self.called, 0)

/-! ## Pages -/

/-- A page after an assignment to its fields. -/
def setPage (self : SwapMemory cfg) (page : Fin cfg.pages) (p : MemPage cfg) : SwapMemory cfg :=
  { self with pages := Function.update self.pages page p }

/-- `page->next = x`. -/
def setNext (self : SwapMemory cfg) (page : Fin cfg.pages) (x : Option (Fin cfg.pages)) :
    SwapMemory cfg := self.setPage page { self.pages page with next := x }

/-- `page->prev = x`. -/
def setPrev (self : SwapMemory cfg) (page : Fin cfg.pages) (x : Option (Fin cfg.pages)) :
    SwapMemory cfg := self.setPage page { self.pages page with prev := x }

/-- `_swapLruHead`. -/
def swapLruHead (self : SwapMemory cfg) (page : Fin cfg.pages) : SwapMemory cfg :=
  let self :=
    match (self.pages page).prev with
    | some prev => self.setNext prev (self.pages page).next
    | none => self
  let self :=
    match (self.pages page).next with
    | some next => self.setPrev next (self.pages page).prev
    | none => self
  let self := self.setNext page (some self.lruListHead)
  let self := self.setPrev page none
  let self := self.setPrev self.lruListHead (some page)
  { self with lruListHead := page }

/-- `_lookupSwapFile`: the index into `swapFiles`. -/
def lookupSwapFile (self : SwapMemory cfg) (pageAddr : Nat) : Nat := pageAddr >>> self.fileNoShift

/-- `_storePage`. -/
def storePage (env : SwapEnv) (self : SwapMemory cfg) (page : Fin cfg.pages) : SwapMemory cfg :=
  let swap := self.lookupSwapFile (self.pages page).addr
  let pos := (self.pages page).addr &&& self.filePosMask
  match self.dosFSeek env swap pos with
  | (self, false) => self
  | (self, true) =>
      (self.dosFWrite env swap (Bytes.readAt (self.pages page).data 0 cfg.pageSize)).1

/-- `_loadPage`. The bytes that were read are in the page's buffer even when the read stops early;
the page takes its new address only after a full read. -/
def loadPage (env : SwapEnv) (self : SwapMemory cfg) (pageAddr : Nat) (page : Fin cfg.pages) :
    SwapMemory cfg :=
  let swap := self.lookupSwapFile pageAddr
  let pos := pageAddr &&& self.filePosMask
  match self.dosFSeek env swap pos with
  | (self, false) => self
  | (self, true) =>
      let (self, bs) := self.dosFRead env swap cfg.pageSize
      let self := self.setPage page
        { self.pages page with data := Bytes.writeAt (self.pages page).data 0 bs }
      if bs.length ≠ cfg.pageSize then self
      else self.setPage page { self.pages page with addr := pageAddr, dirty := false }

/-- The loop of `_lookupPage`: the page with the address, with `true`, or the last page, with
`false`. The pointers either end within `MEM_PAGES` pages or run in a circle, and then the loop does
not return. -/
def searchPage (self : SwapMemory cfg) (pageAddr : Nat) :
    Nat → Fin cfg.pages → Option (Fin cfg.pages × Bool)
  | 0, _ => none
  | fuel + 1, page =>
      if (self.pages page).addr = pageAddr then some (page, true)
      else
        match (self.pages page).next with
        | none => some (page, false)
        | some next => self.searchPage pageAddr fuel next

/-- `_lookupPage`. -/
def lookupPage (env : SwapEnv) (self : SwapMemory cfg) (addr : Nat) :
    Option (SwapMemory cfg × Fin cfg.pages) :=
  let pageAddr := cfg.pageAddr addr
  match self.searchPage pageAddr cfg.pages self.lruListHead with
  | none => none
  | some (page, true) =>
      some (if page ≠ self.lruListHead then self.swapLruHead page else self, page)
  | some (page, false) =>
      let self := self.swapLruHead page
      let self := if (self.pages page).dirty then self.storePage env page else self
      some (self.loadPage env pageAddr page, page)

/-! ## Accesses

Each round of a loop handles at least one byte, so `size` rounds are enough. -/

/-- The bytes a round handles: `min_size_t(MEM_PAGE_SIZE - pageOffest, size - done)`. -/
def chunkSize (cfg : MemCfg) (localAddr rest : Nat) : Nat :=
  min (cfg.pageSize - cfg.pageOffset localAddr) rest

/-- The loop of `mem_read`: `rest` bytes are still to read. -/
def readLoop (env : SwapEnv) : Nat → SwapMemory cfg → Nat → Nat → List Byte →
    Option (SwapMemory cfg × List Byte)
  | 0, self, _, _, buf => some (self, buf)
  | fuel + 1, self, localAddr, rest, buf =>
      if rest = 0 then some (self, buf)
      else
        match self.lookupPage env localAddr with
        | none => none
        | some (self, page) =>
            let chunk := chunkSize cfg localAddr rest
            readLoop env fuel self (localAddr + chunk) (rest - chunk)
              (buf ++ Bytes.readAt (self.pages page).data (cfg.pageOffset localAddr) chunk)

/-- `mem_read`. -/
def memRead (env : SwapEnv) (self : SwapMemory cfg) (addr size : Nat) :
    Option (SwapMemory cfg × List Byte) :=
  readLoop env size self addr size []

/-- The loop of `mem_write`: `buf` is still to write. -/
def writeLoop (env : SwapEnv) : Nat → SwapMemory cfg → Nat → List Byte → Option (SwapMemory cfg)
  | 0, self, _, _ => some self
  | fuel + 1, self, localAddr, buf =>
      if buf.length = 0 then some self
      else
        match self.lookupPage env localAddr with
        | none => none
        | some (self, page) =>
            let chunk := chunkSize cfg localAddr buf.length
            let data := Bytes.writeAt (self.pages page).data (cfg.pageOffset localAddr)
              (buf.take chunk)
            writeLoop env fuel
              (self.setPage page { self.pages page with data := data, dirty := true })
              (localAddr + chunk) (buf.drop chunk)

/-- `mem_write`. -/
def memWrite (env : SwapEnv) (self : SwapMemory cfg) (addr : Nat) (buf : List Byte) :
    Option (SwapMemory cfg) :=
  writeLoop env buf.length self addr buf

/-- The loop of `mem_cmp`: `buf` is still to compare. -/
def cmpLoop (env : SwapEnv) : Nat → SwapMemory cfg → Nat → List Byte →
    Option (SwapMemory cfg × Ordering)
  | 0, self, _, _ => some (self, .eq)
  | fuel + 1, self, localAddr, buf =>
      if buf.length = 0 then some (self, .eq)
      else
        match self.lookupPage env localAddr with
        | none => none
        | some (self, page) =>
            let chunk := chunkSize cfg localAddr buf.length
            match memcmp (Bytes.readAt (self.pages page).data (cfg.pageOffset localAddr) chunk)
                (buf.take chunk) with
            | .eq => cmpLoop env fuel self (localAddr + chunk) (buf.drop chunk)
            | res => some (self, res)

/-- `mem_cmp`. -/
def memCmp (env : SwapEnv) (self : SwapMemory cfg) (addr : Nat) (buf : List Byte) :
    Option (SwapMemory cfg × Ordering) :=
  cmpLoop env buf.length self addr buf

/-! ## Start and end -/

/-- Why `mem_init` returns `false`. -/
inductive InitError
  | invalidSwapFiles
  | allocPage
  | createSwap (i : Nat)
  | writeSwap (i : Nat)
  | reopenSwap (i : Nat)
  deriving DecidableEq

/-- How a call of `mem_init` ends: it returns `true` or `false`, or it does not return. -/
inductive InitResult (cfg : MemCfg)
  | ready (self : SwapMemory cfg)
  | failed (error : InitError)
  | hangs

/-- The check of the number of swap files: `for(i = 1; i <= MAX_SWAP_FILES; i <<= 1)`. -/
def nSwFilesValid (nSwapFiles : Nat) : Bool :=
  (List.range 4).any fun k => nSwapFiles == 1 <<< k

/-- The size of a swap file: `ALIGN_UP(size / nSwapFiles, MEM_PAGE_SIZE)`. -/
def nFileSize (cfg : MemCfg) (size nSwapFiles : Nat) : Nat := cfg.alignUp (size / nSwapFiles)

/-- The loop that finds `filePosMask` and `fileNoShift`. An `unsigned long` that is not 0 is odd
after at most 31 shifts; 0 never is. -/
def layoutLoop : Nat → Nat → Nat → Nat → Option (Nat × Nat)
  | 0, _, _, _ => none
  | fuel + 1, n, filePosMask, fileNoShift =>
      if n &&& 1 = 0 then layoutLoop fuel (n >>> 1) (filePosMask <<< 1 ||| 1) (fileNoShift + 1)
      else some (filePosMask, fileNoShift)

/-- `filePosMask` and `fileNoShift` of a file size. -/
def swapLayout (nFileSize : Nat) : Option (Nat × Nat) := layoutLoop 32 nFileSize 0 0

/-- The loop that fills a swap file with zero pages. Every round moves `swapPos` on, so
`nFileSize - swapPos` rounds are enough. -/
def growFile (env : SwapEnv) (nFileSize file : Nat) :
    Nat → SwapMemory cfg → Nat → Option (SwapMemory cfg)
  | 0, self, _ => some self
  | fuel + 1, self, swapPos =>
      if swapPos < nFileSize then
        let (self, written) := self.dosFWrite env file (List.replicate cfg.pageSize 0#8)
        if written ≠ cfg.pageSize then none
        else growFile env nFileSize file fuel self (swapPos + cfg.pageSize)
      else some self

/-- One round of the loop over the swap files. -/
def initFile (env : SwapEnv) (nFileSize : Nat) (self : SwapMemory cfg) (i : Nat) :
    Except InitError (SwapMemory cfg) :=
  match env.openFile i with
  | none => .error (.createSwap i)
  | some f =>
      let self := self.setFile i { f with pos := 0 }
      let (self, _) := self.dosFSeekEnd env i
      let (self, swapPos) := self.dosFTell env i
      match self.growFile env nFileSize i (nFileSize - swapPos) swapPos with
      | none => .error (.writeSwap i)
      | some self =>
          match self.swapFiles i, env.reopen i with
          | some f, true => .ok (self.setFile i { f with pos := 0 })
          | _, _ => .error (.reopenSwap i)

/-- One round of the loop that loads the first pages and links them. -/
def initPage (env : SwapEnv) (self : SwapMemory cfg) (i : Fin cfg.pages) : SwapMemory cfg :=
  let self := self.loadPage env (cfg.pageSize * i) i
  let self := if h : i.val + 1 < cfg.pages then self.setNext i (some ⟨i + 1, h⟩) else self
  if 0 < i.val then self.setPrev i (some ⟨i - 1, by omega⟩) else self

/-- `mem_init` up to the opening of the files: everything zero, no file open. -/
def initMemory (size filePosMask fileNoShift : Nat) : SwapMemory cfg where
  pages := fun _ => ⟨0, false, fun _ => 0#8, none, none⟩
  lruListHead := ⟨0, cfg.pages_pos⟩
  swapFiles := fun _ => none
  filePosMask := filePosMask
  fileNoShift := fileNoShift
  devSize := size
  dosCalls := 0

/-- `mem_init`. -/
def memInit (cfg : MemCfg) (env : SwapEnv) (size nSwapFiles : Nat) : InitResult cfg :=
  if !nSwFilesValid nSwapFiles then .failed .invalidSwapFiles
  else if !(List.range cfg.pages).all env.alloc then .failed .allocPage
  else
    match swapLayout (nFileSize cfg size nSwapFiles) with
    | none => .hangs
    | some (filePosMask, fileNoShift) =>
        match (List.range nSwapFiles).foldlM (initFile env (nFileSize cfg size nSwapFiles))
            (initMemory size filePosMask fileNoShift) with
        | .error e => .failed e
        | .ok self => .ready ((List.finRange cfg.pages).foldl (initPage env) self)

/-- One round of the loop of `mem_destroy` over the pages. -/
def destroyPage (env : SwapEnv) (self : SwapMemory cfg) (i : Fin cfg.pages) : SwapMemory cfg :=
  if self.fileNoShift ≠ 0 ∧ (self.swapFiles (self.lookupSwapFile (self.pages i).addr)).isSome then
    self.storePage env i
  else self

/-- `mem_destroy`: the files as they are closed. -/
def memDestroy (env : SwapEnv) (self : SwapMemory cfg) : Nat → Option DosFile :=
  ((List.finRange cfg.pages).foldl (destroyPage env) self).swapFiles

end SwapMemory

end RV640
