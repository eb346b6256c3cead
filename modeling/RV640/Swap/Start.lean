import RV640.Swap.Memory

set_option autoImplicit false

/-! # What `mem_init` leaves on the disk when it fails (`memory.c` with `CONFIG_DOS`)

A failed `mem_init` calls `mem_destroy`, which writes the cached pages back, although none has been
loaded. Here are its rounds with the memory as it is at that point, and the files that are left when
all handles are closed.
-/

namespace RV640

open Bits

namespace SwapMemory

variable {cfg : MemCfg}

/-- `self->swapFiles[i] = -1`. -/
def clearFile (self : SwapMemory cfg) (file : Nat) : SwapMemory cfg :=
  { self with swapFiles := Function.update self.swapFiles file none }

/-- The loop that fills a swap file with zero pages, and whether all its writes went through. -/
def fillFile (env : SwapEnv) (nFileSize file : Nat) :
    Nat → SwapMemory cfg → Nat → SwapMemory cfg × Bool
  | 0, self, _ => (self, true)
  | fuel + 1, self, swapPos =>
      if swapPos < nFileSize then
        let (self, written) := self.dosFWrite env file (List.replicate cfg.pageSize 0#8)
        if written ≠ cfg.pageSize then (self, false)
        else fillFile env nFileSize file fuel self (swapPos + cfg.pageSize)
      else (self, true)

/-- An error of `mem_init`, with the files that it has closed. -/
structure InitStop where
  error : InitError
  closed : Nat → Option DosFile

/-- One round of the loop over the swap files, with `mem_destroy` where it fails. A file that does
not open again has been closed before that. -/
def openSwapFile (env : SwapEnv) (nFileSize : Nat) (self : SwapMemory cfg) (i : Nat) :
    Except InitStop (SwapMemory cfg) :=
  match env.openFile i with
  | none => .error ⟨.createSwap i, (self.clearFile i).memDestroy env⟩
  | some f =>
      let self := self.setFile i { f with pos := 0 }
      let (self, _) := self.dosFSeekEnd env i
      let (self, swapPos) := self.dosFTell env i
      match self.fillFile env nFileSize i (nFileSize - swapPos) swapPos with
      | (self, false) => .error ⟨.writeSwap i, self.memDestroy env⟩
      | (self, true) =>
          match self.swapFiles i, env.reopen i with
          | some f, true => .ok (self.setFile i { f with pos := 0 })
          | closed, _ =>
              .error ⟨.reopenSwap i,
                Function.update ((self.clearFile i).memDestroy env) i closed⟩

/-- How a call of `mem_init` ends, with the files that a failed one has closed. -/
inductive StartResult (cfg : MemCfg)
  | ready (self : SwapMemory cfg)
  | failed (stop : InitStop)
  | hangs

/-- `mem_init`. Where a page cannot be allocated no file has been opened. -/
def startMemory (cfg : MemCfg) (env : SwapEnv) (size nSwapFiles : Nat) : StartResult cfg :=
  if !nSwFilesValid nSwapFiles then .failed ⟨.invalidSwapFiles, fun _ => none⟩
  else if !(List.range cfg.pages).all env.alloc then .failed ⟨.allocPage, fun _ => none⟩
  else
    match swapLayout (nFileSize cfg size nSwapFiles) with
    | none => .hangs
    | some (filePosMask, fileNoShift) =>
        match (List.range nSwapFiles).foldlM (openSwapFile env (nFileSize cfg size nSwapFiles))
            (initMemory size filePosMask fileNoShift) with
        | .error stop => .failed stop
        | .ok self => .ready ((List.finRange cfg.pages).foldl (initPage env) self)

/-! ## It is the same function -/

/-- The result without the files. -/
def StartResult.forget : StartResult cfg → InitResult cfg
  | .ready self => .ready self
  | .failed stop => .failed stop.error
  | .hangs => .hangs

theorem fillFile_growFile (env : SwapEnv) (fileSize file fuel : Nat) (self : SwapMemory cfg)
    (swapPos : Nat) : self.growFile env fileSize file fuel swapPos
      = if (self.fillFile env fileSize file fuel swapPos).2 then
          some (self.fillFile env fileSize file fuel swapPos).1
        else none := by
  induction fuel generalizing self swapPos with
  | zero => rfl
  | succ fuel ih =>
      simp only [growFile, fillFile]
      split
      · split
        · rfl
        · exact ih _ _
      · rfl

theorem openSwapFile_initFile (env : SwapEnv) (fileSize : Nat) (self : SwapMemory cfg) (i : Nat) :
    self.initFile env fileSize i = (self.openSwapFile env fileSize i).mapError InitStop.error := by
  unfold initFile openSwapFile
  cases env.openFile i with
  | none => rfl
  | some f =>
      simp only [fillFile_growFile]
      generalize fillFile env fileSize i _ _ _ = filled
      obtain ⟨u, _ | _⟩ := filled
      · rfl
      · simp only [if_true]
        generalize u.swapFiles i = file
        cases file with
        | none => rfl
        | some g => cases env.reopen i <;> rfl

theorem openSwapFiles_initFiles (env : SwapEnv) (fileSize : Nat) (files : List Nat)
    (self : SwapMemory cfg) : files.foldlM (initFile env fileSize) self
      = (files.foldlM (openSwapFile env fileSize) self).mapError InitStop.error := by
  induction files generalizing self with
  | nil => rfl
  | cons i files ih =>
      rw [List.foldlM_cons, List.foldlM_cons, openSwapFile_initFile]
      cases self.openSwapFile env fileSize i with
      | error stop => rfl
      | ok t => exact ih t

/-- The two models of `mem_init` end alike. -/
theorem startMemory_memInit (cfg : MemCfg) (env : SwapEnv) (size nSwapFiles : Nat) :
    memInit cfg env size nSwapFiles = (startMemory cfg env size nSwapFiles).forget := by
  unfold memInit startMemory
  split
  · rfl
  · split
    · rfl
    · cases swapLayout (nFileSize cfg size nSwapFiles) with
      | none => rfl
      | some layout =>
          simp only [openSwapFiles_initFiles]
          cases (List.range nSwapFiles).foldlM (openSwapFile env (nFileSize cfg size nSwapFiles))
            (initMemory size layout.1 layout.2 : SwapMemory cfg) with
          | error stop => rfl
          | ok self => rfl

end SwapMemory

end RV640
