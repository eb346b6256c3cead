import RV640.Lib.Bits
import RV640.Lib.Bytes

set_option autoImplicit false

/-! # DOS file handles (`memory.c` with `CONFIG_DOS`)

What the swap code asks of DOS. A handle is an open file with its position; the calls either go
through or stop early, and `SwapEnv` decides which call does what.
-/

namespace RV640

open Bits

/-- An open file: its bytes (those below `size` count) and the file position. -/
structure DosFile where
  data : Nat → Byte
  size : Nat
  pos : Nat

namespace DosFile

/-- A file that `_dos_creat` has just made. -/
def empty : DosFile := ⟨fun _ => 0#8, 0, 0⟩

/-- The file read as an array: zero beyond its end. -/
def contents (f : DosFile) : Nat → Byte := fun i => if i < f.size then f.data i else 0#8

/-- `DOS_SEEK_SET`. -/
def seekSet (f : DosFile) (offset : Nat) : DosFile := { f with pos := offset }

/-- `DOS_SEEK_END`, at offset 0. -/
def seekEnd (f : DosFile) : DosFile := { f with pos := f.size }

/-- Read up to `n` bytes from the position on. -/
def read (f : DosFile) (n : Nat) : DosFile × List Byte :=
  let n := min n (f.size - f.pos)
  ({ f with pos := f.pos + n }, Bytes.readAt f.data f.pos n)

/-- Write bytes from the position on. -/
def write (f : DosFile) (bs : List Byte) : DosFile where
  data := Bytes.writeAt f.data f.pos bs
  size := max f.size (f.pos + bs.length)
  pos := f.pos + bs.length

end DosFile

/-- The world that the swap code runs in. -/
structure SwapEnv where
  /-- Does `_fmalloc` of a page succeed? -/
  alloc : Nat → Bool
  /-- The file that `_dosFOpen` finds or creates under a name; `none` when it returns -1. -/
  openFile : Nat → Option DosFile
  /-- Does the file open again after it was closed? -/
  reopen : Nat → Bool
  /-- What goes wrong with the seek, tell, read or write of a given number: nothing, or the call
  fails after so many bytes. -/
  fault : Nat → Option Nat

/-- No seek, tell, read or write fails. -/
def SwapEnv.ioOk (env : SwapEnv) : Prop := ∀ k, env.fault k = none

/-- The bytes a read or a write of `n` bytes gets to. -/
def transferred (fault : Option Nat) (n : Nat) : Nat :=
  match fault with
  | none => n
  | some k => min k n

end RV640
