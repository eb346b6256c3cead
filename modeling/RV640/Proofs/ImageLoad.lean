import RV640.Lib.Masks
import RV640.Load
import RV640.Proofs.RamAccess
import RV640.Proofs.SwapRefines

set_option autoImplicit false

/-! # Where an image ends up

Neither loader compares an offset with the size of RAM or with the place of the device tree blob.
Both copy the file to consecutive offsets, so everything about a load is decided by the first offset
and the length of the file: it goes well exactly when the image ends below the blob.
-/

namespace RV640

open Bits

variable {c : Cfg}

/-! ## The loop -/

theorem loadLoop_eof {f : HostFile} (h : f.eof = true) (ptr : Addr c) : loadLoop f ptr = [] := by
  rw [loadLoop, if_pos h]

theorem loadLoop_short {file : List Byte} (h : file.length < bufSize c) (ptr : Addr c) :
    loadLoop ⟨file, false⟩ ptr = [(ptr, file)] := by
  have heof : (fread ⟨file, false⟩ (bufSize c)).2.eof = true := by simp [fread, h]
  have hread : (fread ⟨file, false⟩ (bufSize c)).1 = file := List.take_of_length_le (le_of_lt h)
  rw [loadLoop, if_neg Bool.false_ne_true]
  simp only [hread, loadLoop_eof heof]

theorem loadLoop_full {file : List Byte} (h : bufSize c ≤ file.length) (ptr : Addr c) :
    loadLoop ⟨file, false⟩ ptr
      = (ptr, file.take (bufSize c))
        :: loadLoop ⟨file.drop (bufSize c), false⟩ (ptr + BitVec.ofNat _ (bufSize c)) := by
  have htake : (file.take (bufSize c)).length = bufSize c := List.length_take_of_le h
  have heof : decide (file.length < bufSize c) = false := decide_eq_false (not_lt.mpr h)
  rw [loadLoop, if_neg Bool.false_ne_true]
  simp only [fread, htake, heof, Bool.false_or]

/-- The offsets of the writes as numbers. -/
def offsets (writes : List (Addr c × List Byte)) : List (Nat × List Byte) :=
  writes.map fun w => (w.1.toNat, w.2)

theorem addr_add_toNat (ptr : Addr c) {n : Nat} (h : ptr.toNat + n < 2 ^ c.alen) :
    (ptr + BitVec.ofNat _ n).toNat = ptr.toNat + n := by
  rw [BitVec.toNat_add, BitVec.toNat_ofNat, Nat.add_mod_mod, Nat.mod_eq_of_lt h]

/-- The loop writes the file to consecutive offsets, as long as these do not wrap. -/
theorem loadLoop_consecutive (file : List Byte) (ptr : Addr c)
    (h : ptr.toNat + file.length < 2 ^ c.alen) :
    Bytes.Consecutive ptr.toNat (offsets (loadLoop ⟨file, false⟩ ptr))
      ∧ (offsets (loadLoop ⟨file, false⟩ ptr)).flatMap Prod.snd = file := by
  induction file using Bytes.chunk_induction (bufSize_pos c) generalizing ptr with
  | short file hlt =>
      rw [loadLoop_short hlt]
      exact ⟨⟨rfl, trivial⟩, List.append_nil file⟩
  | full file hle ih =>
      have hnext := addr_add_toNat ptr (n := bufSize c) (by omega)
      have hlen : (file.drop (bufSize c)).length = file.length - bufSize c := List.length_drop
      obtain ⟨hcons, hall⟩ := ih (ptr + BitVec.ofNat _ (bufSize c)) (by rw [hnext, hlen]; omega)
      rw [loadLoop_full hle]
      refine ⟨⟨rfl, ?_⟩, ?_⟩
      · have htake : (file.take (bufSize c)).length = bufSize c := List.length_take_of_le hle
        rw [htake, ← hnext]
        exact hcons
      · have hsplit : (offsets ((ptr, file.take (bufSize c))
              :: loadLoop ⟨file.drop (bufSize c), false⟩
                (ptr + BitVec.ofNat _ (bufSize c)))).flatMap Prod.snd
            = file.take (bufSize c) ++ (offsets (loadLoop ⟨file.drop (bufSize c), false⟩
                (ptr + BitVec.ofNat _ (bufSize c)))).flatMap Prod.snd := rfl
        rw [hsplit, hall, List.take_append_drop]

/-- A range that avoids `d` and starts at or below it ends at or below it. -/
def Avoids (d : Nat) (w : Addr c × List Byte) : Prop :=
  ¬(w.1.toNat ≤ d ∧ d < w.1.toNat + w.2.length)

/-- A loop that starts below an offset and never writes to it ends below it. -/
theorem loadLoop_avoids {d : Nat} (hd : d + bufSize c < 2 ^ c.alen) (file : List Byte)
    (ptr : Addr c) (hptr : ptr.toNat ≤ d)
    (h : ∀ w ∈ loadLoop ⟨file, false⟩ ptr, Avoids d w) : ptr.toNat + file.length ≤ d := by
  induction file using Bytes.chunk_induction (bufSize_pos c) generalizing ptr with
  | short file hlt =>
      rw [loadLoop_short hlt] at h
      have hfirst := h _ (List.mem_singleton_self _)
      simp only [Avoids] at hfirst
      omega
  | full file hle ih =>
      rw [loadLoop_full hle] at h
      have htake : (file.take (bufSize c)).length = bufSize c := List.length_take_of_le hle
      have hlen : (file.drop (bufSize c)).length = file.length - bufSize c := List.length_drop
      have hfirst := h _ List.mem_cons_self
      -- the chunk ends at or below `d`, so the next offset has not wrapped
      simp only [Avoids, htake] at hfirst
      have hnext := addr_add_toNat ptr (n := bufSize c) (by omega)
      have hrest := ih (ptr + BitVec.ofNat _ (bufSize c)) (by omega)
        fun w hw => h w (List.mem_cons_of_mem _ hw)
      omega

/-! ## The loaders -/

/-- The offset in RAM at which an image is loaded. -/
def imageOffset (c : Cfg) (kind : ImageKind) (file : List Byte) : Addr c :=
  match kind with
  | .kernel => (textOffset file).setWidth _
  | .bin => 0#_

/-- The loader takes the file: a kernel image fills the buffer and has both magic numbers, and the
entry point is not 0. -/
structure Accepted (c : Cfg) (kind : ImageKind) (env : LoadEnv) (file : List Byte) : Prop where
  opened : env.file = some file
  alloc : env.alloc = true
  header : kind = .kernel → bufSize c ≤ file.length ∧ isLinuxImage file = true
  entry : imageOffset c kind file + ramBase ≠ 0#_

/-- The header lies in the first chunk. -/
theorem header_take {file : List Byte} {n k : Nat} (hnk : n + k ≤ bufSize c) :
    ((file.take (bufSize c)).drop n).take k = (file.drop n).take k := by
  rw [List.drop_take, List.take_take, min_eq_left (by omega)]

theorem header_fits (c : Cfg) : 60 ≤ bufSize c := by cases c <;> decide

theorem textOffset_take (c : Cfg) (file : List Byte) :
    textOffset (file.take (bufSize c)) = textOffset file := by
  have := header_fits c
  rw [textOffset, textOffset, header_take (by omega)]

theorem isLinuxImage_take (c : Cfg) (file : List Byte) :
    isLinuxImage (file.take (bufSize c)) = isLinuxImage file := by
  have := header_fits c
  rw [isLinuxImage, isLinuxImage, magic1, magic1, magic2, magic2, header_take (by omega),
    header_take (by omega)]

/-- The entry point in the width of an address. -/
theorem entry_eq (x : BitVec 64) :
    (x + (ramBase : Addr c).setWidth 64).setWidth c.alen = x.setWidth c.alen + ramBase := by
  have hle : c.alen ≤ 64 := le_trans c.alen_le_xlen c.xlen_le
  rw [BitVec.setWidth_add _ _ hle, BitVec.setWidth_setWidth_of_le _ hle, BitVec.setWidth_eq]

theorem loadLinuxImage_eq {env : LoadEnv} {file : List Byte} (hfile : env.file = some file)
    (halloc : env.alloc = true) :
    loadLinuxImage env (ramBase : Addr c)
      = if bufSize c ≤ file.length ∧ isLinuxImage file = true then
          ⟨loadLoop ⟨file, false⟩ (imageOffset c .kernel file),
            imageOffset c .kernel file + ramBase⟩
        else .fail := by
  by_cases hle : bufSize c ≤ file.length
  · have htake : (file.take (bufSize c)).length = bufSize c := List.length_take_of_le hle
    have heof : decide (file.length < bufSize c) = false := decide_eq_false (not_lt.mpr hle)
    simp only [loadLinuxImage, hfile, halloc, fread, htake, lt_irrefl, if_false, if_true, hle,
      true_and, isLinuxImage_take, textOffset_take, Bool.false_or, heof, loadLoop_full hle,
      entry_eq, imageOffset]
  · have hlt : (file.take (bufSize c)).length < bufSize c := by
      rw [List.length_take]
      omega
    simp only [loadLinuxImage, hfile, halloc, fread, hlt, if_true, hle, false_and, if_false]

theorem loadBin_eq {env : LoadEnv} {file : List Byte} (hfile : env.file = some file)
    (halloc : env.alloc = true) :
    loadBin env (ramBase : Addr c)
      = ⟨loadLoop ⟨file, false⟩ (imageOffset c .bin file),
          imageOffset c .bin file + ramBase⟩ := by
  simp only [loadBin, hfile, halloc, if_true, imageOffset, BitVec.zero_add]

/-- An accepted file is written from its offset on. -/
theorem Accepted.load {kind : ImageKind} {env : LoadEnv} {file : List Byte}
    (h : Accepted c kind env file) :
    loadImage kind env = (⟨loadLoop ⟨file, false⟩ (imageOffset c kind file),
      imageOffset c kind file + ramBase⟩ : Load c) := by
  cases kind with
  | kernel => exact (loadLinuxImage_eq h.opened h.alloc).trans (if_pos (h.header rfl))
  | bin => exact loadBin_eq h.opened h.alloc

/-- Without a file or a buffer nothing is loaded. -/
theorem loadImage_fail {kind : ImageKind} {env : LoadEnv}
    (h : env.file = none ∨ env.alloc = false) : (loadImage kind env : Load c) = .fail := by
  rcases h with hfile | halloc
  · cases kind with
    | kernel => simp only [loadImage, loadLinuxImage, hfile]
    | bin => simp only [loadImage, loadBin, hfile]
  · cases hfile : env.file with
    | none =>
        cases kind with
        | kernel => simp only [loadImage, loadLinuxImage, hfile]
        | bin => simp only [loadImage, loadBin, hfile]
    | some file =>
        cases kind with
        | kernel => simp [loadImage, loadLinuxImage, hfile, halloc]
        | bin => simp [loadImage, loadBin, hfile, halloc]

/-- The loaders return an entry point for the accepted files and no others. -/
theorem loadImage_entry_iff (kind : ImageKind) (env : LoadEnv) :
    (loadImage kind env : Load c).entry ≠ 0#_ ↔ ∃ file, Accepted c kind env file := by
  constructor
  · intro h
    have hsome : ¬(env.file = none ∨ env.alloc = false) := by
      intro hfail
      rw [loadImage_fail hfail] at h
      exact h rfl
    rw [not_or, Bool.not_eq_false] at hsome
    obtain ⟨hopen, halloc⟩ := hsome
    obtain ⟨file, hfile⟩ := Option.ne_none_iff_exists'.mp hopen
    cases kind with
    | kernel =>
        rw [loadImage, loadLinuxImage_eq hfile halloc] at h
        by_cases hheader : bufSize c ≤ file.length ∧ isLinuxImage file = true
        · rw [if_pos hheader] at h
          exact ⟨file, hfile, halloc, fun _ => hheader, h⟩
        · rw [if_neg hheader] at h
          exact absurd rfl h
    | bin =>
        rw [loadImage, loadBin_eq hfile halloc] at h
        exact ⟨file, hfile, halloc, (fun hk => by cases hk), h⟩
  · rintro ⟨file, h⟩
    rw [h.load]
    exact h.entry

/-! ## The blob -/

/-- The offset of the blob in RAM. -/
def dtbOffset (c : Cfg) (memSize dtbSize : Nat) : Nat := ramOffset (dtbAddress c memSize dtbSize)

theorem dtbAddress_toNat {memSize dtbSize : Nat} (hmem : memSize ≤ ramSizeMax)
    (hdtb : dtbSize ≤ memSize) :
    (dtbAddress c memSize dtbSize).toNat
      = (memSize + 0x80000000 - dtbSize) / (c.alen / 8) * (c.alen / 8) := by
  have hw := two_pow_32_le_alen c
  have hmax : ramSizeMax = 2 ^ 30 := rfl
  have hsum : (BitVec.ofNat c.alen memSize + ramBase).toNat = memSize + 0x80000000 := by
    rw [BitVec.toNat_add, BitVec.toNat_ofNat, ramBase_toNat, Nat.mod_add_mod,
      Nat.mod_eq_of_lt (by omega)]
  have hsize : (BitVec.ofNat c.alen dtbSize).toNat = dtbSize := by
    rw [BitVec.toNat_ofNat, Nat.mod_eq_of_lt (by omega)]
  have htop : (BitVec.ofNat c.alen memSize + ramBase - BitVec.ofNat c.alen dtbSize).toNat
      = memSize + 0x80000000 - dtbSize := by
    rw [BitVec.toNat_sub_of_le (by rw [BitVec.le_def, hsum, hsize]; omega), hsum, hsize]
  rw [dtbAddress, ← htop]
  -- four or eight bytes
  cases c with
  | rv32 => exact toNat_align_down (k := 2) _ (by decide)
  | rv64 => exact toNat_align_down (k := 3) _ (by decide)
  | rv64Addr32 => exact toNat_align_down (k := 2) _ (by decide)

/-- The blob lies in RAM and ends less than eight bytes below its end. -/
theorem dtbOffset_spec {memSize dtbSize : Nat} (hmem : memSize ≤ ramSizeMax)
    (hdtb : dtbSize ≤ memSize) :
    (dtbAddress c memSize dtbSize).toNat = 0x80000000 + dtbOffset c memSize dtbSize
      ∧ dtbOffset c memSize dtbSize + dtbSize ≤ memSize
      ∧ memSize < dtbOffset c memSize dtbSize + dtbSize + 8 := by
  have haddr := dtbAddress_toNat (c := c) hmem hdtb
  have hround : (dtbAddress c memSize dtbSize).toNat ≤ memSize + 0x80000000 - dtbSize
      ∧ memSize + 0x80000000 - dtbSize < (dtbAddress c memSize dtbSize).toNat + 8
      ∧ 0x80000000 ≤ (dtbAddress c memSize dtbSize).toNat := by
    rw [haddr]
    cases c with
    | rv32 =>
        show _ / 4 * 4 ≤ _ ∧ _ < _ / 4 * 4 + 8 ∧ _ ≤ _ / 4 * 4
        omega
    | rv64 =>
        show _ / 8 * 8 ≤ _ ∧ _ < _ / 8 * 8 + 8 ∧ _ ≤ _ / 8 * 8
        omega
    | rv64Addr32 =>
        show _ / 4 * 4 ≤ _ ∧ _ < _ / 4 * 4 + 8 ∧ _ ≤ _ / 4 * 4
        omega
  unfold dtbOffset ramOffset
  omega

/-! ## A load -/

/-- Every `mem_write` of the load stays in RAM, satisfies the asserts and leaves the blob alone, and
RAM then holds the file at the load offset. -/
structure LoadedInside (ramSize dtbSize : Nat) (ram : Memory) (load : Load c) (file : List Byte) :
    Prop where
  inRam : ∀ w ∈ load.writes, w.1.toNat + w.2.length ≤ ramSize
  asserts : ∀ w ∈ load.writes, memAsserts ramSize w.1.toNat w.2.length
  apart : ∀ w ∈ load.writes, ∀ i, dtbOffset c ramSize dtbSize ≤ i →
    i < dtbOffset c ramSize dtbSize + dtbSize → ¬(w.1.toNat ≤ i ∧ i < w.1.toNat + w.2.length)
  loaded : Bytes.readAt (memWrites ram load.writes).data (load.entry - ramBase).toNat file.length
    = file

theorem memWrites_cons (ram : Memory) (w : Addr c × List Byte)
    (writes : List (Addr c × List Byte)) :
    memWrites ram (w :: writes) = memWrites (memWrite ram w.1.toNat w.2) writes := rfl

/-- The writes of a load as writes to an array. -/
theorem memWrites_data (ram : Memory) (writes : List (Addr c × List Byte)) :
    (memWrites ram writes).data
      = (offsets writes).foldl (fun f w => Bytes.writeAt f w.1 w.2) ram.data := by
  induction writes generalizing ram with
  | nil => rfl
  | cons w writes ih =>
      rw [memWrites_cons, ih, SwapMemory.memWrite_data]
      rfl

theorem mem_offsets {writes : List (Addr c × List Byte)} {w : Addr c × List Byte}
    (h : w ∈ writes) : (w.1.toNat, w.2) ∈ offsets writes :=
  List.mem_map_of_mem (f := fun w : Addr c × List Byte => (w.1.toNat, w.2)) h

/-- A file that ends below an offset is written below it. -/
theorem loadLoop_range {file : List Byte} {ptr : Addr c}
    (h : ptr.toNat + file.length < 2 ^ c.alen) {w : Addr c × List Byte}
    (hw : w ∈ loadLoop ⟨file, false⟩ ptr) : w.1.toNat + w.2.length ≤ ptr.toNat + file.length := by
  obtain ⟨hcons, hall⟩ := loadLoop_consecutive file ptr h
  have hrange := hcons.range (mem_offsets hw)
  rw [hall] at hrange
  exact hrange.2

section

variable {kind : ImageKind} {env : LoadEnv} {file : List Byte} {ramSize dtbSize : Nat}

/-- An image that ends below the blob is loaded. -/
theorem Accepted.inside (h : Accepted c kind env file) (hram : ramSize ≤ ramSizeMax)
    (hpos : 0 < dtbSize) (hdtb : dtbSize ≤ ramSize)
    (hfits : (imageOffset c kind file).toNat + file.length ≤ dtbOffset c ramSize dtbSize)
    (ram : Memory) : LoadedInside ramSize dtbSize ram (loadImage kind env : Load c) file := by
  have hw := two_pow_32_le_alen c
  have hmax : ramSizeMax = 2 ^ 30 := rfl
  obtain ⟨-, hend, -⟩ := dtbOffset_spec (c := c) hram hdtb
  have hlt : (imageOffset c kind file).toNat + file.length < 2 ^ c.alen := by omega
  have hrange : ∀ w ∈ loadLoop ⟨file, false⟩ (imageOffset c kind file),
      w.1.toNat + w.2.length ≤ dtbOffset c ramSize dtbSize :=
    fun w hmem => le_trans (loadLoop_range hlt hmem) hfits
  obtain ⟨hcons, hall⟩ := loadLoop_consecutive file (imageOffset c kind file) hlt
  rw [h.load]
  refine ⟨?_, ?_, ?_, ?_⟩
  · intro w hmem
    have := hrange w hmem
    omega
  · intro w hmem
    -- the last chunk may be empty, and then starts below the blob all the same
    have := hrange w hmem
    exact ⟨by omega, by omega⟩
  · intro w hmem i hlo _ hin
    have := hrange w hmem
    omega
  · -- consecutive writes are one write of the file
    have hoff : imageOffset c kind file + ramBase - ramBase = imageOffset c kind file :=
      BitVec.add_sub_cancel _ _
    rw [hoff, memWrites_data, hcons.writeAt, hall, Bytes.readAt_writeAt_self]

/-- Where a load starts, if it stays in RAM and leaves the blob alone: a kernel image is too large
for the gap behind the blob. -/
theorem LoadedInside.offset_le {ram : Memory} (h : Accepted c kind env file)
    (hram : ramSize ≤ ramSizeMax) (hdtb : dtbSize ≤ ramSize)
    (hload : LoadedInside ramSize dtbSize ram (loadImage kind env : Load c) file) :
    (imageOffset c kind file).toNat ≤ dtbOffset c ramSize dtbSize := by
  cases kind with
  | bin => exact Nat.zero_le _
  | kernel =>
      obtain ⟨hle, -⟩ := h.header rfl
      obtain ⟨-, -, hgap⟩ := dtbOffset_spec (c := c) hram hdtb
      have hbuf := header_fits c
      have htake : (file.take (bufSize c)).length = bufSize c := List.length_take_of_le hle
      have hfirst : (imageOffset c .kernel file, file.take (bufSize c))
          ∈ (loadImage .kernel env : Load c).writes := by
        rw [h.load, loadLoop_full hle]
        exact List.mem_cons_self
      -- an offset behind the blob leaves room for fewer than eight bytes
      have hin := hload.inRam _ hfirst
      have hapart := hload.apart _ hfirst (imageOffset c .kernel file).toNat
      simp only [htake] at hin hapart
      omega

/-- A load that goes well ends below the blob. -/
theorem LoadedInside.fits {ram : Memory} (h : Accepted c kind env file)
    (hram : ramSize ≤ ramSizeMax) (hpos : 0 < dtbSize) (hdtb : dtbSize ≤ ramSize)
    (hload : LoadedInside ramSize dtbSize ram (loadImage kind env : Load c) file) :
    (imageOffset c kind file).toNat + file.length ≤ dtbOffset c ramSize dtbSize := by
  have hw := two_pow_32_le_alen c
  have hmax : ramSizeMax = 2 ^ 30 := rfl
  have hbuf : bufSize c ≤ 4096 := by cases c <;> decide
  obtain ⟨-, hend, -⟩ := dtbOffset_spec (c := c) hram hdtb
  refine loadLoop_avoids (by omega) file _ (hload.offset_le h hram hdtb) ?_
  intro w hmem
  refine hload.apart w ?_ _ (le_refl _) (by omega)
  rw [h.load]
  exact hmem

end

/-- **An image is loaded inside RAM exactly when it ends below the blob**: for every size of RAM
that `main` accepts, every blob that fits libfdt's buffer of 2048 bytes and every file. -/
theorem image_load_iff {memSizeMb : Nat} (hmin : 1 ≤ memSizeMb) (hmax : memSizeMb ≤ 1024)
    {dtbSize : Nat} (hpos : 0 < dtbSize) (hdtb : dtbSize ≤ 2048) (kind : ImageKind)
    (env : LoadEnv) (ram : Memory) :
    ((loadImage kind env : Load c).entry ≠ 0#_ → ∀ file, env.file = some file →
        LoadedInside (memSizeMb * 1024 * 1024) dtbSize ram (loadImage kind env : Load c) file)
      ↔ ∀ file, Accepted c kind env file →
        (imageOffset c kind file).toNat + file.length
          ≤ dtbOffset c (memSizeMb * 1024 * 1024) dtbSize := by
  have hram : memSizeMb * 1024 * 1024 ≤ ramSizeMax := by
    unfold ramSizeMax
    omega
  have hfit : dtbSize ≤ memSizeMb * 1024 * 1024 := by omega
  constructor
  · intro h file hacc
    exact (h ((loadImage_entry_iff kind env).mpr ⟨file, hacc⟩) file hacc.opened).fits hacc hram hpos
      hfit
  · intro h hentry file hfile
    obtain ⟨file', hacc⟩ := (loadImage_entry_iff kind env).mp hentry
    obtain rfl : file' = file := Option.some.inj (hacc.opened.symm.trans hfile)
    exact hacc.inside hram hpos hfit (h file' hacc) ram

/-- 1 MB, a blob of 1000 bytes and a binary image of one byte. -/
theorem image_load_iff_byte :
    ((loadImage .bin ⟨some [0x13#8], true⟩ : Load .rv32).entry ≠ 0#_ →
        ∀ file, (⟨some [0x13#8], true⟩ : LoadEnv).file = some file →
          LoadedInside (1 * 1024 * 1024) 1000 ⟨fun _ => 0#8⟩
            (loadImage .bin ⟨some [0x13#8], true⟩ : Load .rv32) file)
      ↔ ∀ file, Accepted .rv32 .bin ⟨some [0x13#8], true⟩ file →
        (imageOffset .rv32 .bin file).toNat + file.length
          ≤ dtbOffset .rv32 (1 * 1024 * 1024) 1000 :=
  image_load_iff (by decide) (by decide) (by decide) (by decide) .bin _ _

/-- A binary image one byte shorter than 1 MB of RAM, and a blob of 1000 bytes. -/
def longImage : LoadEnv := ⟨some (List.replicate 1048575 0#8), true⟩

/-- The image is copied over the blob; every assert holds, and the loader returns its entry
point. -/
theorem image_over_blob :
    (loadImage .bin longImage : Load .rv32).entry ≠ 0#_
      ∧ (∀ w ∈ (loadImage .bin longImage : Load .rv32).writes,
          memAsserts (1 * 1024 * 1024) w.1.toNat w.2.length)
      ∧ ¬LoadedInside (1 * 1024 * 1024) 1000 ⟨fun _ => 0#8⟩
          (loadImage .bin longImage : Load .rv32) (List.replicate 1048575 0#8) := by
  have hacc : Accepted .rv32 .bin longImage (List.replicate 1048575 0#8) :=
    ⟨rfl, rfl, (fun hk => by cases hk), by rw [imageOffset]; decide⟩
  have hzero : (imageOffset .rv32 .bin (List.replicate 1048575 0#8)).toNat = 0 := rfl
  have hlen : (List.replicate 1048575 0#8).length = 1048575 := List.length_replicate
  have hram : 1 * 1024 * 1024 ≤ ramSizeMax := by decide
  refine ⟨(loadImage_entry_iff .bin longImage).mpr ⟨_, hacc⟩, ?_, ?_⟩
  · rw [hacc.load]
    intro w hmem
    have hrange := loadLoop_range (by rw [hzero, hlen]; decide) hmem
    exact ⟨by omega, by omega⟩
  · intro hload
    have hfits := hload.fits hacc hram (by decide) (by decide)
    obtain ⟨-, hend, -⟩ := dtbOffset_spec (c := .rv32) hram (by decide : 1000 ≤ _)
    omega

/-! ## The blob after the load -/

/-- `mem_write` calls leave what is outside their ranges. -/
theorem memWrites_frame (ram : Memory) (writes : List (Addr c × List Byte)) (i : Nat)
    (h : ∀ w ∈ writes, ¬(w.1.toNat ≤ i ∧ i < w.1.toNat + w.2.length)) :
    (memWrites ram writes).data i = ram.data i := by
  induction writes generalizing ram with
  | nil => rfl
  | cons w writes ih =>
      have hw := h w List.mem_cons_self
      have hrest := ih (memWrite ram w.1.toNat w.2) fun v hv => h v (List.mem_cons_of_mem _ hv)
      rw [memWrites_cons, hrest, memWrite_frame _ _ _ _ (by omega)]

/-- `_buildDeviceTree` puts the blob at its offset in RAM. -/
theorem buildDeviceTree_ram {ramSize : Nat} {m : Machine c} (hdev : MainDevices ramSize m.bus)
    (hram : ramSize ≤ ramSizeMax) {blob : List Byte} (hblob : blob.length ≤ ramSize) :
    (buildDeviceTree m ramSize blob).1.ram
      = memWrite m.ram (dtbOffset c ramSize blob.length) blob := by
  obtain ⟨haddr, hend, -⟩ := dtbOffset_spec (c := c) hram hblob
  have hin : InRam ramSize (dtbAddress c ramSize blob.length) blob.length := by
    unfold InRam
    omega
  simp only [buildDeviceTree, busWrite_inRam hdev hram hin, Option.getD_some]
  rfl

/-- **The blob survives** a load that stays inside. -/
theorem LoadedInside.blob {ramSize : Nat} {m : Machine c} (hdev : MainDevices ramSize m.bus)
    (hram : ramSize ≤ ramSizeMax) {blob file : List Byte} (hblob : blob.length ≤ ramSize)
    {load : Load c}
    (h : LoadedInside ramSize blob.length (buildDeviceTree m ramSize blob).1.ram load file) :
    Bytes.readAt (memWrites (buildDeviceTree m ramSize blob).1.ram load.writes).data
      (dtbOffset c ramSize blob.length) blob.length = blob := by
  calc Bytes.readAt (memWrites (buildDeviceTree m ramSize blob).1.ram load.writes).data
        (dtbOffset c ramSize blob.length) blob.length
      = Bytes.readAt (buildDeviceTree m ramSize blob).1.ram.data
          (dtbOffset c ramSize blob.length) blob.length := by
        apply Bytes.readAt_congr
        intro i hi
        refine memWrites_frame _ _ _ ?_
        intro w hw
        exact h.apart w hw _ (by omega) (by omega)
    _ = blob := by
        rw [buildDeviceTree_ram hdev hram hblob, SwapMemory.memWrite_data,
          Bytes.readAt_writeAt_self]

/-! ## The paged RAM -/

theorem flatRun_writes (ram : Memory) (writes : List (Addr c × List Byte)) :
    (SwapMemory.flatRun ram (writes.map fun w => .write w.1.toNat w.2)).1
      = memWrites ram writes := by
  induction writes generalizing ram with
  | nil => rfl
  | cons w writes ih => exact ih (memWrite ram w.1.toNat w.2)

/-- With the RAM in swap files, a load that stays inside ends in pages and files that stand for the
same RAM. -/
theorem LoadedInside.paged {cfg : MemCfg} {env : SwapEnv} {s : SwapMemory cfg} {j nFiles : Nat}
    {l : List (Fin cfg.pages)} {ram : Memory} (hio : env.ioOk) (hpages : 2 ≤ cfg.pages)
    (hs : s.Represents j nFiles l ram) {ramSize : Nat} (hsize : ramSize ≤ nFiles * 2 ^ j)
    {dtbSize : Nat} {file : List Byte} {load : Load c}
    (h : LoadedInside ramSize dtbSize ram load file) :
    ∃ t answers l', SwapMemory.pagedRun env s (load.writes.map fun w => .write w.1.toNat w.2)
        = some (t, answers) ∧ t.Represents j nFiles l' (memWrites ram load.writes) := by
  have hinside : ∀ op ∈ load.writes.map fun w => SwapMemory.MemOp.write w.1.toNat w.2,
      op.inside (nFiles * 2 ^ j) := by
    intro op hop
    obtain ⟨w, hw, rfl⟩ := List.mem_map.mp hop
    exact le_trans (h.inRam w hw) hsize
  obtain ⟨t, l', hrun, ht⟩ := SwapMemory.pagedRun_spec hio hpages _ hs hinside
  rw [flatRun_writes] at ht
  exact ⟨t, _, l', hrun, ht⟩

end RV640
