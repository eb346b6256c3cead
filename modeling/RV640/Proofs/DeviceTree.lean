import RV640.DeviceTree
import RV640.Proofs.FdtRoundTrip
import RV640.Proofs.ImageLoad

set_option autoImplicit false

/-! # The device tree of the machine

The calls of `device_tree.c` fit the buffer of 2048 bytes for every size of RAM, so the blob is
always built; a guest that reads it finds the tree below, and the tree describes the devices on the
bus and the lines between them.
-/

namespace RV640

open Bits Bytes

variable {c : Cfg} {host : HostBuf} {flags : BitVec 32} {size : Nat} {d : Draft} {fdt : HostBuf}

/-! ## Building -/

/-- Calls that fit are all made. -/
theorem Writing.checked (assumePerfect : Bool) (self : DeviceTree c) {e : Draft}
    {ts : List FdtCall} (h : Writing host flags size d self.buf)
    (he : ts.foldl (Draft.add (fdtDedup flags)) d = e) (hts : ∀ t ∈ ts, t.Short)
    (hroom : e.space ≤ size) :
    ∃ buf, fdtChecked assumePerfect self ts = some { self with buf := buf } ∧
      Writing host flags size e buf := by
  induction ts generalizing d self with
  | nil =>
      obtain rfl : d = e := he
      exact ⟨self.buf, rfl, h⟩
  | cons t ts ih =>
      have hfirst : (d.add (fdtDedup flags) t).space ≤ size := by
        have := Draft.space_le_foldl (fdtDedup flags) (d.add (fdtDedup flags) t) ts
        rw [List.foldl_cons] at he
        rw [he] at this
        omega
      have hrun := h.run assumePerfect (hts t List.mem_cons_self)
      unfold Extends at hrun
      rw [if_pos hfirst] at hrun
      obtain ⟨herr, hnext⟩ := hrun
      obtain ⟨buf, hbuf, hw⟩ := ih { self with buf := (t.run assumePerfect self.buf).1 } hnext he
        fun u hu => hts u (List.mem_cons_of_mem t hu)
      refine ⟨buf, ?_, hw⟩
      have hsplit : t.run assumePerfect self.buf = ((t.run assumePerfect self.buf).1, none) :=
        Prod.ext rfl herr
      rw [fdtChecked, hsplit]
      exact hbuf

/-- The calls `main` makes for a RAM of `memSize` bytes. -/
def machineCalls (c : Cfg) (memSize : Addr c) : List FdtCall :=
  dtInitCalls c 1#32
    ++ dtAclintCalls (c := c) 1#32 aclintBase (BitVec.ofNat _ aclintSize)
    ++ dtPlicCalls (c := c) 1#32 2#32 plicBase (BitVec.ofNat _ plicSize)
      (BitVec.ofNat 32 plicInterrupts)
    ++ dtNs16550aCalls (c := c) (some 3#32) 2#32 uartBase (BitVec.ofNat _ ns16550aSize)
      (BitVec.ofNat 32 ns16550aIrq)
    ++ dtFinishCalls ramBase memSize 3#32

/-! ## The size of the blob -/

/-- The name a call brings. -/
def FdtCall.propName : FdtCall → Option CString
  | property name _ => some name
  | _ => none

theorem Draft.tab_foldl (dedup : Bool) (d : Draft) (ts : List FdtCall) :
    (ts.foldl (Draft.add dedup) d).tab
      = (ts.filterMap FdtCall.propName).foldl (tabAdd dedup) d.tab := by
  induction ts generalizing d with
  | nil => rfl
  | cons t ts ih =>
      rw [List.foldl_cons, ih]
      cases t <;> rfl

/-- Whether a table holds a string, one suffix after the other. -/
def tabHolds (tab : List Byte) (s : CString) : Bool :=
  tab.tails.any fun t => t.take (s.length + 1) = s.bytes

theorem tabFind_isSome (tab : List Byte) (s : CString) :
    (tabFind tab s).isSome = tabHolds tab s := by
  rw [Bool.eq_iff_iff, tabFind, List.find?_isSome, tabHolds, List.any_eq_true]
  constructor
  · rintro ⟨i, hi, hhas⟩
    exact ⟨tab.drop i, by simpa using List.drop_suffix i tab, by simpa [tabHas] using hhas⟩
  · rintro ⟨t, ht, hs⟩
    obtain ⟨xs, rfl⟩ := (List.mem_tails _ _).mp ht
    have hs := of_decide_eq_true hs
    have hlen := congrArg List.length hs
    rw [List.length_take, s.bytes_length] at hlen
    refine ⟨xs.length, ?_, ?_⟩
    · rw [List.mem_range, List.length_append]
      omega
    · rw [tabHas, List.drop_left, hs, decide_eq_true_eq]

/-- The shared names, with the search that `tabHolds` makes. -/
def namesTab (names : List CString) : List Byte :=
  names.foldl (fun tab s => if tabHolds tab s then tab else s.bytes ++ tab) []

theorem draftOf_tab (ts : List FdtCall) :
    (draftOf 0#32 ts).tab = namesTab (ts.filterMap FdtCall.propName) := by
  have hadd : tabAdd true = fun tab s => if tabHolds tab s then tab else s.bytes ++ tab := by
    funext tab s
    rw [tabAdd, tabFind_isSome, Bool.true_and]
  rw [draftOf, Draft.tab_foldl, namesTab, ← hadd]
  rfl

/-- The draft of the machine's device tree. -/
def machineDraft (c : Cfg) (memSize : Addr c) : Draft := draftOf 0#32 (machineCalls c memSize)

/-- The size of the blob. -/
def blobSize (c : Cfg) : Nat := if c.isRv64 then 1589 else 1557

/-- The configurations have the same names in the same order. -/
theorem machineDraft_tab (c : Cfg) (memSize : Addr c) :
    (machineDraft c memSize).tab.length = 353 := by
  have hnames : (machineCalls c memSize).filterMap FdtCall.propName
      = (machineCalls .rv32 0#_).filterMap FdtCall.propName := by
    cases c <;> rfl
  have htab : (namesTab ((machineCalls .rv32 0#_).filterMap FdtCall.propName)).length = 353 := by
    decide +kernel
  rw [machineDraft, draftOf_tab, hnames, htab]

/-- The size of RAM is a number in the blob: it does not change the layout. -/
theorem machineDraft_space (c : Cfg) (memSize : Addr c) :
    (machineDraft c memSize).space + 4 = blobSize c := by
  have hsizes :
      (machineCalls c memSize).map FdtCall.size = (machineCalls c 0#_).map FdtCall.size := by
    have hreg : ∀ addr size : Addr c,
        (writeReg' addr size).size = (writeReg' (0#_ : Addr c) 0#_).size := by
      cases c <;> exact fun _ _ => rfl
    simp only [machineCalls, dtFinishCalls, List.map_append, List.map_cons, hreg ramBase memSize,
      hreg ramBase 0#_]
  have hcalls : (machineDraft c memSize).calls = machineCalls c memSize :=
    Draft.calls_foldl _ ⟨[], []⟩ _
  have hzero : fdtStruct + callsSize (machineCalls c 0#_) + 353 + 4 = blobSize c := by
    cases c <;> decide
  rw [Draft.space, hcalls, machineDraft_tab, callsSize, hsizes]
  exact hzero

/-- The buffer of `dt_init` is large enough. -/
theorem machine_room (c : Cfg) (memSize : Addr c) :
    (machineDraft c memSize).space + 4 ≤ dtBufsize := by
  rw [machineDraft_space]
  cases c <;> decide

theorem short_machineCalls (c : Cfg) (memSize : Addr c) :
    ∀ t ∈ machineCalls c memSize, t.Short := by
  have hmap : (machineCalls c memSize).map (fun t => decide t.Short)
      = (machineCalls c 0#_).map fun t => decide t.Short := by
    simp only [machineCalls, dtFinishCalls, List.map_append, List.map_cons]
    rfl
  have hall : ∀ b ∈ (machineCalls c 0#_).map fun t => decide t.Short, b = true := by
    cases c <;> decide
  intro t ht
  rw [← hmap] at hall
  exact of_decide_eq_true (hall _ (List.mem_map_of_mem ht))

/-! ## The blob -/

theorem dtInit_eq {assumePerfect : Bool} {buf start : HostBuf}
    (h : fdtStart assumePerfect buf dtBufsize 0#32 = (start, none)) :
    (dtInit assumePerfect (some buf) : Option (DeviceTree c))
      = (fdtChecked assumePerfect ⟨start, 1#32, false, 0#32, 1#32, 0#32, 0#_, 0#_⟩
          (dtInitCalls c 1#32)).map fun self => { self with inSOC := true } := by
  unfold fdtStart at h
  unfold dtInit fdtCreate
  simp only
  cases hcreate : fdtCreateWithFlags buf dtBufsize 0#32 with
  | mk fdt err =>
      rw [hcreate] at h
      cases err with
      | some err => simp at h
      | none =>
          simp only at h ⊢
          rw [h]

/-- **The blob is always built**, whatever `malloc` returns and whatever the size of RAM. -/
theorem machineBlob_finished (c : Cfg) (assumePerfect : Bool) (buf : HostBuf) (memSize : Addr c) :
    ∃ fdt, Finished buf dtBufsize (machineDraft c memSize) fdt ∧
      machineBlob c assumePerfect (some buf) memSize
        = some (fdt.read 0 ((machineDraft c memSize).space + 4)) := by
  have hroom := machine_room c memSize
  have hshort := short_machineCalls c memSize
  simp only [machineCalls, List.mem_append, or_imp, forall_and] at hshort
  obtain ⟨⟨⟨⟨hinit, haclint⟩, hplic⟩, huart⟩, hfinish⟩ := hshort
  obtain ⟨start, hstart, hw⟩ := writing_start assumePerfect buf (show FdtFlagsOk 0#32 from rfl)
    (show fdtStruct ≤ dtBufsize by decide) (by decide)
  -- the draft after each of the functions
  have hfold : draftOf 0#32 (machineCalls c memSize) = machineDraft c memSize := rfl
  simp only [draftOf, machineCalls, List.foldl_append] at hfold
  generalize machineDraft c memSize = e at hfold hroom ⊢
  generalize hd1 : (dtInitCalls c 1#32).foldl _ _ = d1 at hfold
  generalize hd2 : List.foldl _ d1 _ = d2 at hfold
  generalize hd3 : List.foldl _ d2 _ = d3 at hfold
  generalize hd4 : List.foldl _ d3 _ = d4 at hfold
  have hroom4 : d4.space ≤ dtBufsize := by
    have := Draft.space_le_foldl (fdtDedup 0#32) d4 (dtFinishCalls ramBase memSize 3#32)
    rw [hfold] at this
    omega
  have hroom3 : d3.space ≤ dtBufsize := (hd4 ▸ Draft.space_le_foldl _ d3 _).trans hroom4
  have hroom2 : d2.space ≤ dtBufsize := (hd3 ▸ Draft.space_le_foldl _ d2 _).trans hroom3
  have hroom1 : d1.space ≤ dtBufsize := (hd2 ▸ Draft.space_le_foldl _ d1 _).trans hroom2
  obtain ⟨buf1, hbuf1, hw1⟩ := Writing.checked (c := c) assumePerfect
    ⟨start, 1#32, false, 0#32, 1#32, 0#32, 0#_, 0#_⟩ hw hd1 hinit hroom1
  obtain ⟨buf2, hbuf2, hw2⟩ := Writing.checked (c := c) assumePerfect
    ⟨buf1, 1#32, true, 0#32, 1#32, 0#32, ramBase, memSize⟩ hw1 hd2 haclint hroom2
  obtain ⟨buf3, hbuf3, hw3⟩ := Writing.checked (c := c) assumePerfect
    ⟨buf2, 2#32, true, 0#32, 1#32, 2#32, ramBase, memSize⟩ hw2 hd3 hplic hroom3
  obtain ⟨buf4, hbuf4, hw4⟩ := Writing.checked (c := c) assumePerfect
    ⟨buf3, 3#32, true, 3#32, 1#32, 2#32, ramBase, memSize⟩ hw3 hd4 huart hroom4
  obtain ⟨buf5, hbuf5, hw5⟩ := Writing.checked (c := c) assumePerfect
    ⟨buf4, 3#32, false, 3#32, 1#32, 2#32, ramBase, memSize⟩ hw4 hfold hfinish (by omega)
  have hfin := hw5.finish assumePerfect
  rw [if_pos hroom] at hfin
  obtain ⟨fdt, hfdt, hf⟩ := hfin
  refine ⟨fdt, hf, ?_⟩
  have htotal : (fdtGetHeader fdt .totalsize).toNat = e.space + 4 := by
    have hsmall := hf.sized.small
    rw [hf.sized.totalsize, toNat_ofNat_word (by omega)]
  have hinit' : dtInit assumePerfect (some buf)
      = some (⟨buf1, 1#32, true, 0#32, 1#32, 0#32, 0#_, 0#_⟩ : DeviceTree c) := by
    rw [dtInit_eq hstart, hbuf1]
    rfl
  have haclint' : dtAddAclint assumePerfect
      ⟨buf1, 1#32, true, 0#32, 1#32, 0#32, ramBase, memSize⟩ aclintBase (BitVec.ofNat _ aclintSize)
        = some ⟨buf2, 1#32, true, 0#32, 1#32, 0#32, ramBase, memSize⟩ := hbuf2
  have hplic' : dtAddPlic assumePerfect
      ⟨buf2, 1#32, true, 0#32, 1#32, 0#32, ramBase, memSize⟩ plicBase (BitVec.ofNat _ plicSize)
        (BitVec.ofNat 32 plicInterrupts)
        = some ⟨buf3, 2#32, true, 0#32, 1#32, 2#32, ramBase, memSize⟩ := hbuf3
  have huart' : dtAddNs16550a assumePerfect
      ⟨buf3, 2#32, true, 0#32, 1#32, 2#32, ramBase, memSize⟩ uartBase
        (BitVec.ofNat _ ns16550aSize) (BitVec.ofNat 32 ns16550aIrq)
        = some ⟨buf4, 3#32, true, 3#32, 1#32, 2#32, ramBase, memSize⟩ := hbuf4
  have hfinish' : dtFinish assumePerfect
      ⟨buf4, 3#32, true, 3#32, 1#32, 2#32, ramBase, memSize⟩
        = some ⟨fdt, 3#32, false, 3#32, 1#32, 2#32, ramBase, memSize⟩ := by
    rw [dtFinish, if_pos rfl, hbuf5, Option.bind_some]
    simp only [hfdt, if_true]
  calc machineBlob c assumePerfect (some buf) memSize
      = ((dtAddMemeory (⟨buf1, 1#32, true, 0#32, 1#32, 0#32, 0#_, 0#_⟩ : DeviceTree c) ramBase
          memSize).bind fun dt =>
            (dtAddAclint assumePerfect dt aclintBase (BitVec.ofNat _ aclintSize)).bind fun dt =>
            (dtAddPlic assumePerfect dt plicBase (BitVec.ofNat _ plicSize)
              (BitVec.ofNat 32 plicInterrupts)).bind fun dt =>
            (dtAddNs16550a assumePerfect dt uartBase (BitVec.ofNat _ ns16550aSize)
              (BitVec.ofNat 32 ns16550aIrq)).bind fun dt =>
            (dtFinish assumePerfect dt).bind fun dt => some (dtBlob dt)) := by
        rw [machineBlob, hinit']
        rfl
    _ = some (dtBlob (⟨fdt, 3#32, false, 3#32, 1#32, 2#32, ramBase, memSize⟩ : DeviceTree c)) := by
        rw [dtAddMemeory, if_pos rfl, Option.bind_some, haclint', Option.bind_some, hplic',
          Option.bind_some, huart', Option.bind_some, hfinish', Option.bind_some]
    _ = some (fdt.read 0 (e.space + 4)) := by rw [dtBlob, htotal]

/-! ## The tree -/

/-- The tree of the calls. -/
def machineTree (c : Cfg) (memSize : Addr c) : FdtTree :=
  match Outline.parse ((machineCalls c memSize).map FdtCall.token) with
  | some [t] => t
  | _ => .node (cstr "") [] []

/-- The calls are balanced. -/
theorem parse_machineCalls (c : Cfg) (memSize : Addr c) :
    Outline.parse ((machineCalls c memSize).map FdtCall.token) = some [machineTree c memSize] := by
  cases c <;> rfl

/-- A guest that reads memory with the blob in it finds the tree. -/
theorem Finished.machineTree {memSize : Addr c}
    (h : Finished host size (machineDraft c memSize) fdt)
    (assumePerfect : Bool) : fdtTrees assumePerfect fdt = some [machineTree c memSize] := by
  have hcalls : (machineDraft c memSize).calls = machineCalls c memSize :=
    Draft.calls_foldl _ ⟨[], []⟩ _
  rw [fdtTrees, h.tokens assumePerfect, hcalls]
  exact parse_machineCalls c memSize

/-! ## What the tree says -/

theorem cells_fdt32Array (ws : List (BitVec 32)) : FdtTree.cells (fdt32Array ws) = ws := by
  induction ws with
  | nil => rfl
  | cons w ws ih =>
      have hword : ofBytes (toBytes 4 w) = w := ofBytes_toBytes (by decide) w
      calc FdtTree.cells (fdt32Array (w :: ws))
          = ofBytes (toBytes 4 w) :: FdtTree.cells (fdt32Array ws) := rfl
        _ = w :: ws := by rw [hword, ih]

/-- Two cells hold a 64-bit number. -/
theorem ofCells_pair (x : BitVec 64) :
    FdtTree.ofCells [(x >>> 32).setWidth 32, x.setWidth 32] = x.toNat := by
  have hhigh : ((x >>> 32).setWidth 32).toNat = x.toNat / 2 ^ 32 := by
    rw [BitVec.toNat_setWidth, BitVec.toNat_ushiftRight, Nat.shiftRight_eq_div_pow]
    omega
  have hlow : (x.setWidth 32).toNat = x.toNat % 2 ^ 32 := BitVec.toNat_setWidth _ _
  simp only [FdtTree.ofCells, List.foldl_cons, List.foldl_nil, hhigh, hlow]
  omega

/-- `_writeReg` writes numbers of as many cells as `X_CELLS` says. -/
theorem ofCells_regCells (addr size : Addr c) :
    FdtTree.ofCells ((regCells c addr size).take (xCells c).toNat) = addr.toNat ∧
      FdtTree.ofCells (((regCells c addr size).drop (xCells c).toNat).take (xCells c).toNat)
        = size.toNat := by
  have hone : ∀ x : BitVec 32, FdtTree.ofCells [x.setWidth 32] = x.toNat := fun x => by
    simp [FdtTree.ofCells]
  have hzero : ∀ x : BitVec 32, FdtTree.ofCells [0#32, x.setWidth 32] = x.toNat := fun x => by
    simp [FdtTree.ofCells]
  cases c with
  | rv32 => exact ⟨hone addr, hone size⟩
  | rv64 => exact ⟨ofCells_pair addr, ofCells_pair size⟩
  | rv64Addr32 => exact ⟨hzero addr, hzero size⟩

/-- The interrupt lines of the emulator: the ACLINT and the two contexts of the PLIC raise
interrupts of the hart, and the UART raises one of the PLIC. -/
def machineLines (c : Cfg) : List (CString × CString × Nat) :=
  let clint := addressedName (c := c) "clint" aclintBase
  let plic := addressedName (c := c) "interrupt-controller" plicBase
  let uart := addressedName (c := c) "serial" uartBase
  let hart := cstr "interrupt-controller"
  [(clint, hart, IrqCause.machineSwInt.toNat), (clint, hart, IrqCause.machineTmrInt.toNat)]
    ++ (List.range plicContexts).map (fun i => (plic, hart, (Plic.contextCause i).toNat))
    ++ [(uart, plic, ns16550aIrq)]

/-- The tree describes the machine with a RAM of `ramSize` bytes: its address ranges are those of
the devices on the bus, its interrupt lines are those of the emulator, no phandle is given twice,
and time and the block of `cbo.zero` are measured as the emulator does. -/
structure Describes (c : Cfg) (ramSize : Nat) (root : FdtTree) : Prop where
  ranges : (FdtTree.ranges root).Perm
    ((mainBus c ramSize).devices.map fun d => (d.base.toNat, d.dev.size.toNat))
  lines : FdtTree.irqLines root = machineLines c
  phandles : (FdtTree.phandles root).Nodup
  timebase : (FdtTree.nodes root).filterMap (FdtTree.cell · "timebase-frequency")
    = [aclintFreqency.setWidth 32]
  cbozBlock : (FdtTree.nodes root).filterMap (FdtTree.cell · "riscv,cboz-block-size")
    = [BitVec.ofNat 32 dcacheLineSize]

theorem ranges_machineTree (c : Cfg) (memSize : Addr c) :
    FdtTree.ranges (machineTree c memSize)
      = [((aclintBase : Addr c).toNat, aclintSize), ((plicBase : Addr c).toNat, plicSize),
        ((uartBase : Addr c).toNat, ns16550aSize), ((ramBase : Addr c).toNat, memSize.toNat)] := by
  have hreg : FdtTree.ranges (machineTree c memSize)
      = [((aclintBase : Addr c).toNat, aclintSize), ((plicBase : Addr c).toNat, plicSize),
        ((uartBase : Addr c).toNat, ns16550aSize),
        (FdtTree.ofCells
            ((FdtTree.cells (fdt32Array (regCells c ramBase memSize))).take (xCells c).toNat),
          FdtTree.ofCells
            (((FdtTree.cells (fdt32Array (regCells c ramBase memSize))).drop (xCells c).toNat).take
              (xCells c).toNat))] := by
    cases c <;> rfl
  obtain ⟨hbase, hsize⟩ := ofCells_regCells (c := c) ramBase memSize
  rw [hreg, cells_fdt32Array, hbase, hsize]

theorem machineTree_describes (c : Cfg) (ramSize : Nat) :
    Describes c ramSize (machineTree c (BitVec.ofNat _ ramSize)) where
  ranges := by
    rw [ranges_machineTree]
    -- the bus has the RAM first, the tree last
    have hsizes : ∀ n ≤ 0x400000, (BitVec.ofNat c.alen n).toNat = n := by
      intro n hn
      have hw := two_pow_32_le_alen c
      rw [BitVec.toNat_ofNat, Nat.mod_eq_of_lt (by omega)]
    simp only [mainBus, List.map_cons, List.map_nil, hsizes aclintSize (by decide),
      hsizes plicSize (by decide), hsizes ns16550aSize (by decide)]
    exact @List.perm_append_comm _ [_, _, _] [_]
  lines := by cases c <;> rfl
  phandles := by
    have hphandles :
        FdtTree.phandles (machineTree c (BitVec.ofNat _ ramSize)) = [1#32, 2#32, 3#32] := by
      cases c <;> rfl
    rw [hphandles]
    decide
  timebase := by cases c <;> rfl
  cbozBlock := by cases c <;> rfl

/-! ## The blob in guest memory -/

/-- The blob starts at a multiple of eight bytes, also where `main` aligns it to four: its size and
the size of RAM make up for the rest. -/
theorem dtbAddress_aligned (c : Cfg) {memSizeMb : Nat} (hmin : 1 ≤ memSizeMb)
    (hmax : memSizeMb ≤ 1024) :
    (dtbAddress c (memSizeMb * 1024 * 1024) (blobSize c)).toNat % 8 = 0 := by
  have hmax' : ramSizeMax = 2 ^ 30 := rfl
  have hsize : blobSize c ≤ 2048 := by cases c <;> decide
  rw [dtbAddress_toNat (by omega) (by omega)]
  cases c with
  | rv32 =>
      show (memSizeMb * 1024 * 1024 + 0x80000000 - 1557) / 4 * 4 % 8 = 0
      omega
  | rv64 =>
      show (memSizeMb * 1024 * 1024 + 0x80000000 - 1589) / 8 * 8 % 8 = 0
      omega
  | rv64Addr32 =>
      show (memSizeMb * 1024 * 1024 + 0x80000000 - 1589) / 4 * 4 % 8 = 0
      omega

end RV640
