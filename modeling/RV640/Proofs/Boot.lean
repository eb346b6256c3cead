import RV640.Boot
import RV640.Proofs.ArchState
import RV640.Proofs.DeviceTree
import RV640.Proofs.Icache

set_option autoImplicit false

/-! # What `main` hands to the guest

The bus of the other results is the one `main` registers, and the machine at the start of the main
loop is `vmStart` with the image and the blob in RAM. With an image that ends below the blob the
guest starts at the image's first word and finds in `a1` a device tree of the very machine.
-/

namespace RV640

open Bits Bytes

variable {c : Cfg} {uintBits : Nat} {args : List Arg} {env : HostEnv} {opts : Opts}

/-! ## Options -/

/-- What the accepted options have in common, on the Linux build. -/
theorem checkOpts_linux (h : checkOpts false opts = some opts) :
    (1 ≤ opts.memSizeMb ∧ opts.memSizeMb ≤ 1024) ∧
      (opts.kernelFile.isSome ↔ opts.binFile = none) := by
  unfold checkOpts at h
  simp only [Option.ite_none_left_eq_some, Bool.false_eq_true, if_false, and_true,
    Bool.and_eq_true, Bool.or_eq_true, decide_eq_true_eq, not_or, not_and, Bool.not_eq_true] at h
  obtain ⟨hboth, hnone, hmin, hmax⟩ := h
  refine ⟨by omega, ?_⟩
  constructor
  · intro hk
    simpa using hboth hk
  · intro hb
    rw [hb] at hnone
    simpa [Option.isSome_iff_ne_none] using hnone

theorem checkOpts_same {opts' : Opts} (h : checkOpts false opts = some opts') : opts' = opts := by
  unfold checkOpts at h
  simp only [Option.ite_none_left_eq_some, Bool.false_eq_true, if_false] at h
  exact (Option.some.inj h.2.2.2).symm

theorem parseArgs_linux (h : parseArgs false uintBits args = some opts) :
    (1 ≤ opts.memSizeMb ∧ opts.memSizeMb ≤ 1024) ∧
      (opts.kernelFile.isSome ↔ opts.binFile = none) := by
  obtain ⟨parsed, -, hcheck⟩ := Option.bind_eq_some_iff.mp h
  obtain rfl := checkOpts_same hcheck
  exact checkOpts_linux hcheck

/-! ## The machine -/

theorem registerDevices_eq (c : Cfg) (memSize : Nat) :
    registerDevices c memSize = some (mainBus c memSize) := by
  rfl

/-- The image that the options name. -/
def imageFile (opts : Opts) : ImageKind × String :=
  match opts.kernelFile with
  | some file => (.kernel, file)
  | none => (.bin, opts.binFile.getD "")

theorem loadOption_eq (env : HostEnv) (opts : Opts) :
    (loadOption env opts : Load c)
      = loadImage (imageFile opts).1 (env.file (imageFile opts).2) := by
  cases h : opts.kernelFile with
  | some file => simp only [loadOption, imageFile, h, loadImage]
  | none => simp only [loadOption, imageFile, h, loadImage]

/-- The size of RAM in bytes. -/
def Opts.memSize (opts : Opts) : Nat := opts.memSizeMb * 1024 * 1024

theorem blobSize_le (c : Cfg) : blobSize c ≤ 2048 := by cases c <;> decide

theorem parseArgs_memSize (h : parseArgs false uintBits args = some opts) :
    opts.memSize ≤ ramSizeMax ∧ blobSize c ≤ opts.memSize := by
  obtain ⟨⟨hmin, hmax⟩, -⟩ := parseArgs_linux h
  have hblob := blobSize_le c
  unfold Opts.memSize ramSizeMax
  omega

/-- `main` with everything the host can give: the machine at the start of the main loop, or the end
of the program when the image is refused. -/
theorem boot_eq (c : Cfg) (assumePerfect : Bool) {ram : Memory} {buf : HostBuf}
    (hopts : parseArgs false uintBits args = some opts) (hram : env.ram = some ram)
    (hdtb : env.dtb = some buf) :
    ∃ fdt, Finished buf dtBufsize (machineDraft c (BitVec.ofNat _ opts.memSize)) fdt ∧
      boot c uintBits assumePerfect args env
        = if (loadOption env opts : Load c).entry = 0#_ then none
          else
            some (vmStart (mainBus c opts.memSize)
              (memWrites (memWrite ram (dtbOffset c opts.memSize (blobSize c))
                (fdt.read 0 (blobSize c))) (loadOption env opts : Load c).writes)
              opts.noSBI (loadOption env opts : Load c).entry
              ((dtbAddress c opts.memSize (blobSize c)).setWidth _)) := by
  obtain ⟨hmax, hmin⟩ := parseArgs_memSize (c := c) hopts
  obtain ⟨fdt, hf, hblob⟩ :=
    machineBlob_finished c assumePerfect buf (BitVec.ofNat _ opts.memSize)
  rw [machineDraft_space] at hblob
  refine ⟨fdt, hf, ?_⟩
  have hlen : (fdt.read 0 (blobSize c)).length = blobSize c := readAt_length _ _ _
  obtain ⟨haddr, hend, -⟩ := dtbOffset_spec (c := c) hmax hmin
  have hne : dtbAddress c opts.memSize (blobSize c) ≠ 0#_ := by
    intro h0
    rw [h0, BitVec.toNat_ofNat, Nat.zero_mod] at haddr
    omega
  have hbuild : buildDeviceTree (vmInit (mainBus c opts.memSize) ram (!opts.noSBI)) opts.memSize
      (fdt.read 0 (blobSize c))
        = (vmInit (mainBus c opts.memSize) (memWrite ram (dtbOffset c opts.memSize (blobSize c))
            (fdt.read 0 (blobSize c))) (!opts.noSBI), dtbAddress c opts.memSize (blobSize c)) := by
    have hin : InRam opts.memSize (dtbAddress c opts.memSize (blobSize c))
        (fdt.read 0 (blobSize c)).length := by
      unfold InRam
      omega
    have hdev : MainDevices opts.memSize (vmInit (mainBus c opts.memSize) ram (!opts.noSBI)).bus :=
      rfl
    simp only [buildDeviceTree, hlen, busWrite_inRam hdev hmax hin, Option.getD_some]
    rfl
  unfold Opts.memSize at *
  simp only [boot, hopts, hram, hdtb, registerDevices_eq, hblob, Option.bind_eq_bind,
    Option.bind_some, hbuild, if_neg hne]
  split
  · rfl
  · simp only [startHart, vmStart]
    split <;> rfl

/-! ## The guest's view -/

/-- RAM from an offset on. -/
def ramFrom (ram : Memory) (offset : Nat) : HostBuf := ⟨fun i => ram.data (offset + i)⟩

/-- What the guest finds at the start: the image where the PC points, the hart id in `a0`, and in
`a1` the address of a device tree, complete and aligned, that describes the machine. -/
structure HandedOver (opts : Opts) (file : List Byte) (m : Machine c) : Prop where
  mode : m.cpu.mode = if opts.noSBI then .machine else .supervisor
  calm : m.cpu.trap = false ∧ m.cpu.irq = false ∧ m.cpu.wfi = false
  bus : MainDevices opts.memSize m.bus
  pc : readPC m.cpu = imageOffset c (imageFile opts).1 file + ramBase
  image : readAt m.ram.data (imageOffset c (imageFile opts).1 file).toNat file.length = file
  first : 4 ≤ file.length → IsEven (readPC m.cpu) → (rvFetch m).2 = some (ofBytes (file.take 4))
  hartid : m.cpu.regs regA0 = 0#_
  tree : ∃ dtb root, (m.cpu.regs regA1).toNat = 0x80000000 + dtb ∧
    (m.cpu.regs regA1).toNat % 8 = 0 ∧ dtb + blobSize c ≤ opts.memSize ∧
    fdtCheckHeader (ramFrom m.ram dtb) = none ∧
    (∀ readPerfect, fdtTrees readPerfect (ramFrom m.ram dtb) = some [root]) ∧
    Describes c opts.memSize root

theorem vmStart_cpu (bus : Bus c DevKind) (ram : Memory) (noSBI : Bool) (entryPoint : Addr c)
    (dtbAddress : Word c) :
    let m := vmStart bus ram noSBI entryPoint dtbAddress
    m.cpu.mode = (if noSBI then .machine else .supervisor) ∧
      (m.cpu.trap = false ∧ m.cpu.irq = false ∧ m.cpu.wfi = false) ∧ readPC m.cpu = entryPoint ∧
      m.cpu.regs regA0 = 0#_ ∧ m.cpu.regs regA1 = dtbAddress ∧ m.cpu.icache.base = cpuAddrMax ∧
      m.bus.devices = bus.devices ∧ m.ram = ram := by
  have hdev := busReservationCheckInvalidate_devices bus 0#_ 0
  cases noSBI with
  | true => exact ⟨rfl, ⟨rfl, rfl, rfl⟩, rfl, rfl, rfl, rfl, hdev, rfl⟩
  | false => exact ⟨rfl, ⟨rfl, rfl, rfl⟩, rfl, rfl, rfl, rfl, hdev, rfl⟩

/-- The first word that is executed lies where the PC points. -/
theorem first_fetch {ramSize : Nat} {m : Machine c} (hdev : MainDevices ramSize m.bus)
    (hsz : ramSize ≤ ramSizeMax) (htrap : m.cpu.trap = false) (hirq : m.cpu.irq = false)
    (hempty : m.cpu.icache.base = cpuAddrMax) (heven : IsEven (readPC m.cpu))
    (hin : InRam ramSize (readPC m.cpu) 4) :
    (rvFetch m).2 = some (ofBytes (memRead m.ram (ramOffset (readPC m.cpu)) 4)) := by
  have henter : rvEnter m = (m, false) := by
    simp only [rvEnter, htrap, hirq, Bool.false_eq_true, if_false]
  have hmiss : fetchMisses m = true := by simp [fetchMisses, hempty]
  have hfetch : (fetch m).1.cpu.trap = false ∧
      (fetch m).2 = ofBytes (memRead m.ram (ramOffset (readPC m.cpu)) 4) := by
    by_cases hfit : InRam ramSize (readPC m.cpu) icacheLineSize
    · rw [fetch_fill hdev hsz heven.and_one hmiss hfit]
      exact ⟨htrap, rfl⟩
    · rw [fetch_fallback hdev hsz heven.and_one hin hmiss hfit]
      exact ⟨htrap, rfl⟩
  simp only [rvFetch, henter, hfetch.1, hfetch.2, Bool.false_eq_true, if_false]

/-- A blob behind the image is read as it was written. -/
theorem LoadedInside.blob_data {ramSize n : Nat} {ram : Memory} {fdt : HostBuf} {file : List Byte}
    {load : Load c}
    (h : LoadedInside ramSize n (memWrite ram (dtbOffset c ramSize n) (fdt.read 0 n)) load file)
    {i : Nat} (hi : i < n) :
    (ramFrom (memWrites (memWrite ram (dtbOffset c ramSize n) (fdt.read 0 n)) load.writes)
      (dtbOffset c ramSize n)).data i = fdt.data i := by
  have hframe := memWrites_frame (memWrite ram (dtbOffset c ramSize n) (fdt.read 0 n)) load.writes
    (dtbOffset c ramSize n + i) fun w hmem => h.apart w hmem _ (by omega) (by omega)
  have hlen : (fdt.read 0 n).length = n := readAt_length _ _ _
  have hget : (fdt.read 0 n)[i]? = some (fdt.data i) := by
    rw [HostBuf.read, readAt_getElem?, if_pos hi, Nat.zero_add]
  refine hframe.trans ?_
  rw [memWrite_data, hlen, if_pos (by omega), Nat.add_sub_cancel_left, hget, Option.getD_some]

/-- The address of an offset in RAM. -/
theorem ramAddr_toNat {ramSize : Nat} (hsz : ramSize ≤ ramSizeMax) {offset : Addr c}
    (h : offset.toNat ≤ ramSize) : (offset + ramBase).toNat = offset.toNat + 0x80000000 := by
  have hw := two_pow_32_le_alen c
  have hlimit : ramSizeMax = 2 ^ 30 := rfl
  rw [BitVec.toNat_add, ramBase_toNat, Nat.mod_eq_of_lt]
  generalize offset.toNat = n at *
  omega

/-- The start of the main loop, from what is in RAM. -/
theorem handedOver_vmStart {file : List Byte} {ram : Memory} {host : HostBuf} {n : Nat}
    (hopts : parseArgs false uintBits args = some opts)
    (himage : readAt ram.data (imageOffset c (imageFile opts).1 file).toNat file.length = file)
    (hfits : (imageOffset c (imageFile opts).1 file).toNat + file.length ≤ opts.memSize)
    (hguest : Finished host n (machineDraft c (BitVec.ofNat _ opts.memSize))
      (ramFrom ram (dtbOffset c opts.memSize (blobSize c)))) :
    HandedOver opts file (vmStart (mainBus c opts.memSize) ram opts.noSBI
      (imageOffset c (imageFile opts).1 file + ramBase)
      ((dtbAddress c opts.memSize (blobSize c)).setWidth _)) := by
  obtain ⟨hmax, hmin⟩ := parseArgs_memSize (c := c) hopts
  obtain ⟨⟨hmin', hmax'⟩, -⟩ := parseArgs_linux hopts
  obtain ⟨haddr, hend, -⟩ := dtbOffset_spec (c := c) hmax hmin
  have hoff := @ramAddr_toNat c _ hmax (imageOffset c (imageFile opts).1 file) (by omega)
  have haligned : (dtbAddress c opts.memSize (blobSize c)).toNat % 8 = 0 :=
    dtbAddress_aligned c hmin' hmax'
  obtain ⟨hmode, hcalm, hpc, ha0, ha1, hbase, hdev, hram⟩ := vmStart_cpu (mainBus c opts.memSize)
    ram opts.noSBI (imageOffset c (imageFile opts).1 file + ramBase)
    ((dtbAddress c opts.memSize (blobSize c)).setWidth _)
  generalize vmStart (mainBus c opts.memSize) ram opts.noSBI
    (imageOffset c (imageFile opts).1 file + ramBase)
    ((dtbAddress c opts.memSize (blobSize c)).setWidth _) = m at *
  subst hram
  have ha1' : (m.cpu.regs regA1).toNat = (dtbAddress c opts.memSize (blobSize c)).toNat := by
    rw [ha1, BitVec.toNat_setWidth_of_le c.alen_le_xlen]
  refine ⟨hmode, hcalm, hdev, hpc, himage, ?_, ha0, ?_⟩
  · intro hfour heven
    rw [← hpc] at hoff
    have hin : InRam opts.memSize (readPC m.cpu) 4 := by
      unfold InRam
      omega
    have hat : ramOffset (readPC m.cpu) = (imageOffset c (imageFile opts).1 file).toNat := by
      unfold ramOffset
      omega
    rw [first_fetch hdev hmax hcalm.1 hcalm.2.1 hbase heven hin, hat]
    -- the first bytes of the image
    have hsplit := readAt_add m.ram.data (imageOffset c (imageFile opts).1 file).toNat 4
      (file.length - 4)
    rw [show 4 + (file.length - 4) = file.length by omega, himage] at hsplit
    conv => rhs; rw [hsplit]
    rw [List.take_left' (readAt_length _ _ _)]
    rfl
  · refine ⟨dtbOffset c opts.memSize (blobSize c), machineTree c (BitVec.ofNat _ opts.memSize),
      by rw [ha1', haddr], by rw [ha1']; exact haligned, hend, hguest.checkHeader,
      hguest.machineTree, machineTree_describes c _⟩

/-- A boot with an image that ends below the blob: the image is in RAM behind the tree, and the main
loop starts at it. -/
theorem boot_accepted (c : Cfg) (assumePerfect : Bool) {ram : Memory} {buf : HostBuf}
    (hopts : parseArgs false uintBits args = some opts) (hram : env.ram = some ram)
    (hdtb : env.dtb = some buf) {file : List Byte}
    (hacc : Accepted c (imageFile opts).1 (env.file (imageFile opts).2) file)
    (hfits : (imageOffset c (imageFile opts).1 file).toNat + file.length
      ≤ dtbOffset c opts.memSize (blobSize c)) :
    let load : Load c := loadImage (imageFile opts).1 (env.file (imageFile opts).2)
    ∃ fdt, Finished buf dtBufsize (machineDraft c (BitVec.ofNat _ opts.memSize)) fdt ∧
      LoadedInside opts.memSize (blobSize c)
        (memWrite ram (dtbOffset c opts.memSize (blobSize c)) (fdt.read 0 (blobSize c))) load file ∧
      load.entry = imageOffset c (imageFile opts).1 file + ramBase ∧
      boot c uintBits assumePerfect args env
        = some (vmStart (mainBus c opts.memSize)
            (memWrites (memWrite ram (dtbOffset c opts.memSize (blobSize c))
              (fdt.read 0 (blobSize c))) load.writes)
            opts.noSBI (imageOffset c (imageFile opts).1 file + ramBase)
            ((dtbAddress c opts.memSize (blobSize c)).setWidth _)) := by
  intro load
  obtain ⟨hmax, hmin⟩ := parseArgs_memSize (c := c) hopts
  obtain ⟨fdt, hf, hboot⟩ := boot_eq c assumePerfect hopts hram hdtb
  have hpos : 0 < blobSize c := by cases c <;> decide
  have hentry : load.entry = imageOffset c (imageFile opts).1 file + ramBase :=
    congrArg Load.entry hacc.load
  rw [loadOption_eq, if_neg ((loadImage_entry_iff _ _).mpr ⟨file, hacc⟩)] at hboot
  refine ⟨fdt, hf, hacc.inside hmax hpos hmin hfits _, hentry, ?_⟩
  rw [hboot, ← hentry]

/-- **A guest whose image ends below the blob starts at the image and is told the truth about the
machine**, for every accepted command line and every state of the host. -/
theorem boot_hands_over (c : Cfg) (assumePerfect : Bool) {ram : Memory} {buf : HostBuf}
    (hopts : parseArgs false uintBits args = some opts) (hram : env.ram = some ram)
    (hdtb : env.dtb = some buf) {file : List Byte}
    (hacc : Accepted c (imageFile opts).1 (env.file (imageFile opts).2) file)
    (hfits : (imageOffset c (imageFile opts).1 file).toNat + file.length
      ≤ dtbOffset c opts.memSize (blobSize c)) :
    ∃ m : Machine c, boot c uintBits assumePerfect args env = some m ∧ HandedOver opts file m := by
  obtain ⟨hmax, hmin⟩ := parseArgs_memSize (c := c) hopts
  obtain ⟨fdt, hf, hinside, hentry, hboot⟩ :=
    boot_accepted c assumePerfect hopts hram hdtb hacc hfits
  refine ⟨_, hboot, ?_⟩
  obtain ⟨-, hend, -⟩ := dtbOffset_spec (c := c) hmax hmin
  have himage := hinside.loaded
  rw [hentry, BitVec.add_sub_cancel] at himage
  refine handedOver_vmStart hopts himage (by omega) (hf.congr fun i hi => ?_)
  -- the blob is still there
  rw [machineDraft_space] at hi
  exact hinside.blob_data hi

/-- 1 MB of RAM and a binary image of one instruction. -/
def sampleEnv : HostEnv :=
  ⟨some ⟨fun _ => 0xAA#8⟩, some ⟨fun _ => 0x55#8⟩, fun _ => ⟨some [0x13#8, 0#8, 0#8, 0#8], true⟩⟩

theorem boot_hands_over_sample :
    ∃ m : Machine .rv32, boot .rv32 32 false [.bin "a.bin", .memSize 1] sampleEnv = some m ∧
      HandedOver ⟨none, some "a.bin", none, 0, false, 1⟩ [0x13#8, 0#8, 0#8, 0#8] m :=
  boot_hands_over .rv32 false (by decide) rfl rfl
    ⟨rfl, rfl, (fun hk => by cases hk), by unfold imageOffset imageFile; decide⟩ (by decide)

end RV640
